import LendingXlm.Controller.Entrypoints

/-!
# Delegates follow ownership

Grants are stored with the account and stamped with the owner who made them; the NFT moves without
the controller seeing it.

- **Acts** (`DelegateStep`): grants, revocations, manager activations, burns, any movement of NFTs
  outside, and anything else that leaves the grants alone.
- **The stamp** (`GrantsTraced`): every stored delegate traces back to a grant by the stamped owner
  that nothing has revoked or superseded since (`Stands`).
- **Authority** (`delegate_authority`): what `is_owner_or_delegate` accepts.
-/

namespace Lending

open Transaction Ctrl

variable {W : Type} {h : ControllerHost W}

/-- What happens to the grants, as seen from outside. -/
inductive DelegateAct where
  | add (caller : Address) (accountId : Nat) (delegate : Address)
  | remove (caller : Address) (accountId : Nat) (delegate : Address)
  | setManager (manager : Address) (isActive : Bool)
  | burn (accountId : Nat)
  | transfer
  | other
  deriving DecidableEq

/-- One act on the system. NFTs change hands in the outside world, in any way at any time. -/
inductive DelegateStep (h : ControllerHost W) : System W → DelegateAct → System W → Prop
  | add {s s' : System W} {timestamp : Nat} {caller : Address} {accountId : Nat}
      {delegate : Address}
      (hexec : (ControllerCall.addDelegate caller accountId delegate).exec h timestamp s = .ok s') :
      DelegateStep h s (.add caller accountId delegate) s'
  | remove {s s' : System W} {timestamp : Nat} {caller : Address} {accountId : Nat}
      {delegate : Address}
      (hexec : (ControllerCall.removeDelegate caller accountId delegate).exec h timestamp s =
        .ok s') :
      DelegateStep h s (.remove caller accountId delegate) s'
  | setManager {s s' : System W} {timestamp : Nat} {manager : Address} {isActive : Bool}
      (hexec : (ControllerCall.setPositionManager manager isActive).exec h timestamp s = .ok s') :
      DelegateStep h s (.setManager manager isActive) s'
  | burn {s s' : Invocation W} {accountId : Nat}
      (hexec : Account.removeAccountAndBurnNft h accountId s = .ok () s') :
      DelegateStep h s.toSystem (.burn accountId) s'.toSystem
  | transfer {s : System W} (w : W) : DelegateStep h s .transfer { s with pool.world := w }
  | other {s s' : System W} (hsame : s'.store.delegates = s.store.delegates) :
      DelegateStep h s .other s'

/-- A run, with its acts in order. -/
inductive DelegateRun (h : ControllerHost W) (start : System W) : List DelegateAct → System W → Prop
  | nil : DelegateRun h start [] start
  | snoc {acts : List DelegateAct} {act : DelegateAct} {s s' : System W}
      (hrun : DelegateRun h start acts s) (hstep : DelegateStep h s act s') :
      DelegateRun h start (acts ++ [act]) s'

/-- The act ends `owner`'s grant of `delegate` on the account: it revokes it, replaces the list by
that of another owner, or removes the account. -/
def DelegateAct.Ends (owner : Address) (accountId : Nat) (delegate : Address) :
    DelegateAct → Prop
  | add caller id _ => id = accountId ∧ caller ≠ owner
  | remove caller id d => id = accountId ∧ (caller ≠ owner ∨ d = delegate)
  | burn id => id = accountId
  | setManager _ _ => False
  | transfer => False
  | other => False

/-- `owner`'s latest add or remove of `delegate` on the account was an add, and nothing has
superseded the owner's grants since. -/
def Stands (owner : Address) (accountId : Nat) (delegate : Address) (acts : List DelegateAct) :
    Prop :=
  ∃ before after, acts = before ++ .add owner accountId delegate :: after ∧
    ∀ act ∈ after, ¬ act.Ends owner accountId delegate

theorem Stands.snoc {owner : Address} {accountId : Nat} {delegate : Address}
    {acts : List DelegateAct} {act : DelegateAct} (hs : Stands owner accountId delegate acts)
    (hact : ¬ act.Ends owner accountId delegate) :
    Stands owner accountId delegate (acts ++ [act]) := by
  obtain ⟨before, after, rfl, hafter⟩ := hs
  refine ⟨before, after ++ [act], by simp, fun a ha => ?_⟩
  rcases List.mem_append.mp ha with ha | ha
  · exact hafter a ha
  · rw [List.mem_singleton.mp ha]
    exact hact

theorem stands_self {owner : Address} {accountId : Nat} {delegate : Address}
    {acts : List DelegateAct} :
    Stands owner accountId delegate (acts ++ [.add owner accountId delegate]) :=
  ⟨acts, [], rfl, fun _ h => absurd h List.not_mem_nil⟩

/-! ## What the calls do to the grants -/

theorem Account.requireAccountOwner_along {accountId : Nat} {caller : Address} :
    Along (fun s s' : Invocation W => s = s') (requireAccountOwner h accountId caller) := by
  have : Std.Refl fun s s' : Invocation W => s = s' := ⟨fun _ => rfl⟩
  have : IsTrans (Invocation W) fun s s' => s = s' := ⟨fun _ _ _ => Eq.trans⟩
  have htry : Along (fun s s' : Invocation W => s = s') (Storage.tryAccountOwner h accountId) :=
    .bind .get fun _ => .ite .pure .pure
  exact .bind (.bind (.bind .get fun _ => .pure) fun _ => .lift) fun _ =>
    .bind (.bind htry fun _ => .lift) fun _ => .bind .lift fun _ => .pure

/-- A grant that was accepted leaves the list, or appends the delegate to the caller's own. -/
theorem Account.setAccountDelegate_add {caller : Address} {accountId : Nat} {delegate : Address}
    {s s' : Invocation W} (hrun : setAccountDelegate h caller accountId delegate true s = .ok () s') :
    (delegate ∈ s.store.getDelegates accountId caller ∧
      s'.store.delegates = s.store.delegates) ∨
    (delegate ∉ s.store.getDelegates accountId caller ∧
      (s.store.getDelegates accountId caller).length < maxDelegates ∧
      s'.store.delegates = s.store.delegates.set accountId
        ⟨caller, s.store.getDelegates accountId caller ++ [delegate]⟩) := by
  obtain ⟨m, t, howner, hrun⟩ := bind_ok_iff.mp hrun
  obtain rfl := requireAccountOwner_along.ok howner
  obtain ⟨st, t, hst, hrun⟩ := bind_ok_iff.mp hrun
  simp only [store, bind_ok_iff, get_ok_iff, pure_ok_iff] at hst
  obtain ⟨_, _, ⟨rfl, rfl⟩, rfl, rfl⟩ := hst
  simp only [if_true, assertWithError] at hrun
  obtain ⟨_, _, hactive, hrun⟩ := bind_ok_iff.mp hrun
  obtain ⟨-, rfl⟩ := lift_ok_iff.mp hactive
  split at hrun
  · rename_i hmem
    obtain ⟨-, rfl⟩ := pure_ok_iff.mp hrun
    exact .inl ⟨hmem, rfl⟩
  · rename_i hmem
    obtain ⟨_, _, hcap, hrun⟩ := bind_ok_iff.mp hrun
    obtain ⟨hlt, rfl⟩ := lift_ok_iff.mp hcap
    obtain rfl := modify_ok_iff.mp hrun
    exact .inr ⟨hmem, Fallible.require_ok_iff.mp hlt, rfl⟩

/-- A revocation leaves the caller's own list without the delegate, and deletes a list of someone
else or one that would be empty. -/
theorem Account.setAccountDelegate_remove {caller : Address} {accountId : Nat}
    {delegate : Address} {s s' : Invocation W}
    (hrun : setAccountDelegate h caller accountId delegate false s = .ok () s') :
    (s.store.delegates.get? accountId = none ∧ s'.store.delegates = s.store.delegates) ∨
    s'.store.delegates = s.store.delegates.erase accountId ∨
    ∃ grant, s.store.delegates.get? accountId = some grant ∧ grant.grantedBy = caller ∧
      grant.delegates.erase delegate ≠ [] ∧
      s'.store.delegates = s.store.delegates.set accountId
        ⟨caller, grant.delegates.erase delegate⟩ := by
  obtain ⟨m, t, howner, hrun⟩ := bind_ok_iff.mp hrun
  obtain rfl := requireAccountOwner_along.ok howner
  obtain ⟨st, t, hst, hrun⟩ := bind_ok_iff.mp hrun
  simp only [store, bind_ok_iff, get_ok_iff, pure_ok_iff] at hst
  obtain ⟨_, _, ⟨rfl, rfl⟩, rfl, rfl⟩ := hst
  rw [if_neg (by decide)] at hrun
  cases hget : s.store.delegates.get? accountId with
  | none =>
    simp only [hget] at hrun
    obtain ⟨-, rfl⟩ := pure_ok_iff.mp hrun
    exact .inl ⟨rfl, rfl⟩
  | some grant =>
    simp only [hget] at hrun
    by_cases hby : grant.grantedBy = caller
    · rw [if_pos hby] at hrun
      split at hrun
      · obtain rfl := modify_ok_iff.mp hrun
        exact .inr (.inl rfl)
      · rename_i hne
        obtain rfl := modify_ok_iff.mp hrun
        exact .inr (.inr ⟨grant, rfl, hby, hne, rfl⟩)
    · rw [if_neg hby, if_pos rfl] at hrun
      obtain rfl := modify_ok_iff.mp hrun
      exact .inr (.inl rfl)

/-! ## The stamp -/

/-- Every stored list is short, without repetitions, and traces back to grants of the stamped owner
that still stand. -/
structure GrantTraced (acts : List DelegateAct) (accountId : Nat) (grant : DelegateGrant) :
    Prop where
  length_le : grant.delegates.length ≤ maxDelegates
  nodup : grant.delegates.Nodup
  stands : ∀ d ∈ grant.delegates, Stands grant.grantedBy accountId d acts

def GrantsTraced (acts : List DelegateAct) (delegates : SortedMap Nat DelegateGrant) : Prop :=
  ∀ accountId grant, delegates.get? accountId = some grant → GrantTraced acts accountId grant

/-- An act that ends no stored grant. -/
theorem GrantsTraced.snoc {acts : List DelegateAct} {act : DelegateAct}
    {delegates : SortedMap Nat DelegateGrant} (hs : GrantsTraced acts delegates)
    (hact : ∀ accountId grant d, delegates.get? accountId = some grant → d ∈ grant.delegates →
      ¬ act.Ends grant.grantedBy accountId d) : GrantsTraced (acts ++ [act]) delegates := by
  intro accountId grant hget
  obtain ⟨hlen, hnodup, hstands⟩ := hs accountId grant hget
  exact ⟨hlen, hnodup, fun d hd => (hstands d hd).snoc (hact accountId grant d hget hd)⟩

/-- Writing one account's list, or deleting it. -/
theorem GrantsTraced.write {acts : List DelegateAct} {act : DelegateAct} {n : Nat}
    {delegates delegates' : SortedMap Nat DelegateGrant} (hs : GrantsTraced acts delegates)
    (hact : ∀ accountId ≠ n, ∀ owner d, ¬ act.Ends owner accountId d)
    (hother : ∀ accountId ≠ n, delegates'.get? accountId = delegates.get? accountId)
    (hid : ∀ grant, delegates'.get? n = some grant → GrantTraced (acts ++ [act]) n grant) :
    GrantsTraced (acts ++ [act]) delegates' := by
  intro accountId grant hget
  by_cases heq : accountId = n
  · subst heq
    exact hid grant hget
  · rw [hother accountId heq] at hget
    obtain ⟨hlen, hnodup, hstands⟩ := hs accountId grant hget
    exact ⟨hlen, hnodup, fun d hd => (hstands d hd).snoc (hact accountId heq _ d)⟩

/-- What an owner's list holds is stored under the owner's stamp. -/
theorem ControllerStore.mem_getDelegates {s : ControllerStore} {accountId : Nat}
    {owner d : Address} : d ∈ s.getDelegates accountId owner ↔
      ∃ grant, s.delegates.get? accountId = some grant ∧ grant.grantedBy = owner ∧
        d ∈ grant.delegates := by
  unfold getDelegates
  cases hget : s.delegates.get? accountId with
  | none => simp
  | some grant =>
    by_cases hby : grant.grantedBy = owner
    · simp [hby]
    · simp [hby]

theorem GrantsTraced.nodup_getDelegates {acts : List DelegateAct} {s : ControllerStore}
    (hs : GrantsTraced acts s.delegates) (accountId : Nat) (owner : Address) :
    (s.getDelegates accountId owner).Nodup := by
  unfold ControllerStore.getDelegates
  cases hget : s.delegates.get? accountId with
  | none => exact List.nodup_nil
  | some grant =>
    dsimp only
    split
    · exact (hs accountId grant hget).nodup
    · exact List.nodup_nil

/-- What a call leaves, read off the body that ran. -/
theorem ControllerCall.exec_ok {call : ControllerCall} {timestamp : Nat} {s s' : System W}
    (hexec : call.exec h timestamp s = .ok s') :
    ∃ t, call.body h timestamp { toSystem := s, cache := {} } = .ok () t ∧ t.toSystem = s' := by
  unfold ControllerCall.exec at hexec
  split at hexec
  · rename_i t hbody
    exact ⟨t, hbody, Except.ok.inj hexec⟩
  · cases hexec

theorem DelegateStep.traced {acts : List DelegateAct} {act : DelegateAct} {s s' : System W}
    (hstep : DelegateStep h s act s') (hs : GrantsTraced acts s.store.delegates) :
    GrantsTraced (acts ++ [act]) s'.store.delegates := by
  cases hstep with
  | @add _ _ _ caller accountId delegate hexec =>
    obtain ⟨t, hbody, rfl⟩ := ControllerCall.exec_ok hexec
    obtain ⟨st, u, hst, hbody⟩ := bind_ok_iff.mp hbody
    simp only [store, bind_ok_iff, get_ok_iff, pure_ok_iff] at hst
    obtain ⟨_, _, ⟨rfl, rfl⟩, rfl, rfl⟩ := hst
    obtain ⟨_, u, hpaused, hbody⟩ := bind_ok_iff.mp hbody
    obtain ⟨-, rfl⟩ := lift_ok_iff.mp hpaused
    rcases Account.setAccountDelegate_add hbody with ⟨hmem, heq⟩ | ⟨hnew, hlt, heq⟩
    · -- The list on file is the caller's own, so this act supersedes nothing.
      obtain ⟨own, hown, hby, -⟩ := ControllerStore.mem_getDelegates.mp hmem
      rw [heq]
      refine hs.snoc fun id grant d hget _ hends => ?_
      obtain ⟨rfl, hne⟩ := hends
      rw [hown] at hget
      obtain rfl := Option.some.inj hget
      exact hne hby.symm
    · rw [heq]
      refine hs.write (n := accountId) (fun id hne _ _ hends => hne hends.1.symm)
        (fun id hne => SortedMap.get?_set_ne _ _ hne) fun grant hget => ?_
      rw [SortedMap.get?_set_self] at hget
      obtain rfl := Option.some.inj hget
      refine ⟨?_, ?_, fun d hd => ?_⟩
      · rw [List.length_append, List.length_singleton]
        exact hlt
      · refine List.nodup_append.mpr ⟨hs.nodup_getDelegates accountId caller,
          by simp, fun a ha b hb => ?_⟩
        rintro rfl
        exact hnew (List.mem_singleton.mp hb ▸ ha)
      · rcases List.mem_append.mp hd with hd | hd
        · obtain ⟨own, hown, hby, hmem⟩ := ControllerStore.mem_getDelegates.mp hd
          have hstands := (hs accountId own hown).stands d hmem
          rw [hby] at hstands
          exact hstands.snoc fun hends => hends.2 rfl
        · rw [List.mem_singleton.mp hd]
          exact stands_self
  | @remove _ _ _ caller accountId delegate hexec =>
    obtain ⟨t, hbody, rfl⟩ := ControllerCall.exec_ok hexec
    rcases Account.setAccountDelegate_remove hbody with ⟨hnone, heq⟩ | heq |
      ⟨grant, hget, hby, -, heq⟩
    · rw [heq]
      refine hs.snoc fun id grant d hget _ hends => ?_
      obtain ⟨rfl, -⟩ := hends
      rw [hnone] at hget
      cases hget
    · rw [heq]
      refine hs.write (n := accountId) (fun id hne _ _ hends => hne hends.1.symm)
        (fun id hne => SortedMap.get?_erase_ne _ hne) fun grant hget => ?_
      rw [SortedMap.get?_erase_self] at hget
      cases hget
    · rw [heq]
      refine hs.write (n := accountId) (fun id hne _ _ hends => hne hends.1.symm)
        (fun id hne => SortedMap.get?_set_ne _ _ hne) fun grant' hget' => ?_
      rw [SortedMap.get?_set_self] at hget'
      obtain rfl := Option.some.inj hget'
      obtain ⟨hlen, hnodup, hstands⟩ := hs accountId grant hget
      refine ⟨?_, hnodup.erase _, fun d hd => ?_⟩
      · exact (List.length_erase_le ..).trans hlen
      · -- What is left of the list is other delegates of the same owner.
        obtain ⟨hne, hmem⟩ := hnodup.mem_erase_iff.mp hd
        have hold := hstands d hmem
        rw [hby] at hold
        exact hold.snoc fun hends => hends.2.elim (fun h => h rfl) fun h => hne h.symm
  | setManager hexec =>
    obtain ⟨t, hbody, rfl⟩ := ControllerCall.exec_ok hexec
    obtain rfl := modify_ok_iff.mp hbody
    exact hs.snoc fun _ _ _ _ _ hends => hends
  | @burn s t accountId hexec =>
    obtain ⟨_, u, hentry, hburn⟩ := bind_ok_iff.mp hexec
    obtain rfl := modify_ok_iff.mp hentry
    have heq : t.store.delegates = s.store.delegates.erase accountId := by
      simp only [nftBurnCall, assertWithError, bind_ok_iff, lift_ok_iff, get_ok_iff,
        modify_ok_iff] at hburn
      obtain ⟨_, _, ⟨-, rfl⟩, _, _, ⟨rfl, rfl⟩, _, _, ⟨-, rfl⟩, rfl⟩ := hburn
      rfl
    rw [heq]
    refine hs.write (n := accountId) (fun id hne _ _ hends => hne hends.symm)
      (fun id hne => SortedMap.get?_erase_ne _ hne) fun grant hget => ?_
    rw [SortedMap.get?_erase_self] at hget
    cases hget
  | transfer w => exact hs.snoc fun _ _ _ _ _ hends => hends
  | other hsame =>
    rw [hsame]
    exact hs.snoc fun _ _ _ _ _ hends => hends

theorem DelegateRun.traced {start s : System W} {acts : List DelegateAct}
    (hrun : DelegateRun h start acts s)
    (hstart : ∀ accountId, start.store.delegates.get? accountId = none) :
    GrantsTraced acts s.store.delegates := by
  induction hrun with
  | nil =>
    intro accountId grant hget
    rw [hstart] at hget
    cases hget
  | snoc _ hstep ih => exact hstep.traced ih

/-! ## Authority -/

theorem Account.isOwnerOrDelegate_ok {accountId : Nat} {caller owner : Address} {b : Bool}
    {s s' : Invocation W} (hrun : isOwnerOrDelegate accountId caller owner s = .ok b s') :
    b = true ↔ caller = owner ∨
      s.store.isActiveManager caller = true ∧ caller ∈ s.store.getDelegates accountId owner := by
  simp only [isOwnerOrDelegate, store, bind_ok_iff, get_ok_iff, pure_ok_iff] at hrun
  obtain ⟨_, _, ⟨_, _, ⟨rfl, rfl⟩, rfl, rfl⟩, rfl, -⟩ := hrun
  exact decide_eq_true_iff

/-- **Authority follows ownership.** Whoever `is_owner_or_delegate` accepts for the current owner
of the NFT is that owner, or holds a grant of that owner that still stands; a list stamped by
anyone else gives authority to nobody. -/
theorem delegate_authority {start s : System W} {acts : List DelegateAct}
    (hstart : ∀ accountId, start.store.delegates.get? accountId = none)
    (hrun : DelegateRun h start acts s) (accountId : Nat) :
    let owner := h.nftOwner s.pool.world accountId
    (∀ d cache s', Account.isOwnerOrDelegate accountId d owner { toSystem := s, cache } =
      .ok true s' → d = owner ∨ Stands owner accountId d acts) ∧
    ∀ grant, s.store.delegates.get? accountId = some grant →
      grant.delegates.length ≤ maxDelegates ∧ grant.delegates.Nodup ∧
      (grant.grantedBy ≠ owner → ∀ d cache s',
        Account.isOwnerOrDelegate accountId d owner { toSystem := s, cache } = .ok true s' →
        d = owner) := by
  intro owner
  have htraced := hrun.traced hstart
  have hgrant : ∀ {d cache s'},
      Account.isOwnerOrDelegate accountId d owner { toSystem := s, cache } = .ok true s' →
      d = owner ∨ ∃ grant, s.store.delegates.get? accountId = some grant ∧
        grant.grantedBy = owner ∧ d ∈ grant.delegates :=
    fun hok => ((Account.isOwnerOrDelegate_ok hok).mp rfl).imp_right fun hd =>
      ControllerStore.mem_getDelegates.mp hd.2
  refine ⟨fun d cache s' hok => ?_, fun grant hget => ?_⟩
  · refine (hgrant hok).imp_right fun ⟨grant, hget, hby, hmem⟩ => ?_
    have hstands := (htraced accountId grant hget).stands d hmem
    rwa [hby] at hstands
  · obtain ⟨hlen, hnodup, -⟩ := htraced accountId grant hget
    refine ⟨hlen, hnodup, fun hne d cache s' hok => ?_⟩
    rcases hgrant hok with heq | ⟨grant', hget', hby, -⟩
    · exact heq
    · rw [hget] at hget'
      obtain rfl := Option.some.inj hget'
      exact absurd hby hne

namespace Sample

/-- An outside world that knows only who owns the NFT. -/
def nftHost : ControllerHost Address where
  balance _ _ _ := 0
  allowance _ _ _ _ := 0
  transfer _ _ _ _ _ := .error .foreignTrap
  transferFrom _ _ _ _ _ _ := .error .foreignTrap
  pool := 1
  owner := none
  isWasmContract _ _ := false
  executeFlashLoan _ _ _ _ _ _ _ _ := .error .foreignTrap
  controller := 2
  price _ _ _ := .error .foreignTrap
  nftOwner w _ := w
  nftAssign _ _ owner := owner
  nftRelease w _ := w
  executeStrategy _ _ _ _ _ := .error .foreignTrap
  executeFlashPosition _ _ _ _ _ _ _ _ _ _ := .error .foreignTrap
  blendSubmit _ _ _ _ _ _ := .error .foreignTrap

/-- Account 1 of address 7, and an active manager 9. -/
def owned : System Address :=
  { System.deployed 7 with
    store := { Governance.init with
      metas := SortedMap.empty.set 1 ⟨1, .normal⟩
      positionManagers := SortedMap.empty.set 9 true
      paused := false }
    nft := ⟨2, SortedMap.empty.set 1 ()⟩ }

/-- The same with 9 as the delegate of 7. -/
def delegated : System Address :=
  { owned with store.delegates := SortedMap.empty.set 1 ⟨7, [9]⟩ }

end Sample

/-- The NFT goes to 8 and comes back: the manager is refused meanwhile, and accepted afterwards
under a grant that still stands. -/
theorem delegate_authority_sample :
    (∃ acts, DelegateRun Sample.nftHost Sample.owned acts { Sample.delegated with pool.world := 8 } ∧
      ∀ d cache s', Account.isOwnerOrDelegate 1 d 8
        { toSystem := { Sample.delegated with pool.world := 8 }, cache } = .ok true s' → d = 8) ∧
    Stands 7 1 9 [.add 7 1 9, .transfer, .transfer] := by
  have hadd : DelegateRun Sample.nftHost Sample.owned [.add 7 1 9] Sample.delegated :=
    .snoc .nil (.add (show (ControllerCall.addDelegate 7 1 9).exec Sample.nftHost 0 Sample.owned =
      .ok Sample.delegated from rfl))
  have haway := hadd.snoc (.transfer 8)
  have hback := haway.snoc (.transfer 7)
  have hstart : ∀ id, Sample.owned.store.delegates.get? id = none := fun _ => rfl
  refine ⟨⟨_, haway, ?_⟩, ?_⟩
  · exact ((delegate_authority hstart haway 1).2 ⟨7, [9]⟩ rfl).2.2 (by decide)
  · exact ((delegate_authority hstart hback 1).1 9 {} _ rfl).resolve_left (by decide)

end Lending
