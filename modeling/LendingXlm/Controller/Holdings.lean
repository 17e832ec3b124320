import LendingXlm.Controller.Acts
import LendingXlm.Controller.Sovereignty
import LendingXlm.Pool.Custody

/-!
# Who holds an account

An account is its token, and the token is held by whoever the records outside say. The controller
mints tokens to the signer of a call and burns those of accounts that are empty; it moves none, and
a grant bears the stamp of the owner who made it.

* `PoolHost.Respects`, `ControllerHost.Respects`: what everything that runs outside keeps of it;
* `System.Retains`: the tokens a holder had are its own as long as they exist, and none comes back;
* `Acts.retains`, `Acts.noGrants`: a call retains them, and grants nothing under another's stamp;
* `processSupply_free`, `processWithdraw_free`: supplying and withdrawing take on no debt.
-/

namespace Lending

open Transaction Ctrl Invocation PoolCtx

variable {W : Type} {h : ControllerHost W} {timestamp : Nat}
  {signer grantor : Option Address}

/-! ## What runs outside -/

/-- Tokens and receivers of flash loans keep `R`. -/
structure PoolHost.Respects (ph : PoolHost W) (R : W → W → Prop) : Prop where
  transfer : ∀ {w w' asset sender recipient amount},
    ph.transfer w asset sender recipient amount = .ok w' → R w w'
  transferFrom : ∀ {w w' asset spender sender recipient amount},
    ph.transferFrom w asset spender sender recipient amount = .ok w' → R w w'
  callback : ∀ {w w' receiver initiator asset amount fee pool data},
    ph.executeFlashLoan w receiver initiator asset amount fee pool data = .ok w' → R w w'

section Pool

variable {ph : PoolHost W} {R : W → W → Prop} [Std.Refl R] [IsTrans W R]
  (hR : ph.Respects R) {s s' : PoolCtx W}

include hR

omit [IsTrans W R] in
theorem PoolCtx.Pays.respects {key : HubAssetKey} {recipient : Address} {amount : Int}
    (hpay : Pays ph s s' key recipient amount) : R s.world s'.world := by
  obtain ⟨m, c, -, -, hout⟩ := hpay
  unfold Cache.transferOut at hout
  obtain ⟨-, -, hout⟩ := Fallible.bind_ok hout
  split at hout
  · rw [← Fallible.pure_ok_iff.mp hout]
    exact Std.Refl.refl _
  · exact hR.transfer hout

omit [IsTrans W R] in
theorem TokenHost.tryTransfer_respects {w : W} {asset sender recipient : Address} {amount : Int} :
    R w (ph.tryTransfer w asset sender recipient amount) := by
  unfold TokenHost.tryTransfer
  split
  · rename_i w' hmove
    exact hR.transfer hmove
  · exact Std.Refl.refl _

/-- **A call of the pool** keeps what everything outside keeps. -/
theorem PoolCall.exec_respects {call : PoolCall}
    (hexec : call.exec ph timestamp s = .ok s') : R s.world s'.world := by
  have hrefl : ∀ w, R w w := Std.Refl.refl
  have hbatch : ∀ {E A : Type} {market : E → HubAssetKey} {unique : Bool}
      {leg : PoolCtx W → E → Result (PoolCtx W × A)} {entries : List E} {t : PoolCtx W}
      {rs : List A}, (∀ {u u' : PoolCtx W} {e : E} {a : A}, leg u e = .ok (u', a) →
        R u.world u'.world) → Ops.runBatch market unique leg [] s entries = .ok (t, rs) →
      R s.world t.world := fun hleg hrun =>
    Ops.runBatch_inv (P := fun u => R s.world u.world)
      (fun hu hstep => IsTrans.trans _ _ _ hu (hleg hstep)) (hrefl _) hrun
  have hsame : ∀ {t t' : PoolCtx W}, t'.world = t.world → R t.world t'.world := fun heq =>
    heq ▸ hrefl _
  cases call with
  | createMarket hubId params =>
    unfold exec LiquidityPool.createMarket at hexec
    simp only [Fallible.bind_ok_iff, Fallible.pure_ok_iff] at hexec
    obtain ⟨m, -, rfl⟩ := hexec
    exact hrefl _
  | updateParams key model => exact hsame (LiquidityPool.updateParams_moved hexec).2
  | supply entries =>
    obtain ⟨⟨s1, rs⟩, hrun, rfl⟩ := Fallible.map_ok_iff.mp hexec
    exact hbatch (fun hleg => hsame (Supply.leg_moved hleg).2) hrun
  | borrow receiver entries =>
    obtain ⟨⟨s1, rs⟩, hrun, rfl⟩ := Fallible.map_ok_iff.mp hexec
    exact hbatch (fun hleg => (Borrow.apply_moved hleg).2.respects hR) hrun
  | withdraw receiver liq entries =>
    obtain ⟨⟨s1, rs⟩, hrun, rfl⟩ := Fallible.map_ok_iff.mp hexec
    refine hbatch (fun hleg => ?_) hrun
    obtain ⟨net, -, hpay | ⟨-, asset, hworld⟩⟩ := Withdraw.apply_moved hleg
    · exact hpay.respects hR
    · rw [hworld]
      exact TokenHost.tryTransfer_respects hR
  | repay payer actions =>
    obtain ⟨⟨s1, rs⟩, hrun, rfl⟩ := Fallible.map_ok_iff.mp hexec
    refine hbatch (fun hleg => ?_) hrun
    obtain ⟨overpayment, -, hpay⟩ := Repay.apply_moved hleg
    exact hpay.respects hR
  | updateIndexes keys =>
    exact Fallible.foldlM_inv (P := fun u : PoolCtx W => R s.world u.world)
      (fun _ _ _ _ hu hstep => IsTrans.trans _ _ _ hu
        (hsame (LiquidityPool.accrue_moved hstep).2)) (hrefl _) hexec
  | recapitalize key payer amount =>
    obtain ⟨⟨s1, r⟩, happly, rfl⟩ := Fallible.map_ok_iff.mp hexec
    exact (Recapitalize.apply_moved happly).2.respects hR
  | flashLoan key initiator receiver amount data =>
    obtain ⟨⟨s1, r⟩, happly, rfl⟩ := Fallible.map_ok_iff.mp hexec
    obtain ⟨-, -, m, w1, w2, total, -, -, hout, hcall, hin⟩ := Flash.apply_moved happly
    exact IsTrans.trans _ _ _ (hR.transfer hout)
      (IsTrans.trans _ _ _ (hR.callback hcall) (hR.transferFrom hin))
  | createStrategy receiver action charge =>
    obtain ⟨⟨s1, r⟩, happly, rfl⟩ := Fallible.map_ok_iff.mp hexec
    exact (Strategy.apply_moved happly).2.respects hR
  | seizePositions entries =>
    unfold exec LiquidityPool.seizePositions at hexec
    simp only [Fallible.bind_ok_iff, Fallible.pure_ok_iff] at hexec
    obtain ⟨⟨s1, rs⟩, hrun, rfl⟩ := hexec
    exact hbatch (fun hleg => hsame (Seize.leg_moved hleg).2) hrun
  | netSettle entry =>
    obtain ⟨⟨s1, r⟩, happly, rfl⟩ := Fallible.map_ok_iff.mp hexec
    exact hsame (LiquidityPool.netSettle_moved happly).2
  | claimRevenue key =>
    obtain ⟨⟨s1, r⟩, happly, rfl⟩ := Fallible.map_ok_iff.mp hexec
    obtain ⟨-, ⟨owner, hpay⟩ | ⟨-, hworld⟩⟩ := Revenue.apply_moved happly
    · exact hpay.respects hR
    · exact hsame hworld

theorem Pulled.respects {w w' : W} {incoming : List (Address × Int)}
    (hpull : Pulled ph w incoming w') : R w w' := by
  induction hpull with
  | nil w => exact Std.Refl.refl _
  | cons sender amount e hpull _ ih =>
    exact IsTrans.trans _ _ _ (hR.transfer (TokenHost.transferAmountMeasured_moves hpull)) ih

end Pool

/-- Everything a call lets run keeps `R`, the records of the account tokens apart. -/
structure ControllerHost.Respects (h : ControllerHost W) (R : W → W → Prop) : Prop
    extends toPool : h.toPoolHost.Respects R where
  router : ∀ {w w' router sender amountIn swap},
    h.executeStrategy w router sender amountIn swap = .ok w' → R w w'
  receiver : ∀ {w w' receiver initiator accountId asset amount fee received controller data},
    h.executeFlashPosition w receiver initiator accountId asset amount fee received controller
      data = .ok w' → R w w'
  blend : ∀ {w w' blendPool holder spender recipient requests},
    h.blendSubmit w blendPool holder spender recipient requests = .ok w' → R w w'

/-- **An act** that neither mints nor burns keeps what everything outside keeps. -/
theorem Act.respects {R : W → W → Prop} [Std.Refl R] [IsTrans W R] (hR : h.Respects R)
    {s s' : System W} (hact : Act h timestamp signer grantor s s') :
    s'.nft = s.nft ∧ R s.pool.world s'.pool.world ∨
    (∃ owner, signer = some owner ∧
      s'.nft = ⟨s.nft.nextTokenId + 1, s.nft.tokens.set s.nft.nextTokenId ()⟩ ∧
      s'.pool.world = h.nftAssign s.pool.world s.nft.nextTokenId owner) ∨
    ∃ accountId, s'.nft = { s.nft with tokens := s.nft.tokens.erase accountId } ∧
      s'.pool.world = h.nftRelease s.pool.world accountId := by
  cases hact with
  | write | grant | flag | forget => exact .inl ⟨rfl, Std.Refl.refl _⟩
  | pool call hpull hexec =>
    exact .inl ⟨rfl, IsTrans.trans _ _ _ (hpull.respects hR.toPool)
      (PoolCall.exec_respects hR.toPool hexec)⟩
  | pay _ hmove => exact .inl ⟨rfl, hR.transfer hmove⟩
  | route hrun => exact .inl ⟨rfl, hR.router hrun⟩
  | receive hrun => exact .inl ⟨rfl, hR.receiver hrun⟩
  | blend hrun => exact .inl ⟨rfl, hR.blend hrun⟩
  | mint owner hsigner => exact .inr (.inl ⟨owner, hsigner, rfl, rfl⟩)
  | burn accountId => exact .inr (.inr ⟨accountId, rfl, rfl⟩)

/-! ## Tokens -/

/-- The tokens of `holder` are still its own. -/
def ControllerHost.TokensKept (h : ControllerHost W) (holder : Address) (w w' : W) : Prop :=
  ∀ id, h.nftOwner w id = holder → h.nftOwner w' id = holder

instance {holder : Address} : Std.Refl (h.TokensKept holder) where
  refl _ _ := id

instance {holder : Address} : IsTrans W (h.TokensKept holder) where
  trans _ _ _ h1 h2 id howner := h2 id (h1 id howner)

/-- Nothing takes the tokens of `holder`, and the records follow what is minted and burned. -/
structure ControllerHost.Entrusted (h : ControllerHost W) (holder : Address) : Prop where
  respects : h.Respects (h.TokensKept holder)
  assign : ∀ w id owner, h.nftOwner (h.nftAssign w id owner) id = owner
  assign_ne : ∀ w id owner id', id' ≠ id →
    h.nftOwner (h.nftAssign w id owner) id' = h.nftOwner w id'
  release_ne : ∀ w id id', id' ≠ id → h.nftOwner (h.nftRelease w id) id' = h.nftOwner w id'

/-- Ids are taken from the counter. -/
def PositionNft.Numbered (nft : PositionNft) : Prop :=
  ∀ id, nft.tokens.contains id = true → id < nft.nextTokenId

/-- A token that is there was there, or is new; those `holder` had are its own, and so are the new
ones where they are `mine`. -/
structure System.Retains (h : ControllerHost W) (holder : Address) (mine : Prop)
    (s s' : System W) : Prop where
  counter : s.nft.nextTokenId ≤ s'.nft.nextTokenId
  numbered : s'.nft.Numbered
  tokens : ∀ id, s'.nft.tokens.contains id = true → s.nft.tokens.contains id = true ∨
    s.nft.nextTokenId ≤ id ∧ (mine → h.nftOwner s'.pool.world id = holder)
  owner : ∀ id, s.nft.tokens.contains id = true → s'.nft.tokens.contains id = true →
    h.nftOwner s.pool.world id = holder → h.nftOwner s'.pool.world id = holder

namespace System

variable {holder : Address} {mine : Prop} {s s' s'' : System W}

theorem Retains.of_same (hn : s.nft.Numbered) (hnft : s'.nft = s.nft)
    (hworld : h.TokensKept holder s.pool.world s'.pool.world) : s.Retains h holder mine s' := by
  refine ⟨hnft ▸ le_rfl, hnft ▸ hn, fun id hid => .inl (hnft ▸ hid), fun id _ _ => hworld id⟩

theorem Retains.refl (hn : s.nft.Numbered) : s.Retains h holder mine s :=
  .of_same hn rfl fun _ => id

theorem Retains.trans (hn : s.nft.Numbered) (hs : s.Retains h holder mine s')
    (hs' : s'.Retains h holder mine s'') : s.Retains h holder mine s'' := by
  -- What is there at the end and not newer than `s'` was there in between.
  have hold : ∀ id < s'.nft.nextTokenId, s''.nft.tokens.contains id = true →
      s'.nft.tokens.contains id = true := fun id hlt hid =>
    (hs'.tokens id hid).resolve_right fun hnew => by omega
  refine ⟨hs.counter.trans hs'.counter, hs'.numbered, fun id hid => ?_, fun id hin hid howner => ?_⟩
  · rcases hs'.tokens id hid with hmid | ⟨hnew, hmine⟩
    · rcases hs.tokens id hmid with hin | ⟨hge, hmine⟩
      · exact .inl hin
      · exact .inr ⟨hge, fun hm => hs'.owner id hmid hid (hmine hm)⟩
    · exact .inr ⟨hs.counter.trans hnew, hmine⟩
  · have hmid := hold id ((hn id hin).trans_le hs.counter) hid
    exact hs'.owner id hmid hid (hs.owner id hin hmid howner)

end System

/-- **An act** retains the tokens of a holder. -/
theorem Act.retains {holder : Address} {s s' : System W} (hh : h.Entrusted holder)
    (hn : s.nft.Numbered) (hact : Act h timestamp signer grantor s s') :
    s.Retains h holder (signer = some holder) s' := by
  rcases hact.respects hh.respects with ⟨hnft, hworld⟩ | ⟨owner, rfl, hnft, hworld⟩ |
    ⟨accountId, hnft, hworld⟩
  · exact .of_same hn hnft hworld
  · have hset : ∀ id, s'.nft.tokens.contains id = true →
        s.nft.tokens.contains id = true ∨ id = s.nft.nextTokenId := by
      intro id hid
      rw [hnft] at hid
      by_cases heq : id = s.nft.nextTokenId
      · exact .inr heq
      · obtain ⟨u, hget⟩ := SortedMap.contains_iff.mp hid
        rw [SortedMap.get?_set_ne _ _ heq] at hget
        exact .inl (SortedMap.contains_iff.mpr ⟨u, hget⟩)
    refine ⟨by rw [hnft]; exact Nat.le_succ _, fun id hid => ?_, fun id hid => ?_,
      fun id hin hid howner => ?_⟩
    · rw [hnft]
      rcases hset id hid with hin | rfl
      · exact (hn id hin).trans (Nat.lt_succ_self _)
      · exact Nat.lt_succ_self _
    · rcases hset id hid with hin | rfl
      · exact .inl hin
      · refine .inr ⟨le_rfl, fun hmine => ?_⟩
        rw [hworld, hh.assign]
        exact Option.some.inj hmine
    · rw [hworld, hh.assign_ne _ _ _ _ (hn id hin).ne]
      exact howner
  · have herase : ∀ id, s'.nft.tokens.contains id = true →
        s.nft.tokens.contains id = true ∧ id ≠ accountId := by
      intro id hid
      rw [hnft] at hid
      obtain ⟨u, hget⟩ := SortedMap.contains_iff.mp hid
      have hne : id ≠ accountId := by
        rintro rfl
        cases (SortedMap.get?_erase_self ..).symm.trans hget
      rw [SortedMap.get?_erase_ne _ hne] at hget
      exact ⟨SortedMap.contains_iff.mpr ⟨u, hget⟩, hne⟩
    refine ⟨by rw [hnft], fun id hid => ?_, fun id hid => .inl (herase id hid).1,
      fun id hin hid howner => ?_⟩
    · rw [hnft]
      exact hn id (herase id hid).1
    · rw [hworld, hh.release_ne _ _ _ (herase id hid).2]
      exact howner

theorem Acts.retains {holder : Address} {s s' : System W} (hh : h.Entrusted holder)
    (hn : s.nft.Numbered) (hacts : Acts h timestamp signer grantor s s') :
    s.Retains h holder (signer = some holder) s' := by
  induction hacts with
  | refl => exact .refl hn
  | tail _ hact ih => exact ih.trans hn (hact.retains hh ih.numbered)

theorem Act.counter {s s' : System W} (hact : Act h timestamp signer grantor s s') :
    s.nft.nextTokenId ≤ s'.nft.nextTokenId := by
  cases hact with
  | mint => exact Nat.le_succ _
  | _ => exact le_rfl

theorem Acts.counter {s s' : System W} (hacts : Acts h timestamp signer grantor s s') :
    s.nft.nextTokenId ≤ s'.nft.nextTokenId := by
  induction hacts with
  | refl => exact le_rfl
  | tail _ hact ih => exact ih.trans hact.counter

/-! ## Grants -/

/-- Nothing is granted under the stamp of `holder`. -/
def System.NoGrants (holder : Address) (s : System W) : Prop :=
  ∀ id, s.store.getDelegates id holder = []

theorem ControllerStore.getDelegates_congr {st st' : ControllerStore} {id : Nat} {holder : Address}
    (heq : st'.delegates.get? id = st.delegates.get? id) :
    st'.getDelegates id holder = st.getDelegates id holder := by
  rw [getDelegates, heq, ← getDelegates]

/-- **An act** makes no grant under another's stamp. -/
theorem Act.noGrants {holder : Address} {s s' : System W} (hgrantor : grantor ≠ some holder)
    (hact : Act h timestamp signer grantor s s') (hs : s.NoGrants holder) :
    s'.NoGrants holder := by
  intro id
  cases hact with
  | write st hsame =>
    exact (ControllerStore.getDelegates_congr (by rw [hsame])).trans (hs id)
  | @grant caller st accountId hcaller hother hself =>
    by_cases heq : id = accountId
    · subst heq
      rcases hself with hsame | hstamp
      · exact (ControllerStore.getDelegates_congr hsame).trans (hs id)
      · show st.getDelegates id holder = []
        unfold ControllerStore.getDelegates
        split
        · rename_i grant hget
          refine if_neg fun hby => hgrantor ?_
          rw [hcaller, ← hby, hstamp grant hget]
        · rfl
    · exact (ControllerStore.getDelegates_congr (hother id heq)).trans (hs id)
  | forget accountId =>
    by_cases heq : id = accountId
    · subst heq
      show (s.store.removeAccountEntry id).getDelegates id holder = []
      unfold ControllerStore.getDelegates ControllerStore.removeAccountEntry
      rw [SortedMap.get?_erase_self]
    · refine (ControllerStore.getDelegates_congr ?_).trans (hs id)
      exact SortedMap.get?_erase_ne _ heq
  | _ => exact hs id

theorem Acts.noGrants {holder : Address} {s s' : System W} (hgrantor : grantor ≠ some holder)
    (hacts : Acts h timestamp signer grantor s s') (hs : s.NoGrants holder) :
    s'.NoGrants holder := by
  induction hacts with
  | refl => exact hs
  | tail _ hact ih => exact hact.noGrants hgrantor ih

theorem ControllerCall.signatory_of_granting {call : ControllerCall} {caller : Address}
    (hgrants : call.granting = some caller) : call.signatory = some caller := by
  cases call with
  | addDelegate | removeDelegate => exact hgrants
  | _ => cases hgrants

/-! ## Debt -/

/-- Who owed nothing owes nothing. -/
def System.StaysFree (s s' : System W) : Prop :=
  ∀ id, s.store.getDebtPositions id = .empty → s'.store.getDebtPositions id = .empty

/-- A computation that takes on no debt, even where it traps. -/
abbrev FreeOnly {α : Type} (x : Ctrl W α) : Prop :=
  Along (fun s s' : Invocation W => s.toSystem.StaysFree s'.toSystem) x

instance : Std.Refl (fun s s' : Invocation W => s.toSystem.StaysFree s'.toSystem) where
  refl _ _ := id

instance : IsTrans (Invocation W) (fun s s' => s.toSystem.StaysFree s'.toSystem) where
  trans _ _ _ hst htu id hfree := htu id (hst id hfree)

namespace FreeOnly

variable {α : Type} {x : Ctrl W α}

theorem context (hx : ContextOnly x) : FreeOnly x :=
  Along.mono hx fun s s' (hs : s'.toSystem = s.toSystem) id hfree => by rw [hs]; exact hfree

theorem reads (h : ControllerHost W) (timestamp : Nat) (hx : ReadsOnly h timestamp x) :
    FreeOnly x :=
  context (.of_reads h timestamp hx)

theorem outward (hx : OutwardOnly x) : FreeOnly x :=
  Along.mono hx fun s s' ho id hfree => by rw [ho.store]; exact hfree

theorem write {f : ControllerStore → ControllerStore}
    (hf : ∀ st id, st.getDebtPositions id = .empty → (f st).getDebtPositions id = .empty) :
    FreeOnly (modifyStore f : Ctrl W Unit) :=
  .modify fun s => hf s.store

theorem poolCall {f : PoolCtx W → Result (PoolCtx W × α)} : FreeOnly (Ctrl.poolCall f) :=
  .bind .get fun _ => .bind .lift fun _ => .bind (.modify fun _ _ => id) fun _ => .pure

end FreeOnly

namespace Account

theorem loadOrCreateAccount_free {caller : Address} {accountId spokeId : Nat} {mode : PositionMode}
    {guard : AccountGuard} :
    FreeOnly (loadOrCreateAccount h caller accountId spokeId mode guard) := by
  have hmint : FreeOnly (nftMintCall h caller) :=
    .bind .get fun _ => .bind .lift fun _ => .bind (.modify fun _ _ => id) fun _ => .pure
  refine .ite (.bind .lift fun _ => .bind (FreeOnly.reads h 0 Context.activeSpoke_reads) fun _ =>
    .bind hmint fun _ => .bind (FreeOnly.write fun _ _ => id) fun _ => .pure) ?_
  exact .bind (FreeOnly.reads h 0 Storage.getAccount_reads) fun _ =>
    .bind (FreeOnly.reads h 0 requireGuard_reads) fun _ => .pure

theorem cleanupAccountIfEmpty_free {a : Account} {accountId : Nat} :
    FreeOnly (a.cleanupAccountIfEmpty h accountId) := by
  refine .ite (.bind (FreeOnly.write fun st id hfree => ?_) fun _ => .bind .lift fun _ =>
    .bind .get fun _ => .bind .lift fun _ => .modify fun _ _ => id) .pure
  show ((st.borrowPositions.erase accountId).get? id).getD .empty = .empty
  rw [SortedMap.get?_erase]
  split
  · rfl
  · exact hfree

end Account

namespace Positions

variable {a : Account} {caller recipient : Address}

/-- Writing back the supply side takes on no debt. -/
theorem finalizePositionFlow_free {id : Nat} {removeIfEmpty : Bool} :
    FreeOnly (finalizePositionFlow h id a .supply removeIfEmpty) := by
  refine .bind ?_ fun _ => .bind (FreeOnly.write fun st id' hfree => ?_) fun _ =>
    .bind (FreeOnly.write fun st id' hfree => ?_) fun _ =>
    .ite Account.cleanupAccountIfEmpty_free .pure
  · refine .bind .get fun s => ?_
    split
    · rename_i ctx _
      refine FreeOnly.write fun st id' hfree => ?_
      obtain ⟨rows, hrows⟩ := ctx.persist_eq st
      rw [hrows]
      exact hfree
    · exact .pure
  · rw [if_pos (by decide)]
    unfold ControllerStore.setSupplyPositions
    split <;> exact hfree
  · rw [if_neg (by decide)]
    exact hfree

theorem processDeposit_free {aggregated : List HubPayment} :
    FreeOnly (processDeposit h timestamp caller a aggregated) := by
  have hpull : ∀ entries payment, FreeOnly (pullDeposit h caller a entries payment) :=
    fun _ _ => .bind (FreeOnly.context (.bind Context.requireSpokeAsset_contextOnly
      fun _ => .pure)) fun _ =>
      .bind (FreeOnly.outward Payments.transferAmountMeasured_outward) fun _ => .pure
  refine .bind (FreeOnly.reads h timestamp validatePositionEntryGates_reads) fun _ =>
    .bind (FreeOnly.reads h timestamp Context.fetchPrices_reads) fun _ =>
    .bind (.foldlM hpull []) fun _ => .bind FreeOnly.poolCall fun _ => FreeOnly.context ?_
  exact forEachLeg_contextOnly fun _ _ => mergeSupplyLeg_contextOnly

theorem settleWithdraw_free {aggregated : List HubPayment} :
    FreeOnly (settleWithdraw h timestamp a recipient aggregated) :=
  .bind (FreeOnly.reads h timestamp (.foldlM (fun _ _ => withdrawEntry_reads) [])) fun _ =>
    .bind (.bind FreeOnly.poolCall fun _ => .bind (FreeOnly.context
      (forEachLeg_contextOnly fun _ _ => mergeWithdrawLeg_contextOnly)) fun _ => .pure)
    fun _ => .pure

theorem processSupply_free {accountId spokeId : Nat} {assets : List HubPayment} :
    FreeOnly (processSupply h timestamp caller accountId spokeId assets) :=
  .bind (FreeOnly.reads h timestamp Risk.requireNotFlashLoaning_reads) fun _ => .bind .lift fun _ =>
    .bind Account.loadOrCreateAccount_free fun _ =>
    .bind (FreeOnly.reads h timestamp requireThirdPartyExistingSupply_reads) fun _ =>
    .bind processDeposit_free fun _ => .bind finalizePositionFlow_free fun _ => .pure

theorem processWithdraw_free {accountId : Nat} {withdrawals : List HubPayment}
    {receiver : Option Address} :
    FreeOnly (processWithdraw h timestamp caller accountId withdrawals receiver) :=
  .bind (FreeOnly.reads h timestamp Risk.requireNotFlashLoaning_reads) fun _ =>
    .bind (FreeOnly.reads h timestamp Storage.getAccount_reads) fun _ =>
    .bind (FreeOnly.reads h timestamp Account.requireOwnerOrDelegate_reads) fun _ =>
    .bind .lift fun _ => .bind .lift fun _ => .bind settleWithdraw_free fun _ =>
    .bind (FreeOnly.reads h timestamp enforcePostPoolSolvency_reads) fun _ =>
    .bind finalizePositionFlow_free fun _ => .pure

end Positions

/-! ## Accounts that are left alone -/

theorem ControllerCall.signatory_of_acts {call : ControllerCall} {caller : Address} {id : Nat}
    (hacts : call.acts = some (caller, id)) : call.signatory = some caller := by
  cases call with
  | borrow | withdraw | flashPosition | multiply | swapDebt | swapCollateral
  | repayDebtWithCollateral | migrateFromBlend =>
    cases hacts
    rfl
  | _ => cases hacts

/-- Nothing is stored for a token that is not there. -/
theorem System.WellFormed.sharesOf_gone {s : System W} (hs : s.WellFormed) {id : Nat}
    (hgone : s.nft.tokens.contains id = false) {side : UsageSide} {market : HubAssetKey} :
    s.store.sharesOf id side market = 0 := by
  have hmeta : s.store.metas.get? id = none := by
    rw [← hs.live] at hgone
    by_contra hne
    rw [SortedMap.contains_iff.mpr (Option.ne_none_iff_exists'.mp hne)] at hgone
    cases hgone
  obtain ⟨hsupply, hdebt⟩ := hs.orphan id hmeta
  cases side with
  | supply =>
    rw [ControllerStore.sharesOf, ControllerStore.getSupplyPositions, hsupply]
    rfl
  | borrow =>
    rw [ControllerStore.sharesOf, ControllerStore.getDebtPositions, hdebt]
    rfl

/-- A token that is gone does not come back. -/
theorem System.Retains.spares {s t : System W} {id : Nat} {holder : Address} {mine : Prop}
    (hretains : s.Retains h holder mine t) (hs : s.WellFormed) (ht : t.WellFormed)
    (hid : id < s.nft.nextTokenId) (hgone : s.nft.tokens.contains id = false) :
    s.Spares id t := by
  have hgone' : t.nft.tokens.contains id = false := by
    by_contra hlive
    rcases hretains.tokens id (Bool.not_eq_false _ ▸ hlive) with hold | ⟨hnew, -⟩
    · rw [hgone] at hold
      cases hold
    · omega
  refine ⟨fun market => ?_, fun market => ?_⟩
  · rw [hs.sharesOf_gone hgone, ht.sharesOf_gone hgone']
  · rw [hs.sharesOf_gone hgone, ht.sharesOf_gone hgone']

/-- **A call** of the controller that does not act for an account free of debt, with authority over
it, spares it. -/
theorem ControllerCall.exec_spares {w : W} {t₀ t₁ : Nat} {s t : System W} {holder : Address}
    {id : Nat} {call : ControllerCall}
    (hh : h.Entrusted holder) (hsteps : ControllerSteps h (.deployed w, t₀) (s, t₁))
    (hle : t₁ ≤ timestamp) (hexec : call.exec h timestamp s = .ok t)
    (hid : id < s.nft.nextTokenId) (hfree : s.store.getDebtPositions id = .empty)
    (hacts : s.nft.tokens.contains id = true →
      ∀ caller, call.acts = some (caller, id) → ¬ s.Authorised h id caller) : s.Spares id t := by
  have hs : s.WellFormed := System.Reachable.wellFormed ⟨w, t₀, t₁, hsteps⟩
  have ht : t.WellFormed :=
    System.Reachable.wellFormed ⟨w, t₀, timestamp, hsteps.tail (.call call hle hexec)⟩
  cases hlive : s.nft.tokens.contains id with
  | false =>
    have hretains := (ControllerCall.exec_acts hexec).retains hh hs.fresh
    exact hretains.spares hs ht hid hlive
  | true =>
    have hstep : UnattendedStep h id True (s, t₁) (t, timestamp) :=
      .call call (hacts hlive) (fun _ => trivial) hle hexec
    exact hstep.spares hsteps hid fun _ => hfree

end Lending
