import LendingXlm.Controller.Restamping

/-!
# Who writes the files

A flow works on a copy of one account and writes it back at its end. What is written for one
account leaves the positions of every other as they were (`Spares`).

* `finalizePositionFlow_spares`: writing back one account spares the others, and itself where it
  comes back with no fewer shares and no more debt;
* `loadOrCreateAccount_spares`: opening an account spares those that exist.
-/

namespace Lending

open Transaction Ctrl Invocation

variable {W : Type} {h : ControllerHost W} {timestamp : Nat}

/-- The account is no worse off: it has its shares or more, and its debt or less. -/
structure System.Spares (id : Nat) (s s' : System W) : Prop where
  supply : ∀ market, s.store.sharesOf id .supply market ≤ s'.store.sharesOf id .supply market
  debt : ∀ market, s'.store.sharesOf id .borrow market ≤ s.store.sharesOf id .borrow market

namespace System

variable {id : Nat} {s s' s'' : System W}

theorem Spares.refl : s.Spares id s :=
  ⟨fun _ => le_rfl, fun _ => le_rfl⟩

theorem Spares.trans (hs : s.Spares id s') (hs' : s'.Spares id s'') : s.Spares id s'' :=
  ⟨fun market => (hs.supply market).trans (hs'.supply market),
    fun market => (hs'.debt market).trans (hs.debt market)⟩

theorem Spares.of_same (hsupply : s'.store.getSupplyPositions id = s.store.getSupplyPositions id)
    (hdebt : s'.store.getDebtPositions id = s.store.getDebtPositions id) : s.Spares id s' := by
  refine ⟨fun market => ?_, fun market => ?_⟩
  · rw [ControllerStore.sharesOf, ControllerStore.sharesOf, hsupply]
  · rw [ControllerStore.sharesOf, ControllerStore.sharesOf, hdebt]

end System

/-- A computation that spares the account, even where it traps. -/
abbrev SparesOnly (id : Nat) {α : Type} (x : Ctrl W α) : Prop :=
  Along (fun s s' : Invocation W => s.toSystem.Spares id s'.toSystem) x

section

variable {id : Nat}

instance : Std.Refl (fun s s' : Invocation W => s.toSystem.Spares id s'.toSystem) where
  refl _ := .refl

instance : IsTrans (Invocation W) (fun s s' => s.toSystem.Spares id s'.toSystem) where
  trans _ _ _ hst htu := hst.trans htu

theorem Invocation.Idles.spares {s s' : Invocation W} (hi : Idles h timestamp s s') :
    s.toSystem.Spares id s'.toSystem :=
  .of_same (hi.store ▸ rfl) (hi.store ▸ rfl)

theorem SparesOnly.idle (h : ControllerHost W) (timestamp : Nat) {α : Type} {x : Ctrl W α}
    (hx : IdleOnly h timestamp x) : SparesOnly id x :=
  Along.mono hx fun _ _ => Idles.spares

theorem SparesOnly.of_context {α : Type} {x : Ctrl W α} (hx : ContextOnly x) : SparesOnly id x :=
  Along.mono hx fun _ _ hs => hs ▸ .refl

/-- A step that idles, and what follows it. -/
theorem SparesOnly.skip (h : ControllerHost W) (timestamp : Nat) {α β : Type} {x : Ctrl W α}
    {f : α → Ctrl W β} (hx : IdleOnly h timestamp x) (hf : ∀ a, SparesOnly id (f a)) :
    SparesOnly id (x >>= f) :=
  .bind (SparesOnly.idle h timestamp hx) hf

/-- What spares an account keeps whatever it was spared so far. -/
theorem SparesOnly.leaves {α : Type} {x : Ctrl W α} {base : System W} (hx : SparesOnly id x) :
    Leaves (fun s => base.Spares id s.toSystem) x fun _ s => base.Spares id s.toSystem :=
  Leaves.along hx fun _ _ hspares hs => hs.trans hspares

theorem Leaves.spare {α β : Type} {x : Ctrl W α} {f : α → Ctrl W β} {base : System W}
    {R : β → Invocation W → Prop} (hx : SparesOnly id x)
    (hf : ∀ a, Leaves (fun s => base.Spares id s.toSystem) (f a) R) :
    Leaves (fun s => base.Spares id s.toSystem) (x >>= f) R :=
  Ends.bind hx.leaves hf

/-- A write of the store that leaves the account's rows alone. -/
theorem modifyStore_spares {f : ControllerStore → ControllerStore}
    (hsupply : ∀ st, (f st).getSupplyPositions id = st.getSupplyPositions id)
    (hdebt : ∀ st, (f st).getDebtPositions id = st.getDebtPositions id) :
    SparesOnly id (Ctrl.modifyStore f : Ctrl W Unit) :=
  .modify fun s => .of_same (hsupply s.store) (hdebt s.store)

theorem poolCall_spares {α : Type} {f : PoolCtx W → Result (PoolCtx W × α)} :
    SparesOnly id (Ctrl.poolCall f) :=
  .bind .get fun _ => .bind .lift fun _ => .bind (.modify fun _ => .of_same rfl rfl) fun _ => .pure

theorem withFlashGuard_spares {α : Type} {x : Ctrl W α} (hx : SparesOnly id x) :
    SparesOnly id (Ctrl.withFlashGuard x) :=
  .bind .get fun _ => .bind (.modify fun _ => .of_same rfl rfl) fun _ => .bind hx fun _ =>
    .ite (.bind (.modify fun _ => .of_same rfl rfl) fun _ => .pure) .pure

theorem Context.persistSpokeUsage_spares : SparesOnly id (persistSpokeUsage : Ctrl W Unit) := by
  refine .bind .get fun s => ?_
  split
  · rename_i ctx _
    refine modifyStore_spares (fun st => ?_) fun st => ?_
    all_goals
      obtain ⟨rows, hrows⟩ := ctx.persist_eq st
      rw [hrows]
      rfl
  · exact .pure

end

/-! ## Other accounts -/

namespace Account

variable {id target : Nat} (hne : id ≠ target)

include hne

theorem removeAccountAndBurnNft_spares :
    SparesOnly id (removeAccountAndBurnNft h target) := by
  refine .bind (modifyStore_spares (fun st => ?_) fun st => ?_) fun _ => .bind .lift fun _ =>
    .bind .get fun _ => .bind .lift fun _ => .modify fun s => .of_same rfl rfl
  · show ((st.supplyPositions.erase target).get? id).getD .empty = _
    rw [SortedMap.get?_erase_ne _ hne]
    rfl
  · show ((st.borrowPositions.erase target).get? id).getD .empty = _
    rw [SortedMap.get?_erase_ne _ hne]
    rfl

theorem cleanupAccountIfEmpty_spares {a : Account} :
    SparesOnly id (cleanupAccountIfEmpty h a target) :=
  .ite (removeAccountAndBurnNft_spares hne) .pure

end Account

/-- One account is written: another is spared, and so is the account itself if what is written has
no fewer shares and no more debt. -/
theorem System.Spares.written {id target : Nat} {base s : System W} {b : Account}
    {st : ControllerStore} (hs : base.Spares id s) (hw : s.store.Writes target b st)
    (hsupply : target = id →
      ∀ market, base.store.sharesOf id .supply market ≤ b.shares .supply market)
    (hdebt : target = id →
      ∀ market, b.shares .borrow market ≤ base.store.sharesOf id .borrow market) :
    base.Spares id { s with store := st } := by
  by_cases htarget : target = id
  · refine ⟨fun market => (hsupply htarget market).trans (le_of_eq ?_),
      fun market => le_trans (le_of_eq ?_) (hdebt htarget market)⟩
    · subst htarget
      rw [ControllerStore.sharesOf, hw.supply]
      rfl
    · subst htarget
      rw [ControllerStore.sharesOf, hw.debt]
      rfl
  · exact hs.trans (.of_same (hw.getSupply_ne (Ne.symm htarget)) (hw.getDebt_ne (Ne.symm htarget)))

namespace Positions

variable {id target : Nat} {a : Account} {base : System W}

theorem writeSides_spares {sides : PositionSides}
    (hsupply : target = id → sides ≠ .debt →
      ∀ market, base.store.sharesOf id .supply market ≤ a.shares .supply market)
    (hdebt : target = id → sides ≠ .supply →
      ∀ market, a.shares .borrow market ≤ base.store.sharesOf id .borrow market)
    {s : Invocation W} (hs : base.Spares id s.toSystem) :
    base.Spares id { s.toSystem with store := s.store.writeSides target a sides } := by
  have hsave : s.store.Saves target sides a { a with
      supplyPositions :=
        if sides = .debt then s.store.getSupplyPositions target else a.supplyPositions
      borrowPositions :=
        if sides = .supply then s.store.getDebtPositions target else a.borrowPositions } :=
    ⟨rfl, rfl⟩
  refine hs.written hsave.writes (fun htarget market => ?_) fun htarget market => ?_
  · by_cases hside : sides = .debt
    · subst htarget
      refine (hs.supply market).trans (le_of_eq ?_)
      rw [ControllerStore.sharesOf, Account.shares, if_pos hside]
    · refine (hsupply htarget hside market).trans (le_of_eq ?_)
      rw [Account.shares, Account.shares, if_neg hside]
  · by_cases hside : sides = .supply
    · subst htarget
      refine le_trans (le_of_eq ?_) (hs.debt market)
      rw [ControllerStore.sharesOf, Account.shares, if_pos hside]
    · refine le_trans (le_of_eq ?_) (hdebt htarget hside market)
      rw [Account.shares, Account.shares, if_neg hside]

/-- **Write-back** spares an account that is another one, or is written with no fewer shares and no
more debt. -/
theorem finalizePositionFlow_spares {sides : PositionSides} {removeIfEmpty : Bool}
    (hsupply : target = id → sides ≠ .debt →
      ∀ market, base.store.sharesOf id .supply market ≤ a.shares .supply market)
    (hdebt : target = id → sides ≠ .supply →
      ∀ market, a.shares .borrow market ≤ base.store.sharesOf id .borrow market)
    (hremove : target = id → removeIfEmpty = false) :
    Leaves (fun s => base.Spares id s.toSystem)
      (finalizePositionFlow h target a sides removeIfEmpty)
      fun _ s => base.Spares id s.toSystem := by
  refine .spare Context.persistSpokeUsage_spares fun _ => Ends.bind (Q := fun _ s =>
      ∃ t : Invocation W, base.Spares id t.toSystem ∧ s = { t with
        store := if sides ≠ .debt then t.store.setSupplyPositions target a.supplyPositions
          else t.store }) (Ends.modify fun s hs => ⟨s, hs, rfl⟩) fun _ =>
    Ends.bind (Q := fun _ s => base.Spares id s.toSystem) (Ends.modify ?_) fun _ =>
    Ends.ite (fun htrue => ?_) fun _ => Ends.pure fun _ hs => hs
  · rintro _ ⟨t, ht, rfl⟩
    exact writeSides_spares hsupply hdebt ht
  · have hne : id ≠ target := by
      rintro rfl
      exact Bool.noConfusion (htrue.symm.trans (hremove rfl))
    exact (Account.cleanupAccountIfEmpty_spares hne).leaves

end Positions

/-! ## Opening an account -/

namespace Account

variable {id : Nat}

theorem nftMintCall_spares {owner : Address} : SparesOnly id (nftMintCall h owner) :=
  .bind .get fun _ => .bind .lift fun _ => .bind (.modify fun _ => .of_same rfl rfl) fun _ => .pure

theorem createAccountWith_spares {owner : Address} {spokeId : Nat} {mode : PositionMode}
    {admission : SpokeAdmission} :
    SparesOnly id (createAccountWith h owner spokeId mode admission) := by
  have hmint : SparesOnly id (do
      let accountId ← nftMintCall h owner
      let account : Account :=
        { owner, spokeId, mode, supplyPositions := .empty, borrowPositions := .empty }
      modifyStore fun s => { s with metas := s.metas.set accountId { spokeId, mode } }
      return (accountId, account)) :=
    .bind nftMintCall_spares fun _ => .bind (modifyStore_spares (fun _ => rfl) fun _ => rfl)
      fun _ => .pure
  refine .bind .lift fun _ => ?_
  cases admission with
  | activeOnly => exact SparesOnly.skip h 0 Context.activeSpoke_reads.idles fun _ => hmint
  | allowDeprecated => exact SparesOnly.skip h 0 Context.spokeConfig_reads.idles fun _ => hmint

/-- Opening an account spares those that exist. -/
theorem loadOrCreateAccount_spares {caller : Address} {accountId spokeId : Nat}
    {mode : PositionMode} {guard : AccountGuard} :
    SparesOnly id (loadOrCreateAccount h caller accountId spokeId mode guard) :=
  .ite createAccountWith_spares (SparesOnly.skip h 0 Storage.getAccount_reads.idles fun _ =>
    SparesOnly.skip h 0 requireGuard_reads.idles fun _ => .pure)

end Account

end Lending
