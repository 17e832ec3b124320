import LendingXlm.Controller.Calls
import LendingXlm.Controller.Quotes
import LendingXlm.Controller.Valuation

/-!
# Gated flows

Every flow of a user that takes funds out of an account, or debt onto it, ends with the gates on
its totals and writes back the positions that passed them.

* `requirePostPoolRiskGates_clears`: what passed clears at whatever marks agree with the quotes;
* `finalizePositionFlow_leaves`: what a flow writes back;
* `finalizePositionFlow_gated`: the positions that passed are the stored ones;
* `ControllerCall.body_gated`: so it is for each of the gated calls.
-/

namespace Lending

open Transaction Ctrl Invocation

variable {W : Type} {h : ControllerHost W} {timestamp : Nat} {α β : Type}

/-! ## Positions that clear -/

namespace Invocation

/-- The positions clear the gates at whatever marks agree with what was quoted. -/
def Clears (timestamp : Nat) (supply : SortedMap HubAssetKey AccountPosition)
    (debt : SortedMap HubAssetKey DebtPosition) (s : Invocation W) : Prop :=
  ∀ v : Marks, s.Agreed timestamp v (supply.keys ++ debt.keys) → v.Clears supply debt

/-- The stored positions of an account do. -/
def Gated (timestamp id : Nat) (s : Invocation W) : Prop :=
  s.Clears timestamp (s.store.getSupplyPositions id) (s.store.getDebtPositions id)

/-- Marks are of the markets and the known prices. -/
structure SameQuotes (s s' : Invocation W) : Prop where
  markets : s'.pool.markets = s.pool.markets
  prices : s'.cache.tokenPrices = s.cache.tokenPrices

instance : Std.Refl (SameQuotes (W := W)) where
  refl _ := ⟨rfl, rfl⟩

instance : IsTrans (Invocation W) SameQuotes where
  trans _ _ _ hst htu := ⟨htu.markets.trans hst.markets, htu.prices.trans hst.prices⟩

variable {s s' : Invocation W}

theorem SameQuotes.agreed (hq : SameQuotes s s') {v : Marks} {markets : List HubAssetKey}
    (hv : s'.Agreed timestamp v markets) : s.Agreed timestamp v markets := by
  constructor
  · rintro market hmem index ⟨now, m, hnow, hget, hsim⟩
    exact hv.index market hmem index ⟨now, m, hnow, hq.markets ▸ hget, hsim⟩
  · intro market hmem feed hfeed
    exact hv.price market hmem feed (hq.prices ▸ hfeed)

theorem SameQuotes.clears (hq : SameQuotes s s')
    {supply : SortedMap HubAssetKey AccountPosition} {debt : SortedMap HubAssetKey DebtPosition}
    (hs : s.Clears timestamp supply debt) : s'.Clears timestamp supply debt :=
  fun v hv => hs v (hq.agreed hv)

theorem Outward.sameQuotes (ho : Outward s s') : SameQuotes s s' :=
  ⟨ho.markets, congrArg Context.tokenPrices ho.cache⟩

theorem Outward.gated (ho : Outward s s') {id : Nat} (hs : s.Gated timestamp id) :
    s'.Gated timestamp id := by
  unfold Gated
  rw [ho.store]
  exact ho.sameQuotes.clears hs

end Invocation

/-! ## Where flows lead -/

/-- From `P`, `x` ends in `R`, unless it traps. -/
abbrev Leaves (P : Invocation W → Prop) (x : Ctrl W α) (R : α → Invocation W → Prop) : Prop :=
  Ends P (fun _ => True) x R

namespace Leaves

variable {P : Invocation W → Prop} {R : β → Invocation W → Prop} {x : Ctrl W α}
  {f : α → Ctrl W β}

theorem along {T : Invocation W → Invocation W → Prop} (hx : Along T x)
    (hP : ∀ s s', T s s' → P s → P s') : Leaves P x fun _ => P :=
  Ends.post (Within.along hx hP) fun _ _ hs => hs.1

/-- From what is weaker than `P`. -/
theorem via {R : α → Invocation W → Prop} (P' : Invocation W → Prop) (hx : Leaves P' x R)
    (hP : ∀ s, P s → P' s) : Leaves P x R :=
  Ends.pre hx hP

/-- A step that keeps `P`. -/
theorem step {Q : α → Prop} (hx : Within P x Q) (hf : ∀ a, Q a → Leaves P (f a) R) :
    Leaves P (x >>= f) R :=
  Ends.bind hx fun a s hs => hf a hs.2 s hs.1

theorem result {r : Result α} (hf : ∀ a, r = .ok a → Leaves P (f a) R) :
    Leaves P ((liftM r : Ctrl W α) >>= f) R :=
  step (Spec.lift (fun _ ha => ha) fun _ _ => trivial) hf

theorem unwrap {o : Option α} {e : Error} (hf : ∀ a, o = some a → Leaves P (f a) R) :
    Leaves P (unwrapOr o e >>= f) R :=
  result fun a ha => hf a (Fallible.orThrow_ok_iff.mp ha)

theorem assert {c : Prop} [Decidable c] {e : Error} {g : Unit → Ctrl W β}
    (hg : c → Leaves P (g ()) R) : Leaves P (assertWithError c e >>= g) R :=
  result fun _ ha => hg (Fallible.require_ok_iff.mp ha)

theorem poolCall {g : PoolCtx W → Result (PoolCtx W × β)}
    (hg : ∀ s pool b, P s → g s.pool = .ok (pool, b) → R b { s with pool }) :
    Leaves P (Ctrl.poolCall g) R := by
  refine Ends.get_bind fun t ht => result fun r hr => Ends.bind (Q := fun _ => R r.2)
    (Ends.modify ?_) fun _ => Ends.pure fun _ hs => hs
  rintro s rfl
  exact hg s r.1 r.2 ht hr

theorem foreign {g : W → Result (W × β)}
    (hg : ∀ s w b, P s → g s.pool.world = .ok (w, b) → R b { s with pool.world := w }) :
    Leaves P (Ctrl.outside g) R :=
  poolCall fun s pool b hs hrun => by
    obtain ⟨⟨w, b⟩, hw, heq⟩ := Fallible.bind_ok hrun
    cases heq
    exact hg s w b hs hw

/-- A step that reads the store, which is known. -/
theorem store {st : ControllerStore} {f : ControllerStore → Ctrl W β}
    (hP : ∀ s, P s → s.store = st) (hf : Leaves P (f st) R) : Leaves P (Ctrl.store >>= f) R := by
  intro s hs
  obtain rfl := hP s hs
  exact hf s hs

theorem idle {st : ControllerStore} {nft : PositionNft} {base : PoolCtx W}
    (hx : IdleOnly h timestamp x)
    (hf : ∀ a, Leaves (Working h timestamp st nft base) (f a) R) :
    Leaves (Working h timestamp st nft base) (x >>= f) R :=
  step (Within.along hx fun _ _ hi hs => hi.working hs) fun a _ => hf a

end Leaves

/-! ## Gates -/

namespace Risk

theorem requireWholeUnitCollateralFloor_prices {a : Account} :
    KeepsPrices (requireWholeUnitCollateralFloor timestamp a : Ctrl W Unit) :=
  .foldlM (fun _ _ => .bind Context.cachedPrice_prices fun _ => .ite .pure
    (.bind Context.cachedMarketIndex_prices fun _ => .bind .lift fun _ => .bind .lift fun _ =>
      .lift)) ()

/-- A read that asks for no new price moves no mark. -/
theorem sameQuotes_along {x : Ctrl W α} (hr : ReadsOnly h timestamp x) (hp : KeepsPrices x) :
    Along SameQuotes x := by
  intro s
  have h1 := (hr s).system
  exact ⟨congrArg (fun b => b.pool.markets) h1, hp s⟩

/-- **Gates.** What passed clears. -/
theorem requirePostPoolRiskGates_clears {a : Account} :
    Leaves (Quoted h timestamp) (requirePostPoolRiskGates h timestamp a)
      fun _ => Clears timestamp a.supplyPositions a.borrowPositions := by
  refine Ends.ite (fun hfree => Ends.pure fun s _ v _ => .inl hfree) fun _ =>
    Ends.bind calculateAccountRiskTotals_totals fun totals =>
    Leaves.assert fun hltv => Leaves.assert fun hhf => ?_
  -- The totals are known, and what follows moves no mark.
  refine Ends.pre (Leaves.along (T := SameQuotes) ?_ fun _ _ hq hs => hq.clears hs)
    fun s hs v hv => .inr ⟨totals, hs.2 v hv, hltv, hhf⟩
  exact .bind (Along.mono store_outward fun _ _ => Outward.sameQuotes) fun _ => .bind .lift fun _ =>
    sameQuotes_along (h := h) requireWholeUnitCollateralFloor_reads
      requireWholeUnitCollateralFloor_prices

end Risk

namespace Positions

variable {st : ControllerStore} {nft : PositionNft} {base : PoolCtx W} {a : Account}

/-- An account that passed the gates, with nothing stored yet. -/
structure Cleared (timestamp : Nat) (st : ControllerStore) (a : Account) (s : Invocation W) :
    Prop where
  store : s.store = st
  clears : s.Clears timestamp a.supplyPositions a.borrowPositions

theorem restampListedSupplyLtv_within :
    Within (Working h timestamp st nft base) (Risk.restampListedSupplyLtv timestamp a)
      fun r => r.1.borrowPositions = a.borrowPositions ∧ (r.2 = false → r.1 = a) := by
  refine .loop (I := fun r => r.1.borrowPositions = a.borrowPositions ∧ (r.2 = false → r.1 = a))
    (fun acc market _ hacc => ?_) (a, false) ⟨rfl, fun _ => rfl⟩
  refine .idle Context.cachedSpokeAsset_reads.idles fun config => ?_
  cases config with
  | none => exact .pure hacc
  | some config =>
    dsimp only
    split
    · exact .pure hacc
    · refine .ite (fun _ => .pure hacc) fun _ =>
        .idle Context.fetchMarketIndexes_reads.idles fun _ =>
        .idle Context.cachedMarketIndex_reads.idles fun _ => .pure ⟨?_, nofun⟩
      rw [Account.updateOrRemoveSupplyPosition_eq]
      exact hacc.1

/-- What follows the gates of a flow. -/
theorem gates_leaves {f : Account × Bool → Ctrl W β} {R : β → Invocation W → Prop}
    (hf : ∀ r, r.1.borrowPositions = a.borrowPositions → (r.2 = false → r.1 = a) →
      Leaves (Cleared timestamp st r.1) (f r) R) :
    Leaves (Working h timestamp st nft base) (enforcePostPoolSolvency h timestamp a >>= f) R := by
  unfold enforcePostPoolSolvency
  simp only [bind_assoc, pure_bind]
  refine .step restampListedSupplyLtv_within fun r hr => ?_
  refine Ends.bind (Q := fun _ => Cleared timestamp st r.1) (fun s hs => ?_) fun _ =>
    hf r hr.1 hr.2
  have hclears := Risk.requirePostPoolRiskGates_clears (a := r.1) s hs.quoted
  cases hrun : Risk.requirePostPoolRiskGates h timestamp r.1 s with
  | error e s' => trivial
  | ok u s' =>
    rw [hrun] at hclears
    refine ⟨?_, hclears⟩
    rw [(Risk.requirePostPoolRiskGates_reads.ok hrun).system, hs.store]

/-! ## Write-back -/

section WriteBack

variable {P : Invocation W → Prop} {id : Nat}

/-- `st'` holds the positions of `a` under `id`, and those of the other accounts as `st` does. -/
structure Stores (st : ControllerStore) (id : Nat) (a : Account) (st' : ControllerStore) :
    Prop where
  supply : st'.getSupplyPositions id = a.supplyPositions
  debt : st'.getDebtPositions id = a.borrowPositions
  supply_ne : ∀ id' ≠ id, st'.getSupplyPositions id' = st.getSupplyPositions id'
  debt_ne : ∀ id' ≠ id, st'.getDebtPositions id' = st.getDebtPositions id'

/-- The entry of an empty account holds nothing. -/
theorem Stores.removed {st' : ControllerStore} (hs : Stores st id a st')
    (hempty : a.isEmpty = true) : Stores st id a (st'.removeAccountEntry id) := by
  rw [Account.isEmpty, Bool.and_eq_true, SortedMap.isEmpty_iff, SortedMap.isEmpty_iff] at hempty
  refine ⟨?_, ?_, fun id' hne => (?_ : _ = _).trans (hs.supply_ne id' hne),
    fun id' hne => (?_ : _ = _).trans (hs.debt_ne id' hne)⟩
  · show ((st'.supplyPositions.erase id).get? id).getD .empty = _
    rw [SortedMap.get?_erase_self, hempty.1]
    rfl
  · show ((st'.borrowPositions.erase id).get? id).getD .empty = _
    rw [SortedMap.get?_erase_self, hempty.2]
    rfl
  · show ((st'.supplyPositions.erase id).get? id').getD .empty = _
    rw [SortedMap.get?_erase_ne _ hne]
    rfl
  · show ((st'.borrowPositions.erase id).get? id').getD .empty = _
    rw [SortedMap.get?_erase_ne _ hne]
    rfl

-- `P` is about quotes alone, so that writes do not touch it.
variable (hP : ∀ s s', SameQuotes s s' → P s → P s')

include hP

theorem modifyStore_leaves {f : ControllerStore → ControllerStore} :
    Leaves (fun s => s.store = st ∧ P s) (Ctrl.modifyStore f : Ctrl W Unit)
      fun _ s => s.store = f st ∧ P s :=
  Ends.modify fun s hs => ⟨congrArg f hs.1, hP s _ ⟨rfl, rfl⟩ hs.2⟩

theorem cleanupAccountIfEmpty_leaves {st' : ControllerStore} (hs : Stores st id a st') :
    Leaves (fun s => s.store = st' ∧ P s) (a.cleanupAccountIfEmpty h id)
      fun _ s => Stores st id a s.store ∧ P s := by
  refine Ends.ite (fun hempty => ?_) fun _ => Ends.pure fun s hs' => ⟨hs'.1 ▸ hs, hs'.2⟩
  refine Ends.bind (modifyStore_leaves hP) fun _ => Leaves.assert fun _ =>
    Ends.bind (Ends.post Ends.get fun _ _ hs => hs.2) fun _ => Leaves.assert fun _ =>
    Ends.modify fun s hs' => ⟨?_, hP s _ ⟨rfl, rfl⟩ hs'.2⟩
  show Stores st id a s.store
  rw [hs'.1]
  exact hs.removed hempty

/-- **Write-back.** The positions of the flow's account are the stored ones. -/
theorem finalizePositionFlow_leaves {sides : PositionSides} {removeIfEmpty : Bool}
    (hsave : st.Saves id sides a a) :
    Leaves (fun s => s.store = st ∧ P s) (finalizePositionFlow h id a sides removeIfEmpty)
      fun _ s => Stores st id a s.store ∧ P s := by
  refine Ends.bind (Q := fun _ s => ∃ rows, s.store = { st with spokeUsage := rows } ∧ P s)
    ?_ fun _ s hs => ?_
  · refine Ends.bind Ends.get fun t => ?_
    split
    · rename_i ctx _
      obtain ⟨rows, hrows⟩ := ctx.persist_eq st
      exact (modifyStore_leaves hP).conseq (fun s hs => hs.2) fun _ s hs =>
        ⟨rows, hs.1.trans hrows, hs.2⟩
    · exact Ends.pure fun s hs => ⟨st.spokeUsage, hs.2⟩
  · obtain ⟨rows, hs⟩ := hs
    have hsave' : ControllerStore.Saves { st with spokeUsage := rows } id sides a a :=
      ⟨hsave.supply, hsave.debt⟩
    have hw := hsave'.writes
    have hstores : Stores st id a (ControllerStore.writeSides _ id a sides) :=
      ⟨hw.supply, hw.debt, fun _ hne => hw.getSupply_ne hne, fun _ hne => hw.getDebt_ne hne⟩
    have hpersist : Leaves (fun s => s.store = { st with spokeUsage := rows } ∧ P s)
        (persistAccountPositions h id a sides removeIfEmpty)
        fun _ s => Stores st id a s.store ∧ P s :=
      Ends.bind (modifyStore_leaves hP) fun _ => Ends.bind (modifyStore_leaves hP) fun _ =>
        Ends.ite (fun _ => cleanupAccountIfEmpty_leaves hP hstores) fun _ =>
        Ends.pure fun s hs => ⟨hs.1 ▸ hstores, hs.2⟩
    exact hpersist s hs

end WriteBack

/-- What is stored of a cleared account is gated. -/
theorem finalizePositionFlow_gated {id : Nat} {sides : PositionSides} {removeIfEmpty : Bool}
    (hsave : st.Saves id sides a a) :
    Leaves (Cleared timestamp st a) (finalizePositionFlow h id a sides removeIfEmpty)
      fun _ => Gated timestamp id := by
  refine (finalizePositionFlow_leaves (P := Clears timestamp a.supplyPositions a.borrowPositions)
    (fun _ _ hq hs => hq.clears hs) hsave).conseq (fun s hs => ⟨hs.store, hs.clears⟩)
    fun _ s hs => ?_
  unfold Gated
  rw [hs.1.supply, hs.1.debt]
  exact hs.2

/-! ## Flows -/

variable {caller : Address}

/-- The account is read as it is stored. -/
theorem getAccount_within {P : Invocation W → Prop} {id : Nat}
    (hstore : ∀ s, P s → s.store = st) (hP : ∀ s s', Reads h timestamp s s' → P s → P s') :
    Within P (Storage.getAccount h id) fun a =>
      st.getSupplyPositions id = a.supplyPositions ∧ st.getDebtPositions id = a.borrowPositions :=
  .store hstore <| .unwrap fun _ _ => .bind (.along Storage.accountOwner_reads hP) fun _ _ =>
    .pure ⟨rfl, rfl⟩

theorem getAccount_working {id : Nat} :
    Within (Working h timestamp st nft base) (Storage.getAccount h id) fun a =>
      st.getSupplyPositions id = a.supplyPositions ∧ st.getDebtPositions id = a.borrowPositions :=
  getAccount_within (fun _ hs => hs.store) fun _ _ hr hs => hr.idles.working hs

theorem processWithdraw_gated {accountId : Nat} {withdrawals : List HubPayment}
    {recipient : Option Address} :
    Leaves (Working h timestamp st nft base)
      (processWithdraw h timestamp caller accountId withdrawals recipient)
      fun _ => Gated timestamp accountId := by
  refine .idle Risk.requireNotFlashLoaning_reads.idles fun _ => .step getAccount_working fun a ha =>
    .idle Account.requireOwnerOrDelegate_reads.idles fun _ => .assert fun _ => .result fun _ _ =>
    .step settleWithdraw_within fun r hb => gates_leaves fun r' hdebt _ =>
    .bind (finalizePositionFlow_gated ⟨rfl, ?_⟩) fun _ => .pure fun _ hs => hs
  have hsame : r.1.borrowPositions = a.borrowPositions := hb
  exact hdebt.trans (hsame.trans ha.2.symm)

theorem processBorrow_gated {accountId : Nat} {borrows : List HubPayment}
    {recipient : Option Address} :
    Leaves (Working h timestamp st nft base)
      (processBorrow h timestamp caller accountId borrows recipient)
      fun _ => Gated timestamp accountId := by
  refine .idle Risk.requireNotFlashLoaning_reads.idles fun _ => .step getAccount_working fun a ha =>
    .idle Account.requireOwnerOrDelegate_reads.idles fun _ => .assert fun _ => .result fun _ _ =>
    .idle validatePositionEntryGates_reads.idles fun _ => .step settleBorrow_within fun a' hb =>
    gates_leaves fun r _ hr => finalizePositionFlow_gated ?_
  cases hrestamped : r.2 with
  | true => exact saves_both
  | false =>
    have hsame : a'.supplyPositions = a.supplyPositions := hb
    rw [hr hrestamped]
    exact ⟨hsame.trans ha.1.symm, rfl⟩

end Positions

namespace Account

theorem nftMintCall_opens {st : ControllerStore} {nft : PositionNft} {base : PoolCtx W} {owner : Address} :
    Leaves (Working h timestamp st nft base) (nftMintCall h owner) fun id s =>
      id = nft.nextTokenId ∧ ∃ nft', Working h timestamp st nft' base s := by
  refine Ends.get_bind fun t ht => Leaves.assert fun _ => Ends.bind
    (Q := fun _ s => ∃ nft', Working h timestamp st nft' base s) (Ends.modify ?_) fun _ =>
    Ends.pure fun s hs => ⟨congrArg PositionNft.nextTokenId ht.nft, hs⟩
  rintro s rfl
  exact ⟨_, ht.store, rfl, ht.carries.congr rfl, ht.quoted.congr rfl rfl rfl⟩

/-- Nothing is stored under the id the next account gets. -/
structure Vacant (st : ControllerStore) (nft : PositionNft) : Prop where
  supply : st.getSupplyPositions nft.nextTokenId = .empty
  debt : st.getDebtPositions nft.nextTokenId = .empty

/-- `st'` has the positions of `st`, and `a` is read off them. -/
structure Opens (st : ControllerStore) (nft : PositionNft) (id : Nat) (a : Account)
    (st' : ControllerStore) : Prop where
  supply : st'.supplyPositions = st.supplyPositions
  debt : st'.borrowPositions = st.borrowPositions
  account : Vacant st nft → st.getSupplyPositions id = a.supplyPositions ∧
    st.getDebtPositions id = a.borrowPositions

/-- Opening an account writes its record and its token only. -/
theorem loadOrCreateAccount_opens {st : ControllerStore} {nft : PositionNft} {base : PoolCtx W}
    {caller : Address} {accountId spokeId : Nat} {mode : PositionMode} {guard : AccountGuard} :
    Leaves (Working h timestamp st nft base)
      (loadOrCreateAccount h caller accountId spokeId mode guard) fun r s =>
        r.1 = (if accountId = 0 then nft.nextTokenId else accountId) ∧
          ∃ st' nft', Opens st nft r.1 r.2 st' ∧ Working h timestamp st' nft' base s := by
  refine Ends.ite (fun hzero => ?_) fun hne => ?_
  · rw [if_pos hzero]
    refine Leaves.assert fun _ => .idle Context.activeSpoke_reads.idles fun _ =>
      Ends.bind nftMintCall_opens fun id => Ends.bind (Q := fun _ s => id = nft.nextTokenId ∧
        ∃ st' nft', Opens st nft id ⟨caller, spokeId, mode, .empty, .empty⟩ st' ∧
          Working h timestamp st' nft' base s) (Ends.modify ?_) fun _ => Ends.pure fun _ hs => hs
    rintro s ⟨rfl, nft', hs⟩
    obtain rfl := hs.store
    exact ⟨rfl, { s.store with metas := s.store.metas.set nft.nextTokenId ⟨spokeId, mode⟩ }, nft',
      ⟨rfl, rfl, fun hv => ⟨hv.supply, hv.debt⟩⟩,
      rfl, hs.nft, hs.carries, hs.quoted.congr rfl rfl rfl⟩
  · rw [if_neg hne]
    have hload : Within (Working h timestamp st nft base) (do
        let account ← Storage.getAccount h accountId
        requireGuard guard accountId caller account spokeId mode
        return (accountId, account)) fun r => r.1 = accountId ∧ Opens st nft r.1 r.2 st :=
      .bind Positions.getAccount_working fun _ ha => .idle requireGuard_reads.idles fun _ =>
        .pure ⟨rfl, rfl, rfl, fun _ => ha⟩
    exact Ends.post hload fun r s hs => ⟨hs.2.1, st, nft, hs.2.2, hs.1⟩

/-- The account a flow works on, once it is there. -/
def openedId (nft : PositionNft) (accountId : Nat) : Nat :=
  if accountId = 0 then nft.nextTokenId else accountId

end Account

/-- What follows the opening of an account. -/
theorem Leaves.opened {st : ControllerStore} {nft : PositionNft} {base : PoolCtx W} {caller : Address}
    {accountId spokeId : Nat} {mode : PositionMode} {guard : Account.AccountGuard}
    {f : Nat × Account → Ctrl W β} {R : β → Invocation W → Prop}
    (hf : ∀ st' nft' a, Leaves (Working h timestamp st' nft' base)
      (f (Account.openedId nft accountId, a)) R) :
    Leaves (Working h timestamp st nft base)
      (Account.loadOrCreateAccount h caller accountId spokeId mode guard >>= f) R := by
  refine Ends.bind Account.loadOrCreateAccount_opens fun r s hs => ?_
  obtain ⟨hid, st', nft', -, hs⟩ := hs
  obtain ⟨id, a⟩ := r
  obtain rfl : id = Account.openedId nft accountId := hid
  exact hf st' nft' a s hs

/-! ## Strategies -/

namespace Strategies

open Positions

variable {st : ControllerStore} {nft : PositionNft} {base : PoolCtx W} {a : Account} {caller : Address}

theorem strategyFinalize_gated {id : Nat} :
    Leaves (Working h timestamp st nft base) (strategyFinalize h timestamp id a)
      fun _ => Gated timestamp id :=
  gates_leaves fun _ _ _ => Ends.bind (finalizePositionFlow_gated saves_both) fun _ =>
    Ends.pure fun _ hs => hs

/-- Every strategy on an account ends so. -/
theorem finalize_leaves {id : Nat} {f : Account → Ctrl W β} {R : β → Invocation W → Prop}
    (hf : ∀ a, Leaves (Gated timestamp id) (f a) R) :
    Leaves (Working h timestamp st nft base) (strategyFinalize h timestamp id a >>= f) R :=
  Ends.bind strategyFinalize_gated hf

theorem processMultiply_gated {p : MultiplyParams} :
    Leaves (Working h timestamp st nft base) (processMultiply h timestamp caller p)
      fun _ => Gated timestamp (Account.openedId nft p.accountId) :=
  .idle Risk.requireNotFlashLoaning_reads.idles fun _ => .result fun _ _ => .opened fun _ _ _ =>
    .idle requireCanSupply_reads.idles fun _ => .idle prefetchStrategyPrices_reads.idles fun _ =>
    .idle collectInitialMultiplyPayment_outward.idles fun _ =>
    .step borrowIntoController_within fun _ _ => .unwrap fun _ _ =>
    .idle swapTokensOrPassthrough_outward.idles fun _ => .unwrap fun _ _ =>
    .step processDeposit_within fun _ _ => finalize_leaves fun _ => Ends.pure fun _ hs => hs

theorem processSwapDebt_gated {p : SwapDebtParams} :
    Leaves (Working h timestamp st nft base) (processSwapDebt h timestamp caller p)
      fun _ => Gated timestamp p.accountId :=
  .idle Risk.requireNotFlashLoaning_reads.idles fun _ => .assert fun _ =>
    .idle Context.requireHubActive_reads.idles fun _ => .result fun _ _ =>
    .step getAccount_working fun _ _ => .idle Account.requireOwnerOrDelegate_reads.idles fun _ =>
    .unwrap fun _ _ => .idle prefetchStrategyPrices_reads.idles fun _ =>
    .step borrowIntoController_within fun _ _ =>
    .idle swapTokensOrPassthrough_outward.idles fun _ =>
    .step repayDebtFromController_within fun _ _ => finalize_leaves fun _ =>
    Ends.pure fun _ hs => hs

theorem processSwapCollateral_gated {p : SwapCollateralParams} :
    Leaves (Working h timestamp st nft base) (processSwapCollateral h timestamp caller p)
      fun _ => Gated timestamp p.accountId :=
  .idle Risk.requireNotFlashLoaning_reads.idles fun _ => .assert fun _ =>
    .idle Context.requireHubActive_reads.idles fun _ => .result fun _ _ =>
    .step getAccount_working fun _ _ => .idle Account.requireOwnerOrDelegate_reads.idles fun _ =>
    .idle requireCanSupply_reads.idles fun _ => .idle prefetchStrategyPrices_reads.idles fun _ =>
    .step withdrawAndSwapFromSupply_within fun _ _ => .step processDeposit_within fun _ _ =>
    finalize_leaves fun _ => Ends.pure fun _ hs => hs

theorem processRepayDebtWithCollateral_gated {p : RepayWithCollateralParams} :
    Leaves (Working h timestamp st nft base) (processRepayDebtWithCollateral h timestamp caller p)
      fun _ => Gated timestamp p.accountId := by
  refine .idle Risk.requireNotFlashLoaning_reads.idles fun _ => .result fun _ _ =>
    .idle Context.requireHubActive_reads.idles fun _ =>
    .idle Context.requireHubActive_reads.idles fun _ =>
    .step getAccount_working fun _ _ => .idle Account.requireOwnerOrDelegate_reads.idles fun _ =>
    .idle prefetchStrategyPrices_reads.idles fun _ => .step (Q := fun _ => True) ?_ fun _ _ =>
    .step closeAfterRepay_within fun _ _ => finalize_leaves fun _ => Ends.pure fun _ hs => hs
  exact Within.ite (fun _ => .assert fun _ => netSettleCollateralAgainstDebt_within)
    fun _ => repayViaCollateralSwap_within

theorem validateCollaterals_idles {collaterals : List HubPayment} :
    IdleOnly h timestamp (validateCollaterals a collaterals : Ctrl W Unit) :=
  .bind .lift fun _ => .bind store_outward.idles fun _ => .bind .lift fun _ =>
    .bind (.foldlM (fun _ _ => .bind .lift fun _ => .bind .lift fun _ =>
      .bind requireCanSupply_reads.idles fun _ => .pure) []) fun _ => .bind .lift fun _ =>
    validatePositionEntryGates_reads.idles

theorem processFlashPosition_gated {p : FlashPositionParams} :
    Leaves (Working h timestamp st nft base) (processFlashPosition h timestamp caller p)
      fun _ => Gated timestamp (Account.openedId nft p.accountId) := by
  refine .idle Risk.requireNotFlashLoaning_reads.idles fun _ => .result fun _ _ =>
    .idle Context.requireHubActive_reads.idles fun _ => .assert fun _ =>
    .idle (.bind world_outward.idles fun _ => .lift) fun _ => .result fun _ _ =>
    .idle Context.cachedPoolSyncData_reads.idles fun _ => .assert fun _ =>
    .opened fun _ _ a => .idle validateCollaterals_idles fun _ =>
    .idle validateRefundAssets_reads.idles fun _ => .idle prefetchStrategyPrices_reads.idles fun _ =>
    .step (Ctrl.withFlashGuard_within fundAndCall_within) fun _ _ =>
    .idle collectCollateralDeposits_outward.idles fun _ => .step processDeposit_within fun _ _ =>
    .idle refundListedAssets_outward.idles fun _ =>
    .idle requireFlashPositionStillOpen_outward.idles fun _ => finalize_leaves fun _ => ?_
  exact Ends.bind (Leaves.along requireFlashPositionStillOpen_outward fun _ _ ho hs => ho.gated hs)
    fun _ => Ends.pure fun _ hs => hs

theorem processMigrateBlend_gated {p : MigrateBlendParams} :
    Leaves (Working h timestamp st nft base) (processMigrateBlend h timestamp caller p)
      fun _ => Gated timestamp (Account.openedId nft p.accountId) :=
  .idle Risk.requireNotFlashLoaning_reads.idles fun _ =>
    .idle Context.requireHubActive_reads.idles fun _ =>
    .idle (.bind .lift fun _ => .bind store_outward.idles fun _ => .lift) fun _ =>
    .result fun _ _ => .opened fun _ _ _ => .idle prefetchStrategyPrices_reads.idles fun _ =>
    .idle (.foldlM (fun _ _ => requireCanSupply_reads.idles) ()) fun _ =>
    .step executeMigrationDebtLeg_within fun _ _ => .step sweepAndDeposit_within fun _ _ =>
    finalize_leaves fun _ => Ends.pure fun _ hs => hs

end Strategies

/-! ## Calls -/

open Positions Strategies Governance

/-- The account whose positions a call gates, by the tokens before it. -/
def ControllerCall.gated (nft : PositionNft) : ControllerCall → Option Nat
  | borrow _ accountId _ _ => some accountId
  | withdraw _ accountId _ _ => some accountId
  | flashPosition _ p => some (Account.openedId nft p.accountId)
  | multiply _ p => some (Account.openedId nft p.accountId)
  | swapDebt _ p => some p.accountId
  | swapCollateral _ p => some p.accountId
  | repayDebtWithCollateral _ p => some p.accountId
  | migrateFromBlend _ p => some (Account.openedId nft p.accountId)
  | _ => none

section
variable {st : ControllerStore} {nft : PositionNft} {base : PoolCtx W} {R : Invocation W → Prop}

theorem Governance.whenNotPaused_leaves {x : Ctrl W α}
    (hx : Leaves (Working h timestamp st nft base) x fun _ => R) :
    Leaves (Working h timestamp st nft base) (whenNotPaused x) fun _ => R :=
  .idle store_outward.idles fun _ => .assert fun _ => hx

/-- What a call returns is dropped. -/
theorem Leaves.drop {P : Invocation W → Prop} {x : Ctrl W α} (hx : Leaves P x fun _ => R) :
    Leaves P (do let _ ← x : Ctrl W Unit) fun _ => R :=
  Ends.bind hx fun _ => Ends.pure fun _ hs => hs

/-- **Gated calls.** Each stores positions that clear. -/
theorem ControllerCall.body_gated {call : ControllerCall} {id : Nat}
    (hid : call.gated nft = some id) :
    Leaves (Working h timestamp st nft base) (call.body h timestamp) fun _ => Gated timestamp id := by
  cases call with
  | borrow => cases hid; exact whenNotPaused_leaves processBorrow_gated
  | withdraw => cases hid; exact processWithdraw_gated.drop
  | flashPosition => cases hid; exact whenNotPaused_leaves processFlashPosition_gated.drop
  | multiply => cases hid; exact whenNotPaused_leaves processMultiply_gated.drop
  | swapDebt => cases hid; exact whenNotPaused_leaves processSwapDebt_gated
  | swapCollateral => cases hid; exact whenNotPaused_leaves processSwapCollateral_gated
  | repayDebtWithCollateral =>
    cases hid; exact whenNotPaused_leaves processRepayDebtWithCollateral_gated
  | migrateFromBlend => cases hid; exact whenNotPaused_leaves processMigrateBlend_gated.drop
  | _ => cases hid

end

end Lending
