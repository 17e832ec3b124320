import LendingXlm.Controller.Opening

/-!
# Flows on positions

Supply, withdrawal, borrowing and repayment on an account in hand: the gates say which markets it
may hold afterwards, the pool runs a batch and posts to its totals, and merging the batch posts to
the rows and writes the positions.

* `validatePositionEntryGates_keeps`: what passed the gates fits;
* `applyWithdrawBatch_keeps`, `applyRepayBatch_keeps`, `settleBorrow_keeps`, `processDeposit_keeps`,
  `borrowIntoController_keeps`: the books move as the positions do;
* `processSupply_keeps`, `processWithdraw_keeps`, `processBorrow_keeps`, `processRepay_keeps`.
-/

namespace Lending

open Transaction Ctrl Invocation Books

variable {W : Type} {h : ControllerHost W} {timestamp : Nat}

/-! ## An account in hand -/

/-- As `Holding`, with markets that fit. -/
structure InHand (base : System W) (spokeId : Nat) (others : Books) (a : Account)
    (s : Invocation W) : Prop extends Holding base spokeId others a s where
  fits : ∀ side, KeysFit base.pool.decimals side (a.keysOf side)

variable {base : System W} {spokeId : Nat} {others : Books} {a : Account}

theorem inHand_stable : Stable (InHand base spokeId others a) :=
  fun s s' hq hs => ⟨holding_stable s s' hq hs.toHolding, hs.fits⟩

theorem InHand.sound {s : Invocation W} (hs : InHand base spokeId others a s) :
    a.Sound base.pool.decimals :=
  ⟨hs.positive, hs.fits⟩

theorem Balanced.opened {start : System W} {ids : List Nat} {rest : Books} {s : Invocation W}
    (hs : Balanced start ids rest s) {id : Nat} (ha : Loaded id a s) (hid : id ∉ ids) :
    Opened start s.toSystem ids id a.spokeId :=
  ⟨hs.wellFormed, hs.evolves, ha.bound, hid⟩

/-- An account that was loaded is in hand. -/
theorem Balanced.inHand {start : System W} {ids : List Nat} {rest : Books} {s : Invocation W}
    (hs : Balanced start ids rest s) {id : Nat} (ha : Loaded id a s) (hid : id ∉ ids)
    (hrest : ∀ spokeId side market, 0 ≤ rest ⟨some spokeId, side, market⟩) :
    InHand s.toSystem a.spokeId (s.store.booksBesides (id :: ids) + rest) a s :=
  ⟨hs.open ha hid hrest, (hs.sound ha).fits⟩

/-- The account has a position of that many shares. -/
def Account.Holds (a : Account) (side : UsageSide) (market : HubAssetKey) (scaled : Int) : Prop :=
  market ∈ a.keysOf side ∧ scaled = a.shares side market

theorem Account.holds_supply {market : HubAssetKey} {p : AccountPosition}
    (hget : a.supplyPositions.get? market = some p) : a.Holds .supply market p.scaledAmount :=
  ⟨List.mem_toFinset.mpr (SortedMap.mem_keys.mpr ⟨p, hget⟩), (a.shares_of_supply hget).symm⟩

theorem Account.holds_debt {market : HubAssetKey} {p : DebtPosition}
    (hget : a.borrowPositions.get? market = some p) : a.Holds .borrow market p.scaledAmount :=
  ⟨List.mem_toFinset.mpr (SortedMap.mem_keys.mpr ⟨p, hget⟩), (a.shares_of_debt hget).symm⟩

/-- Shares are held in a position. -/
theorem Account.holds_of_pos {side : UsageSide} {market : HubAssetKey} {scaled : Int}
    (heq : scaled = a.shares side market) (hpos : 0 < scaled) : a.Holds side market scaled := by
  refine ⟨?_, heq⟩
  rw [heq] at hpos
  cases side with
  | supply =>
    cases hget : a.supplyPositions.get? market with
    | none => simp [shares, scaledOf, hget] at hpos
    | some p => exact (a.holds_supply hget).1
  | borrow =>
    cases hget : a.borrowPositions.get? market with
    | none => simp [shares, scaledOf, hget] at hpos
    | some p => exact (a.holds_debt hget).1

theorem Account.Positive.shares_nonneg (ha : a.Positive) {side : UsageSide}
    {market : HubAssetKey} : 0 ≤ a.shares side market := by
  cases side with
  | supply =>
    cases hget : a.supplyPositions.get? market with
    | none => simp [shares, scaledOf, hget]
    | some p =>
      rw [a.shares_of_supply hget]
      exact (ha.supply hget).le
  | borrow =>
    cases hget : a.borrowPositions.get? market with
    | none => simp [shares, scaledOf, hget]
    | some p =>
      rw [a.shares_of_debt hget]
      exact (ha.debt hget).le

theorem Account.Positive.shares_pos (ha : a.Positive) {side : UsageSide} {market : HubAssetKey}
    (hk : market ∈ a.keysOf side) : 0 < a.shares side market := by
  cases side with
  | supply =>
    obtain ⟨p, hget⟩ := SortedMap.mem_keys.mp (List.mem_toFinset.mp hk)
    rw [a.shares_of_supply hget]
    exact ha.supply hget
  | borrow =>
    obtain ⟨p, hget⟩ := SortedMap.mem_keys.mp (List.mem_toFinset.mp hk)
    rw [a.shares_of_debt hget]
    exact ha.debt hget

theorem Account.SameBesides.keysOf {side side' : UsageSide} {a' : Account}
    (hb : a.SameBesides side a') (hne : side' ≠ side) : a'.keysOf side' = a.keysOf side' := by
  cases side with
  | supply =>
    cases side' with
    | supply => exact absurd rfl hne
    | borrow => exact congrArg (fun m => (SortedMap.keys m).toFinset) hb
  | borrow =>
    cases side' with
    | supply => exact congrArg (fun m => (SortedMap.keys m).toFinset) hb
    | borrow => exact absurd rfl hne

/-- Markets that stay within `room` on one side, and are the same on the other, fit. -/
theorem Account.SameBesides.fits {side : UsageSide} {a' : Account}
    {decimals : HubAssetKey → Option Nat} {room : Finset HubAssetKey}
    (hb : a.SameBesides side a') (hfits : ∀ side, KeysFit decimals side (a.keysOf side))
    (hroom : KeysFit decimals side room) (hkeys : a'.keysOf side ⊆ room) (side' : UsageSide) :
    KeysFit decimals side' (a'.keysOf side') := by
  by_cases hside : side' = side
  · rw [hside]
    exact hroom.mono hkeys
  · rw [hb.keysOf hside]
    exact hfits side'

/-! ## Entry gates -/

namespace Context

variable {K V : Type} [LinearOrder K]

/-- The requested keys that are not in the map, each once. -/
theorem collectUncachedKeys_spec (requested : List K) (m : SortedMap K V) :
    (collectUncachedKeys requested m).Nodup ∧
      ∀ k, k ∈ collectUncachedKeys requested m ↔ k ∈ requested ∧ k ∉ m.keys := by
  have hkeys : ∀ k, m.contains k = false ↔ k ∉ m.keys := fun k => by
    rw [← Bool.not_eq_true, SortedMap.contains_iff, SortedMap.mem_keys]
  unfold collectUncachedKeys
  suffices hsuf : ∀ (l acc : List K), acc.Nodup →
      (l.foldl (fun missing key =>
        if m.contains key = false ∧ key ∉ missing then missing ++ [key] else missing) acc).Nodup ∧
      ∀ k, k ∈ l.foldl (fun missing key =>
        if m.contains key = false ∧ key ∉ missing then missing ++ [key] else missing) acc ↔
        k ∈ acc ∨ k ∈ l ∧ k ∉ m.keys by
    simpa using hsuf requested [] List.nodup_nil
  intro l
  induction l with
  | nil => exact fun acc hacc => ⟨hacc, fun k => by simp⟩
  | cons x l ih =>
    intro acc hacc
    rw [List.foldl_cons]
    by_cases hx : m.contains x = false ∧ x ∉ acc
    · rw [if_pos hx]
      obtain ⟨hnodup, hmem⟩ := ih (acc ++ [x]) (List.nodup_append.mpr
        ⟨hacc, List.nodup_singleton x, fun y hy z hz => by
          rw [List.mem_singleton.mp hz]
          exact fun heq => hx.2 (heq ▸ hy)⟩)
      refine ⟨hnodup, fun k => ?_⟩
      have hxk := (hkeys x).mp hx.1
      rw [hmem k]
      grind
    · rw [if_neg hx]
      obtain ⟨hnodup, hmem⟩ := ih acc hacc
      refine ⟨hnodup, fun k => ?_⟩
      have hxk := hkeys x
      rw [hmem k]
      grind

end Context

def AccountPositionType.usageSide : AccountPositionType → UsageSide
  | .deposit => .supply
  | .borrow => .borrow

/-- The markets of a batch of payments. -/
def marketsOf (payments : List HubPayment) : Finset HubAssetKey :=
  (payments.map Prod.fst).toFinset

theorem mem_marketsOf {payments : List HubPayment} {e : HubPayment} (he : e ∈ payments) :
    e.1 ∈ marketsOf payments :=
  List.mem_toFinset.mpr (List.mem_map_of_mem he)

/-- The markets on one side after a batch of entries. -/
def Account.room (a : Account) (side : UsageSide) (payments : List HubPayment) :
    Finset HubAssetKey :=
  a.keysOf side ∪ marketsOf payments

/-- Room, as the gates count it: what is there, and what is new. -/
theorem room_eq {V : Type} {m : SortedMap HubAssetKey V} {payments : List HubPayment} :
    m.keys.toFinset ∪ marketsOf payments =
      m.keys.toFinset ∪ (Context.collectUncachedKeys (payments.map Prod.fst) m).toFinset := by
  ext k
  have hmem := (Context.collectUncachedKeys_spec (payments.map Prod.fst) m).2 k
  rw [Finset.mem_union, Finset.mem_union, marketsOf, List.mem_toFinset, List.mem_toFinset,
    List.mem_toFinset, hmem]
  tauto

theorem room_card {V : Type} {m : SortedMap HubAssetKey V} {payments : List HubPayment} {n : Nat}
    (hle : m.keys.toFinset.card ≤ positionLimitMax) (hn : n ≤ positionLimitMax)
    (hlimit : Context.collectUncachedKeys (payments.map Prod.fst) m = [] ∨
      m.size + (Context.collectUncachedKeys (payments.map Prod.fst) m).length ≤ n) :
    (m.keys.toFinset ∪ marketsOf payments).card ≤ positionLimitMax := by
  rw [room_eq]
  rcases hlimit with hnil | hlimit
  · rw [hnil, List.toFinset_nil, Finset.union_empty]
    exact hle
  · have hunion := Finset.card_union_le m.keys.toFinset
      (Context.collectUncachedKeys (payments.map Prod.fst) m).toFinset
    have hkeys := m.keys.toFinset_card_le
    have hnew := (Context.collectUncachedKeys (payments.map Prod.fst) m).toFinset_card_le
    rw [SortedMap.length_keys] at hkeys
    omega

/-- What an invocation reads of a market. -/
theorem Context.cachedPoolSyncData_keeps {P : Invocation W → Prop} {k : HubAssetKey} :
    Keeps P (cachedPoolSyncData k : Ctrl W PoolSyncData)
      fun m s => P s ∧ s.pool.markets.get? k = some m := by
  refine Triple.bind Triple.get fun t => Triple.lift.post ?_
  rintro m s - ⟨⟨hs, rfl⟩, hget⟩
  exact ⟨hs, Fallible.orThrow_ok_iff.mp hget⟩

theorem PoolCtx.decimals_of_get {pool : PoolCtx W} {k : HubAssetKey} {m : PoolSyncData}
    (hget : pool.markets.get? k = some m) : pool.decimals k = some m.params.assetDecimals := by
  rw [PoolCtx.decimals, hget, Option.map_some]

namespace Risk

theorem validateBulkPositionLimits_keeps (hbase : base.WellFormed) {side : AccountPositionType}
    {aggregated : List HubPayment} :
    Keeps (InHand base spokeId others a) (validateBulkPositionLimits a side aggregated)
      fun _ s => InHand base spokeId others a s ∧
        (a.room side.usageSide aggregated).card ≤ positionLimitMax := by
  refine .store fun st => ?_
  cases side with
  | deposit =>
    refine Triple.lift.post ?_
    rintro _ s - ⟨⟨hs, hst⟩, hok⟩
    rw [← hst, hs.store] at hok
    exact ⟨hs, room_card (hs.fits .supply).limit hbase.limits.1 (Fallible.require_ok_iff.mp hok)⟩
  | borrow =>
    refine Triple.lift.post ?_
    rintro _ s - ⟨⟨hs, hst⟩, hok⟩
    rw [← hst, hs.store] at hok
    exact ⟨hs, room_card (hs.fits .borrow).limit hbase.limits.2 (Fallible.require_ok_iff.mp hok)⟩

/-- Each of the markets has three decimals or more. -/
def Divisible (decimals : HubAssetKey → Option Nat) (k : HubAssetKey) : Prop :=
  ∀ d, decimals k = some d → minBorrowableAssetDecimals ≤ d

theorem requireDivisible_keeps {checked : List HubAssetKey} :
    Keeps (InHand base spokeId others a)
      (checked.foldlM (fun _ hubAsset => do
        let decimals := (← Context.cachedPoolSyncData hubAsset).params.assetDecimals
        assertWithError (decimals ≥ minBorrowableAssetDecimals) .positionLimitExceeded) () :
        Ctrl W Unit)
      fun _ s => InHand base spokeId others a s ∧
        ∀ k ∈ checked, Divisible base.pool.decimals k := by
  have hloop := Keeps.foldlM (l := checked) (f := fun (_ : Unit) hubAsset => (do
        let decimals := (← Context.cachedPoolSyncData hubAsset).params.assetDecimals
        assertWithError (decimals ≥ minBorrowableAssetDecimals) .positionLimitExceeded : Ctrl W Unit))
    (P := fun _ rest s => InHand base spokeId others a s ∧
      ∀ k ∈ checked, k ∈ rest ∨ Divisible base.pool.decimals k) ?_ ()
  · refine (hloop.pre fun s hs => ⟨hs, fun k hk => .inl hk⟩).post fun _ s hs => ⟨hs.1, fun k hk => ?_⟩
    exact (hs.2 k hk).resolve_left List.not_mem_nil
  · rintro - x rest -
    refine .fact fun hrest => .bind Context.cachedPoolSyncData_keeps fun m => Triple.lift.post ?_
    rintro _ s - ⟨⟨hs, hm⟩, hok⟩
    refine ⟨hs, fun k hk => ?_⟩
    rcases hrest k hk with hk' | hdiv
    · rcases List.mem_cons.mp hk' with rfl | hk'
      · refine .inr fun d hd => ?_
        rw [← hs.decimals, PoolCtx.decimals_of_get hm] at hd
        cases hd
        exact Fallible.require_ok_iff.mp hok
      · exact .inl hk'
    · exact .inr hdiv

/-- What is there and what is new: a market below three decimals was looked at, or stands
alone. -/
theorem requireWholeUnitIsolation_keeps {aggregated : List HubPayment} :
    Keeps (InHand base spokeId others a) (requireWholeUnitIsolation a aggregated)
      fun _ s => InHand base spokeId others a s ∧
        ∀ k ∈ a.room .supply aggregated, ∀ d, base.pool.decimals k = some d →
          d < minBorrowableAssetDecimals → ∀ k' ∈ a.room .supply aggregated, k' = k := by
  have hroom : a.room .supply aggregated = a.keysOf .supply ∪
      (Context.collectUncachedKeys (aggregated.map Prod.fst) a.supplyPositions).toFinset := room_eq
  have hkeys : (a.keysOf .supply).card = a.supplyPositions.keys.length :=
    List.toFinset_card_of_nodup a.supplyPositions.nodup_keys
  rw [hroom]
  refine .ite (fun hfew => .pure fun s hs => ⟨hs, ?_⟩) fun _ => ?_
  · rcases hfew with hnil | hfew
    · rw [hnil, List.toFinset_nil, Finset.union_empty]
      exact (hs.fits .supply).isolated rfl
    · have hunion := Finset.card_union_le (a.keysOf .supply)
        (Context.collectUncachedKeys (aggregated.map Prod.fst) a.supplyPositions).toFinset
      have hnew := (Context.collectUncachedKeys (aggregated.map Prod.fst)
        a.supplyPositions).toFinset_card_le
      exact fun k hk d _ _ k' hk' => Finset.card_le_one.mp (by omega) k' hk' k hk
  · refine requireDivisible_keeps.post ?_
    rintro _ s ⟨hs, hdiv⟩
    refine ⟨hs, fun k hk d hd hlt => ?_⟩
    have hnew : k ∉ Context.collectUncachedKeys (aggregated.map Prod.fst) a.supplyPositions := by
      intro hmem
      have hle := hdiv k (by split <;> simp [hmem]) d hd
      omega
    have hold : k ∈ a.keysOf .supply := by
      rcases Finset.mem_union.mp hk with hold | hmem
      · exact hold
      · exact absurd (List.mem_toFinset.mp hmem) hnew
    -- A market below three decimals was alone before, and then it was looked at.
    have halone : a.keysOf .supply = {k} :=
      Finset.eq_singleton_iff_unique_mem.mpr ⟨hold, (hs.fits .supply).isolated rfl k hold d hd hlt⟩
    rw [halone, Finset.card_singleton] at hkeys
    have hmem : k ∈ a.supplyPositions.keys := List.mem_toFinset.mp hold
    have hle := hdiv k (by rw [if_pos hkeys.symm]; simp [hmem]) d hd
    omega

end Risk

namespace Positions

/-- **Entry gates.** What passed them fits. -/
theorem validatePositionEntryGates_keeps (h : ControllerHost W) (timestamp : Nat)
    (hbase : base.WellFormed) {side : AccountPositionType}
    {aggregated : List HubPayment} :
    Keeps (InHand base spokeId others a) (validatePositionEntryGates a aggregated side)
      fun _ s => InHand base spokeId others a s ∧
        KeysFit base.pool.decimals side.usageSide (a.room side.usageSide aggregated) := by
  refine .bind (Risk.validateBulkPositionLimits_keeps hbase) fun _ => .fact fun hlimit => ?_
  cases side with
  | deposit =>
    refine .bind Risk.requireWholeUnitIsolation_keeps fun _ => .fact fun hisolated => ?_
    refine (Keeps.reads h timestamp inHand_stable
      (.foldlM (fun _ _ => requireCanSupply_reads) ())).post fun _ s hs => ⟨hs, hlimit, ?_⟩
    exact fun _ => hisolated
  | borrow =>
    refine (Keeps.reads h timestamp inHand_stable
      (.foldlM (fun _ _ => requireCanBorrow_reads) ())).post fun _ s hs => ⟨hs, hlimit, ?_⟩
    exact fun hside => by cases hside

end Positions

/-! ## Batches of the pool -/

section Moved

variable {pool pool' : PoolCtx W} {key : HubAssetKey} {d cash : Int}

theorem PoolCtx.Moved.supply_books (hm : pool.Moved timestamp pool' key d 0 cash) :
    poolBooks pool'.markets = poolBooks pool.markets + atPool .supply key d ∧
      pool'.decimals = pool.decimals := by
  have hbooks := hm.books
  rw [atPool_zero, add_zero] at hbooks
  exact ⟨hbooks, hm.decimals⟩

theorem PoolCtx.Moved.debt_books (hm : pool.Moved timestamp pool' key 0 d cash) :
    poolBooks pool'.markets = poolBooks pool.markets + atPool .borrow key d ∧
      pool'.decimals = pool.decimals := by
  have hbooks := hm.books
  rw [atPool_zero, zero_add] at hbooks
  exact ⟨hbooks, hm.decimals⟩

theorem PoolCtx.Moved.still (hm : pool.Moved timestamp pool' key 0 0 cash) :
    poolBooks pool'.markets = poolBooks pool.markets ∧ pool'.decimals = pool.decimals := by
  have hbooks := hm.supply_books
  rwa [atPool_zero, add_zero] at hbooks

end Moved

/-- The pool may do what moves no total. -/
theorem Balanced.pool_still {start : System W} {ids : List Nat} {rest : Books} {s : Invocation W}
    {pool : PoolCtx W} (hs : Balanced start ids rest s)
    (hstill : poolBooks pool.markets = poolBooks s.pool.markets ∧ pool.decimals = s.pool.decimals) :
    Balanced start ids rest { s with pool } := by
  have hrec : Invocation.recorded { s with pool } = s.recorded ∧
      System.recorded { s.toSystem with pool } = s.toSystem.recorded :=
    ⟨congrArg (· + _) hstill.1, congrArg (· + _) hstill.1⟩
  refine ⟨hs.wellFormed.congr rfl rfl hstill.2, hs.evolves.congr rfl rfl, ?_, ?_⟩
  · exact hrec.1.trans (hs.persisted.trans hrec.2.symm)
  · exact hrec.1.trans hs.books

theorem Supply.leg_posts : PostsBatch (W := W) PoolAction.hubAsset
    (fun action => action.position.scaledAmount) .supply (Supply.leg timestamp) :=
  ⟨fun hleg => (Supply.leg_moved hleg).1.supply_books⟩

theorem Borrow.apply_posts {receiver : Address} : PostsBatch (W := W) PoolAction.hubAsset
    (fun action => action.position.scaledAmount) .borrow
    (Borrow.apply h.toPoolHost timestamp receiver) :=
  ⟨fun hleg => (Borrow.apply_moved hleg).1.debt_books⟩

theorem Repay.apply_posts {payer : Address} : PostsBatch (W := W) PoolAction.hubAsset
    (fun action => action.position.scaledAmount) .borrow
    (Repay.apply h.toPoolHost timestamp payer) :=
  ⟨fun hleg => (Repay.apply_moved hleg).choose_spec.1.debt_books⟩

theorem Withdraw.apply_posts {receiver : Address} {liq : Bool} : PostsBatch (W := W)
    (fun entry : PoolWithdrawEntry => entry.action.hubAsset)
    (fun entry => entry.action.position.scaledAmount) .supply
    (Withdraw.apply h.toPoolHost timestamp receiver liq) :=
  ⟨fun hleg => (Withdraw.apply_moved hleg).choose_spec.1.supply_books⟩

section Batch

variable {E : Type} {market : E → HubAssetKey} {old : E → Int} {side : UsageSide}
  {entries : List E}

/-- The legs of a batch as the books see them. -/
def legsOf (market : E → HubAssetKey) (old : E → Int) (entries : List E)
    (results : List PoolPositionMutation) : List Leg :=
  (entries.zip results).map fun e => ⟨market e.1, old e.1, e.2.position.scaledAmount⟩

/-- The pool ran the batch, and the account does not know yet. -/
structure Batched (base : System W) (spokeId : Nat) (others : Books) (a : Account)
    (side : UsageSide) (market : E → HubAssetKey) (old : E → Int) (entries : List E)
    (results : List PoolPositionMutation) (s : Invocation W) : Prop where
  holding : Holding base spokeId (others + pending side (legsOf market old entries results)) a s
  fits : ∀ side, KeysFit base.pool.decimals side (a.keysOf side)
  nodup : ((entries.zip results).map fun e => market e.1).Nodup

theorem poolBatch_keeps {leg : PoolCtx W → E → Result (PoolCtx W × PoolPositionMutation)}
    (hleg : PostsBatch market old side leg) :
    Keeps (InHand base spokeId others a)
      (poolCall fun pool => Ops.runBatch market true leg [] pool entries)
      (Batched base spokeId others a side market old entries) := by
  refine .poolCall fun s pool results hs hrun => ?_
  obtain ⟨hbooks, hdec, hnodup, -⟩ := Ops.runBatch_books hleg hrun
  exact ⟨hs.toHolding.pool_moved hbooks (fun _ _ _ => pending_some) hdec, hs.fits, hnodup⟩

/-- **Merging a batch.** The account and the rows catch up with the pool. -/
theorem Positions.mergeBatch_keeps {results : List PoolPositionMutation}
    {f : Account → E × PoolPositionMutation → Ctrl W Account} {room : Finset HubAssetKey}
    (hold : ∀ e ∈ entries, old e = a.shares side (market e))
    (hmem : ∀ e ∈ entries, market e ∈ room) (hkeys : a.keysOf side ⊆ room)
    (hroom : KeysFit base.pool.decimals side room)
    (hf : ∀ others b (e : E × PoolPositionMutation), e ∈ entries.zip results →
      Keeps (Holding base b.spokeId (others + atPool side (market e.1)
          (e.2.position.scaledAmount - b.shares side (market e.1))) b) (f b e)
        fun b' s => Holding base b.spokeId others b' s ∧
          b.Becomes side (market e.1) e.2.position.scaledAmount b') :
    Keeps (Batched base a.spokeId others a side market old entries results)
      (forEachLeg entries results f a)
      fun a' s => InHand base a.spokeId others a' s ∧ a.SameBesides side a' := by
  refine .start fun t ht => ?_
  have hmerge := forEachLeg_keeps others
    (fun e : E × PoolPositionMutation => ⟨market e.1, old e.1, e.2.position.scaledAmount⟩) ht.nodup
    (fun e he => hold e.1 (List.of_mem_zip he).1) (fun e he => hmem e.1 (List.of_mem_zip he).1)
    hkeys hf
  refine (hmerge.pre ?_).post fun a' s hs => ⟨⟨hs.1, hs.2.2.fits ht.fits hroom hs.2.1⟩, hs.2.2⟩
  rintro s rfl
  exact ht.holding

end Batch

/-! ## Outside calls -/

namespace Payments

theorem transferAmountMeasured_outward {asset sender recipient : Address} {amount : Int}
    {e : Error} : OutwardOnly (transferAmountMeasured h asset sender recipient amount e) :=
  outside_outward

theorem transfer_outward {asset sender recipient : Address} {amount : Int} :
    OutwardOnly (transfer h asset sender recipient amount) :=
  outside_outward

theorem balanceDeltaSince_outward {asset holder : Address} {before : Int} :
    OutwardOnly (balanceDeltaSince h asset holder before) :=
  .bind world_outward fun _ => .lift

theorem snapshotBalances_outward {holder : Address} {assets : List Address} :
    OutwardOnly (snapshotBalances h holder assets) :=
  .bind world_outward fun _ => .pure

theorem refundControllerBalanceDelta_outward {asset refundTo : Address} {before : Int} :
    OutwardOnly (refundControllerBalanceDelta h asset before refundTo) :=
  .bind balanceDeltaSince_outward fun _ => .ite transfer_outward .pure

end Payments

/-! ## Withdrawals and repayments -/

namespace Positions

theorem applyWithdrawBatch_keeps {recipient : Address} {kind : WithdrawKind}
    {entries : List PoolWithdrawEntry}
    (hold : ∀ e ∈ entries, a.Holds .supply e.action.hubAsset e.action.position.scaledAmount) :
    Keeps (InHand base spokeId others a)
      (applyWithdrawBatch h timestamp a recipient kind entries)
      fun r s => InHand base spokeId others r.1 s ∧ a.SameBesides .supply r.1 := by
  refine .knowing (fun s hs => And.intro hs.spoke (hs.fits .supply)) ?_
  rintro ⟨rfl, hfit⟩
  exact .bind (poolBatch_keeps Withdraw.apply_posts) fun results =>
    .bind (mergeBatch_keeps (fun e he => (hold e he).2) (fun e he => (hold e he).1)
      (Finset.Subset.refl _) hfit fun _ _ e _ => mergeWithdrawLeg_keeps (.ofMutation e.2)) fun account =>
    .pure fun s hs => hs

theorem applyRepayBatch_keeps {payer : Address} {actions : List PoolAction}
    (hold : ∀ e ∈ actions, a.Holds .borrow e.hubAsset e.position.scaledAmount) :
    Keeps (InHand base spokeId others a) (applyRepayBatch h timestamp a payer actions)
      fun r s => InHand base spokeId others r.1 s ∧ a.SameBesides .borrow r.1 := by
  refine .knowing (fun s hs => And.intro hs.spoke (hs.fits .borrow)) ?_
  rintro ⟨rfl, hfit⟩
  exact .bind (poolBatch_keeps Repay.apply_posts) fun results =>
    .bind (mergeBatch_keeps (fun e he => (hold e he).2) (fun e he => (hold e he).1)
      (Finset.Subset.refl _) hfit fun _ _ e _ => mergeDebtLeg_keeps (.ofMutation e.2)) fun account =>
    .pure fun s hs => hs

theorem withdrawEntry_keeps (h : ControllerHost W) {entries : List PoolWithdrawEntry}
    {payment : HubPayment}
    (hold : ∀ e ∈ entries, a.Holds .supply e.action.hubAsset e.action.position.scaledAmount) :
    Keeps (InHand base spokeId others a) (withdrawEntry a entries payment)
      fun entries s => InHand base spokeId others a s ∧
        ∀ e ∈ entries, a.Holds .supply e.action.hubAsset e.action.position.scaledAmount := by
  refine .read h 0 inHand_stable enforceSpokeAssetFlags_reads fun _ =>
    .unwrap fun position hget => .pure fun s hs => ⟨hs, fun e he => ?_⟩
  rcases List.mem_append.mp he with he | he
  · exact hold e he
  · rw [List.mem_singleton.mp he]
    exact a.holds_supply hget

theorem settleWithdraw_keeps {recipient : Address} {aggregated : List HubPayment} :
    Keeps (InHand base spokeId others a)
      (settleWithdraw h timestamp a recipient aggregated)
      fun r s => InHand base spokeId others r.1 s ∧ a.SameBesides .supply r.1 := by
  refine .bind (Q := fun entries s => InHand base spokeId others a s ∧ ∀ e ∈ entries,
    a.Holds .supply e.action.hubAsset e.action.position.scaledAmount) ?_ fun entries =>
    .fact fun hold => .bind (applyWithdrawBatch_keeps hold) fun _ => .pure fun s hs => hs
  have hloop := Keeps.foldlM (l := aggregated) (f := withdrawEntry (W := W) a)
    (P := fun entries _ s => InHand base spokeId others a s ∧ ∀ e ∈ entries,
      a.Holds .supply e.action.hubAsset e.action.position.scaledAmount)
    (fun _ _ _ _ => .fact fun hold => withdrawEntry_keeps h hold) []
  exact hloop.pre fun s hs => ⟨hs, fun e he => by cases he⟩

theorem executeWithdrawal_keeps {recipient : Address} {market : HubAssetKey} {amount : Int}
    {position : AccountPosition} (hget : a.supplyPositions.get? market = some position) :
    Keeps (InHand base spokeId others a)
      (executeWithdrawal h timestamp a recipient market amount position)
      fun r s => InHand base spokeId others r.1 s ∧ a.SameBesides .supply r.1 := by
  refine .read h timestamp inHand_stable enforceSpokeAssetFlags_reads fun _ =>
    .bind (applyWithdrawBatch_keeps fun e he => ?_) fun _ => .result fun _ _ =>
    .pure fun s hs => hs
  rw [List.mem_singleton.mp he]
  exact a.holds_supply hget

theorem pullRepayment_keeps {payer : Address} {actions : List PoolAction} {payment : HubPayment}
    (hold : ∀ e ∈ actions, a.Holds .borrow e.hubAsset e.position.scaledAmount) :
    Keeps (InHand base spokeId others a) (pullRepayment h a payer actions payment)
      fun actions s => InHand base spokeId others a s ∧
        ∀ e ∈ actions, a.Holds .borrow e.hubAsset e.position.scaledAmount := by
  refine .read h 0 inHand_stable enforceSpokeAssetFlags_reads fun _ =>
    .unwrap fun position hget => .skip inHand_stable Payments.transferAmountMeasured_outward.quiet fun _ =>
    .pure fun s hs => ⟨hs, fun e he => ?_⟩
  rcases List.mem_append.mp he with he | he
  · exact hold e he
  · rw [List.mem_singleton.mp he]
    exact a.holds_debt hget

theorem settleRepay_keeps {payer : Address} {aggregated : List HubPayment} :
    Keeps (InHand base spokeId others a) (settleRepay h timestamp a payer aggregated)
      fun a' s => InHand base spokeId others a' s ∧ a.SameBesides .borrow a' := by
  refine .bind (Q := fun actions s => InHand base spokeId others a s ∧ ∀ e ∈ actions,
    a.Holds .borrow e.hubAsset e.position.scaledAmount) ?_ fun actions =>
    .fact fun hold => .bind (applyRepayBatch_keeps hold) fun _ => .pure fun s hs => hs
  have hloop := Keeps.foldlM (l := aggregated) (f := pullRepayment h a payer)
    (P := fun actions _ s => InHand base spokeId others a s ∧ ∀ e ∈ actions,
      a.Holds .borrow e.hubAsset e.position.scaledAmount)
    (fun _ _ _ _ => .fact fun hold => pullRepayment_keeps hold) []
  exact hloop.pre fun s hs => ⟨hs, fun e he => by cases he⟩

theorem repayPrefundedPosition_keeps {refundTo : Address} {market : HubAssetKey} {amount : Int}
    {position : DebtPosition} (hold : a.Holds .borrow market position.scaledAmount) :
    Keeps (InHand base spokeId others a)
      (repayPrefundedPosition h timestamp a refundTo market position amount)
      fun r s => InHand base spokeId others r.1 s ∧ a.SameBesides .borrow r.1 := by
  refine .read h timestamp inHand_stable enforceSpokeAssetFlags_reads fun _ =>
    .bind (applyRepayBatch_keeps fun e he => ?_) fun _ => .result fun _ _ =>
    .pure fun s hs => hs
  rw [List.mem_singleton.mp he]
  exact hold

end Positions

/-! ## Borrowing -/

/-- One leg, merged: markets on its side stay within `room`. -/
theorem Holding.become {side : UsageSide} {market : HubAssetKey} {scaled : Int} {a' : Account}
    {room : Finset HubAssetKey} {s : Invocation W} (hs : Holding base spokeId others a' s)
    (hb : a.Becomes side market scaled a') (hfits : ∀ side, KeysFit base.pool.decimals side (a.keysOf side))
    (hroom : KeysFit base.pool.decimals side room) (hkeys : a.keysOf side ⊆ room)
    (hmarket : market ∈ room) : InHand base spokeId others a' s := by
  refine ⟨hs, hb.besides.fits hfits hroom fun k hk => ?_⟩
  rcases hb.keys side k hk with hk | ⟨-, rfl⟩
  · exact hkeys hk
  · exact hmarket

namespace Positions

theorem settleBorrow_keeps {recipient : Address} {aggregated : List HubPayment}
    (hroom : KeysFit base.pool.decimals .borrow (a.room .borrow aggregated)) :
    Keeps (InHand base spokeId others a) (settleBorrow h timestamp a recipient aggregated)
      fun a' s => InHand base spokeId others a' s ∧ a.SameBesides .borrow a' := by
  refine .knowing (fun s hs => hs.spoke) ?_
  rintro rfl
  refine .bind (poolBatch_keeps Borrow.apply_posts) fun results =>
    mergeBatch_keeps ?_ ?_ Finset.subset_union_left hroom
      fun _ _ e _ => mergeDebtLeg_keeps (.ofMutation e.2)
  · rintro entry hentry
    obtain ⟨e, -, rfl⟩ := List.mem_map.mp hentry
    exact Account.scaled_getOrCreateDebtPosition
  · rintro entry hentry
    obtain ⟨e, he, rfl⟩ := List.mem_map.mp hentry
    exact Finset.mem_union_right _ (mem_marketsOf he)

theorem borrowIntoController_keeps (hbase : base.WellFormed) {market : HubAssetKey} {amount : Int}
    {chargeFee : Bool} :
    Keeps (InHand base spokeId others a)
      (borrowIntoController h timestamp a market amount chargeFee)
      fun r s => InHand base spokeId others r.1 s ∧ ∃ scaled, a.Becomes .borrow market scaled r.1 := by
  refine .result fun _ _ => .bind (validatePositionEntryGates_keeps h timestamp hbase) fun _ =>
    .fact fun hroom => .skip inHand_stable world_outward.quiet fun w => ?_
  refine .knowing (fun s hs => And.intro hs.spoke hs.fits) ?_
  rintro ⟨rfl, hfits⟩
  have hstable : ∀ r : PoolStrategyMutation, Stable (Holding base a.spokeId (others +
      atPool .borrow market (r.position.scaledAmount - a.shares .borrow market)) a) :=
    fun _ => holding_stable
  refine .bind (withFlashGuard_keeps inHand_stable hstable (.poolCall ?_)) fun r =>
    .skip (hstable r) Payments.balanceDeltaSince_outward.quiet fun measured => .assert fun _ =>
    .assert fun _ => .bind (mergeDebtLeg_keeps (.ofMutation r.toPositionMutation)) fun a' =>
    .pure fun s hs => ⟨hs.1.become hs.2 hfits hroom Finset.subset_union_left
      (Finset.mem_union_right _ (mem_marketsOf (List.mem_singleton.mpr rfl))), _, hs.2⟩
  intro s pool r hs hrun
  obtain ⟨hbooks, hdec⟩ := (Strategy.apply_moved hrun).1.debt_books
  rw [← Account.scaled_getOrCreateDebtPosition]
  exact hs.toHolding.pool_moved hbooks (fun _ _ _ => atPool_some) hdec

/-! ## Deposits -/

theorem pullDeposit_keeps {caller : Address} {entries : List PoolAction} {payment : HubPayment}
    {room : Finset HubAssetKey} (hpayment : payment.1 ∈ room)
    (hold : ∀ e ∈ entries, e.position.scaledAmount = a.shares .supply e.hubAsset ∧
      e.hubAsset ∈ room) :
    Keeps (InHand base spokeId others a) (pullDeposit h caller a entries payment)
      fun entries s => InHand base spokeId others a s ∧
        ∀ e ∈ entries, e.position.scaledAmount = a.shares .supply e.hubAsset ∧
          e.hubAsset ∈ room := by
  refine .read h 0 inHand_stable Context.requireSpokeAsset_reads fun config =>
    .skip inHand_stable Payments.transferAmountMeasured_outward.quiet fun received =>
    .pure fun s hs => ⟨hs, fun e he => ?_⟩
  rcases List.mem_append.mp he with he | he
  · exact hold e he
  · rw [List.mem_singleton.mp he]
    exact ⟨Account.scaled_getOrCreateSupplyPosition, hpayment⟩

theorem processDeposit_keeps (hbase : base.WellFormed) {caller : Address}
    {aggregated : List HubPayment} :
    Keeps (InHand base spokeId others a) (processDeposit h timestamp caller a aggregated)
      fun a' s => InHand base spokeId others a' s ∧ a.SameBesides .supply a' := by
  refine .bind (validatePositionEntryGates_keeps h timestamp hbase) fun _ => .fact fun hroom =>
    .read h timestamp inHand_stable Context.fetchPrices_reads fun _ => ?_
  refine .bind (Q := fun entries s => InHand base spokeId others a s ∧ ∀ e ∈ entries,
    e.position.scaledAmount = a.shares .supply e.hubAsset ∧
      e.hubAsset ∈ a.room .supply aggregated) ?_ fun entries => .fact fun hold => ?_
  · have hloop := Keeps.foldlM (l := aggregated) (f := pullDeposit h caller a)
      (P := fun entries _ s => InHand base spokeId others a s ∧ ∀ e ∈ entries,
        e.position.scaledAmount = a.shares .supply e.hubAsset ∧
          e.hubAsset ∈ a.room .supply aggregated)
      (fun _ e _ he => .fact fun hold => pullDeposit_keeps
        (Finset.mem_union_right _ (mem_marketsOf he)) hold) []
    exact hloop.pre fun s hs => ⟨hs, fun e he => by cases he⟩
  · refine .knowing (fun s hs => hs.spoke) ?_
    rintro rfl
    exact .bind (poolBatch_keeps Supply.leg_posts) fun results =>
      mergeBatch_keeps (fun e he => (hold e he).1) (fun e he => (hold e he).2)
        Finset.subset_union_left hroom fun _ _ _ _ => mergeSupplyLeg_keeps

/-! ## Solvency -/

/-- Writing other parameters under a position leaves the books alone. -/
theorem InHand.restamp {market : HubAssetKey} {p q : AccountPosition} {s : Invocation W}
    (hs : InHand base spokeId others a s) (hget : a.supplyPositions.get? market = some p)
    (hq : q.scaledAmount = p.scaledAmount) :
    InHand base spokeId others (a.updateOrRemoveSupplyPosition market q) s := by
  have hb := a.updateOrRemoveSupplyPosition_becomes market q
  have hsame : q.scaledAmount = a.shares .supply market := hq.trans (a.shares_of_supply hget).symm
  refine Holding.become ⟨hs.store, hs.nft, hs.decimals, hb.spokeId.trans hs.spoke,
    hb.positive ?_ hs.positive, hs.rows, ?_⟩ hb hs.fits (hs.fits .supply)
    (Finset.Subset.refl _) (a.holds_supply hget).1
  · rw [hq]
    exact (hs.positive.supply hget).le
  · rw [hs.books, hb.books, hsame, sub_self, posting_zero, add_zero]

theorem restampListedSupplyLtvOf_keeps {keys : List HubAssetKey} {acc : Account × Bool}
    {market : HubAssetKey} (h : ControllerHost W) :
    Keeps (fun s => InHand base spokeId others acc.1 s ∧
        acc.1.borrowPositions = a.borrowPositions ∧ (acc.2 = false → acc.1 = a))
      (Risk.restampListedSupplyLtvOf timestamp keys acc market)
      fun acc s => InHand base spokeId others acc.1 s ∧
        acc.1.borrowPositions = a.borrowPositions ∧ (acc.2 = false → acc.1 = a) := by
  refine .fact fun hacc => .read h timestamp inHand_stable Context.cachedSpokeAsset_reads
    fun config => ?_
  cases config with
  | none => exact .pure fun s hs => ⟨hs, hacc⟩
  | some config =>
    dsimp only
    split
    · exact .pure fun s hs => ⟨hs, hacc⟩
    · rename_i position hget
      refine .ite (fun _ => .pure fun s hs => ⟨hs, hacc⟩) fun _ =>
        .read h timestamp inHand_stable Context.fetchMarketIndexes_reads fun _ =>
        .read h timestamp inHand_stable Context.cachedMarketIndex_reads fun _ =>
        .pure fun s hs => ⟨InHand.restamp hs hget rfl, ?_, fun hfalse => by cases hfalse⟩
      rw [Account.updateOrRemoveSupplyPosition_eq]
      exact hacc.1

/-- The account that passed the gates has the same books, and is the same unless something was
restamped. -/
theorem enforcePostPoolSolvency_keeps :
    Keeps (InHand base spokeId others a) (enforcePostPoolSolvency h timestamp a)
      fun r s => InHand base spokeId others r.1 s ∧
        r.1.borrowPositions = a.borrowPositions ∧ (r.2 = false → r.1 = a) := by
  have hloop := Keeps.foldlM (l := a.supplyPositions.keys)
    (f := Risk.restampListedSupplyLtvOf (W := W) timestamp a.supplyPositions.keys)
    (P := fun acc _ s => InHand base spokeId others acc.1 s ∧
      acc.1.borrowPositions = a.borrowPositions ∧ (acc.2 = false → acc.1 = a))
    (fun _ _ _ _ => restampListedSupplyLtvOf_keeps h) (a, false)
  refine .bind (hloop.pre fun s hs => ⟨hs, rfl, fun _ => rfl⟩) fun r => .fact fun hr =>
    .read h timestamp inHand_stable Risk.requirePostPoolRiskGates_reads fun _ =>
    .pure fun s hs => ⟨hs, hr⟩

end Positions

/-! ## Whole flows -/

/-- A flow on an account that was loaded. -/
theorem Keeps.opened {α : Type} {start : System W} {ids : List Nat} {rest : Books} {id : Nat}
    {x : Ctrl W α} {Q : α → Invocation W → Prop} (hid : id ∉ ids)
    (hrest : ∀ spokeId side market, 0 ≤ rest ⟨some spokeId, side, market⟩)
    (hx : ∀ t : Invocation W, Opened start t.toSystem ids id a.spokeId → Loaded id a t →
      Keeps (InHand t.toSystem a.spokeId (t.store.booksBesides (id :: ids) + rest) a) x Q) :
    Keeps (fun s => Balanced start ids rest s ∧ Loaded id a s) x Q := by
  refine .start fun t ht => (hx t (ht.1.opened ht.2 hid) ht.2).pre ?_
  rintro s rfl
  exact ht.1.inHand ht.2 hid hrest

/-- The usual case: no other account is in hand. -/
theorem Keeps.openedAlone {α : Type} {start : System W} {id : Nat} {x : Ctrl W α}
    {Q : α → Invocation W → Prop}
    (hx : ∀ t : Invocation W, Opened start t.toSystem [] id a.spokeId → Loaded id a t →
      Keeps (InHand t.toSystem a.spokeId (t.store.booksBesides [id] + 0) a) x Q) :
    Keeps (fun s => Balanced start [] 0 s ∧ Loaded id a s) x Q :=
  .opened List.not_mem_nil (fun _ _ _ => le_rfl) hx

namespace Positions

/-- An account in hand is written back. -/
theorem writeBack_keeps {start : System W} {ids : List Nat} {rest : Books} {id : Nat}
    {sides : PositionSides} {removeIfEmpty : Bool} (ho : Opened start base ids id spokeId)
    (hsave : base.store.Saves id sides a a) :
    Keeps (InHand base spokeId (base.store.booksBesides (id :: ids) + rest) a)
      (finalizePositionFlow h id a sides removeIfEmpty)
      fun _ s => Balanced start ids rest s ∧ (removeIfEmpty = false → Loaded id a s) := by
  refine .knowing (fun s hs => And.intro hs.spoke hs.sound) ?_
  rintro ⟨rfl, hsound⟩
  exact (finalizePositionFlow_keeps ho hsound hsave rfl fun _ => ⟨rfl, rfl⟩).pre fun s hs => hs.toHolding

section Saves

variable {start : System W} {ids : List Nat} {id : Nat} {t : Invocation W} {a' : Account}

theorem saves_supply (ha : Loaded id a t) (hb : a.SameBesides .supply a') :
    t.store.Saves id .supply a' a' := by
  have hdebt : a'.borrowPositions = a.borrowPositions := hb
  exact ⟨rfl, hdebt.trans ha.debt.symm⟩

theorem saves_debt (ha : Loaded id a t) (hb : a.SameBesides .borrow a') :
    t.store.Saves id .debt a' a' := by
  have hsupply : a'.supplyPositions = a.supplyPositions := hb
  exact ⟨hsupply.trans ha.supply.symm, rfl⟩

theorem saves_both {s : ControllerStore} : s.Saves id .both a a := ⟨rfl, rfl⟩

end Saves

theorem processSupply_keeps {start : System W} {caller : Address} {accountId spokeId : Nat}
    {assets : List HubPayment} :
    Keeps (Balanced start [] 0) (processSupply h timestamp caller accountId spokeId assets)
      fun _ => Balanced start [] 0 := by
  refine .read h timestamp balanced_stable Risk.requireNotFlashLoaning_reads fun _ =>
    .result fun aggregated _ => .bind Account.loadOrCreateAccount_keeps fun r => ?_
  refine .read h timestamp (balanced_stable.and loaded_stable)
    requireThirdPartyExistingSupply_reads fun _ => .openedAlone fun t ho ha => ?_
  refine .bind (processDeposit_keeps ho.wellFormed) fun a' => .fact fun hb => ?_
  exact .bind (writeBack_keeps ho (saves_supply ha hb)) fun _ => .pure fun s hs => hs.1

theorem processWithdraw_keeps {start : System W} {caller : Address} {accountId : Nat}
    {withdrawals : List HubPayment} {recipient : Option Address} :
    Keeps (Balanced start [] 0)
      (processWithdraw h timestamp caller accountId withdrawals recipient)
      fun _ => Balanced start [] 0 := by
  refine .read h timestamp balanced_stable Risk.requireNotFlashLoaning_reads fun _ =>
    .bind (Storage.getAccount_keeps balanced_stable) fun a =>
    .read h timestamp (balanced_stable.and loaded_stable) Account.requireOwnerOrDelegate_reads
      fun _ => .assert fun _ => .result fun aggregated _ => .openedAlone fun t ho ha => ?_
  refine .bind settleWithdraw_keeps fun r => .fact fun hb =>
    .bind enforcePostPoolSolvency_keeps fun r' => .fact fun hr => ?_
  have hb' : a.SameBesides .supply r'.1 := hr.1.trans hb
  exact .bind (writeBack_keeps ho (saves_supply ha hb')) fun _ => .pure fun s hs => hs.1

theorem processBorrow_keeps {start : System W} {caller : Address} {accountId : Nat}
    {borrows : List HubPayment} {recipient : Option Address} :
    Keeps (Balanced start [] 0) (processBorrow h timestamp caller accountId borrows recipient)
      fun _ => Balanced start [] 0 := by
  refine .read h timestamp balanced_stable Risk.requireNotFlashLoaning_reads fun _ =>
    .bind (Storage.getAccount_keeps balanced_stable) fun a =>
    .read h timestamp (balanced_stable.and loaded_stable) Account.requireOwnerOrDelegate_reads
      fun _ => .assert fun _ => .result fun aggregated _ => .openedAlone fun t ho ha => ?_
  refine .bind (validatePositionEntryGates_keeps h timestamp ho.wellFormed) fun _ =>
    .fact fun hroom => .bind (settleBorrow_keeps hroom) fun a' => .fact fun hb =>
    .bind enforcePostPoolSolvency_keeps fun r => .fact fun hr => ?_
  refine (writeBack_keeps ho ?_).post fun _ s hs => hs.1
  cases hrestamped : r.2 with
  | true => exact saves_both
  | false =>
    rw [hr.2 hrestamped]
    exact saves_debt ha hb

/-! ## Repayment -/

/-- The account with its supply left unread. -/
def withoutSupply (a : Account) : Account := { a with supplyPositions := .empty }

/-- The shares of the supply that is left unread. -/
def unreadBooks (a : Account) : Books :=
  sideBooks AccountPosition.scaledAmount a.spokeId .supply a.supplyPositions

/-- Supply that is not in hand counts among the others. -/
theorem inHand_withoutSupply {s : Invocation W} (hs : InHand base spokeId others a s) :
    InHand base spokeId (others + unreadBooks a) (withoutSupply a) s := by
  refine ⟨⟨hs.store, hs.nft, hs.decimals, hs.spoke, ⟨nofun, hs.positive.debt⟩,
    fun id side market => ?_, ?_⟩, fun side => ?_⟩
  · have hunread : 0 ≤ unreadBooks a ⟨some id, side, market⟩ := sideBooks_nonneg hs.positive.supply _
    have hrow := hs.rows id side market
    rw [Pi.add_apply]
    omega
  · have hbooks : (withoutSupply a).books =
        sideBooks DebtPosition.scaledAmount a.spokeId .borrow a.borrowPositions := zero_add _
    rw [hs.books, hbooks, Account.books, positionBooks, unreadBooks]
    abel
  · cases side with
    | supply => exact ⟨Nat.zero_le _, fun _ k hk => by cases hk⟩
    | borrow => exact hs.fits .borrow

/-- Putting the unread supply back: the debt is the new one. -/
theorem sound_withSupply {decimals : HubAssetKey → Option Nat} {a' : Account}
    (ha : a.Sound decimals) (ha' : a'.Sound decimals) :
    Account.Sound decimals { a' with supplyPositions := a.supplyPositions } := by
  refine ⟨⟨ha.positive.supply, ha'.positive.debt⟩, fun side => ?_⟩
  cases side with
  | supply => exact ha.fits .supply
  | borrow => exact ha'.fits .borrow

theorem getAccountMeta_keeps {P : Invocation W → Prop} {id : Nat} :
    Keeps P (Storage.getAccountMeta id)
      fun m s => P s ∧ s.store.metas.get? id = some m := by
  refine .store fun st => Triple.lift.post ?_
  rintro m s - ⟨⟨hs, rfl⟩, hm⟩
  exact ⟨hs, Fallible.orThrow_ok_iff.mp hm⟩

theorem getAccountBorrowOnly_keeps {P : Invocation W → Prop} (hP : Stable P) {id : Nat} :
    Keeps P (Storage.getAccountBorrowOnly h id)
      fun r s => ∃ a, (P s ∧ Loaded id a s) ∧ r = withoutSupply a := by
  refine .bind getAccountMeta_keeps fun m => ?_
  have hstable : Stable fun s : Invocation W => P s ∧ s.store.metas.get? id = some m :=
    hP.and fun s s' hq hm => by rw [hq.store]; exact hm
  refine .read h 0 hstable Storage.accountOwner_reads fun owner => .store fun st => .pure ?_
  rintro s ⟨⟨hs, hm⟩, rfl⟩
  exact ⟨s.store.account id owner m, ⟨hs, ⟨⟨m, hm, rfl⟩, rfl, rfl⟩⟩, rfl⟩

theorem processRepay_keeps {start : System W} {caller : Address} {accountId : Nat}
    {payments : List HubPayment} :
    Keeps (Balanced start [] 0) (processRepay h timestamp caller accountId payments)
      fun _ => Balanced start [] 0 := by
  refine .read h timestamp balanced_stable Risk.requireNotFlashLoaning_reads fun _ =>
    .result fun aggregated _ => .bind (getAccountBorrowOnly_keeps balanced_stable) fun r => ?_
  refine .start fun t ht => ?_
  obtain ⟨a, ⟨hbal, ha⟩, rfl⟩ := ht
  have ho := hbal.opened ha List.not_mem_nil
  have hin := hbal.inHand ha List.not_mem_nil fun _ _ _ => le_rfl
  have hunread : ∀ s, s = t → InHand t.toSystem a.spokeId
      (t.store.booksBesides [accountId] + 0 + unreadBooks a) (withoutSupply a) s := by
    rintro s rfl
    exact inHand_withoutSupply hin
  refine .bind (settleRepay_keeps.pre hunread) fun a' => .fact fun hb => ?_
  refine .knowing (fun s hs => And.intro hs.spoke hs.sound) ?_
  rintro ⟨hspoke, hsound⟩
  have hempty : a'.supplyPositions = .empty := hb
  have hsave : t.store.Saves accountId .debt a' { a' with supplyPositions := a.supplyPositions } :=
    ⟨ha.supply.symm, rfl⟩
  have hbooks : t.store.booksBesides [accountId] + 0 + unreadBooks a + a'.books =
      t.store.booksBesides [accountId] + 0 +
        Account.books { a' with supplyPositions := a.supplyPositions } := by
    have hzero : sideBooks AccountPosition.scaledAmount a.spokeId .supply
        (.empty : SortedMap HubAssetKey AccountPosition) = 0 := rfl
    rw [Account.books, Account.books, positionBooks, positionBooks, hempty, unreadBooks, hspoke,
      hzero]
    abel
  exact Keeps.post (Keeps.pre (finalizePositionFlow_keeps (hspoke.symm ▸ ho)
    (sound_withSupply hin.sound hsound) hsave hbooks fun h => by cases h) fun s hs => hs.toHolding)
    fun _ s hs => hs.1

end Positions

/-! ## Thresholds -/

/-- Other parameters under the same shares. -/
structure Account.Restamped (a a' : Account) : Prop where
  spokeId : a'.spokeId = a.spokeId
  borrow : a'.borrowPositions = a.borrowPositions
  books : a'.books = a.books
  positive : a.Positive → a'.Positive
  keys : a'.keysOf .supply ⊆ a.keysOf .supply

namespace Account.Restamped

theorem refl : a.Restamped a := ⟨rfl, rfl, rfl, id, Finset.Subset.refl _⟩

/-- One more position written under its own shares. -/
theorem write {a' : Account} (hr : a.Restamped a') (ha : a.Positive) {market : HubAssetKey}
    {p q : AccountPosition} (hget : a'.supplyPositions.get? market = some p)
    (hq : q.scaledAmount = p.scaledAmount) :
    a.Restamped (a'.updateOrRemoveSupplyPosition market q) := by
  have hb := a'.updateOrRemoveSupplyPosition_becomes market q
  have hsame : q.scaledAmount = a'.shares .supply market :=
    hq.trans (a'.shares_of_supply hget).symm
  have hbesides : (a'.updateOrRemoveSupplyPosition market q).borrowPositions = a'.borrowPositions :=
    hb.besides
  refine ⟨hb.spokeId.trans hr.spokeId, hbesides.trans hr.borrow, ?_, fun ha' => ?_, fun k hk => ?_⟩
  · rw [hb.books, hsame, sub_self, posting_zero, add_zero, hr.books]
  · refine hb.positive ?_ (hr.positive ha')
    rw [hq]
    exact ((hr.positive ha).supply hget).le
  · rcases hb.keys .supply k hk with hk | ⟨-, rfl⟩
    · exact hr.keys hk
    · exact hr.keys (a'.holds_supply hget).1

/-- With the stored debt put back, the account has the stored shares. -/
theorem withDebt {a' : Account} {debt : SortedMap HubAssetKey DebtPosition}
    (hr : Account.Restamped { a with borrowPositions := debt } a') :
    Account.books { a' with borrowPositions := a.borrowPositions } = a.books := by
  have hbooks := hr.books
  rw [Account.books, Account.books, positionBooks, positionBooks, hr.borrow, hr.spokeId] at hbooks
  rw [Account.books, Account.books, positionBooks, positionBooks, hr.spokeId]
  exact congrArg (· + _) (add_right_cancel hbooks)

theorem sound {a' : Account} {debt : SortedMap HubAssetKey DebtPosition}
    {decimals : HubAssetKey → Option Nat} (ha : a.Sound decimals)
    (hdebt : Account.Positive { a with borrowPositions := debt })
    (hr : Account.Restamped { a with borrowPositions := debt } a') :
    Account.Sound decimals { a' with borrowPositions := a.borrowPositions } := by
  refine ⟨⟨(hr.positive hdebt).supply, ha.positive.debt⟩, fun side => ?_⟩
  cases side with
  | supply => exact (ha.fits .supply).mono hr.keys
  | borrow => exact ha.fits .borrow

end Account.Restamped

/-- An account that is the stored one may be written again. -/
theorem Balanced.settling {start : System W} {ids : List Nat} {rest : Books} {s : Invocation W}
    {id : Nat} (hs : Balanced start ids rest s) (ha : Loaded id a s) (hid : id ∉ ids) :
    Settling s.toSystem a.spokeId (s.store.booksBesides (id :: ids) + rest) a s := by
  obtain ⟨m, hm, hspoke⟩ := ha.bound
  refine ⟨⟨s.store.spokeUsage, rfl⟩, rfl, rfl, rfl, (hs.sound ha).positive, hs.persisted, ?_⟩
  rw [hs.books, ControllerStore.booksBesides_take hm hid, ha.supply, ha.debt, hspoke,
    ← Account.books]
  abel

namespace Risk

theorem syncThresholdOf_keeps {P : Invocation W → Prop} (hP : Stable P) {scope : RiskRefreshScope}
    {acc : Account × Bool} {market : HubAssetKey} (ha : a.Positive) :
    Keeps (fun s => P s ∧ a.Restamped acc.1) (syncThresholdOf h timestamp scope acc market)
      fun acc s => P s ∧ a.Restamped acc.1 := by
  refine .fact fun hr => .read h timestamp hP Context.cachedSpokeAsset_reads fun config => ?_
  cases config with
  | none => exact .pure fun s hs => ⟨hs, hr⟩
  | some config =>
    refine .unwrap fun position hget => .bind (refreshSupplyRiskParams_keeps hP) fun updated =>
      .fact fun hscaled => .ite (fun _ => .pure fun s hs => ⟨hs, hr⟩) fun _ =>
      .read h timestamp hP Context.cachedMarketIndex_reads fun _ =>
      .pure fun s hs => ⟨hs, hr.write ha hget hscaled⟩

/-- Writing restamped supply under the account it was read from. -/
theorem restamped_balanced {start : System W} {id : Nat} {owner : Address} {m : AccountMeta}
    {s : Invocation W} {a' : Account} {debt : SortedMap HubAssetKey DebtPosition}
    (hs : Balanced start [] 0 s) (hm : s.store.metas.get? id = some m)
    (hdebt : Account.Positive { s.store.account id owner m with borrowPositions := debt })
    (hr : Account.Restamped { s.store.account id owner m with borrowPositions := debt } a') :
    Balanced start [] 0 { s with store := s.store.setSupplyPositions id a'.supplyPositions } := by
  have ha : Loaded id (s.store.account id owner m) s := ⟨⟨m, hm, rfl⟩, rfl, rfl⟩
  have hw : s.store.Writes id { a' with borrowPositions := s.store.getDebtPositions id }
      (s.store.setSupplyPositions id a'.supplyPositions) := ControllerStore.writes_supply rfl
  have ho := hs.opened ha List.not_mem_nil
  have hspoke : a'.spokeId = (s.store.account id owner m).spokeId := hr.spokeId
  refine ((hs.settling ha List.not_mem_nil).close (hspoke ▸ ho)
    (hr.sound (hs.sound ha) hdebt) hw ?_).1
  rw [hr.withDebt]

/-- Restamping writes the account's own shares back. -/
theorem syncAccountThresholds_keeps {start : System W} {id : Nat} {scope : RiskRefreshScope} :
    Keeps (Balanced start [] 0) (syncAccountThresholds h timestamp id scope)
      fun _ => Balanced start [] 0 := by
  refine .store fun st => ?_
  have hstable : Stable fun s : Invocation W => Balanced start [] 0 s ∧ s.store = st :=
    balanced_stable.and fun s s' hq hs => hq.store.trans hs
  cases hm : st.metas.get? id with
  | none => exact .pure fun s hs => hs.1
  | some m =>
    refine .ite (fun _ => .pure fun s hs => hs.1) fun _ =>
      .read h timestamp hstable Storage.tryAccountOwner_reads fun owner => ?_
    cases owner with
    | none => exact .pure fun s hs => hs.1
    | some owner =>
      -- The debt is read in one of the modes only; either way it is positive.
      have hdebt : ∀ s : Invocation W, Balanced start [] 0 s ∧ s.store = st →
          Account.Positive { st.account id owner m with borrowPositions :=
            if scope = .fullTuple then st.getDebtPositions id else .empty } := by
        rintro s ⟨hs, rfl⟩
        have hpos := (hs.wellFormed.sound id owner m).positive
        refine ⟨hpos.supply, ?_⟩
        split
        · exact hpos.debt
        · exact nofun
      refine .knowing hdebt fun hdebt => ?_
      have hloop := Keeps.foldlM (l := (st.getSupplyPositions id).keys)
        (f := syncThresholdOf h timestamp scope)
        (P := fun acc _ s => (Balanced start [] 0 s ∧ s.store = st) ∧
          Account.Restamped { st.account id owner m with borrowPositions :=
            if scope = .fullTuple then st.getDebtPositions id else .empty } acc.1)
        (fun _ _ _ _ => syncThresholdOf_keeps hstable hdebt)
        ({ st.account id owner m with borrowPositions :=
            if scope = .fullTuple then st.getDebtPositions id else .empty }, false)
      refine .bind (hloop.pre fun s hs => ⟨hs, .refl⟩) fun r => .bind (.modifyStore
        (Q := fun _ => Balanced start [] 0) ?_) fun _ => .ite (fun _ => ?_) fun _ =>
        .pure fun s hs => hs
      · rintro s ⟨⟨hs, rfl⟩, hr⟩
        split
        · exact restamped_balanced hs hm hdebt hr
        · exact hs
      · exact .read h timestamp balanced_stable calculateAccountRiskTotals_reads fun _ =>
          Keeps.quiet balanced_stable .lift

end Risk

/-- Dropping a buffer that is written changes nothing. -/
theorem Context.resetSpokeContext_keeps {start : System W} {ids : List Nat} {rest : Books} :
    Keeps (Balanced start ids rest) (resetSpokeContext : Ctrl W Unit)
      fun _ => Balanced start ids rest := by
  refine Triple.modify fun s hI hs => ⟨hI, ?_⟩
  have hrec : Invocation.recorded { s with cache := { s.cache with spokeUsage := none } } =
      s.toSystem.recorded := rfl
  exact ⟨hs.wellFormed, hs.evolves, hrec, hrec.trans (hs.persisted.symm.trans hs.books)⟩

theorem Risk.updateAccountThreshold_keeps {start : System W} {hasRisks : Bool}
    {accountIds : List Nat} :
    Keeps (Balanced start [] 0) (updateAccountThreshold h timestamp hasRisks accountIds)
      fun _ => Balanced start [] 0 := by
  refine .read h timestamp balanced_stable requireNotFlashLoaning_reads fun _ => ?_
  exact Keeps.foldlM (P := fun _ _ => Balanced start [] 0) (fun _ _ _ _ =>
    .bind Context.resetSpokeContext_keeps fun _ => syncAccountThresholds_keeps) ()

end Lending
