import LendingXlm.Controller.Entrypoints
import LendingXlm.Controller.Reads
import LendingXlm.Pool.Books
import Mathlib.Algebra.Group.Pi.Basic
import Mathlib.Algebra.Order.Group.Defs
import Mathlib.Algebra.Order.Pi
import Mathlib.Data.Finset.Card

/-!
# The books of the protocol

Shares are kept three times: in the accounts, in the pool's totals, and in the usage rows of the
spokes. A `Line` is one total of them, over the whole protocol or within a spoke, and `Books` give
every line an amount. The pool and the rows are what is *recorded*; each account adds its shares to
its lines. That both agree is one equation between books, and every flow keeps it by posting the
same amounts on both sides.

* `Invocation.recorded`: the pool's totals and the rows as buffered;
* `Account.books`, `ControllerStore.booksBesides`: one account, and all stored ones but some;
* `Balanced`: the invariant of the contracts between two flows, with the accounts in hand left
  out.
-/

namespace Lending

open Transaction Ctrl

/-! ## Lines -/

/-- The shares of a market on one side: all of them, or those within a spoke. -/
structure Line where
  scope : Option Nat
  side : UsageSide
  market : HubAssetKey
  deriving DecidableEq

abbrev Books := Line → Int

namespace Books

/-- `d` shares in the pool's total. -/
def atPool (side : UsageSide) (market : HubAssetKey) (d : Int) : Books :=
  Pi.single ⟨none, side, market⟩ d

/-- `d` shares in the row of a spoke. -/
def atSpoke (spokeId : Nat) (side : UsageSide) (market : HubAssetKey) (d : Int) : Books :=
  Pi.single ⟨some spokeId, side, market⟩ d

/-- `d` shares of an account bound to the spoke. -/
def posting (spokeId : Nat) (side : UsageSide) (market : HubAssetKey) (d : Int) : Books :=
  atPool side market d + atSpoke spokeId side market d

variable {spokeId : Nat} {side : UsageSide} {market : HubAssetKey} {d : Int}

@[simp] theorem atPool_zero : atPool side market 0 = 0 := Pi.single_zero _

@[simp] theorem atSpoke_zero : atSpoke spokeId side market 0 = 0 := Pi.single_zero _

@[simp] theorem posting_zero : posting spokeId side market 0 = 0 := by
  simp [posting]

theorem posting_add (d e : Int) :
    posting spokeId side market (d + e) =
      posting spokeId side market d + posting spokeId side market e := by
  simp only [posting, atPool, atSpoke, Pi.single_add]
  abel

theorem posting_sub (d e : Int) :
    posting spokeId side market (d - e) =
      posting spokeId side market d - posting spokeId side market e := by
  simp only [posting, atPool, atSpoke, Pi.single_sub]
  abel

theorem posting_nonneg (hd : 0 ≤ d) : 0 ≤ posting spokeId side market d :=
  add_nonneg (Pi.single_nonneg.mpr hd) (Pi.single_nonneg.mpr hd)

/-- The pool's totals take no part in the rows. -/
@[simp] theorem atPool_some {id : Nat} {side' : UsageSide} {market' : HubAssetKey} :
    atPool side market d ⟨some id, side', market'⟩ = 0 :=
  Pi.single_eq_of_ne (by simp) _

@[simp] theorem atSpoke_none {side' : UsageSide} {market' : HubAssetKey} :
    atSpoke spokeId side market d ⟨none, side', market'⟩ = 0 :=
  Pi.single_eq_of_ne (by simp) _

@[simp] theorem posting_self : posting spokeId side market d ⟨some spokeId, side, market⟩ = d := by
  simp [posting, atSpoke]

end Books

open Books

/-! ## Position maps -/

section PositionMap

variable {V : Type} (scaled : V → Int) (spokeId : Nat) (side : UsageSide)

/-- The shares of all positions of one side. -/
def sideBooks (m : SortedMap HubAssetKey V) : Books :=
  m.sumBy fun market p => posting spokeId side market (scaled p)

/-- The shares of a market; none when there is no position. -/
def scaledOf (m : SortedMap HubAssetKey V) (market : HubAssetKey) : Int :=
  (m.get? market).elim 0 scaled

/-- Writes a position, or removes it when it holds nothing. -/
def updateOrRemove (m : SortedMap HubAssetKey V) (market : HubAssetKey) (p : V) :
    SortedMap HubAssetKey V :=
  if scaled p ≠ Ray.zero then m.set market p else m.erase market

variable {scaled spokeId side} {m : SortedMap HubAssetKey V} {market : HubAssetKey} {p : V}

theorem weight_posting :
    (m.weight (fun market p => posting spokeId side market (scaled p)) market : Books) =
      posting spokeId side market (scaledOf scaled m market) := by
  unfold SortedMap.weight scaledOf
  cases m.get? market with
  | none => simp
  | some p => rfl

theorem sideBooks_updateOrRemove :
    sideBooks scaled spokeId side (updateOrRemove scaled m market p) =
      sideBooks scaled spokeId side m +
        posting spokeId side market (scaled p - scaledOf scaled m market) := by
  rw [posting_sub]
  unfold updateOrRemove sideBooks
  split
  · rw [SortedMap.sumBy_set, weight_posting]
    abel
  · rename_i hzero
    rw [not_not.mp hzero, SortedMap.sumBy_erase, weight_posting, Ray.zero, posting_zero]
    abel

theorem scaledOf_updateOrRemove_ne {market' : HubAssetKey} (hne : market' ≠ market) :
    scaledOf scaled (updateOrRemove scaled m market p) market' = scaledOf scaled m market' := by
  unfold updateOrRemove scaledOf
  split
  · rw [SortedMap.get?_set_ne _ _ hne]
  · rw [SortedMap.get?_erase_ne _ hne]

/-- What is there after a write was there before, or is what was written. -/
theorem get?_updateOrRemove {k : HubAssetKey} {q : V}
    (hget : (updateOrRemove scaled m market p).get? k = some q) :
    m.get? k = some q ∨ k = market ∧ q = p ∧ scaled p ≠ 0 := by
  unfold updateOrRemove at hget
  split at hget
  · rename_i hne
    rw [SortedMap.get?_set] at hget
    split at hget
    · cases hget
      exact .inr ⟨‹_›, rfl, hne⟩
    · exact .inl hget
  · rw [SortedMap.get?_erase] at hget
    split at hget
    · cases hget
    · exact .inl hget

theorem mem_keys_updateOrRemove {k : HubAssetKey}
    (hk : k ∈ (updateOrRemove scaled m market p).keys) : k ∈ m.keys ∨ k = market := by
  obtain ⟨q, hget⟩ := SortedMap.mem_keys.mp hk
  rcases get?_updateOrRemove hget with hold | ⟨rfl, -⟩
  · exact .inl (SortedMap.mem_keys.mpr ⟨q, hold⟩)
  · exact .inr rfl

/-- The shares of one position are part of its side's. -/
theorem posting_le_sideBooks (hpos : ∀ {k q}, m.get? k = some q → 0 < scaled q) :
    posting spokeId side market (scaledOf scaled m market) ≤ sideBooks scaled spokeId side m := by
  have hnn : ∀ k q, m.get? k = some q → 0 ≤ posting spokeId side k (scaled q) :=
    fun k q hget => posting_nonneg (hpos hget).le
  unfold scaledOf
  cases hget : m.get? market with
  | none =>
    rw [Option.elim_none, posting_zero]
    exact SortedMap.sumBy_nonneg hnn
  | some q => exact SortedMap.le_sumBy hnn hget

theorem sideBooks_nonneg (hpos : ∀ {k q}, m.get? k = some q → 0 < scaled q) :
    0 ≤ sideBooks scaled spokeId side m :=
  SortedMap.sumBy_nonneg fun _ _ hget => posting_nonneg (hpos hget).le

end PositionMap

/-! ## Accounts -/

/-- The shares of both sides of an account bound to a spoke. -/
def positionBooks (spokeId : Nat) (supply : SortedMap HubAssetKey AccountPosition)
    (debt : SortedMap HubAssetKey DebtPosition) : Books :=
  sideBooks AccountPosition.scaledAmount spokeId .supply supply +
    sideBooks DebtPosition.scaledAmount spokeId .borrow debt

namespace Account

def books (a : Account) : Books := positionBooks a.spokeId a.supplyPositions a.borrowPositions

def shares (a : Account) : UsageSide → HubAssetKey → Int
  | .supply, market => scaledOf AccountPosition.scaledAmount a.supplyPositions market
  | .borrow, market => scaledOf DebtPosition.scaledAmount a.borrowPositions market

def keysOf (a : Account) : UsageSide → Finset HubAssetKey
  | .supply => a.supplyPositions.keys.toFinset
  | .borrow => a.borrowPositions.keys.toFinset

/-- The positions of the other side are the same. -/
def SameBesides (side : UsageSide) (a a' : Account) : Prop :=
  match side with
  | .supply => a'.borrowPositions = a.borrowPositions
  | .borrow => a'.supplyPositions = a.supplyPositions

theorem SameBesides.refl {side : UsageSide} {a : Account} : SameBesides side a a := by
  cases side <;> rfl

theorem SameBesides.trans {side : UsageSide} {a b c : Account} (h1 : SameBesides side a b)
    (h2 : SameBesides side b c) : SameBesides side a c := by
  cases side <;> exact Eq.trans h2 h1

/-- `a'` is `a` with `scaled` shares of one market. -/
structure Becomes (a : Account) (side : UsageSide) (market : HubAssetKey) (scaled : Int)
    (a' : Account) : Prop where
  spokeId : a'.spokeId = a.spokeId
  books : a'.books = a.books + posting a.spokeId side market (scaled - a.shares side market)
  positive : 0 ≤ scaled → a.Positive → a'.Positive
  shares_ne : ∀ side' market', market' ≠ market → a'.shares side' market' = a.shares side' market'
  keys : ∀ side' k, k ∈ a'.keysOf side' → k ∈ a.keysOf side' ∨ side' = side ∧ k = market
  besides : SameBesides side a a'

variable {a : Account} {market : HubAssetKey}

theorem updateOrRemoveSupplyPosition_eq (position : AccountPosition) :
    a.updateOrRemoveSupplyPosition market position =
      { a with
        supplyPositions :=
          updateOrRemove AccountPosition.scaledAmount a.supplyPositions market position } := by
  unfold updateOrRemoveSupplyPosition updateOrRemove
  split <;> rfl

theorem updateOrRemoveDebtPosition_eq (position : DebtPosition) :
    a.updateOrRemoveDebtPosition market position =
      { a with
        borrowPositions :=
          updateOrRemove DebtPosition.scaledAmount a.borrowPositions market position } := by
  unfold updateOrRemoveDebtPosition updateOrRemove
  split <;> rfl

theorem updateOrRemoveSupplyPosition_becomes (market : HubAssetKey) (position : AccountPosition) :
    a.Becomes .supply market position.scaledAmount
      (a.updateOrRemoveSupplyPosition market position) := by
  rw [updateOrRemoveSupplyPosition_eq]
  refine ⟨rfl, ?_, fun h0 ha => ⟨?_, ha.debt⟩, ?_, ?_, rfl⟩
  · simp only [books, positionBooks, sideBooks_updateOrRemove, shares]
    abel
  · intro k p hget
    rcases get?_updateOrRemove hget with hold | ⟨-, rfl, hne⟩
    · exact ha.supply hold
    · exact lt_of_le_of_ne h0 (Ne.symm hne)
  · intro side' market' hm
    cases side' with
    | supply => exact scaledOf_updateOrRemove_ne hm
    | borrow => rfl
  · intro side' k hk
    cases side' with
    | borrow => exact .inl hk
    | supply =>
      rw [keysOf, List.mem_toFinset] at hk ⊢
      exact (mem_keys_updateOrRemove hk).imp id fun heq => ⟨rfl, heq⟩

theorem updateOrRemoveDebtPosition_becomes (market : HubAssetKey) (position : DebtPosition) :
    a.Becomes .borrow market position.scaledAmount
      (a.updateOrRemoveDebtPosition market position) := by
  rw [updateOrRemoveDebtPosition_eq]
  refine ⟨rfl, ?_, fun h0 ha => ⟨ha.supply, ?_⟩, ?_, ?_, rfl⟩
  · simp only [books, positionBooks, sideBooks_updateOrRemove, shares]
    abel
  · intro k p hget
    rcases get?_updateOrRemove hget with hold | ⟨-, rfl, hne⟩
    · exact ha.debt hold
    · exact lt_of_le_of_ne h0 (Ne.symm hne)
  · intro side' market' hm
    cases side' with
    | supply => rfl
    | borrow => exact scaledOf_updateOrRemove_ne hm
  · intro side' k hk
    cases side' with
    | supply => exact .inl hk
    | borrow =>
      rw [keysOf, List.mem_toFinset] at hk ⊢
      exact (mem_keys_updateOrRemove hk).imp id fun heq => ⟨rfl, heq⟩

theorem Positive.posting_le_books (ha : a.Positive) (side : UsageSide) :
    posting a.spokeId side market (a.shares side market) ≤ a.books := by
  cases side with
  | supply => exact le_add_of_le_of_nonneg (posting_le_sideBooks ha.supply) (sideBooks_nonneg ha.debt)
  | borrow => exact le_add_of_nonneg_of_le (sideBooks_nonneg ha.supply) (posting_le_sideBooks ha.debt)

theorem Positive.shares_le_books (ha : a.Positive) {side : UsageSide} :
    a.shares side market ≤ a.books ⟨some a.spokeId, side, market⟩ := by
  have hle : posting a.spokeId side market (a.shares side market) ⟨some a.spokeId, side, market⟩ ≤
      a.books ⟨some a.spokeId, side, market⟩ := ha.posting_le_books side _
  rwa [posting_self] at hle

theorem Positive.books_nonneg (ha : a.Positive) : 0 ≤ a.books :=
  add_nonneg (sideBooks_nonneg ha.supply) (sideBooks_nonneg ha.debt)

end Account

/-! ## What is recorded -/

variable {W : Type}

def PoolSyncData.shares (m : PoolSyncData) : UsageSide → Int
  | .supply => m.netSupply
  | .borrow => m.state.borrowed

/-- The pool's totals. -/
def poolBooks (markets : SortedMap HubAssetKey PoolSyncData) : Books := fun line =>
  match line.scope with
  | none => (markets.get? line.market).elim 0 fun m => m.shares line.side
  | some _ => 0

/-- The usage rows of all spokes; an absent row is empty. -/
def rowBooks (rows : Nat → HubAssetKey → Option SpokeUsage) : Books := fun line =>
  match line.scope with
  | none => 0
  | some spokeId => (rows spokeId line.market).elim 0 line.side.scaled

def PoolCtx.decimals (pool : PoolCtx W) (market : HubAssetKey) : Option Nat :=
  (pool.markets.get? market).map fun m => m.params.assetDecimals

/-- An operation on a market moves its two totals and no other line. -/
theorem PoolCtx.Moved.books {timestamp : Nat} {s s' : PoolCtx W} {key : HubAssetKey}
    {supply debt cash : Int} (hm : s.Moved timestamp s' key supply debt cash) :
    poolBooks s'.markets =
      poolBooks s.markets + (atPool .supply key supply + atPool .borrow key debt) := by
  obtain ⟨m, m', op, hget, -, hmoves, hset⟩ := hm
  funext ⟨scope, side, market⟩
  cases scope with
  | some id => simp [poolBooks]
  | none =>
    simp only [poolBooks, hset, SortedMap.get?_set, Pi.add_apply, atPool]
    by_cases hk : market = key
    · subst hk
      cases side with
      | supply => simp [hget, PoolSyncData.shares, hmoves.netSupply]
      | borrow => simp [hget, PoolSyncData.shares, hmoves.borrowed]
    · simp [hk]

theorem PoolCtx.Moved.decimals {timestamp : Nat} {s s' : PoolCtx W} {key : HubAssetKey}
    {supply debt cash : Int} (hm : s.Moved timestamp s' key supply debt cash) :
    s'.decimals = s.decimals := by
  obtain ⟨m, m', op, hget, -, hmoves, hset⟩ := hm
  funext market
  unfold PoolCtx.decimals
  rw [hset, SortedMap.get?_set]
  split
  · rename_i hk
    rw [hk, hget, Option.map_some, Option.map_some, hmoves.assetDecimals]
  · rfl

namespace Invocation

/-- A usage row as the invocation sees it: buffered, or stored. -/
def usageRow (s : Invocation W) (spokeId : Nat) (market : HubAssetKey) : Option SpokeUsage :=
  match s.cache.spokeUsage with
  | some ctx =>
    if ctx.spokeId = spokeId then ctx.row s.store market
    else s.store.getSpokeUsage spokeId market
  | none => s.store.getSpokeUsage spokeId market

def recorded (s : Invocation W) : Books := poolBooks s.pool.markets + rowBooks s.usageRow

end Invocation

def System.recorded (s : System W) : Books :=
  poolBooks s.pool.markets + rowBooks s.store.getSpokeUsage

/-! ## Stored accounts -/

namespace ControllerStore

def account (s : ControllerStore) (id : Nat) (owner : Address) (m : AccountMeta) : Account :=
  Storage.accountFromParts owner m (s.getSupplyPositions id) (s.getDebtPositions id)

/-- The shares of all stored accounts but the listed ones. -/
def booksBesides (s : ControllerStore) (ids : List Nat) : Books :=
  s.metas.sumBy fun id m =>
    if id ∈ ids then 0
    else positionBooks m.spokeId (s.getSupplyPositions id) (s.getDebtPositions id)

/-- Taking one more account in hand takes its shares out of the total. -/
theorem booksBesides_take {s : ControllerStore} {ids : List Nat} {id : Nat} {m : AccountMeta}
    (hm : s.metas.get? id = some m) (hid : id ∉ ids) :
    s.booksBesides ids = s.booksBesides (id :: ids) +
      positionBooks m.spokeId (s.getSupplyPositions id) (s.getDebtPositions id) := by
  unfold booksBesides
  rw [SortedMap.sumBy_skip (g := fun id' m =>
    if id' ∈ id :: ids then 0
    else positionBooks m.spokeId (s.getSupplyPositions id') (s.getDebtPositions id')) hm]
  · rw [if_neg hid]
  · rw [if_pos List.mem_cons_self]
  · intro id' m' hne _
    simp only [List.mem_cons, hne, false_or]

end ControllerStore

/-! ## Well-formed systems -/

/-- The markets of one side of an account: at most five, and a supply market below three decimals
stands alone. -/
structure KeysFit (decimals : HubAssetKey → Option Nat) (side : UsageSide)
    (keys : Finset HubAssetKey) : Prop where
  limit : keys.card ≤ positionLimitMax
  isolated : side = .supply → ∀ k ∈ keys, ∀ d, decimals k = some d →
    d < minBorrowableAssetDecimals → ∀ k' ∈ keys, k' = k

theorem KeysFit.mono {decimals : HubAssetKey → Option Nat} {side : UsageSide}
    {keys keys' : Finset HubAssetKey} (hfit : KeysFit decimals side keys) (hsub : keys' ⊆ keys) :
    KeysFit decimals side keys' where
  limit := (Finset.card_le_card hsub).trans hfit.limit
  isolated hside k hk d hd hlt k' hk' :=
    hfit.isolated hside k (hsub hk) d hd hlt k' (hsub hk')

structure Account.Sound (decimals : HubAssetKey → Option Nat) (a : Account) : Prop where
  positive : a.Positive
  fits : ∀ side, KeysFit decimals side (a.keysOf side)

/-- What holds of the stored accounts besides their totals. -/
structure System.WellFormed (s : System W) : Prop where
  sound : ∀ id owner m, (s.store.account id owner m).Sound s.pool.decimals
  orphan : ∀ id, s.store.metas.get? id = none →
    s.store.supplyPositions.get? id = none ∧ s.store.borrowPositions.get? id = none
  live : ∀ id, s.store.metas.contains id = s.nft.tokens.contains id
  fresh : ∀ id, s.nft.tokens.contains id = true → id < s.nft.nextTokenId
  limits : s.store.positionLimits.maxSupplyPositions ≤ positionLimitMax ∧
    s.store.positionLimits.maxBorrowPositions ≤ positionLimitMax

/-- An id handed out by `s` is bound in `s'` as it was in `s`, or not bound any more. -/
structure System.Evolves (s s' : System W) : Prop where
  counter : s.nft.nextTokenId ≤ s'.nft.nextTokenId
  metas : ∀ id < s.nft.nextTokenId, ∀ m, s'.store.metas.get? id = some m →
    s.store.metas.get? id = some m

theorem System.Evolves.refl {s : System W} : s.Evolves s :=
  ⟨le_rfl, fun _ _ _ hm => hm⟩

theorem System.Evolves.trans {s s' s'' : System W} (h1 : s.Evolves s') (h2 : s'.Evolves s'') :
    s.Evolves s'' where
  counter := h1.counter.trans h2.counter
  metas id hid m hm := h1.metas id hid m (h2.metas id (hid.trans_le h1.counter) m hm)

/-- **The invariant.** The contracts are well formed, what the invocation buffered is written, and
the records are the shares of all stored accounts but those in hand, plus `rest`. -/
structure Balanced (start : System W) (ids : List Nat) (rest : Books) (s : Invocation W) :
    Prop where
  wellFormed : s.toSystem.WellFormed
  evolves : start.Evolves s.toSystem
  persisted : s.recorded = s.toSystem.recorded
  books : s.recorded = s.store.booksBesides ids + rest

/-- The account in hand is the stored one. -/
structure Loaded (id : Nat) (a : Account) (s : Invocation W) : Prop where
  bound : ∃ m, s.store.metas.get? id = some m ∧ m.spokeId = a.spokeId
  supply : s.store.getSupplyPositions id = a.supplyPositions
  debt : s.store.getDebtPositions id = a.borrowPositions

/-- A flow on the account `a`, bound to `spokeId`: the contracts' storage is still that of `base`,
and the records are the shares of `a` plus `others`. -/
structure Holding (base : System W) (spokeId : Nat) (others : Books) (a : Account)
    (s : Invocation W) : Prop where
  store : s.store = base.store
  nft : s.nft = base.nft
  decimals : s.pool.decimals = base.pool.decimals
  spoke : a.spokeId = spokeId
  positive : a.Positive
  rows : ∀ spokeId side market, 0 ≤ others ⟨some spokeId, side, market⟩
  books : s.recorded = others + a.books

/-- Every exit so far found what it took. -/
def Invocation.ExitsCovered (s : Invocation W) : Prop := ∀ r ∈ s.cache.exits, r.Covered

/-! ## Quiet steps -/

namespace Invocation

/-- Nothing the invariant looks at changed. -/
structure Silent (s s' : Invocation W) : Prop where
  store : s'.store = s.store
  nft : s'.nft = s.nft
  markets : s'.pool.markets = s.pool.markets
  spokeUsage : s'.cache.spokeUsage = s.cache.spokeUsage ∨
    (s.cache.spokeUsage = none ∧ ∃ spokeId, s'.cache.spokeUsage = some (.new spokeId))

/-- And no exit was met. -/
structure Quiet (s s' : Invocation W) : Prop extends Silent s s' where
  exits : s'.cache.exits = s.cache.exits

instance : Std.Refl (Quiet (W := W)) where
  refl _ := ⟨⟨rfl, rfl, rfl, .inl rfl⟩, rfl⟩

instance : IsTrans (Invocation W) Quiet where
  trans s t u hst htu := by
    refine ⟨⟨htu.store.trans hst.store, htu.nft.trans hst.nft, htu.markets.trans hst.markets, ?_⟩,
      htu.exits.trans hst.exits⟩
    rcases hst.spokeUsage with heq | ⟨hnone, spokeId, hsome⟩
    · rw [← heq]
      exact htu.spokeUsage
    · rcases htu.spokeUsage with heq' | ⟨hnone', -⟩
      · exact .inr ⟨hnone, spokeId, heq'.trans hsome⟩
      · rw [hsome] at hnone'
        cases hnone'

theorem Reads.quiet {h : ControllerHost W} {timestamp : Nat} {s s' : Invocation W}
    (hr : Reads h timestamp s s') : Quiet s s' :=
  ⟨⟨congrArg System.store hr.system, congrArg System.nft hr.system,
    congrArg (fun b => b.pool.markets) hr.system, hr.spokeUsage⟩, hr.exits⟩

/-- Only the world outside and the reentrancy flag changed. -/
structure Outward (s s' : Invocation W) : Prop where
  store : s'.store = s.store
  nft : s'.nft = s.nft
  markets : s'.pool.markets = s.pool.markets
  cache : s'.cache = s.cache

instance : Std.Refl (Outward (W := W)) where
  refl _ := ⟨rfl, rfl, rfl, rfl⟩

instance : IsTrans (Invocation W) Outward where
  trans _ _ _ hst htu := ⟨htu.store.trans hst.store, htu.nft.trans hst.nft,
    htu.markets.trans hst.markets, htu.cache.trans hst.cache⟩

theorem Outward.quiet {s s' : Invocation W} (ho : Outward s s') : Quiet s s' :=
  ⟨⟨ho.store, ho.nft, ho.markets, .inl (congrArg Context.spokeUsage ho.cache)⟩,
    congrArg Context.exits ho.cache⟩

theorem Silent.usageRow {s s' : Invocation W} (hq : Silent s s') : s'.usageRow = s.usageRow := by
  funext spokeId market
  unfold Invocation.usageRow
  rw [hq.store]
  rcases hq.spokeUsage with heq | ⟨hnone, id, hsome⟩
  · rw [heq]
  · rw [hnone, hsome]
    dsimp only
    split
    · rename_i hid
      rw [← hid]
      rfl
    · rfl

theorem Silent.recorded {s s' : Invocation W} (hq : Silent s s') : s'.recorded = s.recorded := by
  rw [Invocation.recorded, hq.usageRow, hq.markets, ← Invocation.recorded]

theorem Silent.decimals {s s' : Invocation W} (hq : Silent s s') :
    s'.pool.decimals = s.pool.decimals := by
  funext market
  rw [PoolCtx.decimals, hq.markets, ← PoolCtx.decimals]

end Invocation

open Invocation

/-- A computation that does nothing the invariant looks at. -/
abbrev QuietOnly {α : Type} (x : Ctrl W α) : Prop := Along Quiet x

/-- A computation of outside calls. -/
abbrev OutwardOnly {α : Type} (x : Ctrl W α) : Prop := Along Outward x

theorem OutwardOnly.quiet {α : Type} {x : Ctrl W α} (hx : OutwardOnly x) : QuietOnly x :=
  Along.mono hx fun _ _ => Outward.quiet

/-- Assertions that silent steps keep. -/
def Stable (P : Invocation W → Prop) : Prop := ∀ s s', Silent s s' → P s → P s'

theorem Invocation.Quiet.exitsCovered {s s' : Invocation W} (hq : Quiet s s')
    (hs : s.ExitsCovered) : s'.ExitsCovered := by
  rw [ExitsCovered, hq.exits]
  exact hs

theorem System.WellFormed.congr {s s' : System W} (hs : s.WellFormed) (hstore : s'.store = s.store)
    (hnft : s'.nft = s.nft) (hdec : s'.pool.decimals = s.pool.decimals) : s'.WellFormed := by
  constructor
  · rw [hstore, hdec]
    exact hs.sound
  · rw [hstore]
    exact hs.orphan
  · rw [hstore, hnft]
    exact hs.live
  · rw [hnft]
    exact hs.fresh
  · rw [hstore]
    exact hs.limits

theorem System.Evolves.congr {b s s' : System W} (hs : b.Evolves s) (hstore : s'.store = s.store)
    (hnft : s'.nft = s.nft) : b.Evolves s' := by
  constructor
  · rw [hnft]
    exact hs.counter
  · rw [hstore]
    exact hs.metas

theorem balanced_stable {start : System W} {ids : List Nat} {rest : Books} :
    Stable (Balanced start ids rest) := by
  intro s s' hq hs
  refine ⟨hs.wellFormed.congr hq.store hq.nft hq.decimals, hs.evolves.congr hq.store hq.nft, ?_, ?_⟩
  · rw [hq.recorded, hs.persisted, System.recorded, System.recorded, hq.store, hq.markets]
  · rw [hq.recorded, hs.books, hq.store]

theorem loaded_stable {id : Nat} {a : Account} : Stable (Loaded (W := W) id a) := by
  intro s s' hq hs
  constructor
  · rw [hq.store]
    exact hs.bound
  · rw [hq.store]
    exact hs.supply
  · rw [hq.store]
    exact hs.debt

theorem holding_stable {base : System W} {spokeId : Nat} {others : Books} {a : Account} :
    Stable (Holding base spokeId others a) := by
  intro s s' hq hs
  exact ⟨hq.store.trans hs.store, hq.nft.trans hs.nft, hq.decimals.trans hs.decimals, hs.spoke,
    hs.positive, hs.rows, hq.recorded.trans hs.books⟩

end Lending
