import LendingXlm.Common.Token
import LendingXlm.Lib.SortedMap
import LendingXlm.Pool.Ops

/-!
# The pool contract

`contracts/pool/src/lib.rs`: the entrypoints over all markets, with the token transfers that
`Pool.Ops` leaves out. Every entrypoint is restricted to the owner (the controller), which the
host checks before the body runs.
-/

namespace Lending

open Ops

/-- The pool's markets, and the world its tokens live in. -/
structure PoolCtx (W : Type) where
  markets : SortedMap HubAssetKey PoolSyncData
  world : W

/-- What the pool calls outside: tokens and the flash-loan receiver. `pool` is the contract's own
address and `owner` its Ownable owner. -/
structure PoolHost (W : Type) extends TokenHost W where
  pool : Address
  owner : Option Address
  isWasmContract : W → Address → Bool
  executeFlashLoan : W → (receiver initiator asset : Address) → (amount fee : Int) →
    (pool : Address) → (data : List UInt8) → Result W

variable {W : Type} (h : PoolHost W) (timestamp : Nat)

namespace PoolCtx

/-- `Cache::commit`: writes the market back. -/
def commit (s : PoolCtx W) (hubAsset : HubAssetKey) (cache : Cache) : PoolCtx W :=
  { s with markets := s.markets.set hubAsset cache.commit }

end PoolCtx

/-- Pays out of the pool; zero moves nothing. Tracked cash is not touched here. -/
def Cache.transferOut (c : Cache) (w : W) (recipient : Address) (amount : Int) : Result W := do
  requireNonnegAmount amount
  if amount = 0 then
    return w
  h.transfer w c.params.assetId h.pool recipient amount

/-- Runs `leg` on every entry. With `uniqueMarkets`, a second leg on a market is refused: its
position was read before the batch. -/
def Ops.runBatch {S E R : Type} (market : E → HubAssetKey) (uniqueMarkets : Bool)
    (leg : S → E → Result (S × R)) : (seen : List HubAssetKey) → S → List E → Result (S × List R)
  | _, s, [] => pure (s, [])
  | seen, s, entry :: entries => do
    let (s, result) ← leg s entry
    require (uniqueMarkets = false ∨ market entry ∉ seen) .invalidPayments
    let (s, results) ← runBatch market uniqueMarkets leg (market entry :: seen) s entries
    pure (s, result :: results)

/-- A batch runs one leg, then the rest. -/
theorem Ops.runBatch_cons {S E R : Type} {market : E → HubAssetKey} {unique : Bool}
    {leg : S → E → Result (S × R)} {seen : List HubAssetKey} {s s' : S} {e : E}
    {entries : List E} {rs : List R}
    (hrun : runBatch market unique leg seen s (e :: entries) = .ok (s', rs)) :
    ∃ s1 r rs1, leg s e = .ok (s1, r) ∧ (unique = false ∨ market e ∉ seen) ∧
      runBatch market unique leg (market e :: seen) s1 entries = .ok (s', rs1) ∧ rs = r :: rs1 := by
  unfold runBatch at hrun
  simp only [Fallible.bind_ok_iff, Fallible.require_ok_iff, Fallible.pure_ok_iff,
    Prod.mk.injEq] at hrun
  obtain ⟨⟨s1, r⟩, h1, -, huniq, ⟨s2, rs1⟩, h2, rfl, rfl⟩ := hrun
  exact ⟨s1, r, rs1, h1, huniq, h2, rfl⟩

theorem Ops.runBatch_nil {S E R : Type} {market : E → HubAssetKey} {unique : Bool}
    {leg : S → E → Result (S × R)} {seen : List HubAssetKey} {s s' : S} {rs : List R}
    (hrun : runBatch market unique leg seen s [] = .ok (s', rs)) : s' = s ∧ rs = [] := by
  simp only [runBatch, Fallible.pure_ok_iff, Prod.mk.injEq] at hrun
  exact ⟨hrun.1.symm, hrun.2.symm⟩

/-- What every leg keeps, the batch keeps. -/
theorem Ops.runBatch_inv {S E R : Type} {market : E → HubAssetKey} {unique : Bool}
    {leg : S → E → Result (S × R)} {P : S → Prop}
    (hleg : ∀ {s s' e r}, P s → leg s e = .ok (s', r) → P s') {entries : List E}
    {seen : List HubAssetKey} {s s' : S} {rs : List R} (hs : P s)
    (hrun : runBatch market unique leg seen s entries = .ok (s', rs)) : P s' := by
  induction entries generalizing s seen rs with
  | nil =>
    obtain ⟨rfl, -⟩ := runBatch_nil hrun
    exact hs
  | cons e entries ih =>
    obtain ⟨s1, r, rs1, h1, -, h2, -⟩ := runBatch_cons hrun
    exact ih (hleg hs h1) h2

/-! ## Legs with their transfers -/

def Supply.leg (s : PoolCtx W) (action : PoolAction) :
    Result (PoolCtx W × PoolPositionMutation) := do
  let (cache, mutation) ← Supply.apply (s.markets.get? action.hubAsset) timestamp action
  pure (s.commit action.hubAsset cache, mutation)

def Borrow.apply (receiver : Address) (s : PoolCtx W) (action : PoolAction) :
    Result (PoolCtx W × PoolPositionMutation) := do
  let outcome ← Borrow.accounting (s.markets.get? action.hubAsset) timestamp action
  let s := s.commit action.hubAsset outcome.cache
  let world ← outcome.cache.transferOut h s.world receiver outcome.mutation.actualAmount
  pure ({ s with world }, outcome.mutation)

/-- A close that pays nothing only touches the receiver's balance entry: the token may refuse
it. -/
def Withdraw.apply (receiver : Address) (isLiquidation : Bool) (s : PoolCtx W)
    (entry : PoolWithdrawEntry) : Result (PoolCtx W × PoolPositionMutation) := do
  let outcome ← Withdraw.accounting (s.markets.get? entry.action.hubAsset) timestamp isLiquidation
    entry
  let s := s.commit entry.action.hubAsset outcome.cache
  if outcome.netTransfer = 0 ∧
      (entry.action.position.scaledAmount > 0 ∨ entry.action.amount = i128Max) ∧
      outcome.mutation.position.scaledAmount = 0 then
    let world := h.tryTransfer s.world outcome.cache.params.assetId h.pool receiver 0
    return ({ s with world }, outcome.mutation)
  else
    let world ← outcome.cache.transferOut h s.world receiver outcome.netTransfer
    return ({ s with world }, outcome.mutation)

def Repay.apply (payer : Address) (s : PoolCtx W) (action : PoolAction) :
    Result (PoolCtx W × PoolPositionMutation) := do
  let outcome ← Repay.accounting (s.markets.get? action.hubAsset) timestamp action
  let s := s.commit action.hubAsset outcome.cache
  let world ← outcome.cache.transferOut h s.world payer outcome.overpayment
  pure ({ s with world }, outcome.mutation)

def Seize.leg (s : PoolCtx W) (entry : PoolSeizeEntry) : Result (PoolCtx W × Unit) := do
  let cache ← Seize.apply (s.markets.get? entry.hubAsset) timestamp entry
  pure (s.commit entry.hubAsset cache, ())

def Strategy.apply (receiver : Address) (s : PoolCtx W) (action : PoolAction) (chargeFee : Bool) :
    Result (PoolCtx W × PoolStrategyMutation) := do
  let outcome ← Strategy.accounting (s.markets.get? action.hubAsset) timestamp action chargeFee
  let s := s.commit action.hubAsset outcome.cache
  let world ← outcome.cache.transferOut h s.world receiver outcome.mutation.amountReceived
  pure ({ s with world }, outcome.mutation)

/-! ## Flash loans -/

namespace Flash

/-- The pool's balance of `asset` is exactly `expected`. -/
def requireBalance (w : W) (asset : Address) (expected : Int) : Result Unit :=
  require (h.balance w asset h.pool = expected) .invalidFlashloanRepay

def collectRepayment (w : W) (asset receiver : Address) (terms : Terms) : Result W := do
  require (h.allowance w asset receiver h.pool ≥ terms.totalRepayment) .invalidFlashloanRepay
  let w ← h.transferFrom w asset h.pool receiver h.pool terms.totalRepayment
  requireBalance h w asset terms.balanceAfterRepayment
  pure w

/-- The market cache is read before the payout and written after the repayment; the pool cannot
be entered in between. -/
def apply (s : PoolCtx W) (hubAsset : HubAssetKey) (initiator receiver : Address) (amount : Int)
    (data : List UInt8) : Result (PoolCtx W × Int) := do
  let cache ← prepare (s.markets.get? hubAsset) timestamp hubAsset amount
  require (h.isWasmContract s.world receiver = true) .invalidFlashloanReceiver
  let asset := cache.params.assetId
  let terms ← terms amount cache.params.flashloanFee (h.balance s.world asset h.pool)
  let world ← h.transfer s.world asset h.pool receiver amount
  requireBalance h world asset terms.balanceAfterPayout
  let world ← h.executeFlashLoan world receiver initiator asset amount terms.fee h.pool data
  requireBalance h world asset terms.balanceAfterPayout
  let world ← collectRepayment h world asset receiver terms
  let cache ← bookFee cache terms.fee
  pure ({ s with world }.commit hubAsset cache, terms.fee)

end Flash

/-! ## Revenue and recapitalization -/

def Revenue.apply (s : PoolCtx W) (hubAsset : HubAssetKey) : Result (PoolCtx W × Int) := do
  let outcome ← Revenue.accounting (s.markets.get? hubAsset) timestamp hubAsset
  let s := s.commit hubAsset outcome.cache
  if outcome.actualAmount ≠ 0 then
    let owner ← orThrow h.owner .ownerNotSet
    let world ← outcome.cache.transferOut h s.world owner outcome.actualAmount
    return ({ s with world }, outcome.actualAmount)
  else
    return (s, outcome.actualAmount)

def Recapitalize.apply (s : PoolCtx W) (hubAsset : HubAssetKey) (payer : Address)
    (amount : Int) : Result (PoolCtx W × Int) := do
  let outcome ← Recapitalize.accounting (s.markets.get? hubAsset) timestamp hubAsset amount
  let s := s.commit hubAsset outcome.cache
  let world ← outcome.cache.transferOut h s.world payer outcome.refund
  pure ({ s with world }, outcome.actualAmount)

/-! ## Entrypoints -/

namespace LiquidityPool

def createMarket (s : PoolCtx W) (hubId : Nat) (params : MarketParams) : Result (PoolCtx W) := do
  let hubAsset : HubAssetKey := { hubId, asset := params.assetId }
  let market ← MarketOps.create (s.markets.get? hubAsset) timestamp params
  pure { s with markets := s.markets.set hubAsset market }

def updateParams (s : PoolCtx W) (hubAsset : HubAssetKey) (model : InterestRateModel) :
    Result (PoolCtx W) := do
  let market ← MarketOps.replaceRateModel (s.markets.get? hubAsset) timestamp hubAsset model
  pure { s with markets := s.markets.set hubAsset market }

def supply (s : PoolCtx W) (entries : List PoolAction) :
    Result (PoolCtx W × List PoolPositionMutation) :=
  runBatch PoolAction.hubAsset true (Supply.leg timestamp) [] s entries

def borrow (s : PoolCtx W) (receiver : Address) (entries : List PoolAction) :
    Result (PoolCtx W × List PoolPositionMutation) :=
  runBatch PoolAction.hubAsset true (Borrow.apply h timestamp receiver) [] s entries

def withdraw (s : PoolCtx W) (receiver : Address) (isLiquidation : Bool)
    (entries : List PoolWithdrawEntry) : Result (PoolCtx W × List PoolPositionMutation) :=
  runBatch (fun e => e.action.hubAsset) true (Withdraw.apply h timestamp receiver isLiquidation) []
    s entries

def repay (s : PoolCtx W) (payer : Address) (actions : List PoolAction) :
    Result (PoolCtx W × List PoolPositionMutation) :=
  runBatch PoolAction.hubAsset true (Repay.apply h timestamp payer) [] s actions

/-- One market of `update_indexes`. -/
def accrue (s : PoolCtx W) (hubAsset : HubAssetKey) : Result (PoolCtx W) := do
  let cache ← syncedMarket (s.markets.get? hubAsset) timestamp hubAsset
  pure (s.commit hubAsset cache)

def updateIndexes (s : PoolCtx W) (hubAssets : List HubAssetKey) : Result (PoolCtx W) :=
  hubAssets.foldlM (accrue timestamp) s

def recapitalize (s : PoolCtx W) (hubAsset : HubAssetKey) (payer : Address) (amount : Int) :
    Result (PoolCtx W × Int) :=
  Recapitalize.apply h timestamp s hubAsset payer amount

def flashLoan (s : PoolCtx W) (hubAsset : HubAssetKey) (initiator receiver : Address)
    (amount : Int) (data : List UInt8) : Result (PoolCtx W × Int) :=
  Flash.apply h timestamp s hubAsset initiator receiver amount data

def createStrategy (s : PoolCtx W) (receiver : Address) (action : PoolAction) (chargeFee : Bool) :
    Result (PoolCtx W × PoolStrategyMutation) :=
  Strategy.apply h timestamp receiver s action chargeFee

def seizePositions (s : PoolCtx W) (entries : List PoolSeizeEntry) : Result (PoolCtx W) := do
  let (s, _) ← runBatch PoolSeizeEntry.hubAsset false (Seize.leg timestamp) [] s entries
  pure s

def netSettle (s : PoolCtx W) (entry : PoolNetSettleEntry) :
    Result (PoolCtx W × PoolNetSettleResult) := do
  let (cache, result) ← NetSettle.apply (s.markets.get? entry.hubAsset) timestamp entry
  pure (s.commit entry.hubAsset cache, result)

def claimRevenue (s : PoolCtx W) (hubAsset : HubAssetKey) : Result (PoolCtx W × Int) :=
  Revenue.apply h timestamp s hubAsset

/-- `get_sync_data` -/
def getSyncData (s : PoolCtx W) (hubAsset : HubAssetKey) : Result PoolSyncData :=
  orThrow (s.markets.get? hubAsset) .poolNotInitialized

end LiquidityPool

end Lending
