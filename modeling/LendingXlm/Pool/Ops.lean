import LendingXlm.Pool.Cache

/-!
# Pool operations on one market

`contracts/pool/src/ops`: the accounting of each operation. `stored` is what storage holds for
the entry's market and `timestamp` the ledger time; an operation returns the cache it commits
together with the source's outcome fields. Token transfers and batches are in `Pool.Contract`.
-/

namespace Lending

open FpCore

namespace Ops

/-! ## `ops/mod.rs` -/

def syncedMarket (stored : Option PoolSyncData) (timestamp : Nat) (hubAsset : HubAssetKey) :
    Result Cache := do
  let cache ← Cache.load stored hubAsset timestamp
  Interest.globalSync cache

def loadLeg (stored : Option PoolSyncData) (timestamp : Nat) (action : PoolAction) :
    Result (Cache × Int) := do
  requireNonnegAmount action.amount
  requireNonnegAmount action.position.scaledAmount
  let cache ← syncedMarket stored timestamp action.hubAsset
  pure (cache, action.position.scaledAmount)

end Ops

open Ops

/-! ## `ops/supply.rs` -/

namespace Supply

def apply (stored : Option PoolSyncData) (timestamp : Nat) (action : PoolAction) :
    Result (Cache × PoolPositionMutation) := do
  let (cache, position) ← loadLeg stored timestamp action
  let amount := action.amount
  Guards.requireBackedMarket cache
  let minted ← cache.calculateScaledSupply amount
  require (amount = 0 ∨ minted > 0) .supplyRoundsToZeroShares
  let position ← Ray.checkedAdd position minted
  let cache ← cache.mintSupply minted
  let cache ← cache.creditCash amount
  pure (cache, cache.positionMutation position amount)

end Supply

/-! ## `ops/borrow.rs` -/

namespace Borrow

structure Outcome where
  cache : Cache
  mutation : PoolPositionMutation
  deriving DecidableEq, Repr

/-- Mints debt for `amount`, keeping the liquidation buffer and the utilization limit; returns
the cache and the position. -/
def mintDebt (cache : Cache) (position amount : Int) : Result (Cache × Int) := do
  requirePositiveAmount amount
  cache.requireReserves amount
  Guards.requireLiquidationBuffer cache amount
  let minted ← cache.calculateScaledBorrow amount
  require (minted > 0) .borrowRoundsToZeroShares
  let position ← Ray.checkedAdd position minted
  let cache ← cache.mintDebt minted
  Guards.requireUtilizationBelowMax cache
  pure (cache, position)

def accounting (stored : Option PoolSyncData) (timestamp : Nat) (action : PoolAction) :
    Result Outcome := do
  let (cache, position) ← loadLeg stored timestamp action
  let amount := action.amount
  let (cache, position) ← mintDebt cache position amount
  let cache ← cache.debitCash amount
  pure { cache, mutation := cache.positionMutation position amount }

end Borrow

/-! ## `ops/withdraw.rs` -/

namespace Withdraw

structure Outcome where
  cache : Cache
  mutation : PoolPositionMutation
  netTransfer : Int
  deriving DecidableEq, Repr

def resolveCloseOrPartial (cache : Cache) (amount position : Int) : Result (Int × Int) := do
  let (burned, grossAmount) ← cache.resolveWithdrawal amount position
  require (grossAmount = 0 ∨ burned > 0) .withdrawRoundsToZeroShares
  pure (burned, grossAmount)

def burnPosition (cache : Cache) (position burned : Int) : Result (Cache × Int) := do
  let cache ← cache.burnSupply burned
  let remaining ← Ray.checkedSub position burned
  pure (cache, remaining)

/-- Books the protocol fee of a liquidation as revenue and returns what is left to pay. -/
def withholdLiquidationFee (cache : Cache) (grossAmount : Int) (isLiquidation : Bool)
    (protocolFee : Int) : Result (Cache × Int) := do
  if ¬ isLiquidation ∨ protocolFee = 0 then
    return (cache, grossAmount)
  require (grossAmount ≥ protocolFee) .withdrawLessThanFee
  let fee ← Ray.fromAsset protocolFee cache.params.assetDecimals
  let cache ← Interest.addProtocolRevenue cache fee
  return (cache, ← orThrow (I128.checkedSub grossAmount protocolFee) .mathOverflow)

def gateAndDebit (cache : Cache) (netTransfer : Int) (skipUtilizationCheck : Bool) :
    Result Cache := do
  cache.requireReserves netTransfer
  if ¬ skipUtilizationCheck then
    Guards.requireUtilizationBelowMax cache
  Guards.requireSupplyForDebt cache
  cache.debitCash netTransfer

def accounting (stored : Option PoolSyncData) (timestamp : Nat) (isLiquidation : Bool)
    (entry : PoolWithdrawEntry) : Result Outcome := do
  requireNonnegAmount entry.protocolFee
  let (cache, position) ← loadLeg stored timestamp entry.action
  let (burned, grossAmount) ← resolveCloseOrPartial cache entry.action.amount position
  let (cache, remaining) ← burnPosition cache position burned
  let (cache, netTransfer) ←
    withholdLiquidationFee cache grossAmount isLiquidation entry.protocolFee
  let emptyClose := position = 0 ∧ entry.action.amount = i128Max
  let cache ← gateAndDebit cache netTransfer (isLiquidation || decide emptyClose)
  pure { cache, mutation := cache.positionMutation remaining grossAmount, netTransfer }

end Withdraw

/-! ## `ops/repay.rs` -/

namespace Repay

structure Outcome where
  cache : Cache
  mutation : PoolPositionMutation
  overpayment : Int
  deriving DecidableEq, Repr

def accounting (stored : Option PoolSyncData) (timestamp : Nat) (action : PoolAction) :
    Result Outcome := do
  let (cache, position) ← loadLeg stored timestamp action
  let amount := action.amount
  let (burned, overpayment) ← cache.resolveRepay amount position
  let netRepay ← orThrow (I128.checkedSub amount overpayment) .mathOverflow
  require (netRepay = 0 ∨ burned > 0) .repayRoundsToZeroShares
  let position ← Ray.checkedSub position burned
  let cache ← cache.burnDebt burned
  let cache ← cache.creditCash netRepay
  pure { cache, mutation := cache.positionMutation position netRepay, overpayment }

end Repay

/-! ## `ops/net_settle.rs` -/

namespace NetSettle

def apply (stored : Option PoolSyncData) (timestamp : Nat) (entry : PoolNetSettleEntry) :
    Result (Cache × PoolNetSettleResult) := do
  requireNonnegAmount entry.amount
  requireNonnegAmount entry.supplyPosition.scaledAmount
  requireNonnegAmount entry.debtPosition.scaledAmount
  let cache ← syncedMarket stored timestamp entry.hubAsset
  let supplyPosition := entry.supplyPosition.scaledAmount
  let debtPosition := entry.debtPosition.scaledAmount
  let (burnedSupply, burnedDebt, grossAmount) ←
    cache.resolveNetSettle entry.amount supplyPosition debtPosition
  require (grossAmount = 0 ∨ (burnedSupply > 0 ∧ burnedDebt > 0)) .netSettleRoundsToZeroShares
  let cache ← cache.burnSupply burnedSupply
  let cache ← cache.burnDebt burnedDebt
  Guards.requireSupplyForDebt cache
  let supplyLeft ← Ray.checkedSub supplyPosition burnedSupply
  let debtLeft ← Ray.checkedSub debtPosition burnedDebt
  pure (cache,
    { supplyPosition := ⟨supplyLeft⟩
      debtPosition := ⟨debtLeft⟩
      marketIndex := cache.marketIndex
      settledAmount := grossAmount })

end NetSettle

/-! ## `ops/strategy.rs` -/

namespace Strategy

structure Outcome where
  cache : Cache
  mutation : PoolStrategyMutation
  fee : Int
  deriving DecidableEq, Repr

def computeFee (cache : Cache) (amount : Int) (chargeFee : Bool) : Result Int := do
  if ¬ chargeFee then
    return 0
  let fee ← Bps.flashLoanFeeOn cache.params.flashloanFee amount
  require (fee ≤ amount) .strategyFeeExceeds
  return fee

def accounting (stored : Option PoolSyncData) (timestamp : Nat) (action : PoolAction)
    (chargeFee : Bool) : Result Outcome := do
  let amount := action.amount
  requireNonnegAmount amount
  requireNonnegAmount action.position.scaledAmount
  let cache ← syncedMarket stored timestamp action.hubAsset
  let fee ← computeFee cache amount chargeFee
  let (cache, position) ← Borrow.mintDebt cache action.position.scaledAmount amount
  let protocolFee ← Ray.fromAsset fee cache.params.assetDecimals
  let cache ← Interest.addProtocolRevenue cache protocolFee
  let amountToSend ← orThrow (I128.checkedSub amount fee) .mathOverflow
  let cache ← cache.debitCash amountToSend
  pure { cache, mutation := cache.strategyMutation position amount amountToSend, fee }

end Strategy

/-! ## `ops/flash.rs` -/

namespace Flash

structure Terms where
  fee : Int
  totalRepayment : Int
  balanceAfterPayout : Int
  balanceAfterRepayment : Int
  deriving DecidableEq, Repr

def prepare (stored : Option PoolSyncData) (timestamp : Nat) (hubAsset : HubAssetKey)
    (amount : Int) : Result Cache := do
  requirePositiveAmount amount
  let cache ← syncedMarket stored timestamp hubAsset
  require (cache.params.isFlashloanable = true) .flashloanNotEnabled
  cache.requireReserves amount
  pure cache

def terms (amount : Int) (feeBps : Nat) (preBalance : Int) : Result Terms := do
  let fee ← Bps.flashLoanFeeOn feeBps amount
  let totalRepayment ← orThrow (I128.checkedAdd amount fee) .mathOverflow
  let balanceAfterPayout ← orThrow (I128.checkedSub preBalance amount) .mathOverflow
  let balanceAfterRepayment ← orThrow (I128.checkedAdd preBalance fee) .mathOverflow
  pure { fee, totalRepayment, balanceAfterPayout, balanceAfterRepayment }

def bookFee (cache : Cache) (fee : Int) : Result Cache := do
  let protocolFee ← Ray.fromAsset fee cache.params.assetDecimals
  let cache ← Interest.addProtocolRevenue cache protocolFee
  cache.creditCash fee

/-- The books of a flash loan that came back: `prepare`, the terms at the pool's balance, and
the fee. -/
def accounting (stored : Option PoolSyncData) (timestamp : Nat) (hubAsset : HubAssetKey)
    (amount preBalance : Int) : Result (Cache × Terms) := do
  let cache ← prepare stored timestamp hubAsset amount
  let t ← terms amount cache.params.flashloanFee preBalance
  let cache ← bookFee cache t.fee
  pure (cache, t)

end Flash

/-! ## `ops/revenue.rs` -/

namespace Revenue

structure Outcome where
  cache : Cache
  actualAmount : Int
  deriving DecidableEq, Repr

def accounting (stored : Option PoolSyncData) (timestamp : Nat) (hubAsset : HubAssetKey) :
    Result Outcome := do
  let cache ← syncedMarket stored timestamp hubAsset
  let (cache, netTransfer) ← cache.burnClaimableRevenue
  Guards.requireUtilizationBelowMax cache
  Guards.requireSupplyForDebt cache
  let cache ← cache.debitCash netTransfer
  pure { cache, actualAmount := netTransfer }

end Revenue

/-! ## `ops/recapitalize.rs` -/

namespace Recapitalize

structure Outcome where
  cache : Cache
  actualAmount : Int
  refund : Int
  deriving DecidableEq, Repr

def accounting (stored : Option PoolSyncData) (timestamp : Nat) (hubAsset : HubAssetKey)
    (amount : Int) : Result Outcome := do
  requireNonnegAmount amount
  let cache ← syncedMarket stored timestamp hubAsset
  let applied := min amount (← Guards.backingShortfall cache)
  let refund ← orThrow (I128.checkedSub amount applied) .mathOverflow
  let cache ← cache.creditCash applied
  pure { cache, actualAmount := applied, refund }

end Recapitalize

/-! ## `ops/seize.rs` -/

namespace Seize

def apply (stored : Option PoolSyncData) (timestamp : Nat) (entry : PoolSeizeEntry) :
    Result Cache := do
  requireNonnegAmount entry.position.scaledAmount
  let cache ← syncedMarket stored timestamp entry.hubAsset
  let position := entry.position.scaledAmount
  match entry.side with
  | .borrow =>
    let badDebt ← cache.unscaleBorrowCeilRay position
    let cache ← Interest.applyBadDebtToSupplyIndex cache badDebt
    cache.burnDebt position
  | .deposit => cache.absorbSupplyAsRevenue position

end Seize

/-! ## `ops/market.rs` -/

namespace MarketOps

def create (stored : Option PoolSyncData) (timestamp : Nat) (params : MarketParams) :
    Result PoolSyncData := do
  params.verify
  require (stored = none) .assetAlreadySupported
  let now ← nowMs timestamp
  pure
    { params
      state :=
        { supplied := 0, borrowed := 0, revenue := 0, borrowIndex := ray, supplyIndex := ray,
          lastTimestamp := now, cash := 0 } }

/-- Accrues under the old model, then replaces and checks the model. -/
def replaceRateModel (stored : Option PoolSyncData) (timestamp : Nat) (hubAsset : HubAssetKey)
    (model : InterestRateModel) : Result PoolSyncData := do
  let market := (← syncedMarket stored timestamp hubAsset).commit
  let params := { market.params with toInterestRateModel := model }
  params.verify
  pure { market with params }

end MarketOps

/-- `get_bulk_indexes`: the indexes as of now, without storing them; `read` is the pool's
storage. -/
def getBulkIndexes (read : HubAssetKey → Option PoolSyncData) (timestamp : Nat)
    (hubAssets : List HubAssetKey) : Result (List MarketIndex) := do
  let now ← nowMs timestamp
  hubAssets.mapM fun hubAsset => do
    let sync ← orThrow (read hubAsset) .poolNotInitialized
    simulateUpdateIndexes now sync

end Lending
