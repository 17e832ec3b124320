import LendingXlm.Common.Rates

/-!
# The market cache

`contracts/pool/src/cache`, `guards.rs`, `interest.rs` and `time.rs`: the working copy of one
market during an operation. A `&mut Cache` method returns the new cache. The stored market is
the pair of its parameters and its state (`PoolSyncData`), `none` when it was never created;
storage lifetimes and events are left out.
-/

namespace Lending

open FpCore

structure Cache where
  hubAsset : HubAssetKey
  params : MarketParams
  lastTimestamp : Nat
  currentTimestamp : Nat
  supplied : Int
  borrowed : Int
  revenue : Int
  borrowIndex : Int
  supplyIndex : Int
  cash : Int
  deriving DecidableEq, Repr

/-- The ledger time (seconds) in milliseconds, as a `u64`. -/
def nowMs (timestamp : Nat) : Result Nat :=
  if timestamp * msPerSecond < 2 ^ 64 then pure (timestamp * msPerSecond) else throw .mathOverflow

namespace Cache

/-! ## `cache/mod.rs` -/

def ofMarket (hubAsset : HubAssetKey) (market : PoolSyncData) (now : Nat) : Cache where
  hubAsset := hubAsset
  params := market.params
  lastTimestamp := market.state.lastTimestamp
  currentTimestamp := now
  supplied := market.state.supplied
  borrowed := market.state.borrowed
  revenue := market.state.revenue
  borrowIndex := market.state.borrowIndex
  supplyIndex := market.state.supplyIndex
  cash := market.state.cash

/-- Loads the market `hubAsset`; `stored` is what storage holds under that key. -/
def load (stored : Option PoolSyncData) (hubAsset : HubAssetKey) (timestamp : Nat) :
    Result Cache := do
  let market ← orThrow stored .poolNotInitialized
  let now ← nowMs timestamp
  pure (ofMarket hubAsset market now)

/-- The market as written back to storage. -/
def commit (c : Cache) : PoolSyncData where
  params := c.params
  state :=
    { supplied := c.supplied
      borrowed := c.borrowed
      revenue := c.revenue
      borrowIndex := c.borrowIndex
      supplyIndex := c.supplyIndex
      lastTimestamp := c.lastTimestamp
      cash := c.cash }

def elapsedMs (c : Cache) : Nat := c.currentTimestamp - c.lastTimestamp

def needsAccrual (c : Cache) : Bool := decide (0 < c.elapsedMs)

def markAccrued (c : Cache) : Cache := { c with lastTimestamp := c.currentTimestamp }

/-! ## `cache/shares.rs` -/

def requireRevenueBacked (c : Cache) : Result Unit :=
  require (c.revenue ≤ c.supplied) .internalError

def mintSupply (c : Cache) (scaled : Int) : Result Cache := do
  pure { c with supplied := ← Ray.checkedAdd c.supplied scaled }

def burnSupply (c : Cache) (scaled : Int) : Result Cache := do
  let c := { c with supplied := ← Ray.checkedSub c.supplied scaled }
  c.requireRevenueBacked
  pure c

def mintDebt (c : Cache) (scaled : Int) : Result Cache := do
  pure { c with borrowed := ← Ray.checkedAdd c.borrowed scaled }

def burnDebt (c : Cache) (scaled : Int) : Result Cache := do
  pure { c with borrowed := ← Ray.checkedSub c.borrowed scaled }

/-- Mints protocol revenue shares; they are part of the supply. -/
def accrueRevenue (c : Cache) (scaled : Int) : Result Cache := do
  let revenue ← Ray.checkedAdd c.revenue scaled
  let supplied ← Ray.checkedAdd c.supplied scaled
  pure { c with revenue, supplied }

/-- Reclassifies supply shares as protocol revenue. -/
def absorbSupplyAsRevenue (c : Cache) (scaled : Int) : Result Cache := do
  let c := { c with revenue := ← Ray.checkedAdd c.revenue scaled }
  c.requireRevenueBacked
  pure c

/-! ## `cache/scale.rs` -/

def calculateScaledSupply (c : Cache) (amount : Int) : Result Int :=
  Lending.calculateScaledSupply amount c.params.assetDecimals c.supplyIndex

def calculateScaledBorrow (c : Cache) (amount : Int) : Result Int :=
  Lending.calculateScaledBorrow amount c.params.assetDecimals c.borrowIndex

def unscaleSupplyFloor (c : Cache) (scaled : Int) : Result Int :=
  Lending.unscaleSupplyFloor scaled c.supplyIndex c.params.assetDecimals

def unscaleBorrowCeilRay (c : Cache) (scaled : Int) : Result Int :=
  Ray.mulCeil scaled c.borrowIndex

def resolveWithdrawal (c : Cache) (amount posScaled : Int) : Result (Int × Int) :=
  Lending.resolveWithdrawal amount posScaled c.supplyIndex c.params.assetDecimals

def resolveRepay (c : Cache) (amount posScaled : Int) : Result (Int × Int) :=
  Lending.resolveRepay amount posScaled c.borrowIndex c.params.assetDecimals

def resolveNetSettle (c : Cache) (amount supplyScaled debtScaled : Int) :
    Result (Int × Int × Int) :=
  Lending.resolveNetSettle amount supplyScaled debtScaled c.supplyIndex c.borrowIndex
    c.params.assetDecimals

/-- Burns the revenue that cash can pay for and returns the tokens it is worth. -/
def burnClaimableRevenue (c : Cache) : Result (Cache × Int) := do
  let treasuryActual ← c.unscaleSupplyFloor c.revenue
  let amount := min c.cash treasuryActual
  if amount ≤ 0 then
    return (c, 0)
  let scaledToBurn ←
    (if amount ≥ treasuryActual then pure c.revenue
    else Ray.mulRatioCeil c.revenue amount treasuryActual)
  require (scaledToBurn ≠ Ray.zero) .internalError
  let revenue ← Ray.checkedSub c.revenue scaledToBurn
  let supplied ← Ray.checkedSub c.supplied scaledToBurn
  return ({ c with revenue, supplied }, amount)

/-! ## `cache/cash.rs` -/

def requireReserves (c : Cache) (amount : Int) : Result Unit :=
  require (c.cash ≥ amount) .insufficientLiquidity

def creditCash (c : Cache) (amount : Int) : Result Cache := do
  requireNonnegAmount amount
  pure { c with cash := ← orThrow (I128.checkedAdd c.cash amount) .mathOverflow }

def debitCash (c : Cache) (amount : Int) : Result Cache := do
  requireNonnegAmount amount
  c.requireReserves amount
  pure { c with cash := ← orThrow (I128.checkedSub c.cash amount) .mathOverflow }

/-! ## `cache/report.rs` -/

def marketIndex (c : Cache) : MarketIndex where
  borrowIndex := c.borrowIndex
  supplyIndex := c.supplyIndex

def positionMutation (c : Cache) (scaled actualAmount : Int) : PoolPositionMutation where
  position := ⟨scaled⟩
  marketIndex := c.marketIndex
  actualAmount := actualAmount
  assetDecimals := c.params.assetDecimals

def strategyMutation (c : Cache) (scaled actualAmount amountReceived : Int) :
    PoolStrategyMutation where
  position := ⟨scaled⟩
  marketIndex := c.marketIndex
  actualAmount := actualAmount
  amountReceived := amountReceived
  assetDecimals := c.params.assetDecimals

end Cache

/-! ## `guards.rs` -/

namespace Guards

/-- Ceiled debt value over floored supply value, rounded up, against `maxUtilization`. -/
def requireUtilizationBelowMax (c : Cache) : Result Unit := do
  if c.supplied = Ray.zero ∨ c.params.maxUtilization ≥ Ray.one then
    return ()
  let borrowed ← Ray.mulCeil c.borrowed c.borrowIndex
  if borrowed = Ray.zero then
    return ()
  let supplied ← Ray.mulFloor c.supplied c.supplyIndex
  if supplied > Ray.zero then
    require ((← Ray.divCeil borrowed supplied) ≤ c.params.maxUtilization) .utilizationAboveMax
  else
    throw .utilizationAboveMax

def requireLiquidationBuffer (c : Cache) (draw : Int) : Result Unit := do
  let supplied ← c.unscaleSupplyFloor c.supplied
  let reserved ← mulDivCeil supplied liquidationBufferBps bps
  require (I128.saturatingSub c.cash draw ≥ reserved) .insufficientLiquidity

/-- Token units by which supplier claims exceed cash plus debt, zero for a solvent market. -/
def backingShortfall (c : Cache) : Result Int := do
  let claims ← Ray.mulFloor c.supplied c.supplyIndex
  let debt ← c.unscaleBorrowCeilRay c.borrowed
  if claims ≤ debt then
    return 0
  let uncovered ← Ray.toAssetFloor (← Ray.checkedSub claims debt) c.params.assetDecimals
  return max (I128.saturatingSub uncovered c.cash) 0

def requireBackedMarket (c : Cache) : Result Unit := do
  require ((← backingShortfall c) = 0) .poolInsolvent

def requireSupplyForDebt (c : Cache) : Result Unit :=
  if c.supplied = Ray.zero ∧ c.borrowed ≠ Ray.zero then throw .poolInsolvent else pure ()

end Guards

/-! ## `interest.rs` -/

namespace Interest

/-- One compound step of `deltaMs`: the indexes move and the protocol's shares are minted. -/
def accrueChunk (c : Cache) (deltaMs : Nat) : Result Cache := do
  let step ← accrueStep c.params c.borrowed c.supplied c.borrowIndex c.supplyIndex deltaMs
  let c := { c with borrowIndex := step.borrowIndex, supplyIndex := step.supplyIndex }
  c.accrueRevenue step.revenueShares

/-- Accrues from `lastTimestamp` to the cache's current time. -/
def globalSync (c : Cache) : Result Cache := do
  if ¬ c.needsAccrual then
    return c
  let c ← (chunks c.elapsedMs).foldlM accrueChunk c
  return c.markAccrued

/-- Mints a ray fee as revenue shares, rounded down. -/
def addProtocolRevenue (c : Cache) (fee : Int) : Result Cache := do
  if fee = Ray.zero then
    return c
  let feeScaled ← protocolFeeShares fee c.supplyIndex c.supplied
  c.accrueRevenue feeScaled

/-- The supply index after `badDebt` is written off against the suppliers, before the floor:
`none` when there is nothing supplied to write it off against. -/
def writtenDownIndex (c : Cache) (badDebt : Int) : Result (Option Int) := do
  let totalSuppliedValue ← Ray.mul c.supplied c.supplyIndex
  if totalSuppliedValue = Ray.zero then
    return none
  let capped := min badDebt totalSuppliedValue
  let remaining ← Ray.checkedSub totalSuppliedValue capped
  let reductionFactor ← Ray.divFloor remaining totalSuppliedValue
  return some (← Ray.mulFloor c.supplyIndex reductionFactor)

/-- Socializes `badDebt` onto the supply index, which is floored at `supplyIndexFloorRaw`. -/
def applyBadDebtToSupplyIndex (c : Cache) (badDebt : Int) : Result Cache := do
  match ← writtenDownIndex c badDebt with
  | none => return c
  | some newSupplyIndex => return { c with supplyIndex := max newSupplyIndex supplyIndexFloorRaw }

end Interest

end Lending
