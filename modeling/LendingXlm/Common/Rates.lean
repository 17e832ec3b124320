import LendingXlm.Common.Types

/-!
# Rates, indexes and scaling

`common/src/rates`: the borrow-rate curve, the compounding factor, the index updates with the
split of the accrued interest, the conversions between token amounts and shares, and one
accrual step with the read-only projection built on it.
-/

namespace Lending

open FpCore

/-! ## `curve.rs` -/

/-- The annual borrow rate on the three-segment curve, at most `maxBorrowRate`. -/
def calculateAnnualBorrowRate (utilization : Int) (params : MarketParams) : Result Int := do
  let utilization := if utilization > Ray.one then Ray.one else utilization
  let annualRate ←
    (if utilization < params.midUtilization then do
      let contribution ← Ray.div (← Ray.mul utilization params.slope1) params.midUtilization
      Ray.checkedAdd params.baseBorrowRate contribution
    else if utilization < params.optimalUtilization then do
      let excess ← Ray.checkedSub utilization params.midUtilization
      let range ← Ray.checkedSub params.optimalUtilization params.midUtilization
      let contribution ← Ray.div (← Ray.mul excess params.slope2) range
      Ray.checkedAdd (← Ray.checkedAdd params.baseBorrowRate params.slope1) contribution
    else do
      let baseRate ← Ray.checkedAdd (← Ray.checkedAdd params.baseBorrowRate params.slope1)
        params.slope2
      let excess ← Ray.checkedSub utilization params.optimalUtilization
      let range ← Ray.checkedSub Ray.one params.optimalUtilization
      let contribution ← Ray.div (← Ray.mul excess params.slope3) range
      Ray.checkedAdd baseRate contribution)
  pure (if annualRate > params.maxBorrowRate then params.maxBorrowRate else annualRate)

/-- The per-millisecond borrow rate. -/
def calculateBorrowRate (utilization : Int) (params : MarketParams) : Result Int := do
  Ray.divByInt (← calculateAnnualBorrowRate utilization params) millisecondsPerYear

/-- `borrowed / supplied`, zero for an empty market. -/
def utilization (borrowed supplied : Int) : Result Int :=
  if supplied = Ray.zero then pure Ray.zero else Ray.div borrowed supplied

/-! ## `compound.rs` -/

def maxCompoundDeltaMs : Nat := millisecondsPerYear

/-- The Taylor divisors of the second to the eighth term of `e^x`. -/
def taylorDivisors : List Int := [2, 6, 24, 120, 720, 5040, 40320]

/-- One term of the series: the running `(sum, pow)` and the next factorial. -/
def taylorTerm (x : Int) (acc : Int × Int) (divisor : Int) : Result (Int × Int) := do
  let pow ← Ray.mul acc.2 x
  let sum ← Ray.checkedAdd acc.1 (← Ray.divByInt pow divisor)
  pure (sum, pow)

/-- The growth factor `e^(rate * deltaMs)` through the eighth-order term. -/
def compoundInterest (rate : Int) (deltaMs : Nat) : Result Int := do
  if deltaMs = 0 then
    return Ray.one
  let x ← toI128 (rate * deltaMs)
  let sum ← Ray.checkedAdd Ray.one x
  let acc ← taylorDivisors.foldlM (taylorTerm x) (sum, x)
  return acc.1

/-! ## `index.rs` -/

def updateBorrowIndex (oldIndex interestFactor : Int) : Result Int := do
  let newIndex ← Ray.mul oldIndex interestFactor
  pure (if newIndex > maxBorrowIndexRay then maxBorrowIndexRay else newIndex)

/-- Distributes `rewardsIncrease` over the supplied value; never lowers the index. -/
def updateSupplyIndex (supplied oldIndex rewardsIncrease : Int) : Result Int := do
  if supplied = Ray.zero ∨ rewardsIncrease = Ray.zero then
    return oldIndex
  let totalSuppliedValue ← Ray.mul supplied oldIndex
  if totalSuppliedValue = Ray.zero then
    return oldIndex
  let newValue ← Ray.checkedAdd totalSuppliedValue rewardsIncrease
  let grown ← mulDivFloorSaturating newValue ray supplied
  let boundedOld := min oldIndex maxSupplyIndexRay
  return max (min grown maxSupplyIndexRay) boundedOld

/-- The rewards that the move from `oldIndex` to `newIndex` did not distribute. -/
def supplyIndexRewardShortfall (supplied oldIndex newIndex rewardsIncrease : Int) :
    Result Int := do
  let distributed ← Ray.checkedSub (← Ray.mul supplied newIndex) (← Ray.mul supplied oldIndex)
  Ray.checkedSub rewardsIncrease distributed

/-- The interest accrued between two borrow indexes, split into supplier rewards and protocol
fee. -/
def calculateSupplierRewards (params : MarketParams) (borrowed newBorrowIndex oldBorrowIndex : Int) :
    Result (Int × Int) := do
  let oldTotalDebt ← Ray.mul borrowed oldBorrowIndex
  let newTotalDebt ← Ray.mul borrowed newBorrowIndex
  let accruedInterest ← Ray.checkedSub newTotalDebt oldTotalDebt
  let protocolFee ← Bps.applyToRay params.reserveFactor accruedInterest
  let supplierRewards ← Ray.checkedSub accruedInterest protocolFee
  pure (supplierRewards, protocolFee)

/-- The shares worth `fee` at `supplyIndex`, capped at the headroom of `supplied`. -/
def protocolFeeShares (fee supplyIndex supplied : Int) : Result Int := do
  let raw ← mulDivFloorSaturating fee ray supplyIndex
  let headroom := I128.saturatingSub i128Max supplied
  pure (min raw headroom)

/-! ## `scaling.rs` -/

def scaledToOriginal (scaled index : Int) : Result Int := Ray.mul scaled index

def calculateScaledCap (cap : Int) (decimals : Nat) (index : Int) : Result Int := do
  mulDivFloorSaturating (← Ray.fromAsset cap decimals) ray index

def calculateScaledSupply (amount : Int) (decimals : Nat) (supplyIndex : Int) : Result Int := do
  Ray.divFloor (← Ray.fromAsset amount decimals) supplyIndex

def calculateScaledSupplyCeil (amount : Int) (decimals : Nat) (supplyIndex : Int) :
    Result Int := do
  Ray.divCeil (← Ray.fromAsset amount decimals) supplyIndex

def calculateScaledBorrow (amount : Int) (decimals : Nat) (borrowIndex : Int) : Result Int := do
  Ray.divCeil (← Ray.fromAsset amount decimals) borrowIndex

def calculateScaledBorrowFloor (amount : Int) (decimals : Nat) (borrowIndex : Int) :
    Result Int := do
  Ray.divFloor (← Ray.fromAsset amount decimals) borrowIndex

def unscaleSupply (scaled supplyIndex : Int) (decimals : Nat) : Result Int := do
  Ray.toAsset (← scaledToOriginal scaled supplyIndex) decimals

def unscaleSupplyFloor (scaled supplyIndex : Int) (decimals : Nat) : Result Int := do
  Ray.toAssetFloor (← Ray.mulFloor scaled supplyIndex) decimals

def unscaleBorrowCeil (scaled borrowIndex : Int) (decimals : Nat) : Result Int := do
  Ray.toAssetCeil (← Ray.mulCeil scaled borrowIndex) decimals

/-- Shares burned and tokens paid for a withdrawal of `amount`. -/
def resolveWithdrawal (amount posScaled supplyIndex : Int) (decimals : Nat) :
    Result (Int × Int) := do
  let currentSupplyActual ← unscaleSupply posScaled supplyIndex decimals
  let currentSupplyFloor ← unscaleSupplyFloor posScaled supplyIndex decimals
  if amount ≥ currentSupplyActual then
    return (posScaled, currentSupplyFloor)
  return (← calculateScaledSupplyCeil amount decimals supplyIndex, amount)

/-- Supply burned, debt burned and tokens settled when a position's supply is offset against
its debt of the same asset. -/
def resolveNetSettle (amount supplyScaled debtScaled supplyIndex borrowIndex : Int)
    (decimals : Nat) : Result (Int × Int × Int) := do
  let supplyFloor ← unscaleSupplyFloor supplyScaled supplyIndex decimals
  let debtCeil ← unscaleBorrowCeil debtScaled borrowIndex decimals
  let settle := min (min amount supplyFloor) debtCeil
  if settle ≤ 0 then
    return (Ray.zero, Ray.zero, 0)
  let burnedSupply ←
    (if settle = supplyFloor then pure supplyScaled
    else do pure (min (← calculateScaledSupplyCeil settle decimals supplyIndex) supplyScaled))
  let burnedDebt ←
    (if settle = debtCeil then pure debtScaled
    else do pure (min (← calculateScaledBorrowFloor settle decimals borrowIndex) debtScaled))
  return (burnedSupply, burnedDebt, settle)

/-- Debt shares burned and tokens left over when `amount` is repaid. -/
def resolveRepay (amount posScaled borrowIndex : Int) (decimals : Nat) : Result (Int × Int) := do
  let currentDebtCeil ← unscaleBorrowCeil posScaled borrowIndex decimals
  if amount ≥ currentDebtCeil then
    return (posScaled, ← orThrow (I128.checkedSub amount currentDebtCeil) .mathOverflow)
  else
    return (← calculateScaledBorrowFloor amount decimals borrowIndex, 0)

/-! ## `value.rs` -/

def positionValue (scaled index price : Int) : Result Int := do
  let actual ← Ray.mul scaled index
  let actualWad ← Ray.toWad actual
  Wad.mul actualWad price

def positionValueFloor (scaled index price : Int) : Result Int := do
  let actual ← Ray.mulFloor scaled index
  let actualWad ← Ray.toWadFloor actual
  Wad.mulFloor actualWad price

def positionValueCeil (scaled index price : Int) : Result Int := do
  let actual ← Ray.mulCeil scaled index
  let actualWad ← Ray.toWadCeil actual
  Wad.mulCeil actualWad price

/-! ## `simulate.rs` -/

structure AccrualStep where
  borrowIndex : Int
  supplyIndex : Int
  revenueShares : Int
  deriving DecidableEq, Repr

/-- One compounding step of `deltaMs` over a market snapshot. -/
def accrueStep (params : MarketParams) (borrowed supplied borrowIndex supplyIndex : Int)
    (deltaMs : Nat) : Result AccrualStep := do
  let borrowedOriginal ← scaledToOriginal borrowed borrowIndex
  let suppliedOriginal ← scaledToOriginal supplied supplyIndex
  let util ← utilization borrowedOriginal suppliedOriginal
  let borrowRate ← calculateBorrowRate util params
  let interestFactor ← compoundInterest borrowRate deltaMs
  let newBorrowIndex ← updateBorrowIndex borrowIndex interestFactor
  let (supplierRewards, protocolFee) ←
    calculateSupplierRewards params borrowed newBorrowIndex borrowIndex
  let newSupplyIndex ← updateSupplyIndex supplied supplyIndex supplierRewards
  let supplierShortfall ←
    supplyIndexRewardShortfall supplied supplyIndex newSupplyIndex supplierRewards
  let protocolReward ← Ray.checkedAdd protocolFee supplierShortfall
  let revenueShares ←
    (if protocolReward = Ray.zero then pure Ray.zero
    else protocolFeeShares protocolReward newSupplyIndex supplied)
  return { borrowIndex := newBorrowIndex, supplyIndex := newSupplyIndex, revenueShares }

/-- The chunk lengths the accrual loops run through, `remaining` being an upper bound for
their number. -/
def chunksFrom : (fuel remaining : Nat) → List Nat
  | 0, _ => []
  | fuel + 1, remaining =>
    if remaining = 0 then []
    else
      let chunk := min remaining maxCompoundDeltaMs
      chunk :: chunksFrom fuel (remaining - chunk)

/-- An interval split into compounding steps of at most `maxCompoundDeltaMs`. -/
def chunks (elapsed : Nat) : List Nat := chunksFrom elapsed elapsed

/-- The running values of the projection: `(supplied, borrowIndex, supplyIndex)`. -/
structure Projection where
  supplied : Int
  borrowIndex : Int
  supplyIndex : Int
  deriving DecidableEq, Repr

def simulateChunk (params : MarketParams) (borrowed : Int) (p : Projection) (chunk : Nat) :
    Result Projection := do
  let step ← accrueStep params borrowed p.supplied p.borrowIndex p.supplyIndex chunk
  let supplied ← Ray.checkedAdd p.supplied step.revenueShares
  return { supplied, borrowIndex := step.borrowIndex, supplyIndex := step.supplyIndex }

/-- `simulate_update_indexes`: the indexes as of `currentTimestamp`, without storing them. -/
def simulateUpdateIndexes (currentTimestamp : Nat) (sync : PoolSyncData) :
    Result MarketIndex := do
  let state := sync.state
  let totalDeltaMs := currentTimestamp - state.lastTimestamp
  if totalDeltaMs = 0 then
    return { supplyIndex := state.supplyIndex, borrowIndex := state.borrowIndex }
  let p ← (chunks totalDeltaMs).foldlM (simulateChunk sync.params state.borrowed)
    { supplied := state.supplied, borrowIndex := state.borrowIndex,
      supplyIndex := state.supplyIndex }
  return { supplyIndex := p.supplyIndex, borrowIndex := p.borrowIndex }

/-! ## The chunks of an interval -/

theorem maxCompoundDeltaMs_pos : 0 < maxCompoundDeltaMs := by decide

/-- Fuel that covers the interval is enough: the loop stops because nothing remains. -/
theorem chunksFrom_sum {fuel remaining : Nat} (h : remaining ≤ fuel) :
    (chunksFrom fuel remaining).sum = remaining := by
  induction fuel generalizing remaining with
  | zero =>
    simp only [chunksFrom, List.sum_nil]
    omega
  | succ fuel ih =>
    unfold chunksFrom
    have hpos := maxCompoundDeltaMs_pos
    split
    · simp_all
    · rw [List.sum_cons, ih (by omega)]
      omega

theorem chunks_sum (elapsed : Nat) : (chunks elapsed).sum = elapsed :=
  chunksFrom_sum le_rfl

theorem chunksFrom_mem {fuel remaining chunk : Nat} (h : chunk ∈ chunksFrom fuel remaining) :
    0 < chunk ∧ chunk ≤ maxCompoundDeltaMs := by
  induction fuel generalizing remaining with
  | zero => simp [chunksFrom] at h
  | succ fuel ih =>
    have hpos := maxCompoundDeltaMs_pos
    unfold chunksFrom at h
    split at h
    · simp at h
    · rcases List.mem_cons.mp h with rfl | h
      · omega
      · exact ih h

theorem chunks_mem {elapsed chunk : Nat} (h : chunk ∈ chunks elapsed) :
    0 < chunk ∧ chunk ≤ maxCompoundDeltaMs :=
  chunksFrom_mem h

@[simp] theorem chunks_zero : chunks 0 = [] := rfl

/-- A gap within the limit is one chunk. -/
theorem chunks_single {elapsed : Nat} (hpos : 0 < elapsed) (hle : elapsed ≤ maxCompoundDeltaMs) :
    chunks elapsed = [elapsed] := by
  obtain ⟨fuel, rfl⟩ := Nat.exists_eq_succ_of_ne_zero hpos.ne'
  have htail : ∀ fuel, chunksFrom fuel 0 = [] := by
    intro fuel
    cases fuel <;> rfl
  simp only [chunks, chunksFrom, min_eq_left hle, Nat.sub_self, htail, Nat.succ_ne_zero, if_false]

end Lending
