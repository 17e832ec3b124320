import LendingXlm.Controller.Liquidation.Apply
import LendingXlm.Controller.Strategies

/-!
# The controller contract

`contracts/controller/src/{lib.rs,markets.rs,governance.rs,config}`: the operations on markets and
on the configuration, every entrypoint that writes, and the runs of the contract.

The host checks signatures and the owner before a body runs; here anyone may call anything. The
pool and the position NFT are deployed once, before the first call that needs them, and stand from
the start here. Entrypoints that only renew storage, hand over the ownership or replace the code are
left out, and so are the views.
-/

namespace Lending

open Ctrl

variable {W : Type} (h : ControllerHost W) (timestamp : Nat)

/-! ## `markets.rs` -/

namespace Markets

def createLiquidityPool (hubId : Nat) (asset : Address) (params : MarketParams) :
    Ctrl W Unit := do
  Context.requireHubActive hubId
  assertWithError (params.assetId = asset) .wrongToken
  poolCall fun pool => do
    return (← LiquidityPool.createMarket timestamp pool hubId params, ())

def poolUpdateIndexes (hubAssets : List HubAssetKey) : Ctrl W Unit :=
  poolCall fun pool => do return (← LiquidityPool.updateIndexes timestamp pool hubAssets, ())

def upgradeLiquidityPoolParams (hubAsset : HubAssetKey) (params : InterestRateModel) :
    Ctrl W Unit := do
  poolUpdateIndexes timestamp [hubAsset]
  poolCall fun pool => do
    return (← LiquidityPool.updateParams timestamp pool hubAsset params, ())

def updateIndexes (hubAssets : List HubAssetKey) : Ctrl W Unit := do
  Risk.requireAuthorizedCaller
  poolUpdateIndexes timestamp hubAssets

def claimRevenueForAsset (hubAsset : HubAssetKey) : Ctrl W Int := do
  let accumulator ← unwrapOr (← store).accumulator .noAccumulator
  let before := h.balance (← world) hubAsset.asset h.controller
  let _ ← poolCall fun pool => LiquidityPool.claimRevenue h.toPoolHost timestamp pool hubAsset
  let received ← Payments.balanceDeltaSince h hubAsset.asset h.controller before
  if received > 0 then
    let _ ← Payments.transferAmountMeasured h hubAsset.asset h.controller accumulator received
      .amountMustBePositive
    return received
  else
    return received

def claimRevenue (hubAssets : List HubAssetKey) : Ctrl W (List Int) := do
  Risk.requireAuthorizedCaller
  hubAssets.foldlM (fun results hubAsset => do
    return results ++ [← claimRevenueForAsset h timestamp hubAsset]) []

def recapitalize (payer : Address) (hubAsset : HubAssetKey) (amount : Int) : Ctrl W Int := do
  Risk.requireAuthorizedCaller
  requirePositiveAmount amount
  let received ← Payments.transferAmountMeasured h hubAsset.asset payer h.pool amount
    .amountMustBePositive
  poolCall fun pool =>
    LiquidityPool.recapitalize h.toPoolHost timestamp pool hubAsset payer received

end Markets

/-! ## `config` -/

namespace Config

/-- `common/src/validation.rs` -/
def validateRiskBounds (ltv threshold bonus : Nat) : Result Unit := do
  require (threshold > ltv ∧ (threshold : Int) ≤ bps) .invalidLiqThreshold
  require ((threshold : Int) * (bps + bonus) ≤ bps * bps) .invalidLiqThreshold

def validateLiquidationFees (fees : Nat) : Result Unit :=
  require ((fees : Int) < bps) .invalidLiqThreshold

def maxCapForDecimals (assetDecimals : Nat) : Int :=
  if assetDecimals > rayDecimals then 0 else i128Max / 10 ^ (rayDecimals - assetDecimals)

def requireCapWithinAssetDomain (cap : Int) (assetDecimals : Nat) : Result Unit := do
  require (assetDecimals ≤ rayDecimals) .assetDecimalsTooHigh
  require (cap ≤ maxCapForDecimals assetDecimals) .invalidBorrowParams

def validateLiquidationCurve (targetHfWad hfForMaxBonusWad : Int) (bonusFactorBps : Nat) :
    Result Unit := do
  require (targetHfWad > wad ∧ targetHfWad ≤ maxLiquidationTargetHfWad) .invalidLiquidationCurve
  require (hfForMaxBonusWad > 0 ∧ hfForMaxBonusWad < targetHfWad) .invalidLiquidationCurve
  require (bonusFactorBps > 0 ∧ (bonusFactorBps : Int) ≤ bps) .invalidLiquidationCurve

structure SpokeAssetArgs where
  hubId : Nat
  asset : Address
  spokeId : Nat
  canCollateral : Bool
  canBorrow : Bool
  ltv : Nat
  threshold : Nat
  bonus : Nat
  liquidationFees : Nat
  supplyCap : Int
  borrowCap : Int
  paused : Bool
  frozen : Bool
  noSeize : Bool

inductive SpokeAssetMutation where
  | add | edit
  deriving DecidableEq, Repr

def flags (config : SpokeAssetConfig) : Bool × Bool × Bool :=
  (config.paused, config.frozen, config.noSeize)

/-- Flags may stay or tighten. -/
def requireFlagRatchet (config : SpokeAssetConfig) (paused frozen noSeize : Bool) : Result Unit :=
  require ((paused ∨ ¬ config.paused) ∧ (frozen ∨ ¬ config.frozen) ∧
    (noSeize ∨ ¬ config.noSeize)) .spokeAssetFlagRelaxation

def getSpokeFlagsEpoch (s : ControllerStore) (key : SpokeAssetKey) : Nat :=
  (s.spokeFlagsEpoch.get? key).getD 0

def bumpSpokeFlagsEpoch (key : SpokeAssetKey) : Ctrl W Unit := do
  let next := getSpokeFlagsEpoch (← store) key + 1
  assertWithError (next < 2 ^ 64) .mathOverflow
  modifyStore fun s => { s with spokeFlagsEpoch := s.spokeFlagsEpoch.set key next }

def setSpokeAsset (key : SpokeAssetKey) (config : SpokeAssetConfig) : Ctrl W Unit :=
  modifyStore fun s => { s with spokeAssets := s.spokeAssets.set key config }

/-- What the listing was before: none for a new one. -/
def requireRegistration (args : SpokeAssetArgs) (key : SpokeAssetKey)
    (mutation : SpokeAssetMutation) : Ctrl W (Option SpokeAssetConfig) := do
  let s ← store
  let spoke ← s.getSpoke args.spokeId
  match mutation with
  | .add =>
    assertWithError (¬ spoke.isDeprecated) .spokeDeprecated
    assertWithError (s.spokeAssets.get? key = none) .assetAlreadyInSpoke
    return none
  | .edit =>
    let stored ← unwrapOr (s.spokeAssets.get? key) .assetNotInSpoke
    requireFlagRatchet stored args.paused args.frozen args.noSeize
    return some stored

def upsertSpokeAsset (args : SpokeAssetArgs) (mutation : SpokeAssetMutation) : Ctrl W Unit := do
  validateRiskBounds args.ltv args.threshold args.bonus
  validateLiquidationFees args.liquidationFees
  assertWithError (args.supplyCap ≥ 0 ∧ args.borrowCap ≥ 0) .invalidBorrowParams
  let hubAsset : HubAssetKey := ⟨args.hubId, args.asset⟩
  let key : SpokeAssetKey := ⟨args.spokeId, hubAsset⟩
  let stored ← requireRegistration args key mutation
  let market ← LiquidityPool.getSyncData (← get).pool hubAsset
  requireCapWithinAssetDomain args.supplyCap market.params.assetDecimals
  requireCapWithinAssetDomain args.borrowCap market.params.assetDecimals
  assertWithError (market.params.assetDecimals ≥ minBorrowableAssetDecimals ∨
    (¬ args.canBorrow ∧ args.liquidationFees = 0)) .invalidBorrowParams
  let config : SpokeAssetConfig :=
    { isCollateralizable := args.canCollateral
      isBorrowable := args.canBorrow
      paused := args.paused
      frozen := args.frozen
      noSeize := args.noSeize
      loanToValue := args.ltv
      liquidationThreshold := args.threshold
      liquidationBonus := args.bonus
      liquidationFees := args.liquidationFees
      supplyCap := args.supplyCap
      borrowCap := args.borrowCap }
  setSpokeAsset key config
  if stored.map flags ≠ some (flags config) then
    bumpSpokeFlagsEpoch key
  else
    return ()

def addAssetToSpoke (args : SpokeAssetArgs) : Ctrl W Unit := upsertSpokeAsset args .add

def editAssetInSpoke (args : SpokeAssetArgs) : Ctrl W Unit := upsertSpokeAsset args .edit

def writeSpokeAssetFlags (key : SpokeAssetKey) (config : SpokeAssetConfig)
    (paused frozen noSeize : Bool) : Ctrl W Unit := do
  setSpokeAsset key { config with paused, frozen, noSeize }
  bumpSpokeFlagsEpoch key

def setSpokeAssetFlags (spokeId : Nat) (hubAsset : HubAssetKey) (paused frozen noSeize : Bool) :
    Ctrl W Unit := do
  let config ← unwrapOr ((← store).getSpokeAsset spokeId hubAsset) .assetNotInSpoke
  requireFlagRatchet config paused frozen noSeize
  assertWithError ((paused, frozen, noSeize) ≠ flags config) .spokeAssetFlagsUnchanged
  writeSpokeAssetFlags ⟨spokeId, hubAsset⟩ config paused frozen noSeize

def relaxSpokeAssetFlags (spokeId : Nat) (hubAsset : HubAssetKey) (expectedEpoch : Nat)
    (paused frozen noSeize : Bool) : Ctrl W Unit := do
  let s ← store
  let config ← unwrapOr (s.getSpokeAsset spokeId hubAsset) .assetNotInSpoke
  assertWithError (getSpokeFlagsEpoch s ⟨spokeId, hubAsset⟩ = expectedEpoch)
    .spokeFlagsEpochMismatch
  writeSpokeAssetFlags ⟨spokeId, hubAsset⟩ config paused frozen noSeize

/-- Only a market without usage on either side can be delisted. -/
def removeAssetFromSpoke (hubAsset : HubAssetKey) (spokeId : Nat) : Ctrl W Unit := do
  let s ← store
  assertWithError ((s.getSpokeAsset spokeId hubAsset).isSome) .assetNotInSpoke
  let usage := (s.getSpokeUsage spokeId hubAsset).getD {}
  assertWithError (usage.suppliedScaledRay = 0 ∧ usage.borrowedScaledRay = 0) .spokeAssetInUse
  modifyStore fun s => { s with spokeAssets := s.spokeAssets.erase ⟨spokeId, hubAsset⟩ }

def setPositionLimits (limits : PositionLimits) : Ctrl W Unit := do
  assertWithError ((1 ≤ limits.maxSupplyPositions ∧ limits.maxSupplyPositions ≤ positionLimitMax) ∧
    1 ≤ limits.maxBorrowPositions ∧ limits.maxBorrowPositions ≤ positionLimitMax)
    .invalidPositionLimits
  modifyStore fun s => { s with positionLimits := limits }

def setMinBorrowCollateralUsd (floorWad : Int) : Ctrl W Unit := do
  assertWithError (floorWad ≥ 0) .invalidBorrowParams
  modifyStore fun s => { s with minBorrowCollateralUsd := floorWad }

/-- Inactive managers have no entry. -/
def setPositionManager (manager : Address) (isActive : Bool) : Ctrl W Unit :=
  modifyStore fun s =>
    { s with
      positionManagers :=
        if isActive then s.positionManagers.set manager true else s.positionManagers.erase manager }

def setBlendPoolApproval (pool : Address) (approved : Bool) : Ctrl W Unit :=
  modifyStore fun s =>
    { s with
      blendPools := if approved then s.blendPools.set pool true else s.blendPools.erase pool }

def createHub : Ctrl W Nat := do
  let id := (← store).lastHubId + 1
  assertWithError (id < u32Bound) .mathOverflow
  modifyStore fun s => { s with lastHubId := id, hubs := s.hubs.set id ⟨true⟩ }
  return id

def addSpoke : Ctrl W Nat := do
  let id := (← store).lastSpokeId + 1
  assertWithError (id < u32Bound) .mathOverflow
  let spoke : SpokeConfig :=
    { isDeprecated := false
      liquidationTargetHfWad := defaultLiquidationTargetHfWad
      hfForMaxBonusWad := defaultHfForMaxBonusWad
      liquidationBonusFactorBps := defaultLiquidationBonusFactorBps }
  modifyStore fun s => { s with lastSpokeId := id, spokes := s.spokes.set id spoke }
  return id

def removeSpoke (id : Nat) : Ctrl W Unit := do
  let spoke ← (← store).getSpoke id
  assertWithError (¬ spoke.isDeprecated) .spokeDeprecated
  modifyStore fun s => { s with spokes := s.spokes.set id { spoke with isDeprecated := true } }

def setSpokeLiquidationCurve (id : Nat) (targetHfWad hfForMaxBonusWad : Int)
    (liquidationBonusFactorBps : Nat) : Ctrl W Unit := do
  validateLiquidationCurve targetHfWad hfForMaxBonusWad liquidationBonusFactorBps
  let spoke ← (← store).getSpoke id
  let spoke := { spoke with
    liquidationTargetHfWad := targetHfWad
    hfForMaxBonusWad
    liquidationBonusFactorBps }
  modifyStore fun s => { s with spokes := s.spokes.set id spoke }

end Config

/-! ## `governance.rs` -/

namespace Governance

/-- The store after the constructor: widest limits, default floor, paused. -/
def init : ControllerStore where
  metas := .empty
  supplyPositions := .empty
  borrowPositions := .empty
  delegates := .empty
  hubs := .empty
  spokes := .empty
  spokeAssets := .empty
  spokeUsage := .empty
  spokeFlagsEpoch := .empty
  positionManagers := .empty
  blendPools := .empty
  positionLimits := ⟨positionLimitMax, positionLimitMax⟩
  minBorrowCollateralUsd := defaultMinBorrowCollateralUsdWad
  swapAggregator := none
  priceAggregator := none
  accumulator := none
  lastSpokeId := 0
  lastHubId := 0
  paused := true

def pause : Ctrl W Unit := do
  assertWithError (¬ (← store).paused) .enforcedPause
  modifyStore fun s => { s with paused := true }

def unpause : Ctrl W Unit := do
  assertWithError (← store).paused .expectedPause
  modifyStore fun s => { s with paused := false }

/-- `#[when_not_paused]` -/
def whenNotPaused {α : Type} (body : Ctrl W α) : Ctrl W α := do
  assertWithError (¬ (← store).paused) .enforcedPause
  body

end Governance

/-! ## Entrypoints -/

open Positions Liquidation Strategies Config Governance

/-- The calls that write, with their arguments. -/
inductive ControllerCall where
  | supply (caller : Address) (accountId spokeId : Nat) (assets : List HubPayment)
  | borrow (caller : Address) (accountId : Nat) (borrows : List HubPayment)
      (recipient : Option Address)
  | withdraw (caller : Address) (accountId : Nat) (withdrawals : List HubPayment)
      (recipient : Option Address)
  | repay (caller : Address) (accountId : Nat) (payments : List HubPayment)
  | liquidate (liquidator : Address) (accountId : Nat) (debtPayments : List HubPayment)
      (seizeMode : SeizeMode)
  | cleanBadDebt (accountId : Nat)
  | forceSocializeBadDebt (accountId : Nat)
  | flashLoan (caller : Address) (hubAsset : HubAssetKey) (amount : Int) (receiver : Address)
      (data : List UInt8)
  | flashPosition (caller : Address) (params : FlashPositionParams)
  | multiply (caller : Address) (params : MultiplyParams)
  | swapDebt (caller : Address) (params : SwapDebtParams)
  | swapCollateral (caller : Address) (params : SwapCollateralParams)
  | repayDebtWithCollateral (caller : Address) (params : RepayWithCollateralParams)
  | migrateFromBlend (caller : Address) (params : MigrateBlendParams)
  | updateIndexes (hubAssets : List HubAssetKey)
  | claimRevenue (hubAssets : List HubAssetKey)
  | updateAccountThreshold (hasRisks : Bool) (accountIds : List Nat)
  | recapitalize (payer : Address) (hubAsset : HubAssetKey) (amount : Int)
  | addDelegate (caller : Address) (accountId : Nat) (delegate : Address)
  | removeDelegate (caller : Address) (accountId : Nat) (delegate : Address)
  | createLiquidityPool (hubId : Nat) (asset : Address) (params : MarketParams)
  | upgradeLiquidityPoolParams (hubAsset : HubAssetKey) (params : InterestRateModel)
  | setSwapAggregator (addr : Address)
  | setPriceAggregator (addr : Address)
  | setAccumulator (addr : Address)
  | setPositionLimits (limits : PositionLimits)
  | setMinBorrowCollateralUsd (floorWad : Int)
  | setPositionManager (manager : Address) (isActive : Bool)
  | setBlendPoolApproval (pool : Address) (approved : Bool)
  | createHub
  | addSpoke
  | removeSpoke (id : Nat)
  | setSpokeLiquidationCurve (id : Nat) (targetHfWad hfForMaxBonusWad : Int)
      (liquidationBonusFactorBps : Nat)
  | addAssetToSpoke (args : SpokeAssetArgs)
  | editAssetInSpoke (args : SpokeAssetArgs)
  | setSpokeAssetFlags (spokeId : Nat) (hubAsset : HubAssetKey) (paused frozen noSeize : Bool)
  | relaxSpokeAssetFlags (spokeId : Nat) (hubAsset : HubAssetKey) (expectedEpoch : Nat)
      (paused frozen noSeize : Bool)
  | removeAssetFromSpoke (hubAsset : HubAssetKey) (spokeId : Nat)
  | pause
  | unpause

namespace ControllerCall

/-- The body of an entrypoint; what it returns is dropped. -/
def body : ControllerCall → Ctrl W Unit
  | supply caller accountId spokeId assets =>
    whenNotPaused do let _ ← processSupply h timestamp caller accountId spokeId assets
  | borrow caller accountId borrows recipient =>
    whenNotPaused (processBorrow h timestamp caller accountId borrows recipient)
  | withdraw caller accountId withdrawals recipient => do
    let _ ← processWithdraw h timestamp caller accountId withdrawals recipient
  | repay caller accountId payments => processRepay h timestamp caller accountId payments
  | liquidate liquidator accountId debtPayments seizeMode => do
    let _ ← processLiquidation h timestamp liquidator accountId debtPayments seizeMode
  | cleanBadDebt accountId => processCleanBadDebt h timestamp accountId
  | forceSocializeBadDebt accountId => processForceSocializeBadDebt h timestamp accountId
  | flashLoan caller hubAsset amount receiver data =>
    whenNotPaused (processFlashLoan h timestamp caller hubAsset amount receiver data)
  | flashPosition caller params =>
    whenNotPaused do let _ ← processFlashPosition h timestamp caller params
  | multiply caller params =>
    whenNotPaused do let _ ← processMultiply h timestamp caller params
  | swapDebt caller params => whenNotPaused (processSwapDebt h timestamp caller params)
  | swapCollateral caller params =>
    whenNotPaused (processSwapCollateral h timestamp caller params)
  | repayDebtWithCollateral caller params =>
    whenNotPaused (processRepayDebtWithCollateral h timestamp caller params)
  | migrateFromBlend caller params =>
    whenNotPaused do let _ ← processMigrateBlend h timestamp caller params
  | updateIndexes hubAssets => whenNotPaused (Markets.updateIndexes timestamp hubAssets)
  | claimRevenue hubAssets =>
    whenNotPaused do let _ ← Markets.claimRevenue h timestamp hubAssets
  | updateAccountThreshold hasRisks accountIds =>
    whenNotPaused (Risk.updateAccountThreshold h timestamp hasRisks accountIds)
  | recapitalize payer hubAsset amount => do
    let _ ← Markets.recapitalize h timestamp payer hubAsset amount
  | addDelegate caller accountId delegate =>
    whenNotPaused (Account.setAccountDelegate h caller accountId delegate true)
  | removeDelegate caller accountId delegate =>
    Account.setAccountDelegate h caller accountId delegate false
  | createLiquidityPool hubId asset params =>
    Markets.createLiquidityPool timestamp hubId asset params
  | upgradeLiquidityPoolParams hubAsset params =>
    Markets.upgradeLiquidityPoolParams timestamp hubAsset params
  | setSwapAggregator addr => modifyStore fun s => { s with swapAggregator := some addr }
  | setPriceAggregator addr => modifyStore fun s => { s with priceAggregator := some addr }
  | setAccumulator addr => modifyStore fun s => { s with accumulator := some addr }
  | setPositionLimits limits => Config.setPositionLimits limits
  | setMinBorrowCollateralUsd floorWad => Config.setMinBorrowCollateralUsd floorWad
  | setPositionManager manager isActive => Config.setPositionManager manager isActive
  | setBlendPoolApproval pool approved => Config.setBlendPoolApproval pool approved
  | createHub => do let _ ← Config.createHub
  | addSpoke => do let _ ← Config.addSpoke
  | removeSpoke id => Config.removeSpoke id
  | setSpokeLiquidationCurve id targetHfWad hfForMaxBonusWad liquidationBonusFactorBps =>
    Config.setSpokeLiquidationCurve id targetHfWad hfForMaxBonusWad liquidationBonusFactorBps
  | addAssetToSpoke args => Config.addAssetToSpoke args
  | editAssetInSpoke args => Config.editAssetInSpoke args
  | setSpokeAssetFlags spokeId hubAsset paused frozen noSeize =>
    Config.setSpokeAssetFlags spokeId hubAsset paused frozen noSeize
  | relaxSpokeAssetFlags spokeId hubAsset expectedEpoch paused frozen noSeize =>
    Config.relaxSpokeAssetFlags spokeId hubAsset expectedEpoch paused frozen noSeize
  | removeAssetFromSpoke hubAsset spokeId => Config.removeAssetFromSpoke hubAsset spokeId
  | pause => Governance.pause
  | unpause => Governance.unpause

/-- The state the body of a call ends in, whether it returned or trapped. -/
def ending (call : ControllerCall) (s : System W) : Invocation W :=
  Transaction.final (call.body h timestamp) { toSystem := s, cache := {} }

/-- A call on a fresh context; a trap drops everything it wrote. -/
def exec (call : ControllerCall) (s : System W) : Result (System W) :=
  match call.body h timestamp { toSystem := s, cache := {} } with
  | .ok _ s' => .ok s'.toSystem
  | .error e _ => .error e

end ControllerCall

/-! ## Runs -/

/-- The contracts as deployed: no market, no account, the NFT's counter at one. -/
def System.deployed (w : W) : System W where
  store := Governance.init
  nft := ⟨1, .empty⟩
  pool := ⟨.empty, w⟩
  flashLoanOngoing := false

/-- One step of a run: a call that returns, at a time no earlier than before, or anything that
happens outside the contracts. -/
inductive ControllerStep (h : ControllerHost W) : System W × Nat → System W × Nat → Prop
  | call {s s' : System W} {timestamp timestamp' : Nat} (call : ControllerCall)
      (hle : timestamp ≤ timestamp') (hexec : call.exec h timestamp' s = .ok s') :
      ControllerStep h (s, timestamp) (s', timestamp')
  | outside {s : System W} {timestamp : Nat} (w : W) :
      ControllerStep h (s, timestamp) ({ s with pool.world := w }, timestamp)

/-- Any number of steps. -/
abbrev ControllerSteps (h : ControllerHost W) := Relation.ReflTransGen (ControllerStep h)

/-- The systems a run can reach from deployment. -/
def System.Reachable (h : ControllerHost W) (s : System W) : Prop :=
  ∃ w timestamp timestamp', ControllerSteps h (.deployed w, timestamp) (s, timestamp')

end Lending
