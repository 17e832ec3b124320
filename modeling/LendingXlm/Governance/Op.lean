import LendingXlm.Governance.Access

/-!
# The admin operations

`contracts/governance/src/validate` and `op.rs`: the checks on an operation's arguments, and the
call it stands for.
-/

namespace Lending.Gov

/-! ## `validate/` -/

def requireNonzeroWasmHash (hash : Bytes32) : GovResult Unit :=
  assertWithError (hash ≠ 0) .invalidWasmHash

def requireNonzeroDelay (delay : Nat) : GovResult Unit :=
  assertWithError (delay ≠ 0) .invalidTimelockDelay

def validatePositionLimits (limits : PositionLimits) : GovResult Unit :=
  assertWithError
    ((1 ≤ limits.maxSupplyPositions ∧ limits.maxSupplyPositions ≤ positionLimitMax) ∧
      1 ≤ limits.maxBorrowPositions ∧ limits.maxBorrowPositions ≤ positionLimitMax)
    (.common .invalidPositionLimits)

def validateMarketCreation (asset : Address) (params : MarketParams) (tokenDecimals : Nat) :
    GovResult Unit := do
  assertWithError (params.assetId = asset) (.common .wrongToken)
  assertWithError (params.assetDecimals = tokenDecimals) (.common .invalidAsset)
  assertWithError (minAssetDecimals ≤ params.assetDecimals ∧
    params.assetDecimals ≤ maxAssetDecimals) (.common .invalidAsset)
  params.verify

def validateSpokeCapArgs (supplyCap borrowCap : Int) : GovResult Unit :=
  assertWithError (supplyCap ≥ 0 ∧ borrowCap ≥ 0) (.common .invalidBorrowParams)

def bpsI128ToU32 (v : Int) : GovResult Nat := do
  assertWithError (0 ≤ v ∧ v ≤ u32Max) (.common .mathOverflow)
  return v.toNat

def calculateToleranceRange (toleranceBps : Nat) : GovResult (Int × Int) := do
  let upperBound ← orThrow (I128.checkedAdd bps toleranceBps) (.common .mathOverflow)
  let lowerBound ← FpCore.mulDivHalfUp bps bps upperBound
  return (upperBound, lowerBound)

def validateAndCalculateTolerances (tolerance : Nat) : GovResult OracleTolerance := do
  assertWithError (minTolerance ≤ tolerance ∧ tolerance ≤ maxTolerance)
    (.oracle .badLastTolerance)
  let (upper, lower) ← calculateToleranceRange tolerance
  return ⟨← bpsI128ToU32 upper, ← bpsI128ToU32 lower⟩

def validateSpokeAsset (args : SpokeAssetArgs) : GovResult Unit := do
  Config.validateRiskBounds args.ltv args.threshold args.bonus
  Config.validateLiquidationFees args.liquidationFees
  validateSpokeCapArgs args.supplyCap args.borrowCap

variable {Id T A W : Type} (g : GovernanceEnv Id T A W)

def requireContractAddress (w : W) (addr : Address) (e : GovernanceError) : GovResult Unit :=
  assertWithError (g.isWasmContract w addr = true) e

def validateAndFetchTokenDecimals (w : W) (token : Address) : GovResult Nat := do
  let decimals ← orThrow (g.tryDecimals w token) (GovernanceError.common .invalidAsset)
  assertWithError ((g.trySymbol w token).isSome = true) (.common .invalidAsset)
  return decimals

/-- The decimals of the stored oracle, if any. -/
def listedTokenDecimals (s : GovernanceState Id T A W) (token : Address) (tokenDecimals : Nat) :
    GovResult Nat :=
  match s.priceAggregator with
  | none => return tokenDecimals
  | some aggregator => do
    let oracle ← g.oracle s.world aggregator (.token token)
    return oracle.elim tokenDecimals (·.assetDecimals)

/-! ## `op.rs` -/

def resolveOracle (s : GovernanceState Id T A W) (key : PriceKey) (oracle : AssetOracle) :
    GovResult AssetOracle := do
  let assetDecimals ← match key with
    | .token asset => do
      let tokenDecimals ← validateAndFetchTokenDecimals g s.world asset
      listedTokenDecimals g s asset tokenDecimals
    | .ref _ => .ok 0
  return { oracle with assetDecimals }

/-- The call an admin operation stands for, and its delay tier. -/
structure ResolvedOperation where
  target : Address
  function : String
  args : List Val
  delayTier : DelayTier
  deriving DecidableEq

def controllerOperation (s : GovernanceState Id T A W) (function : String) (args : List Val) :
    GovResult ResolvedOperation :=
  return ⟨← s.getController, function, args, .standard⟩

def sensitiveControllerOperation (s : GovernanceState Id T A W) (function : String)
    (args : List Val) : GovResult ResolvedOperation :=
  return { ← controllerOperation s function args with delayTier := .sensitive }

def priceAggregatorOperation (s : GovernanceState Id T A W) (function : String)
    (args : List Val) : GovResult ResolvedOperation :=
  return ⟨← s.getPriceAggregator, function, args, .standard⟩

def sensitivePriceAggregatorOperation (s : GovernanceState Id T A W) (function : String)
    (args : List Val) : GovResult ResolvedOperation :=
  return { ← priceAggregatorOperation s function args with delayTier := .sensitive }

def selfOperation (function : String) (args : List Val) (delayTier : DelayTier) :
    GovResult ResolvedOperation :=
  return ⟨g.currentContractAddress, function, args, delayTier⟩

/-- `timelock::validate_delay_update`: an increase, or a decrease that stays above the floor. -/
def validateDelayUpdate (t : T) (newDelay : Nat) : GovResult Unit := do
  requireNonzeroDelay newDelay
  assertWithError (newDelay ≤ timelockMaxDelayLedgers ∧
    (newDelay ≥ g.timelock.getMinDelay t ∨ newDelay ≥ timelockMinDelayLedgers))
    .invalidTimelockDelay

def resolveOp (s : GovernanceState Id T A W) : AdminOperation → GovResult ResolvedOperation
  | .upgradeGov hash => do
    requireNonzeroWasmHash hash
    selfOperation g "upgrade" [.bytesN hash] .sensitive
  | .updateGovDelay newDelay => do
    validateDelayUpdate g s.timelock newDelay
    selfOperation g "update_delay" [.u32 newDelay] .standard
  | .grantGovRole args => do
    requireKnownGovernanceRole args.role
    selfOperation g "grant_role" [.address args.account, .symbol args.role] .sensitive
  | .revokeGovRole args => do
    requireKnownGovernanceRole args.role
    selfOperation g "revoke_role" [.address args.account, .symbol args.role] .sensitive
  | .transferGovOwnership args =>
    selfOperation g "transfer_ownership" [.address args.newOwner, .u32 args.liveUntilLedger]
      .sensitive
  | .setSwapAggregator addr => do
    requireContractAddress g s.world addr .invalidAggregator
    sensitiveControllerOperation s "set_swap_aggregator" [.address addr]
  | .setPriceAggregator addr => do
    requireContractAddress g s.world addr .invalidAggregator
    selfOperation g "set_price_aggregator" [.address addr] .sensitive
  | .setAccumulator addr => controllerOperation s "set_accumulator" [.address addr]
  | .setPositionLimits limits => do
    validatePositionLimits limits
    controllerOperation s "set_position_limits" [.positionLimits limits]
  | .setMinBorrowCollateralUsd floorWad => do
    assertWithError (floorWad ≥ 0) (.common .invalidBorrowParams)
    controllerOperation s "set_min_borrow_collateral_usd" [.i128 floorWad]
  | .createHub => controllerOperation s "create_hub" []
  | .addSpoke => controllerOperation s "add_spoke" []
  | .removeSpoke id => controllerOperation s "remove_spoke" [.u32 id]
  | .addAssetToSpoke args => do
    validateSpokeAsset args
    controllerOperation s "add_asset_to_spoke" [.spokeAsset args]
  | .editAssetInSpoke args => do
    validateSpokeAsset args
    controllerOperation s "edit_asset_in_spoke" [.spokeAsset args]
  | .removeAssetFromSpoke args =>
    controllerOperation s "remove_asset_from_spoke" [.hubAsset args.hubAsset, .u32 args.spokeId]
  | .relaxSpokeAssetFlags args => do
    let epoch ← g.getSpokeAssetFlagsEpoch s.world (← s.getController) args.spokeId args.hubAsset
    assertWithError (epoch = args.expectedEpoch) (.common .spokeFlagsEpochMismatch)
    controllerOperation s "relax_spoke_asset_flags"
      [.u32 args.spokeId, .hubAsset args.hubAsset, .u64 args.expectedEpoch, .bool args.paused,
        .bool args.frozen, .bool args.noSeize]
  | .approveBlendPool pool => do
    requireContractAddress g s.world pool .notSmartContract
    controllerOperation s "approve_blend_pool" [.address pool]
  | .revokeBlendPool pool => do
    requireContractAddress g s.world pool .notSmartContract
    controllerOperation s "revoke_blend_pool" [.address pool]
  | .createLiquidityPool args => do
    let tokenDecimals ← validateAndFetchTokenDecimals g s.world args.asset
    validateMarketCreation args.asset args.params
      (← listedTokenDecimals g s args.asset tokenDecimals)
    controllerOperation s "create_liquidity_pool"
      [.u32 args.hubId, .address args.asset, .marketParams args.params]
  | .upgradeLiquidityPoolParams args => do
    args.params.verify
    controllerOperation s "upgrade_liquidity_pool_params"
      [.hubAsset args.hubAsset, .interestRateModel args.params]
  | .deployPool hash => do
    requireNonzeroWasmHash hash
    controllerOperation s "deploy_pool" [.bytesN hash]
  | .deployPositionNft args => do
    requireNonzeroWasmHash args.wasmHash
    controllerOperation s "deploy_position_nft"
      [.bytesN args.wasmHash, .string args.uri, .string args.name, .string args.symbol]
  | .upgradePool hash => do
    requireNonzeroWasmHash hash
    sensitiveControllerOperation s "upgrade_pool" [.bytesN hash]
  | .upgradePositionNft hash => do
    requireNonzeroWasmHash hash
    sensitiveControllerOperation s "upgrade_position_nft" [.bytesN hash]
  | .upgradePriceAggregator hash => do
    requireNonzeroWasmHash hash
    sensitivePriceAggregatorOperation s "upgrade" [.bytesN hash]
  | .setPositionManager manager isActive =>
    sensitiveControllerOperation s "set_position_manager" [.address manager, .bool isActive]
  | .upgradeController hash => do
    requireNonzeroWasmHash hash
    sensitiveControllerOperation s "upgrade" [.bytesN hash]
  | .migrateController version => controllerOperation s "migrate" [.u32 version]
  | .transferCtrlOwnership args => do
    requireContractAddress g s.world args.newOwner .notSmartContract
    sensitiveControllerOperation s "transfer_ownership"
      [.address args.newOwner, .u32 args.liveUntilLedger]
  | .configureAssetOracle args => do
    let oracle ← resolveOracle g s args.key args.oracle
    priceAggregatorOperation s "set_oracle" [.priceKey args.key, .assetOracle oracle]
  | .editOracleTolerance args => do
    let tolerance ← validateAndCalculateTolerances args.tolerance
    priceAggregatorOperation s "set_tolerance" [.priceKey args.key, .oracleTolerance tolerance]
  | .unpause => controllerOperation s "unpause" []
  | .forceSocializeBadDebt accountId =>
    sensitiveControllerOperation s "force_socialize_bad_debt" [.u64 accountId]
  | .setSpokeLiquidationCurve args => do
    Config.validateLiquidationCurve args.targetHfWad args.hfForMaxBonusWad
      args.liquidationBonusFactorBps
    controllerOperation s "set_spoke_liquidation_curve"
      [.u32 args.spokeId, .i128 args.targetHfWad, .i128 args.hfForMaxBonusWad,
        .u32 args.liquidationBonusFactorBps]

end Lending.Gov
