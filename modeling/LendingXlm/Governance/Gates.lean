import LendingXlm.Governance.Calls

/-!
# What a call says of its gate

The timelock executes by the hash of the call, whatever operation was gated when it was proposed.
`callGate` reads the delay tier and the owner-only class off the function and the arguments alone;
`resolveOp_gate` says that every admin operation is gated as its call reads. Two operations with
the same call are then gated alike, whichever states they are resolved in.
-/

namespace Lending.Gov

open Fallible (bind_ok pure_ok_iff orThrow_ok_iff)

variable {Id T A W : Type} {g : GovernanceEnv Id T A W} {s : GovernanceState Id T A W}
  {r : ResolvedOperation}

namespace AdminOperation

/-- The function an operation calls. -/
def function : AdminOperation → String
  | setSwapAggregator _ => "set_swap_aggregator"
  | setPriceAggregator _ => "set_price_aggregator"
  | setAccumulator _ => "set_accumulator"
  | setPositionLimits _ => "set_position_limits"
  | setMinBorrowCollateralUsd _ => "set_min_borrow_collateral_usd"
  | createHub => "create_hub"
  | addSpoke => "add_spoke"
  | removeSpoke _ => "remove_spoke"
  | addAssetToSpoke _ => "add_asset_to_spoke"
  | editAssetInSpoke _ => "edit_asset_in_spoke"
  | removeAssetFromSpoke _ => "remove_asset_from_spoke"
  | approveBlendPool _ => "approve_blend_pool"
  | revokeBlendPool _ => "revoke_blend_pool"
  | createLiquidityPool _ => "create_liquidity_pool"
  | upgradeLiquidityPoolParams _ => "upgrade_liquidity_pool_params"
  | deployPool _ => "deploy_pool"
  | deployPositionNft _ => "deploy_position_nft"
  | upgradePool _ => "upgrade_pool"
  | upgradePositionNft _ => "upgrade_position_nft"
  | upgradePriceAggregator _ | upgradeController _ | upgradeGov _ => "upgrade"
  | setPositionManager _ _ => "set_position_manager"
  | migrateController _ => "migrate"
  | transferCtrlOwnership _ | transferGovOwnership _ => "transfer_ownership"
  | editOracleTolerance _ => "set_tolerance"
  | setSpokeLiquidationCurve _ => "set_spoke_liquidation_curve"
  | forceSocializeBadDebt _ => "force_socialize_bad_debt"
  | unpause => "unpause"
  | updateGovDelay _ => "update_delay"
  | grantGovRole _ => "grant_role"
  | revokeGovRole _ => "revoke_role"
  | configureAssetOracle _ => "set_oracle"
  | relaxSpokeAssetFlags _ => "relax_spoke_asset_flags"

/-- The tier an operation is scheduled under. -/
def delayTier : AdminOperation → DelayTier
  | upgradeGov _ | grantGovRole _ | revokeGovRole _ | transferGovOwnership _
  | setSwapAggregator _ | setPriceAggregator _ | upgradePool _ | upgradePositionNft _
  | upgradePriceAggregator _ | setPositionManager _ _ | upgradeController _
  | transferCtrlOwnership _ | forceSocializeBadDebt _ => .sensitive
  | _ => .standard

end AdminOperation

/-! ## Resolution -/

theorem controllerOperation_ok {function : String} {args : List Val}
    (h : controllerOperation s function args = .ok r) :
    ∃ controller, s.controller = some controller ∧ r = ⟨controller, function, args, .standard⟩ := by
  obtain ⟨controller, hc, h⟩ := bind_ok h
  exact ⟨controller, orThrow_ok_iff.mp hc, (pure_ok_iff.mp h).symm⟩

theorem sensitiveControllerOperation_ok {function : String} {args : List Val}
    (h : sensitiveControllerOperation s function args = .ok r) :
    ∃ controller, s.controller = some controller ∧
      r = ⟨controller, function, args, .sensitive⟩ := by
  obtain ⟨r', hr', h⟩ := bind_ok h
  obtain ⟨controller, hc, rfl⟩ := controllerOperation_ok hr'
  exact ⟨controller, hc, (pure_ok_iff.mp h).symm⟩

theorem priceAggregatorOperation_ok {function : String} {args : List Val}
    (h : priceAggregatorOperation s function args = .ok r) :
    ∃ aggregator, s.priceAggregator = some aggregator ∧
      r = ⟨aggregator, function, args, .standard⟩ := by
  obtain ⟨aggregator, ha, h⟩ := bind_ok h
  exact ⟨aggregator, orThrow_ok_iff.mp ha, (pure_ok_iff.mp h).symm⟩

theorem sensitivePriceAggregatorOperation_ok {function : String} {args : List Val}
    (h : sensitivePriceAggregatorOperation s function args = .ok r) :
    ∃ aggregator, s.priceAggregator = some aggregator ∧
      r = ⟨aggregator, function, args, .sensitive⟩ := by
  obtain ⟨r', hr', h⟩ := bind_ok h
  obtain ⟨aggregator, ha, rfl⟩ := priceAggregatorOperation_ok hr'
  exact ⟨aggregator, ha, (pure_ok_iff.mp h).symm⟩

theorem selfOperation_ok {function : String} {args : List Val} {tier : DelayTier}
    (h : selfOperation g function args tier = .ok r) :
    r = ⟨g.currentContractAddress, function, args, tier⟩ :=
  (pure_ok_iff.mp h).symm

/-- Whatever the checks, the call has the operation's function and its tier. -/
theorem resolveOp_call {op : AdminOperation} (h : resolveOp g s op = .ok r) :
    r.function = op.function ∧ r.delayTier = op.delayTier := by
  cases op with
  | setAccumulator | createHub | addSpoke | removeSpoke | removeAssetFromSpoke | migrateController
  | unpause =>
    obtain ⟨_, -, rfl⟩ := controllerOperation_ok h
    exact ⟨rfl, rfl⟩
  | setPositionManager | forceSocializeBadDebt =>
    obtain ⟨_, -, rfl⟩ := sensitiveControllerOperation_ok h
    exact ⟨rfl, rfl⟩
  | transferGovOwnership =>
    obtain rfl := selfOperation_ok h
    exact ⟨rfl, rfl⟩
  | upgradeGov | updateGovDelay | grantGovRole | revokeGovRole | setPriceAggregator =>
    obtain ⟨_, -, h⟩ := bind_ok h
    obtain rfl := selfOperation_ok h
    exact ⟨rfl, rfl⟩
  | setPositionLimits | setMinBorrowCollateralUsd | addAssetToSpoke | editAssetInSpoke
  | approveBlendPool | revokeBlendPool | upgradeLiquidityPoolParams | deployPool
  | deployPositionNft | setSpokeLiquidationCurve =>
    obtain ⟨_, -, h⟩ := bind_ok h
    obtain ⟨_, -, rfl⟩ := controllerOperation_ok h
    exact ⟨rfl, rfl⟩
  | setSwapAggregator | upgradePool | upgradePositionNft | upgradeController
  | transferCtrlOwnership =>
    obtain ⟨_, -, h⟩ := bind_ok h
    obtain ⟨_, -, rfl⟩ := sensitiveControllerOperation_ok h
    exact ⟨rfl, rfl⟩
  | upgradePriceAggregator =>
    obtain ⟨_, -, h⟩ := bind_ok h
    obtain ⟨_, -, rfl⟩ := sensitivePriceAggregatorOperation_ok h
    exact ⟨rfl, rfl⟩
  | configureAssetOracle | editOracleTolerance =>
    obtain ⟨_, -, h⟩ := bind_ok h
    obtain ⟨_, -, rfl⟩ := priceAggregatorOperation_ok h
    exact ⟨rfl, rfl⟩
  | relaxSpokeAssetFlags | createLiquidityPool =>
    obtain ⟨_, -, h⟩ := bind_ok h
    obtain ⟨_, -, h⟩ := bind_ok h
    obtain ⟨_, -, h⟩ := bind_ok h
    obtain ⟨_, -, rfl⟩ := controllerOperation_ok h
    exact ⟨rfl, rfl⟩

theorem resolveOp_setPositionManager {manager : Address} {isActive : Bool}
    (h : resolveOp g s (.setPositionManager manager isActive) = .ok r) :
    r.args = [.address manager, .bool isActive] := by
  obtain ⟨_, -, rfl⟩ := sensitiveControllerOperation_ok h
  rfl

theorem resolveOp_revokeGovRole {args : RoleArgs}
    (h : resolveOp g s (.revokeGovRole args) = .ok r) :
    r.target = g.currentContractAddress ∧ r.args = [.address args.account, .symbol args.role] := by
  obtain ⟨_, -, h⟩ := bind_ok h
  obtain rfl := selfOperation_ok h
  exact ⟨rfl, rfl⟩

/-- No admin operation resets the cancellers. -/
theorem AdminOperation.function_ne_reset (op : AdminOperation) :
    op.function ≠ "reset_cancellers" := by
  cases op <;> simp [function]

/-- Only a revocation revokes. -/
theorem AdminOperation.eq_revokeGovRole {op : AdminOperation} (h : op.function = "revoke_role") :
    ∃ args, op = .revokeGovRole args := by
  cases op with
  | revokeGovRole args => exact ⟨args, rfl⟩
  | _ => simp [function] at h

/-! ## Gates -/

/-- The gate of a call: its delay tier, and whether only the owner may propose it. -/
def callGate (function : String) (args : List Val) : DelayTier × Bool :=
  if function = "set_position_manager" then (.sensitive, args[1]? = some (.bool true))
  else if function = "revoke_role" ∨ function = "force_socialize_bad_debt" then
    (.sensitive, false)
  else if function ∈ ["upgrade", "transfer_ownership", "set_price_aggregator",
      "set_swap_aggregator", "grant_role", "upgrade_pool", "upgrade_position_nft"] then
    (.sensitive, true)
  else if function ∈ ["update_delay", "set_accumulator", "approve_blend_pool", "migrate",
      "set_oracle", "set_tolerance"] then
    (.standard, true)
  else (.standard, false)

/-- Every admin operation is gated as its call reads. -/
theorem resolveOp_gate {op : AdminOperation} (h : resolveOp g s op = .ok r) :
    callGate r.function r.args = (r.delayTier, ownerOnly op) := by
  obtain ⟨hfunction, htier⟩ := resolveOp_call h
  rw [hfunction, htier]
  cases op with
  | setPositionManager manager isActive =>
    rw [resolveOp_setPositionManager h]
    cases isActive <;> rfl
  | _ => rfl

/-- **Collisions are harmless.** Two admin operations with the same call, resolved in any two
states, wait for the same tier and are both owner-only or both not. -/
theorem resolveOp_same_gate {s' : GovernanceState Id T A W} {op op' : AdminOperation}
    {r' : ResolvedOperation} (h : resolveOp g s op = .ok r) (h' : resolveOp g s' op' = .ok r')
    (hfunction : r.function = r'.function) (hargs : r.args = r'.args) :
    r.delayTier = r'.delayTier ∧ ownerOnly op = ownerOnly op' := by
  have hgate := (resolveOp_gate h).symm.trans
    ((congrArg₂ callGate hfunction hargs).trans (resolveOp_gate h'))
  exact Prod.mk.inj hgate

end Lending.Gov
