import LendingXlm.Controller.Account

/-!
# Risk

`contracts/controller/src/risk`: the totals of an account, the gates on them, and the refresh of
the risk parameters stamped on supply positions.
-/

namespace Lending

open Ctrl

variable {W : Type} (h : ControllerHost W) (timestamp : Nat)

namespace Risk

/-! ## `totals.rs` -/

def accountPriceAssets (account : Account) (extras : List Address) : List Address :=
  let assets := account.supplyPositions.keys.map HubAssetKey.asset ++
    account.borrowPositions.keys.map HubAssetKey.asset ++ extras
  assets.foldl (fun out asset => if asset ∈ out then out else out ++ [asset]) []

def sumDebtUsdLoaded (borrowPositions : SortedMap HubAssetKey DebtPosition)
    (value : Int → Int → Int → Result Int) : Ctrl W Int :=
  borrowPositions.entries.foldlM (fun total e => do
    let feed ← Context.cachedPrice e.1.asset
    let marketIndex ← Context.cachedMarketIndex timestamp e.1
    Wad.checkedAdd total (← value e.2.scaledAmount marketIndex.borrowIndex feed.price)) Wad.zero

structure AccountRiskTotals where
  totalCollateral : Int
  ltvCollateral : Int
  weightedCollateral : Int
  totalDebt : Int
  healthFactor : Int
  deriving DecidableEq, Repr

/-- One supply position added to `(total, ltv, weighted)` collateral. -/
def addCollateral (sums : Int × Int × Int) (e : HubAssetKey × AccountPosition) :
    Ctrl W (Int × Int × Int) := do
  let (hubAsset, position) := e
  let feed ← Context.cachedPrice hubAsset.asset
  let marketIndex ← Context.cachedMarketIndex timestamp hubAsset
  let value ← positionValue position.scaledAmount marketIndex.supplyIndex feed.price
  let gateValue ← positionValueFloor position.scaledAmount marketIndex.supplyIndex feed.price
  let total ← Wad.checkedAdd sums.1 value
  let effectiveLtv := min position.loanToValue position.liquidationThreshold
  let ltv ← Wad.checkedAdd sums.2.1 (← Bps.applyToWadFloor effectiveLtv gateValue)
  let weighted ←
    Wad.checkedAdd sums.2.2 (← Bps.applyToWadFloor position.liquidationThreshold gateValue)
  return (total, ltv, weighted)

def calculateAccountRiskTotals (supplyPositions : SortedMap HubAssetKey AccountPosition)
    (borrowPositions : SortedMap HubAssetKey DebtPosition) : Ctrl W AccountRiskTotals := do
  Context.loadMarkets h timestamp (supplyPositions.keys ++ borrowPositions.keys)
  let (totalCollateral, ltvCollateral, weightedCollateral) ←
    supplyPositions.entries.foldlM (addCollateral timestamp) (Wad.zero, Wad.zero, Wad.zero)
  let totalDebt ← sumDebtUsdLoaded timestamp borrowPositions positionValueCeil
  let healthFactor ←
    (if totalDebt = Wad.zero then pure i128Max
    else Wad.divFloorSaturating weightedCollateral totalDebt : Result Int)
  return { totalCollateral, ltvCollateral, weightedCollateral, totalDebt, healthFactor }

/-! ## `validation.rs` -/

def requireNotFlashLoaning : Ctrl W Unit := do
  assertWithError (¬ (← get).flashLoanOngoing) .flashLoanOngoing

/-- The host checks the caller's signature; what is left is the reentrancy flag. -/
def requireAuthorizedCaller : Ctrl W Unit := requireNotFlashLoaning

/-- Every supply leg below three decimals holds at least `minWholeUnitCollateral` units. -/
def requireWholeUnitCollateralFloor (account : Account) : Ctrl W Unit :=
  account.supplyPositions.entries.foldlM (fun _ e => do
    let decimals := (← Context.cachedPrice e.1.asset).assetDecimals
    if decimals ≥ minBorrowableAssetDecimals then
      return ()
    else
      let supplyIndex := (← Context.cachedMarketIndex timestamp e.1).supplyIndex
      let units ← Ray.toAssetFloor (← Ray.mul e.2.scaledAmount supplyIndex) decimals
      assertWithError (units ≥ minWholeUnitCollateral) .minBorrowCollateralNotMet) ()

def requirePostPoolRiskGates (account : Account) : Ctrl W Unit := do
  if account.debtFree then
    return ()
  else
    let totals ←
      calculateAccountRiskTotals h timestamp account.supplyPositions account.borrowPositions
    assertWithError (totals.ltvCollateral ≥ totals.totalDebt) .insufficientCollateral
    assertWithError (totals.healthFactor ≥ Wad.one) .insufficientCollateral
    let floor := (← store).minBorrowCollateralUsd
    assertWithError (floor = 0 ∨ totals.ltvCollateral ≥ floor) .minBorrowCollateralNotMet
    requireWholeUnitCollateralFloor timestamp account

/-- The limit is checked only when the batch opens a new slot: positions stay usable after the
limit was lowered. -/
def validateBulkPositionLimits (account : Account) (positionType : AccountPositionType)
    (aggregated : List HubPayment) : Ctrl W Unit := do
  let limits := (← store).positionLimits
  let keys := aggregated.map Prod.fst
  let (currentCount, maxAllowed, newKeys) :=
    match positionType with
    | .deposit => (account.supplyPositions.size, limits.maxSupplyPositions,
        Context.collectUncachedKeys keys account.supplyPositions)
    | .borrow => (account.borrowPositions.size, limits.maxBorrowPositions,
        Context.collectUncachedKeys keys account.borrowPositions)
  assertWithError (newKeys = [] ∨ currentCount + newKeys.length ≤ maxAllowed)
    .positionLimitExceeded

/-- A supply leg below three decimals stands alone. An account with two positions has no such
leg, so the new assets and a sole existing one are looked at. -/
def requireWholeUnitIsolation (account : Account) (aggregated : List HubPayment) :
    Ctrl W Unit := do
  let existing := account.supplyPositions.keys
  let checked := Context.collectUncachedKeys (aggregated.map Prod.fst) account.supplyPositions
  if checked = [] ∨ existing.length + checked.length ≤ 1 then
    return ()
  else
    let checked := if existing.length = 1 then checked ++ existing else checked
    checked.foldlM (fun _ hubAsset => do
      let decimals := (← Context.cachedPoolSyncData hubAsset).params.assetDecimals
      assertWithError (decimals ≥ minBorrowableAssetDecimals) .positionLimitExceeded) ()

/-! ## `params.rs` -/

inductive RiskRefreshScope where
  | ltvOnly
  | fullTuple
  deriving DecidableEq, Repr

/-- A lower threshold or fee, or a higher bonus, than the position's. -/
def favorsLiquidator (position : AccountPosition) (config : AssetConfig) : Bool :=
  config.liquidationThreshold < position.liquidationThreshold ∨
    config.liquidationBonus > position.liquidationBonus ∨
    config.liquidationFees < position.liquidationFees

/-- Whether the account keeps a health factor of 1.05 with the position's threshold replaced. -/
def clearsMinHf (account : Account) (hubAsset : HubAssetKey) (position : AccountPosition)
    (newLt : Nat) : Ctrl W Bool := do
  let supplyPositions :=
    account.supplyPositions.set hubAsset { position with liquidationThreshold := newLt }
  let totals ← calculateAccountRiskTotals h timestamp supplyPositions account.borrowPositions
  return totals.healthFactor ≥ thresholdUpdateMinHfRaw

def applyGatedLiquidationParams (account : Account) (hubAsset : HubAssetKey)
    (position : AccountPosition) (config : AssetConfig) : Ctrl W AccountPosition := do
  let refused ←
    (if favorsLiquidator position config ∧ ¬ account.debtFree then
      return ¬ (← clearsMinHf h timestamp account hubAsset position config.liquidationThreshold)
    else return false : Ctrl W Bool)
  if refused then
    return position
  else
    return { position with
      liquidationThreshold := config.liquidationThreshold
      liquidationBonus := config.liquidationBonus
      liquidationFees := config.liquidationFees }

/-- The position with refreshed parameters. -/
def refreshSupplyRiskParams (account : Account) (hubAsset : HubAssetKey)
    (position : AccountPosition) (config : AssetConfig) (scope : RiskRefreshScope) :
    Ctrl W AccountPosition := do
  let position := { position with loanToValue := config.loanToValue }
  if scope = .fullTuple then
    applyGatedLiquidationParams h timestamp account hubAsset position config
  else
    return position

/-- One asset of `restamp_listed_supply_ltv`; `keys` are the account's supply markets. -/
def restampListedSupplyLtvOf (keys : List HubAssetKey) (acc : Account × Bool)
    (hubAsset : HubAssetKey) : Ctrl W (Account × Bool) := do
  let (account, changed) := acc
  match ← Context.cachedSpokeAsset account.spokeId hubAsset with
  | none => return acc
  | some config =>
    match account.supplyPositions.get? hubAsset with
    | none => return acc
    | some position =>
      if position.loanToValue = config.loanToValue then
        return acc
      else
        let account := account.updateOrRemoveSupplyPosition hubAsset
          { position with loanToValue := config.loanToValue }
        let missing := if changed then [] else keys ++ account.borrowPositions.keys
        Context.fetchMarketIndexes timestamp missing
        let _ ← Context.cachedMarketIndex timestamp hubAsset
        return (account, true)

/-- Refreshes the LTV of listed supply; unlisted assets are skipped. -/
def restampListedSupplyLtv (account : Account) : Ctrl W (Account × Bool) :=
  let keys := account.supplyPositions.keys
  keys.foldlM (restampListedSupplyLtvOf timestamp keys) (account, false)

/-- One asset of `sync_account_thresholds`. -/
def syncThresholdOf (scope : RiskRefreshScope) (acc : Account × Bool) (hubAsset : HubAssetKey) :
    Ctrl W (Account × Bool) := do
  let (account, changed) := acc
  match ← Context.cachedSpokeAsset account.spokeId hubAsset with
  | none => return acc
  | some config =>
    let position ← expectInvariant (account.supplyPositions.get? hubAsset)
    let updated ←
      refreshSupplyRiskParams h timestamp account hubAsset position config.toAssetConfig scope
    if updated = position then
      return (account, changed)
    else
      let _ ← Context.cachedMarketIndex timestamp hubAsset
      return (account.updateOrRemoveSupplyPosition hubAsset updated, true)

def syncAccountThresholds (accountId : Nat) (scope : RiskRefreshScope) : Ctrl W Unit := do
  let s ← store
  match s.metas.get? accountId with
  | none => return ()
  | some m =>
    let supplyPositions := s.getSupplyPositions accountId
    if supplyPositions.isEmpty then
      return ()
    else
      match ← Storage.tryAccountOwner h accountId with
      | none => return ()
      | some owner =>
        let borrowPositions :=
          if scope = .fullTuple then s.getDebtPositions accountId else .empty
        let account := Storage.accountFromParts owner m supplyPositions borrowPositions
        let (account, anyChanged) ←
          supplyPositions.keys.foldlM (syncThresholdOf h timestamp scope) (account, false)
        modifyStore fun s =>
          if anyChanged then s.setSupplyPositions accountId account.supplyPositions else s
        if scope = .fullTuple then
          let totals ←
            calculateAccountRiskTotals h timestamp account.supplyPositions account.borrowPositions
          assertWithError (totals.healthFactor ≥ thresholdUpdateMinHfRaw) .healthFactorTooLow
        else
          return ()

def updateAccountThreshold (hasRisks : Bool) (accountIds : List Nat) : Ctrl W Unit := do
  requireAuthorizedCaller
  let scope : RiskRefreshScope := if hasRisks then .fullTuple else .ltvOnly
  accountIds.foldlM (fun _ accountId => do
    Context.resetSpokeContext
    syncAccountThresholds h timestamp accountId scope) ()

end Risk

end Lending
