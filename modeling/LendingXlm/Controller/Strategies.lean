import LendingXlm.Controller.Positions

/-!
# Strategies

`contracts/controller/src/strategies` and the requests of `external/blend.rs`. A strategy moves
an account's positions through the controller's own token balance: it borrows into it, swaps
through the router, lets a receiver or Blend pay into it, and deposits or repays what it measured.
Account strategies end with the same solvency gates and the same write-back.
-/

namespace Lending

open Ctrl Positions

variable {W : Type} (h : ControllerHost W) (timestamp : Nat)

namespace Strategies

/-- A route of the swap router. -/
abbrev StrategySwap := List UInt8

/-! ## `mod.rs` -/

def prefetchStrategyPrices (account : Account) (extraAssets : List Address) : Ctrl W Unit :=
  Context.fetchPrices h (Risk.accountPriceAssets account extraAssets)

/-- Returns the account as it was written back. -/
def strategyFinalize (accountId : Nat) (account : Account) : Ctrl W Account := do
  let (account, _) ← enforcePostPoolSolvency h timestamp account
  finalizePositionFlow h accountId account .both true
  return account

/-! ## `swap.rs` -/

def verifyRouterOutput (tokenOut : Address) (balanceBefore : Int) : Ctrl W Int := do
  let received ← Payments.balanceDeltaSince h tokenOut h.controller balanceBefore
  assertWithError (received > 0) .noSwapOutput
  return received

/-- Swaps through the router; unspent input goes back to `refundTo`. -/
def swapTokens (refundTo tokenIn : Address) (amountIn : Int) (tokenOut : Address)
    (swap : StrategySwap) : Ctrl W Int := do
  requirePositiveAmount amountIn
  assertWithError (swap ≠ []) .invalidPayments
  let router ← unwrapOr (← store).swapAggregator .aggregatorNotSet
  let inBefore := h.balance (← world) tokenIn h.controller
  let outBefore := h.balance (← world) tokenOut h.controller
  withFlashGuard (outside fun w => do
    return (← h.executeStrategy w router h.controller amountIn swap, ()))
  let inAfter := h.balance (← world) tokenIn h.controller
  assertWithError (inAfter ≤ inBefore) .routerOverspend
  let actualSpent ← unwrapOr (I128.checkedSub inBefore inAfter) .mathOverflow
  assertWithError (actualSpent ≤ amountIn) .routerOverspend
  let leftover ← unwrapOr (I128.checkedSub amountIn actualSpent) .mathOverflow
  if leftover > 0 then
    Payments.transfer h tokenIn h.controller refundTo leftover
    verifyRouterOutput h tokenOut outBefore
  else
    verifyRouterOutput h tokenOut outBefore

/-- Equal assets pass through, with an empty route only. -/
def swapTokensOrPassthrough (refundTo tokenIn : Address) (amountIn : Int) (tokenOut : Address)
    (swap : StrategySwap) : Ctrl W Int := do
  if tokenIn = tokenOut then
    assertWithError (swap = []) .invalidPayments
    return amountIn
  else
    swapTokens h refundTo tokenIn amountIn tokenOut swap

/-! ## `legs.rs` -/

/-- Repays from the controller's balance; what the pool refunds goes to `caller`. -/
def repayDebtFromController (account : Account) (caller : Address) (debt : HubAssetKey)
    (debtAvailable : Int) (debtPos : DebtPosition) : Ctrl W Account := do
  let received ← Payments.transferAmountMeasured h debt.asset h.controller h.pool debtAvailable
    .internalError
  -- Taken after the funding, so that only refunds of the repayment go to the caller.
  let before := h.balance (← world) debt.asset h.controller
  let (account, _) ← repayPrefundedPosition h timestamp account h.controller debt debtPos received
  Payments.refundControllerBalanceDelta h debt.asset before caller
  return account

/-- The account, and what the controller received. -/
def withdrawCollateralToController (account : Account) (hubAsset : HubAssetKey) (amount : Int)
    (position : AccountPosition) : Ctrl W (Account × Int) := do
  let before := h.balance (← world) hubAsset.asset h.controller
  let (account, _) ← withFlashGuard
    (executeWithdrawal h timestamp account h.controller hubAsset amount position)
  let received ← Payments.balanceDeltaSince h hubAsset.asset h.controller before
  return (account, received)

/-- One position of `execute_withdraw_all`. -/
def withdrawAllOf (destination : Address) (account : Account) (hubAsset : HubAssetKey) :
    Ctrl W Account := do
  match account.supplyPositions.get? hubAsset with
  | none => return account
  | some position =>
    let (account, _) ←
      executeWithdrawal h timestamp account destination hubAsset withdrawAllSentinel position
    return account

/-- A withdrawal of nothing, which touches the same entries a real one would. -/
def reserveWithdrawFootprint (destination : Address) (hubAsset : HubAssetKey) : Ctrl W Unit := do
  let _ ← poolCall fun pool =>
    LiquidityPool.withdraw h.toPoolHost timestamp pool destination false
      [⟨makePoolAction 0 withdrawAllSentinel hubAsset, 0⟩]

/-- Closes every supply position. -/
def executeWithdrawAll (account : Account) (destination : Address)
    (repaidCollateral : HubAssetKey) : Ctrl W Account := do
  (if account.supplyPositions.contains repaidCollateral then pure ()
  else reserveWithdrawFootprint h timestamp destination repaidCollateral : Ctrl W Unit)
  account.supplyPositions.keys.foldlM (withdrawAllOf h timestamp destination) account

/-- Nets supply against debt of one market; no token moves. -/
def netSettleCollateralAgainstDebt (account : Account) (hubAsset : HubAssetKey) (amount : Int) :
    Ctrl W Account := do
  enforceSpokeAssetFlags account.spokeId hubAsset .allowOnExit
  let supplyPosition ← getSupplyPositionOrPanic account hubAsset
  let debtPosition ← getDebtPositionOrPanic account hubAsset
  let entry : PoolNetSettleEntry :=
    { hubAsset
      amount
      supplyPosition := ⟨supplyPosition.scaledAmount⟩
      debtPosition := ⟨debtPosition.scaledAmount⟩ }
  let result ← poolCall fun pool => LiquidityPool.netSettle timestamp pool entry
  let account ← mergeWithdrawLeg h timestamp account hubAsset .normal
    ⟨result.supplyPosition.scaledAmount, result.marketIndex, result.settledAmount⟩
  mergeDebtLeg account hubAsset .exit
    ⟨result.debtPosition.scaledAmount, result.marketIndex, result.settledAmount⟩

/-- The account, and what the withdrawal brought in `tokenOut`. -/
def withdrawAndSwapFromSupply (account : Account) (caller : Address) (source : HubAssetKey)
    (amount : Int) (tokenOut : Address) (swap : StrategySwap) : Ctrl W (Account × Int) := do
  let position ← getSupplyPositionOrPanic account source
  let (account, withdrawn) ←
    withdrawCollateralToController h timestamp account source amount position
  let available ← swapTokensOrPassthrough h caller source.asset withdrawn tokenOut swap
  return (account, available)

/-! ## `multiply.rs` -/

def validateMultiplyRequest (collateral debt : HubAssetKey) (mode : PositionMode)
    (debtToFlashLoan : Int) : Result Unit := do
  match mode with
  | .multiply => require (collateral ≠ debt) .assetsAreTheSame
  | .long => require (collateral.asset ≠ debt.asset) .assetsAreTheSame
  | .short => require (collateral.asset ≠ debt.asset) .assetsAreTheSame
  | .normal => throw .invalidPositionMode
  requirePositiveAmount debtToFlashLoan

/-- What the initial payment brings, as collateral and as debt asset. -/
def collectInitialMultiplyPayment (caller : Address) (collateral debt : HubAssetKey)
    (initialPayment : Option HubPayment) (convertSwap : Option StrategySwap) :
    Ctrl W (Int × Int) := do
  match initialPayment with
  | none => return (0, 0)
  | some (payment, amount) =>
    requirePositiveAmount amount
    let received ← Payments.transferAmountMeasured h payment.asset caller h.controller amount
      .amountMustBePositive
    if payment.asset = collateral.asset then
      return (received, 0)
    else if payment.asset = debt.asset then
      return (0, received)
    else
      let convert ← unwrapOr convertSwap .convertStepsRequired
      let collateralAmount ←
        swapTokens h caller payment.asset received collateral.asset convert
      return (collateralAmount, 0)

structure MultiplyParams where
  accountId : Nat
  spokeId : Nat
  collateral : HubAssetKey
  debtToFlashLoan : Int
  debt : HubAssetKey
  mode : PositionMode
  swap : StrategySwap
  initialPayment : Option HubPayment
  convertSwap : Option StrategySwap

def processMultiply (caller : Address) (p : MultiplyParams) : Ctrl W Nat := do
  Risk.requireAuthorizedCaller
  validateMultiplyRequest p.collateral p.debt p.mode p.debtToFlashLoan
  let (accountId, account) ←
    Account.loadOrCreateAccount h caller p.accountId p.spokeId p.mode .multiply
  requireCanSupply account.spokeId p.collateral
  let extraAssets := [p.collateral.asset, p.debt.asset] ++
    (p.initialPayment.map (·.1.asset)).toList
  prefetchStrategyPrices h account extraAssets
  let (collateralAmount, debtExtra) ←
    collectInitialMultiplyPayment h caller p.collateral p.debt p.initialPayment p.convertSwap
  let (account, amountReceived) ←
    borrowIntoController h timestamp account p.debt p.debtToFlashLoan true
  let swapAmountIn ← unwrapOr (I128.checkedAdd amountReceived debtExtra) .mathOverflow
  let swappedCollateral ←
    swapTokensOrPassthrough h caller p.debt.asset swapAmountIn p.collateral.asset p.swap
  let totalCollateral ← unwrapOr (I128.checkedAdd collateralAmount swappedCollateral) .mathOverflow
  let account ←
    processDeposit h timestamp h.controller account [(p.collateral, totalCollateral)]
  let _ ← strategyFinalize h timestamp accountId account
  return accountId

/-! ## `swap_debt.rs` -/

structure SwapDebtParams where
  accountId : Nat
  existingDebt : HubAssetKey
  newDebtAmount : Int
  newDebt : HubAssetKey
  swap : StrategySwap

def processSwapDebt (caller : Address) (p : SwapDebtParams) : Ctrl W Unit := do
  Risk.requireAuthorizedCaller
  assertWithError (p.existingDebt ≠ p.newDebt) .assetsAreTheSame
  Context.requireHubActive p.existingDebt.hubId
  requirePositiveAmount p.newDebtAmount
  let account ← Storage.getAccount h p.accountId
  Account.requireOwnerOrDelegate p.accountId caller account.owner
  let existingPos ← getDebtPositionOrPanic account p.existingDebt
  prefetchStrategyPrices h account [p.existingDebt.asset, p.newDebt.asset]
  let (account, amountReceived) ←
    borrowIntoController h timestamp account p.newDebt p.newDebtAmount true
  let repayAmount ← swapTokensOrPassthrough h caller p.newDebt.asset amountReceived
    p.existingDebt.asset p.swap
  let account ← repayDebtFromController h timestamp account caller p.existingDebt repayAmount
    existingPos
  let _ ← strategyFinalize h timestamp p.accountId account

/-! ## `swap_collateral.rs` -/

structure SwapCollateralParams where
  accountId : Nat
  current : HubAssetKey
  fromAmount : Int
  new : HubAssetKey
  swap : StrategySwap

def processSwapCollateral (caller : Address) (p : SwapCollateralParams) : Ctrl W Unit := do
  Risk.requireAuthorizedCaller
  assertWithError (p.current ≠ p.new) .assetsAreTheSame
  Context.requireHubActive p.current.hubId
  requirePositiveAmount p.fromAmount
  let account ← Storage.getAccount h p.accountId
  Account.requireOwnerOrDelegate p.accountId caller account.owner
  requireCanSupply account.spokeId p.new
  prefetchStrategyPrices h account [p.current.asset, p.new.asset]
  let (account, swappedAmount) ← withdrawAndSwapFromSupply h timestamp account caller p.current
    p.fromAmount p.new.asset p.swap
  let account ← processDeposit h timestamp h.controller account [(p.new, swappedAmount)]
  let _ ← strategyFinalize h timestamp p.accountId account

/-! ## `repay_debt_with_collateral.rs` -/

structure RepayWithCollateralParams where
  accountId : Nat
  collateral : HubAssetKey
  collateralAmount : Int
  debt : HubAssetKey
  swap : StrategySwap
  closePosition : Bool

def repayViaCollateralSwap (caller : Address) (account : Account) (collateral : HubAssetKey)
    (collateralAmount : Int) (debt : HubAssetKey) (swap : StrategySwap) : Ctrl W Account := do
  let debtPos ← getDebtPositionOrPanic account debt
  let (account, debtAvailable) ← withdrawAndSwapFromSupply h timestamp account caller collateral
    collateralAmount debt.asset swap
  repayDebtFromController h timestamp account caller debt debtAvailable debtPos

/-- Closing needs every debt cleared; the remaining collateral goes to the caller. -/
def closeAfterRepay (caller : Address) (account : Account) (collateral : HubAssetKey)
    (closePosition : Bool) : Ctrl W Account := do
  if closePosition then
    assertWithError account.borrowPositions.isEmpty .cannotCloseWithRemainingDebt
    executeWithdrawAll h timestamp account caller collateral
  else
    return account

def processRepayDebtWithCollateral (caller : Address) (p : RepayWithCollateralParams) :
    Ctrl W Unit := do
  Risk.requireAuthorizedCaller
  requirePositiveAmount p.collateralAmount
  Context.requireHubActive p.collateral.hubId
  Context.requireHubActive p.debt.hubId
  let account ← Storage.getAccount h p.accountId
  Account.requireOwnerOrDelegate p.accountId caller account.owner
  prefetchStrategyPrices h account [p.collateral.asset, p.debt.asset]
  let account ←
    (if p.collateral = p.debt then do
      assertWithError (p.swap = []) .invalidPayments
      netSettleCollateralAgainstDebt h timestamp account p.collateral p.collateralAmount
    else
      repayViaCollateralSwap h timestamp caller account p.collateral p.collateralAmount p.debt
        p.swap : Ctrl W Account)
  let account ← closeAfterRepay h timestamp caller account p.collateral p.closePosition
  let _ ← strategyFinalize h timestamp p.accountId account

/-! ## `flash_loan.rs` -/

def requireWasmReceiver (receiver : Address) : Ctrl W Unit := do
  assertWithError (h.isWasmContract (← world) receiver) .invalidFlashloanReceiver

def processFlashLoan (caller : Address) (hubAsset : HubAssetKey) (amount : Int)
    (receiver : Address) (data : List UInt8) : Ctrl W Unit := do
  Risk.requireAuthorizedCaller
  requirePositiveAmount amount
  Context.requireHubActive hubAsset.hubId
  requireWasmReceiver h receiver
  let _ ← withFlashGuard (poolCall fun pool =>
    LiquidityPool.flashLoan h.toPoolHost timestamp pool hubAsset caller receiver amount data)

/-! ## `flash_position.rs` -/

structure FlashPositionParams where
  accountId : Nat
  spokeId : Nat
  mode : PositionMode
  debt : HubAssetKey
  amount : Int
  receiver : Address
  data : List UInt8
  collaterals : List HubPayment
  refundAssets : List Address

/-- Collateral tokens are unique: markets of different hubs share the controller's balance. -/
def validateCollaterals (account : Account) (collaterals : List HubPayment) : Ctrl W Unit := do
  requireNonEmptyPayments collaterals
  assertWithError (collaterals.length ≤ (← store).positionLimits.maxSupplyPositions)
    .invalidPayments
  let _ ← collaterals.foldlM (fun (seen : List Address) e => do
    requireNonnegAmount e.2
    assertWithError (e.1.asset ∉ seen) .invalidPayments
    requireCanSupply account.spokeId e.1
    return e.1.asset :: seen) []
  assertWithError (∃ e ∈ collaterals, e.2 > 0) .collateralRequired
  validatePositionEntryGates account collaterals .deposit

def validateRefundAssets (spokeId hubId : Nat) (collaterals : List HubPayment)
    (refundAssets : List Address) : Ctrl W Unit := do
  assertWithError (refundAssets.length ≤ (← store).positionLimits.maxSupplyPositions)
    .invalidPayments
  let _ ← refundAssets.foldlM (fun (seen : List Address) asset => do
    assertWithError (asset ∉ seen) .invalidPayments
    let _ ← Context.requireListedActiveConfig spokeId ⟨hubId, asset⟩
    assertWithError (∀ e ∈ collaterals, asset ≠ e.1.asset) .invalidPayments
    return asset :: seen) []

/-- Borrows without a fee and hands the receipt to `receiver`; returns what it received. -/
def mintAndForward (account : Account) (debt : HubAssetKey) (amount : Int) (receiver : Address) :
    Ctrl W (Account × Int) := do
  let before := h.balance (← world) debt.asset h.controller
  let (account, reported) ← borrowIntoController h timestamp account debt amount false
  let measured ← Payments.balanceDeltaSince h debt.asset h.controller before
  assertWithError (measured = reported) .internalError
  assertWithError (measured > 0) .amountMustBePositive
  let forwarded ← Payments.transferAmountMeasured h debt.asset h.controller receiver measured
    .amountMustBePositive
  assertWithError (forwarded > 0) .amountMustBePositive
  return (account, forwarded)

def invokeReceiver (receiver initiator : Address) (accountId : Nat) (asset : Address)
    (amount amountReceived : Int) (data : List UInt8) : Ctrl W Unit :=
  outside fun w => do
    return (← h.executeFlashPosition w receiver initiator accountId asset amount 0 amountReceived
      h.controller data, ())

/-- Each collateral's receipt over its baseline, which has to reach the minimum. -/
def collectCollateralDeposits (collaterals : List HubPayment) (before : SortedMap Address Int) :
    Ctrl W (List HubPayment) := do
  let deposits ← collaterals.foldlM (fun (deposits : List HubPayment) e => do
    let baseline ← unwrapOr (before.get? e.1.asset) .internalError
    let delta ← Payments.balanceDeltaSince h e.1.asset h.controller baseline
    assertWithError (delta ≥ e.2) .collateralMinimumNotMet
    return if delta > 0 then deposits ++ [(e.1, delta)] else deposits) []
  assertWithError (deposits ≠ []) .collateralMinimumNotMet
  return deposits

def requireFlashPositionStillOpen (account : Account) (debt : HubAssetKey) : Ctrl W Unit := do
  assertWithError (¬ account.isEmpty ∧ ¬ account.debtFree) .flashPositionClosed
  let position ← unwrapOr (account.borrowPositions.get? debt) .flashPositionClosed
  assertWithError (position.scaledAmount > 0 ∧ ¬ account.supplyPositions.isEmpty)
    .flashPositionClosed

def refundListedAssets (caller : Address) (refundAssets : List Address)
    (before : SortedMap Address Int) : Ctrl W Unit :=
  refundAssets.foldlM (fun _ asset => do
    let baseline ← unwrapOr (before.get? asset) .internalError
    Payments.refundControllerBalanceDelta h asset baseline caller) ()

/-- Funding, baselines and callback, all under the flash guard. -/
def fundAndCall (caller : Address) (accountId : Nat) (account : Account)
    (p : FlashPositionParams) :
    Ctrl W (Account × SortedMap Address Int × SortedMap Address Int) := do
  let (account, amountReceived) ← mintAndForward h timestamp account p.debt p.amount p.receiver
  -- Baselines exclude the funding, so that only the callback's receipts count.
  let collateralBefore ←
    Payments.snapshotBalances h h.controller (p.collaterals.map (·.1.asset))
  let refundBefore ← Payments.snapshotBalances h h.controller p.refundAssets
  invokeReceiver h p.receiver caller accountId p.debt.asset p.amount amountReceived p.data
  return (account, collateralBefore, refundBefore)

def processFlashPosition (caller : Address) (p : FlashPositionParams) : Ctrl W Nat := do
  Risk.requireAuthorizedCaller
  requirePositiveAmount p.amount
  Context.requireHubActive p.debt.hubId
  assertWithError (p.mode ≠ .normal) .invalidPositionMode
  requireWasmReceiver h p.receiver
  requireExternalRecipient h p.receiver
  let debtMarket ← Context.cachedPoolSyncData p.debt
  assertWithError debtMarket.params.isFlashloanable .flashloanNotEnabled
  let (accountId, account) ←
    Account.loadOrCreateAccount h caller p.accountId p.spokeId p.mode .multiply
  validateCollaterals account p.collaterals
  validateRefundAssets account.spokeId p.debt.hubId p.collaterals p.refundAssets
  prefetchStrategyPrices h account ([p.debt.asset] ++ p.collaterals.map (·.1.asset))
  let (account, collateralBefore, refundBefore) ←
    withFlashGuard (fundAndCall h timestamp caller accountId account p)
  let deposits ← collectCollateralDeposits h p.collaterals collateralBefore
  let account ← processDeposit h timestamp h.controller account deposits
  refundListedAssets h caller p.refundAssets refundBefore
  requireFlashPositionStillOpen account p.debt
  let account ← strategyFinalize h timestamp accountId account
  requireFlashPositionStillOpen account p.debt
  return accountId

/-! ## `external/blend.rs` -/

def reqWithdraw : Nat := 1
def reqWithdrawCollateral : Nat := 3
def reqRepay : Nat := 5

/-- Submits with the controller as spender and recipient. -/
def guardedSubmit (blendPool holder : Address) (requests : List BlendRequest) : Ctrl W Unit :=
  withFlashGuard (outside fun w => do
    return (← h.blendSubmit w blendPool holder h.controller h.controller requests, ()))

def blendSweepAll (blendPool holder : Address) (collateralAssets supplyAssets : List Address) :
    Ctrl W Unit :=
  guardedSubmit h blendPool holder
    ((collateralAssets.map fun asset => ⟨reqWithdrawCollateral, asset, blendWithdrawAllAmount⟩) ++
      supplyAssets.map fun asset => ⟨reqWithdraw, asset, blendWithdrawAllAmount⟩)

def blendRepayAll (blendPool holder : Address) (debtCaps : List PaymentTuple) : Ctrl W Unit :=
  guardedSubmit h blendPool holder
    (debtCaps.map fun cap => ⟨reqRepay, cap.asset, cap.amount⟩)

/-! ## `migrate_blend.rs` -/

structure MigrateBlendParams where
  accountId : Nat
  spokeId : Nat
  hubId : Nat
  blendPool : Address
  collateralAssets : List Address
  supplyAssets : List Address
  debtCaps : List PaymentTuple

def validateMigrationRequest (p : MigrateBlendParams) : Ctrl W Unit := do
  assertWithError (p.collateralAssets ≠ [] ∨ p.supplyAssets ≠ [] ∨ p.debtCaps ≠ [])
    .invalidPayments
  assertWithError (((← store).blendPools.get? p.blendPool).getD false) .blendPoolNotApproved

def requireUniqueDebtAssets (debtCaps : List PaymentTuple) : Ctrl W Unit :=
  assertWithError (debtCaps.map PaymentTuple.asset).Nodup .assetsAreTheSame

/-- Repays a debt with what Blend left of it over the baseline. -/
def reconcileDebtRefund (caller : Address) (hubId : Nat) (before : SortedMap Address Int)
    (account : Account) (cap : PaymentTuple) : Ctrl W Account := do
  let prev := (before.get? cap.asset).getD 0
  let refund ← Payments.balanceDeltaSince h cap.asset h.controller prev
  if refund > 0 then
    let hubDebt : HubAssetKey := ⟨hubId, cap.asset⟩
    let debtPos ← expectInvariant (account.borrowPositions.get? hubDebt)
    repayDebtFromController h timestamp account caller hubDebt refund debtPos
  else
    return account

def borrowMigrationDebt (hubId : Nat) (account : Account) (cap : PaymentTuple) :
    Ctrl W Account := do
  requirePositiveAmount cap.amount
  let (account, _) ← borrowIntoController h timestamp account ⟨hubId, cap.asset⟩ cap.amount false
  return account

def executeMigrationDebtLeg (caller : Address) (p : MigrateBlendParams) (account : Account) :
    Ctrl W Account := do
  if p.debtCaps = [] then
    return account
  else
    let before ←
      Payments.snapshotBalances h h.controller (p.debtCaps.map PaymentTuple.asset)
    let account ← p.debtCaps.foldlM (borrowMigrationDebt h timestamp p.hubId) account
    blendRepayAll h p.blendPool caller p.debtCaps
    p.debtCaps.foldlM (reconcileDebtRefund h timestamp caller p.hubId before) account

/-- Deposits what arrived over the baselines. -/
def depositWithdrawn (account : Account) (hubId : Nat) (withdrawAssets : List Address)
    (before : SortedMap Address Int) : Ctrl W Account := do
  let deposits ← withdrawAssets.foldlM (fun (deposits : List HubPayment) asset => do
    let prev := (before.get? asset).getD 0
    let received ← Payments.balanceDeltaSince h asset h.controller prev
    return if received > 0 then deposits ++ [(⟨hubId, asset⟩, received)] else deposits) []
  if deposits ≠ [] then
    processDeposit h timestamp h.controller account deposits
  else
    return account

/-- Both kinds of Blend balance become supply. -/
def MigrateBlendParams.withdrawAssets (p : MigrateBlendParams) : List Address :=
  (p.collateralAssets ++ p.supplyAssets).foldl (fun out asset =>
    if asset ∈ out then out else out ++ [asset]) []

def sweepAndDeposit (caller : Address) (p : MigrateBlendParams) (account : Account) :
    Ctrl W Account := do
  if p.withdrawAssets ≠ [] then
    let before ← Payments.snapshotBalances h h.controller p.withdrawAssets
    blendSweepAll h p.blendPool caller p.collateralAssets p.supplyAssets
    depositWithdrawn h timestamp account p.hubId p.withdrawAssets before
  else
    return account

def processMigrateBlend (caller : Address) (p : MigrateBlendParams) : Ctrl W Nat := do
  Risk.requireAuthorizedCaller
  Context.requireHubActive p.hubId
  validateMigrationRequest p
  requireUniqueDebtAssets p.debtCaps
  let (accountId, account) ←
    Account.loadOrCreateAccount h caller p.accountId p.spokeId .normal .migrate
  prefetchStrategyPrices h account (p.withdrawAssets ++ p.debtCaps.map PaymentTuple.asset)
  p.withdrawAssets.foldlM (fun _ asset => requireCanSupply p.spokeId ⟨p.hubId, asset⟩) ()
  let account ← executeMigrationDebtLeg h timestamp caller p account
  let account ← sweepAndDeposit h timestamp caller p account
  let _ ← strategyFinalize h timestamp accountId account
  return accountId

end Strategies

end Lending
