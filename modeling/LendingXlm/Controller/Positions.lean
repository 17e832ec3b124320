import LendingXlm.Controller.Risk

/-!
# Positions

`contracts/controller/src/positions/{mod.rs,supply.rs,debt.rs}`: the gates of a flow, the merging
of what the pool returned into the account and the spoke's usage, and the four flows supply,
withdraw, borrow and repay.
-/

namespace Lending

open Ctrl

variable {W : Type} (h : ControllerHost W) (timestamp : Nat)

namespace Positions

/-! ## `mod.rs` -/

def requireExternalRecipient (recipient : Address) : Ctrl W Unit :=
  assertWithError (recipient ≠ h.controller ∧ recipient ≠ h.pool) .invalidFlashloanReceiver

structure LegOutcome where
  newScaled : Int
  marketIndex : MarketIndex
  amount : Int
  deriving DecidableEq, Repr

def LegOutcome.ofMutation (mutation : PoolPositionMutation) : LegOutcome where
  newScaled := mutation.position.scaledAmount
  marketIndex := mutation.marketIndex
  amount := mutation.actualAmount

/-- Pairs requests with the pool's results. -/
def forEachLeg {E R α : Type} (entries : List E) (results : List R)
    (f : α → E × R → Ctrl W α) (init : α) : Ctrl W α := do
  assertWithError (results.length = entries.length) .internalError
  (entries.zip results).foldlM f init

inductive LegDirection where
  | entry (assetDecimals : Nat)
  | exit
  deriving DecidableEq, Repr

def applyLegUsage (spokeId : Nat) (side : UsageSide) (hubAsset : HubAssetKey)
    (direction : LegDirection) (oldScaled : Int) (outcome : LegOutcome) : Ctrl W Unit := do
  match direction with
  | .entry assetDecimals =>
    Context.applySpokeEntry spokeId side hubAsset (← Ray.checkedSub outcome.newScaled oldScaled)
      outcome.marketIndex assetDecimals
  | .exit =>
    Context.applySpokeExit spokeId side hubAsset (← Ray.checkedSub oldScaled outcome.newScaled)

inductive FreezePolicy where
  | blockOnEntry
  | allowOnExit
  | seizureLeg
  deriving DecidableEq, Repr

inductive PositionSides where
  | supply | debt | both
  deriving DecidableEq, Repr

/-- A market that is not listed stays exitable and seizable. -/
def enforceSpokeAssetFlags (spokeId : Nat) (hubAsset : HubAssetKey) (freeze : FreezePolicy) :
    Ctrl W Unit := do
  match ← Context.cachedSpokeAsset spokeId hubAsset with
  | none => return ()
  | some sa =>
    match freeze with
    | .blockOnEntry =>
      assertWithError (¬ sa.paused) .spokeAssetPaused
      assertWithError (¬ sa.frozen) .spokeAssetFrozen
    | .allowOnExit => assertWithError (¬ sa.paused) .spokeAssetPaused
    | .seizureLeg => assertWithError (¬ sa.noSeize) .spokeAssetSeizureHalted

def enforcePostPoolSolvency (account : Account) : Ctrl W (Account × Bool) := do
  let (account, restamped) ← Risk.restampListedSupplyLtv timestamp account
  Risk.requirePostPoolRiskGates h timestamp account
  return (account, restamped)

def persistAccountPositions (accountId : Nat) (account : Account) (sides : PositionSides)
    (removeIfEmpty : Bool) : Ctrl W Unit := do
  modifyStore fun s =>
    if sides ≠ .debt then s.setSupplyPositions accountId account.supplyPositions else s
  modifyStore fun s =>
    if sides ≠ .supply then s.setDebtPositions accountId account.borrowPositions else s
  if removeIfEmpty then
    account.cleanupAccountIfEmpty h accountId
  else
    return ()

def finalizePositionFlow (accountId : Nat) (account : Account) (sides : PositionSides)
    (removeIfEmpty : Bool) : Ctrl W Unit := do
  Context.persistSpokeUsage
  persistAccountPositions h accountId account sides removeIfEmpty

def requireListedUnhaltedConfig (spokeId : Nat) (hubAsset : HubAssetKey) :
    Ctrl W AssetConfig := do
  Context.requireHubActive hubAsset.hubId
  let config ← Context.requireListedActiveConfig spokeId hubAsset
  enforceSpokeAssetFlags spokeId hubAsset .blockOnEntry
  return config

def requireCanBorrow (spokeId : Nat) (hubAsset : HubAssetKey) : Ctrl W Unit := do
  let config ← requireListedUnhaltedConfig spokeId hubAsset
  assertWithError config.isBorrowable .assetNotBorrowable

def requireCanSupply (spokeId : Nat) (hubAsset : HubAssetKey) : Ctrl W Unit := do
  let config ← requireListedUnhaltedConfig spokeId hubAsset
  assertWithError config.isCollateralizable .notCollateral

def validatePositionEntryGates (account : Account) (aggregated : List HubPayment)
    (positionType : AccountPositionType) : Ctrl W Unit := do
  Risk.validateBulkPositionLimits account positionType aggregated
  match positionType with
  | .deposit =>
    Risk.requireWholeUnitIsolation account aggregated
    aggregated.foldlM (fun _ e => requireCanSupply account.spokeId e.1) ()
  | .borrow => aggregated.foldlM (fun _ e => requireCanBorrow account.spokeId e.1) ()

def makePoolAction (scaledAmount amount : Int) (hubAsset : HubAssetKey) : PoolAction where
  position := ⟨scaledAmount⟩
  amount := amount
  hubAsset := hubAsset

def getSupplyPositionOrPanic (account : Account) (hubAsset : HubAssetKey) :
    Ctrl W AccountPosition :=
  unwrapOr (account.supplyPositions.get? hubAsset) .collateralPositionNotFound

def getDebtPositionOrPanic (account : Account) (hubAsset : HubAssetKey) : Ctrl W DebtPosition :=
  unwrapOr (account.borrowPositions.get? hubAsset) .debtPositionNotFound

/-! ## `supply.rs` -/

inductive WithdrawKind where
  | normal | liquidation
  deriving DecidableEq, Repr

def mergeSupplyLeg (account : Account) (action : PoolAction) (result : PoolPositionMutation) :
    Ctrl W Account := do
  let hubAsset := action.hubAsset
  let config ← Context.requireSpokeAsset account.spokeId hubAsset
  let position := account.getOrCreateSupplyPosition hubAsset config
  let oldScaled := position.scaledAmount
  let outcome := LegOutcome.ofMutation result
  let position := { position with scaledAmount := outcome.newScaled }
  Context.putMarketIndex hubAsset outcome.marketIndex
  let position ←
    Risk.refreshSupplyRiskParams h timestamp account hubAsset position config .fullTuple
  applyLegUsage account.spokeId .supply hubAsset (.entry result.assetDecimals) oldScaled outcome
  return account.updateOrRemoveSupplyPosition hubAsset position

/-- Parameters refresh only for a listed position that stays open, outside liquidation. -/
def legMayRestampRiskParams (kind : WithdrawKind) (account : Account) (hubAsset : HubAssetKey)
    (newScaled : Int) : Ctrl W Bool := do
  if kind = .liquidation then
    return false
  else
    let listed ← Context.cachedSpokeAsset account.spokeId hubAsset
    return listed.isSome ∧ newScaled ≠ Ray.zero

def mergeWithdrawLeg (account : Account) (hubAsset : HubAssetKey) (kind : WithdrawKind)
    (outcome : LegOutcome) : Ctrl W Account := do
  let mayRestamp ← legMayRestampRiskParams kind account hubAsset outcome.newScaled
  let position ← getSupplyPositionOrPanic account hubAsset
  let oldScaled := position.scaledAmount
  let position := { position with scaledAmount := outcome.newScaled }
  Context.putMarketIndex hubAsset outcome.marketIndex
  applyLegUsage account.spokeId .supply hubAsset .exit oldScaled outcome
  if mayRestamp ∧ position.scaledAmount ≠ Ray.zero then
    let config ← Context.requireSpokeAsset account.spokeId hubAsset
    let position ←
      Risk.refreshSupplyRiskParams h timestamp account hubAsset position config .fullTuple
    return account.updateOrRemoveSupplyPosition hubAsset position
  else
    return account.updateOrRemoveSupplyPosition hubAsset position

/-- The account and the pool's results. -/
def applyWithdrawBatch (account : Account) (recipient : Address) (kind : WithdrawKind)
    (entries : List PoolWithdrawEntry) : Ctrl W (Account × List PoolPositionMutation) := do
  let results ← poolCall fun pool =>
    LiquidityPool.withdraw h.toPoolHost timestamp pool recipient (kind = .liquidation) entries
  let account ← forEachLeg entries results (fun account leg =>
    mergeWithdrawLeg h timestamp account leg.1.action.hubAsset kind (.ofMutation leg.2)) account
  return (account, results)

/-- Pulls one deposit into the pool and appends the pool's action for it. -/
def pullDeposit (caller : Address) (account : Account) (entries : List PoolAction)
    (payment : HubPayment) : Ctrl W (List PoolAction) := do
  let config ← Context.requireSpokeAsset account.spokeId payment.1
  let received ← Payments.transferAmountMeasured h payment.1.asset caller h.pool payment.2
    .amountMustBePositive
  let position := account.getOrCreateSupplyPosition payment.1 config
  return entries ++ [makePoolAction position.scaledAmount received payment.1]

/-- A new leg on an indebted account needs a live price, so that a borrower cannot plant a leg
whose feed is down. -/
def processDeposit (caller : Address) (account : Account) (aggregated : List HubPayment) :
    Ctrl W Account := do
  validatePositionEntryGates account aggregated .deposit
  let newLegs := if account.debtFree then []
    else (aggregated.filter fun e => ¬ account.supplyPositions.contains e.1).map (·.1.asset)
  Context.fetchPrices h newLegs
  let entries ← aggregated.foldlM (pullDeposit h caller account) []
  let results ← poolCall fun pool => LiquidityPool.supply timestamp pool entries
  forEachLeg entries results (fun account leg =>
    mergeSupplyLeg h timestamp account leg.1 leg.2) account

/-- Third parties may only add to positions that exist. -/
def requireThirdPartyExistingSupply (accountId resolvedAccountId : Nat) (caller : Address)
    (account : Account) (aggregated : List HubPayment) : Ctrl W Unit := do
  let exempt ← Account.isOwnerOrDelegate resolvedAccountId caller account.owner
  assertWithError (accountId = 0 ∨ exempt ∨
    ∀ e ∈ aggregated, account.supplyPositions.contains e.1 = true) .notAuthorized

def processSupply (caller : Address) (accountId spokeId : Nat) (assets : List HubPayment) :
    Ctrl W Nat := do
  Risk.requireAuthorizedCaller
  let aggregated ← Payments.aggregatePositivePayments assets
  let (acctId, account) ←
    Account.loadOrCreateAccount h caller accountId spokeId .normal .supply
  requireThirdPartyExistingSupply accountId acctId caller account aggregated
  let account ← processDeposit h timestamp caller account aggregated
  finalizePositionFlow h acctId account .supply false
  return acctId

/-- The pool's request for one withdrawal; zero withdraws all. -/
def withdrawEntry (account : Account) (entries : List PoolWithdrawEntry) (payment : HubPayment) :
    Ctrl W (List PoolWithdrawEntry) := do
  enforceSpokeAssetFlags account.spokeId payment.1 .allowOnExit
  let position ← getSupplyPositionOrPanic account payment.1
  let requested := if payment.2 = 0 then withdrawAllSentinel else payment.2
  return entries ++ [⟨makePoolAction position.scaledAmount requested payment.1, 0⟩]

def settleWithdraw (account : Account) (recipient : Address) (aggregated : List HubPayment) :
    Ctrl W (Account × List HubPayment) := do
  let entries ← aggregated.foldlM (withdrawEntry account) []
  let (account, results) ← applyWithdrawBatch h timestamp account recipient .normal entries
  let paid := (entries.zip results).map fun leg => (leg.1.action.hubAsset, leg.2.actualAmount)
  return (account, paid)

def processWithdraw (caller : Address) (accountId : Nat) (withdrawals : List HubPayment)
    (recipient : Option Address) : Ctrl W (List HubPayment) := do
  Risk.requireAuthorizedCaller
  let account ← Storage.getAccount h accountId
  Account.requireOwnerOrDelegate accountId caller account.owner
  let recipient := recipient.getD caller
  requireExternalRecipient h recipient
  let aggregated ← Payments.aggregatePayments withdrawals .meansAll
  let (account, paid) ← settleWithdraw h timestamp account recipient aggregated
  let (account, _) ← enforcePostPoolSolvency h timestamp account
  finalizePositionFlow h accountId account .supply true
  return paid

/-- Withdraws one position under the exit flags; returns the account and the pool's result. -/
def executeWithdrawal (account : Account) (recipient : Address) (hubAsset : HubAssetKey)
    (amount : Int) (position : AccountPosition) : Ctrl W (Account × PoolPositionMutation) := do
  enforceSpokeAssetFlags account.spokeId hubAsset .allowOnExit
  let entries : List PoolWithdrawEntry :=
    [⟨makePoolAction position.scaledAmount amount hubAsset, 0⟩]
  let (account, results) ← applyWithdrawBatch h timestamp account recipient .normal entries
  let result ← expectInvariant results.head?
  return (account, result)

/-! ## `debt.rs` -/

def mergeDebtLeg (account : Account) (hubAsset : HubAssetKey) (direction : LegDirection)
    (outcome : LegOutcome) : Ctrl W Account := do
  let oldScaled ←
    (match direction with
    | .entry _ => pure (account.getOrCreateDebtPosition hubAsset).scaledAmount
    | .exit => return (← getDebtPositionOrPanic account hubAsset).scaledAmount : Ctrl W Int)
  applyLegUsage account.spokeId .borrow hubAsset direction oldScaled outcome
  Context.putMarketIndex hubAsset outcome.marketIndex
  return account.updateOrRemoveDebtPosition hubAsset ⟨outcome.newScaled⟩

/-- Repays from funds the pool already received; the pool refunds the excess to `payer`. -/
def applyRepayBatch (account : Account) (payer : Address) (actions : List PoolAction) :
    Ctrl W (Account × List PoolPositionMutation) := do
  let results ← poolCall fun pool =>
    LiquidityPool.repay h.toPoolHost timestamp pool payer actions
  let account ← forEachLeg actions results (fun account leg =>
    mergeDebtLeg account leg.1.hubAsset .exit (.ofMutation leg.2)) account
  return (account, results)

def settleBorrow (account : Account) (recipient : Address) (aggregated : List HubPayment) :
    Ctrl W Account := do
  let entries := aggregated.map fun e =>
    makePoolAction (account.getOrCreateDebtPosition e.1).scaledAmount e.2 e.1
  let results ← poolCall fun pool =>
    LiquidityPool.borrow h.toPoolHost timestamp pool recipient entries
  forEachLeg entries results (fun account leg =>
    mergeDebtLeg account leg.1.hubAsset (.entry leg.2.assetDecimals) (.ofMutation leg.2)) account

def processBorrow (caller : Address) (accountId : Nat) (borrows : List HubPayment)
    (recipient : Option Address) : Ctrl W Unit := do
  Risk.requireAuthorizedCaller
  let account ← Storage.getAccount h accountId
  Account.requireOwnerOrDelegate accountId caller account.owner
  let recipient := recipient.getD caller
  requireExternalRecipient h recipient
  let aggregated ← Payments.aggregatePositivePayments borrows
  validatePositionEntryGates account aggregated .borrow
  let account ← settleBorrow h timestamp account recipient aggregated
  let (account, restamped) ← enforcePostPoolSolvency h timestamp account
  finalizePositionFlow h accountId account (if restamped then .both else .debt) false

/-- Pulls one repayment into the pool and appends the pool's action for it. -/
def pullRepayment (account : Account) (payer : Address) (actions : List PoolAction)
    (payment : HubPayment) : Ctrl W (List PoolAction) := do
  enforceSpokeAssetFlags account.spokeId payment.1 .allowOnExit
  let position ← getDebtPositionOrPanic account payment.1
  let amountIn ← Payments.transferAmountMeasured h payment.1.asset payer h.pool payment.2
    .amountMustBePositive
  return actions ++ [makePoolAction position.scaledAmount amountIn payment.1]

def settleRepay (account : Account) (payer : Address) (aggregated : List HubPayment) :
    Ctrl W Account := do
  let actions ← aggregated.foldlM (pullRepayment h account payer) []
  let (account, _) ← applyRepayBatch h timestamp account payer actions
  return account

def processRepay (caller : Address) (accountId : Nat) (payments : List HubPayment) :
    Ctrl W Unit := do
  Risk.requireAuthorizedCaller
  let aggregated ← Payments.aggregatePositivePayments payments
  let account ← Storage.getAccountBorrowOnly h accountId
  let account ← settleRepay h timestamp account caller aggregated
  finalizePositionFlow h accountId account .debt false

def repayPrefundedPosition (account : Account) (refundTo : Address) (hubAsset : HubAssetKey)
    (position : DebtPosition) (amount : Int) : Ctrl W (Account × PoolPositionMutation) := do
  enforceSpokeAssetFlags account.spokeId hubAsset .allowOnExit
  let actions := [makePoolAction position.scaledAmount amount hubAsset]
  let (account, results) ← applyRepayBatch h timestamp account refundTo actions
  let result ← expectInvariant results.head?
  return (account, result)

/-- Borrows into the controller for a strategy; returns the account and the measured receipt. -/
def borrowIntoController (account : Account) (hubDebt : HubAssetKey) (amount : Int)
    (chargeFee : Bool) : Ctrl W (Account × Int) := do
  requirePositiveAmount amount
  validatePositionEntryGates account [(hubDebt, amount)] .borrow
  let position := account.getOrCreateDebtPosition hubDebt
  let action := makePoolAction position.scaledAmount amount hubDebt
  let before := h.balance (← world) hubDebt.asset h.controller
  let result ← withFlashGuard (poolCall fun pool =>
    LiquidityPool.createStrategy h.toPoolHost timestamp pool h.controller action chargeFee)
  let measured ← Payments.balanceDeltaSince h hubDebt.asset h.controller before
  assertWithError (measured = result.amountReceived) .internalError
  assertWithError (measured > 0) .amountMustBePositive
  let mutation := result.toPositionMutation
  let account ← mergeDebtLeg account hubDebt (.entry mutation.assetDecimals) (.ofMutation mutation)
  return (account, measured)

end Positions

end Lending
