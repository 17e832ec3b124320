import LendingXlm.Controller.Liquidation.Plan

/-!
# Liquidation and bad debt

`contracts/controller/src/positions/liquidation/{apply.rs,bad_debt.rs,mod.rs}`: the plan is paid,
the seizures are sized to what arrived and either paid out or credited as shares, and debt that
no collateral backs is written off.
-/

namespace Lending

open Ctrl Positions

variable {W : Type} (h : ControllerHost W) (timestamp : Nat)

namespace Liquidation

/-! ## `apply.rs` -/

def offeredAmount (offers : List HubPayment) (hubAsset : HubAssetKey) : Result Int := do
  return (← expectInvariant (offers.find? fun e => e.1 = hubAsset)).2

/-- What repayment pulls carry along: the pool's actions and the value received. -/
structure PullAcc where
  actions : List PoolAction
  receivedUsd : Int

/-- What is pulled for an entry: a full-close plan pulls the whole merged offer and leaves the
refund to the pool. -/
def pullAmount (offered : Option (List HubPayment)) (entry : RepayEntry) : Result Int :=
  match offered with
  | none => pure entry.amount
  | some offers => offeredAmount offers entry.hubAsset

/-- Pulls one planned repayment. -/
def pullLiquidationRepayment (liquidator : Address) (account : Account)
    (offered : Option (List HubPayment)) (acc : PullAcc) (entry : RepayEntry) :
    Ctrl W PullAcc := do
  enforceSpokeAssetFlags account.spokeId entry.hubAsset .allowOnExit
  let pull ← pullAmount offered entry
  let received ← Payments.transferAmountMeasured h entry.hubAsset.asset liquidator h.pool pull
    .amountMustBePositive
  let legUsd ←
    (if received ≥ entry.amount then pure entry.usdWad
    else FpCore.mulDivFloor entry.usdWad received entry.amount : Result Int)
  let receivedUsd ← Wad.checkedAdd acc.receivedUsd legUsd
  let position ← expectInvariant (account.borrowPositions.get? entry.hubAsset)
  return {
    actions := acc.actions ++ [makePoolAction position.scaledAmount received entry.hubAsset]
    receivedUsd }

/-- The account after the repayments, and the value received. -/
def applyLiquidationRepayments (liquidator : Address) (account : Account)
    (repaid : List RepayEntry) (offered : Option (List HubPayment)) : Ctrl W (Account × Int) := do
  let acc ← repaid.foldlM (pullLiquidationRepayment h liquidator account offered) ⟨[], Wad.zero⟩
  let (account, _) ← applyRepayBatch h timestamp account liquidator acc.actions
  return (account, acc.receivedUsd)

/-- The pool's request for one seizure. -/
def seizureEntry (account : Account) (entries : List PoolWithdrawEntry) (entry : SeizeEntry) :
    Ctrl W (List PoolWithdrawEntry) := do
  enforceSpokeAssetFlags account.spokeId entry.hubAsset .seizureLeg
  let position ← expectInvariant (account.supplyPositions.get? entry.hubAsset)
  return entries ++
    [⟨makePoolAction position.scaledAmount entry.amount entry.hubAsset, entry.protocolFee⟩]

def applyLiquidationSeizures (liquidator : Address) (account : Account)
    (seized : List SeizeEntry) : Ctrl W Account := do
  let entries ← seized.foldlM (seizureEntry account) []
  let (account, _) ← applyWithdrawBatch h timestamp account liquidator .liquidation entries
  return account

/-- Credits shares under the receiver's own stamps, or the current listing for a new position. -/
def creditSupplyShares (receiver : Account) (hubAsset : HubAssetKey) (scaled : Int) :
    Ctrl W Account := do
  if scaled = Ray.zero then
    return receiver
  else
    let position ←
      (match receiver.supplyPositions.get? hubAsset with
      | some position => pure position
      | none => do
        let config ← Context.requireSpokeAsset receiver.spokeId hubAsset
        return receiver.getOrCreateSupplyPosition hubAsset config : Ctrl W AccountPosition)
    let scaledAmount ← Ray.checkedAdd position.scaledAmount scaled
    return receiver.updateOrRemoveSupplyPosition hubAsset { position with scaledAmount }

/-- What share credits carry along: the two accounts and the fees to reclassify. -/
structure CreditAcc where
  account : Account
  receiver : Account
  feeEntries : List PoolSeizeEntry

/-- Moves one seizure from the liquidated account to the receiver; only the fee leaves the
spoke's usage. -/
def creditSeizure (acc : CreditAcc) (entry : SeizeEntry) : Ctrl W CreditAcc := do
  let { account, receiver, feeEntries } := acc
  enforceSpokeAssetFlags account.spokeId entry.hubAsset .seizureLeg
  let seizedScaled := entry.scaledAmount
  let (feeScaled, liquidatorScaled) ←
    splitSeizedShares seizedScaled entry.bonusScaled entry.liquidationFees
  assertWithError (receiver.spokeId = account.spokeId) .spokeMismatch
  let rest ← Ray.checkedSub seizedScaled liquidatorScaled
  assertWithError (rest = feeScaled) .internalError
  let position ← getSupplyPositionOrPanic account entry.hubAsset
  let scaledAmount ← Ray.checkedSub position.scaledAmount seizedScaled
  let account := account.updateOrRemoveSupplyPosition entry.hubAsset { position with scaledAmount }
  let receiver ← creditSupplyShares receiver entry.hubAsset liquidatorScaled
  if feeScaled > Ray.zero then
    Context.applySpokeExit account.spokeId .supply entry.hubAsset feeScaled
    let feeEntry : PoolSeizeEntry := ⟨.deposit, ⟨feeScaled⟩, entry.hubAsset⟩
    return { account, receiver, feeEntries := feeEntries ++ [feeEntry] }
  else
    return { account, receiver, feeEntries }

/-- A call of `seize_positions`. -/
def poolSeizePositions (entries : List PoolSeizeEntry) : Ctrl W Unit :=
  poolCall fun pool => do return (← LiquidityPool.seizePositions timestamp pool entries, ())

/-- The liquidated account and the receiver after the credit. -/
def applyLiquidationShareCredit (account receiver : Account) (seized : List SeizeEntry) :
    Ctrl W (Account × Account) := do
  let acc ← seized.foldlM creditSeizure ⟨account, receiver, []⟩
  if acc.feeEntries ≠ [] then
    poolSeizePositions timestamp acc.feeEntries
    return (acc.account, acc.receiver)
  else
    return (acc.account, acc.receiver)

def creditedShares (entry : SeizeEntry) : Result Int := do
  return (← splitSeizedShares entry.scaledAmount entry.bonusScaled entry.liquidationFees).2

/-- The seizures that credit something, as the payments the entry gates look at. -/
def creditedPayments (seized : List SeizeEntry) : Result (List HubPayment) :=
  seized.foldlM (fun aggregated entry => do
    if (← creditedShares entry) > Ray.zero then
      return aggregated ++ [(entry.hubAsset, entry.amount)]
    else
      return aggregated) []

/-- A fresh receiver skips the governed limit: its legs are a subset of the liquidated
account's. -/
def requireCreditPositionLimit (receiver : Account) (seized : List SeizeEntry) (fresh : Bool) :
    Ctrl W Unit := do
  let aggregated ← creditedPayments seized
  if fresh then
    Risk.requireWholeUnitIsolation receiver aggregated
  else
    Risk.validateBulkPositionLimits receiver .deposit aggregated
    Risk.requireWholeUnitIsolation receiver aggregated

/-- The receiver holds every credited leg. The source reads the positions for its events. -/
def recordShareCreditUpdates (receiver : Account) (seized : List SeizeEntry) : Ctrl W Unit :=
  seized.foldlM (fun _ entry => do
    let liquidatorScaled ← creditedShares entry
    if liquidatorScaled = Ray.zero then
      return ()
    else
      let _ ← getSupplyPositionOrPanic receiver entry.hubAsset
      let credited ← Ray.mul liquidatorScaled entry.marketIndex.supplyIndex
      let _ ← Ray.toAssetFloor credited entry.feed.assetDecimals) ()

/-! ## `bad_debt.rs` -/

/-- Releases every position from usage and hands it to the pool, then removes the account. -/
def executeBadDebtCleanup (accountId : Nat) (account : Account) : Ctrl W Unit := do
  let supplies ← account.supplyPositions.entries.foldlM (fun entries e => do
    Context.applySpokeExit account.spokeId .supply e.1 e.2.scaledAmount
    return entries ++ [(⟨.deposit, ⟨e.2.scaledAmount⟩, e.1⟩ : PoolSeizeEntry)]) []
  let entries ← account.borrowPositions.entries.foldlM (fun entries e => do
    Context.applySpokeExit account.spokeId .borrow e.1 e.2.scaledAmount
    return entries ++ [(⟨.borrow, ⟨e.2.scaledAmount⟩, e.1⟩ : PoolSeizeEntry)]) supplies
  poolSeizePositions timestamp entries
  Context.persistSpokeUsage
  Account.removeAccountAndBurnNft h accountId

def checkBadDebtAfterLiquidation (accountId : Nat) (account : Account)
    (totals : Risk.AccountRiskTotals) : Ctrl W Unit := do
  if account.borrowPositions.isEmpty then
    account.cleanupAccountIfEmpty h accountId
  else if isSocializableBadDebt totals.totalDebt totals.totalCollateral then
    executeBadDebtCleanup h timestamp accountId account
  else
    return ()

/-! ## `mod.rs` -/

def loadCreditReceiver (accountId : Nat) (account : Account) (requested : Nat) :
    Ctrl W Account := do
  assertWithError (requested ≠ accountId) .selfLiquidationNotAllowed
  let receiver ← Storage.getAccount h requested
  assertWithError (receiver.spokeId = account.spokeId) .spokeMismatch
  assertWithError (receiver.mode = .normal) .accountModeMismatch
  return receiver

def resolveSeizeReceiver (liquidator : Address) (accountId : Nat) (account : Account)
    (seizeMode : SeizeMode) : Ctrl W (Option (Nat × Account)) := do
  match seizeMode with
  | .transfer => return none
  | .credit requested =>
    if requested = 0 then
      return some (← Account.createAccountWith h liquidator account.spokeId .normal
        .allowDeprecated)
    else
      let receiver ← loadCreditReceiver h accountId account requested
      Account.requireOwnerOrDelegate requested liquidator receiver.owner
      return some (requested, receiver)

/-- Takes the seizures, by transfer or as shares of the receiver. -/
def takeSeizures (liquidator : Address) (account : Account) (receiver : Option (Nat × Account))
    (fresh : Bool) (seized : List SeizeEntry) :
    Ctrl W (Account × Option (Nat × Account)) := do
  match receiver with
  | none =>
    let account ← applyLiquidationSeizures h timestamp liquidator account seized
    return (account, none)
  | some (receiverId, receiving) =>
    requireCreditPositionLimit receiving seized fresh
    let (account, receiving) ← applyLiquidationShareCredit timestamp account receiving seized
    return (account, some (receiverId, receiving))

def finalizeReceiver (receiver : Option (Nat × Account)) (seized : List SeizeEntry) :
    Ctrl W Unit := do
  match receiver with
  | none => return ()
  | some (receiverId, receiving) =>
    recordShareCreditUpdates receiving seized
    finalizePositionFlow h receiverId receiving .supply false

def processLiquidation (liquidator : Address) (accountId : Nat) (debtPayments : List HubPayment)
    (seizeMode : SeizeMode) : Ctrl W Nat := do
  Risk.requireNotFlashLoaning
  let account ← Storage.getAccount h accountId
  requireNonEmptyPayments debtPayments
  let receiver ← resolveSeizeReceiver h liquidator accountId account seizeMode
  let plan ← buildLiquidationPlan h timestamp account debtPayments
  let offered ←
    (if plan.repayment.fullClose then do
      pure (some (← Payments.aggregatePositivePayments debtPayments))
    else pure none : Result (Option (List HubPayment)))
  requireNonEmptyPayments plan.repayment.repaid
  let (account, receivedUsd) ←
    applyLiquidationRepayments h timestamp liquidator account plan.repayment.repaid offered
  let repayUsd ← sumRepaidUsd plan.repayment.repaid
  let seized ← scaleSeizuresToReceived plan.seized receivedUsd repayUsd
  let (account, receiver) ←
    takeSeizures h timestamp liquidator account receiver (seizeMode = .credit 0) seized
  let postTotals ←
    Risk.calculateAccountRiskTotals h timestamp account.supplyPositions account.borrowPositions
  finalizePositionFlow h accountId account .both false
  finalizeReceiver h receiver seized
  checkBadDebtAfterLiquidation h timestamp accountId account postTotals
  return (receiver.map Prod.fst).getD 0

inductive BadDebtGate where
  | dustCapped
  | insolventOnly
  deriving DecidableEq, Repr

def socializeBadDebt (accountId : Nat) (gate : BadDebtGate) : Ctrl W Unit := do
  let account ← Storage.getAccount h accountId
  assertWithError (¬ account.borrowPositions.isEmpty) .debtPositionNotFound
  let totals ←
    Risk.calculateAccountRiskTotals h timestamp account.supplyPositions account.borrowPositions
  let admits : Bool := match gate with
    | .dustCapped => isSocializableBadDebt totals.totalDebt totals.totalCollateral
    | .insolventOnly => totals.totalDebt > totals.totalCollateral
  assertWithError admits .cannotCleanBadDebt
  executeBadDebtCleanup h timestamp accountId account

def processCleanBadDebt (accountId : Nat) : Ctrl W Unit := do
  Risk.requireNotFlashLoaning
  socializeBadDebt h timestamp accountId .dustCapped

def processForceSocializeBadDebt (accountId : Nat) : Ctrl W Unit := do
  Risk.requireNotFlashLoaning
  socializeBadDebt h timestamp accountId .insolventOnly

end Liquidation

end Lending
