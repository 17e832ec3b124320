import LendingXlm.Controller.Positions

/-!
# Liquidation plans

`contracts/controller/src/positions/liquidation/{curve.rs,math.rs,plan.rs}`: how much of the
offered payments is kept, which collateral is taken for it, and the checks on the whole plan. No
token moves here.
-/

namespace Lending

open FpCore Ctrl

variable {W : Type} (h : ControllerHost W) (timestamp : Nat)

namespace Liquidation

/-! ## `curve.rs` -/

structure LiquidationSnapshot where
  totalDebt : Int
  totalCollateral : Int
  weightedCollateral : Int
  proportionSeized : Int
  hf : Int
  deriving DecidableEq, Repr

structure BonusBounds where
  base : Int
  max : Int
  deriving DecidableEq, Repr

def isSocializableBadDebt (totalDebt totalCollateral : Int) : Bool :=
  totalDebt > totalCollateral ∧ totalCollateral ≤ badDebtUsdThreshold

structure LiquidationCurve where
  targetHf : Int
  hfForMaxBonus : Int
  bonusFactor : Int
  deriving DecidableEq, Repr

def LiquidationCurve.fromConfig (cfg : SpokeConfig) : LiquidationCurve where
  targetHf := cfg.liquidationTargetHfWad
  hfForMaxBonus := cfg.hfForMaxBonusWad
  bonusFactor := cfg.liquidationBonusFactorBps

def LiquidationCurve.bonusScale (curve : LiquidationCurve) (hf target : Int) : Result Int := do
  if target ≤ curve.hfForMaxBonus then
    return Wad.one
  else
    let above ← Wad.checkedSub target hf
    let range ← Wad.checkedSub target curve.hfForMaxBonus
    return min (← Wad.div above range) Wad.one

def calculateLinearBonusWithTarget (hf base max : Int) (curve : LiquidationCurve) (target : Int) :
    Result Int := do
  if hf ≥ target then
    return base
  else
    let scale ← curve.bonusScale hf target
    let bonusRange ← Bps.checkedSub max base
    let bonusIncrement ← Wad.mul bonusRange scale
    let scaledIncrement ← Bps.applyTo curve.bonusFactor bonusIncrement
    orThrow (I128.checkedAdd base scaledIncrement) .mathOverflow

/-- The largest bonus with `1 + bonus ≤ HF / proportion`. -/
def maxHfPreservingBonusBps (snap : LiquidationSnapshot) : Option Int :=
  if snap.proportionSeized ≤ 0 ∨ snap.hf ≥ wad then none
  else some ((snap.hf * bps).tdiv snap.proportionSeized - bps)

def liquidationAtTarget (snap : LiquidationSnapshot) (bonus targetHf : Int) : Result Int := do
  let onePlusBonus ← Wad.checkedAdd Wad.one (← Bps.toWad bonus)
  let dMax ← Wad.div snap.totalCollateral onePlusBonus
  let denomTerm ← Wad.mul snap.proportionSeized onePlusBonus
  let targetDebt ← Wad.mul targetHf snap.totalDebt
  if targetHf ≤ denomTerm ∨ targetDebt ≤ snap.weightedCollateral then
    return min dMax snap.totalDebt
  else
    let numerator ← Wad.checkedSub targetDebt snap.weightedCollateral
    let denominator ← Wad.checkedSub targetHf denomTerm
    return min (min (← Wad.div numerator denominator) dMax) snap.totalDebt

/-- The repayment aimed at the target health factor, unless that leaves dust. -/
def targetRepayment (snap : LiquidationSnapshot) (bonus : Int) (curve : LiquidationCurve) :
    Result (Int × Int) := do
  let ideal ← liquidationAtTarget snap bonus curve.targetHf
  let remainingDebt ← Wad.checkedSub snap.totalDebt ideal
  if remainingDebt > 0 ∧ remainingDebt < badDebtUsdThreshold then
    return (snap.totalDebt, bonus)
  else
    return (ideal, bonus)

/-- The quoted repayment and bonus. -/
def estimateLiquidationAmount (snap : LiquidationSnapshot) (bounds : BonusBounds)
    (curve : LiquidationCurve) : Result (Int × Int) := do
  let scaledBonus ←
    calculateLinearBonusWithTarget snap.hf bounds.base bounds.max curve curve.targetHf
  match maxHfPreservingBonusBps snap with
  | none => targetRepayment snap scaledBonus curve
  | some cap =>
    if snap.totalCollateral < snap.totalDebt then
      let onePlusBase ← Wad.checkedAdd Wad.one (← Bps.toWad bounds.base)
      let backed ← Wad.divFloor snap.totalCollateral onePlusBase
      return (min backed snap.totalDebt, bounds.base)
    else if cap < bounds.base then
      return (snap.totalDebt, max cap 0)
    else
      targetRepayment snap (min scaledBonus cap) curve

def maxBonusForThreshold (proportionSeized : Int) : Result Int := do
  if proportionSeized ≤ 0 then
    return 0
  else
    let effThrBps := max 1 (min bps (← mulDivCeil proportionSeized bps wad))
    let numerator ← orThrow (I128.checkedMul bps (bps - effThrBps)) .mathOverflow
    return numerator.tdiv effThrBps

/-! ## `math.rs`: repayments -/

structure NormalizedRepaymentPlan where
  repaid : List RepayEntry
  refunds : List PaymentTuple
  repayUsd : Int
  bonus : Int
  fullClose : Bool
  repaysAllDebt : Bool
  seizeAll : Bool
  deriving DecidableEq, Repr

structure LiquidationPlan where
  repayment : NormalizedRepaymentPlan
  seized : List SeizeEntry
  deriving DecidableEq, Repr

def sumRepaidUsd (repaid : List RepayEntry) : Result Int :=
  repaid.foldlM (fun total entry => Wad.checkedAdd total entry.usdWad) Wad.zero

def SeizeEntry.validate (entry : SeizeEntry) : Result Unit := do
  require (¬ (entry.amount ≤ 0 ∨ entry.protocolFee < 0 ∨ entry.protocolFee > entry.amount))
    .internalError
  require (¬ (entry.scaledAmount ≤ 0 ∨ entry.bonusScaled < 0 ∨
    entry.bonusScaled > entry.scaledAmount ∨ (entry.liquidationFees : Int) ≥ bps)) .internalError

/-- The recorded values add up, and each seizure is positive with its fee and bonus inside it. -/
def LiquidationPlan.validate (plan : LiquidationPlan) : Result Unit := do
  require ((← sumRepaidUsd plan.repayment.repaid) = plan.repayment.repayUsd) .internalError
  plan.seized.foldlM (fun _ entry => SeizeEntry.validate entry) ()

/-- One collateral leg of the bonus average. -/
def addWeightedBonus (sum : Int) (e : HubAssetKey × AccountPosition) : Ctrl W Int := do
  let feed ← Context.cachedPrice e.1.asset
  let marketIndex ← Context.cachedMarketIndex timestamp e.1
  let value ← positionValue e.2.scaledAmount marketIndex.supplyIndex feed.price
  let product ← unwrapOr (I128.checkedMul value e.2.liquidationBonus) .mathOverflow
  unwrapOr (I128.checkedAdd sum product) .mathOverflow

def getAccountBonusParams (supplyPositions : SortedMap HubAssetKey AccountPosition)
    (totalCollateral proportionSeized : Int) : Ctrl W BonusBounds := do
  let max ← maxBonusForThreshold proportionSeized
  if totalCollateral = Wad.zero then
    return { base := 0, max }
  else
    let weightedBonusSum ← supplyPositions.entries.foldlM (addWeightedBonus timestamp) 0
    let weightedBonusBps ← divByIntHalfUp weightedBonusSum totalCollateral
    return { base := min weightedBonusBps max, max }

def calculateSeizureProportions (account : Account) (totalCollateral weightedCollateral : Int) :
    Ctrl W (Int × BonusBounds) := do
  let proportionSeized ←
    (if totalCollateral > Wad.zero then Wad.div weightedCollateral totalCollateral
    else pure Wad.zero : Result Int)
  let bounds ← getAccountBonusParams timestamp account.supplyPositions totalCollateral
    proportionSeized
  return (proportionSeized, bounds)

/-- What repayment planning carries along: the value kept, the kept entries, the refunds. -/
structure RepaymentAcc where
  totalRepaidUsd : Int
  repaid : List RepayEntry
  refunds : List PaymentTuple
  deriving DecidableEq, Repr

/-- Caps one merged payment at its debt; what is above is refunded. A payment at the cap is
credited the floor value of the debt it clears. -/
def planRepayment (account : Account) (acc : RepaymentAcc) (payment : HubPayment) :
    Ctrl W RepaymentAcc := do
  let (hubAsset, amount) := payment
  let feed ← Context.cachedPrice hubAsset.asset
  let marketIndex ← Context.cachedMarketIndex timestamp hubAsset
  let position ← Positions.getDebtPositionOrPanic account hubAsset
  let actualDebt ←
    unscaleBorrowCeil position.scaledAmount marketIndex.borrowIndex feed.assetDecimals
  let refunds := if amount > actualDebt
    then acc.refunds ++ [⟨hubAsset.asset, amount - actualDebt⟩] else acc.refunds
  let paymentAmount := min amount actualDebt
  let paymentUsd ←
    (if paymentAmount = actualDebt then
      positionValueFloor position.scaledAmount marketIndex.borrowIndex feed.price
    else feed.usdValueWad paymentAmount : Result Int)
  let totalRepaidUsd ← Wad.checkedAdd acc.totalRepaidUsd paymentUsd
  return {
    totalRepaidUsd
    repaid := acc.repaid ++
      [{ hubAsset, amount := paymentAmount, usdWad := paymentUsd, feed, marketIndex }]
    refunds }

def calculateRepaymentAmounts (rawPayments : List HubPayment) (account : Account) :
    Ctrl W RepaymentAcc := do
  let merged ← Payments.aggregatePositivePayments rawPayments
  merged.foldlM (planRepayment timestamp account) ⟨Wad.zero, [], []⟩

/-- What is kept of an entry that is cut in part: the amount and its value. -/
def cutEntry (entry : RepayEntry) (excessUsd : Int) (keepWithinQuote : Bool) :
    Result (Int × Int) := do
  let decimals := entry.feed.assetDecimals
  let price := entry.feed.price
  let newAmount ←
    (if keepWithinQuote then do
      let kept ← Wad.toTokenFloor
        (← Wad.divFloor (← Wad.checkedSub entry.usdWad excessUsd) price) decimals
      pure (min kept entry.amount)
    else do
      let ratio ← Wad.divFloor excessUsd entry.usdWad
      let cut ← Wad.toTokenFloor
        (← Wad.mulFloor (← Wad.fromToken entry.amount decimals) ratio) decimals
      pure (entry.amount - cut) : Result Int)
  let newUsd := min (← Wad.mul (← Wad.fromToken newAmount decimals) price) entry.usdWad
  return (newAmount, newUsd)

/-- What trimming carries along: the entries kept so far (those after the cursor), the refunds
and the excess still to remove. -/
structure ExcessAcc where
  kept : List RepayEntry
  refunds : List PaymentTuple
  remaining : Int
  deriving DecidableEq, Repr

/-- One entry of `process_excess_payment`, from the last one backward. -/
def trimEntry (keepWithinQuote : Bool) (entry : RepayEntry) (acc : ExcessAcc) :
    Result ExcessAcc := do
  if acc.remaining ≤ 0 ∨ entry.amount ≤ 0 ∨ entry.usdWad = Wad.zero then
    return { acc with kept := entry :: acc.kept }
  else if entry.usdWad > acc.remaining then
    let (newAmount, newUsd) ← cutEntry entry acc.remaining keepWithinQuote
    let remaining ←
      (if keepWithinQuote then do
        let removedUsd ← Wad.checkedSub entry.usdWad newUsd
        if removedUsd ≥ acc.remaining then pure Wad.zero
        else Wad.checkedSub acc.remaining removedUsd
      else pure Wad.zero : Result Int)
    return {
      kept := if newAmount = 0 then acc.kept
        else { entry with amount := newAmount, usdWad := newUsd } :: acc.kept
      refunds := acc.refunds ++ [⟨entry.hubAsset.asset, entry.amount - newAmount⟩]
      remaining }
  else
    return {
      kept := acc.kept
      refunds := acc.refunds ++ [⟨entry.hubAsset.asset, entry.amount⟩]
      remaining := ← Wad.checkedSub acc.remaining entry.usdWad }

/-- Removes `excessUsd` of planned repayment from the last entry backward; returns the kept
entries and the refunds. -/
def processExcessPayment (repaid : List RepayEntry) (refunds : List PaymentTuple)
    (excessUsd : Int) (keepWithinQuote : Bool) :
    Result (List RepayEntry × List PaymentTuple) := do
  let acc ← repaid.reverse.foldlM (fun acc entry => trimEntry keepWithinQuote entry acc)
    ⟨[], refunds, excessUsd⟩
  return (acc.kept, acc.refunds)

/-- Whether every debt position has a repayment at its ceiling-rounded balance. -/
def repaysEveryDebtLeg (account : Account) (repaid : List RepayEntry) : Ctrl W Bool := do
  if repaid.length ≠ account.borrowPositions.size then
    return false
  else
    repaid.foldlM (fun all entry => do
      if ¬ all then
        return false
      else
        match account.borrowPositions.get? entry.hubAsset with
        | none => return false
        | some position =>
          let borrowIndex := (← Context.cachedMarketIndex timestamp entry.hubAsset).borrowIndex
          let debt ←
            unscaleBorrowCeil position.scaledAmount borrowIndex entry.feed.assetDecimals
          return entry.amount ≥ debt) true

def oneUnitPerDebtLegUsd (account : Account) : Ctrl W Int :=
  account.borrowPositions.keys.foldlM (fun total hubAsset => do
    let feed ← Context.cachedPrice hubAsset.asset
    let unit ← Wad.mul (← Wad.fromToken 1 feed.assetDecimals) feed.price
    Wad.checkedAdd total unit) Wad.zero

def oneUnitPerLegUsd (repaid : List RepayEntry) : Result Int :=
  repaid.foldlM (fun total entry => do
    let unit ← Wad.mul (← Wad.fromToken 1 entry.feed.assetDecimals) entry.feed.price
    Wad.checkedAdd total unit) Wad.zero

/-- The raised quote of an account whose only supply leg is in whole units: one unit, or the
whole debt when one unit covers it. -/
def wholeUnitQuote (account : Account) (snap : LiquidationSnapshot) (feed : PriceFeed)
    (quoteUsd bonus : Int) : Ctrl W Int := do
  let onePlusBonus ← Wad.checkedAdd Wad.one (← Bps.toWad bonus)
  let unitUsd ← Wad.mul (← Wad.fromToken 1 feed.assetDecimals) feed.price
  let unitWithMargin ← Wad.checkedAdd unitUsd (max (unitUsd.tdiv 1_000_000) 1)
  let quoted ← Wad.mul quoteUsd onePlusBonus
  if quoted ≥ unitWithMargin then
    return quoteUsd
  else
    let unitAtBonus ← mulDivFloor unitUsd Wad.one onePlusBonus
    let legs ← oneUnitPerDebtLegUsd account
    let fullCloseCeiling ← Wad.checkedAdd snap.totalDebt legs
    if unitAtBonus ≥ fullCloseCeiling then
      return snap.totalDebt
    else
      let unitRepayment ← mulDivCeil unitWithMargin Wad.one onePlusBonus
      if unitRepayment ≥ snap.totalDebt then
        return quoteUsd
      else
        return unitRepayment

def wholeUnitRepayment (account : Account) (snap : LiquidationSnapshot) (quoteUsd bonus : Int) :
    Ctrl W Int := do
  match account.supplyPositions.entries with
  | [(hubAsset, position)] =>
    let feed ← Context.cachedPrice hubAsset.asset
    if feed.assetDecimals ≥ minBorrowableAssetDecimals then
      return quoteUsd
    else
      let supplyIndex := (← Context.cachedMarketIndex timestamp hubAsset).supplyIndex
      let heldUnits ←
        Ray.toAssetFloor (← Ray.mul position.scaledAmount supplyIndex) feed.assetDecimals
      if heldUnits < 1 then
        return quoteUsd
      else
        wholeUnitQuote account snap feed quoteUsd bonus
  | _ => return quoteUsd

def normalizeRepaymentPlan (account : Account) (rawPayments : List HubPayment)
    (snap : LiquidationSnapshot) (bonusBounds : BonusBounds) (curve : LiquidationCurve) :
    Ctrl W NormalizedRepaymentPlan := do
  let acc ← calculateRepaymentAmounts timestamp rawPayments account
  let (curveRepaymentUsd, bonus) ← estimateLiquidationAmount snap bonusBounds curve
  let insolvent : Bool := snap.totalCollateral < snap.totalDebt
  let idealRepaymentUsd ←
    (if insolvent ∨ curveRepaymentUsd ≥ snap.totalDebt then pure curveRepaymentUsd
    else wholeUnitRepayment timestamp account snap curveRepaymentUsd bonus : Ctrl W Int)
  let fullClose : Bool := idealRepaymentUsd ≥ snap.totalDebt
  let (repaid, refunds) ←
    (if ¬ fullClose ∧ acc.totalRepaidUsd > idealRepaymentUsd then do
      let excessUsd ← Wad.checkedSub acc.totalRepaidUsd idealRepaymentUsd
      processExcessPayment acc.repaid acc.refunds excessUsd insolvent
    else pure (acc.repaid, acc.refunds) : Result (List RepayEntry × List PaymentTuple))
  let repayUsd ← sumRepaidUsd repaid
  let seizeAll ←
    (if insolvent ∧ repayUsd > Wad.zero then do
      let reach ← Wad.checkedAdd repayUsd (← oneUnitPerLegUsd repaid)
      pure (decide (reach ≥ idealRepaymentUsd))
    else pure false : Result Bool)
  let repaysAllDebt ←
    (if fullClose then repaysEveryDebtLeg timestamp account repaid else pure false : Ctrl W Bool)
  return { repaid, refunds, repayUsd, bonus, fullClose, repaysAllDebt, seizeAll }

/-! ## `math.rs`: seizures -/

/-- The seizure of a leg in whole units: rounded up to what is held when the plan repays all
debt, else down, with the value of the dropped fraction. -/
def wholeUnitSeizure (feed : PriceFeed) (repaysAllDebt : Bool)
    (seizureRay actualRay seizureForAssetUsd unseizedUsd : Int) : Result (Int × Int) := do
  if repaysAllDebt then
    let whole ← Ray.toAssetCeil seizureRay feed.assetDecimals
    return (min (← Ray.fromAsset whole feed.assetDecimals) actualRay, unseizedUsd)
  else
    let whole ← Ray.toAssetFloor seizureRay feed.assetDecimals
    let seizureRay ← Ray.fromAsset whole feed.assetDecimals
    let wholeUsd ← Wad.mul (← Ray.toWad seizureRay) feed.price
    if seizureForAssetUsd > wholeUsd then
      let dropped ← Wad.checkedSub seizureForAssetUsd wholeUsd
      return (seizureRay, ← Wad.checkedAdd unseizedUsd dropped)
    else
      return (seizureRay, unseizedUsd)

/-- The entry for `cappedRay` taken out of a position worth `actualRay`; `none` when it rounds to
nothing. Principal comes from the uncapped seizure, so that a cap leaves less bonus and not
less principal. -/
def seizeLeg (hubAsset : HubAssetKey) (position : AccountPosition) (feed : PriceFeed)
    (marketIndex : MarketIndex) (onePlusBonus seizureRay cappedRay actualRay : Int) :
    Result (Option SeizeEntry) := do
  let isFullClose : Bool := cappedRay = actualRay
  let baseRay ← Ray.divFloor seizureRay (← Wad.toRay onePlusBonus)
  let bonusRay ←
    (if cappedRay > baseRay then Ray.checkedSub cappedRay baseRay else pure Ray.zero : Result Int)
  let protocolFeeRay ← Bps.applyToRay position.liquidationFees bonusRay
  let seizedScaled ←
    (if isFullClose then pure position.scaledAmount
    else Ray.divFloor cappedRay marketIndex.supplyIndex : Result Int)
  let bonusScaled := min (← Ray.divFloor bonusRay marketIndex.supplyIndex) seizedScaled
  if seizedScaled ≤ Ray.zero then
    return none
  else
    let cappedAmount ←
      (if isFullClose then Ray.toAsset cappedRay feed.assetDecimals
      else Ray.toAssetFloor cappedRay feed.assetDecimals : Result Int)
    if cappedAmount ≤ 0 then
      return none
    else
      let (_, poolGross) ← resolveWithdrawal cappedAmount position.scaledAmount
        marketIndex.supplyIndex feed.assetDecimals
      let feeAsset ← Ray.toAssetFloor protocolFeeRay feed.assetDecimals
      let bumpedFee := if protocolFeeRay > Ray.zero ∧ feeAsset = 0 then 1 else feeAsset
      let paidRay ← Ray.fromAsset poolGross feed.assetDecimals
      let realisedExcess ←
        (if paidRay > baseRay then do
          Ray.toAssetFloor (← Ray.checkedSub paidRay baseRay) feed.assetDecimals
        else pure 0 : Result Int)
      return some
        { hubAsset
          amount := cappedAmount
          protocolFee := min bumpedFee realisedExcess
          scaledAmount := seizedScaled
          bonusScaled
          liquidationFees := position.liquidationFees
          feed
          marketIndex }

/-- `saturating_mul` of a wad amount to a ray amount. -/
def wadToRaySaturating (amount : Int) : Int :=
  max i128Min (min i128Max (amount * (ray / wad)))

/-- One collateral leg of `calculate_seized_collateral`. -/
def seizePosition (repayment : NormalizedRepaymentPlan) (totalCollateral onePlusBonus
    totalSeizureUsd : Int) (acc : List SeizeEntry × Int) (e : HubAssetKey × AccountPosition) :
    Ctrl W (List SeizeEntry × Int) := do
  let (hubAsset, position) := e
  let (seized, unseizedUsd) := acc
  let feed ← Context.cachedPrice hubAsset.asset
  let marketIndex ← Context.cachedMarketIndex timestamp hubAsset
  let actualRay ← Ray.mul position.scaledAmount marketIndex.supplyIndex
  let assetValue ← positionValue position.scaledAmount marketIndex.supplyIndex feed.price
  let share ← Wad.div assetValue totalCollateral
  let seizureForAssetUsd ← Wad.mul totalSeizureUsd share
  let seizureRay := wadToRaySaturating (← Wad.div seizureForAssetUsd feed.price)
  let (seizureRay, unseizedUsd) ←
    (if ¬ repayment.seizeAll ∧ feed.assetDecimals < minBorrowableAssetDecimals ∧
        seizureRay < actualRay then
      wholeUnitSeizure feed repayment.repaysAllDebt seizureRay actualRay seizureForAssetUsd
        unseizedUsd
    else pure (seizureRay, unseizedUsd) : Result (Int × Int))
  let cappedRay := if repayment.seizeAll then actualRay else min seizureRay actualRay
  if seizureRay ≤ Ray.zero ∨ cappedRay ≤ Ray.zero then
    return (seized, unseizedUsd)
  else
    let entry? ←
      seizeLeg hubAsset position feed marketIndex onePlusBonus seizureRay cappedRay actualRay
    return (seized ++ entry?.toList, unseizedUsd)

/-- The seizures, and the repayment value the dropped fractions no longer back. -/
def calculateSeizedCollateral (account : Account) (totalCollateral : Int)
    (repayment : NormalizedRepaymentPlan) : Ctrl W (List SeizeEntry × Int) := do
  if totalCollateral ≤ Wad.zero then
    return ([], Wad.zero)
  else
    let onePlusBonus ← Wad.checkedAdd Wad.one (← Bps.toWad repayment.bonus)
    let totalSeizureUsd ← Wad.mul repayment.repayUsd onePlusBonus
    let (seized, unseizedUsd) ← account.supplyPositions.entries.foldlM
      (seizePosition timestamp repayment totalCollateral onePlusBonus totalSeizureUsd)
      ([], Wad.zero)
    let unbackedUsd ← Wad.divFloor unseizedUsd onePlusBonus
    return (seized, unbackedUsd)

/-- Trims repayment that no seizure backs; the plan then no longer closes the debt. -/
def releaseUnbackedRepayment (repayment : NormalizedRepaymentPlan) (excessUsd : Int) :
    Result NormalizedRepaymentPlan := do
  if excessUsd ≤ Wad.zero then
    return repayment
  else
    let (repaid, refunds) ←
      processExcessPayment repayment.repaid repayment.refunds excessUsd false
    let repayUsd ← sumRepaidUsd repaid
    return { repayment with
      repaid, refunds, repayUsd, fullClose := false, repaysAllDebt := false }

/-- The fee shares and the liquidator's shares of a credited seizure. -/
def splitSeizedShares (seizedScaled bonusScaled : Int) (liquidationFeesBps : Nat) :
    Result (Int × Int) := do
  let fees : Int := liquidationFeesBps
  require (¬ (seizedScaled < Ray.zero ∨ bonusScaled < Ray.zero ∨ bonusScaled > seizedScaled ∨
    fees ≥ bps)) .internalError
  let feeScaled ← mulDivCeil bonusScaled fees bps
  require (¬ feeScaled > seizedScaled) .internalError
  let liquidatorScaled ← Ray.checkedSub seizedScaled feeScaled
  require ((← Ray.checkedAdd feeScaled liquidatorScaled) = seizedScaled) .internalError
  return (feeScaled, liquidatorScaled)

/-- One entry scaled down by `num / den`. -/
def scaleSeizeEntry (num den : Int) (entry : SeizeEntry) : Result SeizeEntry := do
  require (entry.feed.assetDecimals ≥ minBorrowableAssetDecimals) .invalidPayments
  let scaledAmount ← mulDivFloor entry.scaledAmount num den
  let sharesAmount ← Ray.toAssetFloor
    (← Ray.mulFloor scaledAmount entry.marketIndex.supplyIndex) entry.feed.assetDecimals
  let amount := min (← mulDivFloor entry.amount num den) sharesAmount
  let protocolFee := min (← mulDivFloor entry.protocolFee num den) amount
  let bonusScaled ← mulDivFloor entry.bonusScaled num den
  return { entry with amount, protocolFee, scaledAmount, bonusScaled }

/-- Sizes the seizures to what was received of the planned repayment. -/
def scaleSeizuresToReceived (seized : List SeizeEntry) (receivedUsd plannedUsd : Int) :
    Result (List SeizeEntry) :=
  if plannedUsd ≤ Wad.zero ∨ receivedUsd ≥ plannedUsd then pure seized
  else seized.mapM (scaleSeizeEntry receivedUsd plannedUsd)

/-! ## `plan.rs` -/

/-- The totals and the quote's inputs of an unhealthy account. -/
def liquidationSnapshot (account : Account) :
    Ctrl W (LiquidationSnapshot × BonusBounds × LiquidationCurve) := do
  let totals ←
    Risk.calculateAccountRiskTotals h timestamp account.supplyPositions account.borrowPositions
  assertWithError (totals.healthFactor < Wad.one) .healthFactorTooHigh
  let (proportionSeized, bonusBounds) ←
    calculateSeizureProportions timestamp account totals.totalCollateral totals.weightedCollateral
  let snap : LiquidationSnapshot :=
    { totalDebt := totals.totalDebt
      totalCollateral := totals.totalCollateral
      weightedCollateral := totals.weightedCollateral
      proportionSeized
      hf := totals.healthFactor }
  let curve := LiquidationCurve.fromConfig (← Context.spokeConfig account.spokeId)
  return (snap, bonusBounds, curve)

/-- The plan before it is validated. -/
def assembleLiquidationPlan (account : Account) (rawPayments : List HubPayment) :
    Ctrl W LiquidationPlan := do
  assertWithError (¬ account.borrowPositions.isEmpty) .healthFactorTooHigh
  rawPayments.foldlM (fun _ e =>
    Positions.enforceSpokeAssetFlags account.spokeId e.1 .allowOnExit) ()
  let (snap, bonusBounds, curve) ← liquidationSnapshot h timestamp account
  let repayment ← normalizeRepaymentPlan timestamp account rawPayments snap bonusBounds curve
  let (seized, unbackedUsd) ←
    calculateSeizedCollateral timestamp account snap.totalCollateral repayment
  let repayment ← releaseUnbackedRepayment repayment unbackedUsd
  let repayment ←
    (if unbackedUsd > Wad.zero ∧ seized = [] then
      releaseUnbackedRepayment repayment repayment.repayUsd
    else pure repayment : Result NormalizedRepaymentPlan)
  seized.foldlM (fun _ entry =>
    Positions.enforceSpokeAssetFlags account.spokeId entry.hubAsset .seizureLeg) ()
  return { repayment, seized }

def buildLiquidationPlan (account : Account) (rawPayments : List HubPayment) :
    Ctrl W LiquidationPlan := do
  let plan ← assembleLiquidationPlan h timestamp account rawPayments
  plan.validate
  return plan

end Liquidation

end Lending
