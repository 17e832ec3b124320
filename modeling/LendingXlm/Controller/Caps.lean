import LendingXlm.Controller.Entrypoints

/-!
# Supply and borrow caps

`calculate_scaled_cap` and `spoke_usage.rs`. The cap is converted to shares once, rounding down,
and compared with the shares a row would hold; on integers that is the comparison of the exact
values, so neither the rounding nor the saturation lets a row above its cap.

* `enforceSpokeCap_eq`: the verdict of the check, as exact arithmetic;
* `applyExit_eq`: an exit asks only whether the row holds what leaves.
-/

namespace Lending

open Rounding FpCore

/-- A cap in asset units, in ray. -/
def capRay (cap : Int) (decimals : Nat) : Int := cap * assetUnit decimals

/-! ## The scaled cap -/

/-- A cap the listing accepted converts to ray without overflow. -/
theorem fromAsset_of_domain {cap : Int} {decimals : Nat} (h0 : 0 ≤ cap)
    (hdomain : Config.requireCapWithinAssetDomain cap decimals = .ok ()) :
    Ray.fromAsset cap decimals = .ok (capRay cap decimals) := by
  unfold Config.requireCapWithinAssetDomain at hdomain
  simp only [Fallible.bind_ok_iff, Fallible.require_ok_iff] at hdomain
  obtain ⟨-, hdec, hcap⟩ := hdomain
  have hunit : (0 : Int) < 10 ^ (rayDecimals - decimals) := by positivity
  rw [Config.maxCapForDecimals, if_neg (by omega), le_floor_iff hunit] at hcap
  have hin : InI128 (cap * 10 ^ (rayDecimals - decimals)) :=
    inI128_of_nonneg (mul_nonneg h0 hunit.le) hcap
  unfold Ray.fromAsset capRay assetUnit
  rcases hdec.eq_or_lt with rfl | hlt
  · simp [rescaleHalfUp, rescale_same]
  · rw [rescaleHalfUp_up hlt (by simp only [rayDecimals]; omega), toI128_eq, if_pos hin]

/-- The cap in shares: the exact quotient rounded down, or `i128::MAX` beyond it. -/
theorem calculateScaledCap_eq {cap index : Int} {decimals : Nat} (h0 : 0 ≤ cap)
    (hdomain : Config.requireCapWithinAssetDomain cap decimals = .ok ()) (hindex : 0 < index) :
    calculateScaledCap cap decimals index =
      .ok (min (capRay cap decimals * ray / index) i128Max) := by
  have hray : 0 ≤ capRay cap decimals := mul_nonneg h0 (assetUnit_pos decimals).le
  unfold calculateScaledCap
  rw [fromAsset_of_domain h0 hdomain, Fallible.ok_bind,
    mulDivFloorSaturating_eq hindex hray ray_pos.le]

/-- Below the scaled cap is at most the cap in exact arithmetic, for shares an `i128` holds. -/
theorem le_scaledCap_iff {cap index shares : Int} {decimals : Nat} (hindex : 0 < index)
    (hshares : InI128 shares) :
    shares ≤ min (capRay cap decimals * ray / index) i128Max ↔
      shares * index ≤ capRay cap decimals * ray := by
  rw [le_min_iff, le_floor_iff hindex]
  exact and_iff_left hshares.2

/-! ## Entries -/

/-- The verdict of the cap check. -/
theorem enforceSpokeCap_eq {side : UsageSide} {usage : SpokeUsage} {delta cap index : Int}
    {decimals : Nat} (h0 : 0 ≤ cap)
    (hdomain : Config.requireCapWithinAssetDomain cap decimals = .ok ()) (hindex : 0 < index) :
    enforceSpokeCap side usage delta cap index decimals =
      if ¬ InI128 (side.scaled usage + delta) then .error .mathOverflow
      else if (side.scaled usage + delta) * index ≤ capRay cap decimals * ray then
        .ok (side.scaled usage + delta)
      else .error side.capError := by
  unfold enforceSpokeCap
  rw [calculateScaledCap_eq h0 hdomain hindex, Fallible.ok_bind]
  unfold Ray.checkedAdd checkedAddRaw I128.checkedAdd
  by_cases hin : InI128 (side.scaled usage + delta)
  · rw [if_pos hin, if_neg (not_not.mpr hin)]
    have hiff : side.scaled usage + delta ≤ min (capRay cap decimals * ray / index) i128Max ↔
        (side.scaled usage + delta) * index ≤ capRay cap decimals * ray :=
      le_scaledCap_iff hindex hin
    change (require _ side.capError >>= fun _ => _) = _
    by_cases hle : (side.scaled usage + delta) * index ≤ capRay cap decimals * ray
    · rw [if_pos hle, Fallible.require_pos (hiff.mpr hle)]
      rfl
    · rw [if_neg hle, Fallible.require_error_iff.mpr ⟨mt hiff.mp hle, rfl⟩]
      rfl
  · rw [if_neg hin, if_pos hin]
    rfl

/-! ## Exits -/

namespace SpokeUsageContext

variable {ctx : SpokeUsageContext} {store : ControllerStore} {side : UsageSide}
  {hubAsset : HubAssetKey} {delta : Int}

theorem row_set (ctx : SpokeUsageContext) (store : ControllerStore) (hubAsset : HubAssetKey)
    (usage : SpokeUsage) :
    ({ ctx with usage := ctx.usage.set hubAsset usage } : SpokeUsageContext).row store hubAsset =
      some usage := by
  simp [row]

theorem setScaled_self (side : UsageSide) (usage : SpokeUsage) :
    side.setScaled usage (side.scaled usage) = usage := by
  cases side <;> rfl

/-- An exit the row covers goes through and takes its shares off the row. -/
theorem applyExit_covered {usage : SpokeUsage} (hrow : ctx.row store hubAsset = some usage)
    (hin : InI128 (side.scaled usage)) (h0 : 0 ≤ delta) (hle : delta ≤ side.scaled usage) :
    ∃ ctx', ctx.applyExit store side hubAsset delta = .ok ctx' ∧
      ctx'.row store hubAsset = some (side.setScaled usage (side.scaled usage - delta)) := by
  unfold applyExit
  by_cases hzero : delta = Ray.zero
  · rw [if_pos hzero]
    refine ⟨ctx, rfl, ?_⟩
    rw [hzero, Ray.zero, sub_zero, setScaled_self, hrow]
  · have hsub : InI128 (side.scaled usage - delta) :=
      inI128_of_nonneg (by omega) (by have := hin.2; omega)
    rw [if_neg hzero, hrow]
    dsimp only
    rw [I128.checkedSub, if_pos hsub]
    refine ⟨_, ?_, row_set ctx store hubAsset _⟩
    change (require _ _ >>= fun _ => _) = _
    rw [Fallible.require_pos (by omega)]
    rfl

/-- The caps are no input of an exit: stores that differ in anything but the usage rows give the
same verdict. -/
theorem applyExit_congr {store' : ControllerStore}
    (hrows : ∀ spokeId hubAsset, store'.getSpokeUsage spokeId hubAsset =
      store.getSpokeUsage spokeId hubAsset) :
    ctx.applyExit store' side hubAsset delta = ctx.applyExit store side hubAsset delta := by
  unfold applyExit row
  rw [hrows]

theorem applyExit_avoids_capError (side' : UsageSide) :
    Fallible.Avoids side'.capError (ctx.applyExit store side hubAsset delta) := by
  have hne : Error.mathOverflow ≠ side'.capError ∧ Error.internalError ≠ side'.capError := by
    cases side' <;> decide
  unfold applyExit
  split
  · exact .pure
  · cases ctx.row store hubAsset with
    | none => exact .pure
    | some usage =>
      exact .bind (.orThrow (.inr hne.1)) fun _ _ => .bind (.require hne.2) fun _ _ => .pure

end SpokeUsageContext

/-! ## The caps of a listing -/

/-- What the configured cap of one side does to the usage row of a market at an index. -/
structure CapExact (ctx : SpokeUsageContext) (store : ControllerStore) (side : UsageSide)
    (hubAsset : HubAssetKey) (cap index : Int) (decimals : Nat) : Prop where
  /-- An entry is accepted when the shares after it are worth at most the cap, whether or not the
  scaled cap saturates. -/
  entry : ∀ delta, ctx.applyEntry store side hubAsset delta cap index decimals =
    let usage := (ctx.row store hubAsset).getD {}
    let next := side.scaled usage + delta
    if ¬ InI128 next then .error .mathOverflow
    else if next * index ≤ capRay cap decimals * ray then
      .ok { ctx with usage := ctx.usage.set hubAsset (side.setScaled usage next) }
    else .error side.capError
  /-- Where it saturates, no representable usage is above the cap. -/
  saturated : i128Max < capRay cap decimals * ray / index →
    calculateScaledCap cap decimals index = .ok i128Max ∧
      ∀ shares, InI128 shares → shares * index ≤ capRay cap decimals * ray
  /-- What a row holds can leave it, above the cap as below. -/
  exit : ∀ usage delta, ctx.row store hubAsset = some usage → InI128 (side.scaled usage) →
    0 ≤ delta → delta ≤ side.scaled usage →
    ∃ ctx', ctx.applyExit store side hubAsset delta = .ok ctx' ∧
      ctx'.row store hubAsset = some (side.setScaled usage (side.scaled usage - delta))
  /-- An exit does not read the caps, and no failure of one is a cap's. -/
  exitUncapped : ∀ delta,
    (∀ side' : UsageSide, ctx.applyExit store side hubAsset delta ≠ .error side'.capError) ∧
      ∀ store' : ControllerStore,
        (∀ spokeId key, store'.getSpokeUsage spokeId key = store.getSpokeUsage spokeId key) →
        ctx.applyExit store' side hubAsset delta = ctx.applyExit store side hubAsset delta

/-- The caps of a listing are enforced exactly. -/
theorem spokeCap_exact {config : SpokeAssetConfig} {marketIndex : MarketIndex} {decimals : Nat}
    {side : UsageSide} (hcap : 0 ≤ side.cap config)
    (hdomain : Config.requireCapWithinAssetDomain (side.cap config) decimals = .ok ())
    (hindex : 0 < side.index marketIndex) (ctx : SpokeUsageContext) (store : ControllerStore)
    (hubAsset : HubAssetKey) :
    CapExact ctx store side hubAsset (side.cap config) (side.index marketIndex) decimals where
  entry delta := by
    unfold SpokeUsageContext.applyEntry
    dsimp only
    rw [enforceSpokeCap_eq hcap hdomain hindex]
    split_ifs <;> rfl
  saturated hsat := by
    refine ⟨?_, fun shares hin => (le_scaledCap_iff hindex hin).mp (le_min ?_ hin.2)⟩
    · rw [calculateScaledCap_eq hcap hdomain hindex, min_eq_right hsat.le]
    · exact hin.2.trans hsat.le
  exit _ _ hrow hin h0 hle := SpokeUsageContext.applyExit_covered hrow hin h0 hle
  exitUncapped _ :=
    ⟨SpokeUsageContext.applyExit_avoids_capError, fun _ => SpokeUsageContext.applyExit_congr⟩

/-- A cap of 250 million units at 7 decimals, on a fresh spoke of a market at its first index. -/
theorem spokeCap_exact_sample :
    let config : SpokeAssetConfig :=
      { loanToValue := 7_000, liquidationThreshold := 8_000, liquidationBonus := 500,
        liquidationFees := 100, isCollateralizable := true, isBorrowable := true, paused := false,
        frozen := false, noSeize := false, supplyCap := 2_500_000_000_000_000, borrowCap := 0 }
    CapExact (.new 1) Governance.init .supply ⟨1, 5⟩ (UsageSide.cap .supply config) ray 7 :=
  spokeCap_exact (by decide) (by decide)
    (show 0 < UsageSide.index .supply ⟨ray, ray⟩ by decide) _ _ _

end Lending
