import LendingXlm.Controller.Entrypoints
import LendingXlm.Controller.Liquidation.Settlement
import Mathlib.Algebra.Order.Field.Rat
import Mathlib.Tactic.FieldSimp
import Mathlib.Tactic.Positivity

/-!
# The liquidation curve

What a liquidation of an unhealthy account is quoted at:

* `liquidationSnapshot_answers`: the figures the quote starts from, with their roundings;
* `liquidationAtTarget_eq`: the denominators of the target formula stay positive, so it returns;
* `estimateLiquidationAmount_quotes`: the quote is one of four (`Quotes`);
* `liquidation_quotes_backed`: it is within the debt, and within the collateral up to rounding;
* `partial_liquidation_restores_target`: where it is the target formula's, paying it leaves a
  health factor of at least the target.
-/

namespace Lending

open FpCore Rounding Ctrl Invocation Context

variable {W : Type} {h : ControllerHost W} {timestamp : Nat} {pool : PoolCtx W}

/-- Reported prices are positive, as the aggregator ensures. -/
def ControllerHost.PositivePrices (h : ControllerHost W) : Prop :=
  ∀ {asset feed}, h.Reported asset feed → 0 < feed.price

namespace Liquidation

/-! ## `1 + bonus` -/

/-- `1 + bonus` in wad. -/
def onePlus (bonus : Int) : Int := wad + bonus * (wad / bps)

theorem onePlus_mul_bps (b : Int) : onePlus b * bps = wad * (bps + b) := by
  have hdvd : wad / bps * bps = wad := by decide
  unfold onePlus
  rw [add_mul, mul_assoc, hdvd]
  ring

theorem wad_le_onePlus {b : Int} (hb : 0 ≤ b) : wad ≤ onePlus b := by
  have hu : 0 ≤ wad / bps := by decide
  have := mul_nonneg hb hu
  unfold onePlus
  omega

/-- Bonuses are far below the range of `i128`. -/
theorem onePlusBonus_eq {b : Int} (h0 : 0 ≤ b) (hmax : b ≤ bps * bps) :
    (do Wad.checkedAdd Wad.one (← Bps.toWad b) : Result Int) = .ok (onePlus b) := by
  have hdvd : wad / bps * bps = wad := by decide
  have hu : 0 ≤ wad / bps := by decide
  have hwad : Bps.toWad b = .ok (b * (wad / bps)) := by
    refine mulDivHalfUp_ok_iff.mpr ⟨h0, wad_pos.le, bps_pos, ?_, ?_⟩
    · rw [show b * wad = b * (wad / bps) * bps by rw [mul_assoc, hdvd], halfUpDiv_mul_self _ bps_pos]
    · exact le_trans (mul_le_mul_of_nonneg_right hmax hu) (by decide)
  rw [hwad, Fallible.ok_bind]
  refine checkedAddRaw_ok_iff.mpr ⟨inI128_of_nonneg ?_ ?_, rfl⟩
  · exact le_trans wad_pos.le (wad_le_onePlus h0)
  · have := mul_le_mul_of_nonneg_right hmax hu
    exact le_trans (add_le_add_right this Wad.one) (by decide)

/-! ## The figures of an unhealthy account -/

/-- The figures of an account with collateral whose debt is not covered at the thresholds. -/
structure LiquidationSnapshot.Unhealthy (snap : LiquidationSnapshot) : Prop where
  debt_pos : 0 < snap.totalDebt
  debt_le : snap.totalDebt ≤ i128Max
  collateral_pos : 0 < snap.totalCollateral
  collateral_le : snap.totalCollateral ≤ i128Max
  weighted_nonneg : 0 ≤ snap.weightedCollateral
  proportion : snap.proportionSeized =
    halfUpDiv (snap.weightedCollateral * wad) snap.totalCollateral
  hf : snap.hf = snap.weightedCollateral * wad / snap.totalDebt
  hf_lt : snap.hf < wad

/-- The bonuses of such an account: the base is at most the largest, which is nothing when no
weighted collateral is seized. -/
structure BonusBounds.Admit (bounds : BonusBounds) (snap : LiquidationSnapshot) : Prop where
  base_nonneg : 0 ≤ bounds.base
  base_le : bounds.base ≤ bounds.max
  max_le : bounds.max ≤ bps * bps
  max_zero : snap.proportionSeized ≤ 0 → bounds.max = 0

/-- A curve that passed its validation. -/
structure LiquidationCurve.Valid (curve : LiquidationCurve) : Prop where
  target_gt : wad < curve.targetHf
  target_le : curve.targetHf ≤ maxLiquidationTargetHfWad
  max_pos : 0 < curve.hfForMaxBonus
  max_lt : curve.hfForMaxBonus < curve.targetHf
  factor_nonneg : 0 ≤ curve.bonusFactor
  factor_le : curve.bonusFactor ≤ bps

@[simp] theorem LiquidationCurve.fromConfig_targetHf (cfg : SpokeConfig) :
    (LiquidationCurve.fromConfig cfg).targetHf = cfg.liquidationTargetHfWad := rfl

theorem LiquidationCurve.valid_of_validated {cfg : SpokeConfig}
    (hcfg : Config.validateLiquidationCurve cfg.liquidationTargetHfWad cfg.hfForMaxBonusWad
      cfg.liquidationBonusFactorBps = .ok ()) : (LiquidationCurve.fromConfig cfg).Valid := by
  unfold Config.validateLiquidationCurve at hcfg
  simp only [Fallible.bind_ok_iff, Fallible.require_ok_iff] at hcfg
  obtain ⟨-, ⟨ht, htm⟩, -, ⟨hm, hmt⟩, -, hf⟩ := hcfg
  exact ⟨ht, htm, hm, hmt, Int.natCast_nonneg _, hf⟩

section
variable {snap : LiquidationSnapshot}

namespace LiquidationSnapshot.Unhealthy

variable (hs : snap.Unhealthy)
include hs

theorem proportion_nonneg : 0 ≤ snap.proportionSeized := by
  rw [hs.proportion]
  exact halfUpDiv_nonneg hs.collateral_pos (mul_nonneg hs.weighted_nonneg wad_pos.le)

theorem hf_nonneg : 0 ≤ snap.hf := by
  rw [hs.hf]
  exact floor_nonneg hs.debt_pos (mul_nonneg hs.weighted_nonneg wad_pos.le)

theorem hf_mul_le : snap.hf * snap.totalDebt ≤ snap.weightedCollateral * wad := by
  rw [hs.hf]
  exact floor_mul_le _ hs.debt_pos

theorem weighted_lt_debt : snap.weightedCollateral < snap.totalDebt := by
  have h := hs.hf_lt
  rw [hs.hf, floor_lt_iff hs.debt_pos, mul_comm wad] at h
  exact lt_of_mul_lt_mul_right h wad_pos.le

/-- The proportion is at most half a unit below the exact one. -/
theorem weighted_le :
    2 * (snap.weightedCollateral * wad) ≤
      (2 * snap.proportionSeized + 1) * snap.totalCollateral := by
  have h := le_halfUpDiv_mul (snap.weightedCollateral * wad) hs.collateral_pos
  rw [← hs.proportion] at h
  linarith

end LiquidationSnapshot.Unhealthy

/-! ## The bonus -/

theorem calculateLinearBonusWithTarget_ok {bounds : BonusBounds} {curve : LiquidationCurve}
    (hs : snap.Unhealthy) (hb : bounds.Admit snap) (hc : curve.Valid) :
    ∃ b, calculateLinearBonusWithTarget snap.hf bounds.base bounds.max curve curve.targetHf =
      .ok b ∧ bounds.base ≤ b ∧ b ≤ bounds.max := by
  have hhf := hs.hf_nonneg
  have hlt := hs.hf_lt
  obtain ⟨ht, htm, hm0, hmt, hf0, hf1⟩ := hc
  obtain ⟨hb0, hble, hbm, -⟩ := hb
  have hw := wad_pos
  -- The scale lies between zero and one.
  have hscale : ∃ scale, curve.bonusScale snap.hf curve.targetHf = .ok scale ∧
      0 ≤ scale ∧ scale ≤ wad := by
    have hrange : 0 < curve.targetHf - curve.hfForMaxBonus := by omega
    have habove : 0 ≤ (curve.targetHf - snap.hf) * wad := mul_nonneg (by omega) hw.le
    have hdiv : Wad.div (curve.targetHf - snap.hf) (curve.targetHf - curve.hfForMaxBonus) =
        .ok (halfUpDiv ((curve.targetHf - snap.hf) * wad)
          (curve.targetHf - curve.hfForMaxBonus)) := by
      refine mulDivHalfUp_ok_iff.mpr ⟨by omega, hw.le, hrange, rfl, ?_⟩
      refine le_trans (halfUpDiv_le_ceilDiv hrange) ((ceilDiv_le_iff hrange).mpr ?_)
      calc (curve.targetHf - snap.hf) * wad ≤ maxLiquidationTargetHfWad * wad :=
            mul_le_mul_of_nonneg_right (by omega) hw.le
        _ ≤ i128Max * 1 := by decide
        _ ≤ i128Max * (curve.targetHf - curve.hfForMaxBonus) :=
            mul_le_mul_of_nonneg_left (by omega) (by decide)
    refine ⟨min _ Wad.one, ?_, le_min (halfUpDiv_nonneg hrange habove) hw.le, min_le_right _ _⟩
    unfold LiquidationCurve.bonusScale
    rw [if_neg (by omega)]
    rw [show Wad.checkedSub curve.targetHf snap.hf = .ok (curve.targetHf - snap.hf) from
      checkedSubNonneg_ok_iff.mpr ⟨by omega, by omega, by omega, rfl⟩, Fallible.ok_bind]
    rw [show Wad.checkedSub curve.targetHf curve.hfForMaxBonus =
      .ok (curve.targetHf - curve.hfForMaxBonus) from
      checkedSubNonneg_ok_iff.mpr ⟨by omega, by omega, by omega, rfl⟩, Fallible.ok_bind, hdiv]
    rfl
  obtain ⟨scale, hscale, hs0, hs1⟩ := hscale
  -- So the increment is within the range, and so is the part of it the factor takes.
  set inc := halfUpDiv ((bounds.max - bounds.base) * scale) wad with hinc
  have hi0 : 0 ≤ inc := halfUpDiv_nonneg hw (mul_nonneg (by omega) hs0)
  have hi1 : inc ≤ bounds.max - bounds.base := by
    calc inc ≤ halfUpDiv ((bounds.max - bounds.base) * wad) wad :=
          halfUpDiv_mono hw (mul_le_mul_of_nonneg_left hs1 (by omega))
      _ = bounds.max - bounds.base := halfUpDiv_mul_self _ hw
  set part := halfUpDiv (inc * curve.bonusFactor) bps with hpart
  have hp0 : 0 ≤ part := halfUpDiv_nonneg bps_pos (mul_nonneg hi0 hf0)
  have hp1 : part ≤ inc := by
    calc part ≤ halfUpDiv (inc * bps) bps :=
          halfUpDiv_mono bps_pos (mul_le_mul_of_nonneg_left hf1 hi0)
      _ = inc := halfUpDiv_mul_self _ bps_pos
  have hbig : bps * bps ≤ i128Max := by decide
  refine ⟨bounds.base + part, ?_, by omega, by omega⟩
  unfold calculateLinearBonusWithTarget
  rw [if_neg (by omega), hscale, Fallible.ok_bind]
  rw [show Bps.checkedSub bounds.max bounds.base = .ok (bounds.max - bounds.base) from
    checkedSubNonneg_ok_iff.mpr ⟨by omega, hb0, hble, rfl⟩, Fallible.ok_bind]
  rw [show Wad.mul (bounds.max - bounds.base) scale = .ok inc from
    Wad.mul_ok_iff.mpr ⟨by omega, hs0, rfl, by omega⟩, Fallible.ok_bind]
  rw [show Bps.applyTo curve.bonusFactor inc = .ok part from
    Bps.applyTo_ok_iff.mpr ⟨hi0, hf0, rfl, by omega⟩, Fallible.ok_bind]
  rw [Fallible.orThrow_ok_iff, I128.checkedAdd_some]
  exact ⟨inI128_of_nonneg (by omega) (by omega), rfl⟩

/-! ## The target formula -/

/-- The repayment the collateral backs at the bonus. -/
def backedRepayment (snap : LiquidationSnapshot) (bonus : Int) : Int :=
  halfUpDiv (snap.totalCollateral * wad) (onePlus bonus)

/-- The rate at which a repayment takes weighted collateral: `p * (1 + bonus)`. -/
def seizureRate (snap : LiquidationSnapshot) (bonus : Int) : Int :=
  halfUpDiv (snap.proportionSeized * onePlus bonus) wad

/-- The repayment that brings the health factor to the target. -/
def targetQuotient (snap : LiquidationSnapshot) (bonus targetHf : Int) : Int :=
  halfUpDiv ((halfUpDiv (targetHf * snap.totalDebt) wad - snap.weightedCollateral) * wad)
    (targetHf - seizureRate snap bonus)

/-- A bonus that seizes weighted collateral no faster than the health factor allows. -/
structure LiquidationSnapshot.Preserving (snap : LiquidationSnapshot) (bonus : Int) : Prop where
  nonneg : 0 ≤ bonus
  le : bonus ≤ bps * bps
  rate_le : snap.proportionSeized * (bps + bonus) ≤ snap.hf * bps

theorem maxHfPreservingBonusBps_eq (hs : snap.Unhealthy) (hp : 0 < snap.proportionSeized) :
    maxHfPreservingBonusBps snap = some (snap.hf * bps / snap.proportionSeized - bps) := by
  unfold maxHfPreservingBonusBps
  rw [if_neg (by have := hs.hf_lt; omega),
    Int.tdiv_eq_ediv_of_nonneg (mul_nonneg hs.hf_nonneg bps_pos.le)]

theorem proportion_pos_of_cap {cap : Int} (hcap : maxHfPreservingBonusBps snap = some cap) :
    0 < snap.proportionSeized := by
  by_contra hp
  unfold maxHfPreservingBonusBps at hcap
  rw [if_pos (.inl (by omega))] at hcap
  cases hcap

/-- The cap is what its name says. -/
theorem rate_le_of_le_cap {b cap : Int} (hs : snap.Unhealthy)
    (hcap : maxHfPreservingBonusBps snap = some cap) (hb : b ≤ cap) :
    snap.proportionSeized * (bps + b) ≤ snap.hf * bps := by
  have hp := proportion_pos_of_cap hcap
  rw [maxHfPreservingBonusBps_eq hs hp, Option.some.injEq] at hcap
  rw [mul_comm]
  exact (le_floor_iff hp).mp (by omega)

namespace LiquidationSnapshot.Preserving

variable {b H : Int} (hb : snap.Preserving b)
include hb

theorem onePlus_pos : 0 < onePlus b := lt_of_lt_of_le wad_pos (wad_le_onePlus hb.nonneg)

theorem seizureRate_nonneg (hs : snap.Unhealthy) : 0 ≤ seizureRate snap b :=
  halfUpDiv_nonneg wad_pos (mul_nonneg hs.proportion_nonneg hb.onePlus_pos.le)

/-- The denominator of the target formula is at least `target - HF`. -/
theorem seizureRate_le : seizureRate snap b ≤ snap.hf := by
  have hle : snap.proportionSeized * onePlus b ≤ snap.hf * wad := by
    refine le_of_mul_le_mul_right ?_ bps_pos
    calc snap.proportionSeized * onePlus b * bps
        = snap.proportionSeized * (bps + b) * wad := by rw [mul_assoc, onePlus_mul_bps]; ring
      _ ≤ snap.hf * bps * wad := mul_le_mul_of_nonneg_right hb.rate_le wad_pos.le
      _ = snap.hf * wad * bps := by ring
  exact (halfUpDiv_mono wad_pos hle).trans (halfUpDiv_mul_self _ wad_pos).le

/-- The quotient exceeds the debt by less than one wad, however small its denominator. -/
theorem targetQuotient_le (hs : snap.Unhealthy) (hH : wad < H) :
    targetQuotient snap b H ≤ snap.totalDebt + wad := by
  have hrate := hb.seizureRate_le
  have hhf := hs.hf_lt
  have hW := hs.hf_mul_le
  have htd := halfUpDiv_mul_le (H * snap.totalDebt) wad_pos
  have hden : 0 < H - seizureRate snap b := by omega
  have hq := halfUpDiv_mul_le
    ((halfUpDiv (H * snap.totalDebt) wad - snap.weightedCollateral) * wad) hden
  change 2 * (targetQuotient snap b H * _) ≤ _ at hq
  set td := halfUpDiv (H * snap.totalDebt) wad
  set den := H - seizureRate snap b with hdeneq
  by_contra hlt
  have h1 : (snap.totalDebt + wad + 1) * den ≤ targetQuotient snap b H * den :=
    mul_le_mul_of_nonneg_right (by omega) hden.le
  have h2 : (H - snap.hf) * snap.totalDebt ≤ den * snap.totalDebt :=
    mul_le_mul_of_nonneg_right (by omega) hs.debt_pos.le
  have h3 : wad * 1 ≤ wad * den := mul_le_mul_of_nonneg_left (by omega) wad_pos.le
  linarith [wad_pos]

end LiquidationSnapshot.Preserving

/-- The debt at the target is representable, and so is the debt with room for one wad. -/
theorem debt_add_wad_le {D H : Int} (hH : wad < H) (hD : 0 ≤ D)
    (hfits : halfUpDiv (H * D) wad ≤ i128Max) : D + wad ≤ i128Max := by
  have h1 := le_halfUpDiv_mul (H * D) wad_pos
  have h2 : (wad + 1) * D ≤ H * D := mul_le_mul_of_nonneg_right (by omega) hD
  have hw : wad = 1_000_000_000_000_000_000 := rfl
  have hmax : i128Max = 170141183460469231731687303715884105727 := rfl
  set td := halfUpDiv (H * D) wad
  rw [hw] at h1 h2 ⊢
  rw [hmax] at hfits ⊢
  omega

/-- A target of at least one asks for at least the debt. -/
theorem le_targetDebt {D H : Int} (hH : wad ≤ H) (hD : 0 ≤ D) : D ≤ halfUpDiv (H * D) wad := by
  calc D = halfUpDiv (wad * D) wad := by rw [mul_comm, halfUpDiv_mul_self _ wad_pos]
    _ ≤ halfUpDiv (H * D) wad := halfUpDiv_mono wad_pos (mul_le_mul_of_nonneg_right hH hD)

/-- The target formula never divides by zero: its rate stays at the health factor. -/
theorem liquidationAtTarget_eq {b H : Int} (hs : snap.Unhealthy) (hb : snap.Preserving b)
    (hH : wad < H) (hfits : halfUpDiv (H * snap.totalDebt) wad ≤ i128Max) :
    liquidationAtTarget snap b H =
      .ok (min (min (targetQuotient snap b H) (backedRepayment snap b)) snap.totalDebt) := by
  have hw := wad_pos
  have hrate0 := hb.seizureRate_nonneg hs
  have hrate := hb.seizureRate_le
  have hhf := hs.hf_lt
  have hW := hs.weighted_lt_debt
  have hD := hs.debt_pos
  have hop := hb.onePlus_pos
  have hdMax : Wad.div snap.totalCollateral (onePlus b) = .ok (backedRepayment snap b) := by
    refine mulDivHalfUp_ok_iff.mpr ⟨hs.collateral_pos.le, hw.le, hop, rfl, ?_⟩
    refine le_trans (halfUpDiv_le_ceilDiv hop) ((ceilDiv_le_iff hop).mpr ?_)
    calc snap.totalCollateral * wad ≤ i128Max * wad :=
          mul_le_mul_of_nonneg_right hs.collateral_le hw.le
      _ ≤ i128Max * onePlus b :=
          mul_le_mul_of_nonneg_left (wad_le_onePlus hb.nonneg) (by decide)
  have hdenom : Wad.mul snap.proportionSeized (onePlus b) = .ok (seizureRate snap b) := by
    refine Wad.mul_ok_iff.mpr ⟨hs.proportion_nonneg, hop.le, rfl, ?_⟩
    exact le_trans (hrate.trans hhf.le) (by decide)
  have hdebt : Wad.mul H snap.totalDebt = .ok (halfUpDiv (H * snap.totalDebt) wad) :=
    Wad.mul_ok_iff.mpr ⟨by omega, hs.debt_pos.le, rfl, hfits⟩
  have hcover := le_targetDebt hH.le hs.debt_pos.le
  have hquot : Wad.div (halfUpDiv (H * snap.totalDebt) wad - snap.weightedCollateral)
      (H - seizureRate snap b) = .ok (targetQuotient snap b H) :=
    mulDivHalfUp_ok_iff.mpr ⟨by omega, hw.le, by omega, rfl,
      (hb.targetQuotient_le hs hH).trans (debt_add_wad_le hH hs.debt_pos.le hfits)⟩
  have hone := onePlusBonus_eq hb.nonneg hb.le
  obtain ⟨bw, hbw, hone⟩ := Fallible.bind_ok hone
  unfold liquidationAtTarget
  rw [hbw, Fallible.ok_bind, hone, Fallible.ok_bind, hdMax, Fallible.ok_bind, hdenom,
    Fallible.ok_bind, hdebt, Fallible.ok_bind, if_neg (by omega)]
  rw [show Wad.checkedSub (halfUpDiv (H * snap.totalDebt) wad) snap.weightedCollateral =
    .ok (halfUpDiv (H * snap.totalDebt) wad - snap.weightedCollateral) from
    checkedSubNonneg_ok_iff.mpr ⟨by omega, hs.weighted_nonneg, by omega, rfl⟩, Fallible.ok_bind]
  rw [show Wad.checkedSub H (seizureRate snap b) = .ok (H - seizureRate snap b) from
    checkedSubNonneg_ok_iff.mpr ⟨by omega, hrate0, by omega, rfl⟩, Fallible.ok_bind, hquot]
  rfl

/-! ## The quote -/

/-- The repayment aimed at the target, before dust is looked at. -/
def idealRepayment (snap : LiquidationSnapshot) (bonus targetHf : Int) : Int :=
  min (min (targetQuotient snap bonus targetHf) (backedRepayment snap bonus)) snap.totalDebt

/-- The bonus a repayment is aimed at the target with. Collateral below the debt gets there only
when no weighted collateral is seized. -/
structure LiquidationSnapshot.Aimed (snap : LiquidationSnapshot) (bonus : Int) : Prop extends
    snap.Preserving bonus where
  le_cap : ∀ cap, maxHfPreservingBonusBps snap = some cap → bonus ≤ cap
  solvent : 0 < snap.proportionSeized → snap.totalDebt ≤ snap.totalCollateral
  zero : snap.proportionSeized = 0 → bonus = 0

/-- How a quote of repayment and bonus comes about. -/
inductive Quotes (snap : LiquidationSnapshot) (bounds : BonusBounds) (curve : LiquidationCurve) :
    Int → Int → Prop where
  /-- Below the debt, what the collateral backs at the base bonus. -/
  | insolvent (hp : 0 < snap.proportionSeized) (hlt : snap.totalCollateral < snap.totalDebt) :
      Quotes snap bounds curve
        (min (snap.totalCollateral * wad / onePlus bounds.base) snap.totalDebt) bounds.base
  /-- The base bonus would lower the health factor: the whole debt at the cap. -/
  | capped {cap : Int} (hle : snap.totalDebt ≤ snap.totalCollateral)
      (hcap : maxHfPreservingBonusBps snap = some cap) (hlt : cap < bounds.base) :
      Quotes snap bounds curve snap.totalDebt (max cap 0)
  /-- The repayment aimed at the target would leave dust: the whole debt. -/
  | dust {b : Int} (haim : snap.Aimed b)
      (hpos : 0 < snap.totalDebt - idealRepayment snap b curve.targetHf)
      (hdust : snap.totalDebt - idealRepayment snap b curve.targetHf < badDebtUsdThreshold) :
      Quotes snap bounds curve snap.totalDebt b
  | target {b : Int} (haim : snap.Aimed b)
      (hrest : idealRepayment snap b curve.targetHf = snap.totalDebt ∨
        badDebtUsdThreshold ≤ snap.totalDebt - idealRepayment snap b curve.targetHf) :
      Quotes snap bounds curve (idealRepayment snap b curve.targetHf) b

variable {bounds : BonusBounds} {curve : LiquidationCurve}

theorem targetQuotient_nonneg {b H : Int} (hs : snap.Unhealthy) (hb : snap.Preserving b)
    (hH : wad < H) : 0 ≤ targetQuotient snap b H := by
  have hrate := hb.seizureRate_le
  have hhf := hs.hf_lt
  have hW := hs.weighted_lt_debt
  have hcover := le_targetDebt hH.le hs.debt_pos.le
  exact halfUpDiv_nonneg (by omega) (mul_nonneg (by omega) wad_pos.le)

theorem targetRepayment_quotes (bounds : BonusBounds) {b : Int} (hs : snap.Unhealthy) (haim : snap.Aimed b)
    (hc : curve.Valid) (hfits : halfUpDiv (curve.targetHf * snap.totalDebt) wad ≤ i128Max) :
    ∃ q, targetRepayment snap b curve = .ok (q, b) ∧ Quotes snap bounds curve q b := by
  have hop := haim.onePlus_pos
  have h0 : 0 ≤ idealRepayment snap b curve.targetHf :=
    le_min (le_min (targetQuotient_nonneg hs haim.toPreserving hc.target_gt)
      (halfUpDiv_nonneg hop (mul_nonneg hs.collateral_pos.le wad_pos.le))) hs.debt_pos.le
  have hle : idealRepayment snap b curve.targetHf ≤ snap.totalDebt := min_le_right _ _
  unfold targetRepayment
  rw [liquidationAtTarget_eq hs haim.toPreserving hc.target_gt hfits, Fallible.ok_bind]
  change ∃ q, (do
    let remainingDebt ← Wad.checkedSub snap.totalDebt (idealRepayment snap b curve.targetHf)
    _ : Result (Int × Int)) = _ ∧ _
  rw [show Wad.checkedSub snap.totalDebt (idealRepayment snap b curve.targetHf) =
    .ok (snap.totalDebt - idealRepayment snap b curve.targetHf) from
    checkedSubNonneg_ok_iff.mpr ⟨hs.debt_pos.le, h0, hle, rfl⟩, Fallible.ok_bind]
  by_cases hdust : snap.totalDebt - idealRepayment snap b curve.targetHf > 0 ∧
      snap.totalDebt - idealRepayment snap b curve.targetHf < badDebtUsdThreshold
  · rw [if_pos hdust]
    exact ⟨_, rfl, .dust haim hdust.1 hdust.2⟩
  · rw [if_neg hdust]
    exact ⟨_, rfl, .target haim (by omega)⟩

/-- A repayment aimed at a debt that is not representable at the target traps. -/
theorem targetRepayment_fits {b : Int} {r : Int × Int}
    (hr : targetRepayment snap b curve = .ok r) :
    halfUpDiv (curve.targetHf * snap.totalDebt) wad ≤ i128Max := by
  unfold targetRepayment at hr
  obtain ⟨ideal, hideal, -⟩ := Fallible.bind_ok hr
  unfold liquidationAtTarget at hideal
  obtain ⟨_, _, hideal⟩ := Fallible.bind_ok hideal
  obtain ⟨_, _, hideal⟩ := Fallible.bind_ok hideal
  obtain ⟨_, _, hideal⟩ := Fallible.bind_ok hideal
  obtain ⟨_, _, hideal⟩ := Fallible.bind_ok hideal
  obtain ⟨targetDebt, hdebt, -⟩ := Fallible.bind_ok hideal
  obtain ⟨-, -, rfl, hfits⟩ := Wad.mul_ok_iff.mp hdebt
  exact hfits

/-- A quote is found at once, or aimed at the target. -/
theorem estimateLiquidationAmount_cases (hs : snap.Unhealthy) (hb : bounds.Admit snap)
    (hc : curve.Valid) :
    (∃ q b, estimateLiquidationAmount snap bounds curve = .ok (q, b) ∧
      Quotes snap bounds curve q b) ∨
    ∃ b, snap.Aimed b ∧
      estimateLiquidationAmount snap bounds curve = targetRepayment snap b curve := by
  obtain ⟨scaled, hscaled, hlow, hhigh⟩ := calculateLinearBonusWithTarget_ok hs hb hc
  have hb0 := hb.base_nonneg
  have hmax := hb.max_le
  have hp0 := hs.proportion_nonneg
  unfold estimateLiquidationAmount
  rw [hscaled, Fallible.ok_bind]
  rcases hp0.lt_or_eq with hp | hp
  · rw [maxHfPreservingBonusBps_eq hs hp]
    have hcap := maxHfPreservingBonusBps_eq hs hp
    set cap := snap.hf * bps / snap.proportionSeized - bps
    dsimp only
    by_cases hlt : snap.totalCollateral < snap.totalDebt
    · left
      have hop : 0 < onePlus bounds.base := lt_of_lt_of_le wad_pos (wad_le_onePlus hb0)
      obtain ⟨bw, hbw, hone⟩ := Fallible.bind_ok (onePlusBonus_eq hb0 (hb.base_le.trans hmax))
      have hfloor : 0 ≤ snap.totalCollateral * wad / onePlus bounds.base :=
        floor_nonneg hop (mul_nonneg hs.collateral_pos.le wad_pos.le)
      have hbacked : Wad.divFloor snap.totalCollateral (onePlus bounds.base) =
          .ok (snap.totalCollateral * wad / onePlus bounds.base) := by
        refine (Wad.divFloor_ok_iff hop).mpr ⟨inI128_of_nonneg hfloor ?_, rfl⟩
        refine le_trans ?_ hs.collateral_le
        refine Int.ediv_le_of_le_mul hop ?_
        exact mul_le_mul_of_nonneg_left (wad_le_onePlus hb0) hs.collateral_pos.le
      rw [if_pos hlt, hbw, Fallible.ok_bind, hone, Fallible.ok_bind, hbacked]
      exact ⟨_, _, rfl, .insolvent hp hlt⟩
    · rw [if_neg hlt]
      by_cases hcapped : cap < bounds.base
      · rw [if_pos hcapped]
        exact .inl ⟨_, _, rfl, .capped (not_lt.mp hlt) hcap hcapped⟩
      · rw [if_neg hcapped]
        exact .inr ⟨min scaled cap, {
          nonneg := by omega
          le := by omega
          rate_le := rate_le_of_le_cap hs hcap (min_le_right _ _)
          le_cap := fun c hc' => by
            obtain rfl := Option.some.inj (hcap.symm.trans hc')
            exact min_le_right _ _
          solvent := fun _ => not_lt.mp hlt
          zero := fun h0 => by omega }, rfl⟩
  · have hnone : maxHfPreservingBonusBps snap = none := by
      unfold maxHfPreservingBonusBps
      rw [if_pos (.inl hp.ge)]
    have hz : scaled = 0 := by
      have := hb.max_zero hp.ge
      omega
    rw [hnone]
    exact .inr ⟨scaled, {
      nonneg := hz.ge
      le := by omega
      rate_le := by
        rw [← hp, zero_mul]
        exact mul_nonneg hs.hf_nonneg bps_pos.le
      le_cap := fun c hc' => by
        rw [hnone] at hc'
        cases hc'
      solvent := fun h0 => by omega
      zero := fun _ => hz }, rfl⟩

/-- A quote is always found at a representable target. -/
theorem estimateLiquidationAmount_returns (hs : snap.Unhealthy) (hb : bounds.Admit snap)
    (hc : curve.Valid) (hfits : halfUpDiv (curve.targetHf * snap.totalDebt) wad ≤ i128Max) :
    ∃ q b, estimateLiquidationAmount snap bounds curve = .ok (q, b) ∧
      Quotes snap bounds curve q b := by
  rcases estimateLiquidationAmount_cases hs hb hc with hfound | ⟨b, haim, heq⟩
  · exact hfound
  · obtain ⟨q, hq, hquotes⟩ := targetRepayment_quotes bounds hs haim hc hfits
    exact ⟨q, b, heq.trans hq, hquotes⟩

/-- Every quote comes about in one of the four ways. -/
theorem estimateLiquidationAmount_quotes {q b : Int} (hs : snap.Unhealthy)
    (hb : bounds.Admit snap) (hc : curve.Valid)
    (hq : estimateLiquidationAmount snap bounds curve = .ok (q, b)) :
    Quotes snap bounds curve q b := by
  have hfound : ∃ q' b', estimateLiquidationAmount snap bounds curve = .ok (q', b') ∧
      Quotes snap bounds curve q' b' := by
    rcases estimateLiquidationAmount_cases hs hb hc with hfound | ⟨b', -, heq⟩
    · exact hfound
    · exact estimateLiquidationAmount_returns hs hb hc (targetRepayment_fits (heq.symm.trans hq))
  obtain ⟨q', b', hq', hquotes⟩ := hfound
  rw [hq, Except.ok.injEq, Prod.mk.injEq] at hq'
  rw [hq'.1, hq'.2]
  exact hquotes

end

/-! ## Reading the figures -/

theorem positionValue_nonneg {scaled index price v : Int}
    (hv : positionValue scaled index price = .ok v) : 0 ≤ v := by
  unfold positionValue at hv
  obtain ⟨actual, -, hv⟩ := Fallible.bind_ok hv
  obtain ⟨actualWad, -, hv⟩ := Fallible.bind_ok hv
  obtain ⟨ha, hp, rfl, -⟩ := Wad.mul_ok_iff.mp hv
  exact halfUpDiv_nonneg wad_pos (mul_nonneg ha hp)

theorem positionValueCeil_nonneg {scaled index price v : Int} (hs : 0 ≤ scaled) (hi : 0 ≤ index)
    (hp : 0 ≤ price) (hv : positionValueCeil scaled index price = .ok v) : 0 ≤ v := by
  unfold positionValueCeil Ray.toWadCeil Wad.mulCeil at hv
  simp only [Fallible.bind_ok_iff, Ray.mulCeil_ok_iff] at hv
  obtain ⟨actual, ⟨-, rfl⟩, actualWad, hwad, hv⟩ := hv
  have h0 : 0 ≤ ceilDiv (scaled * index) ray := ceilDiv_nonneg ray_pos (mul_nonneg hs hi)
  rw [rescaleCeil_down h0 (by decide) (by decide), Except.ok.injEq] at hwad
  rw [mulDivCeil_eq wad_pos, toI128_ok_iff] at hv
  subst hwad
  rw [← hv.2]
  exact ceilDiv_nonneg wad_pos (mul_nonneg (ceilDiv_nonneg (by decide) h0) hp)

theorem maxBonusForThreshold_ok {p r : Int} (hr : maxBonusForThreshold p = .ok r) :
    0 ≤ r ∧ r ≤ bps * bps ∧ (p ≤ 0 → r = 0) := by
  have hbps := bps_pos
  unfold maxBonusForThreshold at hr
  split at hr
  · rw [Fallible.pure_ok_iff] at hr
    subst hr
    exact ⟨le_rfl, by decide, fun _ => rfl⟩
  · rename_i hp
    obtain ⟨c, -, hr⟩ := Fallible.bind_ok hr
    obtain ⟨n, hn, hr⟩ := Fallible.bind_ok hr
    rw [Fallible.orThrow_ok_iff, I128.checkedMul_some] at hn
    obtain ⟨-, rfl⟩ := hn
    rw [Fallible.pure_ok_iff] at hr
    subst hr
    have he : 0 < max 1 (min bps c) := by omega
    have hle : 0 ≤ bps - max 1 (min bps c) := by omega
    have h0 : 0 ≤ bps * (bps - max 1 (min bps c)) := mul_nonneg hbps.le hle
    rw [Int.tdiv_eq_ediv_of_nonneg h0]
    refine ⟨floor_nonneg he h0, ?_, fun h => absurd h hp⟩
    refine (Int.ediv_le_self _ h0).trans ?_
    exact mul_le_mul_of_nonneg_left (by omega) hbps.le

/-- What the totals of an account are, as far as quoting goes. -/
structure TotalsOf (totals : Risk.AccountRiskTotals) : Prop where
  collateral_le : totals.totalCollateral ≤ i128Max
  debt_nonneg : 0 ≤ totals.totalDebt
  debt_le : totals.totalDebt ≤ i128Max
  healthFactor : totals.totalDebt = 0 ∧ totals.healthFactor = i128Max ∨
    Wad.divFloorSaturating totals.weightedCollateral totals.totalDebt = .ok totals.healthFactor

section
variable {account : Account}

theorem addCollateral_answers {sums : Int × Int × Int} {e : HubAssetKey × AccountPosition} :
    Answers h timestamp pool (Risk.addCollateral timestamp sums e) fun r => r.1 ≤ i128Max := by
  obtain ⟨hubAsset, position⟩ := e
  refine .skip cachedPrice_reads fun feed => .skip cachedMarketIndex_reads fun index =>
    .skip .lift fun value => .skip .lift fun gateValue => ?_
  refine .bind (.lift fun total ht => (checkedAddRaw_ok_iff.mp ht)) fun total ht => ?_
  refine .skip .lift fun _ => .skip .lift fun _ => .skip .lift fun _ => .skip .lift fun _ =>
    .pure ?_
  obtain ⟨hin, rfl⟩ := ht
  exact hin.2

theorem sumDebtUsdLoaded_answers (hrun : MarketsRun timestamp pool.markets)
    (hprices : h.PositivePrices) (hpos : account.Positive) :
    Answers h timestamp pool
      (Risk.sumDebtUsdLoaded timestamp account.borrowPositions positionValueCeil) fun total =>
      0 ≤ total ∧ total ≤ i128Max := by
  refine Answers.foldlM (P := fun total _ => 0 ≤ total ∧ total ≤ i128Max) ?_ _
    ⟨le_rfl, by decide⟩
  rintro total ⟨hubAsset, position⟩ rest hmem ⟨h0, -⟩
  have hshares := hpos.debt (SortedMap.mem_entries.mp hmem)
  refine .bind cachedPrice_answers fun feed hrep => .bind cachedMarketIndex_answers
    fun index hcur => .bind (.lift fun v hv => hv) fun v hv => .lift fun total' ht => ?_
  obtain ⟨m, c, -, -, -, -, hc, rfl, -⟩ := hcur.synced hrun
  have hv0 := positionValueCeil_nonneg hshares.le hc.borrowIndex_pos.le (hprices hrep).le hv
  obtain ⟨hin, rfl⟩ := checkedAddRaw_ok_iff.mp ht
  exact ⟨by omega, hin.2⟩

theorem calculateAccountRiskTotals_answers (hrun : MarketsRun timestamp pool.markets)
    (hprices : h.PositivePrices) (hpos : account.Positive) :
    Answers h timestamp pool (Risk.calculateAccountRiskTotals h timestamp account.supplyPositions
      account.borrowPositions) TotalsOf := by
  refine .skip loadMarkets_reads fun _ => .bind (Answers.foldlM
    (P := fun sums _ => sums.1 ≤ i128Max) (fun _ _ _ _ _ => addCollateral_answers) _
    (by decide)) fun ⟨total, ltv, weighted⟩ hc => ?_
  refine .bind (sumDebtUsdLoaded_answers hrun hprices hpos) fun debt hd => ?_
  refine .bind (.lift fun hf hhf => hhf) fun hf hhf => .pure ⟨hc, hd.1, hd.2, ?_⟩
  split at hhf
  · rename_i hz
    rw [Fallible.pure_ok_iff] at hhf
    exact .inl ⟨hz, hhf.symm⟩
  · exact .inr hhf

theorem getAccountBonusParams_answers {totalCollateral p : Int} (hc : 0 < totalCollateral) :
    Answers h timestamp pool (getAccountBonusParams timestamp account.supplyPositions
      totalCollateral p) fun bounds =>
      0 ≤ bounds.base ∧ bounds.base ≤ bounds.max ∧ bounds.max ≤ bps * bps ∧
        (p ≤ 0 → bounds.max = 0) := by
  refine .bind (.lift fun max hmax => maxBonusForThreshold_ok hmax) fun max hmax => ?_
  refine .ite (fun h => absurd h hc.ne') fun _ => ?_
  refine .bind (Answers.foldlM (P := fun sum _ => 0 ≤ sum) ?_ _ le_rfl) fun sum hsum => ?_
  · rintro sum ⟨hubAsset, position⟩ rest - hs
    refine .skip cachedPrice_reads fun feed => .skip cachedMarketIndex_reads fun index =>
      .bind (.lift fun v hv => positionValue_nonneg hv) fun v hv => ?_
    refine .bind (.lift fun x hx => hx) fun x hx => .lift fun sum' hsum => ?_
    rw [Fallible.orThrow_ok_iff, I128.checkedMul_some] at hx
    rw [Fallible.orThrow_ok_iff, I128.checkedAdd_some] at hsum
    obtain ⟨-, rfl⟩ := hx
    obtain ⟨-, rfl⟩ := hsum
    exact add_nonneg hs (mul_nonneg hv (Int.natCast_nonneg _))
  · refine .bind (.lift fun base hbase => hbase) fun base hbase => .pure ?_
    rw [divByIntHalfUp_eq hsum hc, Except.ok.injEq] at hbase
    have h0 := hbase ▸ halfUpDiv_nonneg hc hsum
    exact ⟨le_min h0 hmax.1, min_le_right _ _, hmax.2.1, hmax.2.2⟩

/-- The figures of an account that planning accepts. -/
theorem liquidationSnapshot_answers (hrun : MarketsRun timestamp pool.markets)
    (hprices : h.PositivePrices) (hpos : account.Positive) :
    Answers h timestamp pool (liquidationSnapshot h timestamp account) fun r =>
      0 < r.1.totalCollateral → r.1.Unhealthy ∧ r.2.1.Admit r.1 := by
  refine .bind (calculateAccountRiskTotals_answers hrun hprices hpos) fun totals ht => ?_
  refine .bind (.lift fun _ hr => (Fallible.require_ok_iff.mp hr)) fun _ hhf => ?_
  have hw : Wad.one = wad := rfl
  rcases le_or_gt totals.totalCollateral 0 with hle | hc
  · refine .skip calculateSeizureProportions_reads fun r => .skip spokeConfig_reads fun cfg =>
      .pure fun h => absurd h (not_lt.mpr hle)
  refine .bind (P := fun r : Int × BonusBounds =>
    Wad.div totals.weightedCollateral totals.totalCollateral = .ok r.1 ∧
    0 ≤ r.2.base ∧ r.2.base ≤ r.2.max ∧ r.2.max ≤ bps * bps ∧ (r.1 ≤ 0 → r.2.max = 0)) ?_
    fun ⟨p, bounds⟩ ⟨hp, hbounds⟩ => .skip spokeConfig_reads fun cfg => .pure fun _ => ?_
  · refine .bind (.lift fun p hp => hp) fun p hp =>
      .bind (getAccountBonusParams_answers hc) fun bounds hbounds => .pure ⟨?_, hbounds⟩
    rwa [if_pos (show totals.totalCollateral > Wad.zero from hc)] at hp
  · obtain ⟨hw0, -, -, rfl, -⟩ := mulDivHalfUp_ok_iff.mp hp
    have hmax : wad ≤ i128Max := by decide
    have hf := ht.healthFactor.resolve_left fun h0 => by omega
    have hd : 0 < totals.totalDebt := by
      refine ht.debt_nonneg.lt_of_ne fun h0 => ?_
      unfold Wad.divFloorSaturating mulDivFloorSaturating requireNonzeroDivisor at hf
      simp [← h0] at hf
    unfold Wad.divFloorSaturating at hf
    rw [mulDivFloorSaturating_eq hd hw0 wad_pos.le, Except.ok.injEq] at hf
    refine ⟨?_, ⟨hbounds.1, hbounds.2.1, hbounds.2.2.1, hbounds.2.2.2⟩⟩
    exact {
      debt_pos := hd
      debt_le := ht.debt_le
      collateral_pos := hc
      collateral_le := ht.collateral_le
      weighted_nonneg := hw0
      proportion := rfl
      hf := by
        dsimp only
        omega
      hf_lt := by
        dsimp only
        omega }

end

/-! ## What a quote is worth -/

section
variable {snap : LiquidationSnapshot} {bounds : BonusBounds} {curve : LiquidationCurve} {q b : Int}

/-- At a bonus that preserves the health factor the whole debt is backed, up to the rounding of
the proportion. -/
theorem debt_backed (hs : snap.Unhealthy)
    (hrate : snap.proportionSeized * (bps + b) ≤ snap.hf * bps) :
    2 * snap.proportionSeized * (snap.totalDebt * (bps + b)) ≤
      (2 * snap.proportionSeized + 1) * snap.totalCollateral * bps := by
  have hD := mul_le_mul_of_nonneg_right hrate hs.debt_pos.le
  have hhf := mul_le_mul_of_nonneg_right hs.hf_mul_le bps_pos.le
  have hW := mul_le_mul_of_nonneg_right hs.weighted_le bps_pos.le
  linarith

theorem le_backedRepayment_mul (hb : snap.Preserving b) :
    2 * (snap.totalCollateral * bps) ≤ (2 * backedRepayment snap b + 1) * (bps + b) := by
  have h := mul_le_mul_of_nonneg_right
    (le_halfUpDiv_mul (snap.totalCollateral * wad) hb.onePlus_pos) bps_pos.le
  change _ ≤ (2 * (backedRepayment snap b * onePlus b) + onePlus b) * bps at h
  have heq := onePlus_mul_bps b
  refine le_of_mul_le_mul_right ?_ wad_pos
  calc 2 * (snap.totalCollateral * bps) * wad = 2 * (snap.totalCollateral * wad) * bps := by ring
    _ ≤ (2 * (backedRepayment snap b * onePlus b) + onePlus b) * bps := h
    _ = (2 * backedRepayment snap b + 1) * (onePlus b * bps) := by ring
    _ = (2 * backedRepayment snap b + 1) * (bps + b) * wad := by rw [heq]; ring

theorem backedRepayment_zero (snap : LiquidationSnapshot) :
    backedRepayment snap 0 = snap.totalCollateral := by
  have hone : onePlus 0 = wad := by decide
  unfold backedRepayment
  rw [hone, halfUpDiv_mul_self _ wad_pos]

namespace Quotes

theorem le_debt (hq : Quotes snap bounds curve q b) : q ≤ snap.totalDebt := by
  cases hq with
  | insolvent hp hlt => exact min_le_right _ _
  | capped hle hcap hlt => exact le_rfl
  | dust haim hpos hdust => exact le_rfl
  | target haim hrest => exact min_le_right _ _

theorem bonus_nonneg (hb : bounds.Admit snap) (hq : Quotes snap bounds curve q b) : 0 ≤ b := by
  cases hq with
  | insolvent hp hlt => exact hb.base_nonneg
  | capped hle hcap hlt => exact le_max_right _ _
  | dust haim hpos hdust => exact haim.nonneg
  | target haim hrest => exact haim.nonneg

/-- With weighted collateral the quote is backed. -/
theorem backed (hs : snap.Unhealthy) (hb : bounds.Admit snap)
    (hq : Quotes snap bounds curve q b) (hp : 0 < snap.proportionSeized) :
    2 * snap.proportionSeized * (q * (bps + b)) ≤
      (2 * snap.proportionSeized + 1) * snap.totalCollateral * bps := by
  have hD := hs.debt_pos
  have hC := hs.collateral_pos
  have hp2 : 0 ≤ 2 * snap.proportionSeized := by omega
  cases hq with
  | insolvent _ hlt =>
    have hop : 0 < onePlus bounds.base := lt_of_lt_of_le wad_pos (wad_le_onePlus hb.base_nonneg)
    have hq : min (snap.totalCollateral * wad / onePlus bounds.base) snap.totalDebt *
        onePlus bounds.base ≤ snap.totalCollateral * wad :=
      (mul_le_mul_of_nonneg_right (min_le_left _ _) hop.le).trans (floor_mul_le _ hop)
    set q := min (snap.totalCollateral * wad / onePlus bounds.base) snap.totalDebt
    have hq' : q * (bps + bounds.base) ≤ snap.totalCollateral * bps := by
      refine le_of_mul_le_mul_right ?_ wad_pos
      calc q * (bps + bounds.base) * wad = q * onePlus bounds.base * bps := by
            rw [mul_assoc q, mul_assoc q, onePlus_mul_bps]; ring
        _ ≤ snap.totalCollateral * wad * bps := mul_le_mul_of_nonneg_right hq bps_pos.le
        _ = snap.totalCollateral * bps * wad := by ring
    have h1 := mul_le_mul_of_nonneg_left hq' hp2
    have h2 : 0 ≤ snap.totalCollateral * bps := mul_nonneg hC.le bps_pos.le
    linarith
  | capped hle hcap hlt =>
    rename_i cap
    rcases le_total cap 0 with h0 | h0
    · rw [max_eq_right h0, add_zero]
      have h1 := mul_le_mul_of_nonneg_left (mul_le_mul_of_nonneg_right hle bps_pos.le) hp2
      have h2 : 0 ≤ snap.totalCollateral * bps := mul_nonneg hC.le bps_pos.le
      linarith
    · rw [max_eq_left h0]
      exact debt_backed hs (rate_le_of_le_cap hs hcap le_rfl)
  | dust haim hpos hdust => exact debt_backed hs haim.rate_le
  | target haim hrest =>
    refine le_trans (mul_le_mul_of_nonneg_left ?_ hp2) (debt_backed hs haim.rate_le)
    exact mul_le_mul_of_nonneg_right (min_le_right _ _) (add_nonneg bps_pos.le haim.nonneg)

/-- Without, the bonus is nothing and the quote is the collateral, or a whole debt that dust
above the collateral. -/
theorem unweighted (hq : Quotes snap bounds curve q b) (hp : snap.proportionSeized = 0) :
    b = 0 ∧ (q ≤ snap.totalCollateral ∨ snap.totalCollateral < snap.totalDebt ∧
      q = snap.totalDebt ∧ snap.totalDebt < snap.totalCollateral + badDebtUsdThreshold) := by
  cases hq with
  | insolvent hp' hlt => omega
  | capped hle hcap hlt =>
    have := proportion_pos_of_cap hcap
    omega
  | dust haim hpos hdust =>
    obtain rfl := haim.zero hp
    have hle : idealRepayment snap 0 curve.targetHf ≤ snap.totalCollateral := by
      rw [← backedRepayment_zero snap]
      exact (min_le_left _ _).trans (min_le_right _ _)
    refine ⟨rfl, ?_⟩
    omega
  | target haim hrest =>
    obtain rfl := haim.zero hp
    refine ⟨rfl, .inl ?_⟩
    rw [← backedRepayment_zero snap]
    exact (min_le_left _ _).trans (min_le_right _ _)

/-- A solvent account's bonus is within the cap, floored at zero. -/
theorem bonus_le_cap (hq : Quotes snap bounds curve q b)
    (hle : snap.totalDebt ≤ snap.totalCollateral) {cap : Int}
    (hcap : maxHfPreservingBonusBps snap = some cap) : b ≤ max cap 0 := by
  cases hq with
  | insolvent hp hlt => omega
  | capped _ hcap' hlt =>
    obtain rfl := Option.some.inj (hcap.symm.trans hcap')
    exact le_rfl
  | dust haim hpos hdust => exact (haim.le_cap cap hcap).trans (le_max_left _ _)
  | target haim hrest => exact (haim.le_cap cap hcap).trans (le_max_left _ _)

end Quotes

/-- A bound on the debt bought, in units of one. -/
theorem backed_rat {C p : Int} (hp : 0 < p) (hb : 0 ≤ b)
    (h : 2 * p * (q * (bps + b)) ≤ (2 * p + 1) * C * bps) :
    (q : ℚ) * (1 + b / bps) ≤ C + (C / (2 * p) + (1 + b / bps) + 1) := by
  have hbps : ((bps : Int) : ℚ) = 10_000 := by norm_num [bps]
  have h' : 2 * (p : ℚ) * (q * (bps + b)) ≤ (2 * p + 1) * C * bps := by exact_mod_cast h
  have hp' : (0 : ℚ) < p := by exact_mod_cast hp
  have hb' : (0 : ℚ) ≤ b := by exact_mod_cast hb
  rw [hbps] at h' ⊢
  have hkey : (q : ℚ) * (1 + b / 10_000) ≤ C + C / (2 * p) := by
    refine le_of_mul_le_mul_right ?_ (by positivity : (0 : ℚ) < 2 * p * 10_000)
    calc (q : ℚ) * (1 + b / 10_000) * (2 * p * 10_000) = 2 * p * (q * (10_000 + b)) := by
          field_simp
      _ ≤ (2 * p + 1) * C * 10_000 := h'
      _ = (C + C / (2 * p)) * (2 * p * 10_000) := by field_simp
  have hbonus : (0 : ℚ) ≤ b / 10_000 := by positivity
  linarith

/-- The target formula's repayment restores the target, up to the three roundings. -/
theorem target_restored {H : Int} (hb : snap.Preserving b) (hH : wad < H) (hs : snap.Unhealthy)
    (hmax : H ≤ maxLiquidationTargetHfWad) :
    (snap.weightedCollateral : ℚ) - targetQuotient snap b H * seizureRate snap b / wad ≥
      H * (snap.totalDebt - targetQuotient snap b H) / wad - 6 := by
  have hrate0 := hb.seizureRate_nonneg hs
  have hrate := hb.seizureRate_le
  have hhf := hs.hf_lt
  have htd := le_halfUpDiv_mul (H * snap.totalDebt) wad_pos
  have hq := le_halfUpDiv_mul ((halfUpDiv (H * snap.totalDebt) wad - snap.weightedCollateral) * wad)
    (show 0 < H - seizureRate snap b by omega)
  change _ ≤ 2 * (targetQuotient snap b H * _) + _ at hq
  set q := targetQuotient snap b H
  set rate := seizureRate snap b
  have hten : maxLiquidationTargetHfWad = 10 * wad := rfl
  have hint : H * (snap.totalDebt - q) - 6 * wad ≤ snap.weightedCollateral * wad - q * rate := by
    linarith [wad_pos]
  have hrat : (H : ℚ) * (snap.totalDebt - q) - 6 * wad ≤ snap.weightedCollateral * wad - q * rate := by
    exact_mod_cast hint
  have hwad : (0 : ℚ) < (wad : Int) := by exact_mod_cast wad_pos
  rw [ge_iff_le]
  refine le_of_mul_le_mul_right ?_ hwad
  calc ((H : ℚ) * (snap.totalDebt - q) / wad - 6) * wad
      = H * (snap.totalDebt - q) - 6 * wad := by field_simp
    _ ≤ snap.weightedCollateral * wad - q * rate := hrat
    _ = (snap.weightedCollateral - q * rate / wad) * wad := by field_simp

/-- What is backed falls short of a solvent account's debt by more than dust only where half a
unit of the proportion is worth as much. -/
theorem backed_excess (hs : snap.Unhealthy) (haim : snap.Aimed b)
    (hrest : badDebtUsdThreshold ≤ snap.totalDebt - backedRepayment snap b) :
    snap.totalCollateral < snap.totalDebt ∨
      snap.proportionSeized * (2 * badDebtUsdThreshold - 1) ≤ snap.totalCollateral := by
  rcases hs.proportion_nonneg.lt_or_eq with hp | hp
  · right
    have hD := debt_backed hs haim.rate_le
    have hB := mul_le_mul_of_nonneg_left (le_backedRepayment_mul haim.toPreserving) hp.le
    have hb := haim.nonneg
    have hdust : 0 < badDebtUsdThreshold := by decide
    have hgap := mul_le_mul_of_nonneg_left
      (mul_le_mul_of_nonneg_right (show 2 * badDebtUsdThreshold - 1 ≤
        2 * snap.totalDebt - (2 * backedRepayment snap b + 1) by omega)
        (show 0 ≤ bps + b by have := bps_pos; omega)) hp.le
    have hbonus : 0 ≤ snap.proportionSeized * (2 * badDebtUsdThreshold - 1) * b :=
      mul_nonneg (mul_nonneg hp.le (by omega)) hb
    refine le_of_mul_le_mul_right ?_ bps_pos
    linarith
  · have hzero := haim.zero hp.symm
    rw [hzero, backedRepayment_zero snap] at hrest
    have hdust : 0 < badDebtUsdThreshold := by decide
    exact .inl (by omega)

/-- What a quote can be. -/
theorem Quotes.shape (hs : snap.Unhealthy) (hc : curve.Valid)
    (hq : Quotes snap bounds curve q b) :
    q = snap.totalDebt ∨
    (snap.totalCollateral < snap.totalDebt ∧ b = bounds.base ∧
      q = snap.totalCollateral * wad / onePlus b) ∨
    (q = backedRepayment snap b ∧ q < targetQuotient snap b curve.targetHf ∧
      badDebtUsdThreshold ≤ snap.totalDebt - q ∧
      (snap.totalCollateral < snap.totalDebt ∨
        snap.proportionSeized * (2 * badDebtUsdThreshold - 1) ≤ snap.totalCollateral)) ∨
    (q = targetQuotient snap b curve.targetHf ∧ q ≤ backedRepayment snap b ∧
      badDebtUsdThreshold ≤ snap.totalDebt - q ∧
      (snap.weightedCollateral : ℚ) - q * seizureRate snap b / wad ≥
        curve.targetHf * (snap.totalDebt - q) / wad - 6) := by
  cases hq with
  | insolvent hp hlt =>
    rcases le_total (snap.totalCollateral * wad / onePlus bounds.base) snap.totalDebt with hle | hle
    · exact .inr (.inl ⟨hlt, rfl, min_eq_left hle⟩)
    · exact .inl (min_eq_right hle)
  | capped hle hcap hlt => exact .inl rfl
  | dust haim hpos hdust => exact .inl rfl
  | target haim hrest =>
    rcases hrest with hrest | hrest
    · exact .inl hrest
    have hdust : 0 < badDebtUsdThreshold := by decide
    have hrestored := target_restored haim.toPreserving hc.target_gt hs hc.target_le
    have hexcess := backed_excess hs haim
    unfold idealRepayment at hrest ⊢
    rcases le_or_gt (targetQuotient snap b curve.targetHf) (backedRepayment snap b) with hle | hgt
    · rw [min_eq_left hle] at hrest ⊢
      rw [min_eq_left (by omega)] at hrest ⊢
      exact .inr (.inr (.inr ⟨rfl, hle, hrest, hrestored⟩))
    · rw [min_eq_right hgt.le] at hrest ⊢
      rw [min_eq_left (by omega)] at hrest ⊢
      exact .inr (.inr (.inl ⟨rfl, hgt, hrest, hexcess hrest⟩))

end

end Liquidation

open Liquidation

/-- **Liquidation quotes are backed.** For every account with collateral and a health factor
below one, and every validated curve: a quote is found where the debt is still representable at
the curve's target. Whatever is quoted is at most the debt, and what it buys is at most the
collateral up to rounding. Only where no weighted collateral is left does dust count as collateral.
A solvent account's bonus is within the cap that preserves its health factor, floored at zero. -/
theorem liquidation_quotes_backed {s s1 : Invocation W} {account : Account}
    {snap : LiquidationSnapshot} {bounds : BonusBounds} {own : LiquidationCurve}
    {cfg : SpokeConfig} (hrun : MarketsRun timestamp s.pool.markets)
    (hquoted : s.Quoted h timestamp) (hprices : h.PositivePrices) (hpos : account.Positive)
    (hcfg : Config.validateLiquidationCurve cfg.liquidationTargetHfWad cfg.hfForMaxBonusWad
      cfg.liquidationBonusFactorBps = .ok ())
    (hsnap : liquidationSnapshot h timestamp account s = .ok (snap, bounds, own) s1)
    (hcollateral : 0 < snap.totalCollateral) :
    (halfUpDiv (cfg.liquidationTargetHfWad * snap.totalDebt) wad ≤ i128Max →
      ∃ q b, estimateLiquidationAmount snap bounds (.fromConfig cfg) = .ok (q, b)) ∧
    ∀ q b, estimateLiquidationAmount snap bounds (.fromConfig cfg) = .ok (q, b) →
      q ≤ snap.totalDebt ∧ 0 ≤ b ∧
      (0 < snap.proportionSeized → (q : ℚ) * (1 + b / bps) ≤ snap.totalCollateral +
        (snap.totalCollateral / (2 * snap.proportionSeized) + (1 + b / bps) + 1)) ∧
      (snap.proportionSeized = 0 →
        (q : ℚ) * (1 + b / bps) ≤ snap.totalCollateral + (1 + b / bps) ∨
        snap.totalCollateral < snap.totalDebt ∧ q = snap.totalDebt ∧
          snap.totalDebt < snap.totalCollateral + badDebtUsdThreshold) ∧
      (snap.totalDebt ≤ snap.totalCollateral → ∀ cap, maxHfPreservingBonusBps snap = some cap →
        b ≤ max cap 0) := by
  obtain ⟨hs, hb⟩ :=
    ((liquidationSnapshot_answers hrun hprices hpos).ok ⟨rfl, hquoted⟩ hsnap).2 hcollateral
  have hc := LiquidationCurve.valid_of_validated hcfg
  refine ⟨fun hfits => ?_, fun q b hq => ?_⟩
  · obtain ⟨q, b, hq, -⟩ := estimateLiquidationAmount_returns hs hb hc hfits
    exact ⟨q, b, hq⟩
  have hquotes := estimateLiquidationAmount_quotes hs hb hc hq
  refine ⟨hquotes.le_debt, hquotes.bonus_nonneg hb, fun hp => ?_, fun hp => ?_,
    fun hle cap hcap => hquotes.bonus_le_cap hle hcap⟩
  · exact backed_rat hp (hquotes.bonus_nonneg hb) (hquotes.backed hs hb hp)
  · obtain ⟨rfl, hle | hdust⟩ := hquotes.unweighted hp
    · left
      have hle' : (q : ℚ) ≤ snap.totalCollateral := by exact_mod_cast hle
      simp only [Int.cast_zero, zero_div, add_zero, mul_one]
      linarith
    · exact .inr hdust

namespace Sample

theorem controllerHost_prices : controllerHost.PositivePrices := by
  rintro asset feed ⟨w, aggregator, hprice⟩
  cases hprice
  decide

/-- Owes on the sample market against shares of it supplied at a threshold of 70%. -/
def owing (supplied owed : Int) (bonus : Nat) : Account :=
  { underwater with
    supplyPositions := SortedMap.empty.set key ⟨supplied, 7_000, bonus, 6_500, 100⟩
    borrowPositions := SortedMap.empty.set key ⟨owed⟩ }

theorem owing_positive {supplied owed : Int} {bonus : Nat} (hs : 0 < supplied) (ho : 0 < owed) :
    (owing supplied owed bonus).Positive := by
  constructor
  · intro k position hget
    unfold owing at hget
    rw [SortedMap.get?_set] at hget
    split at hget
    · cases hget
      exact hs
    · cases hget
  · intro k position hget
    unfold owing at hget
    rw [SortedMap.get?_set] at hget
    split at hget
    · cases hget
      exact ho
    · cases hget

/-- The sample tokens at another price. -/
def pricedAt (price : Int) : ControllerHost Balances :=
  { controllerHost with
    price := fun _ _ _ => .ok ⟨price, 7, 1_000⟩ }

/-- A second market of the sample asset, under another hub. -/
def otherKey : HubAssetKey := ⟨2, 7⟩

/-- An invocation over both markets. -/
def twoMarkets : Invocation Balances :=
  { invocation with
    pool := ⟨(SortedMap.empty.set key lentOut).set otherKey lentOut, opening⟩ }

/-- Twenty billion tokens at a threshold of one basis point and a few at two, against a debt that
a bonus of one basis point just about covers. -/
def vast : Account :=
  { underwater with
    supplyPositions := (SortedMap.empty.set key ⟨20_000_000_000 * ray, 1, 0, 0, 0⟩).set otherKey
      ⟨98_000_000_000_000_000_000_000, 2, 0, 1, 0⟩
    borrowPositions := SortedMap.empty.set key ⟨19_998_000_199_980_197_980_201_979_802 * 10 ^ 9⟩ }

/-- A curve aimed at twice the debt. -/
def steep : SpokeConfig :=
  { spoke with
    liquidationTargetHfWad := 2 * wad }

end Sample

/-- The sample account is quoted, and the quote is within its hundred dollars. -/
theorem liquidation_quotes_backed_sample :
    ∃ snap bounds own s1 q b, liquidationSnapshot Sample.controllerHost 1_000 Sample.underwater
        Sample.invocation = .ok (snap, bounds, own) s1 ∧
      estimateLiquidationAmount snap bounds (.fromConfig Sample.spoke) = .ok (q, b) ∧
      q ≤ snap.totalDebt ∧ (q : ℚ) * (1 + b / bps) ≤ snap.totalCollateral +
        (snap.totalCollateral / (2 * snap.proportionSeized) + (1 + b / bps) + 1) := by
  obtain ⟨snap, bounds, own, s1, hsnap, hcollateral, hp, hfits⟩ : ∃ snap bounds own s1,
      liquidationSnapshot Sample.controllerHost 1_000 Sample.underwater Sample.invocation =
        .ok (snap, bounds, own) s1 ∧ 0 < snap.totalCollateral ∧ 0 < snap.proportionSeized ∧
      halfUpDiv (Sample.spoke.liquidationTargetHfWad * snap.totalDebt) wad ≤ i128Max :=
    ⟨_, _, _, _, rfl, by decide +kernel, by decide +kernel, by decide +kernel⟩
  have hcfg : Config.validateLiquidationCurve Sample.spoke.liquidationTargetHfWad
      Sample.spoke.hfForMaxBonusWad Sample.spoke.liquidationBonusFactorBps = .ok () := rfl
  obtain ⟨hfound, hquote⟩ := liquidation_quotes_backed Sample.invocation_markets
    (quoted_fresh rfl rfl) Sample.controllerHost_prices Sample.underwater_positive hcfg hsnap
    hcollateral
  obtain ⟨q, b, hq⟩ := hfound hfits
  obtain ⟨hle, -, hbacked, -⟩ := hquote q b hq
  exact ⟨snap, bounds, own, s1, q, b, hsnap, hq, hle, hbacked hp⟩

/-- Three accounts at which a quote misses: four dollars owed on collateral worth nothing are
quoted in full; where the proportion is rounded above the health factor the cap is negative; and
a debt that does not fit in `i128` at the target traps. -/
theorem liquidation_quotes_missed :
    (∃ snap bounds own s1 q b, liquidationSnapshot Sample.controllerHost 1_000
        (Sample.owing 1_000_000_000 (4 * ray) 500) Sample.invocation =
          .ok (snap, bounds, own) s1 ∧
      0 < snap.totalCollateral ∧ snap.proportionSeized = 0 ∧
      estimateLiquidationAmount snap bounds (.fromConfig Sample.spoke) = .ok (q, b) ∧
      (snap.totalCollateral : ℚ) + (1 + b / bps) < q * (1 + b / bps)) ∧
    (∃ snap bounds own s1 q b cap, liquidationSnapshot Sample.controllerHost 1_000
        (Sample.owing (3 * ray + 1_000_000_000) (3 * ray + 1_000_000_000) 500)
        Sample.invocation = .ok (snap, bounds, own) s1 ∧
      snap.totalDebt ≤ snap.totalCollateral ∧
      estimateLiquidationAmount snap bounds (.fromConfig Sample.spoke) = .ok (q, b) ∧
      maxHfPreservingBonusBps snap = some cap ∧ cap < b) ∧
    ∃ snap bounds own s1, liquidationSnapshot (Sample.pricedAt (1_000_000_000 * wad)) 1_000
        (Sample.owing (120_000_000_000 * ray) (100_000_000_000 * ray) 1) Sample.invocation =
          .ok (snap, bounds, own) s1 ∧
      0 < snap.totalCollateral ∧
      Config.validateLiquidationCurve Sample.steep.liquidationTargetHfWad
        Sample.steep.hfForMaxBonusWad Sample.steep.liquidationBonusFactorBps = .ok () ∧
      estimateLiquidationAmount snap bounds (.fromConfig Sample.steep) = .error .mathOverflow := by
  refine ⟨⟨_, _, _, _, _, _, rfl, ?_, rfl, rfl, ?_⟩,
    ⟨_, _, _, _, _, _, _, rfl, ?_, rfl, rfl, ?_⟩, ⟨_, _, _, _, rfl, ?_, rfl, rfl⟩⟩
  all_goals decide +kernel

/-- **A partial liquidation restores the target.** A quote is the debt, or what the collateral
backs, or the target formula's: then what is left is not dust, and paying the quote and seizing
for it leaves a health factor of at least the target, up to rounding. A solvent account is quoted
what its collateral backs only where half a unit of the proportion is worth more than dust. -/
theorem partial_liquidation_restores_target {s s1 : Invocation W} {account : Account}
    {snap : LiquidationSnapshot} {bounds : BonusBounds} {own : LiquidationCurve}
    {cfg : SpokeConfig} {q b : Int} (hrun : MarketsRun timestamp s.pool.markets)
    (hquoted : s.Quoted h timestamp) (hprices : h.PositivePrices) (hpos : account.Positive)
    (hcfg : Config.validateLiquidationCurve cfg.liquidationTargetHfWad cfg.hfForMaxBonusWad
      cfg.liquidationBonusFactorBps = .ok ())
    (hsnap : liquidationSnapshot h timestamp account s = .ok (snap, bounds, own) s1)
    (hcollateral : 0 < snap.totalCollateral)
    (hq : estimateLiquidationAmount snap bounds (.fromConfig cfg) = .ok (q, b)) :
    q = snap.totalDebt ∨
    (snap.totalCollateral < snap.totalDebt ∧ b = bounds.base ∧
      q = snap.totalCollateral * wad / onePlus b) ∨
    (q = backedRepayment snap b ∧ q < targetQuotient snap b cfg.liquidationTargetHfWad ∧
      badDebtUsdThreshold ≤ snap.totalDebt - q ∧
      (snap.totalCollateral < snap.totalDebt ∨
        snap.proportionSeized * (2 * badDebtUsdThreshold - 1) ≤ snap.totalCollateral)) ∨
    (q = targetQuotient snap b cfg.liquidationTargetHfWad ∧ q ≤ backedRepayment snap b ∧
      badDebtUsdThreshold ≤ snap.totalDebt - q ∧
      (snap.weightedCollateral : ℚ) - q * seizureRate snap b / wad ≥
        cfg.liquidationTargetHfWad * (snap.totalDebt - q) / wad - 6) := by
  obtain ⟨hs, hb⟩ :=
    ((liquidationSnapshot_answers hrun hprices hpos).ok ⟨rfl, hquoted⟩ hsnap).2 hcollateral
  have hc := LiquidationCurve.valid_of_validated hcfg
  have hshape := (estimateLiquidationAmount_quotes hs hb hc hq).shape hs hc
  simp only [LiquidationCurve.fromConfig_targetHf] at hshape
  exact hshape

/-- Seventy-two dollars owed on a hundred at a threshold of 70%: the quote is aimed at the
target. -/
theorem partial_liquidation_restores_target_sample :
    ∃ snap bounds own s1 q b, liquidationSnapshot Sample.controllerHost 1_000
        (Sample.owing (100 * ray) (72 * ray) 500) Sample.invocation = .ok (snap, bounds, own) s1 ∧
      estimateLiquidationAmount snap bounds (.fromConfig Sample.spoke) = .ok (q, b) ∧
      q < snap.totalDebt ∧
      (snap.weightedCollateral : ℚ) - q * seizureRate snap b / wad ≥
        Sample.spoke.liquidationTargetHfWad * (snap.totalDebt - q) / wad - 6 := by
  obtain ⟨snap, bounds, own, s1, q, b, hsnap, hcollateral, hq, hne, hsolvent, hformula⟩ :
      ∃ snap bounds own s1 q b, liquidationSnapshot Sample.controllerHost 1_000
        (Sample.owing (100 * ray) (72 * ray) 500) Sample.invocation = .ok (snap, bounds, own) s1 ∧
      0 < snap.totalCollateral ∧
      estimateLiquidationAmount snap bounds (.fromConfig Sample.spoke) = .ok (q, b) ∧
      q < snap.totalDebt ∧ snap.totalDebt ≤ snap.totalCollateral ∧
      targetQuotient snap b Sample.spoke.liquidationTargetHfWad ≤ q :=
    ⟨_, _, _, _, _, _, rfl, by decide +kernel, rfl, by decide +kernel, by decide +kernel,
      by decide +kernel⟩
  refine ⟨snap, bounds, own, s1, q, b, hsnap, hq, hne, ?_⟩
  rcases partial_liquidation_restores_target Sample.invocation_markets (quoted_fresh rfl rfl)
    Sample.controllerHost_prices (Sample.owing_positive (by decide) (by decide)) rfl hsnap
    hcollateral hq with hall | ⟨hlt, -⟩ | ⟨-, hlt, -⟩ | ⟨-, -, -, hrestored⟩
  · omega
  · omega
  · omega
  · exact hrestored

/-- A solvent account whose quote is neither the debt nor the target formula's. -/
theorem partial_liquidation_misses_target :
    ∃ snap bounds own s1 q b, liquidationSnapshot (Sample.pricedAt (100_000 * wad)) 1_000
        Sample.vast Sample.twoMarkets = .ok (snap, bounds, own) s1 ∧
      snap.totalDebt ≤ snap.totalCollateral ∧
      estimateLiquidationAmount snap bounds (.fromConfig Sample.spoke) = .ok (q, b) ∧
      q < snap.totalDebt ∧ q ≠ targetQuotient snap b Sample.spoke.liquidationTargetHfWad := by
  refine ⟨_, _, _, _, _, _, rfl, ?_, rfl, ?_, ?_⟩
  all_goals decide +kernel

end Lending
