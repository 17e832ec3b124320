import LendingXlm.Common.Math
import LendingXlm.Lib.Nearest

/-!
# What the fixed-point core computes

`fp_core.rs` against exact rational arithmetic, for operands of every sign: each multiply-divide
is the directed rounding of `x * y / d` wherever that is an `i128`, and the rescalings are the
directed roundings of `a / 10 ^ n`. The widened path never leaves 256 bits.
-/

namespace Lending

open Rounding

namespace FpCore

variable {x y d a r : Int} {f t n : Nat}

/-! ## The widened product -/

/-- `x` is representable in the host's `I256`. -/
def InI256 (x : Int) : Prop := -2 ^ 255 ≤ x ∧ x < 2 ^ 255

theorem abs_le_of_inI128 (hx : InI128 x) : |x| ≤ 2 ^ 127 := by
  obtain ⟨hlow, hhigh⟩ := hx
  simp only [i128Min, i128Max] at hlow hhigh
  rw [abs_le]
  constructor <;> norm_num <;> omega

/-- The values the widened path goes through: the product, that with the half-up bias, and the
truncated quotient with a step of one either way. -/
def wideValues (x y d : Int) : List Int :=
  [x * y, x * y + d / 2, (x * y).tdiv d, (x * y).tdiv d - 1, (x * y).tdiv d + 1]

theorem wideValues_fit (hx : InI128 x) (hy : InI128 y) (hd : InI128 d) :
    ∀ z ∈ wideValues x y d, InI256 z := by
  have hprod : |x * y| ≤ 2 ^ 127 * 2 ^ 127 := by
    rw [abs_mul]
    exact mul_le_mul (abs_le_of_inI128 hx) (abs_le_of_inI128 hy) (abs_nonneg y) (by positivity)
  have hquot : |(x * y).tdiv d| ≤ |x * y| := by
    rw [Int.abs_eq_natAbs, Int.abs_eq_natAbs, Int.natAbs_tdiv]
    exact_mod_cast Nat.div_le_self _ _
  have hbias := abs_le.mp (abs_le_of_inI128 hd)
  have hp := abs_le.mp hprod
  have hq := abs_le.mp (hquot.trans hprod)
  norm_num at hp hq hbias
  simp only [wideValues, List.forall_mem_cons, InI256]
  norm_num
  omega

/-! ## Multiply-divide -/

/-- The exact quotient of a multiply-divide. -/
def quotient (x y d : Int) : ℚ := (x * y : Int) / d

/-- What the multiply-divides return on `x`, `y` and `d`, the widened path staying in `I256`. -/
structure MulDivExact (x y d : Int) : Prop where
  wide : ∀ z ∈ wideValues x y d, InI256 z
  floor : mulDivFloor x y d =
    if d = 0 then .error .divisionByZero
    else if InI128 ⌊quotient x y d⌋ then .ok ⌊quotient x y d⌋ else .error .mathOverflow
  ceil : mulDivCeil x y d =
    if d = 0 then .error .divisionByZero
    else if InI128 ⌈quotient x y d⌉ then .ok ⌈quotient x y d⌉ else .error .mathOverflow
  halfUp : tryMulDivHalfUp x y d =
    if 0 ≤ x ∧ 0 ≤ y ∧ 0 < d ∧ InI128 ⌊((x * y + ⌊(d : ℚ) / 2⌋ : Int) : ℚ) / d⌋ then
      some ⌊((x * y + ⌊(d : ℚ) / 2⌋ : Int) : ℚ) / d⌋
    else none
  saturating : mulDivFloorSaturating x y d =
    if d = 0 then .error .divisionByZero
    else if InI128 ⌊quotient x y d⌋ then .ok ⌊quotient x y d⌋
    else .ok (if quotient x y d < 0 then i128Min else i128Max)

theorem requireNonzeroDivisor_zero {α : Type} (k : Unit → Result α) :
    (requireNonzeroDivisor 0 >>= k) = .error .divisionByZero := rfl

/-- The sign test of the source is the sign of the exact quotient. -/
theorem quotientIsNegative_iff (hd : d ≠ 0) :
    quotientIsNegative x y d = true ↔ quotient x y d < 0 := by
  have hd' : (d : ℚ) ≠ 0 := by exact_mod_cast hd
  unfold quotientIsNegative quotient
  by_cases h0 : x = 0 ∨ y = 0
  · have hp : x * y = 0 := mul_eq_zero.mpr h0
    simp [h0, hp]
  · rw [if_neg h0, div_neg_iff]
    obtain ⟨hx0, hy0⟩ := not_or.mp h0
    have hcast (k : Int) : ((k : ℚ) < 0 ↔ k < 0) ∧ (0 < (k : ℚ) ↔ 0 < k) :=
      ⟨Int.cast_lt_zero, Int.cast_pos⟩
    rw [(hcast _).1, (hcast _).2, (hcast _).1, (hcast _).2]
    rcases lt_or_gt_of_ne hx0 with hx | hx <;> rcases lt_or_gt_of_ne hy0 with hy | hy
    · have hp : 0 < x * y := mul_pos_of_neg_of_neg hx hy
      simp [hx, hy, hp, hp.not_gt]
    · have hp : x * y < 0 := mul_neg_of_neg_of_pos hx hy
      simp [hx, hy.not_gt, hp, hp.not_gt]
      omega
    · have hp : x * y < 0 := mul_neg_of_pos_of_neg hx hy
      simp [hx.not_gt, hy, hp, hp.not_gt]
      omega
    · have hp : 0 < x * y := mul_pos hx hy
      simp [hx.not_gt, hy.not_gt, hp, hp.not_gt]

theorem mulDivFloor_exact : mulDivFloor x y d =
    if d = 0 then .error .divisionByZero
    else if InI128 ⌊quotient x y d⌋ then .ok ⌊quotient x y d⌋ else .error .mathOverflow := by
  split
  · rename_i hd
    rw [hd]
    exact requireNonzeroDivisor_zero _
  · rename_i hd
    rw [mulDivFloor_eq_fdiv hd, toI128_eq, fdiv_eq_ratFloor]
    rfl

theorem mulDivCeil_exact : mulDivCeil x y d =
    if d = 0 then .error .divisionByZero
    else if InI128 ⌈quotient x y d⌉ then .ok ⌈quotient x y d⌉ else .error .mathOverflow := by
  split
  · rename_i hd
    rw [hd]
    exact requireNonzeroDivisor_zero _
  · rename_i hd
    rw [mulDivCeil_eq_cdiv hd, toI128_eq, cdiv, neg_fdiv_neg_eq_ratCeil]
    rfl

theorem mulDivFloorSaturating_exact : mulDivFloorSaturating x y d =
    if d = 0 then .error .divisionByZero
    else if InI128 ⌊quotient x y d⌋ then .ok ⌊quotient x y d⌋
    else .ok (if quotient x y d < 0 then i128Min else i128Max) := by
  split
  · rename_i hd
    rw [hd]
    exact requireNonzeroDivisor_zero _
  · rename_i hd
    rw [mulDivFloorSaturating_eq_fdiv hd, fdiv_eq_ratFloor]
    change Except.ok ((toI128? ⌊quotient x y d⌋).getD _) = _
    simp only [quotientIsNegative_iff hd]
    unfold toI128?
    split <;> rfl

theorem tryMulDivHalfUp_exact : tryMulDivHalfUp x y d =
    if 0 ≤ x ∧ 0 ≤ y ∧ 0 < d ∧ InI128 ⌊((x * y + ⌊(d : ℚ) / 2⌋ : Int) : ℚ) / d⌋ then
      some ⌊((x * y + ⌊(d : ℚ) / 2⌋ : Int) : ℚ) / d⌋
    else none := by
  have hhalf : ⌊(d : ℚ) / 2⌋ = d / 2 := by
    have h := ratFloor_div (p := d) (by decide : (0 : Int) < 2)
    exact_mod_cast h
  have hfold (hd : 0 < d) : ⌊((x * y + d / 2 : Int) : ℚ) / d⌋ = halfUpDiv (x * y) d :=
    ratFloor_div hd
  rw [hhalf]
  split
  · rename_i h
    obtain ⟨hx, hy, hd, hin⟩ := h
    rw [hfold hd] at hin ⊢
    exact tryMulDivHalfUp_some_iff.mpr ⟨hx, hy, hd, rfl, hin.2⟩
  · rename_i h
    rw [Option.eq_none_iff_forall_ne_some]
    intro r hr
    obtain ⟨hx, hy, hd, rfl, hle⟩ := tryMulDivHalfUp_some_iff.mp hr
    refine h ⟨hx, hy, hd, ?_⟩
    rw [hfold hd]
    exact inI128_of_nonneg (halfUpDiv_nonneg hd (mul_nonneg hx hy)) hle

/-! ## Rescaling -/

theorem checkedPow_ten_none (hn : 38 < n) : I128.checkedPow 10 n = none := by
  unfold I128.checkedPow
  rw [if_neg]
  intro h
  have hpow : (10 : Int) ^ 39 ≤ 10 ^ n := pow_le_pow_right₀ (by decide) hn
  have hmax : i128Max < (10 : Int) ^ 39 := by decide
  exact absurd h.2 (by omega)

/-- No `i128` reaches half of a power of ten that overflows `i128`. -/
theorem abs_div_ten_pow_lt (ha : InI128 a) (hn : 38 < n) : |(a : ℚ) / (10 : Int) ^ n| < 1 / 2 := by
  have hpow : (10 : ℚ) ^ 39 ≤ 10 ^ n := pow_le_pow_right₀ (by norm_num) hn
  have habs : |(a : ℚ)| ≤ 2 ^ 127 := by exact_mod_cast abs_le_of_inI128 ha
  rw [abs_div, div_lt_iff₀ (by positivity)]
  push_cast
  rw [abs_of_pos (by positivity : (0 : ℚ) < 10 ^ n)]
  calc |(a : ℚ)| ≤ 2 ^ 127 := habs
    _ < 1 / 2 * 10 ^ 39 := by norm_num
    _ ≤ 1 / 2 * 10 ^ n := by linarith

theorem roundedQuotient_neg {b : Int} (hb : 0 < b) :
    roundedQuotient (-a) b = -roundedQuotient a b := by
  unfold roundedQuotient
  rw [Int.neg_tdiv, Int.neg_tmod]
  dsimp only
  have hhalf : 0 < b / 2 + b % 2 := by omega
  split <;> split <;> try split <;> try split
  all_goals omega

theorem roundedQuotient_exact {b : Int} (hb : 0 < b) :
    roundedQuotient a b = roundAway ((a : ℚ) / b) := by
  have hnonneg {a : Int} (ha : 0 ≤ a) : roundedQuotient a b = roundAway ((a : ℚ) / b) := by
    rw [roundedQuotient_eq ha hb, halfUpDiv_eq_roundAway ha hb]
  rcases le_total 0 a with ha | ha
  · exact hnonneg ha
  · have h := hnonneg (a := -a) (by omega)
    push_cast at h
    rw [roundedQuotient_neg hb, neg_div, roundAway_neg] at h
    omega

/-- Downscaling applies its rounding rule, whether or not the power of ten fits. -/
theorem rescale_gt (rd : Int → Option Int → Int) (h : t < f) :
    rescale a f t rd = .ok (rd a (I128.checkedPow 10 (f - t))) := by
  unfold rescale
  rw [if_neg (by omega), max_eq_right h.le, min_eq_left h.le, if_neg (by omega)]
  rfl

/-- Upscaling returns the product, or traps when the factor or the product is not an `i128`. -/
theorem rescale_lt (rd : Int → Option Int → Int) (h : f < t) :
    rescale a f t rd =
      if InI128 (10 ^ (t - f)) ∧ InI128 (a * 10 ^ (t - f)) then .ok (a * 10 ^ (t - f))
      else .error .mathOverflow := by
  unfold rescale
  rw [if_neg (by omega), max_eq_left h.le, min_eq_right h.le, if_pos h]
  unfold I128.checkedPow
  by_cases hf : InI128 ((10 : Int) ^ (t - f))
  · simp only [hf, if_true, Option.bind_some, true_and, I128.checkedMul]
    split <;> rfl
  · simp only [hf, if_false, false_and]
    rfl

/-- The exact quotient of a downscale by `10 ^ (f - t)`. -/
def scaled (a : Int) (f t : Nat) : ℚ := (a : ℚ) / (10 : Int) ^ (f - t)

/-- What the three rescalings return on `a` between `f` and `t` decimals. -/
structure RescaleExact (a : Int) (f t : Nat) : Prop where
  halfUp : t ≤ f → rescaleHalfUp a f t = .ok (roundAway (scaled a f t))
  floor : t ≤ f → rescaleFloor a f t = .ok (truncate (scaled a f t))
  ceil : t ≤ f → 0 ≤ a → rescaleCeil a f t = .ok ⌈scaled a f t⌉
  ceil_neg : t ≤ f → a < 0 → rescaleCeil a f t = .ok (truncate (scaled a f t))
  upscale : f < t → ∀ rescaled ∈ [rescaleHalfUp a f t, rescaleFloor a f t, rescaleCeil a f t],
    rescaled = if InI128 (10 ^ (t - f)) ∧ InI128 (a * 10 ^ (t - f)) then .ok (a * 10 ^ (t - f))
      else .error .mathOverflow

theorem scaled_same : scaled a f f = a := by simp [scaled]

theorem rescaleHalfUp_exact (ha : InI128 a) (h : t ≤ f) :
    rescaleHalfUp a f t = .ok (roundAway (scaled a f t)) := by
  unfold rescaleHalfUp
  rcases h.eq_or_lt with rfl | hlt
  · rw [rescale_same, scaled_same, roundAway_intCast]
  · rw [rescale_gt _ hlt]
    rcases Nat.lt_or_ge 38 (f - t) with hn | hn
    · rw [checkedPow_ten_none hn]
      exact congrArg Except.ok (roundAway_eq_zero (abs_div_ten_pow_lt ha hn)).symm
    · rw [checkedPow_ten hn]
      dsimp only
      rw [roundedQuotient_exact (by positivity)]
      simp [scaled]

theorem rescaleFloor_exact (ha : InI128 a) (h : t ≤ f) :
    rescaleFloor a f t = .ok (truncate (scaled a f t)) := by
  unfold rescaleFloor
  rcases h.eq_or_lt with rfl | hlt
  · rw [rescale_same, scaled_same, truncate_intCast]
  · rw [rescale_gt _ hlt]
    rcases Nat.lt_or_ge 38 (f - t) with hn | hn
    · rw [checkedPow_ten_none hn]
      have hsmall := (abs_div_ten_pow_lt ha hn).trans (by norm_num : (1 : ℚ) / 2 < 1)
      exact congrArg Except.ok (truncate_eq_zero hsmall).symm
    · rw [checkedPow_ten hn]
      dsimp only
      rw [tdiv_eq_truncate (by positivity)]
      simp [scaled]

theorem rescaleCeil_exact (ha : InI128 a) (h : t ≤ f) (h0 : 0 ≤ a) :
    rescaleCeil a f t = .ok ⌈scaled a f t⌉ := by
  rcases Nat.lt_or_ge 38 (f - t) with hn | hn
  · unfold rescaleCeil
    rw [rescale_gt _ (by omega), checkedPow_ten_none hn]
    have hlt := abs_lt.mp (abs_div_ten_pow_lt ha hn)
    refine congrArg Except.ok (Eq.symm ?_)
    change ⌈(a : ℚ) / (10 : Int) ^ (f - t)⌉ = if 0 < a then 1 else 0
    split
    · rename_i hpos
      have hq : (0 : ℚ) < (a : ℚ) / (10 : Int) ^ (f - t) :=
        div_pos (by exact_mod_cast hpos) (by positivity)
      rw [Int.ceil_eq_iff]
      constructor <;> push_cast at * <;> linarith
    · rename_i hpos
      obtain rfl : a = 0 := by omega
      simp
  · rw [rescaleCeil_down h0 h hn, ← ratCeil_div (by positivity)]
    simp [scaled]

/-- Below zero `rescale_ceil` truncates, as its documentation says. -/
theorem rescaleCeil_neg (hneg : a < 0) : rescaleCeil a f t = rescaleFloor a f t := by
  unfold rescaleCeil rescaleFloor rescale
  cases I128.checkedPow 10 (max t f - min t f) with
  | none => simp only [if_neg (by omega : ¬ 0 < a)]
  | some factor => simp only [if_neg fun h : 0 ≤ a ∧ a.tmod factor ≠ 0 => absurd h.1 (by omega)]

theorem rescale_upscale (h : f < t) :
    ∀ rescaled ∈ [rescaleHalfUp a f t, rescaleFloor a f t, rescaleCeil a f t],
      rescaled = if InI128 (10 ^ (t - f)) ∧ InI128 (a * 10 ^ (t - f)) then .ok (a * 10 ^ (t - f))
        else .error .mathOverflow := by
  intro rescaled hmem
  simp only [List.mem_cons, List.not_mem_nil, or_false] at hmem
  rcases hmem with rfl | rfl | rfl <;> exact rescale_lt _ h

end FpCore

/-- Every operation of the fixed-point core returns the exact directed rounding of its rational
result, and traps exactly where that is undefined or not an `i128`. -/
theorem fixedPoint_exact {x y d a : Int} (hx : InI128 x) (hy : InI128 y) (hd : InI128 d)
    (ha : InI128 a) (fromDecimals toDecimals : Nat) :
    FpCore.MulDivExact x y d ∧ FpCore.RescaleExact a fromDecimals toDecimals := by
  constructor
  · exact ⟨FpCore.wideValues_fit hx hy hd, FpCore.mulDivFloor_exact, FpCore.mulDivCeil_exact,
      FpCore.tryMulDivHalfUp_exact, FpCore.mulDivFloorSaturating_exact⟩
  · exact ⟨FpCore.rescaleHalfUp_exact ha, FpCore.rescaleFloor_exact ha,
      FpCore.rescaleCeil_exact ha,
      fun h hneg => (FpCore.rescaleCeil_neg hneg).trans (FpCore.rescaleFloor_exact ha h),
      FpCore.rescale_upscale⟩

/-- At the corners: `i128::MIN` over `-1`, and a power of ten that does not fit. -/
theorem fixedPoint_exact_sample :
    FpCore.MulDivExact i128Min 1 (-1) ∧ FpCore.RescaleExact (-15) 45 3 :=
  fixedPoint_exact (by decide) (by decide) (by decide) (by decide) 45 3

end Lending
