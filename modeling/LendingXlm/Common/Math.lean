import LendingXlm.Common.Basic
import LendingXlm.Lib.Rounding

/-!
# Fixed-point arithmetic

`common/src/math/fp_core.rs` and `common/src/math/fp.rs`. The newtypes `Ray`, `Wad` and `Bps`
are their raw `i128`, so they are integers here; their operations keep the source's names.

Every multiply-divide first tries the product in `i128` and falls back to 256 bits. `i128`
operands cannot overflow the 256-bit product, so the wide path is plain integer arithmetic.
The spec lemmas say that both paths give the same directed quotient:

* `mulDivHalfUp_ok_iff`, `mulDivFloor_eq`, `mulDivCeil_eq`, `mulDivFloorSaturating_eq`;
* `rescale_up`, `rescaleFloor_down`, `rescaleCeil_down`, `rescaleHalfUp_down`.
-/

namespace Lending

open Rounding

/-! ## `fp_core.rs` -/

namespace FpCore

def requireNonzeroDivisor (d : Int) : Result Unit := require (d ≠ 0) .divisionByZero

/-- The exact rational `x * y / d` is strictly negative. -/
def quotientIsNegative (x y d : Int) : Bool :=
  if x = 0 ∨ y = 0 then false
  else (decide (x < 0) != decide (y < 0)) != decide (d < 0)

def quotientIsNonnegative (x y d : Int) : Bool := !quotientIsNegative x y d

def divFloorI128 (p d : Int) : Option Int := do
  let quotient ← I128.checkedDiv p d
  if p.tmod d ≠ 0 ∧ decide (p < 0) ≠ decide (d < 0) then
    I128.checkedSub quotient 1
  else
    some quotient

def divCeilI128 (p d : Int) : Option Int := do
  let quotient ← I128.checkedDiv p d
  if p.tmod d ≠ 0 ∧ decide (p < 0) = decide (d < 0) then
    I128.checkedAdd quotient 1
  else
    some quotient

def divFloorI256 (p d : Int) (nonneg : Bool) : Int :=
  if nonneg then p.tdiv d
  else if p % d ≠ 0 ∧ decide (p < 0) ≠ decide (d < 0) then p.tdiv d - 1
  else p.tdiv d

def divCeilI256 (p d : Int) (nonneg : Bool) : Int :=
  let quotient := p.tdiv d
  let remainderIsNonzero := decide (p % d ≠ 0)
  let roundUp :=
    if nonneg then remainderIsNonzero
    else remainderIsNonzero && decide (p < 0) == decide (d < 0)
  if roundUp then quotient + 1 else quotient

/-- `I256::to_i128`. -/
def toI128? (val : Int) : Option Int := if InI128 val then some val else none

def toI128 (val : Int) : Result Int := orThrow (toI128? val) .mathOverflow

def tryMulDivHalfUp (x y d : Int) : Option Int :=
  if x < 0 ∨ y < 0 ∨ d ≤ 0 then none
  else
    let half := d / 2
    match (I128.checkedMul x y).bind (I128.checkedAdd · half) with
    | some biased => some (biased / d)
    | none => toI128? ((x * y + half) / d)

def mulDivHalfUp (x y d : Int) : Result Int := do
  requireNonzeroDivisor d
  orThrow (tryMulDivHalfUp x y d) .mathOverflow

def mulDivFloor (x y d : Int) : Result Int := do
  requireNonzeroDivisor d
  match (I128.checkedMul x y).bind (divFloorI128 · d) with
  | some quotient => pure quotient
  | none => toI128 (divFloorI256 (x * y) d (quotientIsNonnegative x y d))

def mulDivCeil (x y d : Int) : Result Int := do
  requireNonzeroDivisor d
  match (I128.checkedMul x y).bind (divCeilI128 · d) with
  | some quotient => pure quotient
  | none => toI128 (divCeilI256 (x * y) d (quotientIsNonnegative x y d))

def mulDivFloorSaturating (x y d : Int) : Result Int := do
  requireNonzeroDivisor d
  match (I128.checkedMul x y).bind (divFloorI128 · d) with
  | some quotient => pure quotient
  | none =>
    pure ((toI128? (divFloorI256 (x * y) d (quotientIsNonnegative x y d))).getD
      (if quotientIsNegative x y d then i128Min else i128Max))

/-- Rescales `a` between decimal counts; `roundDown` gets the power of ten, `none` when that
power overflows `i128`. -/
def rescale (a : Int) (fromDecimals toDecimals : Nat) (roundDown : Int → Option Int → Int) :
    Result Int :=
  if fromDecimals = toDecimals then pure a
  else
    let factor := I128.checkedPow 10 (max toDecimals fromDecimals - min toDecimals fromDecimals)
    if fromDecimals < toDecimals then
      orThrow (factor.bind (I128.checkedMul a ·)) .mathOverflow
    else
      pure (roundDown a factor)

/-- The rounding of `div_by_int_half_up` for a positive divisor: nearest, halves away from
zero. -/
def roundedQuotient (a b : Int) : Int :=
  let quotient := a.tdiv b
  let remainder := a.tmod b
  let half := b / 2 + b % 2
  if remainder ≥ half then quotient + 1
  else if remainder ≤ -half then quotient - 1
  else quotient

def divByIntHalfUp (a b : Int) : Result Int := do
  requireNonzeroDivisor b
  require (¬ b < 0) .mathOverflow
  pure (roundedQuotient a b)

def rescaleHalfUp (a : Int) (fromDecimals toDecimals : Nat) : Result Int :=
  rescale a fromDecimals toDecimals fun a factor =>
    match factor with
    | none => 0
    | some factor => roundedQuotient a factor

def rescaleFloor (a : Int) (fromDecimals toDecimals : Nat) : Result Int :=
  rescale a fromDecimals toDecimals fun a factor =>
    match factor with
    | none => 0
    | some factor => a.tdiv factor

def rescaleCeil (a : Int) (fromDecimals toDecimals : Nat) : Result Int :=
  rescale a fromDecimals toDecimals fun a factor =>
    match factor with
    | none => if 0 < a then 1 else 0
    | some factor => if 0 ≤ a ∧ a.tmod factor ≠ 0 then a.tdiv factor + 1 else a.tdiv factor

/-! ### Both paths compute the directed quotient -/

variable {x y d p r : Int}

theorem toI128_eq (p : Int) :
    toI128 p = if InI128 p then .ok p else .error .mathOverflow := by
  unfold toI128 toI128?
  split <;> rfl

@[simp] theorem toI128_ok_iff : toI128 p = .ok r ↔ InI128 p ∧ p = r := by
  rw [toI128_eq]
  split <;> simp_all

/-- The ceiling of `p / d` for a divisor of either sign; `fdiv` is the floor. -/
def cdiv (p d : Int) : Int := -((-p).fdiv d)

theorem fdiv_eq_floor (hd : 0 < d) : p.fdiv d = p / d := Int.fdiv_eq_ediv_of_nonneg p hd.le

theorem cdiv_eq_ceilDiv (hd : 0 < d) : cdiv p d = ceilDiv p d := by
  unfold cdiv ceilDiv
  rw [fdiv_eq_floor hd]

theorem tmod_eq_zero_iff : p.tmod d = 0 ↔ p % d = 0 := by
  rw [← Int.dvd_iff_emod_eq_zero, ← Int.dvd_iff_tmod_eq_zero]

/-- Truncation is the floor, or one above it on a negative quotient with a remainder. -/
theorem tdiv_eq_fdiv (hd : d ≠ 0) :
    p.tdiv d =
      if p % d ≠ 0 ∧ decide (p < 0) ≠ decide (d < 0) then p.fdiv d + 1 else p.fdiv d := by
  rw [Int.tdiv_eq_fdiv]
  by_cases hm : p % d = 0
  · simp [hm, Int.dvd_of_emod_eq_zero hm]
  · have hdvd : ¬ d ∣ p := fun h => hm (Int.emod_eq_zero_of_dvd h)
    rw [if_neg hdvd]
    rcases lt_or_gt_of_ne hd with hneg | hpos
    · rw [Int.sign_eq_neg_one_of_neg hneg]
      by_cases hp : p < 0
      · simp [hm, hp, hneg, show ¬ 0 ≤ p by omega, show ¬ 0 ≤ d by omega]
      · simp [hm, hp, hneg, show 0 ≤ p by omega, show ¬ 0 ≤ d by omega]
    · rw [Int.sign_eq_one_of_pos hpos]
      by_cases hp : p < 0
      · simp [hm, hp, hpos.le, show ¬ 0 ≤ p by omega, show ¬ d < 0 by omega]
      · simp [hm, hp, hpos.le, show 0 ≤ p by omega, show ¬ d < 0 by omega]

/-- The ceiling is one above the floor exactly when there is a remainder. -/
theorem cdiv_eq_fdiv (hd : d ≠ 0) :
    cdiv p d = if p % d = 0 then p.fdiv d else p.fdiv d + 1 := by
  unfold cdiv
  rw [Int.neg_fdiv]
  by_cases hm : p % d = 0
  · simp [hm, Int.dvd_of_emod_eq_zero hm]
  · have hdvd : ¬ d ∣ p := fun h => hm (Int.emod_eq_zero_of_dvd h)
    rw [if_neg hm, if_neg (by simp [hd, hdvd])]
    omega

/-- A negative numerator with a remainder has its ceiling one above the floor. -/
theorem ceilDiv_eq_floor (hd : 0 < d) :
    ceilDiv p d = if p % d = 0 then p / d else p / d + 1 := by
  rw [← cdiv_eq_ceilDiv hd, cdiv_eq_fdiv hd.ne', fdiv_eq_floor hd]

/-- What `quotient_is_nonnegative` answers about the widened product. -/
theorem quotientIsNonnegative_imp (h : quotientIsNonnegative x y d = true) :
    x * y = 0 ∨ (x * y < 0 ↔ d < 0) := by
  simp only [quotientIsNonnegative, quotientIsNegative, Bool.not_eq_true'] at h
  by_cases h0 : x = 0 ∨ y = 0
  · exact Or.inl (mul_eq_zero.mpr h0)
  · rw [if_neg h0] at h
    obtain ⟨hx0, hy0⟩ := not_or.mp h0
    right
    rcases lt_or_gt_of_ne hx0 with hx | hx <;> rcases lt_or_gt_of_ne hy0 with hy | hy
    · have hp : ¬ x * y < 0 := (mul_pos_of_neg_of_neg hx hy).not_gt
      simpa [hx, hy, hp] using h
    · have hp : x * y < 0 := mul_neg_of_neg_of_pos hx hy
      simpa [hx, hy.not_gt, hp] using h
    · have hp : x * y < 0 := mul_neg_of_pos_of_neg hx hy
      simpa [hx.not_gt, hy, hp] using h
    · have hp : ¬ x * y < 0 := (mul_pos hx hy).not_gt
      simpa [hx.not_gt, hy.not_gt, hp] using h

theorem divFloorI256_eq (hd : d ≠ 0) :
    divFloorI256 (x * y) d (quotientIsNonnegative x y d) = (x * y).fdiv d := by
  unfold divFloorI256
  rw [tdiv_eq_fdiv hd]
  cases hn : quotientIsNonnegative x y d with
  | true =>
    rcases quotientIsNonnegative_imp hn with h0 | hsign
    · simp [h0]
    · simp [hsign]
  | false =>
    simp only [Bool.false_eq_true, if_false]
    split <;> omega

theorem divCeilI256_eq (hd : d ≠ 0) :
    divCeilI256 (x * y) d (quotientIsNonnegative x y d) = cdiv (x * y) d := by
  unfold divCeilI256
  rw [tdiv_eq_fdiv hd, cdiv_eq_fdiv hd]
  cases hn : quotientIsNonnegative x y d with
  | true =>
    rcases quotientIsNonnegative_imp hn with h0 | hsign
    · simp [h0]
    · by_cases hm : x * y % d = 0 <;> simp [hm, hsign]
  | false =>
    by_cases hm : x * y % d = 0
    · simp [hm]
    · by_cases hs : decide (x * y < 0) = decide (d < 0) <;> simp_all

/-- The native floor, when it does not overflow, is the floor and representable. -/
theorem divFloorI128_some (hd : d ≠ 0) (h : divFloorI128 p d = some r) :
    r = p.fdiv d ∧ InI128 r := by
  unfold divFloorI128 I128.checkedDiv at h
  rw [if_neg hd] at h
  split at h
  · rename_i hq
    simp only [Option.bind_eq_bind, Option.bind_some, ne_eq, tmod_eq_zero_iff] at h
    rw [tdiv_eq_fdiv hd] at h hq
    by_cases hm : ¬ p % d = 0 ∧ ¬ decide (p < 0) = decide (d < 0)
    · rw [if_pos hm, if_pos hm, I128.checkedSub_some, add_sub_cancel_right] at h
      exact ⟨h.2.symm, h.2 ▸ h.1⟩
    · rw [if_neg hm, if_neg hm, Option.some.injEq] at h
      rw [if_neg hm] at hq
      exact ⟨h.symm, h ▸ hq⟩
  · simp at h

theorem divCeilI128_some (hd : d ≠ 0) (h : divCeilI128 p d = some r) :
    r = cdiv p d ∧ InI128 r := by
  rw [cdiv_eq_fdiv hd]
  unfold divCeilI128 I128.checkedDiv at h
  rw [if_neg hd] at h
  split at h
  · rename_i hq
    simp only [Option.bind_eq_bind, Option.bind_some, ne_eq, tmod_eq_zero_iff] at h
    rw [tdiv_eq_fdiv hd] at h hq
    by_cases hm : p % d = 0
    · simp [hm] at h hq ⊢
      exact ⟨h.symm, h ▸ hq⟩
    · by_cases hs : decide (p < 0) = decide (d < 0)
      · simp only [hm, hs, not_false_eq_true, not_true_eq_false, and_true, and_false, ne_eq,
          if_true, if_false, I128.checkedAdd_some] at h ⊢
        exact ⟨h.2.symm, h.2 ▸ h.1⟩
      · simp only [hm, hs, not_false_eq_true, and_false, and_self, ne_eq, if_true, if_false,
          Option.some.injEq] at h hq ⊢
        exact ⟨h.symm, h ▸ hq⟩
  · simp at h

/-- `mul_div_floor` is the floor of `x * y / d`, or `MathOverflow` when that is not an
`i128`. -/
theorem mulDivFloor_eq_fdiv (hd : d ≠ 0) : mulDivFloor x y d = toI128 ((x * y).fdiv d) := by
  unfold mulDivFloor requireNonzeroDivisor
  rw [Fallible.require_pos hd, Fallible.ok_bind]
  split
  · rename_i q hq
    obtain ⟨p, hp, hf⟩ := Option.bind_eq_some_iff.mp hq
    obtain ⟨-, rfl⟩ := I128.checkedMul_some.mp hp
    obtain ⟨rfl, hin⟩ := divFloorI128_some hd hf
    rw [toI128_eq, if_pos hin]
    rfl
  · rw [divFloorI256_eq hd]

/-- `mul_div_ceil` is the ceiling of `x * y / d`, or `MathOverflow`. -/
theorem mulDivCeil_eq_cdiv (hd : d ≠ 0) : mulDivCeil x y d = toI128 (cdiv (x * y) d) := by
  unfold mulDivCeil requireNonzeroDivisor
  rw [Fallible.require_pos hd, Fallible.ok_bind]
  split
  · rename_i q hq
    obtain ⟨p, hp, hf⟩ := Option.bind_eq_some_iff.mp hq
    obtain ⟨-, rfl⟩ := I128.checkedMul_some.mp hp
    obtain ⟨rfl, hin⟩ := divCeilI128_some hd hf
    rw [toI128_eq, if_pos hin]
    rfl
  · rw [divCeilI256_eq hd]

/-- `mul_div_floor_saturating` is the floor, or the end of `i128` on the quotient's side. -/
theorem mulDivFloorSaturating_eq_fdiv (hd : d ≠ 0) :
    mulDivFloorSaturating x y d =
      .ok ((toI128? ((x * y).fdiv d)).getD
        (if quotientIsNegative x y d then i128Min else i128Max)) := by
  unfold mulDivFloorSaturating requireNonzeroDivisor
  rw [Fallible.require_pos hd, Fallible.ok_bind]
  split
  · rename_i q hq
    obtain ⟨p, hp, hf⟩ := Option.bind_eq_some_iff.mp hq
    obtain ⟨-, rfl⟩ := I128.checkedMul_some.mp hp
    obtain ⟨rfl, hin⟩ := divFloorI128_some hd hf
    rw [toI128?, if_pos hin]
    rfl
  · rw [divFloorI256_eq hd]
    rfl

theorem mulDivFloor_eq (hd : 0 < d) : mulDivFloor x y d = toI128 (x * y / d) := by
  rw [mulDivFloor_eq_fdiv hd.ne', fdiv_eq_floor hd]

theorem mulDivCeil_eq (hd : 0 < d) : mulDivCeil x y d = toI128 (ceilDiv (x * y) d) := by
  rw [mulDivCeil_eq_cdiv hd.ne', cdiv_eq_ceilDiv hd]

/-- `mul_div_floor_saturating` never traps for a positive divisor; on a non-negative product
it is the floor capped at `i128::MAX`. -/
theorem mulDivFloorSaturating_eq (hd : 0 < d) (hx : 0 ≤ x) (hy : 0 ≤ y) :
    mulDivFloorSaturating x y d = .ok (min (x * y / d) i128Max) := by
  have hq : 0 ≤ x * y / d := floor_nonneg hd (mul_nonneg hx hy)
  have hneg : quotientIsNegative x y d = false := by
    have hx' : ¬ x < 0 := by omega
    have hy' : ¬ y < 0 := by omega
    have hd' : ¬ d < 0 := by omega
    simp [quotientIsNegative, hx', hy', hd']
  rw [mulDivFloorSaturating_eq_fdiv hd.ne', fdiv_eq_floor hd, hneg]
  unfold toI128?
  split
  · rename_i hin
    rw [min_eq_left hin.2]
    rfl
  · rename_i hin
    have : i128Max ≤ x * y / d := by
      by_contra hlt
      exact hin (inI128_of_nonneg hq (by omega))
    rw [min_eq_right this]
    rfl

theorem tryMulDivHalfUp_some_iff :
    tryMulDivHalfUp x y d = some r ↔
      0 ≤ x ∧ 0 ≤ y ∧ 0 < d ∧ r = halfUpDiv (x * y) d ∧ r ≤ i128Max := by
  unfold tryMulDivHalfUp
  by_cases hneg : x < 0 ∨ y < 0 ∨ d ≤ 0
  · rw [if_pos hneg]
    constructor
    · intro h
      cases h
    · rintro ⟨h1, h2, h3, -⟩
      omega
  · rw [if_neg hneg]
    have hx : 0 ≤ x := by omega
    have hy : 0 ≤ y := by omega
    have hd : 0 < d := by omega
    have hxy : 0 ≤ x * y := mul_nonneg hx hy
    have hr : 0 ≤ halfUpDiv (x * y) d := halfUpDiv_nonneg hd hxy
    simp only [hx, hy, hd, true_and]
    have hfold : (x * y + d / 2) / d = halfUpDiv (x * y) d := rfl
    split
    · rename_i b hb
      obtain ⟨p, hp, hb⟩ := Option.bind_eq_some_iff.mp hb
      obtain ⟨-, rfl⟩ := I128.checkedMul_some.mp hp
      obtain ⟨hin, rfl⟩ := I128.checkedAdd_some.mp hb
      have hle : halfUpDiv (x * y) d ≤ i128Max := by
        refine le_trans ?_ hin.2
        exact Int.ediv_le_self d (by have := Int.ediv_nonneg hd.le (by decide : (0:Int) ≤ 2); omega)
      rw [hfold, Option.some.injEq]
      constructor
      · rintro rfl
        exact ⟨rfl, hle⟩
      · rintro ⟨rfl, -⟩
        rfl
    · rw [hfold]
      unfold toI128?
      split
      · rename_i hin
        rw [Option.some.injEq]
        constructor
        · rintro rfl
          exact ⟨rfl, hin.2⟩
        · rintro ⟨rfl, -⟩
          rfl
      · rename_i hin
        constructor
        · intro h
          cases h
        · rintro ⟨rfl, h⟩
          exact absurd (inI128_of_nonneg hr h) hin

/-- `mul_div_half_up` returns exactly when its operands are in the documented domain and the
half-up quotient is an `i128`. -/
theorem mulDivHalfUp_ok_iff :
    mulDivHalfUp x y d = .ok r ↔
      0 ≤ x ∧ 0 ≤ y ∧ 0 < d ∧ r = halfUpDiv (x * y) d ∧ r ≤ i128Max := by
  unfold mulDivHalfUp requireNonzeroDivisor
  simp only [Fallible.bind_ok_iff, Fallible.require_ok_iff, Fallible.orThrow_ok_iff,
    tryMulDivHalfUp_some_iff]
  constructor
  · rintro ⟨-, -, h⟩
    exact h
  · intro h
    exact ⟨(), h.2.2.1.ne', h⟩

/-! ### Rescaling -/

theorem inI128_ten_pow {n : Nat} (h : n ≤ 38) : InI128 (10 ^ n) := by
  refine inI128_of_nonneg (by positivity) ?_
  calc (10 : Int) ^ n ≤ 10 ^ 38 := pow_le_pow_right₀ (by decide) h
    _ ≤ i128Max := by decide

theorem checkedPow_ten {n : Nat} (h : n ≤ 38) : I128.checkedPow 10 n = some (10 ^ n) := by
  unfold I128.checkedPow
  rw [if_pos (inI128_ten_pow h)]

variable {a b : Int} {f t : Nat} {rd : Int → Option Int → Int}

/-- Upscaling multiplies by the power of ten, or traps with `MathOverflow`. -/
theorem rescale_up (hlt : f < t) (hle : t - f ≤ 38) :
    rescale a f t rd = toI128 (a * 10 ^ (t - f)) := by
  unfold rescale toI128 toI128?
  rw [if_neg (by omega), max_eq_left hlt.le, min_eq_right hlt.le, checkedPow_ten hle, if_pos hlt]
  rfl

/-- Downscaling rounds with the given rule and never traps. -/
theorem rescale_down (hlt : t < f) (hle : f - t ≤ 38) :
    rescale a f t rd = .ok (rd a (some (10 ^ (f - t)))) := by
  unfold rescale
  rw [if_neg (by omega), max_eq_right hlt.le, min_eq_left hlt.le, checkedPow_ten hle,
    if_neg (by omega)]
  rfl

theorem rescale_same : rescale a f f rd = .ok a := by
  simp [rescale, pure, Except.pure]

theorem roundedQuotient_eq (ha : 0 ≤ a) (hb : 0 < b) : roundedQuotient a b = halfUpDiv a b := by
  unfold roundedQuotient halfUpDiv
  rw [Int.tdiv_eq_ediv_of_nonneg ha, Int.tmod_eq_emod_of_nonneg ha]
  have heq := Int.ediv_mul_add_emod a b
  have hr0 := Int.emod_nonneg a hb.ne'
  have hr1 := Int.emod_lt_of_pos a hb
  have hkey : (a + b / 2) / b = a / b + (a % b + b / 2) / b := by
    rw [show a + b / 2 = (a % b + b / 2) + a / b * b by linarith, Int.add_mul_ediv_right _ _ hb.ne',
      add_comm]
  rw [hkey]
  dsimp only
  split
  · rename_i h
    have : (a % b + b / 2) / b = 1 := by
      rw [Int.ediv_eq_iff_of_pos hb]
      constructor <;> omega
    omega
  · rename_i h
    have hz : (a % b + b / 2) / b = 0 := Int.ediv_eq_zero_of_lt (by omega) (by omega)
    rw [if_neg (by omega), hz, add_zero]

theorem rescaleFloor_down (ha : 0 ≤ a) (hle : t ≤ f) (hf : f - t ≤ 38) :
    rescaleFloor a f t = .ok (a / 10 ^ (f - t)) := by
  unfold rescaleFloor
  rcases hle.eq_or_lt with rfl | hlt
  · rw [rescale_same]
    simp
  · rw [rescale_down hlt hf]
    dsimp only
    rw [Int.tdiv_eq_ediv_of_nonneg ha]

theorem rescaleCeil_down (ha : 0 ≤ a) (hle : t ≤ f) (hf : f - t ≤ 38) :
    rescaleCeil a f t = .ok (ceilDiv a (10 ^ (f - t))) := by
  have hb : (0 : Int) < 10 ^ (f - t) := by positivity
  unfold rescaleCeil
  rcases hle.eq_or_lt with rfl | hlt
  · rw [rescale_same]
    simp [ceilDiv]
  · rw [rescale_down hlt hf, ceilDiv_eq_floor hb]
    simp only [ha, true_and, ne_eq, tmod_eq_zero_iff, Int.tdiv_eq_ediv_of_nonneg ha]
    split <;> simp_all

theorem rescaleHalfUp_down (ha : 0 ≤ a) (hle : t ≤ f) (hf : f - t ≤ 38) :
    rescaleHalfUp a f t = .ok (halfUpDiv a (10 ^ (f - t))) := by
  have hb : (0 : Int) < 10 ^ (f - t) := by positivity
  unfold rescaleHalfUp
  rcases hle.eq_or_lt with rfl | hlt
  · rw [rescale_same]
    simp [halfUpDiv]
  · rw [rescale_down hlt hf]
    dsimp only
    rw [roundedQuotient_eq ha hb]

theorem rescaleHalfUp_up (hlt : f < t) (hle : t - f ≤ 38) :
    rescaleHalfUp a f t = toI128 (a * 10 ^ (t - f)) :=
  rescale_up hlt hle

theorem divByIntHalfUp_eq (ha : 0 ≤ a) (hb : 0 < b) :
    divByIntHalfUp a b = .ok (halfUpDiv a b) := by
  unfold divByIntHalfUp requireNonzeroDivisor
  rw [Fallible.require_pos hb.ne', Fallible.ok_bind, Fallible.require_pos (by omega),
    Fallible.ok_bind, roundedQuotient_eq ha hb]
  rfl

end FpCore

/-! ## `fp.rs` -/

open FpCore

def checkedAddRaw (a b : Int) : Result Int := orThrow (I128.checkedAdd a b) .mathOverflow

/-- Subtraction of non-negative values that may not go below zero. -/
def checkedSubNonneg (a b : Int) : Result Int :=
  if a < 0 ∨ b < 0 ∨ b > a then throw .mathOverflow else pure (a - b)

@[simp] theorem checkedAddRaw_ok_iff {a b r : Int} :
    checkedAddRaw a b = .ok r ↔ InI128 (a + b) ∧ a + b = r := by
  simp [checkedAddRaw]

@[simp] theorem checkedSubNonneg_ok_iff {a b r : Int} :
    checkedSubNonneg a b = .ok r ↔ 0 ≤ a ∧ 0 ≤ b ∧ b ≤ a ∧ a - b = r := by
  unfold checkedSubNonneg
  split
  · simp only [Fallible.throw_ok_iff, false_iff]
    omega
  · simp only [Fallible.pure_ok_iff]
    omega

namespace Ray

def one : Int := ray
def zero : Int := 0

def mul (a b : Int) : Result Int := mulDivHalfUp a b ray
def div (a b : Int) : Result Int := mulDivHalfUp a ray b
def divFloor (a b : Int) : Result Int := mulDivFloor a ray b
def divCeil (a b : Int) : Result Int := mulDivCeil a ray b
def divByInt (a : Int) (n : Int) : Result Int := divByIntHalfUp a n
def mulFloor (a b : Int) : Result Int := mulDivFloor a b ray
def mulCeil (a b : Int) : Result Int := mulDivCeil a b ray
def mulRatioCeil (a : Int) (numerator denominator : Int) : Result Int :=
  mulDivCeil a numerator denominator

def toWad (a : Int) : Result Int := rescaleHalfUp a rayDecimals wadDecimals
def toWadFloor (a : Int) : Result Int := rescaleFloor a rayDecimals wadDecimals
def toWadCeil (a : Int) : Result Int := rescaleCeil a rayDecimals wadDecimals

def toAsset (a : Int) (assetDecimals : Nat) : Result Int :=
  rescaleHalfUp a rayDecimals assetDecimals
def toAssetFloor (a : Int) (assetDecimals : Nat) : Result Int :=
  rescaleFloor a rayDecimals assetDecimals
def toAssetCeil (a : Int) (assetDecimals : Nat) : Result Int :=
  rescaleCeil a rayDecimals assetDecimals

def fromAsset (amount : Int) (assetDecimals : Nat) : Result Int :=
  rescaleHalfUp amount assetDecimals rayDecimals

def checkedSub (a b : Int) : Result Int := checkedSubNonneg a b
def checkedAdd (a b : Int) : Result Int := checkedAddRaw a b

end Ray

namespace Wad

def one : Int := wad
def zero : Int := 0

def mul (a b : Int) : Result Int := mulDivHalfUp a b wad
def div (a b : Int) : Result Int := mulDivHalfUp a wad b
def divFloor (a b : Int) : Result Int := mulDivFloor a wad b
def divFloorSaturating (a b : Int) : Result Int := mulDivFloorSaturating a wad b
def mulFloor (a b : Int) : Result Int := mulDivFloor a b wad
def mulCeil (a b : Int) : Result Int := mulDivCeil a b wad

def fromToken (amount : Int) (decimals : Nat) : Result Int :=
  rescaleHalfUp amount decimals wadDecimals
def toTokenFloor (a : Int) (decimals : Nat) : Result Int := rescaleFloor a wadDecimals decimals
def toRay (a : Int) : Result Int := rescaleHalfUp a wadDecimals rayDecimals

def checkedAdd (a b : Int) : Result Int := checkedAddRaw a b
def checkedSub (a b : Int) : Result Int := checkedSubNonneg a b

end Wad

namespace Bps

def one : Int := bps

def toWad (a : Int) : Result Int := mulDivHalfUp a wad bps
def applyTo (a : Int) (amount : Int) : Result Int := mulDivHalfUp amount a bps

/-- A positive rate never charges a zero fee. -/
def flashLoanFeeOn (a : Int) (amount : Int) : Result Int := do
  let feeAmount ← applyTo a amount
  if 0 < a ∧ feeAmount = 0 then pure 1 else pure feeAmount

def applyToWadFloor (a : Int) (value : Int) : Result Int := do
  let ratio ← toWad a
  Wad.mulFloor value ratio

def applyToRay (a : Int) (value : Int) : Result Int := mulDivHalfUp value a bps

def checkedAdd (a b : Int) : Result Int := checkedAddRaw a b
def checkedSub (a b : Int) : Result Int := checkedSubNonneg a b

end Bps

/-! ### Spec lemmas of the newtypes -/

section
variable {a b r : Int} {d : Nat}

/-- Ray units in one smallest unit of an asset with `d` decimals. -/
def assetUnit (d : Nat) : Int := 10 ^ (rayDecimals - d)

theorem assetUnit_pos (d : Nat) : 0 < assetUnit d := by
  unfold assetUnit
  positivity

theorem Ray.mul_ok_iff :
    Ray.mul a b = .ok r ↔ 0 ≤ a ∧ 0 ≤ b ∧ r = halfUpDiv (a * b) ray ∧ r ≤ i128Max := by
  unfold Ray.mul
  rw [mulDivHalfUp_ok_iff]
  simp [ray_pos]

theorem Ray.div_ok_iff :
    Ray.div a b = .ok r ↔ 0 ≤ a ∧ 0 < b ∧ r = halfUpDiv (a * ray) b ∧ r ≤ i128Max := by
  unfold Ray.div
  rw [mulDivHalfUp_ok_iff]
  simp [ray_pos.le]

theorem Ray.divFloor_ok_iff (hb : 0 < b) :
    Ray.divFloor a b = .ok r ↔ InI128 (a * ray / b) ∧ a * ray / b = r := by
  unfold Ray.divFloor
  rw [mulDivFloor_eq hb, toI128_ok_iff]

theorem Ray.divCeil_ok_iff (hb : 0 < b) :
    Ray.divCeil a b = .ok r ↔ InI128 (ceilDiv (a * ray) b) ∧ ceilDiv (a * ray) b = r := by
  unfold Ray.divCeil
  rw [mulDivCeil_eq hb, toI128_ok_iff]

theorem Ray.mulFloor_ok_iff :
    Ray.mulFloor a b = .ok r ↔ InI128 (a * b / ray) ∧ a * b / ray = r := by
  unfold Ray.mulFloor
  rw [mulDivFloor_eq ray_pos, toI128_ok_iff]

theorem Ray.mulCeil_ok_iff :
    Ray.mulCeil a b = .ok r ↔ InI128 (ceilDiv (a * b) ray) ∧ ceilDiv (a * b) ray = r := by
  unfold Ray.mulCeil
  rw [mulDivCeil_eq ray_pos, toI128_ok_iff]

theorem Ray.mulRatioCeil_ok_iff {n k : Int} (hk : 0 < k) :
    Ray.mulRatioCeil a n k = .ok r ↔ InI128 (ceilDiv (a * n) k) ∧ ceilDiv (a * n) k = r := by
  unfold Ray.mulRatioCeil
  rw [mulDivCeil_eq hk, toI128_ok_iff]

theorem Ray.divByInt_eq (ha : 0 ≤ a) (hb : 0 < b) : Ray.divByInt a b = .ok (halfUpDiv a b) :=
  divByIntHalfUp_eq ha hb

@[simp] theorem Ray.checkedAdd_ok_iff :
    Ray.checkedAdd a b = .ok r ↔ InI128 (a + b) ∧ a + b = r := checkedAddRaw_ok_iff

@[simp] theorem Ray.checkedSub_ok_iff :
    Ray.checkedSub a b = .ok r ↔ 0 ≤ a ∧ 0 ≤ b ∧ b ≤ a ∧ a - b = r := checkedSubNonneg_ok_iff

theorem Ray.fromAsset_eq (hd : d ≤ wadDecimals) :
    Ray.fromAsset a d = toI128 (a * assetUnit d) := by
  simp only [wadDecimals] at hd
  unfold Ray.fromAsset
  exact rescaleHalfUp_up (by simp only [rayDecimals]; omega) (by simp only [rayDecimals]; omega)

theorem Ray.toAssetFloor_eq (ha : 0 ≤ a) (hd : d ≤ wadDecimals) :
    Ray.toAssetFloor a d = .ok (a / assetUnit d) := by
  simp only [wadDecimals] at hd
  exact rescaleFloor_down ha (by simp only [rayDecimals]; omega)
    (by simp only [rayDecimals]; omega)

theorem Ray.toAssetCeil_eq (ha : 0 ≤ a) (hd : d ≤ wadDecimals) :
    Ray.toAssetCeil a d = .ok (ceilDiv a (assetUnit d)) := by
  simp only [wadDecimals] at hd
  exact rescaleCeil_down ha (by simp only [rayDecimals]; omega)
    (by simp only [rayDecimals]; omega)

theorem Ray.toAsset_eq (ha : 0 ≤ a) (hd : d ≤ wadDecimals) :
    Ray.toAsset a d = .ok (halfUpDiv a (assetUnit d)) := by
  simp only [wadDecimals] at hd
  exact rescaleHalfUp_down ha (by simp only [rayDecimals]; omega)
    (by simp only [rayDecimals]; omega)

theorem Bps.applyToRay_ok_iff :
    Bps.applyToRay a b = .ok r ↔ 0 ≤ b ∧ 0 ≤ a ∧ r = halfUpDiv (b * a) bps ∧ r ≤ i128Max := by
  unfold Bps.applyToRay
  rw [mulDivHalfUp_ok_iff]
  simp [bps_pos]

theorem Bps.applyTo_ok_iff :
    Bps.applyTo a b = .ok r ↔ 0 ≤ b ∧ 0 ≤ a ∧ r = halfUpDiv (b * a) bps ∧ r ≤ i128Max := by
  unfold Bps.applyTo
  rw [mulDivHalfUp_ok_iff]
  simp [bps_pos]

theorem Bps.flashLoanFeeOn_nonneg (h : Bps.flashLoanFeeOn a b = .ok r) : 0 ≤ r := by
  unfold Bps.flashLoanFeeOn at h
  obtain ⟨fee, hf, h⟩ := Fallible.bind_ok h
  obtain ⟨hb, ha, rfl, -⟩ := Bps.applyTo_ok_iff.mp hf
  have h0 := halfUpDiv_nonneg bps_pos (mul_nonneg hb ha)
  split at h <;> simp only [Fallible.pure_ok_iff] at h <;> omega

end

end Lending
