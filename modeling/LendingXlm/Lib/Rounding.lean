import Mathlib.Algebra.Order.Group.Unbundled.Int
import Mathlib.Tactic.Linarith
import Mathlib.Tactic.Ring

/-!
# Directed rounding of integer quotients

The three quotients fixed-point code uses, for a positive divisor: `a / d` rounds down,
`ceilDiv` rounds up and `halfUpDiv` rounds to the nearest integer with halves going up. Each
is characterised by which side of the exact value it falls on, and by how much at most.
-/

namespace Rounding

/-- `a / d` rounded up. -/
def ceilDiv (a d : Int) : Int := -((-a) / d)

/-- `a / d` rounded to the nearest integer, halves up. -/
def halfUpDiv (a d : Int) : Int := (a + d / 2) / d

variable {a b d k : Int}

/-! ## Floor -/

theorem floor_mul_le (a : Int) (hd : 0 < d) : a / d * d ≤ a :=
  Int.ediv_mul_le a hd.ne'

theorem lt_floor_mul_add (a : Int) (hd : 0 < d) : a < a / d * d + d := by
  have h := Int.lt_ediv_add_one_mul_self a hd
  linarith

theorem le_floor_iff (hd : 0 < d) : k ≤ a / d ↔ k * d ≤ a :=
  Int.le_ediv_iff_mul_le hd

theorem floor_lt_iff (hd : 0 < d) : a / d < k ↔ a < k * d :=
  Int.ediv_lt_iff_lt_mul hd

theorem floor_nonneg (hd : 0 < d) (ha : 0 ≤ a) : 0 ≤ a / d :=
  Int.ediv_nonneg ha hd.le

theorem floor_mono (hd : 0 < d) (h : a ≤ b) : a / d ≤ b / d :=
  Int.ediv_le_ediv hd h

/-! ## Ceiling -/

theorem le_ceilDiv_mul (a : Int) (hd : 0 < d) : a ≤ ceilDiv a d * d := by
  have h := floor_mul_le (-a) hd
  unfold ceilDiv
  linarith

theorem ceilDiv_mul_lt (a : Int) (hd : 0 < d) : ceilDiv a d * d < a + d := by
  have h := lt_floor_mul_add (-a) hd
  unfold ceilDiv
  linarith

theorem ceilDiv_le_iff (hd : 0 < d) : ceilDiv a d ≤ k ↔ a ≤ k * d := by
  have h : -k ≤ (-a) / d ↔ -k * d ≤ -a := le_floor_iff hd
  unfold ceilDiv
  constructor <;> intro h'
  · have := h.mp (by linarith)
    linarith
  · have := h.mpr (by linarith)
    linarith

theorem lt_ceilDiv_iff (hd : 0 < d) : k < ceilDiv a d ↔ k * d < a := by
  rw [← not_le, ceilDiv_le_iff hd, not_le]

theorem ceilDiv_nonneg (hd : 0 < d) (ha : 0 ≤ a) : 0 ≤ ceilDiv a d := by
  by_contra h
  have hm := le_ceilDiv_mul a hd
  nlinarith

theorem ceilDiv_pos (hd : 0 < d) (ha : 0 < a) : 0 < ceilDiv a d := by
  rw [lt_ceilDiv_iff hd]
  linarith

theorem floor_le_ceilDiv (hd : 0 < d) : a / d ≤ ceilDiv a d := by
  by_contra h
  have h1 := floor_mul_le a hd
  have h2 := le_ceilDiv_mul a hd
  nlinarith

theorem ceilDiv_le_floor_add_one (hd : 0 < d) : ceilDiv a d ≤ a / d + 1 := by
  rw [ceilDiv_le_iff hd]
  have h := lt_floor_mul_add a hd
  linarith

@[simp] theorem ceilDiv_zero (d : Int) : ceilDiv 0 d = 0 := by
  simp [ceilDiv]

/-! ## Half up -/

theorem halfUpDiv_mul_le (a : Int) (hd : 0 < d) : 2 * (halfUpDiv a d * d) ≤ 2 * a + d := by
  have h := floor_mul_le (a + d / 2) hd
  have h2 : d / 2 * 2 ≤ d := Int.ediv_mul_le d (by decide)
  unfold halfUpDiv
  linarith

theorem le_halfUpDiv_mul (a : Int) (hd : 0 < d) : 2 * a ≤ 2 * (halfUpDiv a d * d) + d := by
  have h := lt_floor_mul_add (a + d / 2) hd
  unfold halfUpDiv
  omega

/-- The strict upper side for an even divisor. -/
theorem lt_halfUpDiv_mul (a : Int) (hd : 0 < d) (he : 2 ∣ d) :
    2 * a < 2 * (halfUpDiv a d * d) + d := by
  have h := lt_floor_mul_add (a + d / 2) hd
  have h2 : d / 2 * 2 = d := Int.ediv_mul_cancel he
  unfold halfUpDiv
  linarith

theorem halfUpDiv_nonneg (hd : 0 < d) (ha : 0 ≤ a) : 0 ≤ halfUpDiv a d := by
  have h2 : 0 ≤ d / 2 := Int.ediv_nonneg hd.le (by decide)
  exact floor_nonneg hd (by linarith)

theorem halfUpDiv_mono (hd : 0 < d) (h : a ≤ b) : halfUpDiv a d ≤ halfUpDiv b d :=
  floor_mono hd (by linarith)

theorem floor_le_halfUpDiv (hd : 0 < d) : a / d ≤ halfUpDiv a d := by
  have h2 : 0 ≤ d / 2 := Int.ediv_nonneg hd.le (by decide)
  exact floor_mono hd (by linarith)

theorem halfUpDiv_le_ceilDiv (hd : 0 < d) : halfUpDiv a d ≤ ceilDiv a d := by
  have h1 := halfUpDiv_mul_le a hd
  have h2 := le_ceilDiv_mul a hd
  by_contra h
  have h3 : (ceilDiv a d + 1) * d ≤ halfUpDiv a d * d :=
    mul_le_mul_of_nonneg_right (by linarith) hd.le
  linarith

@[simp] theorem halfUpDiv_zero (hd : 0 < d) : halfUpDiv 0 d = 0 := by
  unfold halfUpDiv
  rw [zero_add]
  exact Int.ediv_eq_zero_of_lt (by omega) (by omega)

/-- An exact multiple is its own quotient, whichever way it is rounded. -/
theorem halfUpDiv_mul_self (k : Int) (hd : 0 < d) : halfUpDiv (k * d) d = k := by
  have h1 := halfUpDiv_mul_le (k * d) hd
  have h2 := le_halfUpDiv_mul (k * d) hd
  have h3 : halfUpDiv (k * d) d < k + 1 := by
    by_contra h
    have : (k + 1) * d ≤ halfUpDiv (k * d) d * d :=
      mul_le_mul_of_nonneg_right (by linarith) hd.le
    linarith
  have h4 : k - 1 < halfUpDiv (k * d) d := by
    by_contra h
    have : halfUpDiv (k * d) d * d ≤ (k - 1) * d :=
      mul_le_mul_of_nonneg_right (by linarith) hd.le
    linarith
  omega

end Rounding
