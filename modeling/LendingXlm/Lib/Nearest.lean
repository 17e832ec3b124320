import LendingXlm.Lib.Rounding
import Mathlib.Algebra.Order.Round
import Mathlib.Data.Rat.Floor

/-!
# Integer quotients as roundings of the exact rational

The quotient operators of the machine against the rational `p / d`: `fdiv` is its floor, `tdiv`
drops its fraction, and the nearest integer is reached through truncation and remainder.
-/

namespace Rounding

variable {p d : Int} {q : ℚ}

/-- The integer part: `q` without its fraction. -/
def truncate (q : ℚ) : Int := if 0 ≤ q then ⌊q⌋ else ⌈q⌉

/-- The nearest integer, an exact half going away from zero. -/
def roundAway (q : ℚ) : Int := if 0 ≤ q then ⌊q + 1 / 2⌋ else ⌈q - 1 / 2⌉

theorem truncate_neg (q : ℚ) : truncate (-q) = -truncate q := by
  unfold truncate
  rcases lt_trichotomy q 0 with h | rfl | h
  · rw [if_pos (by linarith), if_neg (by linarith), Int.floor_neg]
  · simp
  · rw [if_neg (by linarith), if_pos h.le, Int.ceil_neg]

theorem roundAway_neg (q : ℚ) : roundAway (-q) = -roundAway q := by
  unfold roundAway
  rcases lt_trichotomy q 0 with h | rfl | h
  · rw [if_pos (by linarith), if_neg (by linarith), ← Int.floor_neg]
    ring_nf
  · norm_num
  · rw [if_neg (by linarith), if_pos h.le, ← Int.ceil_neg]
    ring_nf

@[simp] theorem truncate_intCast (p : Int) : truncate p = p := by simp [truncate]

@[simp] theorem roundAway_intCast (p : Int) : roundAway p = p := by
  have hnonneg {p : Int} (hp : 0 ≤ p) : roundAway p = p := by
    rw [roundAway, if_pos (by exact_mod_cast hp), Int.floor_intCast_add]
    norm_num
  rcases le_total 0 p with hp | hp
  · exact hnonneg hp
  · have h := hnonneg (p := -p) (by omega)
    push_cast at h
    rw [roundAway_neg] at h
    omega

theorem fdiv_eq_ratFloor (p d : Int) : p.fdiv d = ⌊(p : ℚ) / d⌋ := by
  have hnat (p : Int) (n : Nat) : p.fdiv n = ⌊(p : ℚ) / (n : Int)⌋ := by
    rw [Int.fdiv_eq_ediv_of_nonneg p (Int.natCast_nonneg n)]
    exact (Rat.floor_intCast_div_natCast p n).symm
  rcases Int.eq_nat_or_neg d with ⟨n, rfl | rfl⟩
  · exact hnat p n
  · rw [← Int.neg_fdiv_neg, neg_neg, hnat]
    push_cast
    rw [neg_div, div_neg]

theorem neg_fdiv_neg_eq_ratCeil (p d : Int) : -((-p).fdiv d) = ⌈(p : ℚ) / d⌉ := by
  rw [fdiv_eq_ratFloor, ← Int.ceil_neg]
  push_cast
  rw [neg_div, neg_neg]

theorem ratFloor_div (hd : 0 < d) : ⌊(p : ℚ) / d⌋ = p / d := by
  rw [← fdiv_eq_ratFloor, Int.fdiv_eq_ediv_of_nonneg p hd.le]

theorem ratCeil_div (hd : 0 < d) : ⌈(p : ℚ) / d⌉ = ceilDiv p d := by
  rw [← neg_fdiv_neg_eq_ratCeil, Int.fdiv_eq_ediv_of_nonneg _ hd.le]
  rfl

/-- Truncating division drops the fraction of the exact quotient. -/
theorem tdiv_eq_truncate (hd : 0 < d) (p : Int) : p.tdiv d = truncate ((p : ℚ) / d) := by
  have hq : (0 : ℚ) < d := by exact_mod_cast hd
  have hnonneg {p : Int} (hp : 0 ≤ p) : p.tdiv d = truncate ((p : ℚ) / d) := by
    have h0 : (0 : ℚ) ≤ (p : ℚ) / d := div_nonneg (by exact_mod_cast hp) hq.le
    rw [truncate, if_pos h0, ratFloor_div hd, Int.tdiv_eq_ediv_of_nonneg hp]
  rcases le_total 0 p with hp | hp
  · exact hnonneg hp
  · have h := hnonneg (p := -p) (by omega)
    push_cast at h
    rw [Int.neg_tdiv, neg_div, truncate_neg] at h
    omega

/-- Doubling both sides makes the half exact, for odd divisors too. -/
theorem halfUpDiv_eq_double (p d : Int) : halfUpDiv p d = (2 * p + d) / (2 * d) := by
  rw [← Int.ediv_ediv_of_nonneg (by decide : (0 : Int) ≤ 2)]
  unfold halfUpDiv
  congr 1
  omega

/-- On a non-negative quotient "half up" and "half away from zero" agree. -/
theorem halfUpDiv_eq_roundAway (hp : 0 ≤ p) (hd : 0 < d) :
    halfUpDiv p d = roundAway ((p : ℚ) / d) := by
  have hq : (0 : ℚ) < d := by exact_mod_cast hd
  have h0 : (0 : ℚ) ≤ (p : ℚ) / d := div_nonneg (by exact_mod_cast hp) hq.le
  have hsum : (p : ℚ) / d + 1 / 2 = ((2 * p + d : Int) : ℚ) / (2 * d : Int) := by
    push_cast
    field_simp
  rw [roundAway, if_pos h0, hsum, ratFloor_div (by omega), halfUpDiv_eq_double]

/-- A value below half a unit rounds to zero. -/
theorem roundAway_eq_zero (h : |q| < 1 / 2) : roundAway q = 0 := by
  obtain ⟨hlow, hhigh⟩ := abs_lt.mp h
  unfold roundAway
  split
  · rw [Int.floor_eq_zero_iff]
    constructor <;> linarith
  · rw [Int.ceil_eq_zero_iff]
    constructor <;> linarith

theorem truncate_eq_zero (h : |q| < 1) : truncate q = 0 := by
  obtain ⟨hlow, hhigh⟩ := abs_lt.mp h
  unfold truncate
  split
  · rw [Int.floor_eq_zero_iff]
    constructor <;> linarith
  · rw [Int.ceil_eq_zero_iff]
    constructor <;> linarith

end Rounding
