import Mathlib.Analysis.SpecialFunctions.Pow.Real
import Mathlib.Tactic.Linarith
import Mathlib.Tactic.Positivity
import Mathlib.Tactic.LinearCombination

/-!
# Newton's method for `b x³ + a x = c` with a truncated cube

The equation has one positive root `D`. Newton's step from `x` is `(c + 2 b x³) x / (a x + 3 b x³)`.
In integer arithmetic the cube is only known as some `p` with `b x³ - 2 < p ≤ b x³`, which moves
the step a little:

* `root_le_step`: it still does not pass below the root;
* `step_le`: from above the root, the distance to it shrinks by a third, up to a constant;
* `step_le_self`, `step_lt_add_two`: it moves down where `c ≤ a x + p` and up by less than two
  elsewhere;
* `near_of_settled`: it moves by at most one only within three of the root.
-/

namespace Lending.CubicNewton

variable {a b c D x y p : ℝ}

/-! ## The root -/

/-- The positive root of `b x³ + a x = c`. -/
structure IsRoot (a b c D : ℝ) : Prop where
  pos : 0 < D
  eq : b * D ^ 3 + a * D = c

theorem cubic_strictMono (ha : 0 < a) (hb : 0 < b) (hx : 0 ≤ x) (hxy : x < y) :
    b * x ^ 3 + a * x < b * y ^ 3 + a * y := by
  have hcube : x ^ 3 < y ^ 3 := pow_lt_pow_left₀ hxy hx (by decide)
  have h1 := mul_lt_mul_of_pos_left hcube hb
  have h2 := mul_lt_mul_of_pos_left hxy ha
  linarith

theorem exists_root (ha : 0 < a) (hb : 0 < b) (hc : 0 < c) : ∃ D, IsRoot a b c D := by
  have hcont : ContinuousOn (fun x : ℝ => b * x ^ 3 + a * x) (Set.Icc 0 (c / a)) := by fun_prop
  have hca : 0 < c / a := div_pos hc ha
  have htop : c ≤ b * (c / a) ^ 3 + a * (c / a) := by
    rw [mul_div_cancel₀ c ha.ne']
    have : 0 < b * (c / a) ^ 3 := by positivity
    linarith
  obtain ⟨D, ⟨h0, _⟩, hD⟩ := intermediate_value_Icc hca.le hcont ⟨by simp [hc.le], htop⟩
  have heq : b * D ^ 3 + a * D = c := hD
  refine ⟨D, lt_of_le_of_ne h0 ?_, heq⟩
  rintro rfl
  norm_num at heq
  exact hc.ne heq

namespace IsRoot

variable (hroot : IsRoot a b c D) (ha : 0 < a) (hb : 0 < b)

include hroot ha hb

/-- Above the root is where the cubic exceeds `c`. -/
theorem le_iff (hx : 0 ≤ x) : D ≤ x ↔ c ≤ b * x ^ 3 + a * x := by
  rw [← hroot.eq]
  constructor
  · intro h
    rcases h.eq_or_lt with rfl | h
    · exact le_rfl
    · exact (cubic_strictMono ha hb hroot.pos.le h).le
  · intro h
    by_contra hlt
    exact absurd h (not_le.mpr (cubic_strictMono ha hb hx (not_le.mp hlt)))

theorem unique (h : IsRoot a b c y) : y = D :=
  le_antisymm ((h.le_iff ha hb hroot.pos.le).mpr hroot.eq.ge)
    ((hroot.le_iff ha hb h.pos.le).mpr h.eq.ge)

end IsRoot

/-! ## One step -/

/-- The Newton step with `p` for `b x³`. -/
noncomputable def step (a c x p : ℝ) : ℝ := (c + p + p) * x / (a * x + 3 * p)

/-- What a step needs of the coefficients, the root, the point and its truncated cube. -/
structure Setting (a b c D x p : ℝ) : Prop where
  root : IsRoot a b c D
  one_le : 1 ≤ a
  pos : 0 < b
  two_le : 2 ≤ D
  one_le_sq : 1 ≤ b * D ^ 2
  x_pos : 0 < x
  p_nonneg : 0 ≤ p
  p_le : p ≤ b * x ^ 3
  lt_p : b * x ^ 3 - 2 < p

namespace Setting

variable (h : Setting a b c D x p)

include h

theorem denominator_pos : 0 < a * x + 3 * p := by
  have h1 : x ≤ a * x := le_mul_of_one_le_left h.x_pos.le h.one_le
  have := h.p_nonneg
  have := h.x_pos
  linarith

/-- How far a step is above the root. -/
theorem step_sub_root :
    step a c x p - D =
      (b * x * (x - D) ^ 2 * (2 * x + D) + (b * x ^ 3 - p) * (3 * D - 2 * x)) /
        (a * x + 3 * p) := by
  rw [step, div_sub' h.denominator_pos.ne']
  congr 1
  linear_combination (-x) * h.root.eq

/-- How far a step moves. -/
theorem sub_step : x - step a c x p = x * (a * x + p - c) / (a * x + 3 * p) := by
  rw [step, sub_div' h.denominator_pos.ne']
  congr 1
  ring

/-- At most two thirds of the root below it: the slack of the cube is covered by convexity. -/
theorem root_le_step : D ≤ step a c x p := by
  have hnum : 0 ≤ b * x * (x - D) ^ 2 * (2 * x + D) + (b * x ^ 3 - p) * (3 * D - 2 * x) := by
    have hx := h.x_pos
    have hD := h.root.pos
    have hb := h.pos
    have hslack : 0 ≤ b * x ^ 3 - p := by linarith [h.p_le]
    rcases le_total (2 * x) (3 * D) with hle | hle
    · have h1 : 0 ≤ b * x * (x - D) ^ 2 * (2 * x + D) := by positivity
      have h2 : 0 ≤ (b * x ^ 3 - p) * (3 * D - 2 * x) := mul_nonneg hslack (by linarith)
      linarith
    · -- far above the root the convexity term is at least half of `x²`
      have hsq : x ^ 2 ≤ 9 * (x - D) ^ 2 := by nlinarith
      have hbx : 9 / 4 ≤ b * x ^ 2 := by
        have : 9 * D ^ 2 ≤ 4 * x ^ 2 := by nlinarith
        nlinarith [h.one_le_sq]
      have hconvex : x ^ 2 / 2 ≤ b * x * (x - D) ^ 2 * (2 * x + D) := by
        calc x ^ 2 / 2 ≤ 2 * (b * x ^ 2) * ((x - D) ^ 2) := by nlinarith [sq_nonneg (x - D)]
          _ = b * x * (x - D) ^ 2 * (2 * x) := by ring
          _ ≤ b * x * (x - D) ^ 2 * (2 * x + D) := by
            have : 0 ≤ b * x * (x - D) ^ 2 := by positivity
            nlinarith
      have hpull : (b * x ^ 3 - p) * (2 * x - 3 * D) ≤ 2 * (2 * x - 3 * D) :=
        mul_le_mul_of_nonneg_right (by linarith [h.lt_p]) (by linarith)
      nlinarith [sq_nonneg (x - 4), h.two_le]
  have hsub := h.step_sub_root
  have : 0 ≤ step a c x p - D := hsub ▸ div_nonneg hnum h.denominator_pos.le
  linarith

/-- From above the root a third of the distance goes, up to a constant. -/
theorem step_le (hDx : D ≤ x) : step a c x p - D ≤ 2 / 3 * (x - D) + 2 := by
  have hx := h.x_pos
  have hD := h.root.pos
  have hb := h.pos
  have hax : x ≤ a * x := le_mul_of_one_le_left hx.le h.one_le
  have hbx : x ≤ b * x ^ 3 := by
    have h1 : D ^ 2 ≤ x ^ 2 := pow_le_pow_left₀ hD.le hDx 2
    have h2 : 1 ≤ b * x ^ 2 := h.one_le_sq.trans (mul_le_mul_of_nonneg_left h1 hb.le)
    calc x = 1 * x := (one_mul x).symm
      _ ≤ b * x ^ 2 * x := mul_le_mul_of_nonneg_right h2 hx.le
      _ = b * x ^ 3 := by ring
  -- the convexity term against the cube in the denominator
  have hconvex : b * x * (x - D) ^ 2 * (2 * x + D) ≤ 2 / 3 * (x - D) * (3 * (b * x ^ 3)) := by
    have h1 : (x - D) * (2 * x + D) ≤ 2 * x ^ 2 := by nlinarith
    have h2 : 0 ≤ b * x * (x - D) := mul_nonneg (by positivity) (by linarith)
    calc b * x * (x - D) ^ 2 * (2 * x + D) = b * x * (x - D) * ((x - D) * (2 * x + D)) := by ring
      _ ≤ b * x * (x - D) * (2 * x ^ 2) := mul_le_mul_of_nonneg_left h1 h2
      _ = 2 / 3 * (x - D) * (3 * (b * x ^ 3)) := by ring
  have hslack0 : 0 ≤ b * x ^ 3 - p := by linarith [h.p_le]
  have hslack : (b * x ^ 3 - p) * (D + 6) ≤ 2 * (D + 6) :=
    mul_le_mul_of_nonneg_right (by linarith [h.lt_p]) (by linarith)
  have hdist : 0 ≤ (x - D) * (a * x) := mul_nonneg (by linarith) (by linarith)
  rw [h.step_sub_root, div_le_iff₀ h.denominator_pos]
  nlinarith [h.two_le]

/-- Where the truncated cubic is at least `c`, the step does not move up. -/
theorem step_le_self (hge : c ≤ a * x + p) : step a c x p ≤ x := by
  have : 0 ≤ x - step a c x p :=
    h.sub_step ▸ div_nonneg (mul_nonneg h.x_pos.le (by linarith)) h.denominator_pos.le
  linarith

/-- From above the root a step moves up by less than two. -/
theorem step_lt_add_two (hDx : D ≤ x) : step a c x p < x + 2 := by
  have hge := (h.root.le_iff (by linarith [h.one_le]) h.pos h.x_pos.le).mp hDx
  have hax : x ≤ a * x := le_mul_of_one_le_left h.x_pos.le h.one_le
  rw [step, div_lt_iff₀ h.denominator_pos]
  nlinarith [mul_pos h.x_pos (show (0 : ℝ) < 2 - (c - a * x - p) by linarith [h.lt_p]),
    h.p_nonneg, h.x_pos]

/-- Above the root and truncated below it happens only near the root. -/
theorem near_of_lt (hlt : a * x + p < c) : x < D + 2 := by
  rcases lt_or_ge x D with hxD | hDx
  · linarith
  · have hcube : b * D ^ 3 ≤ b * x ^ 3 :=
      mul_le_mul_of_nonneg_left (pow_le_pow_left₀ h.root.pos.le hDx 3) h.pos.le
    have hmove : a * (x - D) < 2 := by linarith [h.root.eq, h.lt_p]
    have : x - D ≤ a * (x - D) := le_mul_of_one_le_left (by linarith) h.one_le
    linarith

/-- **A step that moves down by at most one is near the root.** -/
theorem near_of_settled (hmove : x - step a c x p ≤ 1) : x ≤ D + 3 := by
  by_contra hfar
  have hx := h.x_pos
  have hD := h.root.pos
  have hb := h.pos
  have he : 3 < x - D := by linarith
  have hax : x ≤ a * x := le_mul_of_one_le_left hx.le h.one_le
  rw [h.sub_step, div_le_one h.denominator_pos] at hmove
  -- the cubic at `x`, factored at the root
  have hfactor : b * x ^ 3 + a * x - c = (x - D) * (b * (x ^ 2 + x * D + D ^ 2) + a) := by
    rw [← h.root.eq]
    ring
  have hsteep : 3 * (b * x ^ 2 + a) ≤ b * x ^ 3 + a * x - c := by
    rw [hfactor]
    have h1 : b * x ^ 2 + a ≤ b * (x ^ 2 + x * D + D ^ 2) + a := by
      have : 0 ≤ b * (x * D + D ^ 2) := by positivity
      nlinarith
    have h2 : 0 ≤ b * x ^ 2 + a := by
      have := h.one_le
      positivity
    exact mul_le_mul he.le h1 h2 (by linarith)
  have hgain := mul_le_mul_of_nonneg_left hsteep hx.le
  have hslack : x * (b * x ^ 3 - p) ≤ x * 2 :=
    mul_le_mul_of_nonneg_left (by linarith [h.lt_p]) hx.le
  nlinarith [h.p_le]

end Setting

end Lending.CubicNewton
