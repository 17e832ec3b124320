import LendingXlm.Lib.Rounding
import Mathlib.Algebra.Order.Field.Rat
import Mathlib.Tactic.FieldSimp
import Mathlib.Tactic.Positivity
import Mathlib.Data.Rat.Cast.Order

/-!
# Power series in fixed point

A series `x ^ 2 / d₂ + x ^ 3 / d₃ + …` over fixed-point numbers with `scale` units to one: every
term multiplies the running power by `x` and divides it, both rounding half up.

* `run_mono`: the sum is monotone in `x`, whatever the rounding does;
* `run_error`: `ErrorBound.step` says what one term adds to the error of the sum and of the power
  when `x` is at most `width`; folded over the divisors it bounds the error of the series.
-/

namespace RoundedSeries

open Rounding

/-- A running sum and power. -/
abbrev Partial (α : Type*) := α × α

section Fixed

variable (scale x : Int)

/-- The next term of the series. -/
def step (acc : Partial Int) (divisor : Int) : Partial Int :=
  let pow := halfUpDiv (acc.2 * x) scale
  (acc.1 + halfUpDiv pow divisor, pow)

def run (divisors : List Int) (acc : Partial Int) : Partial Int := divisors.foldl (step scale x) acc

/-- The same term without rounding, at the argument `t`. -/
def exactStep (t : ℚ) (acc : Partial ℚ) (divisor : Int) : Partial ℚ :=
  (acc.1 + acc.2 * t / divisor, acc.2 * t)

def exactRun (t : ℚ) (divisors : List Int) (acc : Partial ℚ) : Partial ℚ :=
  divisors.foldl (exactStep t) acc

/-- Bounds of the errors of sum and power after one more term of an argument up to `width`. -/
def errorStep (width : ℚ) (bound : Partial ℚ) (divisor : Int) : Partial ℚ :=
  let pow := bound.2 * width + 1 / 2
  (bound.1 + (pow / divisor + 1 / 2), pow)

end Fixed

variable {scale x y : Int} {t width : ℚ} {acc acc' : Partial Int} {exact bound : Partial ℚ}
  {divisor : Int} {divisors : List Int}

/-- Half-up rounding is off by half a unit at most. -/
theorem halfUpDiv_error {a d : Int} (hd : 0 < d) : |(halfUpDiv a d : ℚ) - a / d| ≤ 1 / 2 := by
  have hq : (0 : ℚ) < d := by exact_mod_cast hd
  have hup : (2 * (halfUpDiv a d * d) : ℚ) ≤ 2 * a + d := by exact_mod_cast halfUpDiv_mul_le a hd
  have hlow : (2 * a : ℚ) ≤ 2 * (halfUpDiv a d * d) + d := by exact_mod_cast le_halfUpDiv_mul a hd
  rw [show (halfUpDiv a d : ℚ) - a / d = (halfUpDiv a d * d - a) / d by field_simp, abs_div,
    abs_of_pos hq, div_le_iff₀ hq, abs_le]
  constructor <;> linarith

/-! ## Monotonicity -/

theorem step_mono (hscale : 0 < scale) (hd : 0 < divisor) (hx : 0 ≤ x) (hxy : x ≤ y)
    (h0 : 0 ≤ acc.2) (h : acc.1 ≤ acc'.1 ∧ acc.2 ≤ acc'.2) :
    (step scale x acc divisor).1 ≤ (step scale y acc' divisor).1 ∧
      (step scale x acc divisor).2 ≤ (step scale y acc' divisor).2 ∧
      0 ≤ (step scale x acc divisor).2 := by
  have hpow : halfUpDiv (acc.2 * x) scale ≤ halfUpDiv (acc'.2 * y) scale :=
    halfUpDiv_mono hscale (mul_le_mul h.2 hxy hx (h0.trans h.2))
  exact ⟨add_le_add h.1 (halfUpDiv_mono hd hpow), hpow,
    halfUpDiv_nonneg hscale (mul_nonneg h0 hx)⟩

/-- **Monotone in the argument.** -/
theorem run_mono (hscale : 0 < scale) (hd : ∀ d ∈ divisors, (0 : Int) < d) (hx : 0 ≤ x)
    (hxy : x ≤ y) (h0 : 0 ≤ acc.2) (h : acc.1 ≤ acc'.1 ∧ acc.2 ≤ acc'.2) :
    (run scale x divisors acc).1 ≤ (run scale y divisors acc').1 := by
  induction divisors generalizing acc acc' with
  | nil => exact h.1
  | cons d ds ih =>
    obtain ⟨h1, h2, h3⟩ := step_mono hscale (hd d List.mem_cons_self) hx hxy h0 h
    exact ih (fun e he => hd e (List.mem_cons_of_mem d he)) h3 ⟨h1, h2⟩

/-- No term is negative. -/
theorem le_run (hscale : 0 < scale) (hd : ∀ d ∈ divisors, (0 : Int) < d) (hx : 0 ≤ x)
    (h0 : 0 ≤ acc.2) : acc.1 ≤ (run scale x divisors acc).1 := by
  induction divisors generalizing acc with
  | nil => exact le_rfl
  | cons d ds ih =>
    have hpow : 0 ≤ halfUpDiv (acc.2 * x) scale := halfUpDiv_nonneg hscale (mul_nonneg h0 hx)
    have hterm := halfUpDiv_nonneg (hd d List.mem_cons_self) hpow
    have hrest : (step scale x acc d).1 ≤ (run scale x ds (step scale x acc d)).1 :=
      ih (fun e he => hd e (List.mem_cons_of_mem d he)) hpow
    exact (le_add_of_nonneg_right hterm).trans hrest

/-! ## Error -/

/-- One term: the error of the power is scaled by the argument, and each rounding adds a half. -/
theorem step_error (hscale : 0 < scale) (hd : 0 < divisor) (hx : 0 ≤ x)
    (hwidth : (x : ℚ) / scale ≤ width) (h1 : |(acc.1 : ℚ) - exact.1| ≤ bound.1)
    (h2 : |(acc.2 : ℚ) - exact.2| ≤ bound.2) :
    |((step scale x acc divisor).1 : ℚ) - (exactStep (x / scale) exact divisor).1| ≤
        (errorStep width bound divisor).1 ∧
      |((step scale x acc divisor).2 : ℚ) - (exactStep (x / scale) exact divisor).2| ≤
        (errorStep width bound divisor).2 := by
  have hq : (0 : ℚ) < divisor := by exact_mod_cast hd
  have hs : (0 : ℚ) < scale := by exact_mod_cast hscale
  have ht : (0 : ℚ) ≤ (x : ℚ) / scale := div_nonneg (by exact_mod_cast hx) hs.le
  have hpow : |(halfUpDiv (acc.2 * x) scale : ℚ) - exact.2 * (x / scale)| ≤
      bound.2 * width + 1 / 2 := by
    have hround := halfUpDiv_error (a := acc.2 * x) hscale
    have hmul : |(acc.2 : ℚ) * (x / scale) - exact.2 * (x / scale)| ≤ bound.2 * width := by
      rw [← sub_mul, abs_mul, abs_of_nonneg ht]
      exact mul_le_mul h2 hwidth ht ((abs_nonneg _).trans h2)
    push_cast at hround
    rw [mul_div_assoc] at hround
    calc |(halfUpDiv (acc.2 * x) scale : ℚ) - exact.2 * (x / scale)| ≤
          |(halfUpDiv (acc.2 * x) scale : ℚ) - acc.2 * (x / scale)| +
            |(acc.2 : ℚ) * (x / scale) - exact.2 * (x / scale)| := abs_sub_le _ _ _
      _ ≤ bound.2 * width + 1 / 2 := by linarith
  refine ⟨?_, hpow⟩
  have hround := halfUpDiv_error (a := halfUpDiv (acc.2 * x) scale) hd
  have hdiv : |(halfUpDiv (acc.2 * x) scale : ℚ) / divisor - exact.2 * (x / scale) / divisor| ≤
      (bound.2 * width + 1 / 2) / divisor := by
    rw [← sub_div, abs_div, abs_of_pos hq]
    exact div_le_div_of_nonneg_right hpow hq.le
  have hterm := (abs_sub_le _ _ _).trans (add_le_add hround hdiv)
  change |((acc.1 + halfUpDiv (halfUpDiv (acc.2 * x) scale) divisor : Int) : ℚ) -
    (exact.1 + exact.2 * (x / scale) / divisor)| ≤
      bound.1 + ((bound.2 * width + 1 / 2) / divisor + 1 / 2)
  push_cast
  rw [add_sub_add_comm]
  refine (abs_add_le _ _).trans ?_
  linarith

/-- **Accumulated error.** -/
theorem run_error (hscale : 0 < scale) (hd : ∀ d ∈ divisors, (0 : Int) < d) (hx : 0 ≤ x)
    (hwidth : (x : ℚ) / scale ≤ width) (h1 : |(acc.1 : ℚ) - exact.1| ≤ bound.1)
    (h2 : |(acc.2 : ℚ) - exact.2| ≤ bound.2) :
    |((run scale x divisors acc).1 : ℚ) - (exactRun (x / scale) divisors exact).1| ≤
      (divisors.foldl (errorStep width) bound).1 := by
  induction divisors generalizing acc exact bound with
  | nil => exact h1
  | cons d ds ih =>
    obtain ⟨h1', h2'⟩ := step_error hscale (hd d List.mem_cons_self) hx hwidth h1 h2
    exact ih (fun e he => hd e (List.mem_cons_of_mem d he)) h1' h2'

end RoundedSeries
