import LendingXlm.Common.BorrowRate
import LendingXlm.Lib.RoundedSeries
import Mathlib.Algebra.BigOperators.Group.Finset.Basic
import Mathlib.Data.Nat.Factorial.Basic
import Mathlib.Tactic.NormNum.BigOperators

/-!
# The compounding factor

`compound_interest` as a rounded power series (`Lib/RoundedSeries.lean`). One chunk of at most a
year at a verified model's rate has an exponent of little more than 2, where the terms stay far
from `i128::MAX` and the rounding of all of them from five raw units.
-/

namespace Lending

open Rounding FpCore RoundedSeries

variable {x rate : Int} {deltaMs : Nat}

/-- The series of `compound_interest` at the exponent `x`. -/
def growthFactor (x : Int) : Int := (run ray x taylorDivisors (ray + x, x)).1

/-- The degree-8 Taylor polynomial of the exponential. -/
def taylorPolynomial (t : ℚ) : ℚ := ∑ k ∈ Finset.range 9, t ^ k / k.factorial

/-! ## No overflow -/

theorem taylorTerm_eq {acc : Int × Int} {divisor : Int} (hd : 0 < divisor) (hx : 0 ≤ x)
    (hx3 : x ≤ 3 * ray) (h1 : 0 ≤ acc.1) (h2 : 0 ≤ acc.2)
    (hbound : acc.1 + 3 * acc.2 ≤ i128Max) :
    taylorTerm x acc divisor = .ok (step ray x acc divisor) ∧
      0 ≤ (step ray x acc divisor).1 ∧ 0 ≤ (step ray x acc divisor).2 ∧
      (step ray x acc divisor).1 ≤ acc.1 + 3 * acc.2 ∧ (step ray x acc divisor).2 ≤ 3 * acc.2 := by
  have hprod : 0 ≤ acc.2 * x := mul_nonneg h2 hx
  have hpow0 : 0 ≤ halfUpDiv (acc.2 * x) ray := halfUpDiv_nonneg ray_pos hprod
  have hpow : halfUpDiv (acc.2 * x) ray ≤ 3 * acc.2 := by
    rw [← halfUpDiv_mul_self (3 * acc.2) ray_pos]
    refine halfUpDiv_mono ray_pos ?_
    calc acc.2 * x ≤ acc.2 * (3 * ray) := mul_le_mul_of_nonneg_left hx3 h2
      _ = 3 * acc.2 * ray := by ring
  have hterm0 : 0 ≤ halfUpDiv (halfUpDiv (acc.2 * x) ray) divisor := halfUpDiv_nonneg hd hpow0
  have hterm : halfUpDiv (halfUpDiv (acc.2 * x) ray) divisor ≤ halfUpDiv (acc.2 * x) ray := by
    conv_rhs => rw [← halfUpDiv_mul_self (halfUpDiv (acc.2 * x) ray) hd]
    refine halfUpDiv_mono hd ?_
    exact le_mul_of_one_le_right hpow0 (by omega)
  refine ⟨?_, ?_, hpow0, ?_, hpow⟩
  · unfold taylorTerm step
    rw [Ray.mul_ok_iff.mpr ⟨h2, hx, rfl, by omega⟩, Fallible.ok_bind, Ray.divByInt_eq hpow0 hd,
      Fallible.ok_bind, Ray.checkedAdd_ok_iff.mpr ⟨inI128_of_nonneg (by omega) (by omega), rfl⟩]
    rfl
  · change 0 ≤ acc.1 + halfUpDiv (halfUpDiv (acc.2 * x) ray) divisor
    omega
  · change acc.1 + halfUpDiv (halfUpDiv (acc.2 * x) ray) divisor ≤ _
    omega

/-- The series does not trap while sum and power leave room for the terms to come, each of them
less than six times what the one before it left. -/
theorem taylorTerms_eq {divisors : List Int} {acc : Int × Int} (hd : ∀ d ∈ divisors, (0 : Int) < d)
    (hx : 0 ≤ x) (hx3 : x ≤ 3 * ray) (h1 : 0 ≤ acc.1) (h2 : 0 ≤ acc.2)
    (hbound : acc.1 + acc.2 * 6 ^ divisors.length ≤ i128Max) :
    divisors.foldlM (taylorTerm x) acc = .ok (run ray x divisors acc) := by
  induction divisors generalizing acc with
  | nil => rfl
  | cons d ds ih =>
    have hpos : (1 : Int) ≤ 6 ^ ds.length := one_le_pow₀ (by decide)
    rw [List.length_cons, pow_succ] at hbound
    have hroom : acc.2 * 6 ≤ acc.2 * (6 ^ ds.length * 6) :=
      mul_le_mul_of_nonneg_left (by omega) h2
    obtain ⟨hstep, hs1, hs2, hs3, hs4⟩ := taylorTerm_eq (hd d List.mem_cons_self) hx hx3 h1 h2
      (by omega)
    rw [List.foldlM_cons, hstep, Fallible.ok_bind]
    refine ih (fun e he => hd e (List.mem_cons_of_mem d he)) hs1 hs2 ?_
    have hgrow : (step ray x acc d).2 * 6 ^ ds.length ≤ 3 * acc.2 * 6 ^ ds.length :=
      mul_le_mul_of_nonneg_right hs4 (by omega)
    have hslack : acc.2 * 1 ≤ acc.2 * 6 ^ ds.length := mul_le_mul_of_nonneg_left hpos h2
    linarith

/-- **No trap.** Up to an exponent of three. -/
theorem compoundInterest_eq (hx : 0 ≤ rate * deltaMs) (hx3 : rate * deltaMs ≤ 3 * ray) :
    compoundInterest rate deltaMs = .ok (growthFactor (rate * deltaMs)) := by
  unfold compoundInterest
  split
  · rename_i h0
    rw [h0, Int.natCast_zero, mul_zero]
    decide
  · have hray : ray + 3 * ray + 3 * ray * 6 ^ taylorDivisors.length ≤ i128Max := by decide
    have hsmall : 4 * ray ≤ i128Max := by decide
    have hray0 := ray_pos
    rw [toI128_eq, if_pos (inI128_of_nonneg hx (by omega)), Fallible.ok_bind,
      Ray.checkedAdd_ok_iff.mpr ⟨inI128_of_nonneg (by unfold Ray.one; omega)
        (by unfold Ray.one; omega), rfl⟩, Fallible.ok_bind, Ray.one,
      taylorTerms_eq (fun _ => taylorDivisors_pos) hx hx3 (by dsimp only; omega) hx ?_]
    · rfl
    · have hpow : rate * deltaMs * 6 ^ taylorDivisors.length ≤
          3 * ray * 6 ^ taylorDivisors.length :=
        mul_le_mul_of_nonneg_right hx3 (by positivity)
      dsimp only
      linarith

/-! ## Bounds of the factor -/

theorem le_growthFactor (hx : 0 ≤ x) : ray + x ≤ growthFactor x :=
  show (ray + x, x).1 ≤ (run ray x taylorDivisors (ray + x, x)).1 from
    le_run ray_pos (fun _ => taylorDivisors_pos) hx hx

theorem growthFactor_mono {y : Int} (hx : 0 ≤ x) (hxy : x ≤ y) :
    growthFactor x ≤ growthFactor y :=
  run_mono ray_pos (fun _ => taylorDivisors_pos) hx hxy hx
    ⟨add_le_add le_rfl hxy, hxy⟩

/-- The unrounded series is the Taylor polynomial. -/
theorem exactRun_taylor (t : ℚ) :
    (exactRun t taylorDivisors (ray + ray * t, ray * t)).1 = ray * taylorPolynomial t := by
  simp only [exactRun, exactStep, taylorDivisors, List.foldl_cons, List.foldl_nil,
    taylorPolynomial, Finset.sum_range_succ, Finset.sum_range_zero, Nat.factorial_succ, Nat.factorial_zero]
  push_cast
  ring

/-- The roundings of the seven terms add up to less than five units. -/
theorem growthFactor_error (hx : 0 ≤ x) (hwidth : (x : ℚ) / ray ≤ 21 / 10) :
    |(growthFactor x : ℚ) - ray * taylorPolynomial (x / ray)| ≤ 5 := by
  have hray : (ray : ℚ) ≠ 0 := by exact_mod_cast ray_pos.ne'
  have hx' : (ray : ℚ) * (x / ray) = x := by field_simp
  have herror : |((run ray x taylorDivisors (ray + x, x)).1 : ℚ) -
      (exactRun (x / ray) taylorDivisors (ray + ray * (x / ray), ray * (x / ray))).1| ≤
      (taylorDivisors.foldl (errorStep (21 / 10)) (0, 0)).1 :=
    run_error ray_pos (fun _ => taylorDivisors_pos) hx hwidth (by simp [hx']) (by simp [hx'])
  rw [exactRun_taylor] at herror
  refine herror.trans ?_
  simp only [taylorDivisors, List.foldl_cons, List.foldl_nil, errorStep]
  norm_num

/-- **The compounding factor.** At the per-millisecond rate of a verified model and over at most a
year, it is defined, at least `RAY + x`, within five raw units of the Taylor polynomial, and it
does not fall with the elapsed time. -/
theorem compoundInterest_law {params : MarketParams} {u : Unit} {util rate : Int}
    (hm : params.toInterestRateModel.verify = .ok u) (hutil : 0 ≤ util)
    (hrate : calculateBorrowRate util params = .ok rate) {deltaMs : Nat}
    (hdelta : deltaMs ≤ maxCompoundDeltaMs) :
    ∃ factor, compoundInterest rate deltaMs = .ok factor ∧ ray + rate * deltaMs ≤ factor ∧
      |(factor : ℚ) - ray * taylorPolynomial ((rate * deltaMs : Int) / ray)| ≤ 5 ∧
      ∀ earlier ≤ deltaMs, ∀ factor', compoundInterest rate earlier = .ok factor' →
        factor' ≤ factor := by
  replace hm := InterestRateModel.verify_ok_iff.mp hm
  -- The exponent: a year of the rounded rate is the annual rate and half a year of one unit.
  obtain ⟨annual, hannual, hrate⟩ := Fallible.bind_ok hrate
  rw [calculateAnnualBorrowRate_eq hm hutil, Except.ok.injEq] at hannual
  have hannual0 : 0 ≤ annual := by
    rw [← hannual]
    exact le_min (hm.base_nonneg.trans (InterestRateModel.base_le_curve hm
      (le_min hutil ray_pos.le))) (hm.base_nonneg.trans hm.base_lt_max.le)
  have hannual2 : annual ≤ 2 * ray := by
    rw [← hannual]
    exact (min_le_right _ _).trans hm.max_le
  have hyear : (0 : Int) < millisecondsPerYear := by decide
  rw [Ray.divByInt_eq hannual0 hyear, Except.ok.injEq] at hrate
  have hrate0 : 0 ≤ rate := hrate ▸ halfUpDiv_nonneg hyear hannual0
  have hround := halfUpDiv_mul_le annual hyear
  rw [hrate] at hround
  have hx0 (n : Nat) : 0 ≤ rate * n := mul_nonneg hrate0 (by positivity)
  have hx (n : Nat) (hn : n ≤ maxCompoundDeltaMs) : 10 * (rate * n) ≤ 21 * ray := by
    have hle : rate * n ≤ rate * millisecondsPerYear :=
      mul_le_mul_of_nonneg_left (by exact_mod_cast hn) hrate0
    have hsmall : 20 * (2 * ray) + 10 * (millisecondsPerYear : Int) ≤ 42 * ray := by decide
    linarith
  have hcompound (n : Nat) (hn : n ≤ maxCompoundDeltaMs) :
      compoundInterest rate n = .ok (growthFactor (rate * n)) :=
    compoundInterest_eq (hx0 n) (by have := hx n hn; have := ray_pos; omega)
  refine ⟨_, hcompound deltaMs hdelta, le_growthFactor (hx0 deltaMs), ?_, ?_⟩
  · refine growthFactor_error (hx0 deltaMs) ?_
    have hray : (0 : ℚ) < ray := by exact_mod_cast ray_pos
    have hle : (10 * (rate * deltaMs : Int) : ℚ) ≤ 21 * ray := by
      exact_mod_cast hx deltaMs hdelta
    rw [div_le_iff₀ hray]
    linarith
  · intro earlier hearlier factor' hfactor'
    rw [hcompound earlier (hearlier.trans hdelta), Except.ok.injEq] at hfactor'
    rw [← hfactor']
    exact growthFactor_mono (hx0 earlier)
      (mul_le_mul_of_nonneg_left (by exact_mod_cast hearlier) hrate0)

/-- A year at full utilisation of the sample curve, 30% a year. -/
theorem compoundInterest_law_sample :
    ∃ rate factor, calculateBorrowRate ray narrowParams = .ok rate ∧
      compoundInterest rate maxCompoundDeltaMs = .ok factor ∧
      ray + rate * maxCompoundDeltaMs ≤ factor := by
  have hrate : calculateBorrowRate ray narrowParams =
      .ok (halfUpDiv (3 * (ray / 10)) millisecondsPerYear) := by decide +kernel
  obtain ⟨factor, hfactor, hle, -, -⟩ := compoundInterest_law
    (show narrowParams.toInterestRateModel.verify = .ok () by decide +kernel) ray_pos.le hrate
    (le_refl maxCompoundDeltaMs)
  exact ⟨_, factor, hrate, hfactor, hle⟩

end Lending
