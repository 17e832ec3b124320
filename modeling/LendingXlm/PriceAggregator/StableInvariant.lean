import LendingXlm.PriceAggregator.Lp
import LendingXlm.Lib.CubicNewton
import Mathlib.Algebra.Order.Floor.Semifield

/-!
# The stable-pool solver finds the invariant

`solve_stable_d` of `common/src/oracle/lp_stable.rs` runs Newton's method for the two-coin
StableSwap equation in truncated integer arithmetic. From the sum of the reserves the iterates
come down to the root `D` and never fall a whole unit below it: each one that does not end the
loop loses at least two, and while far away a third of its distance to the root, so 255 rounds
are enough for every admitted pair of reserves and amplification.

* `StableRoot.root_lt_newton`, `StableRoot.newton_le_succ`: one step stays above the root less
  one and gains at most one;
* `StableRoot.settles`: the iteration reaches a step of at most one within its rounds;
* `solveStableD_law`: what the solver returns and when it fails.
-/

namespace Lending.PriceAggregator

open CubicNewton (IsRoot Setting)

/-- The two-coin StableSwap equation, `amp` times the number of coins written out. -/
def StableInvariant (xa xb : Int) (amp : Nat) (D : ℝ) : Prop :=
  0 < D ∧ 2 * amp * (xa + xb) + D = 2 * amp * D + D ^ 3 / (4 * xa * xb)

/-! ## The truncated cube -/

section Cube

variable {xs xl ann d : Nat}

theorem stableDP_mul_le (xs xl d : Nat) : 4 * (xs * xl) * stableDP xs xl d ≤ d ^ 3 := by
  have h1 := Nat.div_mul_le_self (d * d) (xs * nCoins)
  have h2 := Nat.div_mul_le_self (d * d / (xs * nCoins) * d) (xl * nCoins)
  change stableDP xs xl d * (xl * nCoins) ≤ _ at h2
  unfold nCoins at h1 h2
  calc 4 * (xs * xl) * stableDP xs xl d = stableDP xs xl d * (xl * 2) * (xs * 2) := by ring
    _ ≤ d * d / (xs * 2) * d * (xs * 2) := Nat.mul_le_mul_right _ h2
    _ = d * d / (xs * 2) * (xs * 2) * d := by ring
    _ ≤ d * d * d := Nat.mul_le_mul_right d h1
    _ = d ^ 3 := by ring

/-- Dividing by the smaller reserve first keeps the truncation below two. -/
theorem lt_stableDP (hxs : 1 ≤ xs) (hxl : 1 ≤ xl) (hd : d ≤ 2 * xl) :
    d ^ 3 < 4 * (xs * xl) * (stableDP xs xl d + 2) := by
  have h1 : d * d < (d * d / (xs * 2) + 1) * (xs * 2) :=
    Nat.lt_mul_of_div_lt (Nat.lt_succ_self _) (by omega)
  have h2 : d * d / (xs * 2) * d < (stableDP xs xl d + 1) * (xl * 2) :=
    Nat.lt_mul_of_div_lt (Nat.lt_succ_self _) (by omega)
  have h3 : d * d / (xs * 2) * d + d < (stableDP xs xl d + 2) * (xl * 2) := by
    have : (stableDP xs xl d + 2) * (xl * 2) =
        (stableDP xs xl d + 1) * (xl * 2) + xl * 2 := by ring
    omega
  calc d ^ 3 = d * d * d := by ring
    _ ≤ (d * d / (xs * 2) + 1) * (xs * 2) * d := Nat.mul_le_mul_right d h1.le
    _ = (d * d / (xs * 2) * d + d) * (xs * 2) := by ring
    _ < (stableDP xs xl d + 2) * (xl * 2) * (xs * 2) :=
      Nat.mul_lt_mul_of_pos_right h3 (by omega)
    _ = 4 * (xs * xl) * (stableDP xs xl d + 2) := by ring

/-- The cube at a point within one below the root, for the few reserves with a root below ten. -/
theorem stableDP_small : ∀ d < 10, ∀ xs < 5, ∀ xl < 25,
    1 ≤ xs ∧ xs ≤ xl ∧ d ≤ xs + xl ∧ 4 * (xs * xl) < (d + 1) ^ 2 →
    d * (d + 1) ^ 3 ≤ 4 * (xs * xl) * (d + (6 + d) * stableDP xs xl d) := by
  decide +kernel

/-- Below the root by less than one, the truncated cube still holds the step back. -/
theorem stableDP_below (hxs : 1 ≤ xs) (hle : xs ≤ xl) (hd : d ≤ xs + xl)
    (hroot : 4 * (xs * xl) < (d + 1) ^ 2) :
    d * (d + 1) ^ 3 ≤ 4 * (xs * xl) * (d + (6 + d) * stableDP xs xl d) := by
  rcases Nat.lt_or_ge d 10 with hsmall | hlarge
  · have hprod : xs * xl ≤ 24 := by nlinarith
    have hxs4 : xs < 5 := by nlinarith
    have hxl24 : xl < 25 := by nlinarith
    exact stableDP_small d hsmall xs hxs4 xl hxl24 ⟨hxs, hle, hd, hroot⟩
  · have hcube : d ^ 3 < 4 * (xs * xl) * (stableDP xs xl d + 2) :=
      lt_stableDP hxs (by omega) (by omega)
    generalize stableDP xs xl d = p at hcube ⊢
    generalize xs * xl = P at hroot hcube ⊢
    have hscaled : (6 + d) * d ^ 3 ≤ (6 + d) * (4 * P * (p + 2)) :=
      Nat.mul_le_mul_left _ hcube.le
    have hroots : (d + 12) * (4 * P) ≤ (d + 12) * (d + 1) ^ 2 :=
      Nat.mul_le_mul_left _ hroot.le
    have hpoly : 17 * d ^ 2 + 26 * d + 12 ≤ 2 * d ^ 3 := by nlinarith
    nlinarith

end Cube

/-! ## One step -/

/-- `D` is the root for reserves `xs ≤ xl`, `ann` being the amplification times the coins. -/
structure StableRoot (xs xl ann : Nat) (D : ℝ) : Prop where
  one_le : 1 ≤ xs
  le : xs ≤ xl
  two_le : 2 ≤ ann
  root : IsRoot ((ann : ℝ) - 1) (1 / (4 * (xs * xl))) (ann * (xs + xl)) D

/-- The step is Newton's, rounded down. -/
theorem stableNewton_eq_floor {xs xl ann d : Nat} (hann : 1 ≤ ann) :
    stableNewton xs xl ann d =
      ⌊CubicNewton.step ((ann : ℝ) - 1) (ann * (xs + xl)) d (stableDP xs xl d)⌋₊ := by
  rw [stableNewton, ← Nat.floor_div_eq_div (K := ℝ), CubicNewton.step, add_assoc, ← two_mul]
  push_cast [Nat.cast_sub hann]
  rfl

namespace StableRoot

variable {xs xl ann d : Nat} {D : ℝ} (h : StableRoot xs xl ann D)

include h

theorem one_le_real : (1 : ℝ) ≤ xs ∧ (1 : ℝ) ≤ xl ∧ (1 : ℝ) ≤ ann - 1 := by
  have h1 : (1 : ℝ) ≤ xs := by exact_mod_cast h.one_le
  have h2 : (1 : ℝ) ≤ xl := by exact_mod_cast h.one_le.trans h.le
  have h3 : (2 : ℝ) ≤ ann := by exact_mod_cast h.two_le
  exact ⟨h1, h2, by linarith⟩

theorem prod_pos : (0 : ℝ) < 4 * (xs * xl) := by
  obtain ⟨h1, h2, -⟩ := h.one_le_real
  positivity

/-- The cubic's value, cleared of its denominator. -/
theorem scaled_root :
    D ^ 3 + 4 * (xs * xl) * ((ann - 1) * D) = 4 * (xs * xl) * (ann * (xs + xl)) := by
  rw [← h.root.eq, mul_add, ← mul_assoc (4 * (xs * xl : ℝ)) (1 / _),
    mul_one_div_cancel h.prod_pos.ne', one_mul]

/-- AM-GM from below: the root is at least twice the geometric mean. -/
theorem prod_le_sq : 4 * (xs * xl : ℝ) ≤ D ^ 2 := by
  have hD := h.root.pos
  have hP := h.prod_pos
  obtain ⟨h1, h2, h3⟩ := h.one_le_real
  by_contra hlt
  push Not at hlt
  -- the cube would be below `D`, hence the sum of the reserves too, against their product
  have hcube : D ^ 3 < 4 * (xs * xl) * D := by nlinarith
  have hsum : (xs + xl : ℝ) < D := by
    have : 4 * (xs * xl : ℝ) * (ann * (xs + xl)) < 4 * (xs * xl) * (ann * D) := by
      linarith [h.scaled_root]
    have := lt_of_mul_lt_mul_left this hP.le
    exact lt_of_mul_lt_mul_left this (by linarith)
  nlinarith [sq_nonneg ((xs : ℝ) - xl)]

/-- AM-GM from above: the root is at most the sum. -/
theorem root_le_sum : D ≤ xs + xl := by
  obtain ⟨h1, h2, h3⟩ := h.one_le_real
  rw [h.root.le_iff (by linarith) (one_div_pos.mpr h.prod_pos) (by linarith)]
  have hsq : (xs + xl : ℝ) ≤ 1 / (4 * (xs * xl)) * (xs + xl) ^ 3 := by
    rw [one_div_mul_eq_div, le_div_iff₀ h.prod_pos]
    nlinarith [sq_nonneg ((xs : ℝ) - xl)]
  linarith

theorem two_le_root : 2 ≤ D := by
  obtain ⟨h1, h2, -⟩ := h.one_le_real
  nlinarith [h.prod_le_sq, h.root.pos]

theorem two_sqrt_le : (2 * Nat.sqrt (xs * xl) : ℝ) ≤ D := by
  have hsqrt : ((Nat.sqrt (xs * xl) : ℝ)) ^ 2 ≤ xs * xl := by
    exact_mod_cast Nat.sqrt_le' (xs * xl)
  refine (pow_le_pow_iff_left₀ (by positivity) h.root.pos.le two_ne_zero).mp ?_
  linarith [h.prod_le_sq]

theorem setting (hlow : D - 1 < d) (hhigh : d ≤ xs + xl) :
    Setting ((ann : ℝ) - 1) (1 / (4 * (xs * xl))) (ann * (xs + xl)) D d (stableDP xs xl d) where
  root := h.root
  one_le := h.one_le_real.2.2
  pos := one_div_pos.mpr h.prod_pos
  two_le := h.two_le_root
  one_le_sq := by
    rw [one_div_mul_eq_div, le_div_iff₀ h.prod_pos, one_mul]
    exact h.prod_le_sq
  x_pos := by linarith [h.two_le_root]
  p_nonneg := Nat.cast_nonneg _
  p_le := by
    rw [one_div_mul_eq_div, le_div_iff₀ h.prod_pos, mul_comm]
    exact_mod_cast stableDP_mul_le xs xl d
  lt_p := by
    have hxl := h.one_le.trans h.le
    have hle := h.le
    rw [one_div_mul_eq_div, sub_lt_iff_lt_add, div_lt_iff₀ h.prod_pos, mul_comm]
    exact_mod_cast lt_stableDP h.one_le hxl (by omega)

section Step

variable (hlow : D - 1 < d) (hhigh : d ≤ xs + xl)

include hlow hhigh

theorem newton_le_step :
    (stableNewton xs xl ann d : ℝ) ≤
      CubicNewton.step ((ann : ℝ) - 1) (ann * (xs + xl)) d (stableDP xs xl d) := by
  have hstep := (h.setting hlow hhigh).root_le_step
  have hann := h.two_le
  rw [stableNewton_eq_floor (by omega)]
  exact Nat.floor_le (by linarith [h.two_le_root])

/-- A step does not fall a whole unit below the root. -/
theorem root_lt_newton : D - 1 < stableNewton xs xl ann d := by
  have hstep := (h.setting hlow hhigh).root_le_step
  have hann := h.two_le
  have hfloor := Nat.lt_floor_add_one
    (CubicNewton.step ((ann : ℝ) - 1) (ann * (xs + xl)) d (stableDP xs xl d))
  rw [← stableNewton_eq_floor (by omega)] at hfloor
  linarith

/-- From within one below the root, where the truncated cube may pull the step up. -/
theorem step_lt_of_lt (hdD : d < D) :
    CubicNewton.step ((ann : ℝ) - 1) (ann * (xs + xl)) d (stableDP xs xl d) < d + 2 := by
  have hset := h.setting hlow hhigh
  obtain ⟨-, -, ha⟩ := h.one_le_real
  have hd0 : (0 : ℝ) < d := hset.x_pos
  have hroot : 4 * (xs * xl) < (d + 1) ^ 2 := by
    have : (4 * (xs * xl) : ℝ) < (d + 1) ^ 2 :=
      h.prod_le_sq.trans_lt (pow_lt_pow_left₀ (by linarith) h.root.pos.le (by decide))
    exact_mod_cast this
  have hbelow : (d * (d + 1) ^ 3 : ℝ) ≤ 4 * (xs * xl) * (d + (6 + d) * stableDP xs xl d) := by
    exact_mod_cast stableDP_below h.one_le h.le hhigh hroot
  have hpull : 1 / (4 * (xs * xl)) * (d + 1 : ℝ) ^ 3 * d ≤ d + (6 + d) * stableDP xs xl d := by
    rw [one_div_mul_eq_div, div_mul_eq_mul_div, div_le_iff₀ h.prod_pos]
    linarith
  have hnext : (ann * (xs + xl) : ℝ) <
      1 / (4 * (xs * xl)) * (d + 1) ^ 3 + (ann - 1) * (d + 1) := by
    rw [← h.root.eq]
    exact CubicNewton.cubic_strictMono (by linarith) hset.pos h.root.pos.le (by linarith)
  have hscaled := mul_lt_mul_of_pos_right hnext hd0
  have had : (d : ℝ) ≤ (ann - 1) * d := le_mul_of_one_le_left hd0.le ha
  rw [CubicNewton.step, div_lt_iff₀ hset.denominator_pos]
  linarith

/-- A step gains at most one. -/
theorem newton_le_succ : stableNewton xs xl ann d ≤ d + 1 := by
  have hset := h.setting hlow hhigh
  have hnewton := h.newton_le_step hlow hhigh
  have hlt : CubicNewton.step ((ann : ℝ) - 1) (ann * (xs + xl)) d (stableDP xs xl d) < d + 2 := by
    rcases le_or_gt D d with hDd | hdD
    · exact hset.step_lt_add_two hDd
    · exact h.step_lt_of_lt hlow hhigh hdD
  have : (stableNewton xs xl ann d : ℝ) < (d + 2 : Nat) := by
    push_cast
    linarith
  have := Nat.cast_lt.mp this
  omega

/-- From above the root a third of the distance goes, up to a constant. -/
theorem newton_sub_root_le (hDd : D ≤ d) :
    stableNewton xs xl ann d - D ≤ 2 / 3 * (d - D) + 2 := by
  have h1 := h.newton_le_step hlow hhigh
  have h2 := (h.setting hlow hhigh).step_le hDd
  linarith

/-- A step that does not end the loop goes down by at least two. -/
theorem newton_add_two_le (hmoves : ¬ StableSettled xs xl ann d) :
    stableNewton xs xl ann d + 2 ≤ d := by
  have := h.newton_le_succ hlow hhigh
  unfold StableSettled at hmoves
  omega

/-- The step that ends the loop is near the root. -/
theorem newton_le_of_settled (hends : StableSettled xs xl ann d) :
    (stableNewton xs xl ann d : ℝ) ≤ D + 3 := by
  have hset := h.setting hlow hhigh
  have hup : (stableNewton xs xl ann d : ℝ) ≤ d + 1 := by exact_mod_cast hends.1
  have hdown : (d : ℝ) ≤ stableNewton xs xl ann d + 1 := by exact_mod_cast hends.2
  have hle := h.newton_le_step hlow hhigh
  rcases le_or_gt ((ann : ℝ) * (xs + xl)) ((ann - 1) * d + stableDP xs xl d) with hge | hlt
  · have h1 := hset.step_le_self hge
    have h2 := hset.near_of_settled (by linarith)
    linarith
  · have := hset.near_of_lt hlt
    linarith

end Step

/-! ## The rounds -/

omit h in
/-- The iterates until the first settled one. -/
theorem settles_of_next {n : Nat}
    (hnext : ¬ StableSettled xs xl ann d →
      ∃ k < n, StableSettled xs xl ann ((stableNewton xs xl ann)^[k] (stableNewton xs xl ann d))) :
    ∃ k < n + 1, StableSettled xs xl ann ((stableNewton xs xl ann)^[k] d) := by
  by_cases hends : StableSettled xs xl ann d
  · exact ⟨0, by omega, hends⟩
  · obtain ⟨k, hk, hs⟩ := hnext hends
    exact ⟨k + 1, by omega, hs⟩

/-- Near the root two units go each round. -/
theorem settles_near (n : Nat) (hlow : D - 1 < d) (hhigh : d ≤ xs + xl)
    (hnear : d - D ≤ 2 * n - 1) :
    ∃ k < n, StableSettled xs xl ann ((stableNewton xs xl ann)^[k] d) := by
  induction n generalizing d with
  | zero =>
    push_cast at hnear
    linarith
  | succ n ih =>
    refine settles_of_next fun hmoves => ?_
    have hdown := h.newton_add_two_le hlow hhigh hmoves
    have hdown' : (stableNewton xs xl ann d : ℝ) + 2 ≤ d := by exact_mod_cast hdown
    push_cast at hnear
    exact ih (h.root_lt_newton hlow hhigh) (by omega) (by linarith)

/-- Far from the root a third of the distance goes each round. -/
theorem settles_far (n : Nat) (hlow : D - 1 < d) (hhigh : d ≤ xs + xl)
    (hfar : d - D ≤ 6 + (3 / 2) ^ n) :
    ∃ k < n + 4, StableSettled xs xl ann ((stableNewton xs xl ann)^[k] d) := by
  induction n generalizing d with
  | zero =>
    refine h.settles_near 4 hlow hhigh ?_
    push_cast
    linarith
  | succ n ih =>
    refine settles_of_next fun hmoves => ?_
    have hdown := h.newton_add_two_le hlow hhigh hmoves
    have hdown' : (stableNewton xs xl ann d : ℝ) + 2 ≤ d := by exact_mod_cast hdown
    have hroot := h.root_lt_newton hlow hhigh
    refine ih hroot (by omega) ?_
    have hclose := h.newton_sub_root_le hlow hhigh (by linarith)
    rw [pow_succ] at hfar
    linarith

/-- **The truncated iteration ends within its rounds.** -/
theorem settles (hxl : xl ≤ maxNormalizedReserveWad) :
    ∃ k < maxDIterations,
      StableSettled xs xl ann ((stableNewton xs xl ann)^[k] (xs + xl)) := by
  have hD := h.root.pos
  have hle := h.le
  have hsum := h.root_le_sum
  refine h.settles_far 251 ?_ le_rfl ?_
  · push_cast
    linarith
  · have hmax : ((xs + xl : Nat) : ℝ) ≤ 2 * 10 ^ 34 := by
      unfold maxNormalizedReserveWad at hxl
      exact_mod_cast (show xs + xl ≤ 2 * 10 ^ 34 by omega)
    have hrounds : (2 * 10 ^ 34 : ℝ) ≤ (3 / 2) ^ 251 := by norm_num
    linarith

/-- What the loop does from an iterate, the rounds left being enough. -/
theorem loop_law (hxl : xl ≤ maxNormalizedReserveWad) (hann : ann ≤ 2_000_000) (fuel : Nat)
    (hlow : D - 1 < d) (hhigh : d ≤ xs + xl)
    (hends : ∃ k < fuel, StableSettled xs xl ann ((stableNewton xs xl ann)^[k] d)) :
    ∃ r, stableDLoop xs xl (xs + xl) ann fuel d = ExceptT.mk (.ok r) ∧
      (∀ e, r = .error e →
        e = .invalidPrice ∧
          ∃ k < fuel, StableOverflow xs xl ann ((stableNewton xs xl ann)^[k] d) ∧
            ∀ j < k, ¬ StableSettled xs xl ann ((stableNewton xs xl ann)^[j] d)) ∧
      ∀ v, r = .ok v → D - 1 < v ∧ (v : ℝ) ≤ D + 3 ∧ v ≤ xs + xl + 1 := by
  induction fuel generalizing d with
  | zero => exact absurd hends (by simp)
  | succ fuel ih =>
    have hd : 1 ≤ d := by
      have : (1 : ℝ) < d := by linarith [h.two_le_root]
      exact_mod_cast this.le
    rw [stableDLoop_succ h.one_le h.le hxl h.two_le hann hd (by omega)]
    by_cases hover : StableOverflow xs xl ann d
    · rw [if_pos hover]
      refine ⟨_, rfl, ?_, nofun⟩
      rintro e ⟨⟩
      exact ⟨rfl, 0, by omega, hover, nofun⟩
    · rw [if_neg hover]
      have hroot := h.root_lt_newton hlow hhigh
      by_cases hsettled : StableSettled xs xl ann d
      · rw [if_pos hsettled]
        refine ⟨_, rfl, nofun, ?_⟩
        rintro v ⟨⟩
        have := h.newton_le_succ hlow hhigh
        exact ⟨hroot, h.newton_le_of_settled hlow hhigh hsettled, by omega⟩
      · rw [if_neg hsettled]
        have hdown := h.newton_add_two_le hlow hhigh hsettled
        obtain ⟨k, hk, hs⟩ := hends
        -- the settled iterate is not the first one
        cases k with
        | zero => exact absurd hs hsettled
        | succ k =>
          obtain ⟨r, hr, herr, hok⟩ := ih hroot (by omega) ⟨k, by omega, hs⟩
          refine ⟨r, hr, fun e he => ?_, hok⟩
          obtain ⟨rfl, i, hi, hover, hbefore⟩ := herr e he
          refine ⟨rfl, i + 1, by omega, hover, fun j hj => ?_⟩
          cases j with
          | zero => exact hsettled
          | succ j => exact hbefore j (by omega)

end StableRoot

/-! ## The solver -/

section Solver

variable {xaWad xbWad : Int} {amp : Nat}

/-- The iterate the solver holds after `k` rounds, in unbounded arithmetic. -/
def solverIterate (xaWad xbWad : Int) (amp k : Nat) : Nat :=
  (stableNewton (min xaWad xbWad).toNat (max xaWad xbWad).toNat (amp * nCoins))^[k]
    (xaWad + xbWad).toNat

/-- The round after `k` others moves by at most one. -/
def SolverSettled (xaWad xbWad : Int) (amp k : Nat) : Prop :=
  StableSettled (min xaWad xbWad).toNat (max xaWad xbWad).toNat (amp * nCoins)
    (solverIterate xaWad xbWad amp k)

/-- A checked multiplication overflows in the round after `k` others. -/
def SolverOverflow (xaWad xbWad : Int) (amp k : Nat) : Prop :=
  StableOverflow (min xaWad xbWad).toNat (max xaWad xbWad).toNat (amp * nCoins)
    (solverIterate xaWad xbWad amp k)

/-- The order of the reserves does not matter. -/
theorem reserves_sum (ha : 0 < xaWad) (hb : 0 < xbWad) :
    (min xaWad xbWad).toNat + (max xaWad xbWad).toNat = (xaWad + xbWad).toNat := by
  have := min_add_max xaWad xbWad
  omega

theorem reserves_prod (xaWad xbWad : Int) :
    (min xaWad xbWad).toNat * (max xaWad xbWad).toNat = xaWad.toNat * xbWad.toNat := by
  rcases le_total xaWad xbWad with hle | hle
  · rw [min_eq_left hle, max_eq_right hle]
  · rw [min_eq_right hle, max_eq_left hle, Nat.mul_comm]

theorem cast_toNat_real {x : Int} (hx : 0 < x) : ((x.toNat : Nat) : ℝ) = x := by
  exact_mod_cast congrArg (Int.cast : Int → ℝ) (Int.toNat_of_nonneg hx.le)

/-- The StableSwap equation is the cubic the iteration solves. -/
theorem stableInvariant_iff (ha : 0 < xaWad) (hb : 0 < xbWad) {D : ℝ} :
    StableInvariant xaWad xbWad amp D ↔
      IsRoot (((amp * nCoins : Nat) : ℝ) - 1)
        (1 / (4 * ((min xaWad xbWad).toNat * (max xaWad xbWad).toNat)))
        ((amp * nCoins : Nat) * ((min xaWad xbWad).toNat + (max xaWad xbWad).toNat)) D := by
  have hsum : ((min xaWad xbWad).toNat : ℝ) + (max xaWad xbWad).toNat = xaWad + xbWad := by
    have h := reserves_sum ha hb
    have hcast := cast_toNat_real (show 0 < xaWad + xbWad by omega)
    rw [← h] at hcast
    exact_mod_cast hcast
  have hprod : ((min xaWad xbWad).toNat : ℝ) * (max xaWad xbWad).toNat = xaWad * xbWad := by
    rw [← cast_toNat_real ha, ← cast_toNat_real hb]
    exact_mod_cast reserves_prod xaWad xbWad
  rw [hsum, hprod]
  have hcube : 1 / (4 * (xaWad * xbWad : ℝ)) * D ^ 3 = D ^ 3 / (4 * xaWad * xbWad) := by
    rw [one_div_mul_eq_div, mul_assoc]
  have hann : ((amp * nCoins : Nat) : ℝ) = 2 * amp := by
    push_cast [nCoins]
    ring
  constructor
  · rintro ⟨h0, heq⟩
    refine ⟨h0, ?_⟩
    rw [hcube, hann]
    linarith
  · rintro ⟨h0, heq⟩
    refine ⟨h0, ?_⟩
    rw [hcube, hann] at heq
    linarith

/-- An admitted pair of reserves has its root. -/
theorem exists_stableRoot (ha : 0 < xaWad) (hb : 0 < xbWad) (hamp : 1 ≤ amp) :
    ∃ D, StableRoot (min xaWad xbWad).toNat (max xaWad xbWad).toNat (amp * nCoins) D := by
  set xs := (min xaWad xbWad).toNat with hxs
  set xl := (max xaWad xbWad).toNat with hxl
  have h1 : 1 ≤ xs := by omega
  have h2 : xs ≤ xl := by omega
  have hxl1 : 1 ≤ xl := h1.trans h2
  have h3 : 2 ≤ amp * nCoins := by unfold nCoins; omega
  have hann : (2 : ℝ) ≤ (amp * nCoins : Nat) := by exact_mod_cast h3
  have hc : (0 : ℝ) < (amp * nCoins : Nat) * (xs + xl) := by positivity
  obtain ⟨D, hD⟩ := CubicNewton.exists_root (a := ((amp * nCoins : Nat) : ℝ) - 1)
    (b := 1 / (4 * (xs * xl))) (by linarith) (by positivity) hc
  exact ⟨D, h1, h2, h3, hD⟩

/-- The run of the solver on admitted inputs, against the root. -/
theorem solveStableD_run (ha : 0 < xaWad ∧ xaWad ≤ maxNormalizedReserveWad)
    (hb : 0 < xbWad ∧ xbWad ≤ maxNormalizedReserveWad) (hamp : minAmp ≤ amp ∧ amp ≤ maxAmp) :
    ∃ D, StableRoot (min xaWad xbWad).toNat (max xaWad xbWad).toNat (amp * nCoins) D ∧
      (∃ k < maxDIterations, SolverSettled xaWad xbWad amp k) ∧
      ∃ r, solveStableD xaWad xbWad amp = ExceptT.mk (.ok r) ∧
        (∀ e, r = .error e →
          e = .invalidPrice ∧ ∃ k < maxDIterations, SolverOverflow xaWad xbWad amp k ∧
            ∀ j < k, ¬ SolverSettled xaWad xbWad amp j) ∧
        ∀ d, r = .ok d → D - 1 < d ∧ (d : ℝ) ≤ D + 3 ∧ (d : Int) ≤ xaWad + xbWad + 1 := by
  obtain ⟨D, hD⟩ := exists_stableRoot ha.1 hb.1 hamp.1
  obtain ⟨hxs, hle, hxl, -, hann⟩ := solveStableD_sizes ha hb hamp
  have hends := hD.settles hxl
  have hlow : D - 1 < ((min xaWad xbWad).toNat + (max xaWad xbWad).toNat : Nat) := by
    push_cast
    linarith [hD.root_le_sum]
  obtain ⟨r, hr, herr, hok⟩ := hD.loop_law hxl hann maxDIterations hlow le_rfl hends
  rw [← solveStableD_eq ha hb hamp] at hr
  rw [reserves_sum ha.1 hb.1] at hends herr
  refine ⟨D, hD, hends, r, hr, herr, fun d hd => ?_⟩
  obtain ⟨hlow, hhigh, hsum⟩ := hok d hd
  exact ⟨hlow, hhigh, by omega⟩

/-- A returned `d` is at most a unit above the sum of the reserves. -/
theorem solveStableD_le {d : Nat} (h : solveStableD xaWad xbWad amp = ExceptT.mk (.ok (.ok d))) :
    0 < xaWad ∧ 0 < xbWad ∧ (d : Int) ≤ xaWad + xbWad + 1 := by
  by_cases hbad : xaWad ≤ 0 ∨ xbWad ≤ 0 ∨ ¬ (minAmp ≤ amp ∧ amp ≤ maxAmp) ∨
      maxNormalizedReserveWad < xaWad.toNat ∨ maxNormalizedReserveWad < xbWad.toNat
  · unfold solveStableD at h
    rw [if_pos hbad] at h
    cases h
  · have ha : 0 < xaWad ∧ xaWad ≤ maxNormalizedReserveWad := by omega
    have hb : 0 < xbWad ∧ xbWad ≤ maxNormalizedReserveWad := by omega
    have hamp : minAmp ≤ amp ∧ amp ≤ maxAmp := by tauto
    obtain ⟨D, -, -, r, hr, -, hok⟩ := solveStableD_run ha hb hamp
    cases hr.symm.trans h
    exact ⟨ha.1, hb.1, (hok d rfl).2.2⟩

/-- For admitted reserves and amplification the StableSwap equation has one positive root `D` and
the solver never traps. It fails only where one of its two checked multiplications overflows at
an iterate it reaches, never for want of rounds, and a returned `d` is within four of `D`, at most
a unit above the sum and, up to two, at least twice the root of the product. -/
theorem solveStableD_law (ha : 0 < xaWad ∧ xaWad ≤ 10 ^ 34) (hb : 0 < xbWad ∧ xbWad ≤ 10 ^ 34)
    (hamp : 1 ≤ amp ∧ amp ≤ 1_000_000) :
    (∃! D, StableInvariant xaWad xbWad amp D) ∧
      (∃ k < maxDIterations, SolverSettled xaWad xbWad amp k) ∧
      ∃ r, solveStableD xaWad xbWad amp = ExceptT.mk (.ok r) ∧
        (∀ e, r = .error e →
          e = .invalidPrice ∧ ∃ k < maxDIterations, SolverOverflow xaWad xbWad amp k ∧
            ∀ j < k, ¬ SolverSettled xaWad xbWad amp j) ∧
        ∀ d, r = .ok d →
          2 * Nat.sqrt (xaWad.toNat * xbWad.toNat) ≤ d + 2 ∧
            (d : Int) ≤ xaWad + xbWad + 1 ∧
            ∀ D, StableInvariant xaWad xbWad amp D → |(d : ℝ) - D| ≤ 4 := by
  have hmax : (maxNormalizedReserveWad : Int) = 10 ^ 34 := by decide
  obtain ⟨D, hD, hends, r, hr, herr, hok⟩ :=
    solveStableD_run (hmax ▸ ha) (hmax ▸ hb) hamp
  have hunique {y : ℝ} (hy : StableInvariant xaWad xbWad amp y) : y = D :=
    hD.root.unique (by linarith [hD.one_le_real.2.2]) (one_div_pos.mpr hD.prod_pos)
      ((stableInvariant_iff ha.1 hb.1).mp hy)
  refine ⟨⟨D, (stableInvariant_iff ha.1 hb.1).mpr hD.root, fun y hy => hunique hy⟩, hends, r, hr,
    herr, fun d hd => ?_⟩
  obtain ⟨hlow, hhigh, hsum⟩ := hok d hd
  refine ⟨?_, hsum, fun y hy => ?_⟩
  · have hsqrt := hD.two_sqrt_le
    rw [reserves_prod] at hsqrt
    have : ((2 * Nat.sqrt (xaWad.toNat * xbWad.toNat) : Nat) : ℝ) < (d + 2 : Nat) := by
      push_cast
      linarith
    exact (Nat.cast_lt.mp this).le
  · rw [hunique hy, abs_le]
    constructor <;> linarith

/-- The solver answers for reserves of 1000 and 3000, within four of the one root. -/
theorem solveStableD_law_sample :
    solveStableD 1000 3000 85 = ExceptT.mk (.ok (.ok 3992)) ∧
      2 * Nat.sqrt (1000 * 3000) ≤ 3992 + 2 ∧
      ∃ D, StableInvariant 1000 3000 85 D ∧ |(3992 : Nat) - D| ≤ 4 := by
  have hsolved : (solveStableD 1000 3000 85).run = .ok (.ok 3992) := by
    decide +kernel
  obtain ⟨⟨D, hD, -⟩, -, r, hr, -, hok⟩ :=
    solveStableD_law (show 0 < (1000 : Int) ∧ 1000 ≤ 10 ^ 34 by decide)
      (show 0 < (3000 : Int) ∧ 3000 ≤ 10 ^ 34 by decide)
      (show 1 ≤ 85 ∧ 85 ≤ 1_000_000 by decide)
  obtain ⟨hlow, -, hnear⟩ := hok 3992 (Except.ok.inj (hr.symm.trans hsolved))
  exact ⟨hsolved, hlow, D, hD, hnear D hD⟩

end Solver

end Lending.PriceAggregator
