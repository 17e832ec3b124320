import LendingXlm.PriceAggregator.StableInvariant

/-!
# LP prices against redemption value

What one share redeems for is its part of both reserves at their prices. Neither LP price exceeds
it: the constant-product price takes twice the geometric mean of the two values, which AM-GM keeps
below their sum through every rounding, and the stable price takes the invariant at the lower
price, which is at most a unit above the sum of the reserves.

* `fairLpPriceWad_value`, `fairStableLpPriceWad_value`: the prices as one quotient each;
* `lpPrices_redemption`: both against redemption value, and the first monotone.
-/

namespace Lending.PriceAggregator

open Rounding

/-! ## Success -/

section Success

variable {α β : Type} {a : α} {b : β}

theorem mk_data_ok {x : Except OracleError α} :
    (ExceptT.mk (pure x) : ExceptT OracleError (Except Panic) α) = ExceptT.mk (.ok (.ok a)) ↔
      x = .ok a :=
  ⟨fun h => Except.ok.inj h, congrArg _⟩

theorem lift_ok {x : Except Panic α} :
    (liftM x : ExceptT OracleError (Except Panic) α) = ExceptT.mk (.ok (.ok a)) ↔ x = .ok a := by
  cases x with
  | error e => exact ⟨nofun, nofun⟩
  | ok v =>
    constructor
    · intro h
      exact congrArg Except.ok (Except.ok.inj (Except.ok.inj h))
    · rintro ⟨⟩
      rfl

theorem bindT_ok {x : ExceptT OracleError (Except Panic) α}
    {f : α → ExceptT OracleError (Except Panic) β} (h : x >>= f = ExceptT.mk (.ok (.ok b))) :
    ∃ a, x = ExceptT.mk (.ok (.ok a)) ∧ f a = ExceptT.mk (.ok (.ok b)) := by
  match x with
  | .error e => cases h
  | .ok (.error e) => cases h
  | .ok (.ok a) => exact ⟨a, rfl, h⟩

theorem U256.mul_ok {a b c : Nat} (h : U256.mul a b = .ok c) : c = a * b := by
  obtain ⟨_, -, h⟩ := Fallible.bind_ok h
  exact (Fallible.pure_ok_iff.mp h).symm

theorem U256.div_ok {a b c : Nat} (h : U256.div a b = .ok c) : c = a / b := by
  obtain ⟨_, -, h⟩ := Fallible.bind_ok h
  exact (Fallible.pure_ok_iff.mp h).symm

end Success

theorem tryU256ToI128_some {n : Nat} {v : Int} (h : tryU256ToI128 n = some v) : v = n := by
  unfold tryU256ToI128 at h
  split at h
  · exact (Option.some.inj h).symm
  · cases h

/-! ## Values -/

/-- The WAD value of a reserve, rounded half up. -/
def LpLeg.value (leg : LpLeg) : Int := halfUpDiv (leg.reserve * leg.priceWad) (10 ^ leg.decimals)

/-- An amount in WAD. -/
def normalized (amount : Int) (decimals : Nat) : Int := amount * 10 ^ (wadDecimals - decimals)

def LpLeg.normalizedReserve (leg : LpLeg) : Int := normalized leg.reserve leg.decimals

def LpSupply.normalized (supply : LpSupply) : Int :=
  PriceAggregator.normalized supply.totalShares supply.decimals

theorem reserveValueWad_value {leg : LpLeg} {v : Int} (h : reserveValueWad leg = .ok v) :
    v = leg.value ∧ 0 ≤ v ∧ v.toNat < 2 ^ 127 := by
  have hlt := reserveValueWad_lt h
  obtain ⟨denom, hdenom, h⟩ := Fallible.bind_ok h
  have hpow := Fallible.orThrow_ok_iff.mp hdenom
  unfold I128.checkedPow at hpow
  split at hpow
  · have hv := Fallible.orThrow_ok_iff.mp h
    obtain ⟨-, -, -, heq, -⟩ := FpCore.tryMulDivHalfUp_some_iff.mp hv
    rw [← Option.some.inj hpow] at heq
    exact ⟨heq, (tryMulDivHalfUp_lt hv).1, hlt⟩
  · cases hpow

theorem tryAmountToWad_value {amount v : Int} {decimals : Nat}
    (h : tryAmountToWad amount decimals = .ok v) : v = normalized amount decimals := by
  obtain ⟨scale, hscale, h⟩ := Fallible.bind_ok h
  have hpow := Fallible.orThrow_ok_iff.mp hscale
  unfold I128.checkedPow at hpow
  split at hpow
  · split at hpow
    · obtain ⟨-, -, -, heq, -⟩ := FpCore.tryMulDivHalfUp_some_iff.mp (Fallible.orThrow_ok_iff.mp h)
      rw [← Option.some.inj hpow] at heq
      rw [heq, normalized]
      have hone := halfUpDiv_mul_self (amount * 10 ^ (wadDecimals - decimals)) (d := 1) one_pos
      rwa [mul_one] at hone
    · cases hpow
  · cases hpow

theorem fairShareSupplyWad_value {supply : LpSupply} {v : Int}
    (h : fairShareSupplyWad supply = .ok v) : v = supply.normalized ∧ 0 < v := by
  obtain ⟨w, hw, h⟩ := Fallible.bind_ok h
  obtain ⟨_, hpos, h⟩ := Fallible.bind_ok h
  obtain rfl := Fallible.pure_ok_iff.mp h
  exact ⟨tryAmountToWad_value hw, Fallible.require_ok_iff.mp hpos⟩

/-! ## The prices -/

variable {a b a' b' : LpLeg} {supply supply' : LpSupply} {amp : Nat} {p p' : Int}

theorem fairLpPriceWad_value (h : fairLpPriceWad a b supply = ExceptT.mk (.ok (.ok p))) :
    lpInputsPositive a b supply ∧ 0 ≤ a.value ∧ 0 ≤ b.value ∧ 0 < supply.normalized ∧
      p = (Nat.sqrt (a.value.toNat * b.value.toNat) * 2 * wad.toNat / supply.normalized.toNat :
        Nat) := by
  obtain ⟨⟨va, vb⟩, hin, h⟩ := bindT_ok h
  obtain ⟨_, hpos, hin⟩ := Fallible.bind_ok (mk_data_ok.mp hin)
  obtain ⟨_, hva, hin⟩ := Fallible.bind_ok hin
  obtain ⟨_, hvb, hin⟩ := Fallible.bind_ok hin
  cases Fallible.pure_ok_iff.mp hin
  obtain ⟨rfl, ha0, ha⟩ := reserveValueWad_value hva
  obtain ⟨rfl, hb0, hb⟩ := reserveValueWad_value hvb
  obtain ⟨root, hroot, h⟩ := bindT_ok h
  have hroot := lift_ok.mp hroot
  rw [isqrtOfProduct_eq (lt_trans ha (by decide)) (lt_trans hb (by decide))] at hroot
  obtain ⟨total, htotal, h⟩ := bindT_ok h
  obtain ⟨shares, hshares, h⟩ := bindT_ok h
  obtain ⟨scaled, hscaled, h⟩ := bindT_ok h
  obtain ⟨fair, hfair, h⟩ := bindT_ok h
  obtain ⟨hnorm, hs⟩ := fairShareSupplyWad_value (mk_data_ok.mp hshares)
  have hp := tryU256ToI128_some (Fallible.orThrow_ok_iff.mp (mk_data_ok.mp h))
  rw [hnorm] at hs hfair
  rw [U256.div_ok (lift_ok.mp hfair), U256.mul_ok (lift_ok.mp hscaled),
    U256.mul_ok (lift_ok.mp htotal), ← Except.ok.inj hroot] at hp
  exact ⟨Fallible.require_ok_iff.mp hpos, ha0, hb0, hs, hp⟩

theorem fairStableLpPriceWad_value
    (h : fairStableLpPriceWad a b supply amp = ExceptT.mk (.ok (.ok p))) :
    lpInputsPositive a b supply ∧ 0 < supply.normalized ∧
      ∃ d, solveStableD a.normalizedReserve b.normalizedReserve amp = ExceptT.mk (.ok (.ok d)) ∧
        p = (d * (min a.priceWad b.priceWad).toNat / supply.normalized.toNat : Nat) := by
  obtain ⟨⟨xa, xb⟩, hin, h⟩ := bindT_ok h
  obtain ⟨_, hpos, hin⟩ := Fallible.bind_ok (mk_data_ok.mp hin)
  obtain ⟨_, hxa, hin⟩ := Fallible.bind_ok hin
  obtain ⟨_, hxb, hin⟩ := Fallible.bind_ok hin
  cases Fallible.pure_ok_iff.mp hin
  obtain ⟨d, hd, h⟩ := bindT_ok h
  obtain ⟨shares, hshares, h⟩ := bindT_ok h
  obtain ⟨scaled, hscaled, h⟩ := bindT_ok h
  obtain ⟨fair, hfair, h⟩ := bindT_ok h
  obtain ⟨hnorm, hs⟩ := fairShareSupplyWad_value (mk_data_ok.mp hshares)
  have hp := tryU256ToI128_some (Fallible.orThrow_ok_iff.mp (mk_data_ok.mp h))
  rw [hnorm] at hs hfair
  rw [U256.div_ok (lift_ok.mp hfair), U256.mul_ok (lift_ok.mp hscaled)] at hp
  rw [tryAmountToWad_value hxa, tryAmountToWad_value hxb] at hd
  exact ⟨Fallible.require_ok_iff.mp hpos, hs, d, hd, hp⟩

/-! ## Bounds -/

/-- AM-GM through the integer square root. -/
theorem two_sqrt_mul_le_add (m n : Nat) : Nat.sqrt (m * n) * 2 ≤ m + n := by
  have hsq : Nat.sqrt (m * n) ^ 2 ≤ m * n := Nat.sqrt_le' _
  by_contra hlt
  have hsq' : (m + n + 1) ^ 2 ≤ (Nat.sqrt (m * n) * 2) ^ 2 :=
    Nat.pow_le_pow_left (by omega) 2
  zify at hsq hsq'
  nlinarith [sq_nonneg ((m : Int) - n)]

theorem fairLpPriceWad_le (h : fairLpPriceWad a b supply = ExceptT.mk (.ok (.ok p))) :
    p ≤ (a.value + b.value) * wad / supply.normalized := by
  obtain ⟨-, ha, hb, hs, rfl⟩ := fairLpPriceWad_value h
  have hmean := two_sqrt_mul_le_add a.value.toNat b.value.toNat
  push_cast
  rw [Int.toNat_of_nonneg hs.le, Int.toNat_of_nonneg (show (0 : Int) ≤ wad by decide)]
  refine Int.ediv_le_ediv hs (mul_le_mul_of_nonneg_right ?_ (by decide))
  omega

/-- A leg with at least the reserve and the price. -/
def LpLeg.Within (leg leg' : LpLeg) : Prop :=
  leg.decimals = leg'.decimals ∧ leg.reserve ≤ leg'.reserve ∧ leg.priceWad ≤ leg'.priceWad

theorem LpLeg.Within.value_le {leg leg' : LpLeg} (h : leg.Within leg') (hreserve : 0 < leg.reserve)
    (hprice : 0 < leg.priceWad) : leg.value ≤ leg'.value := by
  obtain ⟨hdec, hr, hp⟩ := h
  unfold LpLeg.value
  rw [← hdec]
  exact halfUpDiv_mono (by positivity) (mul_le_mul hr hp hprice.le (hreserve.le.trans hr))

/-- Non-decreasing in each reserve and each price, non-increasing in the supply. -/
theorem fairLpPriceWad_mono (h : fairLpPriceWad a b supply = ExceptT.mk (.ok (.ok p)))
    (h' : fairLpPriceWad a' b' supply' = ExceptT.mk (.ok (.ok p'))) (ha : a.Within a')
    (hb : b.Within b') (hdec : supply'.decimals = supply.decimals)
    (hshares : supply'.totalShares ≤ supply.totalShares) : p ≤ p' := by
  obtain ⟨⟨hra, hrb, hpa, hpb, -⟩, -, -, -, rfl⟩ := fairLpPriceWad_value h
  obtain ⟨-, -, -, hs', rfl⟩ := fairLpPriceWad_value h'
  have hva := ha.value_le hra hpa
  have hvb := hb.value_le hrb hpb
  have hnorm : supply'.normalized ≤ supply.normalized := by
    unfold LpSupply.normalized normalized
    rw [hdec]
    exact mul_le_mul_of_nonneg_right hshares (by positivity)
  have hprod : a.value.toNat * b.value.toNat ≤ a'.value.toNat * b'.value.toNat :=
    Nat.mul_le_mul (by omega) (by omega)
  have hroot := Nat.sqrt_le_sqrt hprod
  exact_mod_cast Nat.div_le_div (Nat.mul_le_mul_right _ (Nat.mul_le_mul_right 2 hroot))
    (show supply'.normalized.toNat ≤ supply.normalized.toNat by omega) (by omega)

/-- The invariant at the lower price against both reserves at their own. -/
theorem fairStableLpPriceWad_le
    (h : fairStableLpPriceWad a b supply amp = ExceptT.mk (.ok (.ok p))) :
    p ≤ (a.normalizedReserve * a.priceWad + b.normalizedReserve * b.priceWad +
      min a.priceWad b.priceWad) / supply.normalized := by
  obtain ⟨⟨-, -, hpa, hpb, -⟩, hs, d, hd, rfl⟩ := fairStableLpPriceWad_value h
  obtain ⟨hxa, hxb, hle⟩ := solveStableD_le hd
  have hmin : 0 < min a.priceWad b.priceWad := lt_min hpa hpb
  push_cast
  rw [Int.toNat_of_nonneg hs.le, Int.toNat_of_nonneg hmin.le]
  refine Int.ediv_le_ediv hs ?_
  calc (d : Int) * min a.priceWad b.priceWad
      ≤ (a.normalizedReserve + b.normalizedReserve + 1) * min a.priceWad b.priceWad :=
        mul_le_mul_of_nonneg_right hle hmin.le
    _ = a.normalizedReserve * min a.priceWad b.priceWad +
        b.normalizedReserve * min a.priceWad b.priceWad + min a.priceWad b.priceWad := by ring
    _ ≤ a.normalizedReserve * a.priceWad + b.normalizedReserve * b.priceWad +
        min a.priceWad b.priceWad := by
      have h1 := mul_le_mul_of_nonneg_left (min_le_left a.priceWad b.priceWad) hxa.le
      have h2 := mul_le_mul_of_nonneg_left (min_le_right a.priceWad b.priceWad) hxb.le
      linarith

/-- Neither LP price exceeds what a share redeems for: the constant-product price never traps, is
at most the share of both values and moves with the reserves and prices and against the supply,
and the stable price exceeds the share of both reserves by at most a unit at the lower price. -/
theorem lpPrices_redemption (a b : LpLeg) (supply : LpSupply) :
    (∃ r, fairLpPriceWad a b supply = ExceptT.mk (.ok r) ∧
      ∀ p, r = .ok p →
        0 < supply.normalized ∧ p ≤ (a.value + b.value) * wad / supply.normalized ∧
          ∀ a' b' supply' p', a.Within a' → b.Within b' →
            supply'.decimals = supply.decimals → supply'.totalShares ≤ supply.totalShares →
            fairLpPriceWad a' b' supply' = ExceptT.mk (.ok (.ok p')) → p ≤ p') ∧
      ∀ amp p, fairStableLpPriceWad a b supply amp = ExceptT.mk (.ok (.ok p)) →
        0 < supply.normalized ∧
          p ≤ (a.normalizedReserve * a.priceWad + b.normalizedReserve * b.priceWad +
            min a.priceWad b.priceWad) / supply.normalized := by
  constructor
  · obtain ⟨r, hr⟩ := fairLpPriceWad_ok a b supply
    refine ⟨r, hr, ?_⟩
    rintro p rfl
    refine ⟨(fairLpPriceWad_value hr).2.2.2.1, fairLpPriceWad_le hr, ?_⟩
    intro a' b' supply' p' ha hb hdec hshares h'
    exact fairLpPriceWad_mono hr h' ha hb hdec hshares
  · intro amp p h
    exact ⟨(fairStableLpPriceWad_value h).2.1, fairStableLpPriceWad_le h⟩

/-- A pool with the same value on both sides, and a balanced stable pool at one: the share is priced
at its redemption value, and more in a pool with more of the second token. -/
theorem lpPrices_redemption_sample :
    let leg : LpLeg := ⟨1000, 18, 10 ^ 18⟩
    let other : LpLeg := ⟨4000, 18, 10 ^ 18 / 4⟩
    let more : LpLeg := ⟨16000, 18, 10 ^ 18 / 4⟩
    let supply : LpSupply := ⟨2000, 18⟩
    fairLpPriceWad leg other supply = ExceptT.mk (.ok (.ok (10 ^ 18))) ∧
      10 ^ 18 ≤ (leg.value + other.value) * wad / supply.normalized ∧
      fairLpPriceWad leg more supply = ExceptT.mk (.ok (.ok (2 * 10 ^ 18))) ∧
      (10 : Int) ^ 18 ≤ 2 * 10 ^ 18 ∧
      fairStableLpPriceWad leg leg supply 85 = ExceptT.mk (.ok (.ok (10 ^ 18))) ∧
      10 ^ 18 ≤ (leg.normalizedReserve * leg.priceWad + leg.normalizedReserve * leg.priceWad +
        min leg.priceWad leg.priceWad) / supply.normalized := by
  intro leg other more supply
  have hfair : (fairLpPriceWad leg other supply).run = .ok (.ok (10 ^ 18)) := by
    decide +kernel
  have hmore : (fairLpPriceWad leg more supply).run = .ok (.ok (2 * 10 ^ 18)) := by
    decide +kernel
  have hstable : (fairStableLpPriceWad leg leg supply 85).run = .ok (.ok (10 ^ 18)) := by
    decide +kernel
  obtain ⟨r, hr, hlaw⟩ := (lpPrices_redemption leg other supply).1
  obtain ⟨-, hle, hmono⟩ := hlaw _ (Except.ok.inj (hr.symm.trans hfair))
  refine ⟨hfair, hle, hmore, ?_, hstable, ((lpPrices_redemption leg leg supply).2 85 _ hstable).2⟩
  exact hmono leg more supply _ ⟨rfl, le_rfl, le_rfl⟩ ⟨rfl, by decide, le_rfl⟩ rfl le_rfl hmore

end Lending.PriceAggregator
