import LendingXlm.PriceAggregator.Feeds
import Mathlib.Data.Nat.Sqrt

/-!
# Fair prices of LP shares

`common/src/oracle/lp.rs` and `lp_stable.rs`: the value of a constant-product pool through the
square root of the product of its reserve values, and of a two-coin stable pool through the
invariant `D`, found by Newton iteration.

The host's `U256` operators trap on overflow, underflow and division by zero. The sizes of the
operands exclude all three, so both prices are a value or an `OracleError`, never a trap:

* `isqrtOfProduct_floor`: the square root is exact for every product of two `u128`s;
* `isqrtOfProduct_ok`, `solveStableD_ok`: the two iterations never trap;
* `fairLpPriceWad_ok`, `fairStableLpPriceWad_ok`: neither do the prices;
* `fairLpPriceWad_errors`, `fairStableLpPriceWad_errors`: their only error is `InvalidPrice`.
-/

namespace Lending.PriceAggregator

/-! ## `U256` -/

def u256Max : Nat := 2 ^ 256 - 1

namespace U256

def checked (n : Nat) : Except Panic Nat := require (n ≤ u256Max) .hostTrap >>= fun _ => pure n

def add (a b : Nat) : Except Panic Nat := checked (a + b)

def mul (a b : Nat) : Except Panic Nat := checked (a * b)

def sub (a b : Nat) : Except Panic Nat := require (b ≤ a) .hostTrap >>= fun _ => pure (a - b)

def div (a b : Nat) : Except Panic Nat := require (b ≠ 0) .hostTrap >>= fun _ => pure (a / b)

def checkedMul (a b : Nat) : Option Nat := if a * b ≤ u256Max then some (a * b) else none

variable {a b : Nat}

theorem add_eq (h : a + b ≤ u256Max) : add a b = .ok (a + b) := by
  simp [add, checked, require, h, pure, Except.pure]

theorem mul_eq (h : a * b ≤ u256Max) : mul a b = .ok (a * b) := by
  simp [mul, checked, require, h, pure, Except.pure]

theorem sub_eq (h : b ≤ a) : sub a b = .ok (a - b) := by
  simp [sub, require, h, pure, Except.pure]

theorem div_eq (h : b ≠ 0) : div a b = .ok (a / b) := by
  simp [div, require, h, pure, Except.pure]

theorem checkedMul_eq {e : OracleError} (h : a * b ≤ u256Max) :
    orThrow (checkedMul a b) e = .ok (a * b) := by
  simp [checkedMul, h, orThrow]

theorem checkedMul_overflow {e : OracleError} (h : ¬ a * b ≤ u256Max) :
    orThrow (checkedMul a b) e = .error e := by
  simp [checkedMul, h, orThrow]

end U256

/-! ## `lp.rs` -/

def isqrtLoop (n x y : Nat) : Except Panic Nat :=
  if _h : y < x then do
    let q ← U256.div n y
    let sum ← U256.add y q
    let next ← U256.div sum 2
    isqrtLoop n y next
  else pure x
termination_by x

def isqrtOfProduct (a b : Nat) : Except Panic Nat := do
  let n ← U256.mul a b
  if n ≤ 1 then return n
  let seed ← U256.mul (Nat.sqrt a + 1) (Nat.sqrt b + 1)
  let q ← U256.div n seed
  let sum ← U256.add seed q
  let y ← U256.div sum 2
  isqrtLoop n seed y

structure LpLeg where
  reserve : Int
  decimals : Nat
  priceWad : Int
  deriving DecidableEq, Repr

structure LpSupply where
  totalShares : Int
  decimals : Nat
  deriving DecidableEq, Repr

def reserveValueWad (leg : LpLeg) : Except OracleError Int := do
  let denom ← orThrow (I128.checkedPow 10 leg.decimals) .invalidPrice
  orThrow (FpCore.tryMulDivHalfUp leg.reserve leg.priceWad denom) .invalidPrice

def tryAmountToWad (amount : Int) (decimals : Nat) : Except OracleError Int := do
  let scale ← orThrow
    (if decimals ≤ wadDecimals then I128.checkedPow 10 (wadDecimals - decimals) else none)
    .invalidPrice
  orThrow (FpCore.tryMulDivHalfUp amount scale 1) .invalidPrice

/-- The guard both prices start with. -/
def lpInputsPositive (a b : LpLeg) (supply : LpSupply) : Prop :=
  0 < a.reserve ∧ 0 < b.reserve ∧ 0 < a.priceWad ∧ 0 < b.priceWad ∧ 0 < supply.totalShares

instance (a b : LpLeg) (supply : LpSupply) : Decidable (lpInputsPositive a b supply) :=
  inferInstanceAs (Decidable (_ ∧ _))

/-- The fallible reads of `fair_lp_price_wad`: both reserve values and the share supply. -/
def fairLpInputs (a b : LpLeg) (supply : LpSupply) : Except OracleError (Int × Int) := do
  require (lpInputsPositive a b supply) .invalidPrice
  let valueA ← reserveValueWad a
  let valueB ← reserveValueWad b
  return (valueA, valueB)

def fairShareSupplyWad (supply : LpSupply) : Except OracleError Int := do
  let shareSupplyWad ← tryAmountToWad supply.totalShares supply.decimals
  require (0 < shareSupplyWad) .invalidPrice
  return shareSupplyWad

def fairLpPriceWad (a b : LpLeg) (supply : LpSupply) : ExceptT OracleError (Except Panic) Int := do
  let (valueA, valueB) ← ExceptT.mk (pure (fairLpInputs a b supply))
  let root ← isqrtOfProduct valueA.toNat valueB.toNat
  let totalValue ← U256.mul root 2
  let shareSupplyWad ← ExceptT.mk (pure (fairShareSupplyWad supply))
  let scaled ← U256.mul totalValue wad.toNat
  let fair ← U256.div scaled shareSupplyWad.toNat
  ExceptT.mk (pure (orThrow (tryU256ToI128 fair) .invalidPrice))

/-! ## `lp_stable.rs` -/

def nCoins : Nat := 2
def minAmp : Nat := 1
def maxAmp : Nat := 1_000_000
def maxDIterations : Nat := 255
def maxNormalizedReserveWad : Nat := 10 ^ 34

/-- One Newton step from `d`. -/
def stableDStep (xSmaller xLarger sum ann d : Nat) : ExceptT OracleError (Except Panic) Nat := do
  let square ← U256.mul d d
  let smallerN ← U256.mul xSmaller nCoins
  let half ← U256.div square smallerN
  let cube ← ExceptT.mk (pure (orThrow (U256.checkedMul half d) .invalidPrice))
  let largerN ← U256.mul xLarger nCoins
  let dP ← U256.div cube largerN
  let annSum ← U256.mul ann sum
  let nDP ← U256.mul nCoins dP
  let factor ← U256.add annSum nDP
  let numerator ← ExceptT.mk (pure (orThrow (U256.checkedMul factor d) .invalidPrice))
  let annLess ← U256.sub ann 1
  let annD ← U256.mul annLess d
  let n1 ← U256.add nCoins 1
  let n1DP ← U256.mul n1 dP
  let denominator ← U256.add annD n1DP
  U256.div numerator denominator

/-- The iteration, with `fuel` rounds left; stops once a step moves `d` by at most one. -/
def stableDLoop (xSmaller xLarger sum ann : Nat) :
    Nat → Nat → ExceptT OracleError (Except Panic) Nat
  | 0, _ => throw .invalidPrice
  | fuel + 1, dPrev => do
    let d ← stableDStep xSmaller xLarger sum ann dPrev
    let distance ← if dPrev ≤ d then U256.sub d dPrev else U256.sub dPrev d
    if distance ≤ 1 then return d
    stableDLoop xSmaller xLarger sum ann fuel d

def solveStableD (xaWad xbWad : Int) (amp : Nat) : ExceptT OracleError (Except Panic) Nat := do
  if xaWad ≤ 0 ∨ xbWad ≤ 0 ∨ ¬ (minAmp ≤ amp ∧ amp ≤ maxAmp) ∨
      maxNormalizedReserveWad < xaWad.toNat ∨ maxNormalizedReserveWad < xbWad.toNat then
    throw .invalidPrice
  let xSmaller := (min xaWad xbWad).toNat
  let xLarger := (max xaWad xbWad).toNat
  let sum ← U256.add xSmaller xLarger
  let ann ← U256.mul amp nCoins
  stableDLoop xSmaller xLarger sum ann maxDIterations sum

/-- The fallible reads of `fair_stable_lp_price_wad` before the iteration. -/
def fairStableInputs (a b : LpLeg) (supply : LpSupply) : Except OracleError (Int × Int) := do
  require (lpInputsPositive a b supply) .invalidPrice
  let xaWad ← tryAmountToWad a.reserve a.decimals
  let xbWad ← tryAmountToWad b.reserve b.decimals
  return (xaWad, xbWad)

def fairStableLpPriceWad (a b : LpLeg) (supply : LpSupply) (amp : Nat) :
    ExceptT OracleError (Except Panic) Int := do
  let (xaWad, xbWad) ← ExceptT.mk (pure (fairStableInputs a b supply))
  let d ← solveStableD xaWad xbWad amp
  let minPrice := min a.priceWad b.priceWad
  let shareSupplyWad ← ExceptT.mk (pure (fairShareSupplyWad supply))
  let scaled ← U256.mul d minPrice.toNat
  let fair ← U256.div scaled shareSupplyWad.toNat
  ExceptT.mk (pure (orThrow (tryU256ToI128 fair) .invalidPrice))

/-! ## No trap -/

section NoTrap

-- the parentheses keep `simp` from using these definitionally, which would make the kernel
-- compare terms with the bound of `U256` in them

variable {α β : Type}

@[simp] theorem lift_ok_bind {a : α} {f : α → ExceptT OracleError (Except Panic) β} :
    (liftM (Except.ok a : Except Panic α) : ExceptT OracleError (Except Panic) α) >>= f = f a :=
  (rfl)

@[simp] theorem mk_ok_bind {a : α} {f : α → ExceptT OracleError (Except Panic) β} :
    (ExceptT.mk (pure (.ok a)) : ExceptT OracleError (Except Panic) α) >>= f = f a :=
  (rfl)

@[simp] theorem mk_error_bind {e : OracleError} {f : α → ExceptT OracleError (Except Panic) β} :
    (ExceptT.mk (pure (.error e)) : ExceptT OracleError (Except Panic) α) >>= f =
      ExceptT.mk (pure (.error e)) :=
  (rfl)

end NoTrap

theorem newton_pos {n x : Nat} (hn : 2 ≤ n) (hx : 1 ≤ x) : 1 ≤ (x + n / x) / 2 := by
  rw [Nat.le_div_iff_mul_le (by decide)]
  rcases Nat.lt_or_ge 1 x with h1 | h1
  · exact le_trans h1 (Nat.le_add_right x _)
  · -- at `x = 1` the quotient is all of `n`
    have : x = 1 := by omega
    subst this
    omega

/-- A Newton step does not fall below the square root. -/
theorem lt_newton_succ_sq {n x : Nat} (hx : 1 ≤ x) : n < ((x + n / x) / 2 + 1) ^ 2 := by
  have hq : n < x * (n / x + 1) := Nat.lt_mul_div_succ n hx
  set q := n / x
  have hy : x + q + 1 ≤ 2 * ((x + q) / 2 + 1) := by omega
  -- the geometric mean of `x` and `q + 1` is at most their arithmetic mean
  have hmean : 4 * (x * (q + 1)) ≤ (x + q + 1) ^ 2 := by
    zify
    nlinarith [sq_nonneg ((x : Int) - (q + 1))]
  have hsq := Nat.pow_le_pow_left hy 2
  rw [Nat.mul_pow] at hsq
  omega

/-- The quotient of a point above the square root. -/
theorem newton_quotient_le {n x : Nat} (hn : n < (x + 1) ^ 2) : n / x ≤ x + 2 := by
  refine Nat.div_le_of_le_mul ?_
  have : (x + 1) ^ 2 = x * (x + 2) + 1 := by ring
  omega

/-- The square-root iteration from above ends at the root. -/
theorem isqrtLoop_eq {n : Nat} (hn : 2 ≤ n) (x : Nat) (hx : 1 ≤ x) (hmax : x ≤ 2 ^ 128)
    (habove : n < (x + 1) ^ 2) : isqrtLoop n x ((x + n / x) / 2) = .ok (Nat.sqrt n) := by
  induction x using Nat.strong_induction_on with
  | _ x ih =>
    unfold isqrtLoop
    by_cases hlt : (x + n / x) / 2 < x
    · have hpos := newton_pos hn hx
      have hnext := lt_newton_succ_sq (n := n) hx
      rw [dif_pos hlt]
      set y := (x + n / x) / 2 with hy
      have hsum : y + n / y ≤ u256Max := by
        have hq := newton_quotient_le hnext
        have : 2 * (2 : Nat) ^ 128 + 2 ≤ u256Max := by decide
        omega
      rw [U256.div_eq (by omega), Fallible.ok_bind, U256.add_eq hsum, Fallible.ok_bind,
        U256.div_eq (by decide), Fallible.ok_bind]
      exact ih y hlt hpos (by omega) hnext
    · rw [dif_neg hlt]
      have hle : x * x ≤ n := (Nat.le_div_iff_mul_le hx).mp (by omega)
      exact congrArg Except.ok (Nat.eq_sqrt.mpr ⟨hle, by rwa [← Nat.pow_two]⟩)

theorem sqrt_succ_le {a : Nat} (ha : a < 2 ^ 128) : Nat.sqrt a + 1 ≤ 2 ^ 64 := by
  have : Nat.sqrt a < 2 ^ 64 := Nat.sqrt_lt'.mpr (lt_of_lt_of_eq ha (by decide))
  omega

/-- The square root of a product of two `u128`s, rounded down. -/
theorem isqrtOfProduct_eq {a b : Nat} (ha : a < 2 ^ 128) (hb : b < 2 ^ 128) :
    isqrtOfProduct a b = .ok (Nat.sqrt (a * b)) := by
  have hab : a * b ≤ u256Max :=
    le_trans (Nat.mul_le_mul (Nat.le_sub_one_of_lt ha) (Nat.le_sub_one_of_lt hb)) (by decide)
  unfold isqrtOfProduct
  rw [U256.mul_eq hab, Fallible.ok_bind]
  by_cases hsmall : a * b ≤ 1
  · rw [if_pos hsmall]
    rcases Nat.le_one_iff_eq_zero_or_eq_one.mp hsmall with h | h <;> rw [h]
    · rw [Nat.sqrt_zero]
      rfl
    · rw [Nat.sqrt_one]
      rfl
  · rw [if_neg hsmall]
    have hpos : 1 ≤ (Nat.sqrt a + 1) * (Nat.sqrt b + 1) := Nat.mul_pos (by omega) (by omega)
    have hmax : (Nat.sqrt a + 1) * (Nat.sqrt b + 1) ≤ 2 ^ 128 :=
      le_trans (Nat.mul_le_mul (sqrt_succ_le ha) (sqrt_succ_le hb)) (by decide)
    have habove : a * b < ((Nat.sqrt a + 1) * (Nat.sqrt b + 1) + 1) ^ 2 := by
      calc a * b ≤ (Nat.sqrt a + 1) ^ 2 * (Nat.sqrt b + 1) ^ 2 :=
            Nat.mul_le_mul (Nat.lt_succ_sqrt' a).le (Nat.lt_succ_sqrt' b).le
        _ = ((Nat.sqrt a + 1) * (Nat.sqrt b + 1)) ^ 2 := (Nat.mul_pow _ _ 2).symm
        _ < ((Nat.sqrt a + 1) * (Nat.sqrt b + 1) + 1) ^ 2 :=
            Nat.pow_lt_pow_left (Nat.lt_succ_self _) (by decide)
    have hq := newton_quotient_le habove
    rw [U256.mul_eq (le_trans hmax (by decide)), Fallible.ok_bind]
    generalize (Nat.sqrt a + 1) * (Nat.sqrt b + 1) = seed at hpos hmax habove hq
    have hsum : seed + a * b / seed ≤ u256Max := by
      have : 2 * (2 : Nat) ^ 128 + 2 ≤ u256Max := by decide
      omega
    rw [U256.div_eq (by omega), Fallible.ok_bind, U256.add_eq hsum, Fallible.ok_bind,
      U256.div_eq (by decide), Fallible.ok_bind]
    exact isqrtLoop_eq (by omega) seed hpos hmax habove

/-- **The root of a product.** Of any two `u128`s: the additions of the seed do not saturate, no
`U256` operation traps, and the loop, whose points only fall, ends at the one integer whose square
is the last not above the product. -/
theorem isqrtOfProduct_floor {a b : Nat} (ha : a < 2 ^ 128) (hb : b < 2 ^ 128) :
    Nat.sqrt a + 1 < 2 ^ 128 ∧ Nat.sqrt b + 1 < 2 ^ 128 ∧
      ∃ r, isqrtOfProduct a b = .ok r ∧ (r ^ 2 ≤ a * b ∧ a * b < (r + 1) ^ 2) ∧
        ∀ r', r' ^ 2 ≤ a * b → a * b < (r' + 1) ^ 2 → r' = r := by
  have hseed : ∀ n : Nat, n < 2 ^ 128 → Nat.sqrt n + 1 < 2 ^ 128 := fun n hn =>
    lt_of_le_of_lt (sqrt_succ_le hn) (by decide)
  refine ⟨hseed a ha, hseed b hb, Nat.sqrt (a * b), isqrtOfProduct_eq ha hb,
    ⟨Nat.sqrt_le' _, Nat.lt_succ_sqrt' _⟩, fun r' hle hlt => ?_⟩
  exact Nat.eq_sqrt'.mpr ⟨hle, hlt⟩

theorem isqrtOfProduct_floor_max :
    isqrtOfProduct (2 ^ 128 - 1) (2 ^ 128 - 1) = .ok (2 ^ 128 - 1) := by
  obtain ⟨-, -, r, hr, -, hunique⟩ :=
    isqrtOfProduct_floor (a := 2 ^ 128 - 1) (b := 2 ^ 128 - 1) (by decide) (by decide)
  rw [hr, hunique (2 ^ 128 - 1) (by decide) (by decide)]

theorem sqrt_mul_le {a b : Nat} (ha : a < 2 ^ 127) (hb : b < 2 ^ 127) :
    Nat.sqrt (a * b) ≤ 2 ^ 128 := by
  refine (Nat.sqrt_lt'.mpr (lt_of_le_of_lt (Nat.mul_le_mul ha.le hb.le) ?_)).le
  decide

theorem isqrtOfProduct_ok {a b : Nat} (ha : a < 2 ^ 127) (hb : b < 2 ^ 127) :
    ∃ r, isqrtOfProduct a b = .ok r ∧ r ≤ 2 ^ 128 :=
  ⟨_, isqrtOfProduct_eq (lt_trans ha (by decide)) (lt_trans hb (by decide)), sqrt_mul_le ha hb⟩

theorem tryMulDivHalfUp_lt {x y d r : Int} (h : FpCore.tryMulDivHalfUp x y d = some r) :
    0 ≤ r ∧ r.toNat < 2 ^ 127 := by
  obtain ⟨hx, hy, hd, rfl, hle⟩ := FpCore.tryMulDivHalfUp_some_iff.mp h
  have h0 : 0 ≤ Rounding.halfUpDiv (x * y) d :=
    Rounding.halfUpDiv_nonneg hd (mul_nonneg hx hy)
  refine ⟨h0, ?_⟩
  have : i128Max < 2 ^ 127 := by decide
  omega

theorem reserveValueWad_lt {leg : LpLeg} {v : Int} (h : reserveValueWad leg = .ok v) :
    v.toNat < 2 ^ 127 := by
  obtain ⟨denom, -, h⟩ := Fallible.bind_ok h
  exact (tryMulDivHalfUp_lt (Fallible.orThrow_ok_iff.mp h)).2

theorem fairShareSupplyWad_pos {supply : LpSupply} {v : Int}
    (h : fairShareSupplyWad supply = .ok v) : v.toNat ≠ 0 := by
  simp only [fairShareSupplyWad, Fallible.bind_ok_iff, Fallible.require_ok_iff,
    Fallible.pure_ok_iff] at h
  obtain ⟨w, -, -, hpos, rfl⟩ := h
  omega

/-- The constant-product price is a value or an `OracleError`. -/
theorem fairLpPriceWad_ok (a b : LpLeg) (supply : LpSupply) :
    ∃ r, fairLpPriceWad a b supply = ExceptT.mk (.ok r) := by
  unfold fairLpPriceWad
  cases hin : fairLpInputs a b supply with
  | error e => exact ⟨_, rfl⟩
  | ok v =>
    obtain ⟨va, vb⟩ := v
    simp only [fairLpInputs, Fallible.bind_ok_iff, Fallible.pure_ok_iff, Prod.mk.injEq] at hin
    obtain ⟨-, -, va', hva, vb', hvb, rfl, rfl⟩ := hin
    obtain ⟨root, hroot, hle⟩ :=
      isqrtOfProduct_ok (reserveValueWad_lt hva) (reserveValueWad_lt hvb)
    have h2 : root * 2 ≤ u256Max := le_trans (Nat.mul_le_mul_right 2 hle) (by decide)
    have hw : root * 2 * wad.toNat ≤ u256Max :=
      le_trans (Nat.mul_le_mul_right _ (Nat.mul_le_mul_right 2 hle)) (by decide)
    simp only [mk_ok_bind, hroot, lift_ok_bind, U256.mul_eq h2]
    cases hs : fairShareSupplyWad supply with
    | error e => exact ⟨_, rfl⟩
    | ok shares =>
      simp only [mk_ok_bind, U256.mul_eq hw, lift_ok_bind,
        U256.div_eq (fairShareSupplyWad_pos hs)]
      exact ⟨_, rfl⟩

/-- The quotient `dP` of a Newton step leaves room for `3 * dP` in a `U256`. -/
theorem stableDP_le {xs xl d : Nat} (hxs : 1 ≤ xs) (hle : xs ≤ xl) (hd2 : d ≤ 2 * (xs + xl))
    (hcube : d * d / (xs * nCoins) * d ≤ u256Max) :
    4 * (d * d / (xs * nCoins) * d / (xl * nCoins)) ≤ u256Max := by
  have hdiv := Nat.div_mul_le_self (d * d / (xs * nCoins) * d) (xl * nCoins)
  set dP := d * d / (xs * nCoins) * d / (xl * nCoins)
  unfold nCoins at hdiv hcube
  rcases Nat.lt_or_ge 1 xl with h1 | h1
  · have : dP * (2 * 2) ≤ dP * (xl * 2) := Nat.mul_le_mul_left dP (by omega)
    omega
  · -- both reserves are one, so every value is tiny
    have hxl : xl = 1 := by omega
    have hxs1 : xs = 1 := by omega
    subst hxl
    subst hxs1
    have hd4 : d ≤ 4 := by omega
    have hsq : d * d ≤ 16 := Nat.mul_le_mul hd4 hd4
    have hhalf : d * d / (1 * 2) ≤ 8 := by omega
    have : d * d / (1 * 2) * d ≤ 8 * 4 := Nat.mul_le_mul hhalf hd4
    have : (32 : Nat) * 4 ≤ u256Max := by decide
    omega

/-- The value a Newton step divides out stays within `[1, 2 * sum]`. -/
theorem stableD_quotient {sum ann d dP : Nat} (hsum : 2 ≤ sum) (hann : 2 ≤ ann) (hd : 1 ≤ d)
    (hd2 : d ≤ 2 * sum) (hone : d = 1 → dP = 0) :
    1 ≤ (ann * sum + 2 * dP) * d / ((ann - 1) * d + 3 * dP) ∧
      (ann * sum + 2 * dP) * d / ((ann - 1) * d + 3 * dP) ≤ 2 * sum := by
  obtain ⟨k, rfl⟩ : ∃ k, ann = k + 2 := ⟨ann - 2, by omega⟩
  have hk : k + 2 - 1 = k + 1 := by omega
  rw [hk]
  have hden : 0 < (k + 1) * d + 3 * dP := Nat.add_pos_left (Nat.mul_pos (by omega) hd) _
  constructor
  · rw [Nat.le_div_iff_mul_le hden]
    have hdP : 3 * dP ≤ 2 * dP * d + dP * (if d = 1 then 3 else 0) := by
      split
      · omega
      · have : dP * 2 ≤ dP * d := Nat.mul_le_mul_left dP (by omega)
        nlinarith
    have hdP' : 3 * dP ≤ 2 * dP * d := by
      by_cases h1 : d = 1
      · simp [hone h1]
      · simpa [h1] using hdP
    have hS : (k + 1) * d ≤ (k + 2) * sum * d := by
      refine Nat.mul_le_mul_right d ?_
      nlinarith
    nlinarith
  · refine Nat.div_le_of_le_mul ?_
    have h1 : 2 * dP * d ≤ 3 * dP * (2 * sum) := by
      have : dP * d ≤ dP * (2 * sum) := Nat.mul_le_mul_left dP hd2
      nlinarith
    have h2 : (k + 2) * sum * d ≤ (k + 1) * d * (2 * sum) := by
      have : (k + 2) * (sum * d) ≤ (2 * (k + 1)) * (sum * d) :=
        Nat.mul_le_mul_right _ (by omega)
      nlinarith
    nlinarith

/-- The part of a Newton step after `dP`. -/
theorem stableDStep_tail {sum ann d dP : Nat} (hsum : 2 ≤ sum) (hsumMax : sum ≤ 2 * 10 ^ 34)
    (hann : 2 ≤ ann) (hamp : ann ≤ 2_000_000) (hd : 1 ≤ d) (hd2 : d ≤ 2 * sum)
    (hdP : 4 * dP ≤ u256Max) :
    ann * sum ≤ u256Max ∧ 2 * dP ≤ u256Max ∧ ann * sum + 2 * dP ≤ u256Max ∧
      (ann - 1) * d ≤ u256Max ∧ 3 * dP ≤ u256Max ∧ (ann - 1) * d + 3 * dP ≤ u256Max ∧
      (ann - 1) * d + 3 * dP ≠ 0 := by
  have hannS : ann * sum ≤ 10 ^ 42 := le_trans (Nat.mul_le_mul hamp hsumMax) (by decide)
  have hannD : (ann - 1) * d ≤ 10 ^ 42 :=
    le_trans (Nat.mul_le_mul (show ann - 1 ≤ 2_000_000 by omega)
      (show d ≤ 4 * 10 ^ 34 by omega)) (by decide)
  have hroom : 4 * (10 : Nat) ^ 42 ≤ u256Max := by decide
  have hpos : 0 < (ann - 1) * d := Nat.mul_pos (by omega) hd
  generalize u256Max = top at hdP hroom ⊢
  omega

/-- The quotient `d_p` of a Newton step. -/
def stableDP (xs xl d : Nat) : Nat := d * d / (xs * nCoins) * d / (xl * nCoins)

/-- The Newton step from `d` in unbounded arithmetic. -/
def stableNewton (xs xl ann d : Nat) : Nat :=
  (ann * (xs + xl) + 2 * stableDP xs xl d) * d / ((ann - 1) * d + 3 * stableDP xs xl d)

/-- One of the two checked multiplications of the step from `d` overflows. -/
def StableOverflow (xs xl ann d : Nat) : Prop :=
  u256Max < d * d / (xs * nCoins) * d ∨
    u256Max < (ann * (xs + xl) + 2 * stableDP xs xl d) * d

instance (xs xl ann d : Nat) : Decidable (StableOverflow xs xl ann d) :=
  inferInstanceAs (Decidable (_ ∨ _))

/-- A Newton step within `[1, 2 * sum]`: only its two checked multiplications can fail. -/
theorem stableDStep_eq {xs xl ann d : Nat} (hxs : 1 ≤ xs) (hle : xs ≤ xl)
    (hxl : xl ≤ maxNormalizedReserveWad) (hann : 2 ≤ ann) (hamp : ann ≤ 2_000_000) (hd : 1 ≤ d)
    (hd2 : d ≤ 2 * (xs + xl)) :
    stableDStep xs xl (xs + xl) ann d =
      ExceptT.mk (.ok (if StableOverflow xs xl ann d then .error .invalidPrice
        else .ok (stableNewton xs xl ann d))) := by
  unfold maxNormalizedReserveWad at hxl
  have hdmax : d ≤ 4 * 10 ^ 34 := by omega
  have hsquare : d * d ≤ u256Max := le_trans (Nat.mul_le_mul hdmax hdmax) (by decide)
  have hxsn : xs * nCoins ≤ u256Max :=
    le_trans (Nat.mul_le_mul_right nCoins (le_trans hle hxl)) (by decide)
  have hxln : xl * nCoins ≤ u256Max := le_trans (Nat.mul_le_mul_right nCoins hxl) (by decide)
  have hxsn0 : xs * nCoins ≠ 0 := Nat.mul_ne_zero (by omega) (by decide)
  have hxln0 : xl * nCoins ≠ 0 := Nat.mul_ne_zero (by omega) (by decide)
  unfold stableDStep
  simp only [U256.mul_eq hsquare, U256.mul_eq hxsn, U256.div_eq hxsn0, lift_ok_bind]
  by_cases hcube : d * d / (xs * nCoins) * d ≤ u256Max
  · have hdP : 4 * stableDP xs xl d ≤ u256Max := stableDP_le hxs hle hd2 hcube
    simp only [U256.checkedMul_eq hcube, mk_ok_bind, U256.mul_eq hxln, U256.div_eq hxln0,
      lift_ok_bind]
    rw [show d * d / (xs * nCoins) * d / (xl * nCoins) = stableDP xs xl d from rfl]
    obtain ⟨hannS, hnDP, hfactor, hannD, hn1DP, hdenom, hdenom0⟩ :=
      stableDStep_tail (show 2 ≤ xs + xl by omega) (by omega) hann hamp hd hd2 hdP
    have hn1 : 2 + 1 ≤ u256Max := by decide
    have hiff : StableOverflow xs xl ann d ↔
        u256Max < (ann * (xs + xl) + 2 * stableDP xs xl d) * d :=
      or_iff_right (not_lt.mpr hcube)
    simp only [nCoins, U256.mul_eq hannS, U256.mul_eq hnDP, U256.add_eq hfactor, lift_ok_bind]
    by_cases hnum : (ann * (xs + xl) + 2 * stableDP xs xl d) * d ≤ u256Max
    · simp only [U256.checkedMul_eq hnum, mk_ok_bind, U256.sub_eq (show 1 ≤ ann by omega),
        U256.mul_eq hannD, U256.add_eq hn1, U256.mul_eq hn1DP, U256.add_eq hdenom,
        U256.div_eq hdenom0, lift_ok_bind]
      rw [if_neg (mt hiff.mp (not_lt.mpr hnum))]
      rfl
    · simp only [U256.checkedMul_overflow hnum, mk_error_bind]
      rw [if_pos (hiff.mpr (not_le.mp hnum))]
      rfl
  · simp only [U256.checkedMul_overflow hcube, mk_error_bind]
    rw [if_pos (.inl (not_le.mp hcube))]
    rfl

/-- A Newton step from within `[1, 2 * sum]` stays there. -/
theorem stableNewton_mem {xs xl ann d : Nat} (hxs : 1 ≤ xs) (hle : xs ≤ xl) (hann : 2 ≤ ann)
    (hd : 1 ≤ d) (hd2 : d ≤ 2 * (xs + xl)) :
    1 ≤ stableNewton xs xl ann d ∧ stableNewton xs xl ann d ≤ 2 * (xs + xl) := by
  refine stableD_quotient (by omega) hann hd hd2 ?_
  rintro rfl
  have : 1 * 1 / (xs * nCoins) = 0 := Nat.div_eq_of_lt (by unfold nCoins; omega)
  rw [stableDP, this, Nat.zero_mul, Nat.zero_div]

/-- The step from `d` moves by at most one: the exit test of the iteration. -/
def StableSettled (xs xl ann d : Nat) : Prop :=
  stableNewton xs xl ann d ≤ d + 1 ∧ d ≤ stableNewton xs xl ann d + 1

instance (xs xl ann d : Nat) : Decidable (StableSettled xs xl ann d) :=
  inferInstanceAs (Decidable (_ ∧ _))

/-- One round of the iteration. -/
theorem stableDLoop_succ {xs xl ann d : Nat} (hxs : 1 ≤ xs) (hle : xs ≤ xl)
    (hxl : xl ≤ maxNormalizedReserveWad) (hann : 2 ≤ ann) (hamp : ann ≤ 2_000_000) (hd : 1 ≤ d)
    (hd2 : d ≤ 2 * (xs + xl)) (fuel : Nat) :
    stableDLoop xs xl (xs + xl) ann (fuel + 1) d =
      if StableOverflow xs xl ann d then ExceptT.mk (.ok (.error .invalidPrice))
      else if StableSettled xs xl ann d then ExceptT.mk (.ok (.ok (stableNewton xs xl ann d)))
      else stableDLoop xs xl (xs + xl) ann fuel (stableNewton xs xl ann d) := by
  rw [stableDLoop, stableDStep_eq hxs hle hxl hann hamp hd hd2]
  by_cases hover : StableOverflow xs xl ann d
  · rw [if_pos hover, if_pos hover]
    exact mk_error_bind
  · rw [if_neg hover, if_neg hover]
    refine mk_ok_bind.trans ?_
    set next := stableNewton xs xl ann d with hnext
    by_cases hup : d ≤ next
    · have hiff : StableSettled xs xl ann d ↔ next - d ≤ 1 := by
        simp only [StableSettled, ← hnext]
        omega
      simp only [if_pos hup, U256.sub_eq hup, lift_ok_bind, hiff]
      rfl
    · have hiff : StableSettled xs xl ann d ↔ d - next ≤ 1 := by
        simp only [StableSettled, ← hnext]
        omega
      simp only [if_neg hup, U256.sub_eq (show next ≤ d by omega), lift_ok_bind, hiff]
      rfl

theorem stableDLoop_ok {xs xl ann : Nat} (hxs : 1 ≤ xs) (hle : xs ≤ xl)
    (hxl : xl ≤ maxNormalizedReserveWad) (hann : 2 ≤ ann) (hamp : ann ≤ 2_000_000) (fuel d : Nat)
    (hd : 1 ≤ d) (hd2 : d ≤ 2 * (xs + xl)) :
    ∃ r, stableDLoop xs xl (xs + xl) ann fuel d = ExceptT.mk (.ok r) ∧
      ∀ d', r = .ok d' → d' ≤ 2 * (xs + xl) := by
  induction fuel generalizing d with
  | zero => exact ⟨.error .invalidPrice, rfl, nofun⟩
  | succ fuel ih =>
    obtain ⟨h1, h2⟩ := stableNewton_mem hxs hle hann hd hd2
    rw [stableDLoop_succ hxs hle hxl hann hamp hd hd2]
    split
    · exact ⟨.error .invalidPrice, rfl, nofun⟩
    · split
      · refine ⟨.ok _, rfl, ?_⟩
        rintro d' h
        cases h
        exact h2
      · exact ih _ h1 h2

/-- On admitted inputs the solver is the iteration from the sum of the reserves. -/
theorem solveStableD_eq {xaWad xbWad : Int} {amp : Nat}
    (ha : 0 < xaWad ∧ xaWad ≤ maxNormalizedReserveWad)
    (hb : 0 < xbWad ∧ xbWad ≤ maxNormalizedReserveWad) (hamp : minAmp ≤ amp ∧ amp ≤ maxAmp) :
    solveStableD xaWad xbWad amp =
      stableDLoop (min xaWad xbWad).toNat (max xaWad xbWad).toNat
        ((min xaWad xbWad).toNat + (max xaWad xbWad).toNat) (amp * nCoins) maxDIterations
        ((min xaWad xbWad).toNat + (max xaWad xbWad).toNat) := by
  have hgood : ¬ (xaWad ≤ 0 ∨ xbWad ≤ 0 ∨ ¬ (minAmp ≤ amp ∧ amp ≤ maxAmp) ∨
      maxNormalizedReserveWad < xaWad.toNat ∨ maxNormalizedReserveWad < xbWad.toNat) := by
    omega
  have hsum : (min xaWad xbWad).toNat + (max xaWad xbWad).toNat ≤ 2 * 10 ^ 34 := by
    unfold maxNormalizedReserveWad at ha hb
    omega
  have hsumMax : (min xaWad xbWad).toNat + (max xaWad xbWad).toNat ≤ u256Max :=
    le_trans hsum (by decide)
  have hampMax : amp * nCoins ≤ u256Max := by
    have : (1_000_000 : Nat) * 2 ≤ u256Max := by decide
    unfold maxAmp at hamp
    unfold nCoins
    omega
  unfold solveStableD
  rw [if_neg hgood]
  simp only [U256.add_eq hsumMax, U256.mul_eq hampMax, lift_ok_bind]

/-- The sizes the iteration starts with on admitted inputs. -/
theorem solveStableD_sizes {xaWad xbWad : Int} {amp : Nat}
    (ha : 0 < xaWad ∧ xaWad ≤ maxNormalizedReserveWad)
    (hb : 0 < xbWad ∧ xbWad ≤ maxNormalizedReserveWad) (hamp : minAmp ≤ amp ∧ amp ≤ maxAmp) :
    1 ≤ (min xaWad xbWad).toNat ∧ (min xaWad xbWad).toNat ≤ (max xaWad xbWad).toNat ∧
      (max xaWad xbWad).toNat ≤ maxNormalizedReserveWad ∧ 2 ≤ amp * nCoins ∧
      amp * nCoins ≤ 2_000_000 := by
  unfold minAmp maxAmp at hamp
  unfold nCoins
  omega

theorem solveStableD_ok (xaWad xbWad : Int) (amp : Nat) :
    ∃ r, solveStableD xaWad xbWad amp = ExceptT.mk (.ok r) ∧
      ∀ d, r = .ok d → d ≤ 4 * 10 ^ 34 := by
  by_cases hbad : xaWad ≤ 0 ∨ xbWad ≤ 0 ∨ ¬ (minAmp ≤ amp ∧ amp ≤ maxAmp) ∨
      maxNormalizedReserveWad < xaWad.toNat ∨ maxNormalizedReserveWad < xbWad.toNat
  · unfold solveStableD
    rw [if_pos hbad]
    exact ⟨.error .invalidPrice, rfl, nofun⟩
  · have ha : 0 < xaWad ∧ xaWad ≤ maxNormalizedReserveWad := by omega
    have hb : 0 < xbWad ∧ xbWad ≤ maxNormalizedReserveWad := by omega
    have hamp : minAmp ≤ amp ∧ amp ≤ maxAmp := by tauto
    obtain ⟨hxs, hle, hxl, hann, hannMax⟩ := solveStableD_sizes ha hb hamp
    obtain ⟨r, hr, hmax⟩ := stableDLoop_ok hxs hle hxl hann hannMax maxDIterations
      ((min xaWad xbWad).toNat + (max xaWad xbWad).toNat) (by omega) (by omega)
    refine ⟨r, (solveStableD_eq ha hb hamp).trans hr, fun d h => ?_⟩
    have := hmax d h
    unfold maxNormalizedReserveWad at hxl
    omega

/-- The stable price is a value or an `OracleError`. -/
theorem fairStableLpPriceWad_ok (a b : LpLeg) (supply : LpSupply) (amp : Nat)
    (ha : InI128 a.priceWad) :
    ∃ r, fairStableLpPriceWad a b supply amp = ExceptT.mk (.ok r) := by
  unfold fairStableLpPriceWad
  cases hin : fairStableInputs a b supply with
  | error e => exact ⟨_, rfl⟩
  | ok v =>
    obtain ⟨xa, xb⟩ := v
    obtain ⟨r, hr, hle⟩ := solveStableD_ok xa xb amp
    simp only [mk_ok_bind, hr]
    cases r with
    | error e => exact ⟨_, rfl⟩
    | ok d =>
      have hprice : (min a.priceWad b.priceWad).toNat ≤ 2 ^ 127 := by
        have := ha.2
        have : i128Max ≤ 2 ^ 127 := by decide
        omega
      have hscaled : d * (min a.priceWad b.priceWad).toNat ≤ u256Max :=
        le_trans (Nat.mul_le_mul (hle d rfl) hprice) (by decide)
      cases hs : fairShareSupplyWad supply with
      | error e => exact ⟨.error e, rfl⟩
      | ok shares =>
        refine ⟨orThrow (tryU256ToI128
          (d * (min a.priceWad b.priceWad).toNat / shares.toNat)) .invalidPrice, ?_⟩
        change (liftM (U256.mul d (min a.priceWad b.priceWad).toNat) >>= _ :
          ExceptT OracleError (Except Panic) Int) = _
        simp only [U256.mul_eq hscaled, lift_ok_bind, U256.div_eq (fairShareSupplyWad_pos hs)]
        rfl

/-! ## The errors of the prices -/

/-- Its only trap is the host's. -/
def HostTraps {α : Type} (x : Except Panic α) : Prop := ∀ e, x = .error e → e = .hostTrap

namespace HostTraps

variable {α β : Type}

theorem pure {a : α} : HostTraps (pure a : Except Panic α) := nofun

theorem require {c : Prop} [Decidable c] : HostTraps (Fallible.require c Panic.hostTrap) :=
  fun _ h => (Fallible.require_error_iff.mp h).2.symm

theorem bind {x : Except Panic α} {f : α → Except Panic β} (hx : HostTraps x)
    (hf : ∀ a, HostTraps (f a)) : HostTraps (x >>= f) := by
  intro e h
  rcases Fallible.bind_error_iff.mp h with h | ⟨a, -, h⟩
  · exact hx e h
  · exact hf a e h

theorem add (a b : Nat) : HostTraps (U256.add a b) := bind require fun _ => pure

theorem mul (a b : Nat) : HostTraps (U256.mul a b) := bind require fun _ => pure

theorem sub (a b : Nat) : HostTraps (U256.sub a b) := bind require fun _ => pure

theorem div (a b : Nat) : HostTraps (U256.div a b) := bind require fun _ => pure

theorem isqrtLoop (n x y : Nat) : HostTraps (isqrtLoop n x y) := by
  induction x using Nat.strong_induction_on generalizing y with
  | _ x ih =>
    unfold PriceAggregator.isqrtLoop
    split
    · rename_i hlt
      exact bind (div n y) fun _ => bind (add y _) fun _ => bind (div _ 2) fun _ => ih y hlt _
    · exact pure

theorem isqrtOfProduct (a b : Nat) : HostTraps (isqrtOfProduct a b) := by
  unfold PriceAggregator.isqrtOfProduct
  refine bind (mul a b) fun n => ?_
  split
  · exact pure
  · exact bind (mul _ _) fun _ => bind (div _ _) fun _ => bind (add _ _) fun _ =>
      bind (div _ _) fun _ => isqrtLoop _ _ _

end HostTraps

/-- The traps are in `T` and the errors carried as data in `E`. -/
def ErrorsIn {α : Type} (T : Panic → Prop) (E : OracleError → Prop)
    (x : ExceptT OracleError (Except Panic) α) : Prop :=
  (∀ e, x.run = .error e → T e) ∧ ∀ e, x.run = .ok (.error e) → E e

namespace ErrorsIn

variable {α β : Type} {T T' : Panic → Prop} {E E' : OracleError → Prop}

theorem pure {a : α} : ErrorsIn T E (pure a) := ⟨nofun, nofun⟩

theorem throw {e : OracleError} (h : E e) :
    ErrorsIn T E (throw e : ExceptT OracleError (Except Panic) α) := by
  refine ⟨nofun, ?_⟩
  rintro _ ⟨⟩
  exact h

theorem host {x : Except Panic α} (h : ∀ e, x = .error e → T e) : ErrorsIn T E (liftM x) := by
  cases x with
  | ok a => exact pure
  | error e =>
    refine ⟨?_, nofun⟩
    rintro _ ⟨⟩
    exact h e rfl

theorem data {x : Except OracleError α} (h : ∀ e, x = .error e → E e) :
    ErrorsIn T E (ExceptT.mk (Pure.pure x)) := by
  refine ⟨nofun, ?_⟩
  intro e he
  cases he
  exact h e rfl

theorem bind {x : ExceptT OracleError (Except Panic) α}
    {f : α → ExceptT OracleError (Except Panic) β} (hx : ErrorsIn T E x)
    (hf : ∀ a, ErrorsIn T E (f a)) : ErrorsIn T E (x >>= f) := by
  rcases hrun : x.run with e | (e | a)
  · have heq : (x >>= f).run = .error e := by
      change (x.run >>= _) = _
      rw [hrun]
      rfl
    refine ⟨?_, ?_⟩ <;> rw [heq]
    · rintro _ ⟨⟩
      exact hx.1 e hrun
    · exact nofun
  · have heq : (x >>= f).run = .ok (.error e) := by
      change (x.run >>= _) = _
      rw [hrun]
      rfl
    refine ⟨?_, ?_⟩ <;> rw [heq]
    · exact nofun
    · rintro _ ⟨⟩
      exact hx.2 e hrun
  · have heq : (x >>= f).run = (f a).run := by
      change (x.run >>= _) = _
      rw [hrun]
      rfl
    refine ⟨?_, ?_⟩ <;> rw [heq]
    · exact (hf a).1
    · exact (hf a).2

theorem mono {x : ExceptT OracleError (Except Panic) α} (h : ErrorsIn T E x)
    (hT : ∀ e, T e → T' e) (hE : ∀ e, E e → E' e) : ErrorsIn T' E' x :=
  ⟨fun e he => hT e (h.1 e he), fun e he => hE e (h.2 e he)⟩

end ErrorsIn

/-- The only trap is the host's, the only error `InvalidPrice`. -/
abbrev PriceErrors {α : Type} (x : ExceptT OracleError (Except Panic) α) : Prop :=
  ErrorsIn (· = .hostTrap) (· = .invalidPrice) x

theorem HostTraps.errors {α : Type} {x : Except Panic α} (h : HostTraps x) :
    PriceErrors (liftM x) :=
  .host h

theorem orThrow_errors {α : Type} {o : Option α} :
    PriceErrors (ExceptT.mk (pure (orThrow o OracleError.invalidPrice))) :=
  .data fun _ h => (Fallible.orThrow_error_iff.mp h).2.symm

theorem reserveValueWad_error {leg : LpLeg} {e : OracleError}
    (h : reserveValueWad leg = .error e) : e = .invalidPrice := by
  simp only [reserveValueWad, Fallible.bind_error_iff, Fallible.orThrow_error_iff] at h
  rcases h with ⟨-, rfl⟩ | ⟨-, -, -, rfl⟩ <;> rfl

theorem tryAmountToWad_error {amount : Int} {decimals : Nat} {e : OracleError}
    (h : tryAmountToWad amount decimals = .error e) : e = .invalidPrice := by
  simp only [tryAmountToWad, Fallible.bind_error_iff, Fallible.orThrow_error_iff] at h
  rcases h with ⟨-, rfl⟩ | ⟨-, -, -, rfl⟩ <;> rfl

theorem fairLpInputs_error {a b : LpLeg} {supply : LpSupply} {e : OracleError}
    (h : fairLpInputs a b supply = .error e) : e = .invalidPrice := by
  simp only [fairLpInputs, Fallible.bind_error_iff, Fallible.require_error_iff] at h
  rcases h with ⟨-, rfl⟩ | ⟨_, _, h | ⟨_, _, h | ⟨_, _, h⟩⟩⟩
  · rfl
  · exact reserveValueWad_error h
  · exact reserveValueWad_error h
  · cases h

theorem fairStableInputs_error {a b : LpLeg} {supply : LpSupply} {e : OracleError}
    (h : fairStableInputs a b supply = .error e) : e = .invalidPrice := by
  simp only [fairStableInputs, Fallible.bind_error_iff, Fallible.require_error_iff] at h
  rcases h with ⟨-, rfl⟩ | ⟨_, _, h | ⟨_, _, h | ⟨_, _, h⟩⟩⟩
  · rfl
  · exact tryAmountToWad_error h
  · exact tryAmountToWad_error h
  · cases h

theorem fairShareSupplyWad_error {supply : LpSupply} {e : OracleError}
    (h : fairShareSupplyWad supply = .error e) : e = .invalidPrice := by
  simp only [fairShareSupplyWad, Fallible.bind_error_iff, Fallible.require_error_iff] at h
  rcases h with h | ⟨_, _, ⟨_, rfl⟩ | ⟨_, _, h⟩⟩
  · exact tryAmountToWad_error h
  · rfl
  · cases h

theorem fairLpPriceWad_errors (a b : LpLeg) (supply : LpSupply) :
    PriceErrors (fairLpPriceWad a b supply) := by
  refine .bind (.data fun _ => fairLpInputs_error) ?_
  rintro ⟨va, vb⟩
  refine .bind (HostTraps.isqrtOfProduct _ _).errors fun root =>
    .bind (HostTraps.mul _ _).errors fun total => ?_
  refine .bind (.data fun _ => fairShareSupplyWad_error) fun shares => ?_
  exact .bind (HostTraps.mul _ _).errors fun _ =>
    .bind (HostTraps.div _ _).errors fun _ => orThrow_errors

theorem stableDStep_errors (xs xl sum ann d : Nat) :
    PriceErrors (stableDStep xs xl sum ann d) := by
  unfold stableDStep
  refine .bind (HostTraps.mul _ _).errors fun _ => .bind (HostTraps.mul _ _).errors fun _ =>
    .bind (HostTraps.div _ _).errors fun _ => .bind orThrow_errors fun _ => ?_
  refine .bind (HostTraps.mul _ _).errors fun _ => .bind (HostTraps.div _ _).errors fun _ =>
    .bind (HostTraps.mul _ _).errors fun _ => .bind (HostTraps.mul _ _).errors fun _ =>
    .bind (HostTraps.add _ _).errors fun _ => .bind orThrow_errors fun _ => ?_
  exact .bind (HostTraps.sub _ _).errors fun _ => .bind (HostTraps.mul _ _).errors fun _ =>
    .bind (HostTraps.add _ _).errors fun _ => .bind (HostTraps.mul _ _).errors fun _ =>
    .bind (HostTraps.add _ _).errors fun _ => (HostTraps.div _ _).errors

theorem stableDLoop_errors (xs xl sum ann fuel : Nat) :
    ∀ d, PriceErrors (stableDLoop xs xl sum ann fuel d) := by
  induction fuel with
  | zero => exact fun _ => .throw rfl
  | succ fuel ih =>
    intro d
    refine .bind (stableDStep_errors _ _ _ _ _) fun next => ?_
    split
    all_goals
      refine .bind (HostTraps.sub _ _).errors fun distance => ?_
      dsimp only
      split
      · exact .pure
      · exact ih next

theorem fairStableLpPriceWad_errors (a b : LpLeg) (supply : LpSupply) (amp : Nat) :
    PriceErrors (fairStableLpPriceWad a b supply amp) := by
  refine .bind (.data fun _ => fairStableInputs_error) ?_
  rintro ⟨xa, xb⟩
  refine .bind ?_ fun d => .bind (.data fun _ => fairShareSupplyWad_error) fun shares =>
    .bind (HostTraps.mul _ _).errors fun _ =>
      .bind (HostTraps.div _ _).errors fun _ => orThrow_errors
  unfold solveStableD
  split
  · exact .throw rfl
  · exact .bind (HostTraps.add _ _).errors fun _ => .bind (HostTraps.mul _ _).errors fun _ =>
      stableDLoop_errors _ _ _ _ _ _

end Lending.PriceAggregator
