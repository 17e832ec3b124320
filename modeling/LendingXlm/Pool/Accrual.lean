import LendingXlm.Pool.Market

/-!
# When accrual returns

Every exit of a market starts with a sync, so a sync that traps locks the market. For a sound
market whose supplied and debt values stay below `2^126`, every step of an accrual chunk returns
but one: the utilization, a half-up quotient of the debt value by the supplied value that is
capped at one only after it was computed, and that overflows when the supply is dust against the
debt.

* `calculateBorrowRate_total`, `compoundInterest_total`: the rate and the growth factor;
* `accrueStep_ok_iff`: an accrual step returns exactly when the utilization fits an `i128`;
* `accrual_returns_iff`: so a sync returns exactly when it fits at the start of every chunk.
-/

namespace Lending

open FpCore Rounding Ops

/-! ## The rate -/

section
variable {params : MarketParams} {util : Int}

/-- The share of a segment's slope is at most the slope plus rounding. -/
theorem segment_total (u slope range : Int) (hu : 0 ≤ u) (hur : u ≤ range) (hr : 0 < range)
    (hrr : range ≤ ray) (hs : 0 ≤ slope) (hsm : slope ≤ maxBorrowRateRay) :
    ∃ m c, Ray.mul u slope = .ok m ∧ Ray.div m range = .ok c ∧ 0 ≤ c ∧ c ≤ slope + ray := by
  set m := halfUpDiv (u * slope) ray
  have hm0 : 0 ≤ m := halfUpDiv_nonneg ray_pos (mul_nonneg hu hs)
  have hm := halfUpDiv_mul_le (u * slope) ray_pos
  have hus : u * slope ≤ range * slope := mul_le_mul_of_nonneg_right hur hs
  set c := halfUpDiv (m * ray) range
  have hc0 : 0 ≤ c := halfUpDiv_nonneg hr (mul_nonneg hm0 ray_pos.le)
  have hc := halfUpDiv_mul_le (m * ray) hr
  have hcle : c ≤ slope + ray := by
    by_contra hlt
    have h1 : (slope + ray + 1) * range ≤ c * range := mul_le_mul_of_nonneg_right (by omega) hr.le
    have h2 : ray ≤ ray * range := le_mul_of_one_le_right ray_pos.le hr
    linarith
  have hmle : m ≤ slope + ray := by
    by_contra hlt
    have h1 : (slope + ray + 1) * ray ≤ m * ray :=
      mul_le_mul_of_nonneg_right (by omega) ray_pos.le
    have h2 : range * slope ≤ ray * slope := mul_le_mul_of_nonneg_right hrr hs
    have h3 := mul_pos ray_pos ray_pos
    linarith
  have hbig : maxBorrowRateRay + ray ≤ i128Max := by decide
  refine ⟨m, c, Ray.mul_ok_iff.mpr ⟨hu, hs, rfl, by omega⟩,
    Ray.div_ok_iff.mpr ⟨hm0, hr, rfl, by omega⟩, hc0, hcle⟩

theorem checkedAdd_total {a b bound : Int} (ha : 0 ≤ a) (hb : 0 ≤ b) (h : a + b ≤ bound)
    (hbound : bound ≤ i128Max) : Ray.checkedAdd a b = .ok (a + b) :=
  Ray.checkedAdd_ok_iff.mpr ⟨inI128_of_nonneg (by omega) (by omega), rfl⟩

/-- A verified curve has a rate at every utilization. -/
theorem calculateAnnualBorrowRate_total (hp : params.Verified) (hu : 0 ≤ util) :
    ∃ rate, calculateAnnualBorrowRate util params = .ok rate := by
  have hb0 := hp.base_nonneg
  have h1 := hp.base_le_slope1
  have h2 := hp.slope1_le_slope2
  have h3 := hp.slope2_le_slope3
  have h4 := hp.slope3_le_max
  have hmax := hp.max_le
  have hmid := hp.mid_pos
  have hmo := hp.mid_lt_optimal
  have hor := hp.optimal_lt_ray
  have hbig : 4 * maxBorrowRateRay + ray ≤ i128Max := by decide
  have hray := ray_pos
  unfold calculateAnnualBorrowRate
  set u := if util > Ray.one then Ray.one else util with hudef
  have hu0 : 0 ≤ u := by
    rw [hudef]
    split
    · exact ray_pos.le
    · exact hu
  have hur : u ≤ ray := by
    rw [hudef]
    split
    · exact le_rfl
    · exact not_lt.mp ‹_›
  clear_value u
  dsimp only
  split
  · obtain ⟨m, c, hm, hc, hc0, hcle⟩ := segment_total u params.slope1
      params.midUtilization hu0 (by omega) hmid (by omega) (by omega) (by omega)
    rw [hm, Fallible.ok_bind, hc, Fallible.ok_bind,
      checkedAdd_total hb0 hc0 (by omega : _ ≤ 4 * maxBorrowRateRay + ray) hbig]
    exact ⟨_, rfl⟩
  · split
    · obtain ⟨m, c, hm, hc, hc0, hcle⟩ := segment_total (u - params.midUtilization)
        params.slope2 (params.optimalUtilization - params.midUtilization)
        (by omega) (by omega) (by omega) (by omega) (by omega) (by omega)
      rw [Ray.checkedSub_ok_iff.mpr ⟨hu0, hmid.le, by omega, rfl⟩, Fallible.ok_bind,
        Ray.checkedSub_ok_iff.mpr ⟨by omega, hmid.le, hmo.le, rfl⟩, Fallible.ok_bind, hm,
        Fallible.ok_bind, hc, Fallible.ok_bind,
        checkedAdd_total hb0 (by omega) (by omega : _ ≤ 4 * maxBorrowRateRay + ray) hbig,
        Fallible.ok_bind,
        checkedAdd_total (by omega) hc0 (by omega : _ ≤ 4 * maxBorrowRateRay + ray) hbig]
      exact ⟨_, rfl⟩
    · obtain ⟨m, c, hm, hc, hc0, hcle⟩ := segment_total (u - params.optimalUtilization)
        params.slope3 (ray - params.optimalUtilization)
        (by omega) (by omega) (by omega) (by omega) (by omega) (by omega)
      rw [checkedAdd_total hb0 (by omega) (by omega : _ ≤ 4 * maxBorrowRateRay + ray) hbig,
        Fallible.ok_bind,
        checkedAdd_total (by omega) (by omega) (by omega : _ ≤ 4 * maxBorrowRateRay + ray) hbig,
        Fallible.ok_bind, Ray.checkedSub_ok_iff.mpr ⟨hu0, by omega, by omega, rfl⟩,
        Fallible.ok_bind, Ray.one,
        Ray.checkedSub_ok_iff.mpr ⟨ray_pos.le, by omega, hor.le, rfl⟩, Fallible.ok_bind, hm,
        Fallible.ok_bind, hc, Fallible.ok_bind,
        checkedAdd_total (by omega) hc0 (by omega : _ ≤ 4 * maxBorrowRateRay + ray) hbig]
      exact ⟨_, rfl⟩

/-- The per-millisecond rate compounds to at most three over a year. -/
theorem calculateBorrowRate_total (hp : params.Verified) (hu : 0 ≤ util) :
    ∃ rate, calculateBorrowRate util params = .ok rate ∧ 0 ≤ rate ∧
      rate * millisecondsPerYear ≤ 3 * ray := by
  obtain ⟨annual, ha⟩ := calculateAnnualBorrowRate_total hp hu
  obtain ⟨ha0, hale⟩ := calculateAnnualBorrowRate_bounds hp ha
  have hmax := hp.max_le
  have hy : (0 : Int) < (millisecondsPerYear : Int) := by decide
  refine ⟨halfUpDiv annual millisecondsPerYear, ?_, halfUpDiv_nonneg hy ha0, ?_⟩
  · unfold calculateBorrowRate
    rw [ha, Fallible.ok_bind, Ray.divByInt_eq ha0 hy]
  · have h := halfUpDiv_mul_le annual hy
    have hsmall : (millisecondsPerYear : Int) ≤ ray := by decide
    have hcap : maxBorrowRateRay = 2 * ray := rfl
    omega

end

/-! ## The growth factor -/

/-- One Taylor term on bounded operands: with `x` at most three, the power grows at most
threefold and the sum by the power's share. -/
theorem taylorTerm_total {x : Int} (acc : Int × Int) (p s t divisor : Int) (hx0 : 0 ≤ x)
    (hx : x ≤ 3 * ray) (hd : 0 < divisor) (hp0 : 0 ≤ acc.2) (hp : acc.2 ≤ p * ray)
    (hs0 : 0 ≤ acc.1) (hs : acc.1 ≤ s * ray) (ht : 3 * p ≤ t * divisor)
    (hpm : 3 * p * ray ≤ i128Max) (hsm : (s + t) * ray ≤ i128Max) :
    ∃ acc', taylorTerm x acc divisor = .ok acc' ∧ 0 ≤ acc'.2 ∧ acc'.2 ≤ 3 * p * ray ∧
      0 ≤ acc'.1 ∧ acc'.1 ≤ (s + t) * ray := by
  set pow := halfUpDiv (acc.2 * x) ray
  have hpow0 : 0 ≤ pow := halfUpDiv_nonneg ray_pos (mul_nonneg hp0 hx0)
  have hpow : pow ≤ 3 * p * ray := by
    calc pow ≤ halfUpDiv (3 * p * ray * ray) ray := by
          refine halfUpDiv_mono ray_pos ?_
          calc acc.2 * x ≤ p * ray * (3 * ray) :=
                mul_le_mul hp hx hx0 (hp0.trans hp)
            _ = 3 * p * ray * ray := by ring
      _ = 3 * p * ray := halfUpDiv_mul_self _ ray_pos
  set term := halfUpDiv pow divisor
  have hterm0 : 0 ≤ term := halfUpDiv_nonneg hd hpow0
  have hterm : term ≤ t * ray := by
    calc term ≤ halfUpDiv (t * ray * divisor) divisor := by
          refine halfUpDiv_mono hd (hpow.trans ?_)
          calc 3 * p * ray ≤ t * divisor * ray := mul_le_mul_of_nonneg_right ht ray_pos.le
            _ = t * ray * divisor := by ring
      _ = t * ray := halfUpDiv_mul_self _ hd
  have hsum : acc.1 + term ≤ (s + t) * ray := by linarith
  refine ⟨(acc.1 + term, pow), ?_, hpow0, hpow, add_nonneg hs0 hterm0, hsum⟩
  unfold taylorTerm
  rw [Ray.mul_ok_iff.mpr ⟨hp0, hx0, rfl, by omega⟩, Fallible.ok_bind,
    Ray.divByInt_eq hpow0 hd, Fallible.ok_bind,
    Ray.checkedAdd_ok_iff.mpr ⟨inI128_of_nonneg (add_nonneg hs0 hterm0) (by omega), rfl⟩]
  rfl

/-- The growth factor of a chunk exists and is at most 25. -/
theorem compoundInterest_total {rate : Int} {deltaMs : Nat} (hrate : 0 ≤ rate)
    (hyear : rate * millisecondsPerYear ≤ 3 * ray) (hdelta : deltaMs ≤ maxCompoundDeltaMs) :
    ∃ factor, compoundInterest rate deltaMs = .ok factor ∧ factor ≤ 25 * ray := by
  unfold compoundInterest
  split
  · exact ⟨Ray.one, rfl, by decide⟩
  set x := rate * (deltaMs : Int)
  have hx0 : 0 ≤ x := mul_nonneg hrate (by positivity)
  have hx : x ≤ 3 * ray := by
    refine le_trans (mul_le_mul_of_nonneg_left ?_ hrate) hyear
    exact_mod_cast hdelta
  have hray := ray_pos
  have hbig : 6561 * ray ≤ i128Max := by decide
  rw [toI128_ok_iff.mpr ⟨inI128_of_nonneg hx0 (by omega), rfl⟩, Fallible.ok_bind,
    show Ray.one = ray from rfl,
    Ray.checkedAdd_ok_iff.mpr ⟨inI128_of_nonneg (by omega) (by omega), rfl⟩, Fallible.ok_bind]
  -- The seven terms add at most 5, 5, 4, 3, 2, 1 and 1 to the first two, which are at most 4.
  obtain ⟨a1, e1, p1, q1, r1, s1⟩ := taylorTerm_total (ray + x, x) 3 4 5 2 hx0 hx
    (by decide) hx0 hx (by dsimp only; omega) (by dsimp only; omega) (by decide) (by omega) (by omega)
  obtain ⟨a2, e2, p2, q2, r2, s2⟩ := taylorTerm_total a1 9 9 5 6 hx0 hx (by decide) p1 q1 r1 s1
    (by decide) (by omega) (by omega)
  obtain ⟨a3, e3, p3, q3, r3, s3⟩ := taylorTerm_total a2 27 14 4 24 hx0 hx (by decide) p2 q2 r2 s2
    (by decide) (by omega) (by omega)
  obtain ⟨a4, e4, p4, q4, r4, s4⟩ := taylorTerm_total a3 81 18 3 120 hx0 hx (by decide) p3 q3 r3 s3
    (by decide) (by omega) (by omega)
  obtain ⟨a5, e5, p5, q5, r5, s5⟩ := taylorTerm_total a4 243 21 2 720 hx0 hx (by decide) p4 q4 r4 s4
    (by decide) (by omega) (by omega)
  obtain ⟨a6, e6, p6, q6, r6, s6⟩ := taylorTerm_total a5 729 23 1 5040 hx0 hx (by decide) p5 q5 r5 s5
    (by decide) (by omega) (by omega)
  obtain ⟨a7, e7, -, -, -, s7⟩ := taylorTerm_total a6 2187 24 1 40320 hx0 hx (by decide) p6 q6 r6 s6
    (by decide) (by omega) (by omega)
  refine ⟨a7.1, ?_, s7⟩
  simp only [taylorDivisors, List.foldlM_cons, List.foldlM_nil, e1, e2, e3, e4, e5, e6, e7,
    Fallible.ok_bind]
  rfl

/-! ## One step -/

/-- The bound on market values under which only the utilization can overflow. -/
def valueBound : Int := 2 ^ 126

section
variable {params : MarketParams} {borrowed supplied borrowIndex supplyIndex : Int} {deltaMs : Nat}

/-- The half-up utilization of the given values is an `i128`; an empty market has none. -/
def UtilizationFits (borrowedValue suppliedValue : Int) : Prop :=
  suppliedValue = 0 ∨ halfUpDiv (borrowedValue * ray) suppliedValue ≤ i128Max

instance (b s : Int) : Decidable (UtilizationFits b s) := inferInstanceAs (Decidable (_ ∨ _))

theorem utilization_ok_iff {b s r : Int} (hb : 0 ≤ b) (hs : 0 ≤ s) :
    utilization b s = .ok r ↔
      UtilizationFits b s ∧ r = if s = 0 then 0 else halfUpDiv (b * ray) s := by
  unfold utilization UtilizationFits
  by_cases hz : s = 0
  · simp only [hz, Ray.zero, if_true, Fallible.pure_ok_iff, true_or, true_and]
    exact eq_comm
  · simp only [Ray.zero, hz, if_false, Ray.div_ok_iff, false_or, hb, true_and]
    have : 0 < s := lt_of_le_of_ne hs (Ne.symm hz)
    simp only [this, true_and]
    constructor
    · rintro ⟨rfl, h⟩
      exact ⟨h, rfl⟩
    · rintro ⟨h, rfl⟩
      exact ⟨rfl, h⟩

/-- The borrow index a chunk compounds to, from the state before it. -/
def compoundedBorrowIndex (params : MarketParams) (borrowed supplied borrowIndex supplyIndex : Int)
    (deltaMs : Nat) : Result Int := do
  let borrowedOriginal ← scaledToOriginal borrowed borrowIndex
  let suppliedOriginal ← scaledToOriginal supplied supplyIndex
  let util ← utilization borrowedOriginal suppliedOriginal
  let borrowRate ← calculateBorrowRate util params
  let interestFactor ← compoundInterest borrowRate deltaMs
  updateBorrowIndex borrowIndex interestFactor

theorem scaledToOriginal_total {shares index : Int} (hs : 0 ≤ shares) (hi : 0 ≤ index)
    (h : valueOf shares index < valueBound) :
    scaledToOriginal shares index = .ok (valueOf shares index) :=
  Ray.mul_ok_iff.mpr ⟨hs, hi, rfl, by
    have : valueBound ≤ i128Max := by decide
    omega⟩

/-- Compounding returns exactly when the utilization fits. -/
theorem compoundedBorrowIndex_ok_iff (hp : params.Verified) (hb : 0 ≤ borrowed)
    (hs : 0 ≤ supplied) (hbi : 0 ≤ borrowIndex) (hbc : borrowIndex ≤ maxBorrowIndexRay)
    (hsi : 0 ≤ supplyIndex) (hvb : valueOf borrowed borrowIndex < valueBound)
    (hvs : valueOf supplied supplyIndex < valueBound) (hdelta : deltaMs ≤ maxCompoundDeltaMs) :
    (∃ index, compoundedBorrowIndex params borrowed supplied borrowIndex supplyIndex deltaMs =
        .ok index) ↔
      UtilizationFits (valueOf borrowed borrowIndex) (valueOf supplied supplyIndex) := by
  have hb0 : 0 ≤ valueOf borrowed borrowIndex := halfUpDiv_nonneg ray_pos (mul_nonneg hb hbi)
  have hs0 : 0 ≤ valueOf supplied supplyIndex := halfUpDiv_nonneg ray_pos (mul_nonneg hs hsi)
  unfold compoundedBorrowIndex
  rw [scaledToOriginal_total hb hbi hvb, scaledToOriginal_total hs hsi hvs]
  simp only [Fallible.ok_bind]
  constructor
  · rintro ⟨index, h⟩
    obtain ⟨util, hu, -⟩ := Fallible.bind_ok h
    exact ((utilization_ok_iff hb0 hs0).mp hu).1
  · intro hfit
    have hu := (utilization_ok_iff hb0 hs0).mpr ⟨hfit, rfl⟩
    rw [hu, Fallible.ok_bind]
    have hu0 : 0 ≤ if valueOf supplied supplyIndex = 0 then 0
        else halfUpDiv (valueOf borrowed borrowIndex * ray) (valueOf supplied supplyIndex) := by
      split
      · exact le_rfl
      · exact halfUpDiv_nonneg (by omega) (mul_nonneg hb0 ray_pos.le)
    obtain ⟨rate, hrate, hr0, hyear⟩ := calculateBorrowRate_total hp hu0
    obtain ⟨factor, hfactor, hfle⟩ := compoundInterest_total hr0 hyear hdelta
    have hf0 : 0 ≤ factor := ray_pos.le.trans (compoundInterest_ge hr0 hfactor)
    rw [hrate, Fallible.ok_bind, hfactor, Fallible.ok_bind]
    refine ⟨_, updateBorrowIndex_ok_iff.mpr ⟨hbi, hf0, ?_, rfl⟩⟩
    calc halfUpDiv (borrowIndex * factor) ray
        ≤ halfUpDiv (25 * maxBorrowIndexRay * ray) ray := by
          refine halfUpDiv_mono ray_pos ?_
          calc borrowIndex * factor ≤ maxBorrowIndexRay * (25 * ray) :=
                mul_le_mul hbc hfle hf0 (hbi.trans hbc)
            _ = 25 * maxBorrowIndexRay * ray := by ring
      _ = 25 * maxBorrowIndexRay := halfUpDiv_mul_self _ ray_pos
      _ ≤ i128Max := by decide

/-- The interest between two debt values below the bound is always split. -/
theorem calculateSupplierRewards_total (hp : params.Verified) {newIndex : Int} (hb : 0 ≤ borrowed)
    (hbi : 0 ≤ borrowIndex) (hle : borrowIndex ≤ newIndex)
    (hv : valueOf borrowed newIndex < valueBound) :
    ∃ rewards fee, calculateSupplierRewards params borrowed newIndex borrowIndex =
        .ok (rewards, fee) ∧ 0 ≤ rewards ∧ 0 ≤ fee ∧
      rewards + fee = valueOf borrowed newIndex - valueOf borrowed borrowIndex := by
  have hmono : valueOf borrowed borrowIndex ≤ valueOf borrowed newIndex :=
    halfUpDiv_mono ray_pos (mul_le_mul_of_nonneg_left hle hb)
  have hbig : valueBound ≤ i128Max := by decide
  exact calculateSupplierRewards_split hp hle
    (Ray.mul_ok_iff.mpr ⟨hb, hbi, rfl, hmono.trans (hv.le.trans hbig)⟩)
    (Ray.mul_ok_iff.mpr ⟨hb, hbi.trans hle, rfl, hv.le.trans hbig⟩)

/-- The rewards are always distributed: the new index exists, and the value it adds is at most
the rewards. -/
theorem distribute_total {rewards : Int} (hs : 0 ≤ supplied) (hsi : 0 ≤ supplyIndex)
    (hsc : supplyIndex ≤ maxSupplyIndexRay) (hv : valueOf supplied supplyIndex < valueBound)
    (hr0 : 0 ≤ rewards) (hr : rewards < valueBound) :
    ∃ index shortfall, updateSupplyIndex supplied supplyIndex rewards = .ok index ∧
      supplyIndexRewardShortfall supplied supplyIndex index rewards = .ok shortfall ∧
      supplyIndex ≤ index ∧ 0 ≤ shortfall ∧ shortfall ≤ rewards := by
  have hv0 : 0 ≤ valueOf supplied supplyIndex := halfUpDiv_nonneg ray_pos (mul_nonneg hs hsi)
  have hbig : 2 * valueBound - 1 ≤ i128Max := by decide
  have hpos : 0 < valueBound := by decide
  have hold : Ray.mul supplied supplyIndex = .ok (valueOf supplied supplyIndex) :=
    Ray.mul_ok_iff.mpr ⟨hs, hsi, rfl, by omega⟩
  -- It is enough that there is a new index: it is no lower, and the rewards cover it.
  suffices hindex : ∃ index, updateSupplyIndex supplied supplyIndex rewards = .ok index by
    obtain ⟨index, hidx⟩ := hindex
    obtain ⟨hcovered, hfit⟩ := updateSupplyIndex_covered hs hsc hr0 hidx
    have hge := (updateSupplyIndex_bounds hsc hidx).1
    have hmono : valueOf supplied supplyIndex ≤ valueOf supplied index :=
      halfUpDiv_mono ray_pos (mul_le_mul_of_nonneg_left hge hs)
    exact ⟨index, _, hidx, supplyIndexRewardShortfall_returns hsc hr0 hold hidx, hge,
      by omega, by omega⟩
  unfold updateSupplyIndex
  by_cases hz : supplied = Ray.zero ∨ rewards = Ray.zero
  · rw [if_pos hz]
    exact ⟨_, rfl⟩
  · rw [if_neg hz, hold, Fallible.ok_bind]
    push Not at hz
    have hsp : 0 < supplied := lt_of_le_of_ne hs (Ne.symm hz.1)
    by_cases hvz : valueOf supplied supplyIndex = Ray.zero
    · rw [if_pos hvz]
      exact ⟨_, rfl⟩
    · rw [if_neg hvz, Ray.checkedAdd_ok_iff.mpr ⟨inI128_of_nonneg (by omega) (by omega), rfl⟩,
        Fallible.ok_bind, mulDivFloorSaturating_eq hsp (by omega) ray_pos.le]
      exact ⟨_, rfl⟩

/-- Fee shares always exist and never overflow the supply total. -/
theorem protocolFeeShares_total {fee : Int} (hi : 0 < supplyIndex) (hfee : 0 ≤ fee)
    (hs : 0 ≤ supplied) (hmax : supplied ≤ i128Max) :
    ∃ shares, protocolFeeShares fee supplyIndex supplied = .ok shares ∧
      supplied + shares ≤ i128Max := by
  unfold protocolFeeShares
  rw [mulDivFloorSaturating_eq hi hfee ray_pos.le, Fallible.ok_bind]
  refine ⟨_, rfl, ?_⟩
  have hmin : i128Min ≤ 0 := by decide
  have hhead : I128.saturatingSub i128Max supplied = i128Max - supplied := by
    unfold I128.saturatingSub
    omega
  have := min_le_right (min (fee * ray / supplyIndex) i128Max)
    (I128.saturatingSub i128Max supplied)
  omega

end

/-! ## A chunk and a sync -/

namespace Cache

/-- The values of a chunk stay below the bound: at its start, and for the debt at the borrow
index it compounds to. -/
def ValuesBelow (c : Cache) (deltaMs : Nat) : Prop :=
  valueOf c.borrowed c.borrowIndex < valueBound ∧ valueOf c.supplied c.supplyIndex < valueBound ∧
    match compoundedBorrowIndex c.params c.borrowed c.supplied c.borrowIndex c.supplyIndex
      deltaMs with
    | .ok index => valueOf c.borrowed index < valueBound
    | .error _ => True

instance (c : Cache) (deltaMs : Nat) : Decidable (c.ValuesBelow deltaMs) := by
  unfold ValuesBelow
  split <;> infer_instance

/-- The utilization of the market is an `i128`. -/
def UtilizationFits (c : Cache) : Prop :=
  Lending.UtilizationFits (valueOf c.borrowed c.borrowIndex) (valueOf c.supplied c.supplyIndex)

instance (c : Cache) : Decidable c.UtilizationFits :=
  inferInstanceAs (Decidable (Lending.UtilizationFits _ _))

/-- The states at which the chunks of `deltas` start, with the length of each chunk. -/
def chunkStarts (c : Cache) : List Nat → List (Cache × Nat)
  | [] => []
  | delta :: deltas =>
    (c, delta) ::
      match Interest.accrueChunk c delta with
      | .ok c' => chunkStarts c' deltas
      | .error _ => []

end Cache

namespace Interest

/-- **A chunk returns exactly when the utilization fits.** -/
theorem accrueChunk_returns_iff {c : Cache} {deltaMs : Nat} (hc : c.Sound)
    (hbelow : c.ValuesBelow deltaMs) (hdelta : deltaMs ≤ maxCompoundDeltaMs) :
    (∃ c', accrueChunk c deltaMs = .ok c') ↔ c.UtilizationFits := by
  have hb := hc.bounds
  have hb0 : 0 ≤ c.borrowed := hb.borrowed_nonneg
  have hs0 := hc.supplied_nonneg
  have hsmax : c.supplied ≤ i128Max := hb.supplied_le
  have hr0 : 0 ≤ c.revenue := hb.revenue_nonneg
  have hrs : c.revenue ≤ c.supplied := hb.revenue_le
  have hp : c.params.Verified := hc.params
  have hiff := compoundedBorrowIndex_ok_iff hp hb0 hs0 hc.borrowIndex_pos.le
    hb.borrowIndex_le hc.supplyIndex_pos.le hbelow.1 hbelow.2.1 hdelta
  constructor
  · rintro ⟨c', h⟩
    obtain ⟨step, hstep, -, -, -⟩ := accrueChunk_ok h
    refine hiff.mp ?_
    unfold accrueStep at hstep
    unfold compoundedBorrowIndex
    obtain ⟨_, h1, hstep⟩ := Fallible.bind_ok hstep
    obtain ⟨_, h2, hstep⟩ := Fallible.bind_ok hstep
    obtain ⟨_, h3, hstep⟩ := Fallible.bind_ok hstep
    obtain ⟨_, h4, hstep⟩ := Fallible.bind_ok hstep
    obtain ⟨_, h5, hstep⟩ := Fallible.bind_ok hstep
    obtain ⟨index, h6, -⟩ := Fallible.bind_ok hstep
    exact ⟨index, Fallible.bind_ok_iff.mpr ⟨_, h1, Fallible.bind_ok_iff.mpr ⟨_, h2,
      Fallible.bind_ok_iff.mpr ⟨_, h3, Fallible.bind_ok_iff.mpr ⟨_, h4,
      Fallible.bind_ok_iff.mpr ⟨_, h5, h6⟩⟩⟩⟩⟩⟩
  · intro hfit
    obtain ⟨index, hcomp⟩ := hiff.mpr hfit
    have hv : valueOf c.borrowed index < valueBound := by
      have := hbelow.2.2
      rw [hcomp] at this
      exact this
    unfold compoundedBorrowIndex at hcomp
    obtain ⟨bo, h1, hcomp⟩ := Fallible.bind_ok hcomp
    obtain ⟨so, h2, hcomp⟩ := Fallible.bind_ok hcomp
    obtain ⟨util, h3, hcomp⟩ := Fallible.bind_ok hcomp
    obtain ⟨rate, h4, hcomp⟩ := Fallible.bind_ok hcomp
    obtain ⟨factor, h5, h6⟩ := Fallible.bind_ok hcomp
    have hfac := compoundInterest_ge (calculateBorrowRate_nonneg hp h4) h5
    obtain ⟨hile, -⟩ := updateBorrowIndex_bounds hfac hb.borrowIndex_le h6
    obtain ⟨rewards, fee, h7, hrw0, hfee0, hsplit⟩ := calculateSupplierRewards_total hp hb0
      hc.borrowIndex_pos.le hile hv
    have hold0 : 0 ≤ valueOf c.borrowed c.borrowIndex :=
      halfUpDiv_nonneg ray_pos (mul_nonneg hb0 hc.borrowIndex_pos.le)
    obtain ⟨newSupply, shortfall, h8, h9, hnle, hsf0, hsfle⟩ := distribute_total hs0
      hc.supplyIndex_pos.le hb.supplyIndex_le hbelow.2.1 hrw0 (by omega)
    have hbig : valueBound ≤ i128Max := by decide
    have h10 : Ray.checkedAdd fee shortfall = .ok (fee + shortfall) :=
      Ray.checkedAdd_ok_iff.mpr ⟨inI128_of_nonneg (by omega) (by omega), rfl⟩
    obtain ⟨shares, h11, hsh⟩ : ∃ shares,
        (if fee + shortfall = Ray.zero then pure Ray.zero
          else protocolFeeShares (fee + shortfall) newSupply c.supplied : Result Int) = .ok shares ∧
        c.supplied + shares ≤ i128Max := by
      split
      · exact ⟨0, rfl, by omega⟩
      · exact protocolFeeShares_total (hc.supplyIndex_pos.trans_le hnle) (by omega) hs0 hsmax
    have hstep : accrueStep c.params c.borrowed c.supplied c.borrowIndex c.supplyIndex deltaMs =
        .ok ⟨index, newSupply, shares⟩ := by
      unfold accrueStep
      simp only [h1, h2, h3, h4, h5, h6, h7, h8, h9, h10, h11, Fallible.ok_bind]
      rfl
    have hsh0 := (accrueStep_of_sound hc hstep).revenueShares_nonneg
    dsimp only at hsh0
    unfold accrueChunk
    rw [hstep, Fallible.ok_bind]
    exact ⟨_, Cache.accrueRevenue_ok_iff.mpr ⟨inI128_of_nonneg (by dsimp only; omega)
      (by dsimp only; omega), inI128_of_nonneg (by dsimp only; omega) hsh, rfl⟩⟩

/-- A list of chunks runs through exactly when the utilization fits at the start of each. -/
theorem accrueChunks_return_iff {deltas : List Nat} {c : Cache} (hc : c.Sound)
    (hdelta : ∀ delta ∈ deltas, delta ≤ maxCompoundDeltaMs)
    (hbelow : ∀ p ∈ c.chunkStarts deltas, p.1.ValuesBelow p.2) :
    (∃ c', deltas.foldlM accrueChunk c = .ok c') ↔
      ∀ p ∈ c.chunkStarts deltas, p.1.UtilizationFits := by
  induction deltas generalizing c with
  | nil => simp [Cache.chunkStarts, pure, Except.pure]
  | cons delta deltas ih =>
    have hfirst := accrueChunk_returns_iff hc (hbelow (c, delta) List.mem_cons_self)
      (hdelta delta List.mem_cons_self)
    cases hstep : accrueChunk c delta with
    | error e =>
      have hno : ¬ c.UtilizationFits := by
        rw [← hfirst]
        rintro ⟨c', h⟩
        rw [hstep] at h
        cases h
      constructor
      · rintro ⟨c', h⟩
        obtain ⟨c1, h1, -⟩ := Fallible.foldlM_cons_ok h
        rw [hstep] at h1
        cases h1
      · intro h
        exact absurd (h (c, delta) List.mem_cons_self) hno
    | ok c1 =>
      have hstarts : c.chunkStarts (delta :: deltas) = (c, delta) :: c1.chunkStarts deltas := by
        simp only [Cache.chunkStarts, hstep]
      have htail := ih (accrueChunk_sound hc hstep).1
        (fun d hd => hdelta d (List.mem_cons_of_mem _ hd))
        (fun p hp => hbelow p (hstarts ▸ List.mem_cons_of_mem _ hp))
      rw [hstarts, List.forall_mem_cons, ← htail, ← hfirst, List.foldlM_cons, hstep,
        Fallible.ok_bind]
      exact ⟨fun h => ⟨⟨c1, rfl⟩, h⟩, fun h => h.2⟩

end Interest

/-- A sync runs its chunks through, or has none. -/
theorem Interest.globalSync_returns_iff {c : Cache} :
    (∃ c', globalSync c = .ok c') ↔ ∃ c', (chunks c.elapsedMs).foldlM accrueChunk c = .ok c' := by
  constructor
  · rintro ⟨c', h⟩
    rcases globalSync_ok h with ⟨hz, -⟩ | ⟨-, c1, hc1, -⟩
    · exact ⟨c, by rw [hz]; rfl⟩
    · exact ⟨c1, hc1⟩
  · rintro ⟨c1, hc1⟩
    by_cases hz : c.elapsedMs = 0
    · exact ⟨_, globalSync_of_elapsed_zero hz⟩
    · unfold globalSync Cache.needsAccrual
      rw [if_neg (by simpa using hz)]
      exact ⟨c1.markAccrued, Fallible.bind_ok_iff.mpr ⟨c1, hc1, rfl⟩⟩

/-- **When a sync returns.** Take any reachable market and any later time at which its values
stay below `2^126`. A sync returns exactly when the utilization fits an `i128` at the start of
every accrual chunk. Within one chunk of the last sync, that is exactly when it fits in the
stored market. -/
theorem accrual_returns_iff {key : HubAssetKey} {m : PoolSyncData} {timestamp : Nat}
    {trace : List MarketStep} (hrun : MarketRun key m timestamp trace) (now : Nat)
    (hbelow : ∀ p ∈ (Cache.ofMarket key m now).chunkStarts (chunks (now - m.state.lastTimestamp)),
      p.1.ValuesBelow p.2) :
    ((∃ c, Interest.globalSync (Cache.ofMarket key m now) = .ok c) ↔
      ∀ p ∈ (Cache.ofMarket key m now).chunkStarts (chunks (now - m.state.lastTimestamp)),
        p.1.UtilizationFits) ∧
    (m.state.lastTimestamp < now → now ≤ m.state.lastTimestamp + maxCompoundDeltaMs →
      ((∃ c, Interest.globalSync (Cache.ofMarket key m now) = .ok c) ↔
        UtilizationFits (valueOf m.state.borrowed m.state.borrowIndex)
          (valueOf m.state.supplied m.state.supplyIndex))) := by
  obtain ⟨hm, -⟩ := hrun.sound
  have hiff := Interest.accrueChunks_return_iff (c := Cache.ofMarket key m now) hm
    (fun delta hd => (chunks_mem hd).2) hbelow
  have hsync := Interest.globalSync_returns_iff (c := Cache.ofMarket key m now)
  refine ⟨hsync.trans hiff, fun hlt hle => (hsync.trans hiff).trans ?_⟩
  rw [chunks_single (by omega) (by omega)]
  constructor
  · intro h
    exact h (Cache.ofMarket key m now, _) List.mem_cons_self
  · intro h p hp
    simp only [Cache.chunkStarts] at hp
    rcases List.mem_cons.mp hp with rfl | hp
    · exact h
    · split at hp <;> cases hp

/-- Three years on, the sample market's values are small and its utilization fits, so its sync
returns. -/
theorem accrual_returns_iff_sample :
    ∃ c, Interest.globalSync (Cache.ofMarket Sample.key Sample.lentOut 94_671_778_000) = .ok c :=
  (accrual_returns_iff Sample.lentOut_run 94_671_778_000 (by decide +kernel)).1.mpr
    (by decide +kernel)

/-! ## A market that cannot accrue -/

namespace Sample

/-- The sample parameters without a utilization limit and with a small reserve factor. -/
def unlimited : MarketParams := { params with maxUtilization := ray, reserveFactor := 1 }

/-- One hundred token units are supplied and ten borrowed one by one; a second later five of the
debts are repaid at two units each, and the supplier takes out everything. -/
def drainSteps : List (Nat × MarketOp) :=
  [(1_000, .supply 0 100)] ++ List.replicate 10 (1_000, .borrow 0 1) ++
    List.replicate 5 (1_001, .repay 100_000_000_000_000_000_000 2) ++
    [(1_001, .withdraw false 10_000_000_000_000_000_000_000 i128Max 0)]

/-- What is left: dust revenue shares against five units of debt. -/
def drained : PoolSyncData where
  params := unlimited
  state :=
    { supplied := 57_039_775, borrowed := 500_000_000_000_000_000_000, revenue := 57_039_775,
      borrowIndex := 1_000_000_000_570_397_763_240_106_804,
      supplyIndex := 1_000_000_000_057_034_072_346_400_000,
      lastTimestamp := 1_001_000, cash := 0 }

end Sample

/-- Steps that run through extend a run. -/
theorem MarketRun.applyAll {key : HubAssetKey} {m : PoolSyncData} {timestamp : Nat}
    {trace : List MarketStep} (hrun : MarketRun key m timestamp trace)
    (steps : List (Nat × MarketOp)) (m' : PoolSyncData)
    (hchain : List.IsChain (· ≤ ·) (timestamp :: steps.map Prod.fst))
    (h : steps.foldlM (fun m s => s.2.apply key m s.1) m = .ok m') :
    ∃ trace', MarketRun key m' ((timestamp :: steps.map Prod.fst).getLast (by simp)) trace' := by
  induction steps generalizing m timestamp trace with
  | nil =>
    rw [← Fallible.foldlM_nil_ok h]
    exact ⟨trace, hrun⟩
  | cons s steps ih =>
    obtain ⟨m1, h1, h⟩ := Fallible.foldlM_cons_ok h
    rw [List.map_cons, List.isChain_cons_cons] at hchain
    exact ih (hrun.step hchain.1 h1) hchain.2 h

/-- **The drained market is bricked.** It is reachable, its values are far below `2^126`, and
its sync overflows a second later. -/
theorem drained_market_bricked :
    ∃ trace, MarketRun Sample.key Sample.drained 1_001 trace ∧
      (∀ p ∈ (Cache.ofMarket Sample.key Sample.drained 1_002_000).chunkStarts (chunks 1_000),
        p.1.ValuesBelow p.2) ∧
      Interest.globalSync (Cache.ofMarket Sample.key Sample.drained 1_002_000) =
        .error .mathOverflow := by
  have h0 : MarketRun Sample.key { Sample.created with params := Sample.unlimited } 1_000 [] :=
    .create Sample.unlimited rfl (by decide +kernel)
  obtain ⟨trace, hrun⟩ := h0.applyAll Sample.drainSteps Sample.drained
    (by decide +kernel) (by decide +kernel)
  exact ⟨trace, hrun, by decide +kernel, by decide +kernel⟩

end Lending
