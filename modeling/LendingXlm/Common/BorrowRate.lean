import LendingXlm.Common.RatesSpec
import Mathlib.Algebra.Order.Field.Basic
import Mathlib.Algebra.Order.Group.MinMax
import Mathlib.Tactic.FieldSimp
import Mathlib.Tactic.GCongr
import Mathlib.Tactic.Positivity

/-!
# The borrow-rate curve

`calculate_annual_borrow_rate` in closed form. A segment of width `range` rounds twice: once in
the product with its slope, and once, after that error has been scaled by `RAY / range`, in the
quotient. So a segment may end above its slope, by the slack `ray / (2 * range) + 1`; the next one
starts at the slope itself.

* `segmentShare_end`: the end of a segment against its slope;
* `segmentShare_near`: any of its points against the straight line, from which
  `InterestRateModel.joins_below` and `joins_above` show the curve to be continuous at its kinks;
* `calculateAnnualBorrowRate_eq`: no verified model makes the curve trap.
-/

namespace Lending

open Rounding FpCore

/-! ## One segment -/

/-- What a segment of the curve adds `u` above its start. -/
def segmentShare (u slope range : Int) : Int := halfUpDiv (halfUpDiv (u * slope) ray * ray) range

section Segment

variable {u u' slope range : Int}

theorem segmentShare_nonneg (hu : 0 ≤ u) (hs : 0 ≤ slope) (hr : 0 < range) :
    0 ≤ segmentShare u slope range :=
  halfUpDiv_nonneg hr (mul_nonneg (halfUpDiv_nonneg ray_pos (mul_nonneg hu hs)) ray_pos.le)

theorem segmentShare_mono (huu : u ≤ u') (hs : 0 ≤ slope) (hr : 0 < range) :
    segmentShare u slope range ≤ segmentShare u' slope range := by
  have hprod : u * slope ≤ u' * slope := mul_le_mul_of_nonneg_right huu hs
  exact halfUpDiv_mono hr (mul_le_mul_of_nonneg_right (halfUpDiv_mono ray_pos hprod) ray_pos.le)

@[simp] theorem segmentShare_zero (hr : 0 < range) : segmentShare 0 slope range = 0 := by
  simp [segmentShare, ray_pos, hr]

/-- **The end of a segment.** It passes the slope by half a unit of the product, scaled. -/
theorem segmentShare_end (hr : 0 < range) :
    segmentShare range slope range ≤ slope + ray / (2 * range) + 1 := by
  set p := halfUpDiv (range * slope) ray with hp
  have hp1 := halfUpDiv_mul_le (range * slope) ray_pos
  have hc1 := halfUpDiv_mul_le (p * ray) hr
  rw [← hp] at hp1
  change 2 * (segmentShare range slope range * range) ≤ _ at hc1
  have hslack := lt_floor_mul_add ray (by omega : 0 < 2 * range)
  by_contra hlt
  have hstep : (slope + ray / (2 * range) + 2) * range ≤ segmentShare range slope range * range :=
    mul_le_mul_of_nonneg_right (by omega) hr.le
  nlinarith

/-- **A segment is a straight line** up to half a unit and half a unit of the product, scaled. -/
theorem segmentShare_near (hr : 0 < range) :
    |(segmentShare u slope range : ℚ) - slope * u / range| ≤ ray / (2 * range) + 1 / 2 := by
  set p := halfUpDiv (u * slope) ray with hp
  have hp1 := halfUpDiv_mul_le (u * slope) ray_pos
  have hp2 := le_halfUpDiv_mul (u * slope) ray_pos
  have hc1 := halfUpDiv_mul_le (p * ray) hr
  have hc2 := le_halfUpDiv_mul (p * ray) hr
  rw [← hp] at hp1 hp2
  change 2 * (segmentShare u slope range * range) ≤ _ at hc1
  change _ ≤ 2 * (segmentShare u slope range * range) + _ at hc2
  have habove : (2 * (segmentShare u slope range * range) : ℚ) ≤ 2 * (u * slope) + ray + range := by
    exact_mod_cast (by linarith : _ ≤ 2 * (u * slope) + ray + range)
  have hbelow : (2 * (u * slope) : ℚ) ≤ 2 * (segmentShare u slope range * range) + ray + range := by
    exact_mod_cast
      (by linarith : _ ≤ 2 * (segmentShare u slope range * range) + ray + range)
  have hr' : (0 : ℚ) < range := by exact_mod_cast hr
  have hline : (segmentShare u slope range : ℚ) - slope * u / range =
      (2 * (segmentShare u slope range * range) - 2 * (u * slope)) / (2 * range) := by
    field_simp
  have hbound : (ray : ℚ) / (2 * range) + 1 / 2 = (ray + range) / (2 * range) := by
    field_simp
  rw [hline, hbound, abs_div, abs_of_pos (by positivity : (0 : ℚ) < 2 * range)]
  gcongr
  rw [abs_le]
  constructor <;> linarith

theorem segmentShare_le (hur : u ≤ range) (hr : 0 < range) (hs : 0 ≤ slope)
    (hcap : slope ≤ maxBorrowRateRay) : segmentShare u slope range ≤ 2 * maxBorrowRateRay := by
  have hend := (segmentShare_end hr : _ ≤ slope + _ + 1)
  have hslack : ray / (2 * range) ≤ ray := Int.ediv_le_self _ ray_pos.le
  have hmax : maxBorrowRateRay = 2 * ray := rfl
  have hray : (1 : Int) ≤ ray := by decide
  have hmono := segmentShare_mono hur hs hr
  omega

/-- A segment no wider than the whole range, with a slope up to the largest rate, does not trap. -/
theorem segment_ok (hu : 0 ≤ u) (hur : u ≤ range) (hrange : range ≤ ray) (hr : 0 < range)
    (hs : 0 ≤ slope) (hcap : slope ≤ maxBorrowRateRay) :
    (Ray.mul u slope >>= (Ray.div · range)) = .ok (segmentShare u slope range) := by
  have hsmall : 2 * maxBorrowRateRay ≤ i128Max := by decide
  have hp0 : 0 ≤ halfUpDiv (u * slope) ray := halfUpDiv_nonneg ray_pos (mul_nonneg hu hs)
  have hp : halfUpDiv (u * slope) ray ≤ slope := by
    rw [← halfUpDiv_mul_self slope ray_pos]
    refine halfUpDiv_mono ray_pos ?_
    rw [halfUpDiv_mul_self slope ray_pos, mul_comm]
    exact mul_le_mul_of_nonneg_left (hur.trans hrange) hs
  have hle := segmentShare_le hur hr hs hcap
  refine Fallible.bind_ok_iff.mpr ⟨halfUpDiv (u * slope) ray, ?_, ?_⟩
  · exact Ray.mul_ok_iff.mpr ⟨hu, hs, rfl, by omega⟩
  · exact Ray.div_ok_iff.mpr ⟨hp0, hr, rfl, hle.trans hsmall⟩

end Segment

/-! ## The curve -/

namespace InterestRateModel

/-- The three segments, before the cap. -/
def curve (m : InterestRateModel) (u : Int) : Int :=
  if u < m.midUtilization then
    m.baseBorrowRate + segmentShare u m.slope1 m.midUtilization
  else if u < m.optimalUtilization then
    m.baseBorrowRate + m.slope1 +
      segmentShare (u - m.midUtilization) m.slope2 (m.optimalUtilization - m.midUtilization)
  else
    m.baseBorrowRate + m.slope1 + m.slope2 +
      segmentShare (u - m.optimalUtilization) m.slope3 (ray - m.optimalUtilization)

def annualRate (m : InterestRateModel) (utilization : Int) : Int :=
  min (m.curve (min utilization ray)) m.maxBorrowRate

/-- The width of the narrowest segment. -/
def narrowest (m : InterestRateModel) : Int :=
  min m.midUtilization
    (min (m.optimalUtilization - m.midUtilization) (ray - m.optimalUtilization))

variable {m : InterestRateModel} {u u' : Int}

theorem narrowest_pos (hm : m.Verified) : 0 < m.narrowest := by
  have h1 := hm.mid_pos
  have h2 := hm.mid_lt_optimal
  have h3 := hm.optimal_lt_ray
  unfold narrowest
  omega

/-- The slack of any segment is at most that of the narrowest one. -/
theorem slack_le {w range : Int} (hw : 0 < w) (hle : w ≤ range) :
    ray / (2 * range) ≤ ray / (2 * w) := by
  have h0 : 0 ≤ ray / (2 * range) := Int.ediv_nonneg ray_pos.le (by omega)
  rw [le_floor_iff (by omega)]
  calc ray / (2 * range) * (2 * w) ≤ ray / (2 * range) * (2 * range) :=
        mul_le_mul_of_nonneg_left (by omega) h0
    _ ≤ ray := floor_mul_le ray (by omega)

/-- Where a segment stands between its start and its slope. -/
theorem segment_between {u slope range w : Int} (hw : 0 < w) (hwr : w ≤ range) (hu : 0 ≤ u)
    (hur : u ≤ range) (hs : 0 ≤ slope) :
    0 ≤ segmentShare u slope range ∧
      segmentShare u slope range ≤ slope + ray / (2 * w) + 1 := by
  have hr : 0 < range := by omega
  have hmono := segmentShare_mono hur hs hr
  have hend := (segmentShare_end hr : _ ≤ slope + _ + 1)
  have hslack := slack_le hw hwr
  exact ⟨segmentShare_nonneg hu hs hr, by omega⟩

/-- **No downward jump.** Within a segment the curve does not fall; from one to the next it falls
by the slack of the narrowest segment at most. -/
theorem curve_mono (hm : m.Verified) (hu : 0 ≤ u) (huu : u ≤ u') (hu' : u' ≤ ray) :
    m.curve u ≤ m.curve u' + (ray / (2 * m.narrowest) + 1) := by
  have hbase := hm.base_nonneg
  have hs1 := hm.base_le_slope1
  have hs2 := hm.slope1_le_slope2
  have hs3 := hm.slope2_le_slope3
  have hw := narrowest_pos hm
  have hw1 : m.narrowest ≤ m.midUtilization := min_le_left _ _
  have hw2 : m.narrowest ≤ m.optimalUtilization - m.midUtilization :=
    (min_le_right _ _).trans (min_le_left _ _)
  have hw3 : m.narrowest ≤ ray - m.optimalUtilization :=
    (min_le_right _ _).trans (min_le_right _ _)
  have hslack : 0 ≤ ray / (2 * m.narrowest) := Int.ediv_nonneg ray_pos.le (by omega)
  unfold curve
  by_cases h1 : u < m.midUtilization
  · rw [if_pos h1]
    have hb := segment_between hw hw1 hu h1.le (by omega : 0 ≤ m.slope1)
    by_cases h1' : u' < m.midUtilization
    · rw [if_pos h1']
      have hmono := segmentShare_mono huu (by omega : 0 ≤ m.slope1) hm.mid_pos
      omega
    · rw [if_neg h1']
      by_cases h2' : u' < m.optimalUtilization
      · rw [if_pos h2']
        have hb' := segment_between hw hw2 (u := u' - m.midUtilization) (by omega) (by omega)
          (by omega : 0 ≤ m.slope2)
        omega
      · rw [if_neg h2']
        have hb' := segment_between hw hw3 (u := u' - m.optimalUtilization) (by omega) (by omega)
          (by omega : 0 ≤ m.slope3)
        omega
  · rw [if_neg h1, if_neg (show ¬ u' < m.midUtilization by omega)]
    by_cases h2 : u < m.optimalUtilization
    · rw [if_pos h2]
      have hb := segment_between hw hw2 (u := u - m.midUtilization) (by omega) (by omega)
        (by omega : 0 ≤ m.slope2)
      by_cases h2' : u' < m.optimalUtilization
      · rw [if_pos h2']
        have hmono := segmentShare_mono (sub_le_sub_right huu m.midUtilization)
          (by omega : 0 ≤ m.slope2) (show 0 < m.optimalUtilization - m.midUtilization by omega)
        omega
      · rw [if_neg h2']
        have hb' := segment_between hw hw3 (u := u' - m.optimalUtilization) (by omega) (by omega)
          (by omega : 0 ≤ m.slope3)
        omega
    · rw [if_neg h2, if_neg (show ¬ u' < m.optimalUtilization by omega)]
      have hmono := segmentShare_mono (sub_le_sub_right huu m.optimalUtilization)
        (by omega : 0 ≤ m.slope3) (show 0 < ray - m.optimalUtilization by omega)
      omega

theorem base_le_curve (hm : m.Verified) (hu : 0 ≤ u) :
    m.baseBorrowRate ≤ m.curve u := by
  have hbase := hm.base_nonneg
  have hs1 := hm.base_le_slope1
  have hs2 := hm.slope1_le_slope2
  have hs3 := hm.slope2_le_slope3
  have h1 := hm.mid_lt_optimal
  have h2 := hm.optimal_lt_ray
  unfold curve
  split
  · have := segmentShare_nonneg hu (by omega : 0 ≤ m.slope1) hm.mid_pos
    omega
  · split
    · have := segmentShare_nonneg (u := u - m.midUtilization) (by omega) (by omega : 0 ≤ m.slope2)
        (show 0 < m.optimalUtilization - m.midUtilization by omega)
      omega
    · have := segmentShare_nonneg (u := u - m.optimalUtilization) (by omega)
        (by omega : 0 ≤ m.slope3) (show 0 < ray - m.optimalUtilization by omega)
      omega

theorem curve_mid (hm : m.Verified) : m.curve m.midUtilization = m.baseBorrowRate + m.slope1 := by
  have h2 := hm.mid_lt_optimal
  unfold curve
  rw [if_neg (lt_irrefl _), if_pos h2, sub_self, segmentShare_zero (by omega), add_zero]

theorem curve_optimal (hm : m.Verified) :
    m.curve m.optimalUtilization = m.baseBorrowRate + m.slope1 + m.slope2 := by
  have h2 := hm.mid_lt_optimal
  have h3 := hm.optimal_lt_ray
  unfold curve
  rw [if_neg (by omega), if_neg (lt_irrefl _), sub_self, segmentShare_zero (by omega), add_zero]

/-- On one side of `kink` (`side` is `-1` below it and `1` above) the curve leaves its value there
by the share of `slope` that `width` has come to, up to the slack of the narrowest segment. -/
def Joins (m : InterestRateModel) (kink side width slope : Int) : Prop :=
  ∀ d, 0 ≤ d → d < width →
    |(m.annualRate (kink + side * d) : ℚ) - m.annualRate kink| ≤
      slope * d / width + (ray / (2 * m.narrowest) + 1)

/-- The cap moves two rates no further apart. -/
theorem joins_of_curve {kink side width slope : Int} (hkink : kink ≤ ray)
    (hle : ∀ d, 0 ≤ d → d < width → kink + side * d ≤ ray)
    (hcurve : ∀ d, 0 ≤ d → d < width → |(m.curve (kink + side * d) : ℚ) - m.curve kink| ≤
      slope * d / width + (ray / (2 * m.narrowest) + 1)) : m.Joins kink side width slope := by
  intro d hd hwidth
  refine le_trans ?_ (hcurve d hd hwidth)
  unfold annualRate
  rw [min_eq_left (hle d hd hwidth), min_eq_left hkink]
  exact_mod_cast (abs_min_sub_min_le_max (m.curve (kink + side * d)) m.maxBorrowRate
    (m.curve kink) m.maxBorrowRate).trans (by simp)

/-- The slack of a segment, for every point of it. -/
theorem segmentShare_within (u slope : Int) {range : Int} (hw : 0 < m.narrowest)
    (hle : m.narrowest ≤ range) :
    |(segmentShare u slope range : ℚ) - slope * u / range| ≤ ray / (2 * m.narrowest) + 1 := by
  refine (segmentShare_near (by omega)).trans ?_
  have hw' : (0 : ℚ) < m.narrowest := by exact_mod_cast hw
  have hle' : (m.narrowest : ℚ) ≤ range := by exact_mod_cast hle
  have hray : (0 : ℚ) ≤ ray := by exact_mod_cast ray_pos.le
  gcongr
  norm_num

/-- **From below.** The segment that ends at a kink comes up to it. -/
theorem joins_below {kink width slope c : Int} (hkink : kink ≤ ray) (hw : 0 < m.narrowest)
    (hle : m.narrowest ≤ width) (hs : 0 ≤ slope) (hat : m.curve kink = c + slope)
    (hcurve : ∀ d, 0 < d → d < width →
      m.curve (kink - d) = c + segmentShare (width - d) slope width) :
    m.Joins kink (-1) width slope := by
  refine joins_of_curve hkink (fun d hd _ => by omega) fun d hd hwidth => ?_
  have hwidth' : (0 : ℚ) < width := by exact_mod_cast (by omega : 0 < width)
  have hslope : (0 : ℚ) ≤ slope * d / width := by
    have : (0 : ℚ) ≤ slope := by exact_mod_cast hs
    have : (0 : ℚ) ≤ d := by exact_mod_cast hd
    positivity
  rcases hd.eq_or_lt with rfl | hpos
  · have := (abs_nonneg _).trans (segmentShare_within 0 slope hw hle)
    simpa using this
  · have hnear := abs_le.mp (segmentShare_within (width - d) slope hw hle)
    have hline : (slope : ℚ) * (width - d : Int) / width = slope - slope * d / width := by
      push_cast
      field_simp
    rw [hline] at hnear
    rw [neg_one_mul, ← sub_eq_add_neg, hcurve d hpos hwidth, hat, abs_le]
    push_cast at hnear ⊢
    constructor <;> linarith

/-- **From above.** The segment that starts at a kink leaves from there. -/
theorem joins_above {kink width slope : Int} (hend : kink + width ≤ ray) (hw : 0 < m.narrowest)
    (hle : m.narrowest ≤ width) (hs : 0 ≤ slope)
    (hcurve : ∀ d, 0 ≤ d → d < width →
      m.curve (kink + d) = m.curve kink + segmentShare d slope width) :
    m.Joins kink 1 width slope := by
  refine joins_of_curve (by omega) (fun d hd _ => by omega) fun d hd hwidth => ?_
  have hslope : (0 : ℚ) ≤ slope * d / width := by
    have : (0 : ℚ) ≤ slope := by exact_mod_cast hs
    have : (0 : ℚ) ≤ d := by exact_mod_cast hd
    have : (0 : ℚ) < width := by exact_mod_cast (by omega : 0 < width)
    positivity
  have hnear := abs_le.mp (segmentShare_within d slope hw hle)
  rw [one_mul, hcurve d hd hwidth, abs_le]
  push_cast
  constructor <;> linarith

theorem joins_kinks (hm : m.Verified) :
    m.Joins m.midUtilization (-1) m.midUtilization m.slope1 ∧
      m.Joins m.midUtilization 1 (m.optimalUtilization - m.midUtilization) m.slope2 ∧
      m.Joins m.optimalUtilization (-1) (m.optimalUtilization - m.midUtilization) m.slope2 ∧
      m.Joins m.optimalUtilization 1 (ray - m.optimalUtilization) m.slope3 := by
  have hbase := hm.base_nonneg
  have hs1 := hm.base_le_slope1
  have hs2 := hm.slope1_le_slope2
  have hs3 := hm.slope2_le_slope3
  have h1 := hm.mid_pos
  have h2 := hm.mid_lt_optimal
  have h3 := hm.optimal_lt_ray
  have hw := narrowest_pos hm
  have hw1 : m.narrowest ≤ m.midUtilization := min_le_left _ _
  have hw2 : m.narrowest ≤ m.optimalUtilization - m.midUtilization :=
    (min_le_right _ _).trans (min_le_left _ _)
  have hw3 : m.narrowest ≤ ray - m.optimalUtilization :=
    (min_le_right _ _).trans (min_le_right _ _)
  refine ⟨?_, ?_, ?_, ?_⟩
  · refine joins_below (by omega) hw hw1 (by omega) (curve_mid hm) fun d hd hlt => ?_
    rw [curve, if_pos (by omega)]
  · refine joins_above (by omega) hw hw2 (by omega) fun d hd hlt => ?_
    rw [curve_mid hm, curve, if_neg (by omega), if_pos (by omega), add_sub_cancel_left]
  · refine joins_below (by omega) hw hw2 (by omega) (curve_optimal hm) fun d hd hlt => ?_
    rw [curve, if_neg (by omega), if_pos (by omega), sub_right_comm]
  · refine joins_above (by omega) hw hw3 (by omega) fun d hd hlt => ?_
    rw [curve_optimal hm, curve, if_neg (by omega), if_neg (by omega), add_sub_cancel_left]

end InterestRateModel

open InterestRateModel

/-- **The curve.** A verified model never traps. -/
theorem calculateAnnualBorrowRate_eq {params : MarketParams} {u : Int}
    (hm : params.toInterestRateModel.Verified) (hu : 0 ≤ u) :
    calculateAnnualBorrowRate u params = .ok (params.toInterestRateModel.annualRate u) := by
  have hbase := hm.base_nonneg
  have hs1 := hm.base_le_slope1
  have hs2 := hm.slope1_le_slope2
  have hs3 := hm.slope2_le_slope3
  have hs4 := hm.slope3_le_max
  have hcap := hm.max_le
  have h1 := hm.mid_pos
  have h2 := hm.mid_lt_optimal
  have h3 := hm.optimal_lt_ray
  have hclamp : (if u > Ray.one then Ray.one else u) = min u ray := by
    unfold Ray.one
    omega
  have hsmall : 5 * maxBorrowRateRay ≤ i128Max := by decide
  have hadd {a b : Int} (h0 : 0 ≤ a + b) (hle : a + b ≤ 5 * maxBorrowRateRay) :
      Ray.checkedAdd a b = .ok (a + b) :=
    Ray.checkedAdd_ok_iff.mpr ⟨inI128_of_nonneg h0 (hle.trans hsmall), rfl⟩
  have hsub {a b : Int} (hb : 0 ≤ b) (hle : b ≤ a) : Ray.checkedSub a b = .ok (a - b) :=
    Ray.checkedSub_ok_iff.mpr ⟨hb.trans hle, hb, hle, rfl⟩
  have hcap' : ∀ r : Int, (pure (if r > params.maxBorrowRate then params.maxBorrowRate else r) :
      Result Int) = .ok (min r params.maxBorrowRate) := by
    intro r
    rw [Fallible.pure_ok_iff]
    omega
  unfold calculateAnnualBorrowRate annualRate curve
  rw [hclamp]
  obtain ⟨v, hv, hv0, hvr⟩ : ∃ v, min u ray = v ∧ 0 ≤ v ∧ v ≤ ray :=
    ⟨_, rfl, le_min hu ray_pos.le, min_le_right _ _⟩
  rw [hv]
  refine Fallible.bind_ok_iff.mpr ⟨_, ?_, hcap' _⟩
  by_cases hmid : v < params.midUtilization
  · have hseg := segment_ok hv0 hmid.le (by omega) h1 (by omega) (by omega : params.slope1 ≤ _)
    obtain ⟨p, hp, hc⟩ := Fallible.bind_ok hseg
    have hshare := segmentShare_le hmid.le h1 (by omega) (by omega : params.slope1 ≤ _)
    have hshare0 := segmentShare_nonneg hv0 (by omega : 0 ≤ params.slope1) h1
    rw [if_pos hmid, if_pos hmid, hp, Fallible.ok_bind, hc, Fallible.ok_bind]
    exact hadd (by omega) (by omega)
  · rw [if_neg hmid, if_neg hmid]
    by_cases hopt : v < params.optimalUtilization
    · have hur : v - params.midUtilization ≤ params.optimalUtilization - params.midUtilization := by
        omega
      have hwidth : 0 < params.optimalUtilization - params.midUtilization := by omega
      have hseg := segment_ok (by omega) hur (by omega) hwidth (by omega)
        (by omega : params.slope2 ≤ _)
      obtain ⟨p, hp, hc⟩ := Fallible.bind_ok hseg
      have hshare := segmentShare_le hur hwidth (by omega) (by omega : params.slope2 ≤ _)
      have hshare0 := segmentShare_nonneg (by omega : 0 ≤ v - params.midUtilization)
        (by omega : 0 ≤ params.slope2) hwidth
      rw [if_pos hopt, if_pos hopt, hsub h1.le (by omega), Fallible.ok_bind,
        hsub h1.le h2.le, Fallible.ok_bind, hp, Fallible.ok_bind, hc, Fallible.ok_bind,
        hadd (by omega) (by omega), Fallible.ok_bind]
      exact hadd (by omega) (by omega)
    · have hur : v - params.optimalUtilization ≤ ray - params.optimalUtilization := by omega
      have hwidth : 0 < ray - params.optimalUtilization := by omega
      have hseg := segment_ok (by omega) hur (by omega) hwidth (by omega)
        (by omega : params.slope3 ≤ _)
      obtain ⟨p, hp, hc⟩ := Fallible.bind_ok hseg
      have hshare := segmentShare_le hur hwidth (by omega) (by omega : params.slope3 ≤ _)
      have hshare0 := segmentShare_nonneg (by omega : 0 ≤ v - params.optimalUtilization)
        (by omega : 0 ≤ params.slope3) hwidth
      rw [if_neg hopt, if_neg hopt, hadd (by omega) (by omega), Fallible.ok_bind,
        hadd (by omega) (by omega), Fallible.ok_bind, hsub (by omega) (by omega), Fallible.ok_bind,
        Ray.one, hsub (by omega) (by omega), Fallible.ok_bind, hp, Fallible.ok_bind, hc,
        Fallible.ok_bind]
      exact hadd (by omega) (by omega)

/-- **The borrow-rate curve.** It returns a rate between base and maximum for every utilisation,
and what it falls by anywhere is the rounding of its narrowest segment. On either side of both
kinks it leaves its rate there by the share of the slope that the segment has come to, up to the
same slack: it does not jump, up or down. -/
theorem borrowRate_curve {params : MarketParams} {u : Unit}
    (hm : params.toInterestRateModel.verify = .ok u) :
    (∀ util, 0 ≤ util → ∃ rate, calculateAnnualBorrowRate util params = .ok rate ∧
      params.baseBorrowRate ≤ rate ∧ rate ≤ params.maxBorrowRate) ∧
    (∀ u₁ u₂ r₁ r₂, 0 ≤ u₁ → u₁ ≤ u₂ → calculateAnnualBorrowRate u₁ params = .ok r₁ →
      calculateAnnualBorrowRate u₂ params = .ok r₂ → r₁ ≤ r₂ + (ray / (2 * params.narrowest) + 1)) ∧
    ∀ kink side width slope, (kink, side, width, slope) ∈
        [(params.midUtilization, -1, params.midUtilization, params.slope1),
          (params.midUtilization, 1, params.optimalUtilization - params.midUtilization,
            params.slope2),
          (params.optimalUtilization, -1, params.optimalUtilization - params.midUtilization,
            params.slope2),
          (params.optimalUtilization, 1, ray - params.optimalUtilization, params.slope3)] →
      ∀ d, 0 ≤ d → d < width → ∃ rate rateAt,
        calculateAnnualBorrowRate (kink + side * d) params = .ok rate ∧
        calculateAnnualBorrowRate kink params = .ok rateAt ∧
        |(rate : ℚ) - rateAt| ≤ slope * d / width + (ray / (2 * params.narrowest) + 1) := by
  replace hm := InterestRateModel.verify_ok_iff.mp hm
  have h1 := hm.mid_pos
  have h2 := hm.mid_lt_optimal
  have hw := narrowest_pos hm
  have hslack : 0 ≤ ray / (2 * params.narrowest) := Int.ediv_nonneg ray_pos.le (by omega)
  refine ⟨fun util h0 => ⟨_, calculateAnnualBorrowRate_eq hm h0, ?_, min_le_right _ _⟩, ?_, ?_⟩
  · exact le_min (base_le_curve hm (le_min h0 ray_pos.le)) hm.base_lt_max.le
  · intro u₁ u₂ r₁ r₂ h0 hle hr₁ hr₂
    rw [calculateAnnualBorrowRate_eq hm h0, Except.ok.injEq] at hr₁
    rw [calculateAnnualBorrowRate_eq hm (h0.trans hle), Except.ok.injEq] at hr₂
    have hmono := curve_mono hm (le_min h0 ray_pos.le) (min_le_min_right ray hle)
      (min_le_right u₂ ray)
    unfold annualRate at hr₁ hr₂
    omega
  · intro kink side width slope hmem d hd hwidth
    obtain ⟨hmidBelow, hmidAbove, hoptBelow, hoptAbove⟩ := joins_kinks hm
    have hjoins : params.Joins kink side width slope ∧ 0 ≤ kink ∧ 0 ≤ kink + side * d := by
      simp only [List.mem_cons, List.not_mem_nil, or_false, Prod.mk.injEq] at hmem
      rcases hmem with ⟨rfl, rfl, rfl, rfl⟩ | ⟨rfl, rfl, rfl, rfl⟩ | ⟨rfl, rfl, rfl, rfl⟩ |
        ⟨rfl, rfl, rfl, rfl⟩
      · exact ⟨hmidBelow, h1.le, by omega⟩
      · exact ⟨hmidAbove, h1.le, by omega⟩
      · exact ⟨hoptBelow, by omega, by omega⟩
      · exact ⟨hoptAbove, by omega, by omega⟩
    obtain ⟨hjoins, hkink, hat⟩ := hjoins
    exact ⟨_, _, calculateAnnualBorrowRate_eq hm hat, calculateAnnualBorrowRate_eq hm hkink,
      hjoins d hd hwidth⟩

/-- A first segment six units wide: its last unit is priced above the kink, within the slack. -/
def narrowParams : MarketParams where
  maxBorrowRate := ray
  baseBorrowRate := 0
  slope1 := ray / 10
  slope2 := ray / 10
  slope3 := ray / 10
  midUtilization := 6
  optimalUtilization := ray / 2
  maxUtilization := ray
  reserveFactor := 1_000
  isFlashloanable := false
  flashloanFee := 0
  assetId := 1
  assetDecimals := 7

theorem borrowRate_curve_sample :
    calculateAnnualBorrowRate 5 narrowParams = .ok 166_666_666_666_666_666_666_666_667 ∧
      calculateAnnualBorrowRate 6 narrowParams = .ok (ray / 10) ∧
      166_666_666_666_666_666_666_666_667 ≤
        ray / 10 + (ray / (2 * narrowParams.narrowest) + 1) ∧
      ∃ rate rateAt, calculateAnnualBorrowRate (ray / 2 + -1 * 1) narrowParams = .ok rate ∧
        calculateAnnualBorrowRate (ray / 2) narrowParams = .ok rateAt ∧
        |(rate : ℚ) - rateAt| ≤ (ray / 10 : Int) * (1 : Int) / (ray / 2 - 6 : Int) +
          (ray / (2 * narrowParams.narrowest) + 1) := by
  have h5 : calculateAnnualBorrowRate 5 narrowParams =
      .ok 166_666_666_666_666_666_666_666_667 := by decide +kernel
  have h6 : calculateAnnualBorrowRate 6 narrowParams = .ok (ray / 10) := by decide +kernel
  obtain ⟨-, hmono, hkinks⟩ := borrowRate_curve
    (show narrowParams.toInterestRateModel.verify = .ok () by decide +kernel)
  exact ⟨h5, h6, hmono 5 6 _ _ (by decide) (by decide) h5 h6,
    hkinks _ (-1) _ _ (.tail _ (.tail _ (.head _))) 1 (by decide) (by decide)⟩

end Lending
