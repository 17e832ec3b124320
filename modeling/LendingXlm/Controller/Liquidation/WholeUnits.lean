import LendingXlm.Controller.Liquidation.SeizureValue
import Mathlib.Tactic.IntervalCases

/-!
# Seizures in whole units

Collateral with too few decimals to be borrowed is seized in whole native units, and what no unit
backs of the repayment is released again:

* `Releases`, `RefundsAll`: what `release_unbacked_repayment` leaves of a plan;
* `seizeLeg_whole`: what is seized of a leg, whole units or all of it;
* `LoneSeizure`: the seizure of an account's only leg, with its sizes and its value;
* `RoundsAway`, `LoneSeizure.kept_iff`: the roundings that seize nothing and release nothing;
* `whole_units_settled`: the seizure and the repayment of a plan meet at the same unit, but for
  these.
-/

namespace Lending

open FpCore Rounding Ops Context Ctrl Invocation Transaction

variable {W : Type} {h : ControllerHost W} {timestamp : Nat} {pool : PoolCtx W}
  {prices : SortedMap Address PriceFeed}

namespace Liquidation

/-! ## Releasing -/

/-- The entries of a plan are credited and its value is theirs. -/
structure Valued (plan : NormalizedRepaymentPlan) : Prop where
  credited : ∀ e ∈ plan.repaid, Credited e
  repayUsd : plan.repayUsd = usdTotal plan.repaid

/-- `kept` is `plan` with everything that is worth something refunded. -/
structure RefundsAll (plan kept : NormalizedRepaymentPlan) : Prop where
  repaid : kept.repaid = plan.repaid.filter fun e => e.usdWad = 0
  repayUsd : kept.repayUsd = 0
  refunds : ∀ asset, totalOf asset kept.refunds = totalOf asset plan.refunds +
    totalOf asset (plan.repaid.filter fun e => e.usdWad ≠ 0)

section
variable {plan kept : NormalizedRepaymentPlan} {excess : Int}

/-- `kept` is `plan` after some of it was released: what it holds and refunds is what `plan`
did. -/
structure Releases (plan kept : NormalizedRepaymentPlan) : Prop where
  valued : Valued kept
  bonus : kept.bonus = plan.bonus
  seizeAll : kept.seizeAll = plan.seizeAll
  repaysAllDebt : plan.repaysAllDebt = false → kept.repaysAllDebt = false
  zero : (kept.repaid.filter fun e => e.usdWad = 0) = plan.repaid.filter fun e => e.usdWad = 0
  conserved : ∀ asset, totalOf asset kept.repaid + totalOf asset kept.refunds =
    totalOf asset plan.repaid + totalOf asset plan.refunds

theorem Releases.refl (hp : Valued plan) : Releases plan plan :=
  ⟨hp, rfl, rfl, id, rfl, fun _ => rfl⟩

theorem Releases.trans {mid : NormalizedRepaymentPlan} (h1 : Releases plan mid)
    (h2 : Releases mid kept) : Releases plan kept where
  valued := h2.valued
  bonus := h2.bonus.trans h1.bonus
  seizeAll := h2.seizeAll.trans h1.seizeAll
  repaysAllDebt := fun hall => h2.repaysAllDebt (h1.repaysAllDebt hall)
  zero := h2.zero.trans h1.zero
  conserved := fun asset => (h2.conserved asset).trans (h1.conserved asset)

theorem Valued.repayUsd_nonneg (hp : Valued plan) : 0 ≤ plan.repayUsd :=
  hp.repayUsd ▸ usdTotal_nonneg hp.credited

theorem releaseUnbackedRepayment_none (hexc : excess ≤ 0) :
    releaseUnbackedRepayment plan excess = .ok plan := by
  unfold releaseUnbackedRepayment
  rw [if_pos (show excess ≤ Wad.zero from hexc)]
  rfl

/-- A release keeps the rest up to one raw unit. -/
theorem releaseUnbackedRepayment_releases (hp : Valued plan) (h0 : 0 ≤ excess)
    (hle : excess ≤ plan.repayUsd) (hrel : releaseUnbackedRepayment plan excess = .ok kept) :
    Releases plan kept ∧ plan.repayUsd - excess - 1 ≤ kept.repayUsd := by
  rcases h0.eq_or_lt with rfl | hexc
  · rw [releaseUnbackedRepayment_none le_rfl, Except.ok.injEq] at hrel
    subst hrel
    exact ⟨.refl hp, by omega⟩
  · unfold releaseUnbackedRepayment at hrel
    rw [if_neg (by exact not_le.mpr hexc)] at hrel
    simp only [Fallible.bind_ok_iff, Fallible.pure_ok_iff] at hrel
    obtain ⟨⟨repaid, refunds⟩, hproc, repayUsd, hsum, rfl⟩ := hrel
    have htrims := processExcessPayment_ok (fun e he => (hp.credited e he).cuttable) hproc
    have hquote : excess = usdTotal plan.repaid - (plan.repayUsd - excess) := by
      rw [hp.repayUsd]
      ring
    rw [hquote] at hproc
    obtain ⟨before, after, cut, ht⟩ := processExcessPayment_trimmed hp.credited (by omega)
      (by rw [← hp.repayUsd]; omega) hproc
    exact ⟨⟨⟨ht.credited hp.credited, sumRepaidUsd_eq hsum⟩, rfl, rfl, fun _ => rfl,
      ht.filter_zero hp.credited, htrims.conserved⟩, sumRepaidUsd_eq hsum ▸ ht.low hp.credited⟩

theorem filter_of_usdTotal_zero {l : List RepayEntry} (hcred : ∀ e ∈ l, Credited e)
    (hzero : usdTotal l = 0) : (l.filter fun e => e.usdWad = 0) = l := by
  induction l with
  | nil => rfl
  | cons e l ih =>
    have he := (hcred e List.mem_cons_self).usd_nonneg
    have hrest : ∀ x ∈ l, Credited x := fun x hx => hcred x (List.mem_cons_of_mem _ hx)
    have hl := usdTotal_nonneg hrest
    rw [usdTotal_cons] at hzero
    rw [List.filter_cons_of_pos (by simp; omega), ih hrest (by omega)]

/-- A plan whose value was released keeps nothing that is worth anything. -/
theorem Releases.all (hrel : Releases plan kept) (hzero : kept.repayUsd = 0) :
    RefundsAll plan kept := by
  have hrepaid : kept.repaid = plan.repaid.filter fun e => e.usdWad = 0 := by
    rw [← hrel.zero, filter_of_usdTotal_zero hrel.valued.credited]
    rw [← hrel.valued.repayUsd, hzero]
  refine ⟨hrepaid, hzero, fun asset => ?_⟩
  have hconserved := hrel.conserved asset
  have hsplit : totalOf asset (plan.repaid.filter fun e => e.usdWad = 0) +
      totalOf asset (plan.repaid.filter fun e => e.usdWad ≠ 0) = totalOf asset plan.repaid := by
    unfold totalOf
    simpa using List.sum_map_filter_add_sum_map_filter_not (fun e : RepayEntry => e.usdWad = 0)
      (fun e => if AssetAmount.asset e = asset then AssetAmount.amount e else 0) plan.repaid
  rw [hrepaid] at hconserved
  omega

/-- Releasing all of the value leaves none. -/
theorem releaseUnbackedRepayment_rest (hp : Valued plan)
    (hrel : releaseUnbackedRepayment plan plan.repayUsd = .ok kept) : kept.repayUsd = 0 := by
  rcases hp.repayUsd_nonneg.eq_or_lt with h0 | hpos
  · rw [releaseUnbackedRepayment_none h0.ge, Except.ok.injEq] at hrel
    exact hrel ▸ h0.symm
  · unfold releaseUnbackedRepayment at hrel
    rw [if_neg (by exact not_le.mpr hpos)] at hrel
    simp only [Fallible.bind_ok_iff, Fallible.pure_ok_iff] at hrel
    obtain ⟨⟨repaid, refunds⟩, hproc, repayUsd, hsum, rfl⟩ := hrel
    rw [show plan.repayUsd = usdTotal plan.repaid - 0 by rw [hp.repayUsd, sub_zero]] at hproc
    obtain ⟨before, after, cut, ht⟩ := processExcessPayment_trimmed hp.credited le_rfl
      (hp.repayUsd ▸ hpos) hproc
    dsimp only
    rw [sumRepaidUsd_eq hsum]
    cases cut with
    | none => exact ht.usdTotal_uncut
    | some c =>
      -- The excess that meets the cut is below its value, so not all of it is removed.
      obtain ⟨-, hlt, -⟩ := ht.cuts c rfl
      have hexcess := ht.excess
      have hbefore : 0 ≤ usdTotal before := usdTotal_nonneg fun e he =>
        hp.credited e (by rw [ht.split]; simp [he])
      rw [ht.split] at hexcess
      simp only [Option.toList_some, List.map_cons, List.map_nil, usdTotal_append, usdTotal_cons,
        usdTotal_nil, List.sum_cons, List.sum_nil] at hexcess
      omega

end

/-! ## One leg -/

/-- What `target` dollars buy at `price`. -/
def boughtRay (target price : Int) : Int := wadToRaySaturating (halfUpDiv (target * wad) price)

theorem cappedRay_le {repayment : NormalizedRepaymentPlan} {seizureRay actualRay : Int} :
    cappedRay repayment seizureRay actualRay ≤ actualRay := by
  unfold cappedRay
  split
  · exact le_rfl
  · exact min_le_right _ _

theorem value_mono {taken taken' price : Int} (hp : 0 < price) (hle : taken ≤ taken') :
    (taken * price : ℚ) / ray ≤ taken' * price / ray := by
  have hpq : (0 : ℚ) < price := by exact_mod_cast hp
  have hr : (0 : ℚ) < (ray : Int) := by exact_mod_cast ray_pos
  have hleq : (taken : ℚ) ≤ taken' := by exact_mod_cast hle
  gcongr

/-- The repayment with its bonus is rounded by half a raw unit at most. -/
theorem seizureTarget_le (repayment : NormalizedRepaymentPlan) : (seizureTarget repayment : ℚ) ≤
    repayment.repayUsd * onePlus repayment.bonus / wad + 1 / 2 := by
  have hle := halfUpDiv_le_rat (repayment.repayUsd * onePlus repayment.bonus) wad_pos
  push_cast at hle
  exact hle

/-- `taken` rays of a position worth `actualRay` are a whole number of units, or all of it. -/
structure TakesWhole (hubAsset : HubAssetKey) (position : AccountPosition) (feed : PriceFeed)
    (actualRay : Int) (e : SeizeEntry) (taken : Int) : Prop where
  hubAsset_eq : e.hubAsset = hubAsset
  feed_eq : e.feed = feed
  le : taken ≤ actualRay
  whole : taken = e.amount * assetUnit feed.assetDecimals ∨
    taken = actualRay ∧ e.scaledAmount = position.scaledAmount

theorem boughtRay_nonneg {target price : Int} (ht : 0 ≤ target) (hp : 0 < price) :
    0 ≤ boughtRay target price :=
  wadToRaySaturating_nonneg (halfUpDiv_nonneg hp (mul_nonneg ht wad_pos.le))

/-- What is bought is worth its dollars, up to the rounding of its tokens. -/
theorem boughtRay_value {target price : Int} (ht : 0 ≤ target) (hp : 0 < price) :
    (boughtRay target price * price : ℚ) / ray ≤ target + price / (2 * wad) := by
  have htokens := halfUpDiv_le_rat (target * wad) hp
  have hbought := wadToRaySaturating_le (halfUpDiv_nonneg hp (mul_nonneg ht wad_pos.le))
  unfold boughtRay
  set tokens := halfUpDiv (target * wad) price
  have hw : (0 : ℚ) < (wad : Int) := by exact_mod_cast wad_pos
  have hpq : (0 : ℚ) < price := by exact_mod_cast hp
  have hrayq : ((ray : Int) : ℚ) = (ray / wad : Int) * (wad : Int) := by norm_num [ray, wad]
  have hnine : (0 : ℚ) < (ray / wad : Int) := by norm_num [ray, wad]
  push_cast at htokens
  calc (wadToRaySaturating tokens * price : ℚ) / ray
      ≤ (tokens * (ray / wad : Int) : ℚ) * price / ray := by
        gcongr
        · exact_mod_cast ray_pos.le
        · exact_mod_cast hbought
    _ = tokens * price / wad := by
        rw [hrayq]
        field_simp
    _ ≤ (target * wad / price + 1 / 2) * price / wad := by gcongr
    _ = target + price / (2 * wad) := by field_simp

/-- Whole units are worth their dollars, up to half a raw unit. -/
theorem unitsUsd_value (k price : Int) {d : Nat} (hd : d ≤ wadDecimals) :
    (k * assetUnit d * price : ℚ) / ray ≤ unitsUsd (k * assetUnit d) price + 1 / 2 := by
  have hnine : (0 : Int) < 10 ^ (rayDecimals - wadDecimals) := by decide
  have hsplit := assetUnit_eq_wad hd
  have hexact : k * assetUnit d / 10 ^ (rayDecimals - wadDecimals) =
      k * 10 ^ (wadDecimals - d) := by
    rw [hsplit, ← mul_assoc, Int.mul_ediv_cancel _ hnine.ne']
  have hround := le_halfUpDiv_mul (k * 10 ^ (wadDecimals - d) * price) wad_pos
  unfold unitsUsd
  rw [hexact]
  set worth := halfUpDiv (k * 10 ^ (wadDecimals - d) * price) wad
  have hround' : 2 * ((k : ℚ) * 10 ^ (wadDecimals - d) * price) ≤ 2 * (worth * wad) + wad := by
    exact_mod_cast hround
  have hr : (0 : ℚ) < (ray : Int) := by exact_mod_cast ray_pos
  have hrayq : ((ray : Int) : ℚ) = 10 ^ (rayDecimals - wadDecimals) * (wad : Int) := by
    norm_num [ray, wad, rayDecimals, wadDecimals]
  rw [div_le_iff₀ hr, hrayq, hsplit]
  push_cast
  have hnineq : (0 : ℚ) ≤ 10 ^ (rayDecimals - wadDecimals) := by positivity
  nlinarith

theorem two_dvd_assetUnit {d : Nat} (hd : d ≤ wadDecimals) : (2 : Int) ∣ assetUnit d := by
  refine dvd_pow (by decide) ?_
  simp only [rayDecimals, wadDecimals] at hd ⊢
  omega

/-- A unit of such an asset is worth shares at every index. -/
theorem maxSupplyIndexRay_lt {d : Nat} (hd : d < minBorrowableAssetDecimals) :
    maxSupplyIndexRay < assetUnit d * ray := by
  simp only [minBorrowableAssetDecimals] at hd
  interval_cases d <;> decide

section
variable {hubAsset : HubAssetKey} {position : AccountPosition} {feed : PriceFeed}
  {marketIndex : MarketIndex} {onePlusBonus seizureRay capped actualRay : Int}
  {entry : Option SeizeEntry}

/-- What is seized of a leg is whole units or all of it, and all of a leg gives nothing when it is
below half a unit. -/
theorem seizeLeg_whole (hd : feed.assetDecimals < minBorrowableAssetDecimals)
    (hs : 0 < position.scaledAmount) (hi : 0 < marketIndex.supplyIndex)
    (himax : marketIndex.supplyIndex ≤ maxSupplyIndexRay) (hcap : 0 < capped)
    (hle : capped ≤ actualRay)
    (hunits : assetUnit feed.assetDecimals ∣ capped ∨ capped = actualRay)
    (hleg : seizeLeg hubAsset position feed marketIndex onePlusBonus seizureRay capped actualRay =
      .ok entry) :
    (∀ e ∈ entry, TakesWhole hubAsset position feed actualRay e capped) ∧
      (entry = none ↔ capped = actualRay ∧ 2 * actualRay < assetUnit feed.assetDecimals) := by
  have hd' := decimals_le_of_whole hd
  have hunit := assetUnit_pos feed.assetDecimals
  have hz : Ray.zero = 0 := rfl
  unfold seizeLeg at hleg
  obtain ⟨rayBonus, -, hleg⟩ := Fallible.bind_ok hleg
  obtain ⟨baseRay, -, hleg⟩ := Fallible.bind_ok hleg
  obtain ⟨bonusRay, -, hleg⟩ := Fallible.bind_ok hleg
  obtain ⟨feeRay, -, hleg⟩ := Fallible.bind_ok hleg
  obtain ⟨seizedScaled, hscaled, hleg⟩ := Fallible.bind_ok hleg
  obtain ⟨bonusShares, -, hleg⟩ := Fallible.bind_ok hleg
  simp only [decide_eq_true_eq] at hscaled hleg
  -- A multiple of the unit is at least one unit.
  have hone : capped ≠ actualRay → assetUnit feed.assetDecimals ≤ capped := fun hne =>
    Int.le_of_dvd hcap (hunits.resolve_right hne)
  have hpos : 0 < seizedScaled := by
    by_cases hfull : capped = actualRay
    · rw [if_pos hfull, Fallible.pure_ok_iff] at hscaled
      omega
    · rw [if_neg hfull, Ray.divFloor_ok_iff hi] at hscaled
      refine hscaled.2 ▸ Int.lt_of_lt_of_le one_pos ((le_floor_iff hi).mpr ?_)
      have hunits' := mul_le_mul_of_nonneg_right (hone hfull) ray_pos.le
      have hmax := maxSupplyIndexRay_lt hd
      omega
  rw [if_neg (by omega)] at hleg
  obtain ⟨amount, hamount, hleg⟩ := Fallible.bind_ok hleg
  by_cases hfull : capped = actualRay
  · rw [if_pos hfull, Fallible.pure_ok_iff] at hscaled
    rw [if_pos hfull, Ray.toAsset_eq hcap.le hd', Except.ok.injEq] at hamount
    split at hleg
    · rename_i hzero
      rw [Fallible.pure_ok_iff] at hleg
      subst hleg
      refine ⟨by simp, fun _ => ⟨hfull, ?_⟩, fun _ => rfl⟩
      have hround := lt_halfUpDiv_mul capped hunit (two_dvd_assetUnit hd')
      have hle0 := mul_nonpos_of_nonpos_of_nonneg (hamount ▸ hzero) hunit.le
      omega
    · rename_i hsome
      simp only [Fallible.bind_ok_iff, Fallible.pure_ok_iff] at hleg
      obtain ⟨_, -, _, -, _, -, _, -, rfl⟩ := hleg
      refine ⟨fun e he => ?_, ⟨fun hnone => absurd hnone (Option.some_ne_none _), fun hhalf => ?_⟩⟩
      · obtain rfl := Option.mem_some.mp he
        exact ⟨rfl, rfl, hle, .inr ⟨hfull, hscaled.symm⟩⟩
      · have hround := halfUpDiv_mul_le capped hunit
        have hone := mul_le_mul_of_nonneg_right (Int.add_one_le_of_lt (not_le.mp hsome)) hunit.le
        rw [← hamount] at hone
        omega
  · rw [if_neg hfull, Ray.toAssetFloor_eq hcap.le hd', Except.ok.injEq] at hamount
    obtain ⟨k, hk⟩ := hunits.resolve_right hfull
    have hcapped : amount * assetUnit feed.assetDecimals = capped := by
      rw [← hamount, hk, Int.mul_ediv_cancel_left _ hunit.ne', mul_comm]
    have hamount0 : 0 < amount := by
      by_contra hle0
      have := mul_nonpos_of_nonpos_of_nonneg (not_lt.mp hle0) hunit.le
      omega
    rw [if_neg (by omega)] at hleg
    simp only [Fallible.bind_ok_iff, Fallible.pure_ok_iff] at hleg
    obtain ⟨_, -, _, -, _, -, _, -, rfl⟩ := hleg
    refine ⟨fun e he => ?_, ⟨fun hnone => absurd hnone (Option.some_ne_none _), fun hhalf =>
      absurd hhalf.1 hfull⟩⟩
    obtain rfl := Option.mem_some.mp he
    exact ⟨rfl, rfl, hle, .inl hcapped.symm⟩

end

/-! ## A lone leg -/

section
variable {leg : HubAssetKey × AccountPosition} {feed : PriceFeed} {index : MarketIndex}
  {actualRay total rays dropped unbackedUsd : Int} {repayment : NormalizedRepaymentPlan}
  {seized : List SeizeEntry} {account : Account}

/-- The seizure of an account's only leg, worth `total`: it is sized to `rays`, which leaves out
`dropped` of the dollars asked. -/
structure LoneSeizure (h : ControllerHost W) (timestamp : Nat) (pool : PoolCtx W)
    (prices : SortedMap Address PriceFeed) (repayment : NormalizedRepaymentPlan) (total : Int)
    (leg : HubAssetKey × AccountPosition) (feed : PriceFeed) (index : MarketIndex)
    (actualRay rays dropped : Int) (seized : List SeizeEntry) (unbackedUsd : Int) : Prop extends
    SizedLeg h timestamp pool prices repayment total 0 leg feed index actualRay total rays
      dropped where
  bonus_nonneg : 0 ≤ repayment.bonus
  taken : (rays ≤ 0 ∨ cappedRay repayment rays actualRay ≤ 0) ∧ seized = [] ∨
    0 < rays ∧ 0 < cappedRay repayment rays actualRay ∧ ∃ entry,
      seizeLeg leg.1 leg.2 feed index (onePlus repayment.bonus) rays
        (cappedRay repayment rays actualRay) actualRay = .ok entry ∧ seized = entry.toList
  unbackedUsd_eq : unbackedUsd = dropped * wad / onePlus repayment.bonus

theorem calculateSeizedCollateral_lone (honly : account.supplyPositions.entries = [leg])
    (hleg : LegAt timestamp pool prices leg feed index actualRay total) :
    ReadsAt h timestamp pool prices
      (calculateSeizedCollateral timestamp account total repayment) fun r =>
      total ≤ 0 ∧ r = ([], 0) ∨ ∃ rays dropped, LoneSeizure h timestamp pool prices repayment
        total leg feed index actualRay rays dropped r.1 r.2 := by
  refine calculateSeizedCollateral_legs (P := fun acc => ∃ rays,
    SizedLeg h timestamp pool prices repayment total 0 leg feed index actualRay total rays acc.2 ∧
      ((rays ≤ 0 ∨ cappedRay repayment rays actualRay ≤ 0) ∧ acc.1 = [] ∨
        0 < rays ∧ 0 < cappedRay repayment rays actualRay ∧ ∃ entry,
          seizeLeg leg.1 leg.2 feed index (onePlus repayment.bonus) rays
            (cappedRay repayment rays actualRay) actualRay = .ok entry ∧ acc.1 = entry.toList))
    (fun hle => .inl ⟨hle, rfl⟩) (fun _ _ => ?_) fun acc _ hbonus hacc => ?_
  · rw [honly, List.foldlM_cons]
    simp only [List.foldlM_nil, bind_pure]
    refine seizePosition_sized.mono ?_
    rintro acc ⟨feed', index', actual', value', rays, hs, hacc⟩
    obtain ⟨rfl, rfl, rfl, rfl⟩ := hleg.unique hs.legAt
    exact ⟨rays, hs, hacc⟩
  · obtain ⟨rays, hs, htaken⟩ := hacc
    exact .inr ⟨rays, acc.2, hs, hbonus, htaken, rfl⟩

/-- The roundings that leave neither a seizure nor anything to release of a repayment for a leg of
`actualRay`, all of a collateral worth `total`. -/
inductive RoundsAway (feed : PriceFeed) (actualRay total : Int)
    (repayment : NormalizedRepaymentPlan) : Prop
  /-- The collateral is worth nothing. -/
  | worthless (htotal : total = 0)
  /-- All of the leg or the next unit is asked for, and the leg is below half a unit. -/
  | halfUnit (hall : repayment.seizeAll = true ∨ repayment.repaysAllDebt = true ∨
      actualRay ≤ boughtRay (seizureTarget repayment) feed.price)
      (hhalf : 2 * actualRay < assetUnit feed.assetDecimals)
  /-- All of the leg or the next unit is asked for, and the repayment buys nothing. -/
  | buysNothing (hall : repayment.seizeAll = true ∨ repayment.repaysAllDebt = true)
      (hbought : boughtRay (seizureTarget repayment) feed.price = 0)
  /-- The repayment buys no unit, and the bonus rounds its one raw unit away. -/
  | rawUnit (hall : repayment.seizeAll = false) (hpart : repayment.repaysAllDebt = false)
      (hlt : boughtRay (seizureTarget repayment) feed.price < assetUnit feed.assetDecimals)
      (hheld : boughtRay (seizureTarget repayment) feed.price < actualRay)
      (hone : repayment.repayUsd = 1)
      (hround : seizureTarget repayment * wad < onePlus repayment.bonus)

namespace LoneSeizure

variable (hl : LoneSeizure h timestamp pool prices repayment total leg feed index actualRay rays
  dropped seized unbackedUsd)

include hl

/-- The leg is all of the collateral, so it is asked for all of the target. -/
theorem requested : requestedRay (seizureTarget repayment) total total feed.price =
      boughtRay (seizureTarget repayment) feed.price ∧
    requestedUsd (seizureTarget repayment) total total = seizureTarget repayment := by
  have hshare : halfUpDiv (total * wad) total = wad := by
    rw [mul_comm, halfUpDiv_mul_self _ hl.total_pos]
  have husd : requestedUsd (seizureTarget repayment) total total = seizureTarget repayment := by
    unfold requestedUsd
    rw [hshare, halfUpDiv_mul_self _ wad_pos]
  refine ⟨?_, husd⟩
  change wadToRaySaturating (halfUpDiv (requestedUsd (seizureTarget repayment) total total * wad)
    feed.price) = _
  rw [husd]
  rfl

theorem bought_nonneg : 0 ≤ boughtRay (seizureTarget repayment) feed.price :=
  boughtRay_nonneg hl.target_nonneg hl.price_pos

/-- All of the leg is taken, or the next whole unit, or the whole units of what is bought. -/
theorem sizes (hd : feed.assetDecimals < minBorrowableAssetDecimals) :
    (repayment.seizeAll = true ∨ actualRay ≤ boughtRay (seizureTarget repayment) feed.price) ∧
        rays = boughtRay (seizureTarget repayment) feed.price ∧ dropped = 0 ∨
      (repayment.seizeAll = false ∧
        boughtRay (seizureTarget repayment) feed.price < actualRay) ∧
        (repayment.repaysAllDebt = true ∧ dropped = 0 ∧
            rays = min (ceilDiv (boughtRay (seizureTarget repayment) feed.price)
              (assetUnit feed.assetDecimals) * assetUnit feed.assetDecimals) actualRay ∨
          repayment.repaysAllDebt = false ∧
            rays = boughtRay (seizureTarget repayment) feed.price /
              assetUnit feed.assetDecimals * assetUnit feed.assetDecimals ∧
            dropped = max 0 (seizureTarget repayment - unitsUsd rays feed.price)) := by
  have hr := hl.sized
  obtain ⟨hray, husd⟩ := hl.requested
  have h0 := hl.bought_nonneg
  have hd' := decimals_le_of_whole hd
  rw [hray, husd] at hr
  split at hr
  · rename_i hwhole
    right
    refine ⟨⟨by simpa using hwhole.1, hwhole.2.2⟩, ?_⟩
    cases hall : repayment.repaysAllDebt with
    | true =>
      rw [hall] at hr
      obtain ⟨hrays, hdropped⟩ := wholeUnitSeizure_up h0 hd' hr
      exact .inl ⟨rfl, hdropped, hrays⟩
    | false =>
      rw [hall] at hr
      obtain ⟨hrays, hdropped⟩ := wholeUnitSeizure_down h0 hd' hr
      exact .inr ⟨rfl, hrays, hdropped.trans (zero_add _)⟩
  · rename_i hno
    simp only [Fallible.pure_ok_iff, Prod.mk.injEq] at hr
    refine .inl ⟨?_, hr.1.symm, hr.2.symm⟩
    by_contra hneither
    rw [not_or, not_le, Bool.not_eq_true] at hneither
    exact hno ⟨by simpa using hneither.1, hd, hneither.2⟩

/-- What is taken is a whole number of units, or all of the leg. -/
theorem units (hd : feed.assetDecimals < minBorrowableAssetDecimals) :
    assetUnit feed.assetDecimals ∣ cappedRay repayment rays actualRay ∨
      cappedRay repayment rays actualRay = actualRay := by
  have hunit := assetUnit_pos feed.assetDecimals
  unfold cappedRay
  rcases hl.sizes hd with ⟨hall | hle, hrays, -⟩ | ⟨⟨hall, hlt⟩, ⟨-, -, hrays⟩ | ⟨-, hrays, -⟩⟩
  · exact .inr (if_pos hall)
  · right
    split
    · rfl
    · exact min_eq_right (hrays ▸ hle)
  · rw [hall, if_neg Bool.false_ne_true, hrays, min_assoc, min_self]
    rcases le_total (ceilDiv (boughtRay (seizureTarget repayment) feed.price)
      (assetUnit feed.assetDecimals) * assetUnit feed.assetDecimals) actualRay with hle | hle
    · rw [min_eq_left hle]
      exact .inl (Dvd.intro_left _ rfl)
    · exact .inr (min_eq_right hle)
  · rw [hall, if_neg Bool.false_ne_true, hrays,
      min_eq_left ((floor_mul_le _ hunit).trans hlt.le)]
    exact .inl (Dvd.intro_left _ rfl)

/-- Nothing is seized for no rays, and of a leg below half a unit. -/
theorem seized_whole (hrun : MarketsRun timestamp pool.markets) (hs : 0 < leg.2.scaledAmount)
    (hd : feed.assetDecimals < minBorrowableAssetDecimals) (hactual : 0 < actualRay) :
    seized = [] ∧ (rays ≤ 0 ∨ cappedRay repayment rays actualRay = actualRay ∧
          2 * actualRay < assetUnit feed.assetDecimals) ∨
      (0 < rays ∧ ¬ (cappedRay repayment rays actualRay = actualRay ∧
          2 * actualRay < assetUnit feed.assetDecimals)) ∧
        ∃ e, seized = [e] ∧
          TakesWhole leg.1 leg.2 feed actualRay e (cappedRay repayment rays actualRay) := by
  have hcapped : 0 < rays → 0 < cappedRay repayment rays actualRay := by
    intro hrays
    unfold cappedRay
    split
    · exact hactual
    · exact lt_min hrays hactual
  rcases hl.taken with ⟨hstop, hnone⟩ | ⟨hrays, hcap, entry, hentry, hseized⟩
  · refine .inl ⟨hnone, .inl (not_lt.mp fun hrays => ?_)⟩
    have := hcapped hrays
    omega
  obtain ⟨m, c, -, -, -, -, hc, hindex, -⟩ := hl.legAt.current.synced hrun
  obtain ⟨hsome, hnone⟩ := seizeLeg_whole hd hs (supplyIndex_pos hrun hl.legAt.current)
    (hindex ▸ hc.bounds.supplyIndex_le) hcap cappedRay_le (hl.units hd) hentry
  cases entry with
  | none => exact .inl ⟨hseized, .inr (hnone.mp rfl)⟩
  | some e =>
    refine .inr ⟨⟨hrays, fun hhalf => ?_⟩, e, hseized, hsome e rfl⟩
    cases hnone.mpr hhalf

theorem seized_nil_iff (hrun : MarketsRun timestamp pool.markets) (hs : 0 < leg.2.scaledAmount)
    (hd : feed.assetDecimals < minBorrowableAssetDecimals) (hactual : 0 < actualRay) :
    seized = [] ↔ rays ≤ 0 ∨ cappedRay repayment rays actualRay = actualRay ∧
      2 * actualRay < assetUnit feed.assetDecimals := by
  rcases hl.seized_whole hrun hs hd hactual with ⟨hnone, hwhy⟩ | ⟨⟨hrays, hno⟩, e, hsome, -⟩
  · exact iff_of_true hnone hwhy
  · exact iff_of_false (by rw [hsome]; exact List.cons_ne_nil _ _)
      (not_or.mpr ⟨not_le.mpr hrays, hno⟩)

theorem rays_nonneg (hd : feed.assetDecimals < minBorrowableAssetDecimals)
    (hactual : 0 ≤ actualRay) : 0 ≤ rays := by
  have h0 := hl.bought_nonneg
  have hunit := assetUnit_pos feed.assetDecimals
  rcases hl.sizes hd with ⟨-, hrays, -⟩ | ⟨-, ⟨-, -, hrays⟩ | ⟨-, hrays, -⟩⟩
  · exact hrays ▸ h0
  · exact hrays ▸ le_min (mul_nonneg (ceilDiv_nonneg hunit h0) hunit.le) hactual
  · exact hrays ▸ mul_nonneg (floor_nonneg hunit h0) hunit.le

theorem unitsUsd_nonneg (hrays : 0 ≤ rays) : 0 ≤ unitsUsd rays feed.price := by
  unfold unitsUsd
  exact halfUpDiv_nonneg wad_pos
    (mul_nonneg (floor_nonneg (by decide) hrays) hl.price_pos.le)

theorem dropped_bounds (hd : feed.assetDecimals < minBorrowableAssetDecimals)
    (hactual : 0 ≤ actualRay) : 0 ≤ dropped ∧ dropped ≤ seizureTarget repayment := by
  have ht := hl.target_nonneg
  have husd := hl.unitsUsd_nonneg (hl.rays_nonneg hd hactual)
  rcases hl.sizes hd with ⟨-, -, hdropped⟩ | ⟨-, ⟨-, hdropped, -⟩ | ⟨-, -, hdropped⟩⟩ <;> omega

theorem onePlus_pos : 0 < onePlus repayment.bonus :=
  wad_pos.trans_le (wad_le_onePlus hl.bonus_nonneg)

/-- What is unbacked is part of the repayment. -/
theorem unbacked_bounds (hd : feed.assetDecimals < minBorrowableAssetDecimals)
    (hactual : 0 ≤ actualRay) : 0 ≤ unbackedUsd ∧ unbackedUsd ≤ repayment.repayUsd := by
  obtain ⟨h0, hle⟩ := hl.dropped_bounds hd hactual
  have hb := hl.onePlus_pos
  have hw := wad_pos
  rw [hl.unbackedUsd_eq]
  refine ⟨floor_nonneg hb (mul_nonneg h0 hw.le), Int.le_of_lt_add_one ((floor_lt_iff hb).mpr ?_)⟩
  have hround := halfUpDiv_mul_le (repayment.repayUsd * onePlus repayment.bonus) hw
  have hone := wad_le_onePlus hl.bonus_nonneg
  have hdropped := mul_le_mul_of_nonneg_right hle hw.le
  unfold seizureTarget at hdropped
  linarith

/-- A repayment of more than one raw unit that is dropped whole is released. -/
theorem unbacked_pos (hdropped : dropped = seizureTarget repayment)
    (hpos : onePlus repayment.bonus ≤ seizureTarget repayment * wad) : 0 < unbackedUsd := by
  rw [hl.unbackedUsd_eq, hdropped]
  exact Int.lt_of_lt_of_le one_pos ((le_floor_iff hl.onePlus_pos).mpr (by rwa [one_mul]))

theorem target_two (htwo : 2 ≤ repayment.repayUsd) :
    onePlus repayment.bonus ≤ seizureTarget repayment * wad := by
  have hround := le_halfUpDiv_mul (repayment.repayUsd * onePlus repayment.bonus) wad_pos
  have hone := wad_le_onePlus hl.bonus_nonneg
  have hb := hl.onePlus_pos
  have htwice := mul_le_mul_of_nonneg_right htwo hb.le
  unfold seizureTarget
  linarith

/-- What is bought is paid for when nothing is dropped. -/
theorem bought_paid {taken : Int} (hdropped : dropped = 0)
    (hle : taken ≤ boughtRay (seizureTarget repayment) feed.price) :
    unbackedUsd = 0 ∧ (taken * feed.price : ℚ) / ray ≤
      repayment.repayUsd * onePlus repayment.bonus / wad + (feed.price / (2 * wad) + 1) := by
  refine ⟨by rw [hl.unbackedUsd_eq, hdropped, zero_mul, Int.zero_ediv], ?_⟩
  calc (taken * feed.price : ℚ) / ray
      ≤ boughtRay (seizureTarget repayment) feed.price * feed.price / ray :=
        value_mono hl.price_pos hle
    _ ≤ seizureTarget repayment + feed.price / (2 * wad) :=
        boughtRay_value hl.target_nonneg hl.price_pos
    _ ≤ _ := by linarith [seizureTarget_le repayment]

/-- The liquidator pays for every unit, up to the roundings. -/
theorem value_le (hd : feed.assetDecimals < minBorrowableAssetDecimals)
    (hall : repayment.seizeAll = false) (hpart : repayment.repaysAllDebt = false) :
    (cappedRay repayment rays actualRay * feed.price : ℚ) / ray ≤
      (repayment.repayUsd - unbackedUsd) * onePlus repayment.bonus / wad +
        (feed.price / (2 * wad) + 1) := by
  have hcap : cappedRay repayment rays actualRay ≤ rays := by
    unfold cappedRay
    rw [hall]
    exact min_le_left _ _
  have hunit := assetUnit_pos feed.assetDecimals
  have hpaid : dropped = 0 → rays ≤ boughtRay (seizureTarget repayment) feed.price →
      (cappedRay repayment rays actualRay * feed.price : ℚ) / ray ≤
        (repayment.repayUsd - unbackedUsd) * onePlus repayment.bonus / wad +
          (feed.price / (2 * wad) + 1) := by
    intro hdropped hrays
    obtain ⟨hu, hvalue⟩ := hl.bought_paid hdropped (hcap.trans hrays)
    rw [hu, Int.cast_zero, sub_zero]
    exact hvalue
  rcases hl.sizes hd with ⟨-, hrays, hdropped⟩ | ⟨-, ⟨hrepays, -⟩ | ⟨-, hrays, hdropped⟩⟩
  · exact hpaid hdropped hrays.le
  · rw [hpart] at hrepays
    cases hrepays
  · rcases le_total (seizureTarget repayment) (unitsUsd rays feed.price) with hle | hge
    · exact hpaid (by omega) (hrays ▸ floor_mul_le _ hunit)
    -- The dollars of the units are the target less what was dropped.
    have hunits := unitsUsd_value
      (boughtRay (seizureTarget repayment) feed.price / assetUnit feed.assetDecimals) feed.price
      (decimals_le_of_whole hd)
    rw [← hrays] at hunits
    have hrays' : ((boughtRay (seizureTarget repayment) feed.price /
        assetUnit feed.assetDecimals : Int) : ℚ) * (assetUnit feed.assetDecimals : Int) =
          (rays : Int) := by
      rw [hrays]
      push_cast
      rfl
    rw [hrays'] at hunits
    have hb := hl.onePlus_pos
    have hu := floor_mul_le (dropped * wad) hb
    rw [← hl.unbackedUsd_eq, hdropped, max_eq_right (by omega)] at hu
    have hw : (0 : ℚ) < (wad : Int) := by exact_mod_cast wad_pos
    have hbq : (0 : ℚ) < onePlus repayment.bonus := by exact_mod_cast hb
    have huq : (unbackedUsd : ℚ) * onePlus repayment.bonus ≤
        (seizureTarget repayment - unitsUsd rays feed.price) * wad := by exact_mod_cast hu
    have hback : (unbackedUsd : ℚ) * onePlus repayment.bonus / wad ≤
        seizureTarget repayment - unitsUsd rays feed.price := (div_le_iff₀ hw).mpr huq
    have hpq : (0 : ℚ) ≤ feed.price / (2 * (wad : Int)) := by
      have : (0 : ℚ) < feed.price := by exact_mod_cast hl.price_pos
      positivity
    have htarget := seizureTarget_le repayment
    calc (cappedRay repayment rays actualRay * feed.price : ℚ) / ray
        ≤ rays * feed.price / ray := value_mono hl.price_pos hcap
      _ ≤ unitsUsd rays feed.price + 1 / 2 := hunits
      _ ≤ _ := by
          rw [sub_mul, sub_div]
          linarith

/-- A plan that repays all debt drops nothing and takes less than a unit more. -/
theorem value_lt (hd : feed.assetDecimals < minBorrowableAssetDecimals)
    (hall : repayment.seizeAll = false) (hrepays : repayment.repaysAllDebt = true) :
    unbackedUsd = 0 ∧ (cappedRay repayment rays actualRay * feed.price : ℚ) / ray <
      repayment.repayUsd * onePlus repayment.bonus / wad + (feed.price / (2 * wad) + 1) +
        assetUnit feed.assetDecimals * feed.price / ray := by
  have hunit := assetUnit_pos feed.assetDecimals
  have hcap : cappedRay repayment rays actualRay ≤ rays := by
    unfold cappedRay
    rw [hall]
    exact min_le_left _ _
  obtain ⟨hdropped, hlt⟩ : dropped = 0 ∧ cappedRay repayment rays actualRay <
      boughtRay (seizureTarget repayment) feed.price + assetUnit feed.assetDecimals := by
    rcases hl.sizes hd with ⟨-, hrays, hdropped⟩ | ⟨-, ⟨-, hdropped, hrays⟩ | ⟨hpart, -⟩⟩
    · exact ⟨hdropped, by omega⟩
    · refine ⟨hdropped, (hcap.trans (hrays ▸ min_le_left _ _)).trans_lt ?_⟩
      exact ceilDiv_mul_lt _ hunit
    · rw [hrepays] at hpart
      cases hpart
  obtain ⟨hu, hvalue⟩ := hl.bought_paid hdropped le_rfl
  have hpq : (0 : ℚ) < feed.price := by exact_mod_cast hl.price_pos
  have hr : (0 : ℚ) < (ray : Int) := by exact_mod_cast ray_pos
  have hltq : (cappedRay repayment rays actualRay : ℚ) <
      boughtRay (seizureTarget repayment) feed.price + assetUnit feed.assetDecimals := by
    exact_mod_cast hlt
  refine ⟨hu, ?_⟩
  calc (cappedRay repayment rays actualRay * feed.price : ℚ) / ray
      < (boughtRay (seizureTarget repayment) feed.price + assetUnit feed.assetDecimals) *
          feed.price / ray := by gcongr
    _ = boughtRay (seizureTarget repayment) feed.price * feed.price / ray +
          assetUnit feed.assetDecimals * feed.price / ray := by ring
    _ ≤ _ := by linarith

/-- Without a unit to take, nothing is seized and all of the target is dropped. -/
theorem nothing (hd : feed.assetDecimals < minBorrowableAssetDecimals)
    (hall : repayment.seizeAll = false) (hpart : repayment.repaysAllDebt = false)
    (hlt : boughtRay (seizureTarget repayment) feed.price < assetUnit feed.assetDecimals)
    (hheld : boughtRay (seizureTarget repayment) feed.price < actualRay) : seized = [] := by
  rcases hl.sizes hd with ⟨hbig | hbig, -⟩ | ⟨-, ⟨hrepays, -⟩ | ⟨-, hrays, -⟩⟩
  · rw [hall] at hbig
    cases hbig
  · omega
  · rw [hpart] at hrepays
    cases hrepays
  · rw [Int.ediv_eq_zero_of_lt hl.bought_nonneg hlt, zero_mul] at hrays
    rcases hl.taken with ⟨-, hnone⟩ | ⟨hpos, -⟩
    · exact hnone
    · omega

/-- Where all of the leg is asked for, nothing of it is seized for want of dollars or of half a
unit. -/
theorem full_iff (hactual : 0 < actualRay)
    (hfull : repayment.seizeAll = true ∨
      actualRay ≤ boughtRay (seizureTarget repayment) feed.price)
    (hrays : rays = boughtRay (seizureTarget repayment) feed.price) :
    (rays ≤ 0 ∨ cappedRay repayment rays actualRay = actualRay ∧
      2 * actualRay < assetUnit feed.assetDecimals) ↔
        RoundsAway feed actualRay total repayment := by
  have h0 := hl.bought_nonneg
  have htotal := hl.total_pos
  have hcap : cappedRay repayment rays actualRay = actualRay := by
    unfold cappedRay
    split
    · rfl
    · rename_i hall
      exact min_eq_right (hrays ▸ hfull.resolve_left hall)
  constructor
  · rintro (hnone | ⟨-, hhalf⟩)
    · exact .buysNothing (.inl (hfull.resolve_right (by omega))) (by omega)
    · exact .halfUnit (hfull.imp_right .inr) hhalf
  · rintro (hworthless | ⟨-, hhalf⟩ | ⟨-, hzero⟩ | ⟨hall, -, -, hheld⟩)
    · omega
    · exact .inr ⟨hcap, hhalf⟩
    · exact .inl (by omega)
    · rcases hfull with hfull | hfull
      · rw [hall] at hfull
        cases hfull
      · omega

/-- So it is where the next unit is asked for. -/
theorem next_iff (hactual : 0 < actualRay) (hall : repayment.seizeAll = false)
    (hrepays : repayment.repaysAllDebt = true)
    (hrays : rays = min (ceilDiv (boughtRay (seizureTarget repayment) feed.price)
      (assetUnit feed.assetDecimals) * assetUnit feed.assetDecimals) actualRay) :
    (rays ≤ 0 ∨ cappedRay repayment rays actualRay = actualRay ∧
      2 * actualRay < assetUnit feed.assetDecimals) ↔
        RoundsAway feed actualRay total repayment := by
  have hunit := assetUnit_pos feed.assetDecimals
  have h0 := hl.bought_nonneg
  have htotal := hl.total_pos
  have hzero : boughtRay (seizureTarget repayment) feed.price = 0 → rays ≤ 0 := fun hzero => by
    rw [hrays, hzero]
    exact (min_le_left _ _).trans_eq (by simp [ceilDiv])
  constructor
  · rintro (hnone | ⟨-, hhalf⟩)
    · have hup := le_ceilDiv_mul (boughtRay (seizureTarget repayment) feed.price) hunit
      refine .buysNothing (.inr hrepays) (le_antisymm (hup.trans ?_) h0)
      exact (min_le_iff.mp (hrays ▸ hnone)).resolve_right (not_le.mpr hactual)
    · exact .halfUnit (.inr (.inl hrepays)) hhalf
  · rintro (hworthless | ⟨-, hhalf⟩ | ⟨-, hnone⟩ | ⟨-, hpart, -⟩)
    · omega
    · rcases h0.eq_or_lt with hnone | hsome
      · exact .inl (hzero hnone.symm)
      · -- Half a unit is below the next one, so all of the leg is asked for.
        have hleast := mul_le_mul_of_nonneg_right
          (Int.add_one_le_of_lt (ceilDiv_pos hunit hsome)) hunit.le
        rw [min_eq_right (by omega)] at hrays
        right
        unfold cappedRay
        rw [hall, if_neg Bool.false_ne_true, hrays, min_self]
        exact ⟨rfl, hhalf⟩
    · exact .inl (hzero hnone)
    · rw [hrepays] at hpart
      cases hpart

/-- Where whole units are asked for, none of them leaves all of the target to release, and that is
nothing only where the bonus rounds it away. -/
theorem floor_iff (hd : feed.assetDecimals < minBorrowableAssetDecimals) (hactual : 0 < actualRay)
    (hpos : 0 < repayment.repayUsd) (hall : repayment.seizeAll = false)
    (hpart : repayment.repaysAllDebt = false)
    (hlt : boughtRay (seizureTarget repayment) feed.price < actualRay)
    (hrays : rays = boughtRay (seizureTarget repayment) feed.price /
      assetUnit feed.assetDecimals * assetUnit feed.assetDecimals)
    (hdropped : dropped = max 0 (seizureTarget repayment - unitsUsd rays feed.price)) :
    (rays ≤ 0 ∨ cappedRay repayment rays actualRay = actualRay ∧
      2 * actualRay < assetUnit feed.assetDecimals) ∧ unbackedUsd = 0 ↔
        RoundsAway feed actualRay total repayment := by
  have hunit := assetUnit_pos feed.assetDecimals
  have h0 := hl.bought_nonneg
  have htotal := hl.total_pos
  have hcap : cappedRay repayment rays actualRay < actualRay := by
    unfold cappedRay
    rw [hall, if_neg Bool.false_ne_true]
    exact (min_le_left _ _).trans_lt ((hrays ▸ floor_mul_le _ hunit).trans_lt hlt)
  have hnone : rays ≤ 0 → dropped = seizureTarget repayment := by
    intro hle
    have hzero : rays = 0 := le_antisymm hle (hl.rays_nonneg hd hactual.le)
    have hunits : unitsUsd rays feed.price = 0 := by
      rw [hzero]
      unfold unitsUsd
      rw [Int.zero_ediv, zero_mul, halfUpDiv_zero wad_pos]
    have := hl.target_nonneg
    omega
  constructor
  · rintro ⟨hle | ⟨hfull, -⟩, hzero⟩
    · have hbelow : boughtRay (seizureTarget repayment) feed.price <
          assetUnit feed.assetDecimals := by
        by_contra hge
        have hone : 1 ≤ boughtRay (seizureTarget repayment) feed.price /
            assetUnit feed.assetDecimals :=
          (le_floor_iff hunit).mpr (by rw [one_mul]; exact not_lt.mp hge)
        have hleast := mul_le_mul_of_nonneg_right hone hunit.le
        rw [← hrays, one_mul] at hleast
        omega
      have hround : seizureTarget repayment * wad < onePlus repayment.bonus := by
        by_contra hge
        have := hl.unbacked_pos (hnone hle) (not_lt.mp hge)
        omega
      refine .rawUnit hall hpart hbelow hlt ?_ hround
      by_contra hmany
      exact absurd hround (not_lt.mpr (hl.target_two (by omega)))
    · omega
  · rintro (hworthless | ⟨hfull, -⟩ | ⟨hfull, -⟩ | ⟨-, -, hbelow, -, -, hround⟩)
    · omega
    · rw [hall, hpart] at hfull
      rcases hfull with hfull | hfull | hfull
      · cases hfull
      · cases hfull
      · omega
    · rw [hall, hpart] at hfull
      rcases hfull with hfull | hfull <;> cases hfull
    · have hle : rays ≤ 0 := by
        rw [hrays, Int.ediv_eq_zero_of_lt h0 hbelow, zero_mul]
      refine ⟨.inl hle, ?_⟩
      rw [hl.unbackedUsd_eq, hnone hle]
      exact Int.ediv_eq_zero_of_lt (mul_nonneg hl.target_nonneg wad_pos.le) hround

/-- Nothing is seized and nothing of a repayment with a value is unbacked, exactly when one of the
roundings takes all of it. -/
theorem kept_iff (hrun : MarketsRun timestamp pool.markets) (hs : 0 < leg.2.scaledAmount)
    (hd : feed.assetDecimals < minBorrowableAssetDecimals) (hactual : 0 < actualRay)
    (hpos : 0 < repayment.repayUsd) :
    seized = [] ∧ unbackedUsd = 0 ↔ RoundsAway feed actualRay total repayment := by
  have hbacked : dropped = 0 → unbackedUsd = 0 := fun hzero => by
    rw [hl.unbackedUsd_eq, hzero, zero_mul, Int.zero_ediv]
  rw [hl.seized_nil_iff hrun hs hd hactual]
  rcases hl.sizes hd with ⟨hfull, hrays, hdropped⟩ |
    ⟨⟨hall, hlt⟩, ⟨hrepays, hdropped, hrays⟩ | ⟨hpart, hrays, hdropped⟩⟩
  · rw [and_iff_left (hbacked hdropped)]
    exact hl.full_iff hactual hfull hrays
  · rw [and_iff_left (hbacked hdropped)]
    exact hl.next_iff hactual hall hrepays hrays
  · exact hl.floor_iff hd hactual hpos hall hpart hlt hrays hdropped

end LoneSeizure

/-! ## The plan -/

/-- What the liquidator may come short of: half a raw token of the price, a raw unit with its
bonus, and the rounding of the dollars. -/
def wholeSlack (bonus price : Int) : ℚ := onePlus bonus / wad + (price / (2 * wad) + 1)

/-- What a plan seizes of a leg in whole units, and what it keeps for it. -/
structure PaysForUnits (leg : HubAssetKey × AccountPosition) (feed : PriceFeed) (actualRay : Int)
    (repayment kept : NormalizedRepaymentPlan) (seized : List SeizeEntry) : Prop where
  /-- At most one entry, of whole units or all of the leg, is seized and paid for. -/
  seizes : seized = [] ∨ ∃ e taken, seized = [e] ∧
    TakesWhole leg.1 leg.2 feed actualRay e taken ∧
    (kept.seizeAll = false → kept.repaysAllDebt = false →
      (taken * feed.price : ℚ) / ray ≤
        kept.repayUsd * onePlus kept.bonus / wad + wholeSlack kept.bonus feed.price) ∧
    (kept.seizeAll = false → kept.repaysAllDebt = true →
      (taken * feed.price : ℚ) / ray <
        kept.repayUsd * onePlus kept.bonus / wad + wholeSlack kept.bonus feed.price +
          assetUnit feed.assetDecimals * feed.price / ray)
  /-- A repayment that buys neither a unit nor the leg seizes nothing. -/
  unbacked : kept.seizeAll = false → kept.repaysAllDebt = false →
    boughtRay (seizureTarget repayment) feed.price < assetUnit feed.assetDecimals →
    boughtRay (seizureTarget repayment) feed.price < actualRay → seized = []

/-- How a plan settles a leg in whole units: what is seized is paid for, and what seizes nothing
and is worth something is refunded. -/
structure WholeUnitPlan (leg : HubAssetKey × AccountPosition) (feed : PriceFeed) (actualRay : Int)
    (repayment kept : NormalizedRepaymentPlan) (seized : List SeizeEntry) : Prop extends
    PaysForUnits leg feed actualRay repayment kept seized where
  refunded : seized = [] → RefundsAll repayment kept

variable {mid kept : NormalizedRepaymentPlan}

namespace LoneSeizure

variable (hl : LoneSeizure h timestamp pool prices repayment total leg feed index actualRay rays
  dropped seized unbackedUsd)

include hl

/-- The plan keeps what it did not release, and keeps its flags. -/
theorem keeps (hd : feed.assetDecimals < minBorrowableAssetDecimals) (hactual : 0 ≤ actualRay)
    (hp : Valued repayment)
    (hmid : releaseUnbackedRepayment repayment unbackedUsd = .ok mid)
    (hkept : (if unbackedUsd > 0 ∧ seized = [] then releaseUnbackedRepayment mid mid.repayUsd
      else pure mid : Result NormalizedRepaymentPlan) = .ok kept) :
    Releases repayment kept ∧ (unbackedUsd = 0 → kept = repayment) ∧
      (seized ≠ [] → repayment.repayUsd - unbackedUsd - 1 ≤ kept.repayUsd) ∧
      (0 < unbackedUsd → seized = [] → kept.repayUsd = 0) := by
  obtain ⟨hu0, hule⟩ := hl.unbacked_bounds hd hactual
  obtain ⟨hrel, hlow⟩ := releaseUnbackedRepayment_releases hp hu0 hule hmid
  split at hkept
  · rename_i hrest
    have hrel' := (releaseUnbackedRepayment_releases hrel.valued hrel.valued.repayUsd_nonneg
      le_rfl hkept).1
    refine ⟨hrel.trans hrel', fun hzero => by omega, fun hsome => absurd hrest.2 hsome, ?_⟩
    exact fun _ _ => releaseUnbackedRepayment_rest hrel.valued hkept
  · rename_i hno
    rw [Fallible.pure_ok_iff] at hkept
    subst hkept
    refine ⟨hrel, fun hzero => ?_, fun _ => hlow, fun hpos hnone => absurd ⟨hpos, hnone⟩ hno⟩
    rw [hzero, releaseUnbackedRepayment_none le_rfl, Except.ok.injEq] at hmid
    exact hmid.symm

theorem pays (hrun : MarketsRun timestamp pool.markets) (hs : 0 < leg.2.scaledAmount)
    (hd : feed.assetDecimals < minBorrowableAssetDecimals) (hactual : 0 < actualRay)
    (hp : Valued repayment)
    (hmid : releaseUnbackedRepayment repayment unbackedUsd = .ok mid)
    (hkept : (if unbackedUsd > 0 ∧ seized = [] then releaseUnbackedRepayment mid mid.repayUsd
      else pure mid : Result NormalizedRepaymentPlan) = .ok kept) :
    PaysForUnits leg feed actualRay repayment kept seized := by
  obtain ⟨hrel, hsame, hlow, -⟩ := hl.keeps hd hactual.le hp hmid hkept
  -- The flags are those of the accepted repayment.
  have hpart : kept.seizeAll = false → kept.repaysAllDebt = false →
      repayment.seizeAll = false ∧ repayment.repaysAllDebt = false := by
    intro hall hrepays
    have hall' := hrel.seizeAll.symm.trans hall
    refine ⟨hall', Bool.eq_false_iff.mpr fun htrue => ?_⟩
    rw [hsame (hl.value_lt hd hall' htrue).1, htrue] at hrepays
    cases hrepays
  have hb : (0 : ℚ) < onePlus repayment.bonus := by exact_mod_cast hl.onePlus_pos
  have hw : (0 : ℚ) < (wad : Int) := by exact_mod_cast wad_pos
  refine ⟨?_, fun hall hrepays hlt hheld => ?_⟩
  · rcases hl.seized_whole hrun hs hd hactual with ⟨hnone, -⟩ | ⟨-, e, hsome, htakes⟩
    · exact .inl hnone
    refine .inr ⟨e, _, hsome, htakes, fun hall hrepays => ?_, fun hall hrepays => ?_⟩
    · obtain ⟨hall', hrepays'⟩ := hpart hall hrepays
      have hkeeps : (repayment.repayUsd - unbackedUsd : ℚ) ≤ kept.repayUsd + 1 := by
        have := hlow (by rw [hsome]; exact List.cons_ne_nil _ _)
        exact_mod_cast (by omega : repayment.repayUsd - unbackedUsd ≤ kept.repayUsd + 1)
      rw [hrel.bonus]
      unfold wholeSlack
      calc (cappedRay repayment rays actualRay * feed.price : ℚ) / ray
          ≤ (repayment.repayUsd - unbackedUsd) * onePlus repayment.bonus / wad +
              (feed.price / (2 * wad) + 1) := hl.value_le hd hall' hrepays'
        _ ≤ (kept.repayUsd + 1) * onePlus repayment.bonus / wad +
              (feed.price / (2 * wad) + 1) := by gcongr
        _ = _ := by ring
    · have hall' := hrel.seizeAll.symm.trans hall
      have hrepays' : repayment.repaysAllDebt = true := by
        by_contra hne
        rw [hrel.repaysAllDebt (Bool.not_eq_true _ ▸ hne)] at hrepays
        cases hrepays
      obtain ⟨hzero, hvalue⟩ := hl.value_lt hd hall' hrepays'
      rw [hsame hzero]
      unfold wholeSlack
      have hslack : 0 ≤ (onePlus repayment.bonus : ℚ) / wad := (div_pos hb hw).le
      linarith
  · obtain ⟨hall', hrepays'⟩ := hpart hall hrepays
    exact hl.nothing hd hall' hrepays' hlt hheld

/-- Everything is refunded for nothing, unless one of the roundings takes what has a value. -/
theorem refunds_iff (hrun : MarketsRun timestamp pool.markets) (hs : 0 < leg.2.scaledAmount)
    (hd : feed.assetDecimals < minBorrowableAssetDecimals) (hactual : 0 < actualRay)
    (hp : Valued repayment)
    (hmid : releaseUnbackedRepayment repayment unbackedUsd = .ok mid)
    (hkept : (if unbackedUsd > 0 ∧ seized = [] then releaseUnbackedRepayment mid mid.repayUsd
      else pure mid : Result NormalizedRepaymentPlan) = .ok kept) :
    (seized = [] → RefundsAll repayment kept) ↔
      (0 < repayment.repayUsd → ¬ RoundsAway feed actualRay total repayment) := by
  obtain ⟨hrel, hsame, -, hempty⟩ := hl.keeps hd hactual.le hp hmid hkept
  constructor
  · intro hrefunds hpos haway
    obtain ⟨hnone, hzero⟩ := (hl.kept_iff hrun hs hd hactual hpos).mpr haway
    have hnothing := (hrefunds hnone).repayUsd
    rw [hsame hzero] at hnothing
    omega
  · intro haway hnone
    rcases (hl.unbacked_bounds hd hactual.le).1.eq_or_lt with hzero | hpos
    · refine hrel.all (hsame hzero.symm ▸ le_antisymm (not_lt.mp fun hpos => ?_) hp.repayUsd_nonneg)
      exact haway hpos ((hl.kept_iff hrun hs hd hactual hpos).mp ⟨hnone, hzero.symm⟩)
    · exact hrel.all (hempty hpos hnone)
end LoneSeizure

/-- The figures, the accepted repayment and the valued leg that a plan was made from. -/
structure PlannedFrom (h : ControllerHost W) (timestamp : Nat) (account : Account)
    (rawPayments : List HubPayment) (leg : HubAssetKey × AccountPosition) (s : Invocation W)
    (snap : LiquidationSnapshot) (repayment : NormalizedRepaymentPlan) (feed : PriceFeed)
    (actualRay : Int) : Prop where
  reported : h.Reported leg.1.asset feed
  figures : ∃ s0 s1 s2 bounds curve index,
    rawPayments.foldlM (fun _ e =>
      Positions.enforceSpokeAssetFlags account.spokeId e.1 .allowOnExit) () s = .ok () s0 ∧
    liquidationSnapshot h timestamp account s0 = .ok (snap, bounds, curve) s1 ∧
    normalizeRepaymentPlan timestamp account rawPayments snap bounds curve s1 =
      .ok repayment s2 ∧
    LegAt timestamp s.pool s1.cache.tokenPrices leg feed index actualRay snap.totalCollateral

theorem LegAt.actual_pos {value : Int}
    (hleg : LegAt timestamp pool prices leg feed index actualRay value) (hvalue : 0 < value) :
    0 < actualRay := by
  obtain ⟨-, -, rfl, -⟩ := Ray.mul_ok_iff.mp hleg.actual
  obtain ⟨hs, hi, -, -⟩ := Ray.mul_ok_iff.mp hleg.actual
  refine lt_of_le_of_ne (halfUpDiv_nonneg ray_pos (mul_nonneg hs hi)) fun hzero => ?_
  have hv := hleg.value
  unfold positionValue at hv
  rw [hleg.actual, ← hzero, Fallible.ok_bind] at hv
  obtain ⟨actualWad, hwad, hv⟩ := Fallible.bind_ok hv
  unfold Ray.toWad at hwad
  rw [rescaleHalfUp_down le_rfl (by decide) (by decide), halfUpDiv_zero (by decide),
    Except.ok.injEq] at hwad
  obtain ⟨-, -, rfl, -⟩ := Wad.mul_ok_iff.mp hv
  rw [← hwad, zero_mul, halfUpDiv_zero wad_pos] at hvalue
  exact lt_irrefl 0 hvalue

end

end Liquidation

open Liquidation

namespace Sample

/-- A market in whole units, with ten of them supplied. -/
def unitKey : HubAssetKey := ⟨1, 8⟩

def unitParams : MarketParams :=
  { params with
    assetId := 8
    assetDecimals := 0
    isFlashloanable := false }

def unitMarket : PoolSyncData where
  params := unitParams
  state := { created.state with supplied := 10 * ray, cash := 10 }

/-- A market of an asset with eighteen decimals, lent out by half. -/
def fineKey : HubAssetKey := ⟨1, 9⟩

def fineParams : MarketParams := { params with assetId := 9, assetDecimals := 18 }

def fineSupplied : PoolSyncData where
  params := fineParams
  state := { created.state with supplied := 10_000 * ray, cash := 10_000 * wad }

def fineMarket : PoolSyncData where
  params := fineParams
  state := { fineSupplied.state with borrowed := 5_000 * ray, cash := 5_000 * wad }

theorem unitMarket_run : MarketRun unitKey unitMarket 1_000
    [⟨{ created with params := unitParams }, 1_000, .supply 0 10⟩] := by
  have h0 : MarketRun unitKey { created with params := unitParams } 1_000 [] :=
    .create unitParams rfl (by decide +kernel)
  exact h0.step le_rfl (by decide +kernel)

theorem fineMarket_run : MarketRun fineKey fineMarket 1_000
    [⟨fineSupplied, 1_000, .borrow 0 (5_000 * wad)⟩,
      ⟨{ created with params := fineParams }, 1_000, .supply 0 (10_000 * wad)⟩] := by
  have h0 : MarketRun fineKey { created with params := fineParams } 1_000 [] :=
    .create fineParams rfl (by decide +kernel)
  have h1 : MarketRun fineKey fineSupplied 1_000
      [⟨{ created with params := fineParams }, 1_000, .supply 0 (10_000 * wad)⟩] :=
    h0.step le_rfl (by decide +kernel)
  exact h1.step le_rfl (by decide +kernel)

/-- The sample tokens, with a unit at a thousand dollars and anything else at one. -/
def unitHost : ControllerHost Balances :=
  { controllerHost with
    price := fun _ _ asset =>
      .ok (if asset = 8 then ⟨1_000 * wad, 0, 1_000⟩ else ⟨wad, 18, 1_000⟩) }

def unitInvocation : Invocation Balances :=
  { invocation with
    pool := ⟨(SortedMap.empty.set unitKey unitMarket).set fineKey fineMarket, opening⟩ }

/-- Owes on the second market against shares of the first, at a threshold of 70%. -/
def unitAccount (shares owed : Int) : Account :=
  { underwater with
    supplyPositions := SortedMap.empty.set unitKey ⟨shares, 7_000, 500, 6_500, 0⟩
    borrowPositions := SortedMap.empty.set fineKey ⟨owed⟩ }

theorem unitInvocation_markets : MarketsRun 1_000 unitInvocation.pool.markets := by
  intro k m hget
  unfold unitInvocation at hget
  rw [SortedMap.get?_set, SortedMap.get?_set] at hget
  split at hget
  · rename_i heq
    cases hget
    exact ⟨1_000, le_rfl, _, heq ▸ fineMarket_run⟩
  split at hget
  · rename_i heq
    cases hget
    exact ⟨1_000, le_rfl, _, heq ▸ unitMarket_run⟩
  · cases hget

theorem unitInvocation_feeds : unitHost.FeedsMatch unitInvocation.pool := by
  intro k m feed hget hrep
  obtain ⟨w, aggregator, hprice⟩ := hrep
  unfold unitInvocation at hget
  rw [SortedMap.get?_set, SortedMap.get?_set] at hget
  split at hget
  · rename_i heq
    cases hget
    subst heq
    cases hprice
    rfl
  split at hget
  · rename_i heq
    cases hget
    subst heq
    cases hprice
    rfl
  · cases hget

theorem unitHost_prices : unitHost.PositivePrices := by
  rintro asset feed ⟨w, aggregator, hprice⟩
  cases hprice
  split <;> decide

theorem unitAccount_positive {shares owed : Int} (hs : 0 < shares) (ho : 0 < owed) :
    (unitAccount shares owed).Positive := by
  constructor
  · intro k position hget
    unfold unitAccount at hget
    rw [SortedMap.get?_set] at hget
    split at hget
    · cases hget
      exact hs
    · cases hget
  · intro k position hget
    unfold unitAccount at hget
    rw [SortedMap.get?_set] at hget
    split at hget
    · cases hget
      exact ho
    · cases hget

end Sample

end Lending
