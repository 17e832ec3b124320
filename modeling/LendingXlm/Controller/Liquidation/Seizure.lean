import LendingXlm.Controller.Liquidation.Credit
import LendingXlm.Pool.Accrual

/-!
# Planned seizures can be executed

A seizure is planned from the position's shares, its index and its feed. The pool recomputes the
amount from the shares, and an under-delivered repayment rescales every field of the entry:

* `Seizable`: what execution needs of an entry;
* `seizeLeg_seizable`, `scaleSeizeEntry_seizable`: planned entries have it, and scaling them
  keeps it;
* `Seizable.accounting_error`, `Seizable.split`: such an entry fails in the pool only for want of
  cash or of supply behind the debt, and always splits into shares;
* `creditSeizure_split`: so its credit goes on to the receiver's checks.
-/

namespace Lending

open FpCore Rounding Ops Context Ctrl Invocation Transaction

variable {W : Type} {h : ControllerHost W} {timestamp : Nat} {pool : PoolCtx W}

/-! ## Withdrawals within a position -/

section
variable {amount shares index burned gross : Int} {d : Nat}

/-- Rounding to the nearest unit twice is at least rounding down twice. -/
theorem floor_floor_le_halfUp {x u : Int} (hu : 0 < u) :
    x / ray / u ≤ halfUpDiv (halfUpDiv x ray) u :=
  (floor_mono hu (floor_le_halfUpDiv ray_pos)).trans (floor_le_halfUpDiv hu)

/-- A withdrawal whose amount, unless it closes the position, is covered by the shares. -/
theorem resolveWithdrawal_within (hd : d ≤ wadDecimals) (hs : 0 < shares) (hi : 0 < index)
    (hfit : amount * assetUnit d * ray ≤ shares * index ∨
      unscaleSupply shares index d = .ok amount) (h0 : 0 ≤ amount)
    (h : resolveWithdrawal amount shares index d = .ok (burned, gross)) :
    0 ≤ burned ∧ burned ≤ shares ∧ (gross = 0 ∨ 0 < burned) ∧ 0 ≤ gross ∧ gross ≤ amount := by
  obtain ⟨actual, floor, ha, hf, hcase⟩ := resolveWithdrawal_cases h
  obtain ⟨-, -, -, hactual⟩ := (unscaleSupply_ok_iff hd).mp ha
  obtain ⟨-, hfloor⟩ := (unscaleSupplyFloor_ok_iff hd hs.le hi.le).mp hf
  have hunit := assetUnit_pos d
  rcases hcase with ⟨hle, rfl, rfl⟩ | ⟨hlt, hburn, rfl⟩
  · have hfa : gross ≤ actual := by
      rw [hfloor, hactual]
      exact floor_floor_le_halfUp hunit
    have hf0 : 0 ≤ gross := by
      rw [hfloor]
      exact floor_nonneg hunit (floor_nonneg ray_pos (mul_nonneg hs.le hi.le))
    exact ⟨hs.le, le_rfl, .inr hs, hf0, hfa.trans hle⟩
  · obtain ⟨-, -, rfl⟩ := (calculateScaledSupplyCeil_ok_iff hd hi).mp hburn
    have hcover : gross * assetUnit d * ray ≤ shares * index := by
      rcases hfit with hfit | hfull
      · exact hfit
      · obtain rfl : actual = gross := Except.ok.inj (ha.symm.trans hfull)
        exact absurd hlt (lt_irrefl _)
    have hn : 0 ≤ gross * assetUnit d * ray :=
      mul_nonneg (mul_nonneg h0 hunit.le) ray_pos.le
    refine ⟨ceilDiv_nonneg hi hn, (ceilDiv_le_iff hi).mpr hcover, ?_, h0, le_rfl⟩
    rcases h0.eq_or_lt with hz | hpos
    · exact .inl hz.symm
    · exact .inr (ceilDiv_pos hi (mul_pos (mul_pos hpos hunit) ray_pos))

end

/-! ## Entries that execute -/

namespace Liquidation

/-- What the pool and the share split need of a seizure from `position`. -/
structure Seizable (position : AccountPosition) (e : SeizeEntry) : Prop where
  decimals_le : e.feed.assetDecimals ≤ wadDecimals
  index_pos : 0 < e.marketIndex.supplyIndex
  shares_pos : 0 < position.scaledAmount
  amount_nonneg : 0 ≤ e.amount
  fee_nonneg : 0 ≤ e.protocolFee
  scaled_nonneg : 0 ≤ e.scaledAmount
  scaled_le : e.scaledAmount ≤ position.scaledAmount
  bonus_nonneg : 0 ≤ e.bonusScaled
  bonus_le : e.bonusScaled ≤ e.scaledAmount
  fees_lt : (e.liquidationFees : Int) < bps
  /-- The amount is covered by the shares, or is their whole rounded value. -/
  fits : e.amount * assetUnit e.feed.assetDecimals * ray ≤
      position.scaledAmount * e.marketIndex.supplyIndex ∨
    unscaleSupply position.scaledAmount e.marketIndex.supplyIndex e.feed.assetDecimals =
      .ok e.amount
  withdraws : ∃ burned gross, resolveWithdrawal e.amount position.scaledAmount
    e.marketIndex.supplyIndex e.feed.assetDecimals = .ok (burned, gross) ∧ e.protocolFee ≤ gross

theorem Seizable.fee_le {position : AccountPosition} {e : SeizeEntry} (he : Seizable position e) :
    e.protocolFee ≤ e.amount := by
  obtain ⟨burned, gross, hres, hle⟩ := he.withdraws
  obtain ⟨-, -, -, -, hga⟩ := resolveWithdrawal_within he.decimals_le he.shares_pos he.index_pos
    he.fits he.amount_nonneg hres
  exact hle.trans hga

/-- The value of the position, and the amount within it. -/
theorem Seizable.value {position : AccountPosition} {e : SeizeEntry} (he : Seizable position e) :
    ∃ actual floor, unscaleSupply position.scaledAmount e.marketIndex.supplyIndex
        e.feed.assetDecimals = .ok actual ∧
      unscaleSupplyFloor position.scaledAmount e.marketIndex.supplyIndex e.feed.assetDecimals =
        .ok floor ∧
      halfUpDiv (position.scaledAmount * e.marketIndex.supplyIndex) ray ≤ i128Max ∧
      e.amount ≤ actual ∧ actual ≤ i128Max := by
  obtain ⟨burned, gross, hres, -⟩ := he.withdraws
  obtain ⟨actual, floor, ha, hf, -⟩ := resolveWithdrawal_cases hres
  obtain ⟨-, -, hmax, hactual⟩ := (unscaleSupply_ok_iff he.decimals_le).mp ha
  have hunit := assetUnit_pos e.feed.assetDecimals
  have hv0 : 0 ≤ halfUpDiv (position.scaledAmount * e.marketIndex.supplyIndex) ray :=
    halfUpDiv_nonneg ray_pos (mul_nonneg he.shares_pos.le he.index_pos.le)
  have hle : actual ≤ i128Max := by
    rw [hactual]
    refine (halfUpDiv_le_ceilDiv hunit).trans (le_trans ((ceilDiv_le_iff hunit).mpr ?_) hmax)
    nlinarith
  refine ⟨actual, floor, ha, hf, hmax, ?_, hle⟩
  rcases he.fits with hfit | hfull
  · rw [hactual]
    refine le_trans ?_ (floor_floor_le_halfUp hunit)
    rw [le_floor_iff hunit, le_floor_iff ray_pos]
    exact hfit
  · rw [Except.ok.inj (hfull.symm.trans ha)]

section
variable {hubAsset : HubAssetKey} {position : AccountPosition} {feed : PriceFeed}
  {marketIndex : MarketIndex} {onePlusBonus seizureRay cappedRay actualRay : Int} {e : SeizeEntry}

/-- Anything below the rounded value of a position is covered by its shares. -/
theorem mul_ray_le_of_lt {shares index value x : Int}
    (hvalue : Ray.mul shares index = .ok value) (hlt : x < value) : x * ray ≤ shares * index := by
  obtain ⟨-, -, rfl, -⟩ := Ray.mul_ok_iff.mp hvalue
  have hup := halfUpDiv_mul_le (shares * index) ray_pos
  have hr := ray_pos
  nlinarith

/-- The shares taken for `cappedRay` out of a position worth `actualRay`. -/
theorem seizedScaled_le {scaled : Int} (hi : 0 < marketIndex.supplyIndex)
    (hactual : Ray.mul position.scaledAmount marketIndex.supplyIndex = .ok actualRay)
    (hle : cappedRay ≤ actualRay)
    (h : (if cappedRay = actualRay then pure position.scaledAmount
      else Ray.divFloor cappedRay marketIndex.supplyIndex : Result Int) = .ok scaled) :
    scaled ≤ position.scaledAmount := by
  split at h
  · rw [Fallible.pure_ok_iff] at h
    exact h.ge
  · rename_i hne
    obtain ⟨-, rfl⟩ := (Ray.divFloor_ok_iff hi).mp h
    refine Int.le_of_lt_add_one ((floor_lt_iff hi).mpr ?_)
    have hcover := mul_ray_le_of_lt hactual (lt_of_le_of_ne hle hne)
    linarith

/-- The amount taken is covered by the shares, or is their whole rounded value. -/
theorem cappedAmount_fits {amount : Int} (hd : feed.assetDecimals ≤ wadDecimals)
    (hactual : Ray.mul position.scaledAmount marketIndex.supplyIndex = .ok actualRay)
    (hcap : 0 < cappedRay) (hle : cappedRay ≤ actualRay)
    (h : (if cappedRay = actualRay then Ray.toAsset cappedRay feed.assetDecimals
      else Ray.toAssetFloor cappedRay feed.assetDecimals : Result Int) = .ok amount) :
    amount * assetUnit feed.assetDecimals * ray ≤
        position.scaledAmount * marketIndex.supplyIndex ∨
      unscaleSupply position.scaledAmount marketIndex.supplyIndex feed.assetDecimals =
        .ok amount := by
  split at h
  · rename_i heq
    right
    unfold unscaleSupply scaledToOriginal
    rw [hactual, Fallible.ok_bind, ← heq]
    exact h
  · rename_i hne
    left
    rw [Ray.toAssetFloor_eq hcap.le hd, Except.ok.injEq] at h
    have hdown := floor_mul_le cappedRay (assetUnit_pos feed.assetDecimals)
    rw [h] at hdown
    exact mul_ray_le_of_lt hactual (hdown.trans_lt (lt_of_le_of_ne hle hne))

/-- The excess of what the pool pays over the principal is within what it pays. -/
theorem realisedExcess_bounds {gross baseRay paidRay excess : Int}
    (hd : feed.assetDecimals ≤ wadDecimals) (hgross : 0 ≤ gross) (hbase : 0 ≤ baseRay)
    (hpaid : Ray.fromAsset gross feed.assetDecimals = .ok paidRay)
    (h : (if paidRay > baseRay then do
        Ray.toAssetFloor (← Ray.checkedSub paidRay baseRay) feed.assetDecimals
      else pure 0 : Result Int) = .ok excess) : 0 ≤ excess ∧ excess ≤ gross := by
  have hunit := assetUnit_pos feed.assetDecimals
  rw [Ray.fromAsset_eq hd, toI128_ok_iff] at hpaid
  split at h
  · obtain ⟨diff, hsub, h⟩ := Fallible.bind_ok h
    obtain ⟨-, -, hle, rfl⟩ := Ray.checkedSub_ok_iff.mp hsub
    rw [Ray.toAssetFloor_eq (by omega) hd, Except.ok.injEq] at h
    rw [← h]
    refine ⟨floor_nonneg hunit (by omega), ?_⟩
    refine (floor_mono hunit (b := gross * assetUnit feed.assetDecimals) (by omega)).trans ?_
    rw [Int.mul_ediv_cancel _ hunit.ne']
  · rw [Fallible.pure_ok_iff] at h
    omega

theorem seizeLeg_seizable (hd : feed.assetDecimals ≤ wadDecimals)
    (hs : 0 < position.scaledAmount) (hi : 0 < marketIndex.supplyIndex)
    (hfees : (position.liquidationFees : Int) < bps)
    (hactual : Ray.mul position.scaledAmount marketIndex.supplyIndex = .ok actualRay)
    (hbonus : 0 < onePlusBonus) (hseize : 0 < seizureRay) (hcap : 0 < cappedRay)
    (hle : cappedRay ≤ actualRay)
    (h : seizeLeg hubAsset position feed marketIndex onePlusBonus seizureRay cappedRay actualRay =
      .ok (some e)) :
    e.hubAsset = hubAsset ∧ e.feed = feed ∧ e.marketIndex = marketIndex ∧ 0 < e.amount ∧
      0 < e.scaledAmount ∧ Seizable position e := by
  have hray := ray_pos
  unfold seizeLeg at h
  obtain ⟨rayBonus, hrayBonus, h⟩ := Fallible.bind_ok h
  have hrb : 0 < rayBonus := by
    unfold Wad.toRay at hrayBonus
    rw [rescaleHalfUp_up (by decide) (by decide), toI128_ok_iff] at hrayBonus
    rw [← hrayBonus.2]
    positivity
  obtain ⟨baseRay, hbase, h⟩ := Fallible.bind_ok h
  obtain ⟨-, rfl⟩ := (Ray.divFloor_ok_iff hrb).mp hbase
  have hbase0 : 0 ≤ seizureRay * ray / rayBonus := floor_nonneg hrb (by positivity)
  obtain ⟨bonusRay, hbonusRay, h⟩ := Fallible.bind_ok h
  have hbr0 : 0 ≤ bonusRay := by
    split at hbonusRay
    · obtain ⟨-, -, hsub, rfl⟩ := Ray.checkedSub_ok_iff.mp hbonusRay
      omega
    · rw [Fallible.pure_ok_iff] at hbonusRay
      exact hbonusRay.le
  obtain ⟨feeRay, hfeeRay, h⟩ := Fallible.bind_ok h
  obtain ⟨-, hf0, rfl, -⟩ := Bps.applyToRay_ok_iff.mp hfeeRay
  obtain ⟨seizedScaled, hscaled, h⟩ := Fallible.bind_ok h
  simp only [decide_eq_true_eq] at hscaled
  have hscaledLe := seizedScaled_le hi hactual hle hscaled
  obtain ⟨bonusShares, hbonusShares, h⟩ := Fallible.bind_ok h
  obtain ⟨-, rfl⟩ := (Ray.divFloor_ok_iff hi).mp hbonusShares
  dsimp only at h
  split at h
  · simp at h
  rename_i hpos
  obtain ⟨amount, hamount, h⟩ := Fallible.bind_ok h
  simp only [decide_eq_true_eq] at hamount
  have hfits := cappedAmount_fits hd hactual hcap hle hamount
  split at h
  · simp at h
  rename_i hapos
  obtain ⟨⟨burned, gross⟩, hres, h⟩ := Fallible.bind_ok h
  obtain ⟨-, -, -, hg0, -⟩ :=
    resolveWithdrawal_within hd hs hi hfits (by omega) hres
  obtain ⟨feeAsset, hfeeAsset, h⟩ := Fallible.bind_ok h
  have hfee0 : 0 ≤ halfUpDiv (bonusRay * (position.liquidationFees : Int)) bps :=
    halfUpDiv_nonneg bps_pos (mul_nonneg hbr0 hf0)
  rw [Ray.toAssetFloor_eq hfee0 hd, Except.ok.injEq] at hfeeAsset
  have hfa0 : 0 ≤ feeAsset := hfeeAsset ▸ floor_nonneg (assetUnit_pos _) hfee0
  obtain ⟨paidRay, hpaid, h⟩ := Fallible.bind_ok h
  obtain ⟨excess, hexcess, h⟩ := Fallible.bind_ok h
  obtain ⟨hx0, hxle⟩ := realisedExcess_bounds hd hg0 hbase0 hpaid hexcess
  simp only [Fallible.pure_ok_iff, Option.some.injEq] at h
  subst h
  have hz : Ray.zero = 0 := rfl
  refine ⟨rfl, rfl, rfl, by dsimp only; omega, by dsimp only; omega, ?_⟩
  exact {
    decimals_le := hd
    index_pos := hi
    shares_pos := hs
    amount_nonneg := by dsimp only; omega
    fee_nonneg := by
      dsimp only
      split <;> omega
    scaled_nonneg := by dsimp only; omega
    scaled_le := hscaledLe
    bonus_nonneg := le_min (floor_nonneg hi (mul_nonneg hbr0 ray_pos.le)) (by omega)
    bonus_le := min_le_right _ _
    fees_lt := hfees
    fits := hfits
    withdraws := ⟨burned, gross, hres, (min_le_right _ _).trans hxle⟩ }

end

/-! ## Planning -/

/-- The fee stamped on every supply position is below one. -/
def FeesStamped (account : Account) : Prop :=
  ∀ {hubAsset position}, account.supplyPositions.get? hubAsset = some position →
    (position.liquidationFees : Int) < bps

/-- `e` is planned from `position` at the pool's current index and a reported price. -/
structure PlannedSeizure (h : ControllerHost W) (timestamp : Nat) (pool : PoolCtx W)
    (account : Account) (e : SeizeEntry) (position : AccountPosition) : Prop where
  held : account.supplyPositions.get? e.hubAsset = some position
  reported : h.Reported e.hubAsset.asset e.feed
  current : pool.CurrentIndex timestamp e.hubAsset e.marketIndex
  amount_pos : 0 < e.amount
  scaled_pos : 0 < e.scaledAmount
  seizable : Seizable position e

section
variable {account : Account}

theorem supplyIndex_pos (hrun : MarketsRun timestamp pool.markets) {hubAsset : HubAssetKey}
    {index : MarketIndex} (hcur : pool.CurrentIndex timestamp hubAsset index) :
    0 < index.supplyIndex := by
  obtain ⟨m, c, -, -, -, -, hc, rfl, -⟩ := hcur.synced hrun
  exact hc.supplyIndex_pos

/-- One collateral leg adds at most one entry, for its own market. -/
theorem seizePosition_answers (hrun : MarketsRun timestamp pool.markets)
    (hfeeds : h.FeedsMatch pool) (hpos : account.Positive) (hstamps : FeesStamped account)
    {repayment : NormalizedRepaymentPlan} {totalCollateral onePlusBonus totalSeizureUsd : Int}
    (hbonus : 0 < onePlusBonus) {acc : List SeizeEntry × Int}
    {leg : HubAssetKey × AccountPosition} (hleg : leg ∈ account.supplyPositions.entries) :
    Answers h timestamp pool (seizePosition timestamp repayment totalCollateral onePlusBonus
      totalSeizureUsd acc leg) fun acc' =>
      ∃ entry : Option SeizeEntry, acc'.1 = acc.1 ++ entry.toList ∧
        ∀ e ∈ entry, e.hubAsset = leg.1 ∧
          PlannedSeizure h timestamp pool account e leg.2 := by
  obtain ⟨hubAsset, position⟩ := leg
  obtain ⟨seized, unseizedUsd⟩ := acc
  have hget := SortedMap.mem_entries.mp hleg
  refine .bind cachedPrice_answers fun feed hrep => .bind cachedMarketIndex_answers
    fun index hcur => .bind (.lift fun actualRay hactual => hactual) fun actualRay hactual => ?_
  refine .skip .lift fun assetValue => .skip .lift fun share => .skip .lift fun seizureUsd =>
    .skip .lift fun quotient => .skip .lift fun ⟨seizureRay, unseizedUsd'⟩ => ?_
  refine .ite (fun _ => .pure ⟨none, by simp, by simp⟩) fun hgo => ?_
  have hz : Ray.zero = 0 := rfl
  rw [not_or, hz, not_le, not_le] at hgo
  refine .bind (.lift fun entry hentry => hentry) fun entry hentry => .pure ⟨entry, rfl, ?_⟩
  intro e he
  obtain rfl : entry = some e := he
  obtain ⟨hkey, hfeed, hindex, ha, hsc, hseizable⟩ := seizeLeg_seizable
    (decimals_le hrun hfeeds hcur hrep) (hpos.supply hget) (supplyIndex_pos hrun hcur)
    (hstamps hget) hactual hbonus hgo.1 hgo.2 (by split <;> omega) hentry
  subst hkey hfeed hindex
  exact ⟨rfl, hget, hrep, hcur, ha, hsc, hseizable⟩

/-- What the planned seizures are, leg by leg. -/
structure PlannedSeizures (h : ControllerHost W) (timestamp : Nat) (pool : PoolCtx W)
    (account : Account) (seized : List SeizeEntry) : Prop where
  keys : (seized.map SeizeEntry.hubAsset).Sublist account.supplyPositions.keys
  planned : ∀ e ∈ seized, ∃ position, PlannedSeizure h timestamp pool account e position

theorem calculateSeizedCollateral_answers (hrun : MarketsRun timestamp pool.markets)
    (hfeeds : h.FeedsMatch pool) (hpos : account.Positive) (hstamps : FeesStamped account)
    {totalCollateral : Int} {repayment : NormalizedRepaymentPlan} :
    Answers h timestamp pool
      (calculateSeizedCollateral timestamp account totalCollateral repayment) fun r =>
      PlannedSeizures h timestamp pool account r.1 := by
  refine .ite (fun _ => .pure ⟨by simp, by simp⟩) fun _ => ?_
  refine .bind (.lift fun bonusWad hb => hb) fun bonusWad hb =>
    .bind (.lift fun onePlusBonus hone => hone) fun onePlusBonus hone => ?_
  have hbonus : 0 < onePlusBonus := by
    unfold Bps.toWad at hb
    obtain ⟨hb0, -, -, rfl, -⟩ := mulDivHalfUp_ok_iff.mp hb
    obtain ⟨-, rfl⟩ := checkedAddRaw_ok_iff.mp hone
    have hw := wad_pos
    have h0 := halfUpDiv_nonneg bps_pos (mul_nonneg hb0 hw.le)
    have hw' : Wad.one = wad := rfl
    omega
  refine .skip .lift fun totalSeizureUsd => .bind (Answers.foldlM
    (P := fun acc rest =>
      (acc.1.map SeizeEntry.hubAsset ++ rest.map Prod.fst).Sublist account.supplyPositions.keys ∧
      ∀ e ∈ acc.1, ∃ position, PlannedSeizure h timestamp pool account e position)
    ?_ _ ⟨List.Sublist.refl _, by simp⟩) fun ⟨seized, unseizedUsd⟩ hacc => ?_
  · rintro acc leg rest hleg ⟨hkeys, hplanned⟩
    refine (seizePosition_answers hrun hfeeds hpos hstamps hbonus hleg).mono ?_
    rintro acc' ⟨entry, hacc', hentry⟩
    rw [hacc', List.map_append, List.append_assoc]
    refine ⟨?_, fun e he => ?_⟩
    · refine List.Sublist.trans ?_ hkeys
      refine List.Sublist.append_left ?_ _
      cases entry with
      | none => exact List.sublist_cons_self _ _
      | some e =>
        rw [List.map_cons, ← (hentry e rfl).1]
        exact List.Sublist.refl _
    · rcases List.mem_append.mp he with he | he
      · exact hplanned e he
      · exact ⟨leg.2, (hentry e (Option.mem_toList.mp he)).2⟩
  · refine .skip .lift fun unbackedUsd => .pure ⟨?_, hacc.2⟩
    have hkeys := hacc.1
    rwa [List.map_nil, List.append_nil] at hkeys

end

/-! ## Scaling to what was received -/

/-- A part `num / den` of a non-negative amount is within it. -/
theorem mulDivFloor_part {x num den : Int} (hx : 0 ≤ x) (hmax : x ≤ i128Max) (hn : 0 ≤ num)
    (hlt : num < den) :
    ∃ r, mulDivFloor x num den = .ok r ∧ r = x * num / den ∧ 0 ≤ r ∧ r ≤ x ∧
      (0 < x → r < x) := by
  have hden : 0 < den := by omega
  have h0 : 0 ≤ x * num / den := floor_nonneg hden (mul_nonneg hx hn)
  have hle : x * num / den ≤ x := by
    refine Int.le_of_lt_add_one ((floor_lt_iff hden).mpr ?_)
    nlinarith
  refine ⟨x * num / den, ?_, rfl, h0, hle, fun hpos => ?_⟩
  · rw [mulDivFloor_eq hden, toI128_eq, if_pos (inI128_of_nonneg h0 (hle.trans hmax))]
  · rw [floor_lt_iff hden]
    nlinarith

theorem resolveWithdrawal_partial {amount shares index actual floor burned : Int} {d : Nat}
    (ha : unscaleSupply shares index d = .ok actual)
    (hf : unscaleSupplyFloor shares index d = .ok floor) (hlt : amount < actual)
    (hb : calculateScaledSupplyCeil amount d index = .ok burned) :
    resolveWithdrawal amount shares index d = .ok (burned, amount) := by
  unfold resolveWithdrawal
  rw [ha, hf, Fallible.ok_bind, Fallible.ok_bind, if_neg (not_le.mpr hlt), hb]
  rfl

/-- An entry whose asset has enough decimals is scaled, and stays executable. -/
theorem scaleSeizeEntry_seizable {position : AccountPosition} {e : SeizeEntry} {num den : Int}
    (he : Seizable position e) (hmax : position.scaledAmount ≤ i128Max) (hpos : 0 < e.amount)
    (hdec : minBorrowableAssetDecimals ≤ e.feed.assetDecimals) (hn : 0 ≤ num) (hlt : num < den) :
    ∃ e', scaleSeizeEntry num den e = .ok e' ∧ e'.hubAsset = e.hubAsset ∧ e'.feed = e.feed ∧
      e'.marketIndex = e.marketIndex ∧ Seizable position e' := by
  obtain ⟨actual, floor, ha, hf, hvalue, hamt, hactual⟩ := he.value
  have hunit := assetUnit_pos e.feed.assetDecimals
  have hden : 0 < den := by omega
  have hi := he.index_pos
  obtain ⟨scaled, hscaled, hseq, hs0, hsle, -⟩ :=
    mulDivFloor_part he.scaled_nonneg (he.scaled_le.trans hmax) hn hlt
  obtain ⟨amount, hamount, -, ha0, -, halt⟩ :=
    mulDivFloor_part he.amount_nonneg (hamt.trans hactual) hn hlt
  obtain ⟨fee, hfee, -, hf0, -, -⟩ :=
    mulDivFloor_part he.fee_nonneg (he.fee_le.trans (hamt.trans hactual)) hn hlt
  obtain ⟨bonus, hbonus, hbeq, hb0, -, -⟩ := mulDivFloor_part he.bonus_nonneg
    (he.bonus_le.trans (he.scaled_le.trans hmax)) hn hlt
  -- The scaled shares are worth at most the position.
  have hshares : scaled * e.marketIndex.supplyIndex ≤
      position.scaledAmount * e.marketIndex.supplyIndex :=
    mul_le_mul_of_nonneg_right (hsle.trans he.scaled_le) hi.le
  have hv0 : 0 ≤ scaled * e.marketIndex.supplyIndex / ray :=
    floor_nonneg ray_pos (mul_nonneg hs0 hi.le)
  have hvmax : scaled * e.marketIndex.supplyIndex / ray ≤ i128Max :=
    (floor_mono ray_pos hshares).trans ((floor_le_halfUpDiv ray_pos).trans hvalue)
  have hmul : Ray.mulFloor scaled e.marketIndex.supplyIndex =
      .ok (scaled * e.marketIndex.supplyIndex / ray) :=
    Ray.mulFloor_ok_iff.mpr ⟨inI128_of_nonneg hv0 hvmax, rfl⟩
  set worth := scaled * e.marketIndex.supplyIndex / ray / assetUnit e.feed.assetDecimals
    with hworth
  have hw0 : 0 ≤ worth := floor_nonneg hunit hv0
  set taken := min amount worth with htaken
  have ht0 : 0 ≤ taken := le_min ha0 hw0
  have hcover : taken * assetUnit e.feed.assetDecimals * ray ≤
      scaled * e.marketIndex.supplyIndex := by
    have h1 := floor_floor_le (x := scaled * e.marketIndex.supplyIndex) hunit
    have h2 : taken * assetUnit e.feed.assetDecimals ≤ worth * assetUnit e.feed.assetDecimals :=
      mul_le_mul_of_nonneg_right (min_le_right _ _) hunit.le
    have h3 := mul_le_mul_of_nonneg_right h2 ray_pos.le
    linarith
  refine ⟨{ e with
    amount := taken, protocolFee := min fee taken, scaledAmount := scaled,
    bonusScaled := bonus }, ?_, rfl, rfl, rfl, ?_⟩
  · unfold scaleSeizeEntry
    rw [Fallible.require_pos hdec, Fallible.ok_bind, hscaled, Fallible.ok_bind, hmul,
      Fallible.ok_bind, Ray.toAssetFloor_eq hv0 he.decimals_le, Fallible.ok_bind, hamount,
      Fallible.ok_bind, hfee, Fallible.ok_bind, hbonus, Fallible.ok_bind]
    rfl
  · have hn0 : 0 ≤ taken * assetUnit e.feed.assetDecimals * ray :=
      mul_nonneg (mul_nonneg ht0 hunit.le) ray_pos.le
    have hburn : calculateScaledSupplyCeil taken e.feed.assetDecimals e.marketIndex.supplyIndex =
        .ok (ceilDiv (taken * assetUnit e.feed.assetDecimals * ray)
          e.marketIndex.supplyIndex) := by
      refine (calculateScaledSupplyCeil_ok_iff he.decimals_le hi).mpr ⟨?_, ?_, rfl⟩
      · refine inI128_of_nonneg (mul_nonneg ht0 hunit.le) (le_trans ?_ hvmax)
        rw [le_floor_iff ray_pos]
        exact hcover
      · refine inI128_of_nonneg (ceilDiv_nonneg hi hn0) ?_
        refine le_trans ((ceilDiv_le_iff hi).mpr hcover) ?_
        exact (hsle.trans he.scaled_le).trans hmax
    have htlt : taken < actual :=
      (min_le_left _ _).trans_lt ((halt hpos).trans_le hamt)
    exact {
      decimals_le := he.decimals_le
      index_pos := hi
      shares_pos := he.shares_pos
      amount_nonneg := ht0
      fee_nonneg := le_min hf0 ht0
      scaled_nonneg := hs0
      scaled_le := hsle.trans he.scaled_le
      bonus_nonneg := hb0
      bonus_le := by
        dsimp only
        rw [hbeq, hseq]
        exact floor_mono hden (mul_le_mul_of_nonneg_right he.bonus_le hn)
      fees_lt := he.fees_lt
      fits := .inl (hcover.trans hshares)
      withdraws := ⟨_, _, resolveWithdrawal_partial ha hf htlt hburn, min_le_right _ _⟩ }

/-! ## In the pool -/

/-- The market `m` in which a seizure executes: at the planned index and decimals, with the
position's shares in its books. -/
structure ExecutesIn (timestamp : Nat) (m : PoolSyncData) (e : SeizeEntry)
    (position : AccountPosition) : Prop where
  sound : m.Sound
  cash_le : m.state.cash ≤ i128Max
  decimals : m.params.assetDecimals = e.feed.assetDecimals
  synced : ∃ c, syncedMarket (some m) timestamp e.hubAsset = .ok c ∧
    c.supplyIndex = e.marketIndex.supplyIndex
  held : position.scaledAmount ≤ m.netSupply

/-- A liquidation that skips the utilization limit is refused only for want of cash or of supply
behind the debt. -/
theorem gateAndDebit_error {c : Cache} {net : Int} {err : Error} (hnet : 0 ≤ net)
    (hcash : c.cash ≤ i128Max) (h : Withdraw.gateAndDebit c net true = .error err) :
    err = .insufficientLiquidity ∨ err = .poolInsolvent := by
  unfold Withdraw.gateAndDebit Cache.requireReserves at h
  rcases Fallible.bind_error_iff.mp h with h | ⟨_, hres, h⟩
  · exact .inl (Fallible.require_error_iff.mp h).2.symm
  rw [Fallible.require_ok_iff] at hres
  simp only [not_true_eq_false, if_false] at h
  rcases Fallible.bind_error_iff.mp h with h | ⟨_, -, h⟩
  · unfold Guards.requireSupplyForDebt at h
    split at h
    · cases h
      exact .inr rfl
    · cases h
  · have hdebit : c.debitCash net = .ok { c with cash := c.cash - net } :=
      Cache.debitCash_ok_iff.mpr ⟨hnet, hres, inI128_of_nonneg (by omega) (by omega), rfl⟩
    rw [hdebit] at h
    cases h

/-- A fee within what is paid is always withheld. -/
theorem withholdLiquidationFee_total {c : Cache} {g fee : Int} (hd : c.params.assetDecimals ≤
    wadDecimals) (hi : 0 < c.supplyIndex) (hr : 0 ≤ c.revenue) (hrs : c.revenue ≤ c.supplied)
    (hs : c.supplied ≤ i128Max) (hf : 0 ≤ fee) (hle : fee ≤ g) (hgross : g ≤ i128Max)
    (hgrossRay : g * assetUnit c.params.assetDecimals ≤ i128Max) :
    ∃ c', Withdraw.withholdLiquidationFee c g true fee = .ok (c', g - fee) ∧
      c'.cash = c.cash := by
  have hunit := assetUnit_pos c.params.assetDecimals
  unfold Withdraw.withholdLiquidationFee
  by_cases hz : fee = 0
  · subst hz
    exact ⟨c, by simp, rfl⟩
  rw [if_neg (by simpa using hz), Fallible.require_pos hle, Fallible.ok_bind,
    Ray.fromAsset_eq hd, toI128_eq, if_pos (inI128_of_nonneg (mul_nonneg hf hunit.le)
      (le_trans (mul_le_mul_of_nonneg_right hle hunit.le) hgrossRay)), Fallible.ok_bind]
  set feeRay := fee * assetUnit c.params.assetDecimals
  have hfr : 0 < feeRay := mul_pos (lt_of_le_of_ne hf (Ne.symm hz)) hunit
  obtain ⟨shares, hshares, hsum⟩ := protocolFeeShares_total hi hfr.le (hr.trans hrs) hs
  have hs0 := (protocolFeeShares_spec hi hfr.le hs hshares).1
  have hacc : c.accrueRevenue shares =
      .ok { c with revenue := c.revenue + shares, supplied := c.supplied + shares } :=
    Cache.accrueRevenue_ok_iff.mpr ⟨inI128_of_nonneg (by omega) (by omega),
      inI128_of_nonneg (by omega) hsum, rfl⟩
  have hadd : Interest.addProtocolRevenue c feeRay =
      .ok { c with revenue := c.revenue + shares, supplied := c.supplied + shares } := by
    unfold Interest.addProtocolRevenue
    rw [if_neg (by exact hfr.ne'), hshares]
    exact hacc
  have hsub : I128.checkedSub g fee = some (g - fee) :=
    I128.checkedSub_some.mpr ⟨inI128_of_nonneg (by omega) (by omega), rfl⟩
  rw [hadd, Fallible.ok_bind, hsub]
  exact ⟨_, rfl, rfl⟩

/-- **A seizable entry in the pool.** -/
theorem Seizable.accounting_error {position : AccountPosition} {e : SeizeEntry}
    {m : PoolSyncData} {err : Error} (he : Seizable position e)
    (hm : ExecutesIn timestamp m e position)
    (h : Withdraw.accounting (some m) timestamp true
      ⟨Positions.makePoolAction position.scaledAmount e.amount e.hubAsset, e.protocolFee⟩ =
      .error err) : err = .insufficientLiquidity ∨ err = .poolInsolvent := by
  obtain ⟨c, hsync, hindex⟩ := hm.synced
  obtain ⟨burned, gross, hres, hfee⟩ := he.withdraws
  obtain ⟨hb0, hble, hround, hg0, hgle⟩ := resolveWithdrawal_within he.decimals_le he.shares_pos
    he.index_pos he.fits he.amount_nonneg hres
  obtain ⟨actual, floor, -, -, hvalue, hamt, hactual⟩ := he.value
  have hc := syncedMarket_sound hm.sound hsync
  obtain ⟨m', hm', hmoves⟩ := syncedMarket_moves hsync
  cases hm'
  have hdec : c.params.assetDecimals = e.feed.assetDecimals :=
    hmoves.assetDecimals.trans hm.decimals
  have hcash : c.cash = m.state.cash := by
    have := hmoves.cash
    simpa [Cache.commit] using this
  have hheld : position.scaledAmount ≤ c.supplied - c.revenue := by
    have h1 := hmoves.netSupply
    have h2 := hm.held
    simp only [PoolSyncData.netSupply, Cache.commit] at h1 h2
    omega
  have hbounds := hc.bounds
  have hrev : 0 ≤ c.revenue := hbounds.revenue_nonneg
  have hmax : c.supplied ≤ i128Max := hbounds.supplied_le
  -- What is paid is worth at most the shares, so it fits.
  have hgrossRay : gross * assetUnit e.feed.assetDecimals ≤ i128Max := by
    have hback := resolveWithdrawal_backed he.decimals_le he.index_pos hres
    have hall := mul_le_mul_of_nonneg_right hble he.index_pos.le
    have hle : gross * assetUnit e.feed.assetDecimals ≤
        position.scaledAmount * e.marketIndex.supplyIndex / ray := by
      rw [le_floor_iff ray_pos]
      exact hback.trans hall
    exact hle.trans ((floor_le_halfUpDiv ray_pos).trans hvalue)
  have hload : loadLeg (some m) timestamp
      (Positions.makePoolAction position.scaledAmount e.amount e.hubAsset) =
      .ok (c, position.scaledAmount) := by
    refine Fallible.bind_ok_iff.mpr ⟨(), Fallible.require_ok_iff.mpr he.amount_nonneg, ?_⟩
    refine Fallible.bind_ok_iff.mpr ⟨(), Fallible.require_ok_iff.mpr he.shares_pos.le, ?_⟩
    exact Fallible.bind_ok_iff.mpr ⟨c, hsync, rfl⟩
  have hclose : Withdraw.resolveCloseOrPartial c e.amount position.scaledAmount =
      .ok (burned, gross) := by
    unfold Withdraw.resolveCloseOrPartial Cache.resolveWithdrawal
    rw [hindex, hdec, hres, Fallible.ok_bind]
    dsimp only
    rw [Fallible.require_pos hround]
    rfl
  have hburn : Withdraw.burnPosition c position.scaledAmount burned =
      .ok ({ c with supplied := c.supplied - burned }, position.scaledAmount - burned) := by
    unfold Withdraw.burnPosition
    rw [Cache.burnSupply_ok_iff.mpr ⟨hb0, by omega, by omega, rfl⟩, Fallible.ok_bind,
      Ray.checkedSub_ok_iff.mpr ⟨he.shares_pos.le, hb0, hble, rfl⟩]
    rfl
  obtain ⟨c', hwithhold, hcash'⟩ := withholdLiquidationFee_total
    (c := { c with supplied := c.supplied - burned }) (g := gross) (hdec ▸ he.decimals_le)
    (hindex ▸ he.index_pos) hrev (by dsimp only; omega) (by dsimp only; omega) he.fee_nonneg hfee
    (by omega) (by dsimp only; rw [hdec]; exact hgrossRay)
  unfold Withdraw.accounting requireNonnegAmount at h
  rw [Fallible.require_pos he.fee_nonneg, Fallible.ok_bind, hload, Fallible.ok_bind] at h
  change Withdraw.resolveCloseOrPartial c e.amount position.scaledAmount >>= _ = _ at h
  rw [hclose, Fallible.ok_bind] at h
  dsimp only at h
  rw [hburn, Fallible.ok_bind] at h
  dsimp only at h
  rw [hwithhold, Fallible.ok_bind] at h
  rcases Fallible.bind_error_iff.mp h with h | ⟨_, -, h⟩
  · refine gateAndDebit_error (by omega) ?_ h
    rw [hcash']
    exact hcash.le.trans hm.cash_le
  · cases h

/-! ## As shares -/

/-- **The share split of a seizable entry.** It exists and loses nothing. -/
theorem Seizable.split {position : AccountPosition} {e : SeizeEntry} (he : Seizable position e)
    (hmax : position.scaledAmount ≤ i128Max) :
    ∃ feeScaled liquidatorScaled,
      splitSeizedShares e.scaledAmount e.bonusScaled e.liquidationFees =
        .ok (feeScaled, liquidatorScaled) ∧ 0 ≤ feeScaled ∧ 0 ≤ liquidatorScaled ∧
      liquidatorScaled + feeScaled = e.scaledAmount := by
  have hfees0 : (0 : Int) ≤ e.liquidationFees := Int.natCast_nonneg _
  have hn : 0 ≤ e.bonusScaled * (e.liquidationFees : Int) := mul_nonneg he.bonus_nonneg hfees0
  have hs0 := he.scaled_nonneg
  have hsle := he.scaled_le
  have hfee0 : 0 ≤ ceilDiv (e.bonusScaled * (e.liquidationFees : Int)) bps :=
    ceilDiv_nonneg bps_pos hn
  have hfee : ceilDiv (e.bonusScaled * (e.liquidationFees : Int)) bps ≤ e.scaledAmount := by
    refine le_trans ((ceilDiv_le_iff bps_pos).mpr ?_) he.bonus_le
    exact mul_le_mul_of_nonneg_left he.fees_lt.le he.bonus_nonneg
  set fee := ceilDiv (e.bonusScaled * (e.liquidationFees : Int)) bps
  refine ⟨fee, e.scaledAmount - fee, ?_, hfee0, by omega, by omega⟩
  have hguard : ¬ (e.scaledAmount < Ray.zero ∨ e.bonusScaled < Ray.zero ∨
      e.bonusScaled > e.scaledAmount ∨ (e.liquidationFees : Int) ≥ bps) := by
    have h1 := he.bonus_nonneg
    have h2 := he.bonus_le
    have h3 := he.fees_lt
    have hz : Ray.zero = 0 := rfl
    omega
  unfold splitSeizedShares
  dsimp only
  rw [Fallible.require_pos hguard, Fallible.ok_bind, mulDivCeil_eq bps_pos, toI128_eq,
    if_pos (inI128_of_nonneg hfee0 (by omega)), Fallible.ok_bind,
    Fallible.require_pos (not_lt.mpr hfee), Fallible.ok_bind,
    Ray.checkedSub_ok_iff.mpr ⟨hs0, hfee0, hfee, rfl⟩, Fallible.ok_bind,
    Ray.checkedAdd_ok_iff.mpr ⟨inI128_of_nonneg (by omega) (by omega), rfl⟩, Fallible.ok_bind,
    Fallible.require_pos (by omega), Fallible.ok_bind]
  rfl

/-! ## The plan -/

section
variable {account : Account} {seized : List SeizeEntry}

theorem assembleLiquidationPlan_seizes (hrun : MarketsRun timestamp pool.markets)
    (hfeeds : h.FeedsMatch pool) (hpos : account.Positive) (hstamps : FeesStamped account)
    {rawPayments : List HubPayment} :
    Answers h timestamp pool (assembleLiquidationPlan h timestamp account rawPayments) fun plan =>
      PlannedSeizures h timestamp pool account plan.seized :=
  .skip assertWithError_reads fun _ =>
    .skip (.foldlM (fun _ _ => Positions.enforceSpokeAssetFlags_reads) _) fun _ =>
    .skip liquidationSnapshot_reads fun ⟨_, _, _⟩ => .skip normalizeRepaymentPlan_reads fun _ =>
    .bind (calculateSeizedCollateral_answers hrun hfeeds hpos hstamps) fun _ hseized =>
    .skip .lift fun _ => .skip .lift fun _ =>
    .skip (.foldlM (fun _ _ => Positions.enforceSpokeAssetFlags_reads) _) fun _ => .pure hseized

/-- A planned entry passes its check. -/
theorem PlannedSeizure.validate {e : SeizeEntry} {position : AccountPosition}
    (he : PlannedSeizure h timestamp pool account e position) :
    SeizeEntry.validate e = .ok () := by
  have hfee := he.seizable.fee_le
  have hfee0 := he.seizable.fee_nonneg
  have hb0 := he.seizable.bonus_nonneg
  have hb := he.seizable.bonus_le
  have hf := he.seizable.fees_lt
  have ha := he.amount_pos
  have hs := he.scaled_pos
  unfold SeizeEntry.validate
  rw [Fallible.require_pos (by omega), Fallible.ok_bind, Fallible.require_pos (by omega)]

theorem PlannedSeizures.validate (hp : PlannedSeizures h timestamp pool account seized) :
    seized.foldlM (fun _ entry => SeizeEntry.validate entry) () = .ok () := by
  have hall := hp.planned
  clear hp
  induction seized with
  | nil => rfl
  | cons e seized ih =>
    obtain ⟨position, he⟩ := hall e List.mem_cons_self
    rw [List.foldlM_cons, he.validate]
    exact ih fun e' he' => hall e' (List.mem_cons_of_mem _ he')

/-- The market a seizure was planned in is one it executes in. -/
theorem PlannedSeizure.executesIn {e : SeizeEntry} {position : AccountPosition}
    {m : PoolSyncData} (hrun : MarketsRun timestamp pool.markets) (hfeeds : h.FeedsMatch pool)
    (he : PlannedSeizure h timestamp pool account e position)
    (hget : pool.markets.get? e.hubAsset = some m) (hcash : m.state.cash ≤ i128Max)
    (hheld : position.scaledAmount ≤ m.netSupply) : ExecutesIn timestamp m e position := by
  obtain ⟨m', c, hget', hm, -, hsync, -, hindex, -⟩ := he.current.synced hrun
  obtain rfl : m = m' := Option.some.inj (hget.symm.trans hget')
  exact ⟨hm, hcash, (hfeeds _ _ _ hget he.reported).symm,
    ⟨c, hsync, congrArg MarketIndex.supplyIndex hindex⟩, hheld⟩

/-- Entries with enough decimals are all scaled and stay executable. -/
theorem scaleEntries_seizable {num den : Int} (hn : 0 ≤ num) (hlt : num < den)
    (hall : ∀ e ∈ seized, minBorrowableAssetDecimals ≤ e.feed.assetDecimals ∧ 0 < e.amount ∧
      ∃ position, account.supplyPositions.get? e.hubAsset = some position ∧
        position.scaledAmount ≤ i128Max ∧ Seizable position e) :
    ∃ seized', seized.mapM (scaleSeizeEntry num den) = .ok seized' ∧
      ∀ e ∈ seized', ∃ position, account.supplyPositions.get? e.hubAsset = some position ∧
        position.scaledAmount ≤ i128Max ∧ Seizable position e := by
  induction seized with
  | nil => exact ⟨[], rfl, by simp⟩
  | cons e seized ih =>
    obtain ⟨hdec, hpos, position, hget, hmax, he⟩ := hall e List.mem_cons_self
    obtain ⟨e', hscale, hkey, -, -, he'⟩ := scaleSeizeEntry_seizable he hmax hpos hdec hn hlt
    obtain ⟨seized', hrest, hall'⟩ := ih fun x hx => hall x (List.mem_cons_of_mem _ hx)
    refine ⟨e' :: seized', ?_, fun x hx => ?_⟩
    · rw [List.mapM_cons, hscale, Fallible.ok_bind, hrest]
      rfl
    · rcases List.mem_cons.mp hx with rfl | hx
      · exact ⟨position, hkey ▸ hget, hmax, he'⟩
      · exact hall' x hx

/-- An entry with too few decimals refuses to be scaled. -/
theorem scaleEntries_refused {num den : Int} (hn : 0 ≤ num) (hlt : num < den)
    (hall : ∀ e ∈ seized, 0 < e.amount ∧
      ∃ position : AccountPosition, position.scaledAmount ≤ i128Max ∧ Seizable position e)
    (hbad : ∃ e ∈ seized, e.feed.assetDecimals < minBorrowableAssetDecimals) :
    seized.mapM (scaleSeizeEntry num den) = .error .invalidPayments := by
  induction seized with
  | nil =>
    obtain ⟨e, he, -⟩ := hbad
    cases he
  | cons e seized ih =>
    obtain ⟨hpos, position, hmax, he⟩ := hall e List.mem_cons_self
    rw [List.mapM_cons]
    by_cases hdec : minBorrowableAssetDecimals ≤ e.feed.assetDecimals
    · obtain ⟨e', hscale, -⟩ := scaleSeizeEntry_seizable he hmax hpos hdec hn hlt
      have hrest : ∃ x ∈ seized, x.feed.assetDecimals < minBorrowableAssetDecimals := by
        obtain ⟨x, hx, hxbad⟩ := hbad
        rcases List.mem_cons.mp hx with rfl | hx
        · exact absurd hdec (not_le.mpr hxbad)
        · exact ⟨x, hx, hxbad⟩
      rw [hscale, Fallible.ok_bind,
        ih (fun x hx => hall x (List.mem_cons_of_mem _ hx)) hrest]
      rfl
    · have hscale : scaleSeizeEntry num den e = .error .invalidPayments := by
        unfold scaleSeizeEntry
        rw [(Fallible.require_error_iff (d := Error.invalidPayments)).mpr ⟨hdec, rfl⟩]
        rfl
      rw [hscale]
      rfl

end

end Liquidation

open Liquidation

/-- **Liquidation plans are executable.** The plan of an unhealthy account always passes its
validation and seizes at most the shares held. Whatever part of the repayment was received, the
seizures are sized to it, unless a partial delivery meets a leg in whole units, which is
refused. A sized seizure executed at the planned index fails in the pool only for want of cash
or of supply behind the debt, its fee is at most its gross amount, and it splits into the fee's
and the liquidator's shares exactly; its credit takes the split shares and goes on to the
receiver's checks. A credit of all of them takes from the account, share for share, what it gives
the receiver and hands the pool as fees. -/
theorem liquidation_plan_executable {s s1 : Invocation W} {account : Account}
    {rawPayments : List HubPayment} {plan : LiquidationPlan}
    (hrun : MarketsRun timestamp s.pool.markets) (hquoted : s.Quoted h timestamp)
    (hfeeds : h.FeedsMatch s.pool) (hpos : account.Positive) (hstamps : FeesStamped account)
    (hheld : ∀ hubAsset position m, account.supplyPositions.get? hubAsset = some position →
      s.pool.markets.get? hubAsset = some m → position.scaledAmount ≤ m.netSupply)
    (hplan : assembleLiquidationPlan h timestamp account rawPayments s = .ok plan s1) :
    plan.validate = .ok () ∧
    (∀ e ∈ plan.seized, ∃ position, account.supplyPositions.get? e.hubAsset = some position ∧
      e.scaledAmount ≤ position.scaledAmount ∧
      ∀ m, s.pool.markets.get? e.hubAsset = some m → m.state.cash ≤ i128Max →
        ExecutesIn timestamp m e position) ∧
    ∀ receivedUsd, 0 ≤ receivedUsd →
      (receivedUsd < plan.repayment.repayUsd →
        (∃ e ∈ plan.seized, e.feed.assetDecimals < minBorrowableAssetDecimals) →
        scaleSeizuresToReceived plan.seized receivedUsd plan.repayment.repayUsd =
          .error .invalidPayments) ∧
      (plan.repayment.repayUsd ≤ receivedUsd ∨
          (∀ e ∈ plan.seized, minBorrowableAssetDecimals ≤ e.feed.assetDecimals) →
        ∃ seized, scaleSeizuresToReceived plan.seized receivedUsd plan.repayment.repayUsd =
          .ok seized ∧
        (∀ e ∈ seized, ∃ position, account.supplyPositions.get? e.hubAsset = some position ∧
          e.protocolFee ≤ e.amount ∧
          (∀ m err, ExecutesIn timestamp m e position →
            Withdraw.accounting (some m) timestamp true
              ⟨Positions.makePoolAction position.scaledAmount e.amount e.hubAsset,
                e.protocolFee⟩ = .error err →
            err = .insufficientLiquidity ∨ err = .poolInsolvent) ∧
          ∃ feeScaled liquidatorScaled,
            splitSeizedShares e.scaledAmount e.bonusScaled e.liquidationFees =
              .ok (feeScaled, liquidatorScaled) ∧
            Ray.checkedSub position.scaledAmount e.scaledAmount =
              .ok (position.scaledAmount - (liquidatorScaled + feeScaled)) ∧
            liquidatorScaled + feeScaled = e.scaledAmount ∧
            ∀ acc : CreditAcc, acc.account.supplyPositions.get? e.hubAsset = some position →
              (creditSeizure acc e : Ctrl W CreditAcc) =
                creditSplit acc e position feeScaled liquidatorScaled) ∧
        ∀ (receiver account' receiver' : Account) (t t' : Invocation W),
          applyLiquidationShareCredit timestamp account receiver seized t =
            .ok (account', receiver') t' →
          ∃ fees, SharesCredited seized account receiver ⟨account', receiver', fees⟩ ∧
            HandsOver timestamp fees t.toSystem t'.toSystem) := by
  obtain ⟨-, merged, -, hrep⟩ :=
    (assembleLiquidationPlan_repays hrun hfeeds hpos).ok ⟨rfl, hquoted⟩ hplan
  obtain ⟨-, hseized⟩ :=
    (assembleLiquidationPlan_seizes hrun hfeeds hpos hstamps).ok ⟨rfl, hquoted⟩ hplan
  -- The shares of a planned entry are in the pool's books, hence machine integers.
  have hall : ∀ e ∈ plan.seized, 0 < e.amount ∧ ∃ position,
      account.supplyPositions.get? e.hubAsset = some position ∧
      position.scaledAmount ≤ i128Max ∧ Seizable position e := by
    intro e he
    obtain ⟨position, hp⟩ := hseized.planned e he
    obtain ⟨m, c, hget, hm, -⟩ := hp.current.synced hrun
    refine ⟨hp.amount_pos, position, hp.held, ?_, hp.seizable⟩
    have h1 := hheld _ _ _ hp.held hget
    have h2 := hm.state.revenue_nonneg
    have h3 := hm.state.supplied_le
    unfold PoolSyncData.netSupply at h1
    omega
  refine ⟨?_, fun e he => ?_, fun receivedUsd hr => ⟨fun hlt hbad => ?_, fun hcase => ?_⟩⟩
  · unfold LiquidationPlan.validate
    rw [hrep.repayUsd, Fallible.ok_bind, Fallible.require_pos rfl, Fallible.ok_bind]
    exact hseized.validate
  · obtain ⟨position, hp⟩ := hseized.planned e he
    exact ⟨position, hp.held, hp.seizable.scaled_le, fun m hget hcash =>
      hp.executesIn hrun hfeeds hget hcash (hheld _ _ _ hp.held hget)⟩
  · unfold scaleSeizuresToReceived
    rw [if_neg (by have hz : Wad.zero = 0 := rfl; omega)]
    refine scaleEntries_refused hr hlt (fun e he => ?_) hbad
    obtain ⟨ha, position, -, hrest⟩ := hall e he
    exact ⟨ha, position, hrest⟩
  · suffices hsuf : ∃ seized, scaleSeizuresToReceived plan.seized receivedUsd
        plan.repayment.repayUsd = .ok seized ∧
        ∀ e ∈ seized, ∃ position, account.supplyPositions.get? e.hubAsset = some position ∧
          position.scaledAmount ≤ i128Max ∧ Seizable position e by
      obtain ⟨seized, hscale, hseizable⟩ := hsuf
      refine ⟨seized, hscale, fun e he => ?_, fun _ _ _ _ _ =>
        applyLiquidationShareCredit_credits h⟩
      obtain ⟨position, hget, hmax, hs⟩ := hseizable e he
      obtain ⟨fee, liq, hsplit, hfee0, hliq0, hsum⟩ := hs.split hmax
      have htaken : Ray.checkedSub position.scaledAmount e.scaledAmount =
          .ok (position.scaledAmount - e.scaledAmount) :=
        Ray.checkedSub_ok_iff.mpr ⟨hs.shares_pos.le, hs.scaled_nonneg, hs.scaled_le, rfl⟩
      have hrest : Ray.checkedSub e.scaledAmount liq = .ok fee :=
        Ray.checkedSub_ok_iff.mpr ⟨hs.scaled_nonneg, hliq0, by omega, by omega⟩
      exact ⟨position, hget, hs.fee_le, fun m err hm => hs.accounting_error hm, fee, liq, hsplit,
        hsum ▸ htaken, hsum, fun _ hheld => creditSeizure_split hsplit hrest hheld htaken⟩
    unfold scaleSeizuresToReceived
    split
    · exact ⟨plan.seized, rfl, fun e he => (hall e he).2⟩
    · rename_i hpart
      rw [not_or, not_le, not_le] at hpart
      have hdec := hcase.resolve_left (not_le.mpr hpart.2)
      exact scaleEntries_seizable hr hpart.2 fun e he =>
        ⟨hdec e he, (hall e he).1, (hall e he).2⟩

namespace Sample

theorem underwater_stamps : FeesStamped underwater := by
  intro k position hget
  unfold underwater at hget
  rw [SortedMap.get?_set] at hget
  split at hget
  · cases hget
    decide
  · cases hget

end Sample

/-- The sample plan passes validation, and half of its repayment still seizes. -/
theorem liquidation_plan_executable_sample :
    ∃ plan s1, assembleLiquidationPlan Sample.controllerHost 1_000 Sample.underwater
        [(Sample.key, 1_000_000_000)] Sample.invocation = .ok plan s1 ∧
      plan.validate = .ok () ∧
      ∃ seized, scaleSeizuresToReceived plan.seized (45 * wad) plan.repayment.repayUsd =
        .ok seized := by
  obtain ⟨plan, s1, hplan, hdec⟩ : ∃ plan s1, assembleLiquidationPlan Sample.controllerHost 1_000
      Sample.underwater [(Sample.key, 1_000_000_000)] Sample.invocation = .ok plan s1 ∧
      ∀ e ∈ plan.seized, minBorrowableAssetDecimals ≤ e.feed.assetDecimals :=
    ⟨_, _, rfl, by decide +kernel⟩
  obtain ⟨hvalid, -, hsized⟩ := liquidation_plan_executable Sample.invocation_markets
    (quoted_fresh rfl rfl) Sample.invocation_feeds Sample.underwater_positive
    Sample.underwater_stamps (by
      intro k position m hget hm
      unfold Sample.underwater at hget
      unfold Sample.invocation at hm
      rw [SortedMap.get?_set] at hget hm
      split at hget
      · rename_i heq
        subst heq
        rw [if_pos rfl] at hm
        cases hget
        cases hm
        decide
      · cases hget) hplan
  obtain ⟨seized, hscale, -⟩ := (hsized (45 * wad) (by decide)).2 (.inr hdec)
  exact ⟨plan, s1, hplan, hvalid, seized, hscale⟩

end Lending
