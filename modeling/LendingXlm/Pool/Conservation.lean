import LendingXlm.Pool.Market

/-!
# What accrual and write-downs do to the suppliers' claims

The claims of the suppliers are worth `supplied * supplyIndex / ray` exactly, `valueOf` rounded.

* `accrual_conserves`: over an accrual chunk the claims grow by what the debt grows by, up to the
  rounding of one share and of four values;
* `rewards_split`, `rewards_distributed`: the subtractions that split the interest cannot fail;
* `write_down_exact`: a write-down takes the bad debt from the claims, up to the rounding of the
  ratio times the supply.
-/

namespace Lending

open FpCore Rounding Ops

theorem two_dvd_ray : (2 : Int) ∣ ray := by decide

/-- A half-up value within half a unit of the exact one, strictly above. -/
theorem valueOf_between (shares index : Int) :
    2 * (valueOf shares index * ray) ≤ 2 * (shares * index) + ray ∧
      2 * (shares * index) < 2 * (valueOf shares index * ray) + ray :=
  ⟨halfUpDiv_mul_le _ ray_pos, lt_halfUpDiv_mul _ ray_pos two_dvd_ray⟩

namespace Interest

variable {c c' : Cache} {deltaMs : Nat} {badDebt : Int}

/-! ## Accrual -/

/-- The half-up increase of the debt. -/
def debtGrowth (c c' : Cache) : Int :=
  valueOf c'.borrowed c'.borrowIndex - valueOf c.borrowed c.borrowIndex

/-- The increase of the suppliers' claims, times `ray`: the growth of the index on the shares
there were, and the minted shares at the new index. -/
def claimsGrowth (c c' : Cache) : Int :=
  c.supplied * (c'.supplyIndex - c.supplyIndex) + (c'.supplied - c.supplied) * c'.supplyIndex

/-- The same, of the half-up claims. -/
def roundedClaimsGrowth (c c' : Cache) : Int :=
  valueOf c'.supplied c'.supplyIndex - valueOf c.supplied c.supplyIndex

/-- The protocol's reward buys more shares than fit the supply. -/
def HeadroomBinds (c c' : Cache) : Prop :=
  i128Max - c.supplied < (debtGrowth c c' - (valueOf c.supplied c'.supplyIndex -
    valueOf c.supplied c.supplyIndex)) * ray / c'.supplyIndex

/-- The interest of a chunk is split without an underflow: once the values it is computed from are
representable, the rewards and the shortfall are. -/
structure SplitsInterest (c : Cache) (deltaMs : Nat) : Prop where
  rewards : ∀ util rate factor newIndex oldDebt newDebt,
    calculateBorrowRate util c.params = .ok rate →
    compoundInterest rate deltaMs = .ok factor →
    updateBorrowIndex c.borrowIndex factor = .ok newIndex →
    Ray.mul c.borrowed c.borrowIndex = .ok oldDebt → Ray.mul c.borrowed newIndex = .ok newDebt →
    ∃ r, calculateSupplierRewards c.params c.borrowed newIndex c.borrowIndex = .ok r
  shortfall : ∀ rewards newIndex oldValue, 0 ≤ rewards →
    Ray.mul c.supplied c.supplyIndex = .ok oldValue →
    updateSupplyIndex c.supplied c.supplyIndex rewards = .ok newIndex →
    ∃ r, supplyIndexRewardShortfall c.supplied c.supplyIndex newIndex rewards = .ok r

theorem splitsInterest (hc : c.Sound) : SplitsInterest c deltaMs where
  rewards _ _ _ _ _ _ hrate hfactor hindex hold hnew := by
    have hle := (updateBorrowIndex_bounds (compoundInterest_ge
      (calculateBorrowRate_nonneg hc.params hrate) hfactor) hc.bounds.borrowIndex_le hindex).1
    obtain ⟨rewards, fee, h, -⟩ := calculateSupplierRewards_split hc.params hle hold hnew
    exact ⟨_, h⟩
  shortfall _ _ _ hrewards hold hindex :=
    ⟨_, supplyIndexRewardShortfall_returns hc.bounds.supplyIndex_le hrewards hold hindex⟩

/-- The claims of a chunk in terms of what it left for the protocol. -/
theorem accrueChunk_claims (hc : c.Sound) (h : accrueChunk c deltaMs = .ok c') :
    let reward := debtGrowth c c' -
      (valueOf c.supplied c'.supplyIndex - valueOf c.supplied c.supplyIndex)
    0 < c'.supplyIndex ∧ c'.supplied - c.supplied =
      min (reward * ray / c'.supplyIndex) (i128Max - c.supplied) := by
  obtain ⟨step, hstep, -, -, rfl⟩ := accrueChunk_ok h
  obtain ⟨-, ⟨-, hle, -⟩, -, hshares⟩ := accrueStep_split hc.params hc.bounds.borrowIndex_le
    hc.supplyIndex_pos hc.bounds.supplyIndex_le hc.bounds.supplied_le hstep
  refine ⟨hc.supplyIndex_pos.trans_le hle, ?_⟩
  rw [add_sub_cancel_left]
  exact hshares

/-- **Accrual conserves.** Over a chunk the claims outgrow the debt by less than two raw units,
and unless the headroom binds fall short of it by at most two and the price of a share; the
subtractions that split the interest do not fail. -/
theorem accrual_conserves (hc : c.Sound) (h : accrueChunk c deltaMs = .ok c') :
    (claimsGrowth c c' < (debtGrowth c c' + 2) * ray ∧
      roundedClaimsGrowth c c' < debtGrowth c c' + 2) ∧
    (¬ HeadroomBinds c c' →
      debtGrowth c c' * ray ≤ claimsGrowth c c' + c'.supplyIndex + 2 * ray ∧
      debtGrowth c c' * ray ≤ roundedClaimsGrowth c c' * ray + c'.supplyIndex + 2 * ray) ∧
    SplitsInterest c deltaMs := by
  obtain ⟨hindex, hminted⟩ := accrueChunk_claims hc h
  set reward := debtGrowth c c' -
    (valueOf c.supplied c'.supplyIndex - valueOf c.supplied c.supplyIndex) with hreward
  have hnew := valueOf_between c.supplied c'.supplyIndex
  have hold := valueOf_between c.supplied c.supplyIndex
  have hnewTotal := valueOf_between c'.supplied c'.supplyIndex
  have hgrowth : claimsGrowth c c' = c.supplied * c'.supplyIndex - c.supplied * c.supplyIndex +
      (c'.supplied - c.supplied) * c'.supplyIndex := by
    unfold claimsGrowth
    ring
  have htotal : c'.supplied * c'.supplyIndex - c.supplied * c.supplyIndex = claimsGrowth c c' := by
    rw [hgrowth]
    ring
  have hdebt : debtGrowth c c' * ray = reward * ray +
      (valueOf c.supplied c'.supplyIndex * ray - valueOf c.supplied c.supplyIndex * ray) := by
    rw [hreward]
    ring
  have hrounded : roundedClaimsGrowth c c' * ray =
      valueOf c'.supplied c'.supplyIndex * ray - valueOf c.supplied c.supplyIndex * ray := by
    unfold roundedClaimsGrowth
    ring
  have hbought : (c'.supplied - c.supplied) * c'.supplyIndex ≤ reward * ray := by
    have hle : c'.supplied - c.supplied ≤ reward * ray / c'.supplyIndex :=
      hminted ▸ min_le_left _ _
    exact (mul_le_mul_of_nonneg_right hle hindex.le).trans (floor_mul_le _ hindex)
  refine ⟨⟨?_, ?_⟩, fun hbinds => ?_, splitsInterest hc⟩
  · linarith
  · have hlt : roundedClaimsGrowth c c' * ray < (debtGrowth c c' + 2) * ray := by linarith
    exact lt_of_mul_lt_mul_right hlt ray_pos.le
  · have hall : c'.supplied - c.supplied = reward * ray / c'.supplyIndex := by
      rw [hminted]
      exact min_eq_left (not_lt.mp hbinds)
    have hpaid := lt_floor_mul_add (reward * ray) hindex
    rw [← hall] at hpaid
    constructor <;> linarith

/-! ## Write-downs -/

/-- The written-down index is below the floor, and clamped to it. -/
def FloorBinds (c : Cache) (badDebt : Int) : Prop :=
  ∃ index, writtenDownIndex c badDebt = .ok (some index) ∧ index < supplyIndexFloorRaw

/-- The claims that a write-down of `bad` out of `value` leaves, exactly and rounded. -/
structure WritesDown (c c' : Cache) (value bad : Int) : Prop where
  ge : (value - bad - 1) * ray - (value + c.supplied) ≤ c'.supplied * c'.supplyIndex
  le : c'.supplied * c'.supplyIndex ≤ (value - bad + 1) * ray
  rounded_ge : (value - bad - 1) * ray - (value + c.supplied) ≤
    valueOf c'.supplied c'.supplyIndex * ray
  rounded_le : valueOf c'.supplied c'.supplyIndex ≤ value - bad + 1

/-- The new index through the rounded ratio, times the supply. -/
theorem writtenDown_claims {supplied index value bad : Int} (hs : 0 ≤ supplied)
    (hvalue : value = valueOf supplied index) (hpos : 0 < value)
    (hbad : 0 ≤ bad) (hle : bad ≤ value) :
    let factor := (value - bad) * ray / value
    2 * ((value - bad) * ray) - 2 * (value + supplied) + 2 - ray ≤
        2 * (supplied * (index * factor / ray)) ∧
      2 * (supplied * (index * factor / ray)) ≤ (2 * (value - bad) + 1) * ray := by
  intro factor
  have hray := ray_pos
  obtain ⟨hlow, hhigh⟩ := valueOf_between supplied index
  rw [← hvalue] at hlow hhigh
  have hfactor0 : 0 ≤ factor := floor_nonneg hpos (mul_nonneg (by omega) hray.le)
  have hfactorLe : factor * value ≤ (value - bad) * ray := floor_mul_le _ hpos
  have hfactorLt : (value - bad) * ray < factor * value + value := lt_floor_mul_add _ hpos
  have hfactorRay : factor ≤ ray := by
    by_contra hlt
    have hstep : (ray + 1) * value ≤ factor * value :=
      mul_le_mul_of_nonneg_right (by omega) hpos.le
    nlinarith
  have hfloorLe := mul_le_mul_of_nonneg_left (floor_mul_le (index * factor) hray) hs
  have hfloorLt := mul_le_mul_of_nonneg_left (lt_floor_mul_add (index * factor) hray).le hs
  set new := index * factor / ray
  have hshareLow := mul_le_mul_of_nonneg_right hlow hfactor0
  have hshareHigh := mul_le_mul_of_nonneg_right hhigh.le hfactor0
  constructor
  · have key : (2 * ((value - bad) * ray) - 2 * (value + supplied) + 2 - ray) * ray ≤
        2 * (supplied * new) * ray := by
      nlinarith
    exact le_of_mul_le_mul_right key hray
  · have key : 2 * (supplied * new) * ray ≤ (2 * (value - bad) + 1) * ray * ray := by
      nlinarith
    exact le_of_mul_le_mul_right key hray

theorem applyBadDebt_writesDown (hc : c.Sound) (hbad : 0 ≤ badDebt)
    (h : applyBadDebtToSupplyIndex c badDebt = .ok c') :
    c'.supplied = c.supplied ∧ c'.supplyIndex ≤ c.supplyIndex ∧
      supplyIndexFloorRaw ≤ c'.supplyIndex ∧
      (¬ FloorBinds c badDebt → WritesDown c c' (valueOf c.supplied c.supplyIndex)
        (min badDebt (valueOf c.supplied c.supplyIndex))) := by
  set value := valueOf c.supplied c.supplyIndex with hvalue
  rcases applyBadDebtToSupplyIndex_ok h with ⟨hnone, rfl⟩ | ⟨index, hindex, rfl⟩
  · refine ⟨rfl, le_refl _, hc.bounds.supplyIndex_ge, fun _ => ?_⟩
    obtain ⟨hs, hi, ⟨hzero, -⟩ | ⟨-, -, hsome⟩⟩ := writtenDownIndex_ok hnone
    · have hclaims := mul_nonneg hs hi
      obtain ⟨-, hhigh⟩ := valueOf_between c'.supplied c'.supplyIndex
      rw [← hvalue] at hhigh hzero
      have hcut : min badDebt value = 0 := by omega
      have hray := ray_pos
      rw [hzero] at hhigh
      refine ⟨?_, ?_, ?_, ?_⟩
      · rw [hcut, hzero]
        omega
      · rw [hcut, hzero]
        omega
      · rw [← hvalue, hcut, hzero]
        omega
      · rw [← hvalue, hcut, hzero]
        omega
    · cases hsome
  · refine ⟨rfl, max_le (writtenDownIndex_le hindex) hc.bounds.supplyIndex_ge,
      le_max_right _ _, fun hfloor => ?_⟩
    have hclamp : max index supplyIndexFloorRaw = index := by
      refine max_eq_left (not_lt.mp fun hlt => hfloor ⟨index, hindex, hlt⟩)
    obtain ⟨hs, -, ⟨-, hsome⟩ | ⟨hpos, hmin, hsome⟩⟩ := writtenDownIndex_ok hindex
    · cases hsome
    rw [Option.some.injEq] at hsome
    obtain ⟨hlow, hhigh⟩ := writtenDown_claims hs hvalue hpos hmin (min_le_right _ _)
    rw [← hsome] at hlow hhigh
    obtain ⟨hroundLow, hroundHigh⟩ := valueOf_between c.supplied index
    have hray := ray_pos
    refine ⟨?_, ?_, ?_, ?_⟩ <;> dsimp only <;> rw [hclamp]
    · linarith
    · linarith
    · have hstrict : 2 * ((value - min badDebt value - 1) * ray - (value + c.supplied)) <
          2 * (valueOf c.supplied index * ray) := by
        linarith
      linarith
    · have hle : 2 * (valueOf c.supplied index * ray) ≤
          2 * ((value - min badDebt value + 1) * ray) := by
        linarith
      exact le_of_mul_le_mul_right (by linarith) hray

/-- **Write-downs are exact up to rounding.** Writing bad debt off takes it from the suppliers'
claims, unless the floor of the index binds; and a seizure burns exactly the seized debt. -/
theorem write_down_exact (hc : c.Sound) :
    (∀ badDebt c', 0 ≤ badDebt → applyBadDebtToSupplyIndex c badDebt = .ok c' →
      c'.supplied = c.supplied ∧ c'.supplyIndex ≤ c.supplyIndex ∧
        supplyIndexFloorRaw ≤ c'.supplyIndex ∧
        (¬ FloorBinds c badDebt → WritesDown c c' (valueOf c.supplied c.supplyIndex)
          (min badDebt (valueOf c.supplied c.supplyIndex)))) ∧
    ∀ stored timestamp entry c', entry.side = .borrow →
      syncedMarket stored timestamp entry.hubAsset = .ok c →
      Seize.apply stored timestamp entry = .ok c' →
      ∃ badDebt written, 0 ≤ badDebt ∧
        c.unscaleBorrowCeilRay entry.position.scaledAmount = .ok badDebt ∧
        applyBadDebtToSupplyIndex c badDebt = .ok written ∧
        c' = { written with borrowed := c.borrowed - entry.position.scaledAmount } := by
  refine ⟨fun badDebt c' => applyBadDebt_writesDown hc,
    fun stored timestamp entry c' hside hsync h => ?_⟩
  obtain ⟨c₁, hsync', hnonneg, ⟨-, -, badDebt, written, hbad, hwritten, rfl⟩ | ⟨hdeposit, -⟩⟩ :=
    Seize.apply_ok h
  · rw [hsync, Except.ok.injEq] at hsync'
    subst hsync'
    refine ⟨badDebt, written, ?_, hbad, hwritten, rfl⟩
    obtain ⟨-, rfl⟩ := Ray.mulCeil_ok_iff.mp hbad
    exact ceilDiv_nonneg ray_pos (mul_nonneg hnonneg hc.borrowIndex_pos.le)
  · rw [hside] at hdeposit
    cases hdeposit

end Interest

/-! ## A sample -/

theorem Sample.lentOut_sound (now : Nat) : (Cache.ofMarket key lentOut now).Sound :=
  (MarketRun.sound lentOut_run).1

/-- The sample market over a day. -/
theorem Interest.accrual_conserves_sample :
    ∃ c', accrueChunk (Cache.ofMarket Sample.key Sample.lentOut 87_400_000) 86_400_000 = .ok c' ∧
      claimsGrowth (Cache.ofMarket Sample.key Sample.lentOut 87_400_000) c' <
        (debtGrowth (Cache.ofMarket Sample.key Sample.lentOut 87_400_000) c' + 2) * ray := by
  obtain ⟨c', hc'⟩ : ∃ c', accrueChunk (Cache.ofMarket Sample.key Sample.lentOut 87_400_000)
      86_400_000 = .ok c' := ⟨_, rfl⟩
  exact ⟨c', hc', (accrual_conserves (Sample.lentOut_sound _) hc').1.1⟩

/-- A hundred tokens of bad debt in the sample market. -/
theorem Interest.write_down_exact_sample :
    ∃ c', applyBadDebtToSupplyIndex (Cache.ofMarket Sample.key Sample.lentOut 1_000_000)
        (100 * ray) = .ok c' ∧
      c'.supplyIndex ≤ (Cache.ofMarket Sample.key Sample.lentOut 1_000_000).supplyIndex := by
  obtain ⟨c', hc'⟩ : ∃ c', applyBadDebtToSupplyIndex (Cache.ofMarket Sample.key Sample.lentOut
      1_000_000) (100 * ray) = .ok c' := ⟨_, rfl⟩
  exact ⟨c', hc', ((write_down_exact (Sample.lentOut_sound _)).1 _ _ (by decide) hc').2.1⟩

end Lending
