import LendingXlm.Common.Rates

/-!
# What the conversions and the accrual step compute

One spec lemma per function of `Common.Rates`: the exact rounded value it returns. The
inequalities the accounting proofs use are stated on top of them, cleared of denominators:

* `resolveWithdrawal_backed`, `resolveRepay_backed`, `resolveNetSettle_backed`: shares and
  tokens move against the caller;
* `accrueStep_spec`: the indexes after one step and the shares minted for the protocol.
-/

namespace Lending

open FpCore Rounding

/-! ## Conversions -/

section
variable {amount scaled index r : Int} {d : Nat}

theorem calculateScaledSupply_ok_iff (hd : d ≤ wadDecimals) (hi : 0 < index) :
    calculateScaledSupply amount d index = .ok r ↔
      InI128 (amount * assetUnit d) ∧ InI128 r ∧ r = amount * assetUnit d * ray / index := by
  unfold calculateScaledSupply
  simp only [Fallible.bind_ok_iff, Ray.fromAsset_eq hd, toI128_ok_iff, Ray.divFloor_ok_iff hi]
  constructor
  · rintro ⟨_, ⟨h1, rfl⟩, h2, rfl⟩
    exact ⟨h1, h2, rfl⟩
  · rintro ⟨h1, h2, rfl⟩
    exact ⟨_, ⟨h1, rfl⟩, h2, rfl⟩

theorem calculateScaledSupplyCeil_ok_iff (hd : d ≤ wadDecimals) (hi : 0 < index) :
    calculateScaledSupplyCeil amount d index = .ok r ↔
      InI128 (amount * assetUnit d) ∧ InI128 r ∧
        r = ceilDiv (amount * assetUnit d * ray) index := by
  unfold calculateScaledSupplyCeil
  simp only [Fallible.bind_ok_iff, Ray.fromAsset_eq hd, toI128_ok_iff, Ray.divCeil_ok_iff hi]
  constructor
  · rintro ⟨_, ⟨h1, rfl⟩, h2, rfl⟩
    exact ⟨h1, h2, rfl⟩
  · rintro ⟨h1, h2, rfl⟩
    exact ⟨_, ⟨h1, rfl⟩, h2, rfl⟩

theorem calculateScaledBorrow_ok_iff (hd : d ≤ wadDecimals) (hi : 0 < index) :
    calculateScaledBorrow amount d index = .ok r ↔
      InI128 (amount * assetUnit d) ∧ InI128 r ∧
        r = ceilDiv (amount * assetUnit d * ray) index :=
  calculateScaledSupplyCeil_ok_iff hd hi

theorem calculateScaledBorrowFloor_ok_iff (hd : d ≤ wadDecimals) (hi : 0 < index) :
    calculateScaledBorrowFloor amount d index = .ok r ↔
      InI128 (amount * assetUnit d) ∧ InI128 r ∧ r = amount * assetUnit d * ray / index :=
  calculateScaledSupply_ok_iff hd hi

theorem unscaleSupplyFloor_ok_iff (hd : d ≤ wadDecimals) (hs : 0 ≤ scaled) (hi : 0 ≤ index) :
    unscaleSupplyFloor scaled index d = .ok r ↔
      scaled * index / ray ≤ i128Max ∧ r = scaled * index / ray / assetUnit d := by
  have h0 : 0 ≤ scaled * index / ray := floor_nonneg ray_pos (mul_nonneg hs hi)
  unfold unscaleSupplyFloor
  simp only [Fallible.bind_ok_iff, Ray.mulFloor_ok_iff]
  constructor
  · rintro ⟨_, ⟨h1, rfl⟩, h2⟩
    rw [Ray.toAssetFloor_eq h0 hd, Except.ok.injEq] at h2
    exact ⟨h1.2, h2.symm⟩
  · rintro ⟨h1, rfl⟩
    exact ⟨_, ⟨inI128_of_nonneg h0 h1, rfl⟩, Ray.toAssetFloor_eq h0 hd⟩

theorem unscaleBorrowCeil_ok_iff (hd : d ≤ wadDecimals) (hs : 0 ≤ scaled) (hi : 0 ≤ index) :
    unscaleBorrowCeil scaled index d = .ok r ↔
      ceilDiv (scaled * index) ray ≤ i128Max ∧
        r = ceilDiv (ceilDiv (scaled * index) ray) (assetUnit d) := by
  have h0 : 0 ≤ ceilDiv (scaled * index) ray := ceilDiv_nonneg ray_pos (mul_nonneg hs hi)
  unfold unscaleBorrowCeil
  simp only [Fallible.bind_ok_iff, Ray.mulCeil_ok_iff]
  constructor
  · rintro ⟨_, ⟨h1, rfl⟩, h2⟩
    rw [Ray.toAssetCeil_eq h0 hd, Except.ok.injEq] at h2
    exact ⟨h1.2, h2.symm⟩
  · rintro ⟨h1, rfl⟩
    exact ⟨_, ⟨inI128_of_nonneg h0 h1, rfl⟩, Ray.toAssetCeil_eq h0 hd⟩

theorem unscaleSupply_ok_iff (hd : d ≤ wadDecimals) :
    unscaleSupply scaled index d = .ok r ↔
      0 ≤ scaled ∧ 0 ≤ index ∧ halfUpDiv (scaled * index) ray ≤ i128Max ∧
        r = halfUpDiv (halfUpDiv (scaled * index) ray) (assetUnit d) := by
  unfold unscaleSupply scaledToOriginal
  simp only [Fallible.bind_ok_iff, Ray.mul_ok_iff]
  constructor
  · rintro ⟨_, ⟨hs, hi, rfl, h1⟩, h2⟩
    have h0 := halfUpDiv_nonneg ray_pos (mul_nonneg hs hi)
    rw [Ray.toAsset_eq h0 hd, Except.ok.injEq] at h2
    exact ⟨hs, hi, h1, h2.symm⟩
  · rintro ⟨hs, hi, h1, rfl⟩
    have h0 := halfUpDiv_nonneg ray_pos (mul_nonneg hs hi)
    exact ⟨_, ⟨hs, hi, rfl, h1⟩, Ray.toAsset_eq h0 hd⟩

/-- Floored twice, a value in tokens is at most the exact value. -/
theorem floor_floor_le {x u : Int} (hu : 0 < u) : x / ray / u * u * ray ≤ x := by
  have h1 := floor_mul_le (x / ray) hu
  have h2 := floor_mul_le x ray_pos
  have h3 : x / ray / u * u * ray ≤ x / ray * ray :=
    mul_le_mul_of_nonneg_right h1 ray_pos.le
  linarith

/-- Ceiled twice, a value in tokens is at least the exact value. -/
theorem le_ceil_ceil {x u : Int} (hu : 0 < u) : x ≤ ceilDiv (ceilDiv x ray) u * u * ray := by
  have h1 := le_ceilDiv_mul (ceilDiv x ray) hu
  have h2 := le_ceilDiv_mul x ray_pos
  have h3 : ceilDiv x ray * ray ≤ ceilDiv (ceilDiv x ray) u * u * ray :=
    mul_le_mul_of_nonneg_right h1 ray_pos.le
  linarith

end

/-! ## Resolving a request against a position -/

section
variable {amount pos supplyIndex borrowIndex burned gross : Int} {d : Nat}

/-- A withdrawal either closes the position at its floored value, or burns the ceiling of the
shares the requested amount is worth. -/
theorem resolveWithdrawal_cases (h : resolveWithdrawal amount pos supplyIndex d = .ok (burned, gross)) :
    ∃ actual floor, unscaleSupply pos supplyIndex d = .ok actual ∧
      unscaleSupplyFloor pos supplyIndex d = .ok floor ∧
      ((actual ≤ amount ∧ burned = pos ∧ gross = floor) ∨
        (amount < actual ∧ calculateScaledSupplyCeil amount d supplyIndex = .ok burned ∧
          gross = amount)) := by
  unfold resolveWithdrawal at h
  obtain ⟨actual, ha, h⟩ := Fallible.bind_ok h
  obtain ⟨floor, hf, h⟩ := Fallible.bind_ok h
  refine ⟨actual, floor, ha, hf, ?_⟩
  split at h
  · rename_i hge
    simp only [Fallible.pure_ok_iff, Prod.mk.injEq] at h
    exact .inl ⟨hge, h.1.symm, h.2.symm⟩
  · rename_i hlt
    obtain ⟨b, hb, h⟩ := Fallible.bind_ok h
    simp only [Fallible.pure_ok_iff, Prod.mk.injEq] at h
    obtain ⟨rfl, rfl⟩ := h
    exact .inr ⟨by omega, hb, rfl⟩

/-- The shares burned are worth at least the tokens paid. -/
theorem resolveWithdrawal_backed (hd : d ≤ wadDecimals) (hi : 0 < supplyIndex)
    (h : resolveWithdrawal amount pos supplyIndex d = .ok (burned, gross)) :
    gross * assetUnit d * ray ≤ burned * supplyIndex := by
  obtain ⟨actual, floor, ha, hf, hcase⟩ := resolveWithdrawal_cases h
  obtain ⟨hpos, -, -, -⟩ := (unscaleSupply_ok_iff hd).mp ha
  rcases hcase with ⟨-, rfl, rfl⟩ | ⟨-, hb, rfl⟩
  · obtain ⟨-, rfl⟩ := (unscaleSupplyFloor_ok_iff hd hpos hi.le).mp hf
    exact floor_floor_le (assetUnit_pos d)
  · obtain ⟨-, -, rfl⟩ := (calculateScaledSupplyCeil_ok_iff hd hi).mp hb
    exact le_ceilDiv_mul _ hi

variable {overpaid : Int}

/-- A repayment either closes the position at its ceiled value, or burns the floor of the shares
the amount is worth. -/
theorem resolveRepay_cases (h : resolveRepay amount pos borrowIndex d = .ok (burned, overpaid)) :
    ∃ debtCeil, unscaleBorrowCeil pos borrowIndex d = .ok debtCeil ∧
      ((debtCeil ≤ amount ∧ burned = pos ∧ overpaid = amount - debtCeil) ∨
        (amount < debtCeil ∧ calculateScaledBorrowFloor amount d borrowIndex = .ok burned ∧
          overpaid = 0)) := by
  unfold resolveRepay at h
  obtain ⟨debtCeil, hc, h⟩ := Fallible.bind_ok h
  refine ⟨debtCeil, hc, ?_⟩
  split at h
  · rename_i hge
    simp only [Fallible.bind_ok_iff, Fallible.orThrow_ok_iff, I128.checkedSub_some,
      Fallible.pure_ok_iff, Prod.mk.injEq] at h
    obtain ⟨_, ⟨-, rfl⟩, rfl, rfl⟩ := h
    exact .inl ⟨hge, rfl, rfl⟩
  · rename_i hlt
    obtain ⟨b, hb, h⟩ := Fallible.bind_ok h
    simp only [Fallible.pure_ok_iff, Prod.mk.injEq] at h
    obtain ⟨rfl, rfl⟩ := h
    exact .inr ⟨by omega, hb, rfl⟩

/-- The debt burned is worth at most the tokens kept. -/
theorem resolveRepay_backed (hd : d ≤ wadDecimals) (hi : 0 < borrowIndex) (hpos : 0 ≤ pos)
    (h : resolveRepay amount pos borrowIndex d = .ok (burned, overpaid)) :
    burned * borrowIndex ≤ (amount - overpaid) * assetUnit d * ray := by
  obtain ⟨debtCeil, hc, ⟨-, rfl, rfl⟩ | ⟨-, hb, rfl⟩⟩ := resolveRepay_cases h
  · obtain ⟨-, rfl⟩ := (unscaleBorrowCeil_ok_iff hd hpos hi.le).mp hc
    rw [sub_sub_cancel]
    exact le_ceil_ceil (assetUnit_pos d)
  · obtain ⟨-, -, rfl⟩ := (calculateScaledBorrowFloor_ok_iff hd hi).mp hb
    rw [sub_zero]
    exact floor_mul_le _ hi

variable {supplyPos debtPos burnedSupply burnedDebt settled : Int}

/-- A net settlement either settles nothing, or burns on each side what the overlap is worth,
capped at the position. -/
theorem resolveNetSettle_cases
    (h : resolveNetSettle amount supplyPos debtPos supplyIndex borrowIndex d =
      .ok (burnedSupply, burnedDebt, settled)) :
    ∃ supplyFloor debtCeil, unscaleSupplyFloor supplyPos supplyIndex d = .ok supplyFloor ∧
      unscaleBorrowCeil debtPos borrowIndex d = .ok debtCeil ∧
      ((burnedSupply = 0 ∧ burnedDebt = 0 ∧ settled = 0) ∨
        (0 < settled ∧ settled = min (min amount supplyFloor) debtCeil ∧
          (settled = supplyFloor ∧ burnedSupply = supplyPos ∨
            ∃ s, calculateScaledSupplyCeil settled d supplyIndex = .ok s ∧
              burnedSupply = min s supplyPos) ∧
          (settled = debtCeil ∧ burnedDebt = debtPos ∨
            ∃ s, calculateScaledBorrowFloor settled d borrowIndex = .ok s ∧
              burnedDebt = min s debtPos))) := by
  unfold resolveNetSettle at h
  obtain ⟨supplyFloor, hs, h⟩ := Fallible.bind_ok h
  obtain ⟨debtCeil, hc, h⟩ := Fallible.bind_ok h
  refine ⟨supplyFloor, debtCeil, hs, hc, ?_⟩
  dsimp only at h
  split at h
  · simp only [Fallible.pure_ok_iff, Prod.mk.injEq] at h
    exact .inl ⟨h.1.symm, h.2.1.symm, h.2.2.symm⟩
  rename_i hpos
  obtain ⟨bs, hbs, h⟩ := Fallible.bind_ok h
  obtain ⟨bd, hbd, h⟩ := Fallible.bind_ok h
  simp only [Fallible.pure_ok_iff, Prod.mk.injEq] at h
  obtain ⟨rfl, rfl, rfl⟩ := h
  refine .inr ⟨by omega, rfl, ?_, ?_⟩
  · split at hbs
    · rename_i heq
      simp only [Fallible.pure_ok_iff] at hbs
      exact .inl ⟨heq, hbs.symm⟩
    · simp only [Fallible.bind_ok_iff, Fallible.pure_ok_iff] at hbs
      obtain ⟨s, hs, rfl⟩ := hbs
      exact .inr ⟨s, hs, rfl⟩
  · split at hbd
    · rename_i heq
      simp only [Fallible.pure_ok_iff] at hbd
      exact .inl ⟨heq, hbd.symm⟩
    · simp only [Fallible.bind_ok_iff, Fallible.pure_ok_iff] at hbd
      obtain ⟨s, hs, rfl⟩ := hbd
      exact .inr ⟨s, hs, rfl⟩

/-- The supply burned is worth at least the settled tokens, the debt burned at most. -/
theorem resolveNetSettle_backed (hd : d ≤ wadDecimals) (hsi : 0 < supplyIndex)
    (hbi : 0 < borrowIndex) (hsp : 0 ≤ supplyPos) (hdp : 0 ≤ debtPos)
    (h : resolveNetSettle amount supplyPos debtPos supplyIndex borrowIndex d =
      .ok (burnedSupply, burnedDebt, settled)) :
    settled * assetUnit d * ray ≤ burnedSupply * supplyIndex ∧
      burnedDebt * borrowIndex ≤ settled * assetUnit d * ray := by
  obtain ⟨supplyFloor, debtCeil, hs, hc, ⟨rfl, rfl, rfl⟩ | ⟨hpos, hset, hbs, hbd⟩⟩ :=
    resolveNetSettle_cases h
  · simp
  have hu := assetUnit_pos d
  obtain ⟨-, rfl⟩ := (unscaleSupplyFloor_ok_iff hd hsp hsi.le).mp hs
  obtain ⟨-, rfl⟩ := (unscaleBorrowCeil_ok_iff hd hdp hbi.le).mp hc
  have hfloor : settled * assetUnit d * ray ≤ supplyPos * supplyIndex := by
    refine le_trans ?_ (floor_floor_le (x := supplyPos * supplyIndex) hu)
    have : settled ≤ supplyPos * supplyIndex / ray / assetUnit d := by omega
    exact mul_le_mul_of_nonneg_right (mul_le_mul_of_nonneg_right this hu.le) ray_pos.le
  constructor
  · rcases hbs with ⟨-, rfl⟩ | ⟨s, hs, rfl⟩
    · exact hfloor
    · obtain ⟨-, -, rfl⟩ := (calculateScaledSupplyCeil_ok_iff hd hsi).mp hs
      rcases min_choice (ceilDiv (settled * assetUnit d * ray) supplyIndex) supplyPos with hm | hm
      · rw [hm]
        exact le_ceilDiv_mul _ hsi
      · rw [hm]
        exact hfloor
  · rcases hbd with ⟨heq, rfl⟩ | ⟨s, hs, rfl⟩
    · rw [heq]
      exact le_ceil_ceil hu
    · obtain ⟨-, -, rfl⟩ := (calculateScaledBorrowFloor_ok_iff hd hbi).mp hs
      refine le_trans ?_ (floor_mul_le (settled * assetUnit d * ray) hbi)
      exact mul_le_mul_of_nonneg_right (min_le_left _ _) hbi.le

end

/-! ## The rate and the growth factor -/

section
variable {params : MarketParams} {util rate factor x : Int} {deltaMs : Nat}

/-- A share of a segment's slope is never negative. -/
theorem segment_nonneg {u slope range c : Int} (h : Ray.mul u slope >>= (Ray.div · range) = .ok c) :
    0 ≤ c := by
  obtain ⟨m, hm, hc⟩ := Fallible.bind_ok h
  obtain ⟨hu, hs, rfl, -⟩ := Ray.mul_ok_iff.mp hm
  obtain ⟨h0, hr, rfl, -⟩ := Ray.div_ok_iff.mp hc
  exact halfUpDiv_nonneg hr (mul_nonneg h0 ray_pos.le)

theorem calculateAnnualBorrowRate_bounds (hp : params.Verified)
    (h : calculateAnnualBorrowRate util params = .ok rate) :
    0 ≤ rate ∧ rate ≤ params.maxBorrowRate := by
  have hbase := hp.base_nonneg
  have hs1 := hp.base_le_slope1
  have hs2 := hp.slope1_le_slope2
  have hmax := hp.base_lt_max
  unfold calculateAnnualBorrowRate at h
  obtain ⟨annual, ha, h⟩ := Fallible.bind_ok h
  simp only [Fallible.pure_ok_iff] at h
  generalize (if util > Ray.one then Ray.one else util) = u at ha
  have hannual : 0 ≤ annual := by
    split at ha
    · obtain ⟨m, hm, ha⟩ := Fallible.bind_ok ha
      obtain ⟨c, hc, ha⟩ := Fallible.bind_ok ha
      have := segment_nonneg (Fallible.bind_ok_iff.mpr ⟨m, hm, hc⟩)
      obtain ⟨-, rfl⟩ := Ray.checkedAdd_ok_iff.mp ha
      omega
    · split at ha
      · simp only [Fallible.bind_ok_iff, Ray.checkedSub_ok_iff, Ray.checkedAdd_ok_iff] at ha
        obtain ⟨_, -, _, -, m, hm, c, hc, _, ⟨-, rfl⟩, -, rfl⟩ := ha
        have := segment_nonneg (Fallible.bind_ok_iff.mpr ⟨m, hm, hc⟩)
        omega
      · simp only [Fallible.bind_ok_iff, Ray.checkedSub_ok_iff, Ray.checkedAdd_ok_iff] at ha
        obtain ⟨_, ⟨-, rfl⟩, _, ⟨-, rfl⟩, _, -, _, -, m, hm, c, hc, -, rfl⟩ := ha
        have := segment_nonneg (Fallible.bind_ok_iff.mpr ⟨m, hm, hc⟩)
        omega
  split at h <;> omega

theorem calculateBorrowRate_nonneg (hp : params.Verified)
    (h : calculateBorrowRate util params = .ok rate) : 0 ≤ rate := by
  obtain ⟨annual, ha, h⟩ := Fallible.bind_ok h
  have h0 := (calculateAnnualBorrowRate_bounds hp ha).1
  rw [Ray.divByInt_eq h0 (by decide), Except.ok.injEq] at h
  rw [← h]
  exact halfUpDiv_nonneg (by decide) h0

/-- Adding a Taylor term does not lower the sum. -/
theorem taylorTerm_le {acc acc' : Int × Int} {divisor : Int} (hdiv : 0 < divisor)
    (h : taylorTerm x acc divisor = .ok acc') : acc.1 ≤ acc'.1 := by
  unfold taylorTerm at h
  obtain ⟨pow, hpow, h⟩ := Fallible.bind_ok h
  obtain ⟨h1, h2, rfl, -⟩ := Ray.mul_ok_iff.mp hpow
  have h0 := halfUpDiv_nonneg ray_pos (mul_nonneg h1 h2)
  rw [Ray.divByInt_eq h0 hdiv, Fallible.ok_bind] at h
  simp only [Fallible.bind_ok_iff, Ray.checkedAdd_ok_iff, Fallible.pure_ok_iff] at h
  obtain ⟨_, ⟨-, rfl⟩, rfl⟩ := h
  have := halfUpDiv_nonneg hdiv h0
  dsimp only
  omega

theorem taylorDivisors_pos {divisor : Int} (h : divisor ∈ taylorDivisors) : 0 < divisor := by
  simp only [taylorDivisors, List.mem_cons, List.not_mem_nil, or_false] at h
  omega

/-- A market's debt never shrinks by compounding. -/
theorem compoundInterest_ge (hrate : 0 ≤ rate) (h : compoundInterest rate deltaMs = .ok factor) :
    ray ≤ factor := by
  unfold compoundInterest at h
  split at h
  · simp only [Fallible.pure_ok_iff] at h
    exact h.le
  · simp only [Fallible.bind_ok_iff, toI128_ok_iff, Ray.checkedAdd_ok_iff, Fallible.pure_ok_iff] at h
    obtain ⟨_, ⟨-, rfl⟩, _, ⟨-, rfl⟩, acc, hacc, rfl⟩ := h
    have hx : 0 ≤ rate * (deltaMs : Int) := mul_nonneg hrate (by positivity)
    have hmono : Ray.one + rate * deltaMs ≤ acc.1 :=
      Fallible.foldlM_rel (R := fun a b : Int × Int => a.1 ≤ b.1) (fun _ => le_rfl)
        (fun _ _ _ => le_trans)
        (fun _ _ _ hm hs => taylorTerm_le (taylorDivisors_pos hm) hs) hacc
    simp only [Ray.one] at hmono
    omega

end

/-! ## Index updates -/

section
variable {oldIndex factor newIndex supplied rewards : Int}

theorem updateBorrowIndex_ok_iff :
    updateBorrowIndex oldIndex factor = .ok newIndex ↔
      0 ≤ oldIndex ∧ 0 ≤ factor ∧ halfUpDiv (oldIndex * factor) ray ≤ i128Max ∧
        newIndex = min (halfUpDiv (oldIndex * factor) ray) maxBorrowIndexRay := by
  unfold updateBorrowIndex
  simp only [Fallible.bind_ok_iff, Ray.mul_ok_iff, Fallible.pure_ok_iff]
  constructor
  · rintro ⟨_, ⟨h1, h2, rfl, h3⟩, rfl⟩
    refine ⟨h1, h2, h3, ?_⟩
    split <;> omega
  · rintro ⟨h1, h2, h3, rfl⟩
    refine ⟨_, ⟨h1, h2, rfl, h3⟩, ?_⟩
    split <;> omega

/-- Compounding with a factor of at least one never lowers the borrow index. -/
theorem updateBorrowIndex_bounds (hf : ray ≤ factor) (hcap : oldIndex ≤ maxBorrowIndexRay)
    (h : updateBorrowIndex oldIndex factor = .ok newIndex) :
    oldIndex ≤ newIndex ∧ newIndex ≤ maxBorrowIndexRay := by
  obtain ⟨h0, -, -, rfl⟩ := updateBorrowIndex_ok_iff.mp h
  refine ⟨le_min ?_ hcap, min_le_right _ _⟩
  calc oldIndex = halfUpDiv (oldIndex * ray) ray := (halfUpDiv_mul_self oldIndex ray_pos).symm
    _ ≤ halfUpDiv (oldIndex * factor) ray :=
      halfUpDiv_mono ray_pos (mul_le_mul_of_nonneg_left hf h0)

/-- The supply index never decreases by accrual and stays below its cap. -/
theorem updateSupplyIndex_bounds (hcap : oldIndex ≤ maxSupplyIndexRay)
    (h : updateSupplyIndex supplied oldIndex rewards = .ok newIndex) :
    oldIndex ≤ newIndex ∧ newIndex ≤ maxSupplyIndexRay := by
  unfold updateSupplyIndex at h
  split at h
  · simp only [Fallible.pure_ok_iff] at h
    omega
  obtain ⟨total, -, h⟩ := Fallible.bind_ok h
  split at h
  · simp only [Fallible.pure_ok_iff] at h
    omega
  simp only [Fallible.bind_ok_iff, Fallible.pure_ok_iff] at h
  obtain ⟨_, -, grown, -, rfl⟩ := h
  rw [min_eq_left hcap]
  exact ⟨le_max_right _ _, max_le (min_le_right _ _) hcap⟩

variable {fee index shares : Int}

/-- Fee shares are never worth more than the fee. -/
theorem protocolFeeShares_spec (hi : 0 < index) (hfee : 0 ≤ fee) (hs : supplied ≤ i128Max)
    (h : protocolFeeShares fee index supplied = .ok shares) :
    0 ≤ shares ∧ shares * index ≤ fee * ray := by
  unfold protocolFeeShares at h
  rw [mulDivFloorSaturating_eq hi hfee ray_pos.le, Fallible.ok_bind] at h
  simp only [Fallible.pure_ok_iff] at h
  have hq := floor_nonneg hi (mul_nonneg hfee ray_pos.le)
  have hmax : (0 : Int) ≤ i128Max := by decide
  have hhead : 0 ≤ I128.saturatingSub i128Max supplied := by
    unfold I128.saturatingSub
    omega
  constructor
  · rw [← h]
    exact le_min (le_min hq hmax) hhead
  · have hle : shares ≤ fee * ray / index := by
      rw [← h]
      exact (min_le_left _ _).trans (min_le_left _ _)
    exact (mul_le_mul_of_nonneg_right hle hi.le).trans (floor_mul_le _ hi)

end

/-! ## Splitting the interest -/

/-- The half-up value of `shares` at `index`. -/
def valueOf (shares index : Int) : Int := halfUpDiv (shares * index) ray

/-- The split of the interest between two representable debt values exists. -/
theorem calculateSupplierRewards_split {params : MarketParams}
    {borrowed oldIndex newIndex oldDebt newDebt : Int}
    (hp : params.Verified) (hle : oldIndex ≤ newIndex)
    (hold : Ray.mul borrowed oldIndex = .ok oldDebt)
    (hnew : Ray.mul borrowed newIndex = .ok newDebt) :
    ∃ rewards fee, calculateSupplierRewards params borrowed newIndex oldIndex =
      .ok (rewards, fee) ∧ 0 ≤ rewards ∧ 0 ≤ fee ∧ rewards + fee = newDebt - oldDebt := by
  obtain ⟨hb, hi, hold', hofit⟩ := Ray.mul_ok_iff.mp hold
  obtain ⟨-, -, hnew', hnfit⟩ := Ray.mul_ok_iff.mp hnew
  have hold0 : 0 ≤ oldDebt := hold' ▸ halfUpDiv_nonneg ray_pos (mul_nonneg hb hi)
  have hmono : oldDebt ≤ newDebt := by
    rw [hold', hnew']
    exact halfUpDiv_mono ray_pos (mul_le_mul_of_nonneg_left hle hb)
  set accrued := newDebt - oldDebt with haccrued
  have hacc0 : 0 ≤ accrued := sub_nonneg.mpr hmono
  set fee := halfUpDiv (accrued * (params.reserveFactor : Int)) bps
  have hfee0 : 0 ≤ fee := halfUpDiv_nonneg bps_pos (mul_nonneg hacc0 (by positivity))
  have hfee : fee ≤ accrued := by
    calc fee ≤ halfUpDiv (accrued * bps) bps :=
          halfUpDiv_mono bps_pos (mul_le_mul_of_nonneg_left hp.reserveFactor_lt.le hacc0)
      _ = accrued := halfUpDiv_mul_self _ bps_pos
  refine ⟨accrued - fee, fee, ?_, sub_nonneg.mpr hfee, hfee0, sub_add_cancel _ _⟩
  unfold calculateSupplierRewards
  rw [hold, Fallible.ok_bind, hnew, Fallible.ok_bind,
    Ray.checkedSub_ok_iff.mpr ⟨by omega, hold0, hmono, rfl⟩, Fallible.ok_bind,
    Bps.applyToRay_ok_iff.mpr ⟨hacc0, by positivity, rfl, by omega⟩, Fallible.ok_bind,
    Ray.checkedSub_ok_iff.mpr ⟨hacc0, hfee0, hfee, rfl⟩]
  rfl

/-- The supply index carries no more than the rewards. -/
theorem updateSupplyIndex_covered {supplied oldIndex newIndex rewards : Int}
    (hs : 0 ≤ supplied) (hcap : oldIndex ≤ maxSupplyIndexRay) (hrewards : 0 ≤ rewards)
    (h : updateSupplyIndex supplied oldIndex rewards = .ok newIndex) :
    valueOf supplied newIndex ≤ valueOf supplied oldIndex + rewards ∧
      (valueOf supplied oldIndex ≤ i128Max → valueOf supplied newIndex ≤ i128Max) := by
  unfold updateSupplyIndex at h
  by_cases hz : supplied = Ray.zero ∨ rewards = Ray.zero
  · rw [if_pos hz, Fallible.pure_ok_iff] at h
    subst h
    exact ⟨by omega, id⟩
  rw [if_neg hz] at h
  push Not at hz
  have hsp : 0 < supplied := lt_of_le_of_ne hs (Ne.symm hz.1)
  obtain ⟨total, htotal, h⟩ := Fallible.bind_ok h
  obtain ⟨-, hi, htotal, -⟩ := Ray.mul_ok_iff.mp htotal
  by_cases hvz : total = Ray.zero
  · rw [if_pos hvz, Fallible.pure_ok_iff] at h
    subst h
    exact ⟨by omega, id⟩
  rw [if_neg hvz] at h
  obtain ⟨newValue, hnew, h⟩ := Fallible.bind_ok h
  obtain ⟨hfit, rfl⟩ := Ray.checkedAdd_ok_iff.mp hnew
  have htotal0 : 0 ≤ total := htotal ▸ halfUpDiv_nonneg ray_pos (mul_nonneg hs hi)
  have hvalue : total = valueOf supplied oldIndex := htotal
  rw [mulDivFloorSaturating_eq hsp (by omega) ray_pos.le, Fallible.ok_bind,
    Fallible.pure_ok_iff] at h
  rcases max_choice (min (min ((total + rewards) * ray / supplied) i128Max) maxSupplyIndexRay)
    (min oldIndex maxSupplyIndexRay) with hmax | hmax
  · have hle : min (min ((total + rewards) * ray / supplied) i128Max) maxSupplyIndexRay ≤
        (total + rewards) * ray / supplied := (min_le_left _ _).trans (min_le_left _ _)
    have hfloor := floor_mul_le ((total + rewards) * ray) hsp
    suffices hnewValue : valueOf supplied newIndex ≤ total + rewards from
      ⟨hvalue ▸ hnewValue, fun _ => hnewValue.trans hfit.2⟩
    rw [← h, hmax]
    calc valueOf supplied _ ≤ halfUpDiv ((total + rewards) * ray) ray := by
          refine halfUpDiv_mono ray_pos ?_
          have := mul_le_mul_of_nonneg_left hle hs
          linarith
      _ = total + rewards := halfUpDiv_mul_self _ ray_pos
  · rw [← h, hmax, min_eq_left hcap]
    exact ⟨by omega, id⟩

/-- What the supply index leaves of the rewards exists. -/
theorem supplyIndexRewardShortfall_returns {supplied oldIndex newIndex rewards oldValue : Int}
    (hcap : oldIndex ≤ maxSupplyIndexRay) (hrewards : 0 ≤ rewards)
    (hold : Ray.mul supplied oldIndex = .ok oldValue)
    (h : updateSupplyIndex supplied oldIndex rewards = .ok newIndex) :
    supplyIndexRewardShortfall supplied oldIndex newIndex rewards =
      .ok (rewards - (valueOf supplied newIndex - valueOf supplied oldIndex)) := by
  obtain ⟨hs, hi, hold', hfit⟩ := Ray.mul_ok_iff.mp hold
  have hvalue : oldValue = valueOf supplied oldIndex := hold'
  obtain ⟨hcovered, hnewFit⟩ := updateSupplyIndex_covered hs hcap hrewards h
  have hle := (updateSupplyIndex_bounds hcap h).1
  have hmono : valueOf supplied oldIndex ≤ valueOf supplied newIndex :=
    halfUpDiv_mono ray_pos (mul_le_mul_of_nonneg_left hle hs)
  have hold0 : 0 ≤ valueOf supplied oldIndex := halfUpDiv_nonneg ray_pos (mul_nonneg hs hi)
  have hnew : Ray.mul supplied newIndex = .ok (valueOf supplied newIndex) :=
    Ray.mul_ok_iff.mpr ⟨hs, hi.trans hle, rfl, hnewFit (hvalue ▸ hold' ▸ hfit)⟩
  unfold supplyIndexRewardShortfall
  rw [hnew, Fallible.ok_bind, hold, Fallible.ok_bind, hvalue,
    Ray.checkedSub_ok_iff.mpr ⟨by omega, hold0, hmono, rfl⟩, Fallible.ok_bind,
    Ray.checkedSub_ok_iff.mpr ⟨hrewards, by omega, by omega, rfl⟩]

/-! ## One accrual step -/

section
variable {params : MarketParams} {borrowed supplied borrowIndex supplyIndex : Int} {deltaMs : Nat}
  {step : AccrualStep}

/-- What one accrual step did to a market with the given shares and indexes. -/
structure AccrualStep.Spec (borrowed supplied borrowIndex supplyIndex : Int) (step : AccrualStep) :
    Prop where
  borrowed_nonneg : 0 ≤ borrowed
  supplied_nonneg : 0 ≤ supplied
  borrowIndex_le : borrowIndex ≤ step.borrowIndex
  borrowIndex_cap : step.borrowIndex ≤ maxBorrowIndexRay
  supplyIndex_le : supplyIndex ≤ step.supplyIndex
  supplyIndex_cap : step.supplyIndex ≤ maxSupplyIndexRay
  revenueShares_nonneg : 0 ≤ step.revenueShares
  /-- The shares minted for the protocol are worth at most the accrued interest less what the
  supply index distributed. -/
  revenueShares_value : step.revenueShares * step.supplyIndex ≤
    (valueOf borrowed step.borrowIndex - valueOf borrowed borrowIndex -
      (valueOf supplied step.supplyIndex - valueOf supplied supplyIndex)) * ray

/-- The half-up increase of the debt over a step. -/
def AccrualStep.debtGrowth (borrowed borrowIndex : Int) (step : AccrualStep) : Int :=
  valueOf borrowed step.borrowIndex - valueOf borrowed borrowIndex

/-- What a step left for the protocol: the debt growth the supply index does not carry. -/
def AccrualStep.protocolReward (borrowed supplied borrowIndex supplyIndex : Int)
    (step : AccrualStep) : Int :=
  step.debtGrowth borrowed borrowIndex -
    (valueOf supplied step.supplyIndex - valueOf supplied supplyIndex)

/-- The indexes move up within their caps, and the protocol's shares are what its reward buys at
the new index, cut at the headroom of `supplied`. -/
theorem accrueStep_split (hp : params.Verified) (hbc : borrowIndex ≤ maxBorrowIndexRay)
    (hs0 : 0 < supplyIndex) (hsc : supplyIndex ≤ maxSupplyIndexRay) (hmax : supplied ≤ i128Max)
    (h : accrueStep params borrowed supplied borrowIndex supplyIndex deltaMs = .ok step) :
    (0 ≤ borrowed ∧ borrowIndex ≤ step.borrowIndex ∧ step.borrowIndex ≤ maxBorrowIndexRay) ∧
    (0 ≤ supplied ∧ supplyIndex ≤ step.supplyIndex ∧ step.supplyIndex ≤ maxSupplyIndexRay) ∧
    0 ≤ step.protocolReward borrowed supplied borrowIndex supplyIndex ∧
    step.revenueShares = min
      (step.protocolReward borrowed supplied borrowIndex supplyIndex * ray / step.supplyIndex)
      (i128Max - supplied) := by
  unfold accrueStep at h
  obtain ⟨borrowedOriginal, hbo, h⟩ := Fallible.bind_ok h
  obtain ⟨suppliedOriginal, hso, h⟩ := Fallible.bind_ok h
  obtain ⟨util, -, h⟩ := Fallible.bind_ok h
  obtain ⟨rate, hrate, h⟩ := Fallible.bind_ok h
  obtain ⟨factor, hfactor, h⟩ := Fallible.bind_ok h
  obtain ⟨newBorrow, hnb, h⟩ := Fallible.bind_ok h
  obtain ⟨⟨rewards, fee⟩, hrewards, h⟩ := Fallible.bind_ok h
  obtain ⟨newSupply, hns, h⟩ := Fallible.bind_ok h
  obtain ⟨shortfall, hshort, h⟩ := Fallible.bind_ok h
  obtain ⟨reward, hreward, h⟩ := Fallible.bind_ok h
  obtain ⟨shares, hshares, h⟩ := Fallible.bind_ok h
  simp only [Fallible.pure_ok_iff] at h
  subst h
  obtain ⟨hb0, -, -, -⟩ := Ray.mul_ok_iff.mp hbo
  obtain ⟨hsup0, -, -, -⟩ := Ray.mul_ok_iff.mp hso
  obtain ⟨hble, hbcap⟩ := updateBorrowIndex_bounds
    (compoundInterest_ge (calculateBorrowRate_nonneg hp hrate) hfactor) hbc hnb
  obtain ⟨hsle, hscap⟩ := updateSupplyIndex_bounds hsc hns
  -- The accrued interest is split without loss, and the index distributes part of one share.
  have hsplit : rewards + fee = valueOf borrowed newBorrow - valueOf borrowed borrowIndex ∧
      0 ≤ fee := by
    unfold calculateSupplierRewards at hrewards
    simp only [Fallible.bind_ok_iff, Ray.mul_ok_iff, Ray.checkedSub_ok_iff,
      Bps.applyToRay_ok_iff, Fallible.pure_ok_iff, Prod.mk.injEq] at hrewards
    obtain ⟨_, ⟨-, -, rfl, -⟩, _, ⟨-, -, rfl, -⟩, _, ⟨-, -, -, rfl⟩, _, ⟨-, -, rfl, -⟩, _,
      ⟨-, hfee, -, rfl⟩, rfl, rfl⟩ := hrewards
    refine ⟨?_, hfee⟩
    simp only [valueOf]
    omega
  have hdist : shortfall = rewards - (valueOf supplied newSupply - valueOf supplied supplyIndex) ∧
      0 ≤ shortfall := by
    unfold supplyIndexRewardShortfall at hshort
    simp only [Fallible.bind_ok_iff, Ray.mul_ok_iff, Ray.checkedSub_ok_iff] at hshort
    obtain ⟨_, ⟨-, -, rfl, -⟩, _, ⟨-, -, rfl, -⟩, _, ⟨-, -, -, rfl⟩, -, -, hle, rfl⟩ := hshort
    exact ⟨rfl, sub_nonneg.mpr hle⟩
  obtain ⟨-, hsum⟩ := Ray.checkedAdd_ok_iff.mp hreward
  have hmin : i128Min ≤ 0 := by decide
  have hheadroom : I128.saturatingSub i128Max supplied = i128Max - supplied := by
    unfold I128.saturatingSub
    omega
  have hprotocol : reward = AccrualStep.protocolReward borrowed supplied borrowIndex supplyIndex
      ⟨newBorrow, newSupply, shares⟩ := by
    simp only [AccrualStep.protocolReward, AccrualStep.debtGrowth]
    omega
  refine ⟨⟨hb0, hble, hbcap⟩, ⟨hsup0, hsle, hscap⟩, by omega, ?_⟩
  rw [← hprotocol]
  by_cases hz : reward = Ray.zero
  · rw [if_pos hz, Fallible.pure_ok_iff] at hshares
    rw [hz, Ray.zero, zero_mul, Int.zero_ediv, min_eq_left (by omega)]
    exact hshares.symm
  · rw [if_neg hz] at hshares
    unfold protocolFeeShares at hshares
    rw [mulDivFloorSaturating_eq (by omega) (by omega) ray_pos.le, Fallible.ok_bind,
      Fallible.pure_ok_iff, hheadroom] at hshares
    dsimp only
    omega

theorem accrueStep_spec (hp : params.Verified) (hbc : borrowIndex ≤ maxBorrowIndexRay)
    (hs0 : 0 < supplyIndex) (hsc : supplyIndex ≤ maxSupplyIndexRay) (hmax : supplied ≤ i128Max)
    (h : accrueStep params borrowed supplied borrowIndex supplyIndex deltaMs = .ok step) :
    step.Spec borrowed supplied borrowIndex supplyIndex := by
  obtain ⟨⟨hb0, hble, hbcap⟩, ⟨hsup0, hsle, hscap⟩, hreward, hshares⟩ :=
    accrueStep_split hp hbc hs0 hsc hmax h
  have hnew : 0 < step.supplyIndex := by omega
  have hbought := floor_nonneg hnew (mul_nonneg hreward ray_pos.le)
  refine ⟨hb0, hsup0, hble, hbcap, hsle, hscap, by omega, ?_⟩
  have hle : step.revenueShares ≤
      step.protocolReward borrowed supplied borrowIndex supplyIndex * ray / step.supplyIndex := by
    omega
  exact (mul_le_mul_of_nonneg_right hle hnew.le).trans (floor_mul_le _ hnew)

end

end Lending
