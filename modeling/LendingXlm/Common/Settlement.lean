import LendingXlm.Common.RatesSpec

/-!
# Settling a request against a position

What `resolveWithdrawal`, `resolveRepay` and `resolveNetSettle` burn and pay, on every asset whose
smallest unit is not finer than a ray. Each returns exactly when the position's value fits an
`i128`; it never burns more than the position, and what it rounds away goes to the pool.

* `partial_withdrawal_fits`: less than the half-up value is at most the exact value;
* `partial_repay_short`: less than the ceiled debt is less than the exact debt;
* `settlement_favours_pool`: the three functions.
-/

namespace Lending

open FpCore Rounding

variable {amount a r x : Int} {d : Nat}

/-! ## Conversions -/

theorem Ray.fromAsset_of_fits (hd : d ≤ rayDecimals) (hfit : InI128 (a * assetUnit d)) :
    Ray.fromAsset a d = .ok (a * assetUnit d) := by
  unfold Ray.fromAsset
  rcases hd.eq_or_lt with rfl | hlt
  · simp [rescaleHalfUp, rescale_same, assetUnit]
  · rw [rescaleHalfUp_up hlt (by simp only [rayDecimals]; omega), toI128_eq]
    exact if_pos hfit

theorem Ray.toAsset_of_le (hd : d ≤ rayDecimals) (ha : 0 ≤ a) :
    Ray.toAsset a d = .ok (halfUpDiv a (assetUnit d)) :=
  rescaleHalfUp_down ha hd (by simp only [rayDecimals]; omega)

theorem Ray.toAssetFloor_of_le (hd : d ≤ rayDecimals) (ha : 0 ≤ a) :
    Ray.toAssetFloor a d = .ok (a / assetUnit d) :=
  rescaleFloor_down ha hd (by simp only [rayDecimals]; omega)

theorem Ray.toAssetCeil_of_le (hd : d ≤ rayDecimals) (ha : 0 ≤ a) :
    Ray.toAssetCeil a d = .ok (ceilDiv a (assetUnit d)) :=
  rescaleCeil_down ha hd (by simp only [rayDecimals]; omega)

section
variable {pos index : Int}

/-- The half-up value of a position, in ray and in tokens. -/
theorem unscaleSupply_iff (hd : d ≤ rayDecimals) (hpos : 0 ≤ pos) (hindex : 0 ≤ index) :
    unscaleSupply pos index d = .ok r ↔ valueOf pos index ≤ i128Max ∧
      r = halfUpDiv (valueOf pos index) (assetUnit d) := by
  have hvalue : 0 ≤ valueOf pos index := halfUpDiv_nonneg ray_pos (mul_nonneg hpos hindex)
  unfold unscaleSupply scaledToOriginal
  simp only [Fallible.bind_ok_iff, Ray.mul_ok_iff]
  constructor
  · rintro ⟨_, ⟨-, -, rfl, hfit⟩, h⟩
    have hfloor := Ray.toAsset_of_le hd hvalue
    unfold valueOf at hfloor ⊢
    rw [hfloor, Except.ok.injEq] at h
    exact ⟨hfit, h.symm⟩
  · rintro ⟨hfit, rfl⟩
    exact ⟨_, ⟨hpos, hindex, rfl, hfit⟩, Ray.toAsset_of_le hd hvalue⟩

theorem unscaleSupplyFloor_iff (hd : d ≤ rayDecimals) (hpos : 0 ≤ pos) (hindex : 0 ≤ index) :
    unscaleSupplyFloor pos index d = .ok r ↔ pos * index / ray ≤ i128Max ∧
      r = pos * index / ray / assetUnit d := by
  have hvalue : 0 ≤ pos * index / ray := floor_nonneg ray_pos (mul_nonneg hpos hindex)
  unfold unscaleSupplyFloor
  simp only [Fallible.bind_ok_iff, Ray.mulFloor_ok_iff]
  constructor
  · rintro ⟨_, ⟨hfit, rfl⟩, h⟩
    rw [Ray.toAssetFloor_of_le hd hvalue, Except.ok.injEq] at h
    exact ⟨hfit.2, h.symm⟩
  · rintro ⟨hfit, rfl⟩
    exact ⟨_, ⟨inI128_of_nonneg hvalue hfit, rfl⟩, Ray.toAssetFloor_of_le hd hvalue⟩

theorem unscaleBorrowCeil_iff (hd : d ≤ rayDecimals) (hpos : 0 ≤ pos) (hindex : 0 ≤ index) :
    unscaleBorrowCeil pos index d = .ok r ↔ ceilDiv (pos * index) ray ≤ i128Max ∧
      r = ceilDiv (ceilDiv (pos * index) ray) (assetUnit d) := by
  have hvalue : 0 ≤ ceilDiv (pos * index) ray := ceilDiv_nonneg ray_pos (mul_nonneg hpos hindex)
  unfold unscaleBorrowCeil
  simp only [Fallible.bind_ok_iff, Ray.mulCeil_ok_iff]
  constructor
  · rintro ⟨_, ⟨hfit, rfl⟩, h⟩
    rw [Ray.toAssetCeil_of_le hd hvalue, Except.ok.injEq] at h
    exact ⟨hfit.2, h.symm⟩
  · rintro ⟨hfit, rfl⟩
    exact ⟨_, ⟨inI128_of_nonneg hvalue hfit, rfl⟩, Ray.toAssetCeil_of_le hd hvalue⟩

/-- Shares for an amount whose value the position covers. -/
theorem calculateScaledSupplyCeil_of_covered (hd : d ≤ rayDecimals) (hindex : 0 < index)
    (hamount : 0 ≤ amount) (hmax : pos ≤ i128Max) (hvalue : pos * index / ray ≤ i128Max)
    (hcovered : amount * assetUnit d * ray ≤ pos * index) :
    ∃ shares, calculateScaledSupplyCeil amount d index = .ok shares ∧ 0 ≤ shares ∧
      shares ≤ pos ∧ amount * assetUnit d * ray ≤ shares * index := by
  have hray : 0 ≤ amount * assetUnit d := mul_nonneg hamount (assetUnit_pos d).le
  have hfit : InI128 (amount * assetUnit d) :=
    inI128_of_nonneg hray (((le_floor_iff ray_pos).mpr hcovered).trans hvalue)
  have hnonneg : 0 ≤ ceilDiv (amount * assetUnit d * ray) index :=
    ceilDiv_nonneg hindex (mul_nonneg hray ray_pos.le)
  have hle : ceilDiv (amount * assetUnit d * ray) index ≤ pos := (ceilDiv_le_iff hindex).mpr hcovered
  refine ⟨_, ?_, hnonneg, hle, le_ceilDiv_mul _ hindex⟩
  unfold calculateScaledSupplyCeil
  rw [Ray.fromAsset_of_fits hd hfit, Fallible.ok_bind, Ray.divCeil_ok_iff hindex]
  exact ⟨inI128_of_nonneg hnonneg (hle.trans hmax), rfl⟩

/-- Debt shares an amount pays for, when the debt exceeds it. -/
theorem calculateScaledBorrowFloor_of_short (hd : d ≤ rayDecimals) (hindex : 0 < index)
    (hamount : 0 ≤ amount) (hmax : pos ≤ i128Max) (hvalue : pos * index / ray ≤ i128Max)
    (hshort : amount * assetUnit d * ray ≤ pos * index) :
    ∃ shares, calculateScaledBorrowFloor amount d index = .ok shares ∧ 0 ≤ shares ∧
      shares * index ≤ amount * assetUnit d * ray := by
  have hray : 0 ≤ amount * assetUnit d := mul_nonneg hamount (assetUnit_pos d).le
  have hfit : InI128 (amount * assetUnit d) :=
    inI128_of_nonneg hray (((le_floor_iff ray_pos).mpr hshort).trans hvalue)
  have hnonneg : 0 ≤ amount * assetUnit d * ray / index :=
    floor_nonneg hindex (mul_nonneg hray ray_pos.le)
  have hle : amount * assetUnit d * ray / index ≤ pos := by
    refine (floor_mono hindex hshort).trans ?_
    rw [Int.mul_ediv_cancel _ hindex.ne']
  refine ⟨_, ?_, hnonneg, floor_mul_le _ hindex⟩
  unfold calculateScaledBorrowFloor
  rw [Ray.fromAsset_of_fits hd hfit, Fallible.ok_bind, Ray.divFloor_ok_iff hindex]
  exact ⟨inI128_of_nonneg hnonneg (hle.trans hmax), rfl⟩

end

/-! ## Boundaries -/

/-- Less than the half-up value in tokens is at most the exact value. -/
theorem partial_withdrawal_fits {x : Int}
    (h : amount < halfUpDiv (halfUpDiv x ray) (assetUnit d)) :
    amount * assetUnit d * ray ≤ x := by
  have hu := assetUnit_pos d
  have htokens := halfUpDiv_mul_le (halfUpDiv x ray) hu
  have hrays := halfUpDiv_mul_le x ray_pos
  have hstep : (amount + 1) * assetUnit d ≤ halfUpDiv (halfUpDiv x ray) (assetUnit d) *
      assetUnit d := mul_le_mul_of_nonneg_right h hu.le
  -- One token less costs a whole unit; the two roundings add less than that.
  have hunit : 2 * (amount * assetUnit d) + 1 ≤ 2 * halfUpDiv x ray := by linarith
  have hhalf : (2 * (amount * assetUnit d) + 1) * ray ≤ 2 * halfUpDiv x ray * ray :=
    mul_le_mul_of_nonneg_right hunit ray_pos.le
  linarith

/-- Less than the ceiled debt in tokens is less than the exact debt. -/
theorem partial_repay_short {x : Int}
    (h : amount < ceilDiv (ceilDiv x ray) (assetUnit d)) :
    amount * assetUnit d * ray < x := by
  have hray := (lt_ceilDiv_iff (assetUnit_pos d)).mp h
  exact (lt_ceilDiv_iff ray_pos).mp hray

/-! ## Requests -/

section
variable {pos index supplyPos debtPos supplyIndex borrowIndex burned paid : Int}

/-- What a withdrawal burns and pays. -/
structure WithdrawalSettles (pos index : Int) (d : Nat) (burned paid : Int) : Prop where
  burned_nonneg : 0 ≤ burned
  burned_le : burned ≤ pos
  paid_le : paid ≤ pos * index / ray / assetUnit d
  backed : paid * assetUnit d * ray ≤ burned * index

theorem resolveWithdrawal_settles (hd : d ≤ rayDecimals) (hindex : 0 < index)
    (hamount : 0 ≤ amount) (hpos : 0 ≤ pos) (hmax : pos ≤ i128Max)
    (hfit : valueOf pos index ≤ i128Max) :
    ∃ burned paid, resolveWithdrawal amount pos index d = .ok (burned, paid) ∧
      WithdrawalSettles pos index d burned paid := by
  have hfloor : pos * index / ray ≤ i128Max := (floor_le_halfUpDiv ray_pos).trans hfit
  unfold resolveWithdrawal
  rw [(unscaleSupply_iff hd hpos hindex.le).mpr ⟨hfit, rfl⟩, Fallible.ok_bind,
    (unscaleSupplyFloor_iff hd hpos hindex.le).mpr ⟨hfloor, rfl⟩, Fallible.ok_bind]
  by_cases hfull : amount ≥ halfUpDiv (valueOf pos index) (assetUnit d)
  · rw [if_pos hfull]
    exact ⟨_, _, rfl, hpos, le_refl _, le_refl _, floor_floor_le (assetUnit_pos d)⟩
  · rw [if_neg hfull]
    have hcovered := partial_withdrawal_fits (not_le.mp hfull)
    obtain ⟨shares, hshares, hnonneg, hle, hbacked⟩ :=
      calculateScaledSupplyCeil_of_covered hd hindex hamount hmax hfloor hcovered
    rw [hshares]
    refine ⟨_, _, rfl, hnonneg, hle, ?_, hbacked⟩
    rw [le_floor_iff (assetUnit_pos d), le_floor_iff ray_pos]
    exact hcovered

/-- What a repayment burns and refunds: the position closes exactly when the payment covers the
ceiled debt, and only the excess is refunded. -/
structure RepaymentSettles (amount pos index : Int) (d : Nat) (burned refund : Int) : Prop where
  burned_nonneg : 0 ≤ burned
  burned_le : burned ≤ pos
  backed : burned * index ≤ (amount - refund) * assetUnit d * ray
  open_of_short : amount < ceilDiv (ceilDiv (pos * index) ray) (assetUnit d) →
    burned < pos ∧ refund = 0
  closes : ceilDiv (ceilDiv (pos * index) ray) (assetUnit d) ≤ amount →
    burned = pos ∧ refund = amount - ceilDiv (ceilDiv (pos * index) ray) (assetUnit d)

theorem resolveRepay_settles (hd : d ≤ rayDecimals) (hindex : 0 < index) (hamount : 0 ≤ amount)
    (hamountMax : amount ≤ i128Max) (hpos : 0 ≤ pos) (hmax : pos ≤ i128Max)
    (hfit : ceilDiv (pos * index) ray ≤ i128Max) :
    ∃ burned refund, resolveRepay amount pos index d = .ok (burned, refund) ∧
      RepaymentSettles amount pos index d burned refund := by
  have hfloor : pos * index / ray ≤ i128Max := (floor_le_ceilDiv ray_pos).trans hfit
  set debt := ceilDiv (ceilDiv (pos * index) ray) (assetUnit d) with hdebt
  have hdebt0 : 0 ≤ debt :=
    ceilDiv_nonneg (assetUnit_pos d) (ceilDiv_nonneg ray_pos (mul_nonneg hpos hindex.le))
  unfold resolveRepay
  rw [(unscaleBorrowCeil_iff hd hpos hindex.le).mpr ⟨hfit, rfl⟩, Fallible.ok_bind]
  by_cases hfull : amount ≥ debt
  · rw [if_pos hfull, I128.checkedSub_some.mpr
      ⟨inI128_of_nonneg (sub_nonneg.mpr hfull) (by omega), rfl⟩]
    refine ⟨_, _, rfl, hpos, le_refl _, ?_, fun h => absurd h (not_lt.mpr hfull),
      fun _ => ⟨rfl, rfl⟩⟩
    rw [sub_sub_cancel]
    exact le_ceil_ceil (assetUnit_pos d)
  · rw [if_neg hfull]
    have hshort := partial_repay_short (not_le.mp hfull)
    obtain ⟨shares, hshares, hnonneg, hbacked⟩ :=
      calculateScaledBorrowFloor_of_short hd hindex hamount hmax hfloor hshort.le
    have hlt : shares < pos := by
      refine lt_of_mul_lt_mul_right ?_ hindex.le
      exact hbacked.trans_lt hshort
    rw [hshares]
    refine ⟨_, _, rfl, hnonneg, hlt.le, ?_, fun _ => ⟨hlt, rfl⟩, fun h => absurd h hfull⟩
    rw [sub_zero]
    exact hbacked

/-- What a net settlement burns on either side. -/
structure NetSettles (supplyPos debtPos supplyIndex borrowIndex : Int) (d : Nat)
    (burnedSupply burnedDebt settled : Int) : Prop where
  supply_nonneg : 0 ≤ burnedSupply
  supply_le : burnedSupply ≤ supplyPos
  debt_nonneg : 0 ≤ burnedDebt
  debt_le : burnedDebt ≤ debtPos
  supply_backs : settled * assetUnit d * ray ≤ burnedSupply * supplyIndex
  debt_backed : burnedDebt * borrowIndex ≤ settled * assetUnit d * ray

theorem resolveNetSettle_settles (hd : d ≤ rayDecimals) (hsupplyIndex : 0 < supplyIndex)
    (hborrowIndex : 0 < borrowIndex) (hsupply : 0 ≤ supplyPos) (hsupplyMax : supplyPos ≤ i128Max)
    (hdebt : 0 ≤ debtPos) (hdebtMax : debtPos ≤ i128Max)
    (hsupplyFit : supplyPos * supplyIndex / ray ≤ i128Max)
    (hdebtFit : ceilDiv (debtPos * borrowIndex) ray ≤ i128Max) :
    ∃ burnedSupply burnedDebt settled,
      resolveNetSettle amount supplyPos debtPos supplyIndex borrowIndex d =
        .ok (burnedSupply, burnedDebt, settled) ∧
      NetSettles supplyPos debtPos supplyIndex borrowIndex d burnedSupply burnedDebt settled := by
  have hu := assetUnit_pos d
  set supplyFloor := supplyPos * supplyIndex / ray / assetUnit d with hsupplyFloor
  set debtCeil := ceilDiv (ceilDiv (debtPos * borrowIndex) ray) (assetUnit d) with hdebtCeil
  unfold resolveNetSettle
  rw [(unscaleSupplyFloor_iff hd hsupply hsupplyIndex.le).mpr ⟨hsupplyFit, rfl⟩,
    Fallible.ok_bind, (unscaleBorrowCeil_iff hd hdebt hborrowIndex.le).mpr ⟨hdebtFit, rfl⟩,
    Fallible.ok_bind, ← hsupplyFloor, ← hdebtCeil]
  dsimp only
  set settled := min (min amount supplyFloor) debtCeil with hsettled
  by_cases hnone : settled ≤ 0
  · rw [if_pos hnone]
    exact ⟨_, _, _, rfl, le_refl _, hsupply, le_refl _, hdebt, by simp [Ray.zero],
      by simp [Ray.zero]⟩
  rw [if_neg hnone]
  have hcovered : settled * assetUnit d * ray ≤ supplyPos * supplyIndex := by
    have hle : settled ≤ supplyFloor := by omega
    rwa [hsupplyFloor, le_floor_iff hu, le_floor_iff ray_pos] at hle
  obtain ⟨bs, hbs, hbs0, hbsle, hbacks⟩ : ∃ bs,
      (if settled = supplyFloor then pure supplyPos
        else do pure (min (← calculateScaledSupplyCeil settled d supplyIndex) supplyPos) :
          Result Int) = .ok bs ∧ 0 ≤ bs ∧ bs ≤ supplyPos ∧
        settled * assetUnit d * ray ≤ bs * supplyIndex := by
    by_cases hall : settled = supplyFloor
    · rw [if_pos hall]
      exact ⟨_, rfl, hsupply, le_refl _, hcovered⟩
    · obtain ⟨shares, hshares, hnonneg, hle, hback⟩ := calculateScaledSupplyCeil_of_covered hd
        hsupplyIndex (not_le.mp hnone).le hsupplyMax hsupplyFit hcovered
      rw [if_neg hall, hshares, Fallible.ok_bind, min_eq_left hle]
      exact ⟨_, rfl, hnonneg, hle, hback⟩
  obtain ⟨bd, hbd, hbd0, hbdle, hbacked⟩ : ∃ bd,
      (if settled = debtCeil then pure debtPos
        else do pure (min (← calculateScaledBorrowFloor settled d borrowIndex) debtPos) :
          Result Int) = .ok bd ∧ 0 ≤ bd ∧ bd ≤ debtPos ∧
        bd * borrowIndex ≤ settled * assetUnit d * ray := by
    by_cases hall : settled = debtCeil
    · rw [if_pos hall, hall]
      exact ⟨_, rfl, hdebt, le_refl _, le_ceil_ceil hu⟩
    · have hlt : settled < debtCeil := by omega
      have hshort := partial_repay_short hlt
      obtain ⟨shares, hshares, hnonneg, hback⟩ := calculateScaledBorrowFloor_of_short hd
        hborrowIndex (not_le.mp hnone).le hdebtMax
        ((floor_le_ceilDiv ray_pos).trans hdebtFit) hshort.le
      have hle : shares ≤ debtPos :=
        (lt_of_mul_lt_mul_right (hback.trans_lt hshort) hborrowIndex.le).le
      rw [if_neg hall, hshares, Fallible.ok_bind, min_eq_left hle]
      exact ⟨_, rfl, hnonneg, hle, hback⟩
  rw [hbs, Fallible.ok_bind, hbd, Fallible.ok_bind]
  exact ⟨_, _, _, rfl, hbs0, hbsle, hbd0, hbdle, hbacks, hbacked⟩

/-- **Settlement rounds for the pool.** At indexes in their bounds, each of the three functions
returns exactly when the value of the position fits, and then it burns no more than there is, pays
no more than the floored value, and what it burns covers what it pays. -/
theorem settlement_favours_pool (hd : d ≤ rayDecimals)
    (hsupplyIndex : supplyIndexFloorRaw ≤ supplyIndex) (hborrowIndex : ray ≤ borrowIndex) :
    (∀ amount pos, 0 ≤ amount → 0 ≤ pos → pos ≤ i128Max →
      ((∃ r, resolveWithdrawal amount pos supplyIndex d = .ok r) ↔
        valueOf pos supplyIndex ≤ i128Max) ∧
      ∀ burned paid, resolveWithdrawal amount pos supplyIndex d = .ok (burned, paid) →
        WithdrawalSettles pos supplyIndex d burned paid) ∧
    (∀ amount pos, 0 ≤ amount → amount ≤ i128Max → 0 ≤ pos → pos ≤ i128Max →
      ((∃ r, resolveRepay amount pos borrowIndex d = .ok r) ↔
        ceilDiv (pos * borrowIndex) ray ≤ i128Max) ∧
      ∀ burned refund, resolveRepay amount pos borrowIndex d = .ok (burned, refund) →
        RepaymentSettles amount pos borrowIndex d burned refund) ∧
    ∀ amount supplyPos debtPos, 0 ≤ supplyPos → supplyPos ≤ i128Max → 0 ≤ debtPos →
      debtPos ≤ i128Max →
      ((∃ r, resolveNetSettle amount supplyPos debtPos supplyIndex borrowIndex d = .ok r) ↔
        supplyPos * supplyIndex / ray ≤ i128Max ∧ ceilDiv (debtPos * borrowIndex) ray ≤ i128Max) ∧
      ∀ burnedSupply burnedDebt settled,
        resolveNetSettle amount supplyPos debtPos supplyIndex borrowIndex d =
          .ok (burnedSupply, burnedDebt, settled) →
        NetSettles supplyPos debtPos supplyIndex borrowIndex d burnedSupply burnedDebt settled := by
  have hsi : 0 < supplyIndex := supplyIndexFloorRaw_pos.trans_le hsupplyIndex
  have hbi : 0 < borrowIndex := ray_pos.trans_le hborrowIndex
  refine ⟨fun amount pos hamount hpos hmax => ?_, fun amount pos hamount hamax hpos hmax => ?_,
    fun amount supplyPos debtPos hsp hspmax hdp hdpmax => ?_⟩
  · have hfits : ∀ r, resolveWithdrawal amount pos supplyIndex d = .ok r →
        valueOf pos supplyIndex ≤ i128Max := by
      intro r h
      obtain ⟨actual, hactual, -⟩ := Fallible.bind_ok h
      exact ((unscaleSupply_iff hd hpos hsi.le).mp hactual).1
    refine ⟨⟨fun ⟨r, h⟩ => hfits r h, fun hfit => ?_⟩, fun burned paid h => ?_⟩
    · obtain ⟨burned, paid, h, -⟩ := resolveWithdrawal_settles hd hsi hamount hpos hmax hfit
      exact ⟨_, h⟩
    · obtain ⟨b, p, h', hsettles⟩ :=
        resolveWithdrawal_settles hd hsi hamount hpos hmax (hfits _ h)
      rw [h, Except.ok.injEq, Prod.mk.injEq] at h'
      exact h'.1 ▸ h'.2 ▸ hsettles
  · have hfits : ∀ r, resolveRepay amount pos borrowIndex d = .ok r →
        ceilDiv (pos * borrowIndex) ray ≤ i128Max := by
      intro r h
      obtain ⟨debtCeil, hdebt, -⟩ := Fallible.bind_ok h
      exact ((unscaleBorrowCeil_iff hd hpos hbi.le).mp hdebt).1
    refine ⟨⟨fun ⟨r, h⟩ => hfits r h, fun hfit => ?_⟩, fun burned refund h => ?_⟩
    · obtain ⟨burned, refund, h, -⟩ := resolveRepay_settles hd hbi hamount hamax hpos hmax hfit
      exact ⟨_, h⟩
    · obtain ⟨b, p, h', hsettles⟩ :=
        resolveRepay_settles hd hbi hamount hamax hpos hmax (hfits _ h)
      rw [h, Except.ok.injEq, Prod.mk.injEq] at h'
      exact h'.1 ▸ h'.2 ▸ hsettles
  · have hfits : ∀ r, resolveNetSettle amount supplyPos debtPos supplyIndex borrowIndex d = .ok r →
        supplyPos * supplyIndex / ray ≤ i128Max ∧
          ceilDiv (debtPos * borrowIndex) ray ≤ i128Max := by
      intro r h
      obtain ⟨supplyFloor, hfloor, h⟩ := Fallible.bind_ok h
      obtain ⟨debtCeil, hceil, -⟩ := Fallible.bind_ok h
      exact ⟨((unscaleSupplyFloor_iff hd hsp hsi.le).mp hfloor).1,
        ((unscaleBorrowCeil_iff hd hdp hbi.le).mp hceil).1⟩
    refine ⟨⟨fun ⟨r, h⟩ => hfits r h, fun hfit => ?_⟩, fun burnedSupply burnedDebt settled h => ?_⟩
    · obtain ⟨_, _, _, h, -⟩ := @resolveNetSettle_settles amount d supplyPos debtPos supplyIndex
        borrowIndex hd hsi hbi hsp hspmax hdp hdpmax hfit.1 hfit.2
      exact ⟨_, h⟩
    · obtain ⟨bs, bd, st, h', hsettles⟩ := @resolveNetSettle_settles amount d supplyPos debtPos
        supplyIndex borrowIndex hd hsi hbi hsp hspmax hdp hdpmax (hfits _ h).1 (hfits _ h).2
      rw [h, Except.ok.injEq, Prod.mk.injEq, Prod.mk.injEq] at h'
      exact h'.1 ▸ h'.2.1 ▸ h'.2.2 ▸ hsettles

/-- A withdrawal, a repayment and a settlement of a position of three tokens. -/
theorem settlement_favours_pool_sample :
    WithdrawalSettles (3 * assetUnit 7) (ray + 7) 7 200000000000000000000 2 ∧
      RepaymentSettles 5 (3 * assetUnit 7) (2 * ray + 1) 7 249999999999999999999 0 ∧
      NetSettles (3 * assetUnit 7) (5 * assetUnit 7) (ray + 7) (2 * ray + 1) 7
        200000000000000000000 99999999999999999999 2 := by
  obtain ⟨hwithdraw, hrepay, hsettle⟩ :=
    @settlement_favours_pool 7 (ray + 7) (2 * ray + 1) (by decide) (by decide) (by decide)
  refine ⟨(hwithdraw 2 (3 * assetUnit 7) ?_ ?_ ?_).2 _ _ ?_,
    (hrepay 5 (3 * assetUnit 7) ?_ ?_ ?_ ?_).2 _ _ ?_,
    (hsettle 2 (3 * assetUnit 7) (5 * assetUnit 7) ?_ ?_ ?_ ?_).2 _ _ _ ?_⟩
  all_goals decide

end

end Lending
