import LendingXlm.Controller.Books
import LendingXlm.Controller.Valuation

/-!
# The health factor at given marks

What the health factor of an account comes to when nothing overflows, how one position moves it,
and what a refresh of stamped parameters may do to it.

* `Marks.totals_healthFactor`: it is the one that the totals carry;
* `Marks.Leg`: a position is written, and a worse tuple only above the floor;
* `Marks.Legs.healthy`: no chain of such legs makes a healthy account liquidatable.
-/

namespace Lending

open FpCore Rounding

/-- The parameters of a liquidation in `p'` favour the liquidator over those in `p`. -/
def AccountPosition.Worsens (p p' : AccountPosition) : Prop :=
  p'.liquidationThreshold < p.liquidationThreshold ∨
    p.liquidationBonus < p'.liquidationBonus ∨ p'.liquidationFees < p.liquidationFees

namespace Marks

variable (v : Marks)

/-- What shares of a market are worth as collateral, in wad. -/
def worth (market : HubAssetKey) (shares : Int) : Int :=
  shares * (v.index market).supplyIndex / ray / rayPerWad * v.price market.asset / wad

/-- What a position counts for in the health factor. -/
def weight (market : HubAssetKey) (p : AccountPosition) : Int :=
  v.worth market p.scaledAmount * ((p.liquidationThreshold : Int) * wadPerBps) / wad

/-- What a debt position owes, in wad. -/
def owing (market : HubAssetKey) (p : DebtPosition) : Int :=
  ceilDiv (ceilDiv (ceilDiv (p.scaledAmount * (v.index market).borrowIndex) ray) rayPerWad *
    v.price market.asset) wad

def weighted (supply : SortedMap HubAssetKey AccountPosition) : Int := supply.sumBy v.weight

def owed (debt : SortedMap HubAssetKey DebtPosition) : Int := debt.sumBy v.owing

def healthFactor (supply : SortedMap HubAssetKey AccountPosition)
    (debt : SortedMap HubAssetKey DebtPosition) : Int :=
  if v.owed debt = 0 then i128Max else min (v.weighted supply * wad / v.owed debt) i128Max

/-- No mark is negative. -/
structure Lawful : Prop where
  price : ∀ asset, 0 ≤ v.price asset
  supplyIndex : ∀ market, 0 ≤ (v.index market).supplyIndex
  borrowIndex : ∀ market, 0 ≤ (v.index market).borrowIndex

/-- The shares of all debt positions are there. -/
def Owes (debt : SortedMap HubAssetKey DebtPosition) : Prop :=
  ∀ market p, debt.get? market = some p → 0 ≤ p.scaledAmount

variable {v} {supply : SortedMap HubAssetKey AccountPosition}
  {debt : SortedMap HubAssetKey DebtPosition} {market : HubAssetKey}

/-! ## Totals -/

theorem worth_nonneg (hv : v.Lawful) {shares : Int} (hs : 0 ≤ shares) :
    0 ≤ v.worth market shares := by
  have h0 := floor_nonneg ray_pos (mul_nonneg hs (hv.supplyIndex market))
  have h1 := floor_nonneg rayPerWad_pos h0
  exact floor_nonneg wad_pos (mul_nonneg h1 (hv.price market.asset))

theorem worth_mono (hv : v.Lawful) {shares shares' : Int} (hle : shares ≤ shares') :
    v.worth market shares ≤ v.worth market shares' := by
  have h0 := mul_le_mul_of_nonneg_right hle (hv.supplyIndex market)
  have h1 := Int.ediv_le_ediv rayPerWad_pos (Int.ediv_le_ediv ray_pos h0)
  exact Int.ediv_le_ediv wad_pos (mul_le_mul_of_nonneg_right h1 (hv.price market.asset))

theorem threshold_nonneg (lt : Nat) : 0 ≤ (lt : Int) * wadPerBps :=
  mul_nonneg (Int.natCast_nonneg _) (by decide)

theorem weight_nonneg (hv : v.Lawful) {p : AccountPosition} (hp : 0 ≤ p.scaledAmount) :
    0 ≤ v.weight market p :=
  floor_nonneg wad_pos (mul_nonneg (worth_nonneg hv hp) (threshold_nonneg _))

/-- More shares at a threshold that is no lower count for no less. -/
theorem weight_mono (hv : v.Lawful) {p p' : AccountPosition} (hp : 0 ≤ p'.scaledAmount)
    (hshares : p.scaledAmount ≤ p'.scaledAmount)
    (hlt : p.liquidationThreshold ≤ p'.liquidationThreshold) :
    v.weight market p ≤ v.weight market p' := by
  have hlt' : (p.liquidationThreshold : Int) * wadPerBps ≤ p'.liquidationThreshold * wadPerBps :=
    mul_le_mul_of_nonneg_right (by exact_mod_cast hlt) (by decide)
  refine Int.ediv_le_ediv wad_pos ?_
  calc v.worth market p.scaledAmount * ((p.liquidationThreshold : Int) * wadPerBps)
      ≤ v.worth market p'.scaledAmount * ((p.liquidationThreshold : Int) * wadPerBps) :=
        mul_le_mul_of_nonneg_right (worth_mono hv hshares) (threshold_nonneg _)
    _ ≤ v.worth market p'.scaledAmount * ((p'.liquidationThreshold : Int) * wadPerBps) :=
        mul_le_mul_of_nonneg_left hlt' (worth_nonneg hv hp)

theorem weight_zero {p : AccountPosition} (hp : p.scaledAmount = 0) : v.weight market p = 0 := by
  simp [weight, worth, hp]

theorem owing_nonneg (hv : v.Lawful) {p : DebtPosition} (hp : 0 ≤ p.scaledAmount) :
    0 ≤ v.owing market p := by
  have h0 := ceilDiv_nonneg ray_pos (mul_nonneg hp (hv.borrowIndex market))
  have h1 := ceilDiv_nonneg rayPerWad_pos h0
  exact ceilDiv_nonneg wad_pos (mul_nonneg h1 (hv.price market.asset))

theorem owed_nonneg (hv : v.Lawful) (hd : Owes debt) : 0 ≤ v.owed debt :=
  SortedMap.sumBy_nonneg fun _ _ hget => owing_nonneg hv (hd _ _ hget)

theorem addCollateral_weight {sums sums' : Int × Int × Int} {e : HubAssetKey × AccountPosition}
    (h : v.addCollateral sums e = .ok sums') :
    sums'.2.2 = sums.2.2 + v.weight e.1 e.2 ∧ 0 ≤ e.2.scaledAmount := by
  obtain ⟨market, position⟩ := e
  unfold addCollateral at h
  obtain ⟨value, hvalue, h⟩ := Fallible.bind_ok h
  obtain ⟨gate, hgate, h⟩ := Fallible.bind_ok h
  simp only [Fallible.bind_ok_iff, Wad.checkedAdd, checkedAddRaw_ok_iff, Fallible.pure_ok_iff] at h
  obtain ⟨_, -, l, -, _, -, w, hw, _, ⟨-, rfl⟩, rfl⟩ := h
  unfold positionValue at hvalue
  obtain ⟨actual, hactual, -⟩ := Fallible.bind_ok hvalue
  obtain ⟨hs, hi, -⟩ := Ray.mul_ok_iff.mp hactual
  obtain rfl := positionValueFloor_eq hs hi hgate
  obtain rfl := applyToWadFloor_eq hw
  exact ⟨rfl, hs⟩

theorem sumCollateral_weight {l : List (HubAssetKey × AccountPosition)}
    {sums sums' : Int × Int × Int} (h : l.foldlM v.addCollateral sums = .ok sums') :
    sums'.2.2 = sums.2.2 + (l.map fun e => v.weight e.1 e.2).sum ∧
      ∀ e ∈ l, 0 ≤ e.2.scaledAmount := by
  induction l generalizing sums with
  | nil =>
    obtain rfl := Except.ok.inj h
    simp
  | cons e l ih =>
    rw [List.foldlM_cons] at h
    obtain ⟨sums1, h1, hrest⟩ := Fallible.bind_ok h
    obtain ⟨hw, hs⟩ := addCollateral_weight h1
    obtain ⟨hw', hs'⟩ := ih hrest
    rw [hw', hw, List.map_cons, List.sum_cons, add_assoc]
    exact ⟨rfl, List.forall_mem_cons.mpr ⟨hs, hs'⟩⟩

theorem sumDebt_owing {l : List (HubAssetKey × DebtPosition)} {total total' : Int}
    (hv : v.Lawful) (hl : ∀ e ∈ l, 0 ≤ e.2.scaledAmount)
    (h : l.foldlM v.addDebt total = .ok total') :
    total' = total + (l.map fun e => v.owing e.1 e.2).sum := by
  induction l generalizing total with
  | nil =>
    obtain rfl := Except.ok.inj h
    simp
  | cons e l ih =>
    rw [List.foldlM_cons] at h
    obtain ⟨total1, h1, hrest⟩ := Fallible.bind_ok h
    obtain ⟨value, hvalue, h1⟩ := Fallible.bind_ok h1
    obtain ⟨-, rfl⟩ := checkedAddRaw_ok_iff.mp h1
    obtain rfl := positionValueCeil_eq (hl e List.mem_cons_self) (hv.borrowIndex _) hvalue
    rw [ih (fun e he => hl e (List.mem_cons_of_mem _ he)) hrest, List.map_cons, List.sum_cons,
      add_assoc]
    rfl

/-- **The health factor of the totals.** -/
theorem totals_healthFactor (hv : v.Lawful) (hd : Owes debt) {totals : Risk.AccountRiskTotals}
    (h : v.totals supply debt = .ok totals) :
    totals.healthFactor = v.healthFactor supply debt := by
  unfold Marks.totals at h
  obtain ⟨sums, hsums, h⟩ := Fallible.bind_ok h
  obtain ⟨total, htotal, h⟩ := Fallible.bind_ok h
  obtain ⟨hf, hhf, h⟩ := Fallible.bind_ok h
  obtain rfl := Except.ok.inj h
  obtain ⟨hw, hs⟩ := sumCollateral_weight hsums
  have hweighted : sums.2.2 = v.weighted supply := hw.trans (zero_add _)
  have howed : total = v.owed debt :=
    (sumDebt_owing hv (fun e he => hd e.1 e.2 (SortedMap.mem_entries.mp he)) htotal).trans
      (zero_add _)
  have hw0 : 0 ≤ v.weighted supply := SortedMap.sumBy_nonneg fun market p hget =>
    weight_nonneg hv (hs (market, p) (SortedMap.mem_entries.mpr hget))
  have hd0 := owed_nonneg hv hd
  dsimp only at hhf ⊢
  rw [hweighted, howed] at hhf
  unfold healthFactor
  split at hhf
  · rename_i hz
    have hz' : v.owed debt = 0 := hz
    rw [if_pos hz']
    exact (Except.ok.inj hhf).symm
  · rename_i hz
    have hz' : v.owed debt ≠ 0 := hz
    unfold Wad.divFloorSaturating at hhf
    rw [mulDivFloorSaturating_eq (lt_of_le_of_ne hd0 hz'.symm) hw0 wad_pos.le] at hhf
    rw [if_neg hz']
    exact (Except.ok.inj hhf).symm

theorem healthFactor_free (hfree : debt.isEmpty = true) :
    v.healthFactor supply debt = i128Max := by
  rw [SortedMap.isEmpty_iff.mp hfree]
  rfl

theorem healthFactor_mono (hv : v.Lawful) (hd : Owes debt)
    {supply' : SortedMap HubAssetKey AccountPosition}
    (hle : v.weighted supply ≤ v.weighted supply') :
    v.healthFactor supply debt ≤ v.healthFactor supply' debt := by
  have hd0 := owed_nonneg hv hd
  unfold healthFactor
  split
  · exact le_rfl
  · rename_i hz
    have hpos : 0 < v.owed debt := lt_of_le_of_ne hd0 (Ne.symm hz)
    have hmul := mul_le_mul_of_nonneg_right hle wad_pos.le
    exact min_le_min_right _ (Int.ediv_le_ediv hpos hmul)

/-! ## Legs -/

theorem weighted_set {p : AccountPosition} :
    v.weighted (supply.set market p) =
      v.weighted supply - supply.weight v.weight market + v.weight market p :=
  SortedMap.sumBy_set v.weight supply market p

/-- A write moves the weighted collateral by what the position counts for. -/
theorem weighted_updateOrRemove {p : AccountPosition} :
    v.weighted (updateOrRemove AccountPosition.scaledAmount supply market p) =
      v.weighted supply - supply.weight v.weight market + v.weight market p := by
  unfold weighted updateOrRemove
  split
  · exact weighted_set
  · rename_i hzero
    rw [SortedMap.sumBy_erase, weight_zero (not_not.mp hzero), add_zero]

/-- What is removed for being empty counts for nothing. -/
theorem healthFactor_updateOrRemove {p : AccountPosition} :
    v.healthFactor (updateOrRemove AccountPosition.scaledAmount supply market p) debt =
      v.healthFactor (supply.set market p) debt := by
  unfold healthFactor
  rw [weighted_updateOrRemove, weighted_set]

/-- Shares and threshold are all that counts. -/
theorem healthFactor_set_congr {p q : AccountPosition} (hs : p.scaledAmount = q.scaledAmount)
    (hlt : p.liquidationThreshold = q.liquidationThreshold) :
    v.healthFactor (supply.set market p) debt = v.healthFactor (supply.set market q) debt := by
  unfold healthFactor
  rw [weighted_set, weighted_set, weight, weight, hs, hlt]

/-- One leg of a flow writes one position, whose shares move as `moves` says. It may write a worse
tuple only if the account then stands at the floor. -/
inductive Leg (v : Marks) (moves : Int → Int → Prop) (debt : SortedMap HubAssetKey DebtPosition)
    (supply : SortedMap HubAssetKey AccountPosition) :
    SortedMap HubAssetKey AccountPosition → Prop
  | write {market : HubAssetKey} {p : AccountPosition} (hnonneg : 0 ≤ p.scaledAmount)
      (hmoves : moves (scaledOf AccountPosition.scaledAmount supply market) p.scaledAmount)
      (hfloor : ∀ q, supply.get? market = some q → q.Worsens p →
        thresholdUpdateMinHfRaw ≤ v.healthFactor
          (updateOrRemove AccountPosition.scaledAmount supply market p) debt) :
      Leg v moves debt supply (updateOrRemove AccountPosition.scaledAmount supply market p)

/-- Legs one after another. -/
abbrev Legs (v : Marks) (moves : Int → Int → Prop) (debt : SortedMap HubAssetKey DebtPosition) :
    SortedMap HubAssetKey AccountPosition → SortedMap HubAssetKey AccountPosition → Prop :=
  Relation.ReflTransGen (Leg v moves debt)

variable {moves moves' : Int → Int → Prop} {supply' : SortedMap HubAssetKey AccountPosition}

theorem Leg.mono (hle : ∀ x y, moves x y → moves' x y) (hleg : Leg v moves debt supply supply') :
    Leg v moves' debt supply supply' := by
  cases hleg with
  | write hnonneg hmoves hfloor => exact .write hnonneg (hle _ _ hmoves) hfloor

theorem Legs.mono (hle : ∀ x y, moves x y → moves' x y)
    (hlegs : Legs v moves debt supply supply') : Legs v moves' debt supply supply' :=
  Relation.ReflTransGen.mono (fun _ _ => Leg.mono hle) _ _ hlegs

/-- Legs leave no shares below zero. -/
theorem Legs.nonneg (hlegs : Legs v moves debt supply supply')
    (hs : ∀ k p, supply.get? k = some p → 0 ≤ p.scaledAmount) :
    ∀ k p, supply'.get? k = some p → 0 ≤ p.scaledAmount := by
  induction hlegs with
  | refl => exact hs
  | tail _ hleg ih =>
    cases hleg with
    | write hnonneg _ _ =>
      intro k p hget
      rcases get?_updateOrRemove hget with hold | ⟨-, rfl, -⟩
      · exact ih k p hold
      · exact hnonneg

/-- **A leg.** One that takes no shares leaves a healthy account healthy: a tuple that is no worse
does not lower the health factor, and a worse one needs the floor. -/
theorem Leg.healthy (hv : v.Lawful) (hd : Owes debt) (hle : ∀ x y, moves x y → x ≤ y)
    (hleg : Leg v moves debt supply supply') (hs : wad ≤ v.healthFactor supply debt) :
    wad ≤ v.healthFactor supply' debt := by
  cases hleg with
  | @write market p hnonneg hmoves hfloor =>
    have hfloor_wad : wad ≤ thresholdUpdateMinHfRaw := by decide
    have hshares := hle _ _ hmoves
    cases hget : supply.get? market with
    | none =>
      refine hs.trans (healthFactor_mono hv hd ?_)
      have hzero : supply.weight v.weight market = 0 := by
        rw [SortedMap.weight, hget, Option.elim_none]
      rw [weighted_updateOrRemove, hzero, sub_zero]
      exact le_add_of_nonneg_right (weight_nonneg hv hnonneg)
    | some q =>
      by_cases hworse : q.Worsens p
      · exact hfloor_wad.trans (hfloor q hget hworse)
      · refine hs.trans (healthFactor_mono hv hd ?_)
        have hweight : supply.weight v.weight market = v.weight market q := by
          rw [SortedMap.weight, hget, Option.elim_some]
        rw [scaledOf, hget, Option.elim_some] at hshares
        have hlt : q.liquidationThreshold ≤ p.liquidationThreshold :=
          not_lt.mp fun hlt => hworse (.inl hlt)
        rw [weighted_updateOrRemove, hweight, sub_add_eq_add_sub, le_sub_iff_add_le]
        exact add_le_add_right (weight_mono hv hnonneg hshares hlt) _

/-- **Legs.** -/
theorem Legs.healthy (hv : v.Lawful) (hd : Owes debt) (hle : ∀ x y, moves x y → x ≤ y)
    (hlegs : Legs v moves debt supply supply') (hs : wad ≤ v.healthFactor supply debt) :
    wad ≤ v.healthFactor supply' debt := by
  induction hlegs with
  | refl => exact hs
  | tail _ hleg ih => exact hleg.healthy hv hd hle ih

end Marks

end Lending
