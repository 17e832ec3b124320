import LendingXlm.Pool.Market
import Mathlib.Data.Rat.Cast.Order
import Mathlib.Tactic.FieldSimp

/-!
# Pool solvency

The potential of a market is its `gap`: supplier claims not covered by debt plus cash, as an
exact rational in ray units.

* `MarketOp.apply_cases` already says that an operation at the synced indexes does not widen it;
* `accrueChunk_gap`: an accrual chunk adds at most two units, one for the half-up debt values
  and one for the half-up supply values;
* `WroteDown.gap`: a write-down that stays above the index floor adds at most one unit;
* `MarketRun.gap_le`: so the gap is bounded by the number of chunks and write-downs, and
  `backingShortfall_eq_zero`: a gap below one token unit is no shortfall.
-/

namespace Lending

open FpCore Rounding Ops

/-! ## The gap -/

/-- `E = S * Is / RAY - B * Ib / RAY - cash * 10^(27 - d)`. -/
def PoolSyncData.gap (m : PoolSyncData) : ℚ :=
  m.state.supplied * m.state.supplyIndex / ray - m.state.borrowed * m.state.borrowIndex / ray -
    m.state.cash * 10 ^ (rayDecimals - m.params.assetDecimals)

/-- The gap in units of `1 / ray`. -/
def PoolSyncData.gapRaw (m : PoolSyncData) : Int :=
  m.state.supplied * m.state.supplyIndex - m.state.borrowed * m.state.borrowIndex -
    m.state.cash * assetUnit m.params.assetDecimals * ray

theorem PoolSyncData.gap_eq (m : PoolSyncData) : m.gap = (m.gapRaw : ℚ) / ray := by
  have hray : (ray : ℚ) ≠ 0 := by exact_mod_cast ray_pos.ne'
  unfold gap gapRaw assetUnit
  push_cast
  field_simp

theorem PoolSyncData.gap_le_iff {m : PoolSyncData} {k : Int} :
    m.gap ≤ k ↔ m.gapRaw ≤ k * ray := by
  have hray : (0 : ℚ) < ray := by exact_mod_cast ray_pos
  rw [gap_eq, div_le_iff₀ hray]
  exact_mod_cast Iff.rfl

theorem PoolSyncData.gap_le_gap_iff {m m' : PoolSyncData} :
    m'.gap ≤ m.gap ↔ m'.gapRaw ≤ m.gapRaw := by
  have hray : (0 : ℚ) < ray := by exact_mod_cast ray_pos
  rw [gap_eq, gap_eq, div_le_div_iff_of_pos_right hray]
  exact_mod_cast Iff.rfl

/-- A settled market has the gap of the cache it was committed from. -/
theorem SettledInto.gap_le {c : Cache} {m' : PoolSyncData} (h : SettledInto c m') :
    m'.gapRaw ≤ c.gapRaw := by
  obtain ⟨c', hset, hstate, -, -, hdec⟩ := h
  have heq : m'.gapRaw = c'.gapRaw := by
    unfold PoolSyncData.gapRaw Cache.gapRaw
    rw [hstate, hdec, ← hset.params]
    rfl
  exact heq ▸ hset.gap_le

/-! ## Accrual -/

theorem valueOf_bounds (shares index : Int) :
    2 * (valueOf shares index * ray) ≤ 2 * (shares * index) + ray ∧
      2 * (shares * index) ≤ 2 * (valueOf shares index * ray) + ray :=
  ⟨halfUpDiv_mul_le _ ray_pos, le_halfUpDiv_mul _ ray_pos⟩

/-- A chunk widens the gap by at most two ray units: each of the four half-up values is off by
at most one half. -/
theorem accrueChunk_gap {c c' : Cache} {deltaMs : Nat} (hc : c.Sound)
    (h : Interest.accrueChunk c deltaMs = .ok c') : c'.gapRaw ≤ c.gapRaw + 2 * ray := by
  obtain ⟨step, hstep, -, -, rfl⟩ := Interest.accrueChunk_ok h
  have hval := (Interest.accrueStep_of_sound hc hstep).revenueShares_value
  have hb := valueOf_bounds c.borrowed c.borrowIndex
  have hb' := valueOf_bounds c.borrowed step.borrowIndex
  have hs := valueOf_bounds c.supplied c.supplyIndex
  have hs' := valueOf_bounds c.supplied step.supplyIndex
  simp only [Cache.gapRaw]
  linarith [hb.1, hb.2, hb'.1, hb'.2, hs.1, hs.2, hs'.1, hs'.2]

theorem accrueChunks_gap {deltas : List Nat} {c c' : Cache} (hc : c.Sound)
    (h : deltas.foldlM Interest.accrueChunk c = .ok c') :
    c'.gapRaw ≤ c.gapRaw + 2 * ray * deltas.length := by
  induction deltas generalizing c with
  | nil =>
    rw [Fallible.foldlM_nil_ok h]
    simp
  | cons delta deltas ih =>
    obtain ⟨c1, hc1, h⟩ := Fallible.foldlM_cons_ok h
    have h1 := accrueChunk_gap hc hc1
    have h2 := ih (Interest.accrueChunk_sound hc hc1).1 h
    rw [List.length_cons]
    push_cast
    linarith

/-- A sync widens the gap by at most two ray units per chunk. -/
theorem globalSync_gap {c c' : Cache} (hc : c.Sound) (h : Interest.globalSync c = .ok c') :
    c'.gapRaw ≤ c.gapRaw + 2 * ray * (chunks c.elapsedMs).length := by
  rcases Interest.globalSync_ok h with ⟨hz, rfl⟩ | ⟨-, c1, hc1, rfl⟩
  · rw [hz]
    simp
  · have hgap := accrueChunks_gap hc hc1
    exact hgap

/-! ## Write-downs -/

/-- An unclamped write-down takes at least the bad debt, less one ray unit, from the supplied
value. -/
theorem writtenDownIndex_value {c : Cache} {badDebt index : Int} (hs : 0 ≤ c.supplied)
    (hidx : Interest.writtenDownIndex c badDebt = .ok (some index))
    (hclamp : supplyIndexFloorRaw ≤ index) :
    badDebt * ray - ray ≤ c.supplied * c.supplyIndex - c.supplied * index := by
  obtain ⟨-, hi, ⟨-, hn⟩ | ⟨hpos, hmin, heq⟩⟩ := Interest.writtenDownIndex_ok hidx
  · cases hn
  have hv := (valueOf_bounds c.supplied c.supplyIndex).1
  set v := valueOf c.supplied c.supplyIndex
  rcases le_or_gt v badDebt with hge | hlt
  · -- The whole supplied value is written off, so the index hit the floor.
    rw [min_eq_right hge, sub_self, zero_mul, Int.zero_ediv, mul_zero, Int.zero_ediv,
      Option.some.injEq] at heq
    have := supplyIndexFloorRaw_pos
    omega
  rw [min_eq_left hlt.le] at heq hmin
  set factor := (v - badDebt) * ray / v
  have hfac : factor * v ≤ (v - badDebt) * ray := floor_mul_le _ hpos
  have hfloor : index * ray ≤ c.supplyIndex * factor := by
    rw [Option.some.inj heq]
    exact floor_mul_le _ ray_pos
  have hsi : 0 ≤ c.supplied * c.supplyIndex := mul_nonneg hs hi
  -- `S * index * v ≤ S * Is * (v - badDebt)`.
  have hprod : c.supplied * index * v ≤ c.supplied * c.supplyIndex * (v - badDebt) := by
    have h1 : c.supplied * v * (index * ray) ≤ c.supplied * v * (c.supplyIndex * factor) :=
      mul_le_mul_of_nonneg_left hfloor (mul_nonneg hs hpos.le)
    have h2 : c.supplied * c.supplyIndex * (factor * v) ≤
        c.supplied * c.supplyIndex * ((v - badDebt) * ray) :=
      mul_le_mul_of_nonneg_left hfac hsi
    have h3 : ray * (c.supplied * index * v) ≤
        ray * (c.supplied * c.supplyIndex * (v - badDebt)) := by
      calc ray * (c.supplied * index * v) = c.supplied * v * (index * ray) := by ring
        _ ≤ c.supplied * v * (c.supplyIndex * factor) := h1
        _ = c.supplied * c.supplyIndex * (factor * v) := by ring
        _ ≤ c.supplied * c.supplyIndex * ((v - badDebt) * ray) := h2
        _ = ray * (c.supplied * c.supplyIndex * (v - badDebt)) := by ring
    exact le_of_mul_le_mul_left h3 ray_pos
  have hbad : (2 * (v * ray) - ray) * badDebt ≤ 2 * (c.supplied * c.supplyIndex) * badDebt :=
    mul_le_mul_of_nonneg_right (by linarith) hmin
  have hray : ray * badDebt ≤ ray * v := mul_le_mul_of_nonneg_left hlt.le ray_pos.le
  have hfinal : 2 * v * (badDebt * ray - ray) ≤
      2 * v * (c.supplied * c.supplyIndex - c.supplied * index) := by
    have h1 := mul_pos hpos ray_pos
    calc 2 * v * (badDebt * ray - ray)
        = (2 * (v * ray) - ray) * badDebt + ray * badDebt - 2 * (v * ray) := by ring
      _ ≤ 2 * (c.supplied * c.supplyIndex) * badDebt := by linarith
      _ ≤ 2 * v * (c.supplied * c.supplyIndex - c.supplied * index) := by linarith
  exact le_of_mul_le_mul_left hfinal (by linarith)

/-- A write-down that does not hit the floor widens a non-negative gap by at most one ray
unit. -/
theorem WroteDown.gap {c : Cache} {position : Int} {m' : PoolSyncData} (hc : c.Sound)
    (h : WroteDown c position m')
    (hclamp : ∀ badDebt index, c.unscaleBorrowCeilRay position = .ok badDebt →
      Interest.writtenDownIndex c badDebt = .ok (some index) → supplyIndexFloorRaw ≤ index) :
    m'.gapRaw ≤ max c.gapRaw 0 + ray := by
  obtain ⟨h0, hle, badDebt, c1, hbad, hc1, rfl⟩ := h
  have hunit := assetUnit_pos c.params.assetDecimals
  obtain ⟨-, hceil⟩ := Ray.mulCeil_ok_iff.mp hbad
  have hdebt : position * c.borrowIndex ≤ badDebt * ray := hceil ▸ le_ceilDiv_mul _ ray_pos
  rcases Interest.applyBadDebtToSupplyIndex_ok hc1 with ⟨hnone, rfl⟩ | ⟨index, hidx, rfl⟩
  · -- Nothing of value is supplied, so there is nothing left to cover.
    obtain ⟨-, -, ⟨hz, -⟩ | ⟨-, -, hcon⟩⟩ := Interest.writtenDownIndex_ok hnone
    · have hv := (valueOf_bounds c1.supplied c1.supplyIndex).2
      rw [hz] at hv
      have hdebt0 : 0 ≤ (c1.borrowed - position) * c1.borrowIndex :=
        mul_nonneg (sub_nonneg.mpr hle) hc.borrowIndex_pos.le
      have hcash0 : 0 ≤ c1.cash * assetUnit c1.params.assetDecimals * ray :=
        mul_nonneg (mul_nonneg hc.bounds.cash_nonneg hunit.le) ray_pos.le
      have hray := ray_pos
      simp only [PoolSyncData.gapRaw, Cache.commit]
      have := le_max_right c1.gapRaw 0
      linarith
    · cases hcon
  · have hfl := hclamp badDebt index hbad hidx
    have hval := writtenDownIndex_value hc.supplied_nonneg hidx hfl
    have hle : c.gapRaw ≤ max c.gapRaw 0 := le_max_left _ _
    have hgap : c.gapRaw = c.supplied * c.supplyIndex - c.borrowed * c.borrowIndex -
        c.cash * assetUnit c.params.assetDecimals * ray := rfl
    simp only [PoolSyncData.gapRaw, Cache.commit, max_eq_left hfl]
    linarith

/-! ## Runs -/

/-- Accrual chunks executed by a step. -/
def MarketStep.chunkCount (s : MarketStep) : Nat :=
  match nowMs s.timestamp with
  | .ok now => (chunks (now - s.before.state.lastTimestamp)).length
  | .error _ => 0

/-- The step wrote bad debt down to the index floor. -/
def MarketStep.hitsFloorClamp (key : HubAssetKey) (s : MarketStep) : Bool :=
  match s.op with
  | .seize .borrow position =>
    let written := do
      let c ← syncedMarket (some s.before) s.timestamp key
      Interest.writtenDownIndex c (← c.unscaleBorrowCeilRay position)
    match written with
    | .ok (some index) => decide (index < supplyIndexFloorRaw)
    | _ => false
  | _ => false

def accrualChunks (trace : List MarketStep) : Nat := (trace.map MarketStep.chunkCount).sum

def seizeBorrows (trace : List MarketStep) : Nat := trace.countP (·.op.isSeizeBorrow)

section
variable {key : HubAssetKey} {m m' : PoolSyncData} {timestamp : Nat} {op : MarketOp}

/-- One step widens a non-negative gap by two ray units per chunk, and one for a write-down. -/
theorem MarketOp.apply_gap (hm : m.Sound) (h : op.apply key m timestamp = .ok m')
    (hclamp : MarketStep.hitsFloorClamp key ⟨m, timestamp, op⟩ = false) :
    m'.gapRaw ≤ max m.gapRaw 0 + 2 * ray * MarketStep.chunkCount ⟨m, timestamp, op⟩ +
      if op.isSeizeBorrow then ray else 0 := by
  obtain ⟨c, hc, hcase⟩ := MarketOp.apply_cases hm h
  obtain ⟨now, hnow, hsync⟩ := syncedMarket_some hc
  have hcs := syncedMarket_sound hm hc
  have hgap := globalSync_gap (c := Cache.ofMarket key m now) hm hsync
  have hcount : MarketStep.chunkCount ⟨m, timestamp, op⟩ =
      (chunks (Cache.ofMarket key m now).elapsedMs).length := by
    simp only [MarketStep.chunkCount, hnow]
    rfl
  have hraw : (Cache.ofMarket key m now).gapRaw = m.gapRaw := rfl
  rw [hcount]
  rw [hraw] at hgap
  have hmax := le_max_left m.gapRaw 0
  have hmax0 := le_max_right m.gapRaw 0
  have hn : 0 ≤ 2 * ray * ((chunks (Cache.ofMarket key m now).elapsedMs).length : Int) :=
    mul_nonneg (by have := ray_pos; linarith) (by positivity)
  rcases hcase with ⟨hop, hset⟩ | ⟨position, rfl, hw⟩
  · have := hset.gap_le
    rw [hop]
    simp only [Bool.false_eq_true, if_false, add_zero]
    linarith
  · have hw' := hw.gap hcs (fun badDebt index hbad hidx => by
      by_contra hlt
      simp only [MarketStep.hitsFloorClamp, hc, Fallible.ok_bind, hbad, hidx,
        decide_eq_false_iff_not] at hclamp
      omega)
    have h1 : max c.gapRaw 0 ≤ max m.gapRaw 0 +
        2 * ray * ((chunks (Cache.ofMarket key m now).elapsedMs).length : Int) :=
      max_le (by linarith) (by linarith)
    simp only [MarketOp.isSeizeBorrow, if_true]
    linarith

/-- **The gap is bounded along every run** that never hit the index floor. -/
theorem MarketRun.gap_le {trace : List MarketStep} (h : MarketRun key m timestamp trace)
    (hclamp : ∀ s ∈ trace, s.hitsFloorClamp key = false) :
    m.gapRaw ≤ (2 * accrualChunks trace + seizeBorrows trace : Nat) * ray := by
  induction h with
  | create params hasset hcreate =>
    obtain ⟨-, -, now, -, rfl⟩ := MarketOps.create_ok hcreate
    simp [PoolSyncData.gapRaw, accrualChunks, seizeBorrows]
  | @step m m' ts ts' trace op hrun hle happly ih =>
    have hprev := ih fun s hs => hclamp s (List.mem_cons_of_mem _ hs)
    have hstep := MarketOp.apply_gap hrun.sound.1 happly (hclamp _ List.mem_cons_self)
    have hray := ray_pos
    have hmax : max m.gapRaw 0 ≤ (2 * accrualChunks trace + seizeBorrows trace : Nat) * ray :=
      max_le hprev (mul_nonneg (by positivity) ray_pos.le)
    have hchunks : accrualChunks (⟨m, ts', op⟩ :: trace) =
        MarketStep.chunkCount ⟨m, ts', op⟩ + accrualChunks trace := rfl
    have hseizes : seizeBorrows (⟨m, ts', op⟩ :: trace) =
        seizeBorrows trace + if op.isSeizeBorrow then 1 else 0 := List.countP_cons
    rw [hchunks, hseizes]
    push_cast at hmax ⊢
    split at hstep
    · rename_i hop
      rw [if_pos hop]
      linarith
    · rename_i hop
      rw [if_neg hop]
      linarith

/-- A gap below one token unit is no shortfall. -/
theorem backingShortfall_eq_zero {now : Nat} {r : Int} (hm : m.Sound)
    (hgap : m.gapRaw < assetUnit m.params.assetDecimals * ray)
    (h : Guards.backingShortfall (Cache.ofMarket key m now) = .ok r) : r = 0 := by
  unfold Guards.backingShortfall Cache.unscaleBorrowCeilRay at h
  simp only [Fallible.bind_ok_iff, Ray.mulFloor_ok_iff, Ray.mulCeil_ok_iff] at h
  obtain ⟨claims, ⟨-, hclaims⟩, debt, ⟨-, hdebt⟩, h⟩ := h
  split at h
  · simp only [Fallible.pure_ok_iff] at h
    exact h.symm
  rename_i hlt
  simp only [Fallible.bind_ok_iff, Ray.checkedSub_ok_iff, Fallible.pure_ok_iff] at h
  obtain ⟨diff, ⟨-, -, -, rfl⟩, uncovered, hu, rfl⟩ := h
  have hfloor : Ray.toAssetFloor (claims - debt) (Cache.ofMarket key m now).params.assetDecimals =
      .ok _ := Ray.toAssetFloor_eq (by omega) hm.params.decimals_le
  rw [hfloor, Except.ok.injEq] at hu
  have hunit := assetUnit_pos m.params.assetDecimals
  set u := assetUnit m.params.assetDecimals
  have hc1 : claims * ray ≤ m.state.supplied * m.state.supplyIndex := by
    rw [← hclaims]
    exact floor_mul_le _ ray_pos
  have hd1 : m.state.borrowed * m.state.borrowIndex ≤ debt * ray := by
    rw [← hdebt]
    exact le_ceilDiv_mul _ ray_pos
  -- Claims less debt are below one token unit above the cash, so the floor is at most the cash.
  have hlow : claims - debt < (m.state.cash + 1) * u := by
    have h1 : (claims - debt) * ray < (m.state.cash + 1) * u * ray := by
      unfold PoolSyncData.gapRaw at hgap
      linarith
    exact lt_of_mul_lt_mul_right h1 ray_pos.le
  have hunc : uncovered < m.state.cash + 1 := by
    rw [← hu]
    exact (floor_lt_iff hunit).mpr hlow
  have hunc' : uncovered ≤ (Cache.ofMarket key m now).cash := Int.lt_add_one_iff.mp hunc
  have hmin : i128Min ≤ 0 := by decide
  unfold I128.saturatingSub
  omega

/-- The shortfall of a market with representable claims and debt is computed. -/
theorem backingShortfall_total (key : HubAssetKey) (now : Nat) (hm : m.Sound)
    (hclaims : m.state.supplied * m.state.supplyIndex / ray ≤ i128Max)
    (hdebt : ceilDiv (m.state.borrowed * m.state.borrowIndex) ray ≤ i128Max) :
    ∃ r, Guards.backingShortfall (Cache.ofMarket key m now) = .ok r := by
  have hb := hm.state
  have hc0 : 0 ≤ m.state.supplied * m.state.supplyIndex / ray :=
    floor_nonneg ray_pos (mul_nonneg hb.supplied_nonneg hb.supplyIndex_pos.le)
  have hd0 : 0 ≤ ceilDiv (m.state.borrowed * m.state.borrowIndex) ray :=
    ceilDiv_nonneg ray_pos (mul_nonneg hb.borrowed_nonneg hb.borrowIndex_pos.le)
  have h1 : Ray.mulFloor (Cache.ofMarket key m now).supplied (Cache.ofMarket key m now).supplyIndex
      = .ok (m.state.supplied * m.state.supplyIndex / ray) :=
    Ray.mulFloor_ok_iff.mpr ⟨inI128_of_nonneg hc0 hclaims, rfl⟩
  have h2 : (Cache.ofMarket key m now).unscaleBorrowCeilRay (Cache.ofMarket key m now).borrowed
      = .ok (ceilDiv (m.state.borrowed * m.state.borrowIndex) ray) :=
    Ray.mulCeil_ok_iff.mpr ⟨inI128_of_nonneg hd0 hdebt, rfl⟩
  unfold Guards.backingShortfall
  rw [h1, h2]
  simp only [Fallible.ok_bind]
  split
  · exact ⟨0, rfl⟩
  · rename_i hlt
    have h3 : Ray.checkedSub (m.state.supplied * m.state.supplyIndex / ray)
        (ceilDiv (m.state.borrowed * m.state.borrowIndex) ray) = .ok _ :=
      Ray.checkedSub_ok_iff.mpr ⟨hc0, hd0, by omega, rfl⟩
    have h4 : Ray.toAssetFloor (m.state.supplied * m.state.supplyIndex / ray -
        ceilDiv (m.state.borrowed * m.state.borrowIndex) ray)
        (Cache.ofMarket key m now).params.assetDecimals = .ok _ :=
      Ray.toAssetFloor_eq (by omega) hm.params.decimals_le
    rw [h3, Fallible.ok_bind, h4]
    exact ⟨_, rfl⟩

/-- **Pool solvency.** In every run that never hit the index floor: an operation with no time
elapsed that is not a write-down does not widen the gap; the gap is at most twice the accrual
chunks plus the write-downs; and while that bound is below one token unit, the backing
shortfall is zero. -/
theorem pool_solvency {trace : List MarketStep} (h : MarketRun key m timestamp trace)
    (hclamp : ∀ s ∈ trace, s.hitsFloorClamp key = false) :
    (∀ (op : MarketOp) (timestamp' now : Nat) (m' : PoolSyncData), timestamp ≤ timestamp' →
      nowMs timestamp' = .ok now → now - m.state.lastTimestamp = 0 → op.isSeizeBorrow = false →
      op.apply key m timestamp' = .ok m' → m'.gap ≤ m.gap) ∧
    m.gap ≤ (2 * accrualChunks trace + seizeBorrows trace : Nat) ∧
    (2 * accrualChunks trace + seizeBorrows trace < 10 ^ (rayDecimals - m.params.assetDecimals) →
      ∀ now, (∀ r, Guards.backingShortfall (Cache.ofMarket key m now) = .ok r → r = 0) ∧
        (m.state.supplied * m.state.supplyIndex / ray ≤ i128Max →
          ceilDiv (m.state.borrowed * m.state.borrowIndex) ray ≤ i128Max →
          Guards.backingShortfall (Cache.ofMarket key m now) = .ok 0)) := by
  obtain ⟨hm, -⟩ := h.sound
  have hgap := h.gap_le hclamp
  refine ⟨?_, ?_, ?_⟩
  · intro op timestamp' now m' _ hnow hz hop happly
    obtain ⟨c, hc, ⟨-, hset⟩ | ⟨position, rfl, -⟩⟩ := MarketOp.apply_cases hm happly
    · obtain ⟨now', hnow', hsync⟩ := syncedMarket_some hc
      obtain rfl : now' = now := Except.ok.inj (hnow'.symm.trans hnow)
      have hel : (Cache.ofMarket key m now').elapsedMs = 0 := hz
      rw [Interest.globalSync_of_elapsed_zero hel, Except.ok.injEq] at hsync
      subst hsync
      exact PoolSyncData.gap_le_gap_iff.mpr hset.gap_le
    · cases hop
  · exact_mod_cast PoolSyncData.gap_le_iff.mpr hgap
  · intro hsmall now
    have hlt : m.gapRaw < assetUnit m.params.assetDecimals * ray := by
      refine lt_of_le_of_lt hgap (mul_lt_mul_of_pos_right ?_ ray_pos)
      unfold assetUnit
      exact_mod_cast hsmall
    refine ⟨fun r hr => backingShortfall_eq_zero hm hlt hr, ?_⟩
    intro hclaims hdebt
    obtain ⟨r, hr⟩ := backingShortfall_total key now hm hclaims hdebt
    rw [hr, backingShortfall_eq_zero hm hlt hr]

end

/-- Three years later the sample market accrues in three chunks, and writes a fifth of its debt off.
The gap stays within seven ray units, and the backing shortfall is zero. -/
theorem pool_solvency_sample : ∃ accrued written trace,
    MarketOp.apply Sample.key Sample.lentOut 94_671_778 .updateIndexes = .ok accrued ∧
    MarketOp.apply Sample.key accrued 94_671_778 (.seize .borrow (100 * ray)) = .ok written ∧
    MarketRun Sample.key written 94_671_778 trace ∧
    accrualChunks trace = 3 ∧ seizeBorrows trace = 1 ∧ written.gap ≤ 7 ∧
    Guards.backingShortfall (Cache.ofMarket Sample.key written 94_671_778_000) = .ok 0 := by
  obtain ⟨accrued, written, trace, haccrue, hwrite, htrace, hclamp, hchunks, hseized,
      hdecimals, hclaims, hdebt⟩ : ∃ accrued written trace,
      MarketOp.apply Sample.key Sample.lentOut 94_671_778 .updateIndexes = .ok accrued ∧
      MarketOp.apply Sample.key accrued 94_671_778 (.seize .borrow (100 * ray)) = .ok written ∧
      trace = [⟨accrued, 94_671_778, .seize .borrow (100 * ray)⟩,
        ⟨Sample.lentOut, 94_671_778, .updateIndexes⟩,
        ⟨Sample.supplied, 1_000, .borrow 0 5_000_000_000⟩,
        ⟨Sample.created, 1_000, .supply 0 10_000_000_000⟩] ∧
      (∀ s ∈ trace, s.hitsFloorClamp Sample.key = false) ∧
      accrualChunks trace = 3 ∧ seizeBorrows trace = 1 ∧ written.params.assetDecimals = 7 ∧
      written.state.supplied * written.state.supplyIndex / ray ≤ i128Max ∧
      ceilDiv (written.state.borrowed * written.state.borrowIndex) ray ≤ i128Max :=
    ⟨_, _, _, rfl, rfl, rfl, by decide +kernel, by decide +kernel, by decide +kernel,
      rfl, by decide +kernel, by decide +kernel⟩
  have hrun : MarketRun Sample.key written 94_671_778 trace := by
    rw [htrace]
    exact (Sample.lentOut_run.step (by decide) haccrue).step le_rfl hwrite
  obtain ⟨-, hgap, hshort⟩ := pool_solvency hrun hclamp
  rw [hchunks, hseized, hdecimals] at hshort
  rw [hchunks, hseized] at hgap
  refine ⟨accrued, written, trace, haccrue, hwrite, hrun, hchunks, hseized, hgap, ?_⟩
  exact (hshort (by decide) 94_671_778_000).2 hclaims hdebt

end Lending
