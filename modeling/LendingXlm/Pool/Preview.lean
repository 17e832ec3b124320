import LendingXlm.Pool.Market

/-!
# The index preview

`get_bulk_indexes` projects the indexes without storing them, `global_sync` stores them. The
projection carries the supply total only, the cache also mints the revenue shares:

* `simulateChunk_eq`: on a sound cache both take the same step, traps included;
* `simulateUpdateIndexes_eq`: so the preview is the sync, seen through its indexes;
* `MarketOp.apply_same_ledger`: within the ledger of the last sync only a write-down moves an
  index.
-/

namespace Lending

open FpCore Ops

/-! ## One chunk -/

/-- What the projection carries of a cache. -/
def Cache.projection (c : Cache) : Projection := ⟨c.supplied, c.borrowIndex, c.supplyIndex⟩

theorem checkedAddRaw_eq (a b : Int) :
    checkedAddRaw a b = if InI128 (a + b) then .ok (a + b) else .error .mathOverflow := by
  unfold checkedAddRaw I128.checkedAdd
  split <;> rfl

/-- The cache mints into revenue and supply; since revenue is part of the supply, the first add
overflows only when the second does. -/
theorem simulateChunk_eq {c : Cache} (hc : c.Sound) (delta : Nat) :
    simulateChunk c.params c.borrowed c.projection delta =
      (Interest.accrueChunk c delta).map Cache.projection := by
  have hb := hc.bounds
  have hrev0 : 0 ≤ c.revenue := hb.revenue_nonneg
  have hrevle : c.revenue ≤ c.supplied := hb.revenue_le
  unfold simulateChunk Interest.accrueChunk
  simp only [Cache.projection]
  cases hstep : accrueStep c.params c.borrowed c.supplied c.borrowIndex c.supplyIndex delta with
  | error e => rfl
  | ok step =>
    have hs0 := (Interest.accrueStep_of_sound hc hstep).revenueShares_nonneg
    simp only [Fallible.ok_bind, Cache.accrueRevenue, Ray.checkedAdd, checkedAddRaw_eq]
    by_cases hin : InI128 (c.supplied + step.revenueShares)
    · have hin' : InI128 (c.revenue + step.revenueShares) :=
        inI128_of_nonneg (by omega) (le_trans (by omega) hin.2)
      simp only [hin, hin', if_true]
      rfl
    · simp only [hin, if_false]
      split <;> rfl

/-- **Preview equals sync.** The previewed indexes are those a sync stores, and the preview
traps with the sync's error. -/
theorem simulateUpdateIndexes_eq {m : PoolSyncData} (hm : m.Sound) (key : HubAssetKey)
    (now : Nat) :
    simulateUpdateIndexes now m =
      (Interest.globalSync (Cache.ofMarket key m now)).map Cache.marketIndex := by
  set c := Cache.ofMarket key m now
  have hc : c.Sound := hm
  -- The invariant carries the parameters and the debt, which the projection takes from `m`.
  have hloop : (chunks c.elapsedMs).foldlM (simulateChunk m.params m.state.borrowed) c.projection =
      ((chunks c.elapsedMs).foldlM Interest.accrueChunk c).map Cache.projection := by
    refine Fallible.foldlM_sim
      (P := fun d => d.Sound ∧ d.params = m.params ∧ d.borrowed = m.state.borrowed) ?_ ?_
      ⟨hc, rfl, rfl⟩
    · rintro d delta d' ⟨hd, hp, hbor⟩ h
      obtain ⟨hd', hfwd⟩ := Interest.accrueChunk_sound hd h
      obtain ⟨step, -, -, -, rfl⟩ := Interest.accrueChunk_ok h
      exact ⟨hd', hfwd.params.trans hp, hbor⟩
    · rintro d delta ⟨hd, hp, hbor⟩
      rw [← hp, ← hbor]
      exact simulateChunk_eq hd delta
  have helapsed : now - m.state.lastTimestamp = c.elapsedMs := rfl
  have hproj : (⟨m.state.supplied, m.state.borrowIndex, m.state.supplyIndex⟩ : Projection) =
      c.projection := rfl
  unfold simulateUpdateIndexes
  simp only [helapsed, hproj]
  by_cases hz : c.elapsedMs = 0
  · rw [if_pos hz, Interest.globalSync_of_elapsed_zero hz]
    rfl
  · rw [if_neg hz, hloop]
    unfold Interest.globalSync Cache.needsAccrual
    rw [if_neg (by simpa using hz)]
    cases (chunks c.elapsedMs).foldlM Interest.accrueChunk c with
    | error e => rfl
    | ok c1 => rfl

/-! ## One ledger -/

section
variable {key : HubAssetKey} {m m' : PoolSyncData} {timestamp now : Nat} {op : MarketOp}

/-- The sync of an operation on a market that was already synced in this ledger does nothing. -/
theorem syncedMarket_of_synced (hnow : nowMs timestamp = .ok now)
    (hlast : m.state.lastTimestamp = now) :
    syncedMarket (some m) timestamp key = .ok (Cache.ofMarket key m now) := by
  unfold syncedMarket Cache.load
  rw [hnow]
  exact Interest.globalSync_of_elapsed_zero (by simp [Cache.elapsedMs, Cache.ofMarket, hlast])

/-- Within the ledger of the last sync, an operation other than a write-down leaves both indexes
and the clock alone. -/
theorem MarketOp.apply_same_ledger (hm : m.Sound) (hnow : nowMs timestamp = .ok now)
    (hlast : m.state.lastTimestamp = now) (hop : op.isSeizeBorrow = false)
    (h : op.apply key m timestamp = .ok m') :
    m'.state.borrowIndex = m.state.borrowIndex ∧ m'.state.supplyIndex = m.state.supplyIndex ∧
      m'.state.lastTimestamp = now := by
  obtain ⟨c, hc, ⟨-, c', hset, hstate, -⟩ | ⟨position, rfl, -⟩⟩ := MarketOp.apply_cases hm h
  · rw [syncedMarket_of_synced hnow hlast, Except.ok.injEq] at hc
    subst hc
    rw [hstate]
    exact ⟨hset.borrowIndex, hset.supplyIndex, hset.lastTimestamp.trans hlast⟩
  · cases hop

/-- The market after several operations of one ledger, none a write-down, executes at the
indexes that were previewed before them. -/
theorem MarketOp.apply_at_preview {ops : List MarketOp} {index : MarketIndex} (hm : m.Sound)
    (hnow : nowMs timestamp = .ok now) (hprev : simulateUpdateIndexes now m = .ok index)
    (hops : ∀ op ∈ ops, op.isSeizeBorrow = false)
    (hle : m.state.lastTimestamp ≤ now)
    (h : ops.foldlM (fun m op => op.apply key m timestamp) m = .ok m') :
    ∃ c, syncedMarket (some m') timestamp key = .ok c ∧ c.marketIndex = index := by
  -- Synced or not yet, the market would execute at `index`.
  have hinv := Fallible.foldlM_inv
    (P := fun d : PoolSyncData => d.Sound ∧ d.state.lastTimestamp ≤ now ∧
      ∃ c, syncedMarket (some d) timestamp key = .ok c ∧ c.marketIndex = index)
    (f := fun m (op : MarketOp) => op.apply key m timestamp) ?_ ⟨hm, hle, ?_⟩ h
  · exact hinv.2.2
  · rintro d op d' hmem ⟨hd, hdle, c, hc, hidx⟩ hstep
    obtain ⟨c0, hc0, ⟨-, c', hset, hstate, hv, -, -⟩ | ⟨position, rfl, -⟩⟩ :=
      MarketOp.apply_cases hd hstep
    · obtain rfl : c0 = c := Except.ok.inj (hc0.symm.trans hc)
      obtain ⟨now', hnow', hsync⟩ := syncedMarket_some hc0
      obtain rfl : now' = now := Except.ok.inj (hnow'.symm.trans hnow)
      obtain ⟨-, -, hclast, -, -⟩ :=
        Interest.globalSync_sound (c := Cache.ofMarket key d now') hd hsync
      have hlast : d'.state.lastTimestamp = now' := by
        rw [hstate]
        exact hset.lastTimestamp.trans (hclast.trans (max_eq_right hdle))
      refine ⟨⟨hv, hstate ▸ hset.sound.state⟩, hlast.le, _, syncedMarket_of_synced hnow hlast, ?_⟩
      have hb : d'.state.borrowIndex = c0.borrowIndex := by rw [hstate]; exact hset.borrowIndex
      have hs : d'.state.supplyIndex = c0.supplyIndex := by rw [hstate]; exact hset.supplyIndex
      rw [← hidx]
      simp only [Cache.marketIndex, Cache.ofMarket, hb, hs]
    · cases hops _ hmem
  · rw [simulateUpdateIndexes_eq hm key] at hprev
    cases hs : Interest.globalSync (Cache.ofMarket key m now) with
    | error e => rw [hs] at hprev; cases hprev
    | ok c =>
      rw [hs] at hprev
      refine ⟨c, ?_, Except.ok.inj hprev⟩
      unfold syncedMarket Cache.load
      rw [hnow]
      exact hs

/-- **Preview equals execution.** For every reachable market and every time the preview is the
sync, errors included; and in the ledger of a sync only a write-down moves an index, so an
amount planned at the previewed index executes at that index. -/
theorem preview_eq_execution {trace : List MarketStep} (hrun : MarketRun key m timestamp trace) :
    (∀ now, simulateUpdateIndexes now m =
      (Interest.globalSync (Cache.ofMarket key m now)).map Cache.marketIndex) ∧
    (∀ read timestamp', read key = some m →
      getBulkIndexes read timestamp' [key] =
        (syncedMarket (read key) timestamp' key).map fun c => [c.marketIndex]) ∧
    (∀ op m', op.isSeizeBorrow = false → MarketOp.apply key m timestamp op = .ok m' →
      m'.state.borrowIndex = m.state.borrowIndex ∧ m'.state.supplyIndex = m.state.supplyIndex) ∧
    (∀ (timestamp' now : Nat) (index : MarketIndex) (ops : List MarketOp) (m' : PoolSyncData),
      timestamp ≤ timestamp' → nowMs timestamp' = .ok now →
      simulateUpdateIndexes now m = .ok index → (∀ op ∈ ops, op.isSeizeBorrow = false) →
      ops.foldlM (fun m op => MarketOp.apply key m timestamp' op) m = .ok m' →
      ∃ c, syncedMarket (some m') timestamp' key = .ok c ∧ c.marketIndex = index) := by
  obtain ⟨hm, hnow⟩ := hrun.sound
  refine ⟨simulateUpdateIndexes_eq hm key, ?_, ?_, ?_⟩
  · intro read timestamp' hread
    unfold getBulkIndexes syncedMarket Cache.load
    rw [hread]
    cases hn : nowMs timestamp' with
    | error e => rfl
    | ok now' =>
      simp only [Fallible.ok_bind, List.mapM_cons, List.mapM_nil, hread, orThrow,
        simulateUpdateIndexes_eq hm key]
      show _ = Except.map _ (Interest.globalSync (Cache.ofMarket key m now'))
      cases Interest.globalSync (Cache.ofMarket key m now') with
      | error e => rfl
      | ok c => rfl
  · intro op m' hop h
    obtain ⟨hb, hs, -⟩ := MarketOp.apply_same_ledger hm hnow rfl hop h
    exact ⟨hb, hs⟩
  · intro timestamp' now index ops m' hle hnow' hprev hops h
    exact MarketOp.apply_at_preview hm hnow' hprev hops (nowMs_mono hle hnow hnow') h

end

/-- Three years on, the sample market's preview is what the sync stores. -/
theorem preview_eq_execution_sample :
    ∃ index c, simulateUpdateIndexes 94_671_778_000 Sample.lentOut = .ok index ∧
      Interest.globalSync (Cache.ofMarket Sample.key Sample.lentOut 94_671_778_000) = .ok c ∧
      index = c.marketIndex := by
  obtain ⟨c, hc⟩ : ∃ c, Interest.globalSync
      (Cache.ofMarket Sample.key Sample.lentOut 94_671_778_000) = .ok c := ⟨_, rfl⟩
  have h := (preview_eq_execution Sample.lentOut_run).1 94_671_778_000
  rw [hc] at h
  exact ⟨c.marketIndex, c, h, hc, rfl⟩

end Lending
