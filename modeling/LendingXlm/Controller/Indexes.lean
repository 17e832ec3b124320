import LendingXlm.Controller.Liquidation.Repayment

/-!
# The indexes of a flow

An operation of a flow runs a market at its current indexes and leaves them the current ones;
only a write-down of bad debt moves an index within a ledger, and no flow of a user writes off
debt. So indexes read before a flow's operations stay right after them, and those the operations
return are right as well.

* `PoolCtx.RanAt`: one market ran at an index and was written with it;
* `PoolCtx.Carries`: the current indexes of one pool are those of another.
-/

namespace Lending

open Ops

/-! ## Synced caches -/

/-- The same indexes and clock. -/
structure Cache.SameClock (c c' : Cache) : Prop where
  index : c'.marketIndex = c.marketIndex
  lastTimestamp : c'.lastTimestamp = c.lastTimestamp

theorem Interest.addProtocolRevenue_sameClock {c c' : Cache} {fee : Int}
    (h : addProtocolRevenue c fee = .ok c') : c.SameClock c' := by
  rcases addProtocolRevenue_ok h with ⟨-, rfl⟩ | ⟨shares, -, -, -, rfl⟩
  · exact ⟨rfl, rfl⟩
  · exact ⟨rfl, rfl⟩

/-- A market written in this ledger is current as it was written. -/
theorem simulateUpdateIndexes_commit {c : Cache} {now : Nat} (hlast : c.lastTimestamp = now) :
    simulateUpdateIndexes now c.commit = .ok c.marketIndex := by
  unfold simulateUpdateIndexes
  have hzero : now - c.commit.state.lastTimestamp = 0 := by
    show now - c.lastTimestamp = 0
    omega
  simp only [hzero, if_true]
  rfl

variable {W : Type} {h : PoolHost W} {timestamp : Nat}

/-- A synced market was current, and carries the ledger's time. -/
theorem Ops.syncedMarket_current {pool : PoolCtx W} {key : HubAssetKey} {c : Cache}
    (hrun : MarketsRun timestamp pool.markets)
    (hc : syncedMarket (pool.markets.get? key) timestamp key = .ok c) :
    pool.CurrentIndex timestamp key c.marketIndex ∧ nowMs timestamp = .ok c.lastTimestamp := by
  obtain ⟨m, now, hget, hnow, hsync⟩ := syncedMarket_ok hc
  obtain ⟨t, ht, trace, hmrun⟩ := hrun key m hget
  obtain ⟨hm, hlast⟩ := hmrun.sound
  obtain ⟨-, -, hclock, -⟩ := Interest.globalSync_sound (c := Cache.ofMarket key m now) hm hsync
  refine ⟨⟨now, m, hnow, hget, ?_⟩, ?_⟩
  · rw [simulateUpdateIndexes_eq hm key, hsync]
    rfl
  · have hle : m.state.lastTimestamp ≤ now := nowMs_mono ht hlast hnow
    have heq : c.lastTimestamp = now := hclock.trans (max_eq_right hle)
    rw [hnow, heq]

/-! ## One market -/

namespace PoolCtx

/-- The market of `key` ran at `index` and was written with it; no other market changed. -/
def RanAt (timestamp : Nat) (s s' : PoolCtx W) (key : HubAssetKey) (index : MarketIndex) : Prop :=
  ∃ c c', syncedMarket (s.markets.get? key) timestamp key = .ok c ∧ c.SameClock c' ∧
    s'.markets = s.markets.set key c'.commit ∧ index = c'.marketIndex

/-- The markets of `s'` come from runs, and their current indexes are those of `s`. -/
structure Carries (timestamp : Nat) (s s' : PoolCtx W) : Prop where
  run : MarketsRun timestamp s'.markets
  index : ∀ {key index}, s'.CurrentIndex timestamp key index ↔ s.CurrentIndex timestamp key index

theorem Carries.refl {s : PoolCtx W} (hs : MarketsRun timestamp s.markets) :
    Carries timestamp s s :=
  ⟨hs, Iff.rfl⟩

theorem Carries.trans {s t u : PoolCtx W} (hst : Carries timestamp s t)
    (htu : Carries timestamp t u) : Carries timestamp s u :=
  ⟨htu.run, htu.index.trans hst.index⟩

/-- Markets are all that counts. -/
theorem Carries.congr {s s' t : PoolCtx W} (hs : Carries timestamp s s')
    (hm : t.markets = s'.markets) : Carries timestamp s t := by
  refine ⟨hm ▸ hs.run, fun {key index} => ?_⟩
  rw [← hs.index, CurrentIndex, CurrentIndex, hm]

/-- **The indexes an operation runs at stay current.** -/
theorem RanAt.carries {s s' : PoolCtx W} {key : HubAssetKey} {index : MarketIndex}
    (hran : RanAt timestamp s s' key index) (hrun : MarketsRun timestamp s.markets)
    (hrun' : MarketsRun timestamp s'.markets) :
    Carries timestamp s s' ∧ s'.CurrentIndex timestamp key index := by
  obtain ⟨c, c', hc, hclock, hset, rfl⟩ := hran
  obtain ⟨hcur, hnow⟩ := syncedMarket_current hrun hc
  have hafter : s'.CurrentIndex timestamp key c'.marketIndex := by
    refine ⟨c.lastTimestamp, c'.commit, hnow, ?_, simulateUpdateIndexes_commit hclock.lastTimestamp⟩
    rw [hset, SortedMap.get?_set_self]
  refine ⟨⟨hrun', fun {key' index} => ?_⟩, hafter⟩
  by_cases hkey : key' = key
  · subst hkey
    rw [hclock.index] at hafter
    exact ⟨fun hcur' => hcur'.unique hafter ▸ hcur, fun hcur' => hcur'.unique hcur ▸ hafter⟩
  · rw [CurrentIndex, CurrentIndex, hset, SortedMap.get?_set_ne _ _ hkey]

end PoolCtx

open PoolCtx

/-! ## Operations -/

section
variable {s s' : PoolCtx W} {action : PoolAction}

theorem Supply.leg_ranAt {r : PoolPositionMutation}
    (hleg : Supply.leg timestamp s action = .ok (s', r)) :
    RanAt timestamp s s' action.hubAsset r.marketIndex := by
  unfold Supply.leg at hleg
  simp only [Fallible.bind_ok_iff, Fallible.pure_ok_iff, Prod.mk.injEq] at hleg
  obtain ⟨⟨cache, mutation⟩, happly, rfl, rfl⟩ := hleg
  obtain ⟨c, minted, hc, -, -, -, -, -, -, -, -, rfl, rfl⟩ := Supply.apply_ok happly
  exact ⟨c, { c with supplied := c.supplied + minted, cash := c.cash + action.amount }, hc,
    ⟨rfl, rfl⟩, rfl, rfl⟩

theorem Borrow.apply_ranAt {receiver : Address} {r : PoolPositionMutation}
    (hleg : Borrow.apply h timestamp receiver s action = .ok (s', r)) :
    RanAt timestamp s s' action.hubAsset r.marketIndex := by
  unfold Borrow.apply at hleg
  simp only [Fallible.bind_ok_iff, Fallible.pure_ok_iff, Prod.mk.injEq] at hleg
  obtain ⟨o, hacc, world, -, rfl, rfl⟩ := hleg
  obtain ⟨c, minted, hc, -, -, -, -, -, -, -, hcache, hmut⟩ := Borrow.accounting_ok hacc
  refine ⟨c, o.cache, hc, ?_, rfl, ?_⟩
  · rw [hcache]
    exact ⟨rfl, rfl⟩
  · rw [hmut]
    rfl

theorem Withdraw.withholdLiquidationFee_sameClock {c c' : Cache} {gross fee net : Int}
    {liq : Bool} (hw : Withdraw.withholdLiquidationFee c gross liq fee = .ok (c', net)) :
    c.SameClock c' := by
  rcases Withdraw.withholdLiquidationFee_ok hw with ⟨-, rfl, -⟩ | ⟨-, -, -, feeRay, -, hadd⟩
  · exact ⟨rfl, rfl⟩
  · exact Interest.addProtocolRevenue_sameClock hadd

theorem Withdraw.apply_ranAt {receiver : Address} {liq : Bool} {entry : PoolWithdrawEntry}
    {r : PoolPositionMutation}
    (hleg : Withdraw.apply h timestamp receiver liq s entry = .ok (s', r)) :
    RanAt timestamp s s' entry.action.hubAsset r.marketIndex := by
  unfold Withdraw.apply at hleg
  obtain ⟨o, hacc, hleg⟩ := Fallible.bind_ok hleg
  obtain ⟨c, burned, gross, c1, hc, -, -, -, -, -, -, -, -, -, hw, -, -, hcache, hmut⟩ :=
    Withdraw.accounting_ok hacc
  have hwithheld := Withdraw.withholdLiquidationFee_sameClock hw
  have hclock : c.SameClock o.cache := by
    rw [hcache]
    exact ⟨hwithheld.index, hwithheld.lastTimestamp⟩
  have hindex : o.mutation.marketIndex = o.cache.marketIndex := by
    rw [hmut]
    rfl
  split at hleg
  · simp only [Fallible.pure_ok_iff, Prod.mk.injEq] at hleg
    obtain ⟨rfl, rfl⟩ := hleg
    exact ⟨c, o.cache, hc, hclock, rfl, hindex⟩
  · simp only [Fallible.bind_ok_iff, Fallible.pure_ok_iff, Prod.mk.injEq] at hleg
    obtain ⟨world, -, rfl, rfl⟩ := hleg
    exact ⟨c, o.cache, hc, hclock, rfl, hindex⟩

theorem Repay.apply_ranAt {payer : Address} {r : PoolPositionMutation}
    (hleg : Repay.apply h timestamp payer s action = .ok (s', r)) :
    RanAt timestamp s s' action.hubAsset r.marketIndex := by
  unfold Repay.apply at hleg
  simp only [Fallible.bind_ok_iff, Fallible.pure_ok_iff, Prod.mk.injEq] at hleg
  obtain ⟨o, hacc, world, -, rfl, rfl⟩ := hleg
  obtain ⟨c, burned, hc, -, -, -, -, -, -, -, -, hcache, hmut⟩ := Repay.accounting_ok hacc
  refine ⟨c, o.cache, hc, ?_, rfl, ?_⟩
  · rw [hcache]
    exact ⟨rfl, rfl⟩
  · rw [hmut]
    rfl

theorem Strategy.apply_ranAt {receiver : Address} {charge : Bool} {r : PoolStrategyMutation}
    (hleg : Strategy.apply h timestamp receiver s action charge = .ok (s', r)) :
    RanAt timestamp s s' action.hubAsset r.marketIndex := by
  unfold Strategy.apply at hleg
  simp only [Fallible.bind_ok_iff, Fallible.pure_ok_iff, Prod.mk.injEq] at hleg
  obtain ⟨o, hacc, world, -, rfl, rfl⟩ := hleg
  obtain ⟨c, minted, feeRay, c1, hc, -, -, -, -, -, -, -, -, -, hadd, -, hcache, hmut⟩ :=
    Strategy.accounting_ok hacc
  have hfee := Interest.addProtocolRevenue_sameClock hadd
  refine ⟨c, o.cache, hc, ?_, rfl, ?_⟩
  · rw [hcache]
    exact ⟨hfee.index, hfee.lastTimestamp⟩
  · rw [hmut]
    rfl

theorem LiquidityPool.netSettle_ranAt {entry : PoolNetSettleEntry} {r : PoolNetSettleResult}
    (hcall : LiquidityPool.netSettle timestamp s entry = .ok (s', r)) :
    RanAt timestamp s s' entry.hubAsset r.marketIndex := by
  unfold LiquidityPool.netSettle at hcall
  simp only [Fallible.bind_ok_iff, Fallible.pure_ok_iff, Prod.mk.injEq] at hcall
  obtain ⟨⟨cache, result⟩, happly, rfl, rfl⟩ := hcall
  obtain ⟨c, bs, bd, hc, -, -, -, -, -, -, -, -, -, -, -, rfl, -, -, hindex⟩ :=
    NetSettle.apply_ok happly
  exact ⟨c, { c with supplied := c.supplied - bs, borrowed := c.borrowed - bd }, hc, ⟨rfl, rfl⟩,
    rfl, hindex⟩

end

/-! ## Batches -/

/-- Every leg of a batch runs its market at the index it returns. -/
theorem Ops.runBatch_ranAt {E : Type} {k : E → HubAssetKey} {unique : Bool}
    {leg : PoolCtx W → E → Result (PoolCtx W × PoolPositionMutation)}
    (hleg : ∀ {s s' e r}, leg s e = .ok (s', r) →
      RanAt timestamp s s' (k e) r.marketIndex ∧ MarketsStep timestamp s.markets s'.markets)
    {entries : List E} {seen : List HubAssetKey} {s s' : PoolCtx W}
    {rs : List PoolPositionMutation} (hs : MarketsRun timestamp s.markets)
    (hrun : runBatch k unique leg seen s entries = .ok (s', rs)) :
    Carries timestamp s s' ∧
      ∀ e ∈ entries.zip rs, s'.CurrentIndex timestamp (k e.1) e.2.marketIndex := by
  induction entries generalizing s seen rs with
  | nil =>
    obtain ⟨rfl, rfl⟩ := runBatch_nil hrun
    exact ⟨.refl hs, fun e he => by simp at he⟩
  | cons e entries ih =>
    obtain ⟨s1, r, rs1, h1, -, hrest, rfl⟩ := runBatch_cons hrun
    obtain ⟨hran, hstep⟩ := hleg h1
    obtain ⟨hcarry, hcur⟩ := hran.carries hs (hs.steps (.single hstep))
    obtain ⟨hcarries, hall⟩ := ih hcarry.run hrest
    refine ⟨hcarry.trans hcarries, fun e' he' => ?_⟩
    rw [List.zip_cons_cons] at he'
    rcases List.mem_cons.mp he' with rfl | he'
    · exact hcarries.index.mpr hcur
    · exact hall e' he'

end Lending
