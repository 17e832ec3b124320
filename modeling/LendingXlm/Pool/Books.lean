import LendingXlm.Pool.Market
import LendingXlm.Pool.Contract

/-!
# What an operation does to the books

The books of a market are the shares its suppliers hold (supply less revenue), its debt shares
and its tracked cash. Accrual moves none of them; each operation moves them by what it returns
to its caller:

* `Moves m m' supply debt cash`: the books of `m'` are those of `m` moved by the three amounts;
* one lemma per operation, and `PoolCtx.Moved` for one market of the pool.
-/

namespace Lending

open Ops

/-- The supply shares that are not protocol revenue. -/
def PoolSyncData.netSupply (m : PoolSyncData) : Int := m.state.supplied - m.state.revenue

/-- `m'` has the asset of `m`, and its books moved by the given amounts. -/
structure Moves (m m' : PoolSyncData) (supply debt cash : Int) : Prop where
  assetId : m'.params.assetId = m.params.assetId
  assetDecimals : m'.params.assetDecimals = m.params.assetDecimals
  netSupply : m'.netSupply = m.netSupply + supply
  borrowed : m'.state.borrowed = m.state.borrowed + debt
  cash : m'.state.cash = m.state.cash + cash

namespace Moves

theorem refl (m : PoolSyncData) : Moves m m 0 0 0 :=
  ⟨rfl, rfl, by simp, by simp, by simp⟩

theorem trans {m m1 m2 : PoolSyncData} {s1 d1 k1 s2 d2 k2 : Int} (h1 : Moves m m1 s1 d1 k1)
    (h2 : Moves m1 m2 s2 d2 k2) : Moves m m2 (s1 + s2) (d1 + d2) (k1 + k2) where
  assetId := h2.assetId.trans h1.assetId
  assetDecimals := h2.assetDecimals.trans h1.assetDecimals
  netSupply := by rw [h2.netSupply, h1.netSupply, add_assoc]
  borrowed := by rw [h2.borrowed, h1.borrowed, add_assoc]
  cash := by rw [h2.cash, h1.cash, add_assoc]

/-- After moves that leave the books alone, only the last one counts. -/
theorem of_still {m m1 m2 : PoolSyncData} {s d k : Int} (h1 : Moves m m1 0 0 0)
    (h2 : Moves m1 m2 s d k) : Moves m m2 s d k := by
  have h := h1.trans h2
  simpa using h

end Moves

/-! ## Accrual and fees leave the books alone -/

theorem Interest.accrueChunks_moves {deltas : List Nat} {c c' : Cache}
    (h : deltas.foldlM accrueChunk c = .ok c') : Moves c.commit c'.commit 0 0 0 := by
  refine Fallible.foldlM_inv (P := fun d => Moves c.commit d.commit 0 0 0) ?_ (Moves.refl _) h
  rintro d delta d' - hd hstep
  obtain ⟨step, -, -, -, rfl⟩ := accrueChunk_ok hstep
  refine hd.of_still ⟨rfl, rfl, ?_, by simp [Cache.commit], by simp [Cache.commit]⟩
  simp only [PoolSyncData.netSupply, Cache.commit]
  omega

theorem Interest.globalSync_moves {c c' : Cache} (h : globalSync c = .ok c') :
    Moves c.commit c'.commit 0 0 0 := by
  rcases globalSync_ok h with ⟨-, rfl⟩ | ⟨-, c1, hc1, rfl⟩
  · exact Moves.refl _
  · refine (accrueChunks_moves hc1).of_still ?_
    exact ⟨rfl, rfl, (add_zero _).symm, (add_zero _).symm, (add_zero _).symm⟩

/-- A synced market was stored and has the books it was stored with. -/
theorem Ops.syncedMarket_moves {stored : Option PoolSyncData} {timestamp : Nat}
    {key : HubAssetKey} {c : Cache} (h : syncedMarket stored timestamp key = .ok c) :
    ∃ m, stored = some m ∧ Moves m c.commit 0 0 0 := by
  obtain ⟨m, now, hm, -, hc⟩ := syncedMarket_ok h
  exact ⟨m, hm, Interest.globalSync_moves hc⟩

theorem Interest.addProtocolRevenue_moves {c c' : Cache} {fee : Int}
    (h : addProtocolRevenue c fee = .ok c') : Moves c.commit c'.commit 0 0 0 := by
  rcases addProtocolRevenue_ok h with ⟨-, rfl⟩ | ⟨shares, -, -, -, rfl⟩
  · exact Moves.refl _
  · refine ⟨rfl, rfl, ?_, by simp [Cache.commit], by simp [Cache.commit]⟩
    simp only [PoolSyncData.netSupply, Cache.commit]
    omega

/-! ## Operations -/

section
variable {stored : Option PoolSyncData} {timestamp : Nat} {action : PoolAction} {c' : Cache}

theorem Supply.apply_moves {mutation : PoolPositionMutation}
    (h : Supply.apply stored timestamp action = .ok (c', mutation)) :
    0 ≤ action.amount ∧ ∃ m, stored = some m ∧
      Moves m c'.commit (mutation.position.scaledAmount - action.position.scaledAmount) 0
        action.amount := by
  obtain ⟨c, minted, hc, h1, -, -, -, -, -, -, -, rfl, rfl⟩ := Supply.apply_ok h
  obtain ⟨m, hm, hsync⟩ := syncedMarket_moves hc
  refine ⟨h1, m, hm, hsync.of_still ⟨rfl, rfl, ?_, by simp [Cache.commit], rfl⟩⟩
  simp only [PoolSyncData.netSupply, Cache.commit, Cache.positionMutation]
  omega

theorem Borrow.accounting_moves {o : Borrow.Outcome}
    (h : Borrow.accounting stored timestamp action = .ok o) :
    o.mutation.actualAmount = action.amount ∧ ∃ m, stored = some m ∧
      o.cache.params.assetId = m.params.assetId ∧
      Moves m o.cache.commit 0
        (o.mutation.position.scaledAmount - action.position.scaledAmount) (-action.amount) := by
  obtain ⟨c, minted, hc, -, -, -, -, -, -, -, hcache, hmut⟩ := Borrow.accounting_ok h
  obtain ⟨m, hm, hsync⟩ := syncedMarket_moves hc
  rw [hmut, hcache]
  refine ⟨rfl, m, hm, hsync.assetId, hsync.of_still ⟨rfl, rfl, by simp [PoolSyncData.netSupply,
    Cache.commit], ?_, ?_⟩⟩
  · simp only [Cache.commit, Cache.positionMutation]
    omega
  · simp only [Cache.commit]
    omega

theorem Withdraw.withholdLiquidationFee_moves {c : Cache} {gross fee net : Int} {liq : Bool}
    (h : Withdraw.withholdLiquidationFee c gross liq fee = .ok (c', net)) :
    Moves c.commit c'.commit 0 0 0 := by
  rcases Withdraw.withholdLiquidationFee_ok h with ⟨-, rfl, -⟩ | ⟨-, -, -, feeRay, -, hadd⟩
  · exact Moves.refl _
  · exact Interest.addProtocolRevenue_moves hadd

theorem Withdraw.accounting_moves {liq : Bool} {entry : PoolWithdrawEntry} {o : Withdraw.Outcome}
    (h : Withdraw.accounting stored timestamp liq entry = .ok o) :
    ∃ m, stored = some m ∧ o.cache.params.assetId = m.params.assetId ∧
      Moves m o.cache.commit
        (o.mutation.position.scaledAmount - entry.action.position.scaledAmount) 0
        (-o.netTransfer) := by
  obtain ⟨c, burned, gross, c1, hc, -, -, -, -, -, -, -, -, -, hw, -, -, hcache, hmut⟩ :=
    Withdraw.accounting_ok h
  obtain ⟨m, hm, hsync⟩ := syncedMarket_moves hc
  have hburn : Moves c.commit { c with supplied := c.supplied - burned }.commit (-burned) 0 0 := by
    refine ⟨rfl, rfl, ?_, by simp [Cache.commit], by simp [Cache.commit]⟩
    simp only [PoolSyncData.netSupply, Cache.commit]
    omega
  have hpay : Moves c1.commit o.cache.commit 0 0 (-o.netTransfer) := by
    rw [hcache]
    exact ⟨rfl, rfl, by simp [PoolSyncData.netSupply, Cache.commit], by simp [Cache.commit], rfl⟩
  have hall := ((hsync.of_still hburn).trans (withholdLiquidationFee_moves hw)).trans hpay
  refine ⟨m, hm, hall.assetId, ?_⟩
  rw [hmut]
  have hpos : (o.cache.positionMutation (entry.action.position.scaledAmount - burned)
      gross).position.scaledAmount - entry.action.position.scaledAmount = -burned + 0 + 0 := by
    simp only [Cache.positionMutation]
    omega
  rw [hpos]
  simpa using hall

theorem Repay.accounting_moves {o : Repay.Outcome}
    (h : Repay.accounting stored timestamp action = .ok o) :
    ∃ m, stored = some m ∧ o.cache.params.assetId = m.params.assetId ∧
      Moves m o.cache.commit 0
        (o.mutation.position.scaledAmount - action.position.scaledAmount)
        (action.amount - o.overpayment) := by
  obtain ⟨c, burned, hc, -, -, -, -, -, -, -, -, hcache, hmut⟩ := Repay.accounting_ok h
  obtain ⟨m, hm, hsync⟩ := syncedMarket_moves hc
  rw [hmut, hcache]
  refine ⟨m, hm, hsync.assetId, hsync.of_still ⟨rfl, rfl, by simp [PoolSyncData.netSupply,
    Cache.commit], ?_, rfl⟩⟩
  simp only [Cache.commit, Cache.positionMutation]
  omega

theorem NetSettle.apply_moves {entry : PoolNetSettleEntry} {result : PoolNetSettleResult}
    (h : NetSettle.apply stored timestamp entry = .ok (c', result)) :
    ∃ m, stored = some m ∧
      Moves m c'.commit
        (result.supplyPosition.scaledAmount - entry.supplyPosition.scaledAmount)
        (result.debtPosition.scaledAmount - entry.debtPosition.scaledAmount) 0 := by
  obtain ⟨c, bs, bd, hc, -, -, -, -, -, -, -, -, -, -, -, rfl, hs, hd, -⟩ := NetSettle.apply_ok h
  obtain ⟨m, hm, hsync⟩ := syncedMarket_moves hc
  rw [hs, hd]
  refine ⟨m, hm, hsync.of_still ⟨rfl, rfl, ?_, ?_, by simp [Cache.commit]⟩⟩
  · simp only [PoolSyncData.netSupply, Cache.commit]
    omega
  · simp only [Cache.commit]
    omega

theorem Strategy.accounting_moves {chargeFee : Bool} {o : Strategy.Outcome}
    (h : Strategy.accounting stored timestamp action chargeFee = .ok o) :
    ∃ m, stored = some m ∧ o.cache.params.assetId = m.params.assetId ∧
      Moves m o.cache.commit 0
        (o.mutation.position.scaledAmount - action.position.scaledAmount)
        (-o.mutation.amountReceived) := by
  obtain ⟨c, minted, feeRay, c1, hc, -, -, -, -, -, -, -, -, -, hadd, -, hcache, hmut⟩ :=
    Strategy.accounting_ok h
  obtain ⟨m, hm, hsync⟩ := syncedMarket_moves hc
  have hmint : Moves c.commit { c with borrowed := c.borrowed + minted }.commit 0 minted 0 :=
    ⟨rfl, rfl, by simp [PoolSyncData.netSupply, Cache.commit], rfl, by simp [Cache.commit]⟩
  have hpay : Moves c1.commit o.cache.commit 0 0 (-(action.amount - o.fee)) := by
    rw [hcache]
    exact ⟨rfl, rfl, by simp [PoolSyncData.netSupply, Cache.commit], by simp [Cache.commit], rfl⟩
  have hall := ((hsync.of_still hmint).trans (Interest.addProtocolRevenue_moves hadd)).trans hpay
  refine ⟨m, hm, hall.assetId, ?_⟩
  rw [hmut]
  simp only [Cache.strategyMutation, add_sub_cancel_left]
  simpa using hall

theorem Flash.bookFee_moves {c : Cache} {fee : Int} (h : Flash.bookFee c fee = .ok c') :
    Moves c.commit c'.commit 0 0 fee := by
  obtain ⟨feeRay, c1, -, hadd, -, rfl⟩ := Flash.bookFee_ok h
  refine (Interest.addProtocolRevenue_moves hadd).of_still ?_
  exact ⟨rfl, rfl, by simp [PoolSyncData.netSupply, Cache.commit], by simp [Cache.commit], rfl⟩

theorem Revenue.accounting_moves {hubAsset : HubAssetKey} {o : Revenue.Outcome}
    (h : Revenue.accounting stored timestamp hubAsset = .ok o) :
    ∃ m, stored = some m ∧ o.cache.params.assetId = m.params.assetId ∧
      Moves m o.cache.commit 0 0 (-o.actualAmount) := by
  obtain ⟨c, c1, hc, hburn, -, -, hcache⟩ := Revenue.accounting_ok h
  obtain ⟨m, hm, hsync⟩ := syncedMarket_moves hc
  have hclaim : Moves c.commit c1.commit 0 0 0 := by
    obtain ⟨treasury, -, ⟨-, rfl⟩ | ⟨burned, -, -, -, -, -, -, -, rfl⟩⟩ :=
      Cache.burnClaimableRevenue_ok hburn
    · exact Moves.refl _
    · refine ⟨rfl, rfl, ?_, by simp [Cache.commit], by simp [Cache.commit]⟩
      simp only [PoolSyncData.netSupply, Cache.commit]
      omega
  have hpay : Moves c1.commit o.cache.commit 0 0 (-o.actualAmount) := by
    rw [hcache]
    exact ⟨rfl, rfl, by simp [PoolSyncData.netSupply, Cache.commit], by simp [Cache.commit], rfl⟩
  have hall := (hsync.of_still hclaim).of_still hpay
  exact ⟨m, hm, hall.assetId, hall⟩

theorem Recapitalize.accounting_moves {hubAsset : HubAssetKey} {amount : Int}
    {o : Recapitalize.Outcome}
    (h : Recapitalize.accounting stored timestamp hubAsset amount = .ok o) :
    o.refund = amount - o.actualAmount ∧ ∃ m, stored = some m ∧
      o.cache.params.assetId = m.params.assetId ∧ Moves m o.cache.commit 0 0 o.actualAmount := by
  obtain ⟨c, s, hc, -, -, -, hrefund, -, hcache⟩ := Recapitalize.accounting_ok h
  obtain ⟨m, hm, hsync⟩ := syncedMarket_moves hc
  rw [hcache]
  refine ⟨hrefund, m, hm, hsync.assetId, hsync.of_still ?_⟩
  exact ⟨rfl, rfl, by simp [PoolSyncData.netSupply, Cache.commit], by simp [Cache.commit], rfl⟩

/-- What a seizure takes out of the suppliers' and the debtors' shares. -/
def PoolSeizeEntry.supplyDelta (e : PoolSeizeEntry) : Int :=
  match e.side with
  | .deposit => -e.position.scaledAmount
  | .borrow => 0

def PoolSeizeEntry.debtDelta (e : PoolSeizeEntry) : Int :=
  match e.side with
  | .deposit => 0
  | .borrow => -e.position.scaledAmount

theorem Seize.apply_moves {entry : PoolSeizeEntry}
    (h : Seize.apply stored timestamp entry = .ok c') :
    ∃ m, stored = some m ∧ Moves m c'.commit entry.supplyDelta entry.debtDelta 0 := by
  obtain ⟨c, hc, -, ⟨hside, -, badDebt, c1, -, hw, rfl⟩ | ⟨hside, -, rfl⟩⟩ := Seize.apply_ok h
  · obtain ⟨m, hm, hsync⟩ := syncedMarket_moves hc
    refine ⟨m, hm, hsync.of_still ?_⟩
    rw [PoolSeizeEntry.supplyDelta, PoolSeizeEntry.debtDelta, hside]
    rcases Interest.applyBadDebtToSupplyIndex_ok hw with ⟨-, rfl⟩ | ⟨index, -, rfl⟩
    · exact ⟨rfl, rfl, by simp [PoolSyncData.netSupply, Cache.commit], rfl, by simp [Cache.commit]⟩
    · exact ⟨rfl, rfl, by simp [PoolSyncData.netSupply, Cache.commit], rfl, by simp [Cache.commit]⟩
  · obtain ⟨m, hm, hsync⟩ := syncedMarket_moves hc
    refine ⟨m, hm, hsync.of_still ?_⟩
    rw [PoolSeizeEntry.supplyDelta, PoolSeizeEntry.debtDelta, hside]
    refine ⟨rfl, rfl, ?_, by simp [Cache.commit], by simp [Cache.commit]⟩
    simp only [PoolSyncData.netSupply, Cache.commit]
    omega

end

/-! ## One market of the pool -/

section
variable {W : Type} {h : PoolHost W} {timestamp : Nat}

namespace PoolCtx

/-- One operation ran on one market of the pool and moved its books; no other market changed. -/
def Moved (timestamp : Nat) (s s' : PoolCtx W) (key : HubAssetKey) (supply debt cash : Int) :
    Prop :=
  ∃ m m' op, s.markets.get? key = some m ∧ MarketOp.apply key m timestamp op = .ok m' ∧
    Moves m m' supply debt cash ∧ s'.markets = s.markets.set key m'

/-- The pool paid `amount` of the market's asset. -/
def Pays (h : PoolHost W) (s s' : PoolCtx W) (key : HubAssetKey) (recipient : Address)
    (amount : Int) : Prop :=
  ∃ m c, s.markets.get? key = some m ∧ c.params.assetId = m.params.assetId ∧
    Cache.transferOut h c s.world recipient amount = .ok s'.world

end PoolCtx

open PoolCtx

variable {s s' : PoolCtx W} {action : PoolAction} {key : HubAssetKey}

theorem Supply.leg_moved {r : PoolPositionMutation}
    (hleg : Supply.leg timestamp s action = .ok (s', r)) :
    Moved timestamp s s' action.hubAsset
      (r.position.scaledAmount - action.position.scaledAmount) 0 action.amount ∧
      s'.world = s.world := by
  unfold Supply.leg at hleg
  simp only [Fallible.bind_ok_iff, Fallible.pure_ok_iff, Prod.mk.injEq] at hleg
  obtain ⟨⟨cache, mutation⟩, happly, rfl, rfl⟩ := hleg
  obtain ⟨-, m, hget, hm⟩ := Supply.apply_moves happly
  rw [hget] at happly
  refine ⟨⟨m, _, .supply action.position.scaledAmount action.amount, hget, ?_, hm, rfl⟩, rfl⟩
  exact Fallible.bind_ok_iff.mpr ⟨_, happly, rfl⟩

theorem Borrow.apply_moved {receiver : Address} {r : PoolPositionMutation}
    (hleg : Borrow.apply h timestamp receiver s action = .ok (s', r)) :
    Moved timestamp s s' action.hubAsset 0
      (r.position.scaledAmount - action.position.scaledAmount) (-action.amount) ∧
      Pays h s s' action.hubAsset receiver action.amount := by
  unfold Borrow.apply at hleg
  simp only [Fallible.bind_ok_iff, Fallible.pure_ok_iff, Prod.mk.injEq] at hleg
  obtain ⟨o, hacc, world, hpay, rfl, rfl⟩ := hleg
  obtain ⟨hamount, m, hget, hasset, hm⟩ := Borrow.accounting_moves hacc
  rw [hamount] at hpay
  rw [hget] at hacc
  refine ⟨⟨m, _, .borrow action.position.scaledAmount action.amount, hget, ?_, hm, rfl⟩,
    m, o.cache, hget, hasset, hpay⟩
  exact Fallible.bind_ok_iff.mpr ⟨o, hacc, rfl⟩

/-- A withdrawal pays its net amount, or tries an empty transfer. -/
theorem Withdraw.apply_moved {receiver : Address} {liq : Bool} {entry : PoolWithdrawEntry}
    {r : PoolPositionMutation}
    (hleg : Withdraw.apply h timestamp receiver liq s entry = .ok (s', r)) :
    ∃ net, Moved timestamp s s' entry.action.hubAsset
        (r.position.scaledAmount - entry.action.position.scaledAmount) 0 (-net) ∧
      (Pays h s s' entry.action.hubAsset receiver net ∨
        net = 0 ∧ ∃ asset, s'.world = h.tryTransfer s.world asset h.pool receiver 0) := by
  unfold Withdraw.apply at hleg
  obtain ⟨o, hacc, hleg⟩ := Fallible.bind_ok hleg
  obtain ⟨m, hget, hasset, hm⟩ := Withdraw.accounting_moves hacc
  rw [hget] at hacc
  have hop : MarketOp.apply entry.action.hubAsset m timestamp (.withdraw liq
      entry.action.position.scaledAmount entry.action.amount entry.protocolFee) =
      .ok o.cache.commit := Fallible.bind_ok_iff.mpr ⟨o, hacc, rfl⟩
  refine ⟨o.netTransfer, ?_⟩
  split at hleg
  · rename_i hzero
    simp only [Fallible.pure_ok_iff, Prod.mk.injEq] at hleg
    obtain ⟨rfl, rfl⟩ := hleg
    exact ⟨⟨m, _, _, hget, hop, hm, rfl⟩, .inr ⟨hzero.1, _, rfl⟩⟩
  · simp only [Fallible.bind_ok_iff, Fallible.pure_ok_iff, Prod.mk.injEq] at hleg
    obtain ⟨world, hpay, rfl, rfl⟩ := hleg
    exact ⟨⟨m, _, _, hget, hop, hm, rfl⟩, .inl ⟨m, o.cache, hget, hasset, hpay⟩⟩

/-- A repayment books what is owed and returns the rest. -/
theorem Repay.apply_moved {payer : Address} {r : PoolPositionMutation}
    (hleg : Repay.apply h timestamp payer s action = .ok (s', r)) :
    ∃ overpayment, Moved timestamp s s' action.hubAsset 0
        (r.position.scaledAmount - action.position.scaledAmount) (action.amount - overpayment) ∧
      Pays h s s' action.hubAsset payer overpayment := by
  unfold Repay.apply at hleg
  simp only [Fallible.bind_ok_iff, Fallible.pure_ok_iff, Prod.mk.injEq] at hleg
  obtain ⟨o, hacc, world, hpay, rfl, rfl⟩ := hleg
  obtain ⟨m, hget, hasset, hm⟩ := Repay.accounting_moves hacc
  rw [hget] at hacc
  refine ⟨o.overpayment, ⟨m, _, .repay action.position.scaledAmount action.amount, hget, ?_, hm,
    rfl⟩, m, o.cache, hget, hasset, hpay⟩
  exact Fallible.bind_ok_iff.mpr ⟨o, hacc, rfl⟩

theorem Seize.leg_moved {entry : PoolSeizeEntry} {r : Unit}
    (hleg : Seize.leg timestamp s entry = .ok (s', r)) :
    Moved timestamp s s' entry.hubAsset entry.supplyDelta entry.debtDelta 0 ∧
      s'.world = s.world := by
  unfold Seize.leg at hleg
  simp only [Fallible.bind_ok_iff, Fallible.pure_ok_iff, Prod.mk.injEq] at hleg
  obtain ⟨cache, happly, rfl, -⟩ := hleg
  obtain ⟨m, hget, hm⟩ := Seize.apply_moves happly
  rw [hget] at happly
  refine ⟨⟨m, _, .seize entry.side entry.position.scaledAmount, hget, ?_, hm, rfl⟩, rfl⟩
  exact Fallible.bind_ok_iff.mpr ⟨cache, happly, rfl⟩

theorem LiquidityPool.accrue_moved (hleg : LiquidityPool.accrue timestamp s key = .ok s') :
    Moved timestamp s s' key 0 0 0 ∧ s'.world = s.world := by
  unfold LiquidityPool.accrue at hleg
  simp only [Fallible.bind_ok_iff, Fallible.pure_ok_iff] at hleg
  obtain ⟨cache, hsync, rfl⟩ := hleg
  obtain ⟨m, hget, hm⟩ := syncedMarket_moves hsync
  rw [hget] at hsync
  refine ⟨⟨m, _, .updateIndexes, hget, ?_, hm, rfl⟩, rfl⟩
  exact Fallible.bind_ok_iff.mpr ⟨cache, hsync, rfl⟩

theorem LiquidityPool.updateParams_moved {model : InterestRateModel}
    (hcall : LiquidityPool.updateParams timestamp s key model = .ok s') :
    Moved timestamp s s' key 0 0 0 ∧ s'.world = s.world := by
  unfold LiquidityPool.updateParams at hcall
  simp only [Fallible.bind_ok_iff, Fallible.pure_ok_iff] at hcall
  obtain ⟨m', hreplace, rfl⟩ := hcall
  obtain ⟨c, hsync, -, rfl⟩ := MarketOps.replaceRateModel_ok hreplace
  obtain ⟨m, hget, hm⟩ := syncedMarket_moves hsync
  rw [hget] at hreplace
  exact ⟨⟨m, _, .updateParams model, hget, hreplace,
    ⟨hm.assetId, hm.assetDecimals, hm.netSupply, hm.borrowed, hm.cash⟩, rfl⟩, rfl⟩

theorem Strategy.apply_moved {receiver : Address} {charge : Bool} {r : PoolStrategyMutation}
    (hleg : Strategy.apply h timestamp receiver s action charge = .ok (s', r)) :
    Moved timestamp s s' action.hubAsset 0
      (r.position.scaledAmount - action.position.scaledAmount) (-r.amountReceived) ∧
      Pays h s s' action.hubAsset receiver r.amountReceived := by
  unfold Strategy.apply at hleg
  simp only [Fallible.bind_ok_iff, Fallible.pure_ok_iff, Prod.mk.injEq] at hleg
  obtain ⟨o, hacc, world, hpay, rfl, rfl⟩ := hleg
  obtain ⟨m, hget, hasset, hm⟩ := Strategy.accounting_moves hacc
  rw [hget] at hacc
  refine ⟨⟨m, _, .createStrategy action.position.scaledAmount action.amount charge, hget, ?_, hm,
    rfl⟩, m, o.cache, hget, hasset, hpay⟩
  exact Fallible.bind_ok_iff.mpr ⟨o, hacc, rfl⟩

theorem LiquidityPool.netSettle_moved {entry : PoolNetSettleEntry} {r : PoolNetSettleResult}
    (hcall : LiquidityPool.netSettle timestamp s entry = .ok (s', r)) :
    Moved timestamp s s' entry.hubAsset
      (r.supplyPosition.scaledAmount - entry.supplyPosition.scaledAmount)
      (r.debtPosition.scaledAmount - entry.debtPosition.scaledAmount) 0 ∧
      s'.world = s.world := by
  unfold LiquidityPool.netSettle at hcall
  simp only [Fallible.bind_ok_iff, Fallible.pure_ok_iff, Prod.mk.injEq] at hcall
  obtain ⟨⟨cache, result⟩, happly, rfl, rfl⟩ := hcall
  obtain ⟨m, hget, hm⟩ := NetSettle.apply_moves happly
  rw [hget] at happly
  refine ⟨⟨m, _, .netSettle entry.supplyPosition.scaledAmount entry.debtPosition.scaledAmount
    entry.amount, hget, ?_, hm, rfl⟩, rfl⟩
  exact Fallible.bind_ok_iff.mpr ⟨_, happly, rfl⟩

theorem Revenue.apply_moved {r : Int} (hleg : Revenue.apply h timestamp s key = .ok (s', r)) :
    Moved timestamp s s' key 0 0 (-r) ∧
      ((∃ owner, Pays h s s' key owner r) ∨ r = 0 ∧ s'.world = s.world) := by
  unfold Revenue.apply at hleg
  obtain ⟨o, hacc, hleg⟩ := Fallible.bind_ok hleg
  obtain ⟨m, hget, hasset, hm⟩ := Revenue.accounting_moves hacc
  rw [hget] at hacc
  have hop : MarketOp.apply key m timestamp .claimRevenue = .ok o.cache.commit :=
    Fallible.bind_ok_iff.mpr ⟨o, hacc, rfl⟩
  split at hleg
  · simp only [Fallible.bind_ok_iff, Fallible.pure_ok_iff, Prod.mk.injEq] at hleg
    obtain ⟨owner, -, world, hpay, rfl, rfl⟩ := hleg
    exact ⟨⟨m, _, _, hget, hop, hm, rfl⟩, .inl ⟨owner, m, o.cache, hget, hasset, hpay⟩⟩
  · rename_i hzero
    simp only [Fallible.pure_ok_iff, Prod.mk.injEq] at hleg
    obtain ⟨rfl, rfl⟩ := hleg
    exact ⟨⟨m, _, _, hget, hop, hm, rfl⟩, .inr ⟨not_not.mp hzero, rfl⟩⟩

theorem Recapitalize.apply_moved {payer : Address} {amount r : Int}
    (hleg : Recapitalize.apply h timestamp s key payer amount = .ok (s', r)) :
    Moved timestamp s s' key 0 0 r ∧ Pays h s s' key payer (amount - r) := by
  unfold Recapitalize.apply at hleg
  simp only [Fallible.bind_ok_iff, Fallible.pure_ok_iff, Prod.mk.injEq] at hleg
  obtain ⟨o, hacc, world, hpay, rfl, rfl⟩ := hleg
  obtain ⟨hrefund, m, hget, hasset, hm⟩ := Recapitalize.accounting_moves hacc
  rw [hrefund] at hpay
  rw [hget] at hacc
  refine ⟨⟨m, _, .recapitalize amount, hget, ?_, hm, rfl⟩, m, o.cache, hget, hasset, hpay⟩
  exact Fallible.bind_ok_iff.mpr ⟨o, hacc, rfl⟩

/-- **A flash loan that returns.** Whatever the receiver did, the pool ends with its starting
balance plus the fee, and exactly the fee is booked. -/
theorem Flash.apply_moved {initiator receiver : Address} {amount fee : Int} {data : List UInt8}
    (hflash : Flash.apply h timestamp s key initiator receiver amount data = .ok (s', fee)) :
    Moved timestamp s s' key 0 0 fee ∧ 0 ≤ amount ∧ ∃ m w1 w2 total,
      s.markets.get? key = some m ∧
      h.balance s'.world m.params.assetId h.pool =
        h.balance s.world m.params.assetId h.pool + fee ∧
      h.transfer s.world m.params.assetId h.pool receiver amount = .ok w1 ∧
      h.executeFlashLoan w1 receiver initiator m.params.assetId amount fee h.pool data = .ok w2 ∧
      h.transferFrom w2 m.params.assetId h.pool receiver h.pool total = .ok s'.world := by
  unfold Flash.apply at hflash
  obtain ⟨cache, hprep, hflash⟩ := Fallible.bind_ok hflash
  obtain ⟨hpos, hsync, -, -⟩ := Flash.prepare_ok hprep
  obtain ⟨m, hget, hm⟩ := syncedMarket_moves hsync
  have hasset : cache.params.assetId = m.params.assetId := hm.assetId
  unfold collectRepayment requireBalance at hflash
  simp only [Fallible.bind_ok_iff, Fallible.require_ok_iff, Fallible.pure_ok_iff, Prod.mk.injEq,
    hasset] at hflash
  obtain ⟨-, -, t, hterms, w1, hout, -, -, w2, hcall, -, -, _, ⟨-, -, w3, hin, -, hbal, rfl⟩,
    cache', hbook, rfl, rfl⟩ := hflash
  have hafter : t.balanceAfterRepayment = h.balance s.world m.params.assetId h.pool + t.fee := by
    unfold Flash.terms at hterms
    simp only [Fallible.bind_ok_iff, Fallible.orThrow_ok_iff, I128.checkedAdd_some,
      I128.checkedSub_some, Fallible.pure_ok_iff] at hterms
    obtain ⟨fee, -, _, -, _, -, _, ⟨-, rfl⟩, rfl⟩ := hterms
    rfl
  have hop : MarketOp.apply key m timestamp
      (.flashLoan amount (h.balance s.world m.params.assetId h.pool)) = .ok cache'.commit := by
    rw [hget] at hprep
    refine Fallible.bind_ok_iff.mpr ⟨(cache', t), ?_, rfl⟩
    exact Fallible.bind_ok_iff.mpr ⟨cache, hprep, Fallible.bind_ok_iff.mpr ⟨t, hterms,
      Fallible.bind_ok_iff.mpr ⟨cache', hbook, rfl⟩⟩⟩
  exact ⟨⟨m, _, _, hget, hop, hm.of_still (Flash.bookFee_moves hbook), rfl⟩, hpos.le, m, w1, w2,
    t.totalRepayment, hget, hbal.trans hafter, hout, hcall, hin⟩

end

end Lending
