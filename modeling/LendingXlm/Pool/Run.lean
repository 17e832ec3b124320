import LendingXlm.Pool.Books

/-!
# Runs of the pool

`PoolRun` is the set of runs of the whole contract: the owner's calls at non-decreasing times,
over a world that takes no tokens from the pool in between. Every call but `create_market` is a
chain of single operations on stored markets, so each market of a reachable pool is the end of a
`MarketRun`, and all that holds of those holds of it.
-/

namespace Lending

open Ops PoolCtx

variable {W : Type} {h : PoolHost W} {timestamp : Nat}

/-! ## Calls and runs -/

/-- The owner's calls. -/
inductive PoolCall where
  | createMarket (hubId : Nat) (params : MarketParams)
  | updateParams (hubAsset : HubAssetKey) (model : InterestRateModel)
  | supply (entries : List PoolAction)
  | borrow (receiver : Address) (entries : List PoolAction)
  | withdraw (receiver : Address) (isLiquidation : Bool) (entries : List PoolWithdrawEntry)
  | repay (payer : Address) (actions : List PoolAction)
  | updateIndexes (hubAssets : List HubAssetKey)
  | recapitalize (hubAsset : HubAssetKey) (payer : Address) (amount : Int)
  | flashLoan (hubAsset : HubAssetKey) (initiator receiver : Address) (amount : Int)
      (data : List UInt8)
  | createStrategy (receiver : Address) (action : PoolAction) (chargeFee : Bool)
  | seizePositions (entries : List PoolSeizeEntry)
  | netSettle (entry : PoolNetSettleEntry)
  | claimRevenue (hubAsset : HubAssetKey)

namespace PoolCall

/-- The pool after a call. -/
def exec (h : PoolHost W) (timestamp : Nat) (s : PoolCtx W) : PoolCall → Result (PoolCtx W)
  | createMarket hubId params => LiquidityPool.createMarket timestamp s hubId params
  | updateParams hubAsset model => LiquidityPool.updateParams timestamp s hubAsset model
  | supply entries => Prod.fst <$> LiquidityPool.supply timestamp s entries
  | borrow receiver entries => Prod.fst <$> LiquidityPool.borrow h timestamp s receiver entries
  | withdraw receiver isLiquidation entries =>
    Prod.fst <$> LiquidityPool.withdraw h timestamp s receiver isLiquidation entries
  | repay payer actions => Prod.fst <$> LiquidityPool.repay h timestamp s payer actions
  | updateIndexes hubAssets => LiquidityPool.updateIndexes timestamp s hubAssets
  | recapitalize hubAsset payer amount =>
    Prod.fst <$> LiquidityPool.recapitalize h timestamp s hubAsset payer amount
  | flashLoan hubAsset initiator receiver amount data =>
    Prod.fst <$> LiquidityPool.flashLoan h timestamp s hubAsset initiator receiver amount data
  | createStrategy receiver action chargeFee =>
    Prod.fst <$> LiquidityPool.createStrategy h timestamp s receiver action chargeFee
  | seizePositions entries => LiquidityPool.seizePositions timestamp s entries
  | netSettle entry => Prod.fst <$> LiquidityPool.netSettle timestamp s entry
  | claimRevenue hubAsset => Prod.fst <$> LiquidityPool.claimRevenue h timestamp s hubAsset

/-- What the owner has delivered before a call, by asset. -/
def incoming : PoolCall → List (Address × Int)
  | supply entries => entries.map fun a => (a.hubAsset.asset, a.amount)
  | repay _ actions => actions.map fun a => (a.hubAsset.asset, a.amount)
  | recapitalize hubAsset _ amount => [(hubAsset.asset, amount)]
  | _ => []

end PoolCall

/-- Measured pulls into the pool: each listed amount is what `transfer_amount_measured` returned
for some payer and some requested amount. -/
inductive Pulled (h : PoolHost W) : W → List (Address × Int) → W → Prop
  | nil (w : W) : Pulled h w [] w
  | cons {w w1 w2 : W} {asset : Address} {received : Int} {rest : List (Address × Int)}
      (sender : Address) (amount : Int) (e : Error)
      (hpull : h.transferAmountMeasured w asset sender h.pool amount e = .ok (w1, received))
      (hrest : Pulled h w1 rest w2) : Pulled h w ((asset, received) :: rest) w2

/-- The runs of the pool: deployed without markets, called by its owner at non-decreasing times
after the measured pulls of the call, in a world that takes nothing from it in between. -/
inductive PoolRun (h : PoolHost W) : PoolCtx W → Nat → Prop
  | deploy (w : W) (timestamp : Nat) : PoolRun h ⟨.empty, w⟩ timestamp
  | call {s s' : PoolCtx W} {w : W} {timestamp timestamp' : Nat} (call : PoolCall)
      (hrun : PoolRun h s timestamp) (hle : timestamp ≤ timestamp')
      (hpull : Pulled h s.world call.incoming w)
      (hexec : call.exec h timestamp' { s with world := w } = .ok s') : PoolRun h s' timestamp'
  | outside {s : PoolCtx W} {w : W} {timestamp : Nat} (hrun : PoolRun h s timestamp)
      (hkeep : ∀ token, h.balance s.world token h.pool ≤ h.balance w token h.pool) :
      PoolRun h { s with world := w } timestamp

/-! ## Calls as chains of operations -/

/-- One operation on one stored market. -/
def MarketsStep (timestamp : Nat) (a b : SortedMap HubAssetKey PoolSyncData) : Prop :=
  ∃ key m m' op, a.get? key = some m ∧ MarketOp.apply key m timestamp op = .ok m' ∧
    b = a.set key m'

/-- Any number of operations at one ledger time. -/
abbrev MarketsSteps (timestamp : Nat) := Relation.ReflTransGen (MarketsStep timestamp)

theorem PoolCtx.Moved.step {s s' : PoolCtx W} {key : HubAssetKey} {supply debt cash : Int}
    (hm : Moved timestamp s s' key supply debt cash) :
    MarketsStep timestamp s.markets s'.markets := by
  obtain ⟨m, m', op, hget, hop, -, hset⟩ := hm
  exact ⟨key, m, m', op, hget, hop, hset⟩

/-- A batch of operations is a chain of them. -/
theorem Ops.runBatch_steps {E R : Type} {market : E → HubAssetKey} {unique : Bool}
    {leg : PoolCtx W → E → Result (PoolCtx W × R)}
    (hleg : ∀ {s s' e r}, leg s e = .ok (s', r) → MarketsStep timestamp s.markets s'.markets)
    {entries : List E} {seen : List HubAssetKey} {s s' : PoolCtx W} {rs : List R}
    (hrun : runBatch market unique leg seen s entries = .ok (s', rs)) :
    MarketsSteps timestamp s.markets s'.markets :=
  runBatch_inv (P := fun d => MarketsSteps timestamp s.markets d.markets)
    (fun hd hstep => hd.tail (hleg hstep)) .refl hrun

/-- **What a call does to the markets.** It creates one, or runs operations on stored ones. -/
theorem PoolCall.exec_steps {s s' : PoolCtx W} {call : PoolCall}
    (hexec : call.exec h timestamp s = .ok s') :
    (∃ hubId params m, s.markets.get? ⟨hubId, params.assetId⟩ = none ∧
      MarketOps.create none timestamp params = .ok m ∧
      s'.markets = s.markets.set ⟨hubId, params.assetId⟩ m) ∨
    MarketsSteps timestamp s.markets s'.markets := by
  cases call with
  | createMarket hubId params =>
    unfold exec LiquidityPool.createMarket at hexec
    simp only [Fallible.bind_ok_iff, Fallible.pure_ok_iff] at hexec
    obtain ⟨m, hcreate, rfl⟩ := hexec
    have hnone := (MarketOps.create_ok hcreate).2.1
    rw [hnone] at hcreate
    exact .inl ⟨hubId, params, m, hnone, hcreate, rfl⟩
  | updateParams key model =>
    exact .inr (.single (LiquidityPool.updateParams_moved hexec).1.step)
  | supply entries =>
    obtain ⟨⟨s1, rs⟩, hbatch, rfl⟩ := Fallible.map_ok_iff.mp hexec
    exact .inr (runBatch_steps (fun hleg => (Supply.leg_moved hleg).1.step) hbatch)
  | borrow receiver entries =>
    obtain ⟨⟨s1, rs⟩, hbatch, rfl⟩ := Fallible.map_ok_iff.mp hexec
    exact .inr (runBatch_steps (fun hleg => (Borrow.apply_moved hleg).1.step) hbatch)
  | withdraw receiver liq entries =>
    obtain ⟨⟨s1, rs⟩, hbatch, rfl⟩ := Fallible.map_ok_iff.mp hexec
    refine .inr (runBatch_steps (fun hleg => ?_) hbatch)
    obtain ⟨net, hm, -⟩ := Withdraw.apply_moved hleg
    exact hm.step
  | repay payer actions =>
    obtain ⟨⟨s1, rs⟩, hbatch, rfl⟩ := Fallible.map_ok_iff.mp hexec
    refine .inr (runBatch_steps (fun hleg => ?_) hbatch)
    obtain ⟨overpayment, hm, -⟩ := Repay.apply_moved hleg
    exact hm.step
  | updateIndexes keys =>
    exact .inr (Fallible.foldlM_inv (P := fun d => MarketsSteps timestamp s.markets d.markets)
      (fun _ _ _ _ hd hstep => hd.tail (LiquidityPool.accrue_moved hstep).1.step) .refl hexec)
  | recapitalize key payer amount =>
    obtain ⟨⟨s1, r⟩, happly, rfl⟩ := Fallible.map_ok_iff.mp hexec
    exact .inr (.single (Recapitalize.apply_moved happly).1.step)
  | flashLoan key initiator receiver amount data =>
    obtain ⟨⟨s1, r⟩, happly, rfl⟩ := Fallible.map_ok_iff.mp hexec
    exact .inr (.single (Flash.apply_moved happly).1.step)
  | createStrategy receiver action charge =>
    obtain ⟨⟨s1, r⟩, happly, rfl⟩ := Fallible.map_ok_iff.mp hexec
    exact .inr (.single (Strategy.apply_moved happly).1.step)
  | seizePositions entries =>
    unfold exec LiquidityPool.seizePositions at hexec
    simp only [Fallible.bind_ok_iff, Fallible.pure_ok_iff] at hexec
    obtain ⟨⟨s1, rs⟩, hbatch, rfl⟩ := hexec
    exact .inr (runBatch_steps (fun hleg => (Seize.leg_moved hleg).1.step) hbatch)
  | netSettle entry =>
    obtain ⟨⟨s1, r⟩, happly, rfl⟩ := Fallible.map_ok_iff.mp hexec
    exact .inr (.single (LiquidityPool.netSettle_moved happly).1.step)
  | claimRevenue key =>
    obtain ⟨⟨s1, r⟩, happly, rfl⟩ := Fallible.map_ok_iff.mp hexec
    exact .inr (.single (Revenue.apply_moved happly).1.step)

/-! ## Markets of a reachable pool -/

/-- Every stored market is the end of a run no later than `timestamp`. -/
def MarketsRun (timestamp : Nat) (a : SortedMap HubAssetKey PoolSyncData) : Prop :=
  ∀ key m, a.get? key = some m → ∃ t ≤ timestamp, ∃ trace, MarketRun key m t trace

theorem MarketsRun.mono {a : SortedMap HubAssetKey PoolSyncData} {t t' : Nat} (hle : t ≤ t')
    (ha : MarketsRun t a) : MarketsRun t' a := by
  intro key m hget
  obtain ⟨u, hu, hrun⟩ := ha key m hget
  exact ⟨u, hu.trans hle, hrun⟩

theorem MarketsRun.set {a : SortedMap HubAssetKey PoolSyncData} {key : HubAssetKey}
    {m : PoolSyncData} {trace : List MarketStep} (ha : MarketsRun timestamp a)
    (hm : MarketRun key m timestamp trace) : MarketsRun timestamp (a.set key m) := by
  intro key' d hd
  rw [SortedMap.get?_set] at hd
  split at hd
  · rename_i heq
    cases hd
    exact ⟨timestamp, le_rfl, trace, heq ▸ hm⟩
  · exact ha key' d hd

theorem MarketsRun.steps {a b : SortedMap HubAssetKey PoolSyncData}
    (ha : MarketsRun timestamp a) (hsteps : MarketsSteps timestamp a b) :
    MarketsRun timestamp b := by
  induction hsteps with
  | refl => exact ha
  | tail hab hstep ih =>
    obtain ⟨key, m, m', op, hget, hop, rfl⟩ := hstep
    obtain ⟨t, ht, trace, hrun⟩ := ih key m hget
    exact ih.set (hrun.step ht hop)

/-- A call that returns keeps that. -/
theorem PoolCall.exec_markets {s s' : PoolCtx W} {call : PoolCall}
    (hexec : call.exec h timestamp s = .ok s') (hrun : MarketsRun timestamp s.markets) :
    MarketsRun timestamp s'.markets := by
  rcases call.exec_steps hexec with ⟨hubId, params, m, -, hcreate, hset⟩ | hsteps
  · rw [hset]
    exact hrun.set (.create params rfl hcreate)
  · exact hrun.steps hsteps

/-- **Every market of a reachable pool comes from a run of its own.** -/
theorem PoolRun.markets {s : PoolCtx W} (hrun : PoolRun h s timestamp) :
    MarketsRun timestamp s.markets := by
  induction hrun with
  | deploy w timestamp =>
    intro key m hget
    cases hget
  | call call hrun hle hpull hexec ih => exact PoolCall.exec_markets hexec (ih.mono hle)
  | outside hrun hkeep ih => exact ih

/-! ## Logs

`MarketsRun` is a proposition, so the operations on a market cannot be read off it. A logged run
carries them; every run is logged (`PoolCall.exec_logged`), and a log is a run of its market
(`Logs.steps`). -/

/-- The operations on each market, latest first. -/
abbrev MarketLog := HubAssetKey → List MarketStep

/-- A market is created, or an operation on one is logged. -/
inductive LogStep (timestamp : Nat) : SortedMap HubAssetKey PoolSyncData × MarketLog →
    SortedMap HubAssetKey PoolSyncData × MarketLog → Prop
  | create {a : SortedMap HubAssetKey PoolSyncData} {log : MarketLog} {m : PoolSyncData}
      (hubId : Nat) (params : MarketParams) (hnone : a.get? ⟨hubId, params.assetId⟩ = none)
      (hcreate : MarketOps.create none timestamp params = .ok m) :
      LogStep timestamp (a, log) (a.set ⟨hubId, params.assetId⟩ m, log)
  | op {a : SortedMap HubAssetKey PoolSyncData} {log : MarketLog} {key : HubAssetKey}
      {m m' : PoolSyncData} {op : MarketOp} (hget : a.get? key = some m)
      (happly : op.apply key m timestamp = .ok m') :
      LogStep timestamp (a, log)
        (a.set key m', Function.update log key (⟨m, timestamp, op⟩ :: log key))

abbrev LogSteps (timestamp : Nat) := Relation.ReflTransGen (LogStep timestamp)

theorem MarketsSteps.logged {a b : SortedMap HubAssetKey PoolSyncData}
    (hsteps : MarketsSteps timestamp a b) (log : MarketLog) :
    ∃ log', LogSteps timestamp (a, log) (b, log') := by
  induction hsteps with
  | refl => exact ⟨log, .refl⟩
  | tail _ hstep ih =>
    obtain ⟨log', hlog⟩ := ih
    obtain ⟨key, m, m', op, hget, happly, rfl⟩ := hstep
    exact ⟨_, hlog.tail (.op hget happly)⟩

/-- Every call that returns can be logged. -/
theorem PoolCall.exec_logged {s s' : PoolCtx W} {call : PoolCall}
    (hexec : call.exec h timestamp s = .ok s') (log : MarketLog) :
    ∃ log', LogSteps timestamp (s.markets, log) (s'.markets, log') := by
  rcases call.exec_steps hexec with ⟨hubId, params, m, hnone, hcreate, hset⟩ | hsteps
  · rw [hset]
    exact ⟨log, .single (.create hubId params hnone hcreate)⟩
  · exact hsteps.logged log

/-- `log` has for every market the run it comes from, and nothing for any other key. -/
structure Logs (timestamp : Nat) (a : SortedMap HubAssetKey PoolSyncData) (log : MarketLog) :
    Prop where
  fresh : ∀ key, a.get? key = none → log key = []
  run : ∀ key m, a.get? key = some m → ∃ t ≤ timestamp, MarketRun key m t (log key)

theorem Logs.mono {a : SortedMap HubAssetKey PoolSyncData} {log : MarketLog} {t t' : Nat}
    (hlog : Logs t a log) (hle : t ≤ t') : Logs t' a log where
  fresh := hlog.fresh
  run key m hget := by
    obtain ⟨u, hu, hrun⟩ := hlog.run key m hget
    exact ⟨u, hu.trans hle, hrun⟩

theorem Logs.step {a b : SortedMap HubAssetKey PoolSyncData} {log log' : MarketLog}
    (hlog : Logs timestamp a log) (hstep : LogStep timestamp (a, log) (b, log')) :
    Logs timestamp b log' := by
  cases hstep with
  | create hubId params hnone hcreate =>
    refine ⟨fun key hget => hlog.fresh key ?_, fun key m hget => ?_⟩
    · rw [SortedMap.get?_set] at hget
      split at hget
      · cases hget
      · exact hget
    · rw [SortedMap.get?_set] at hget
      split at hget
      · rename_i heq
        cases hget
        subst heq
        rw [hlog.fresh _ hnone]
        exact ⟨timestamp, le_rfl, .create params rfl hcreate⟩
      · exact hlog.run key m hget
  | @op _ _ key₀ m₀ m₁ op hget₀ happly =>
    refine ⟨fun key hget => ?_, fun key m hget => ?_⟩
    · rw [SortedMap.get?_set] at hget
      split at hget
      · cases hget
      · rename_i hne
        rw [Function.update_of_ne hne]
        exact hlog.fresh key hget
    · rw [SortedMap.get?_set] at hget
      split at hget
      · rename_i heq
        cases hget
        subst heq
        obtain ⟨t, ht, hrun⟩ := hlog.run key m₀ hget₀
        rw [Function.update_self]
        exact ⟨timestamp, le_rfl, hrun.step ht happly⟩
      · rename_i hne
        rw [Function.update_of_ne hne]
        exact hlog.run key m hget

theorem Logs.steps {a b : SortedMap HubAssetKey PoolSyncData} {log log' : MarketLog}
    (hlog : Logs timestamp a log) (hsteps : LogSteps timestamp (a, log) (b, log')) :
    Logs timestamp b log' := by
  have hinv : ∀ x, LogSteps timestamp (a, log) x → Logs timestamp x.1 x.2 := by
    intro x hx
    induction hx with
    | refl => exact hlog
    | tail _ hstep ih => exact ih.step hstep
  exact hinv _ hsteps

/-- A market keeps the asset it was created for. -/
theorem MarketRun.assetId {key : HubAssetKey} {m : PoolSyncData} {trace : List MarketStep}
    (hrun : MarketRun key m timestamp trace) : m.params.assetId = key.asset := by
  induction hrun with
  | create params hasset hcreate =>
    obtain ⟨-, -, now, -, rfl⟩ := MarketOps.create_ok hcreate
    exact hasset.symm
  | @step m m' t t' trace op hrun hle happly ih =>
    obtain ⟨c, hsync, ⟨-, c', -, -, -, hasset, -⟩ | ⟨position, -, hdown⟩⟩ :=
      MarketOp.apply_cases hrun.sound.1 happly
    · obtain ⟨d, hd, hm⟩ := syncedMarket_moves hsync
      cases hd
      exact (hasset.trans hm.assetId).trans ih
    · obtain ⟨d, hd, hm⟩ := syncedMarket_moves hsync
      cases hd
      obtain ⟨-, -, badDebt, c1, -, hw, rfl⟩ := hdown
      have hc1 : c1.params = c.params := by
        rcases Interest.applyBadDebtToSupplyIndex_ok hw with ⟨-, rfl⟩ | ⟨index, -, rfl⟩ <;> rfl
      exact (congrArg MarketParams.assetId hc1).trans (hm.assetId.trans ih)

end Lending
