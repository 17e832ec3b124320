import LendingXlm.Controller.Acts
import LendingXlm.Controller.Conservation
import LendingXlm.Pool.Custody
import LendingXlm.Pool.Solvency

/-!
# The controller as the owner of the pool

The pool books what its owner says it has delivered, so its custody is a contract between the
two. Here the controller is shown to keep its side.

* `ControllerHost.Custodial`: what is assumed of everything a call lets run;
* `Act.poolRun`: an act of the controller is a call of the pool on what was just pulled for it, or
  takes nothing from the pool;
* `CustodialSteps.poolRun`: so every run of the controller is a run of the pool, and
  `controller_custody` holds of it;
* `CustodialLog`: a run with the operations on each market;
* `System.Reachable.claims_le`: what the accounts can claim of a market is covered by what they owe
  it and its cash, up to its roundings.
-/

namespace Lending

open Transaction Ctrl Invocation

variable {W : Type} {h : ControllerHost W} {timestamp : Nat}
  {signer grantor : Option Address}

/-! ## What is assumed outside -/

/-- `w'` has of each token at least what `w` has in the pool. -/
def ControllerHost.PoolKept (h : ControllerHost W) (w w' : W) : Prop :=
  ∀ token, h.balance w token h.pool ≤ h.balance w' token h.pool

/-- Nobody but the pool lowers its balances: tokens conform, and neither the router nor a receiver
nor Blend nor the account tokens take any. -/
structure ControllerHost.Custodial (h : ControllerHost W) : Prop where
  conforming : h.toPoolHost.Conforming
  apart : h.controller ≠ h.pool
  transfer : ∀ {w w' asset sender recipient amount}, sender ≠ h.pool →
    h.transfer w asset sender recipient amount = .ok w' → h.PoolKept w w'
  router : ∀ {w w' router sender amountIn swap},
    h.executeStrategy w router sender amountIn swap = .ok w' → h.PoolKept w w'
  receiver : ∀ {w w' receiver initiator accountId asset amount fee received data},
    h.executeFlashPosition w receiver initiator accountId asset amount fee received h.controller
      data = .ok w' → h.PoolKept w w'
  blend : ∀ {w w' blendPool holder requests},
    h.blendSubmit w blendPool holder h.controller h.controller requests = .ok w' → h.PoolKept w w'
  assign : ∀ w id owner, h.PoolKept w (h.nftAssign w id owner)
  release : ∀ w id, h.PoolKept w (h.nftRelease w id)

/-! ## Refinement -/

/-- Time passes between calls. -/
theorem PoolRun.later {ph : PoolHost W} {s : PoolCtx W} {timestamp' : Nat}
    (hrun : PoolRun ph s timestamp) (hle : timestamp ≤ timestamp') : PoolRun ph s timestamp' :=
  .call (.updateIndexes []) hrun hle (.nil _) rfl

/-- **An act** is a step of the pool, or none. -/
theorem Act.poolRun {s s' : System W} (hh : h.Custodial) (hsigner : signer ≠ some h.pool)
    (hact : Act h timestamp signer grantor s s') (hrun : PoolRun h.toPoolHost s.pool timestamp) :
    PoolRun h.toPoolHost s'.pool timestamp := by
  cases hact with
  | write | grant | flag | forget => exact hrun
  | pool call hpull hexec => exact .call call hrun le_rfl hpull hexec
  | @pay _ _ sender _ _ hsender hmove =>
    refine .outside hrun (hh.transfer ?_ hmove)
    rcases hsender with rfl | hsender
    · exact hh.apart
    · rintro rfl
      exact hsigner hsender
  | route hrun' => exact .outside hrun (hh.router hrun')
  | receive hrun' => exact .outside hrun (hh.receiver hrun')
  | blend hrun' => exact .outside hrun (hh.blend hrun')
  | mint owner => exact .outside hrun (hh.assign _ _ _)
  | burn accountId => exact .outside hrun (hh.release _ _)

theorem Acts.poolRun {s s' : System W} (hh : h.Custodial) (hsigner : signer ≠ some h.pool)
    (hacts : Acts h timestamp signer grantor s s') (hrun : PoolRun h.toPoolHost s.pool timestamp) :
    PoolRun h.toPoolHost s'.pool timestamp := by
  induction hacts with
  | refl => exact hrun
  | tail _ hact ih => exact hact.poolRun hh hsigner ih

theorem Acts.logged {s s' : System W} (hacts : Acts h timestamp signer grantor s s')
    (log : MarketLog) :
    ∃ log', LogSteps timestamp (s.pool.markets, log) (s'.pool.markets, log') := by
  induction hacts with
  | refl => exact ⟨log, .refl⟩
  | tail _ hact ih =>
    obtain ⟨log', hlog⟩ := ih
    cases hact with
    | pool call hpull hexec =>
      obtain ⟨log'', hcall⟩ := call.exec_logged hexec log'
      exact ⟨log'', hlog.trans hcall⟩
    | _ => exact ⟨log', hlog⟩

/-- A step in which the pool signs nothing, and nothing outside takes its tokens. -/
inductive CustodialStep (h : ControllerHost W) : System W × Nat → System W × Nat → Prop
  | call {s s' : System W} {timestamp timestamp' : Nat} (call : ControllerCall)
      (hsigns : call.signatory ≠ some h.pool) (hle : timestamp ≤ timestamp')
      (hexec : call.exec h timestamp' s = .ok s') :
      CustodialStep h (s, timestamp) (s', timestamp')
  | outside {s : System W} {timestamp : Nat} (w : W) (hkeep : h.PoolKept s.pool.world w) :
      CustodialStep h (s, timestamp) ({ s with pool.world := w }, timestamp)

abbrev CustodialSteps (h : ControllerHost W) := Relation.ReflTransGen (CustodialStep h)

/-- A run from deployment with the log of its markets: each call adds the operations it ran. -/
inductive CustodialLog (h : ControllerHost W) : System W × Nat → MarketLog → Prop
  | deployed (w : W) (timestamp : Nat) : CustodialLog h (.deployed w, timestamp) fun _ => []
  | call {s s' : System W} {timestamp timestamp' : Nat} {log log' : MarketLog}
      (call : ControllerCall) (hrun : CustodialLog h (s, timestamp) log)
      (hsigns : call.signatory ≠ some h.pool) (hle : timestamp ≤ timestamp')
      (hexec : call.exec h timestamp' s = .ok s')
      (hlog : LogSteps timestamp' (s.pool.markets, log) (s'.pool.markets, log')) :
      CustodialLog h (s', timestamp') log'
  | outside {s : System W} {timestamp : Nat} {log : MarketLog} (w : W)
      (hrun : CustodialLog h (s, timestamp) log) (hkeep : h.PoolKept s.pool.world w) :
      CustodialLog h ({ s with pool.world := w }, timestamp) log

section Runs

variable {p p' : System W × Nat}

/-- Every run is logged. -/
theorem CustodialSteps.logged {w : W} {t₀ : Nat} (hrun : CustodialSteps h (.deployed w, t₀) p) :
    ∃ log, CustodialLog h p log := by
  induction hrun with
  | refl => exact ⟨_, .deployed w t₀⟩
  | tail _ hstep ih =>
    obtain ⟨log, hlogged⟩ := ih
    cases hstep with
    | call call hsigns hle hexec =>
      obtain ⟨log', hlog⟩ := (ControllerCall.exec_acts hexec).logged log
      exact ⟨log', .call call hlogged hsigns hle hexec hlog⟩
    | outside w hkeep => exact ⟨log, .outside w hlogged hkeep⟩

/-- A log is a run of each of its markets. -/
theorem CustodialLog.logs {log : MarketLog} (hrun : CustodialLog h p log) :
    Logs p.2 p.1.pool.markets log := by
  induction hrun with
  | deployed w timestamp => exact ⟨fun _ _ => rfl, fun key m hget => by cases hget⟩
  | call call hrun hsigns hle hexec hlog ih => exact (ih.mono hle).steps hlog
  | outside w hrun hkeep ih => exact ih

theorem CustodialStep.poolRun (hh : h.Custodial) (hstep : CustodialStep h p p')
    (hrun : PoolRun h.toPoolHost p.1.pool p.2) : PoolRun h.toPoolHost p'.1.pool p'.2 := by
  cases hstep with
  | call call hsigns hle hexec =>
    exact (ControllerCall.exec_acts hexec).poolRun hh hsigns (hrun.later hle)
  | outside w hkeep => exact .outside hrun hkeep

/-- **Every run of the controller is a run of the pool.** -/
theorem CustodialSteps.poolRun {w : W} {t₀ : Nat} (hh : h.Custodial)
    (hrun : CustodialSteps h (.deployed w, t₀) p) : PoolRun h.toPoolHost p.1.pool p.2 := by
  induction hrun with
  | refl => exact .deploy w t₀
  | tail _ hstep ih => exact hstep.poolRun hh ih

theorem CustodialSteps.controller (hrun : CustodialSteps h p p') : ControllerSteps h p p' :=
  Relation.ReflTransGen.mono (fun _ _ hstep => by
    cases hstep with
    | call call _ hle hexec => exact .call call hle hexec
    | outside w _ => exact .outside w) _ _ hrun

/-- What the accounts could claim of a market is covered by what they owe it and its cash, up to
the rounding of its accruals and write-downs. -/
theorem System.Reachable.claims_le {s : System W} (hs : s.Reachable h) {market : HubAssetKey}
    {m : PoolSyncData} {trace : List MarketStep} (hget : s.pool.markets.get? market = some m)
    (hmarket : MarketRun market m timestamp trace)
    (hclamp : ∀ step ∈ trace, step.hitsFloorClamp market = false) :
    s.store.totalShares .supply market * m.state.supplyIndex ≤
      s.store.totalShares .borrow market * m.state.borrowIndex +
        (m.state.cash * assetUnit m.params.assetDecimals +
          (2 * accrualChunks trace + seizeBorrows trace : Nat)) * ray := by
  have hgap := hmarket.gap_le hclamp
  have hbounds := hmarket.sound.1.state
  have hrevenue : 0 ≤ m.state.revenue * m.state.supplyIndex :=
    mul_nonneg hbounds.revenue_nonneg hbounds.supplyIndex_pos.le
  have hsupply : s.store.totalShares .supply market = m.state.supplied - m.state.revenue := by
    rw [hs.totalShares, hget]
    rfl
  have hborrow : s.store.totalShares .borrow market = m.state.borrowed := by
    rw [hs.totalShares, hget]
    rfl
  unfold PoolSyncData.gapRaw at hgap
  rw [hsupply, hborrow, sub_mul, add_mul]
  linarith

/-- **Custody.** Whatever is called, in whatever order and by whomever, the controller delivers
what it has the pool book. The pool is run as its own contract asks, and of each token it holds
at least the cash all its markets track. The run can be logged, and its log is the run of every
market. So what the accounts could claim of a market is covered by what they owe and by tokens that
are there, unless its index was ever clamped at the floor in the run. -/
theorem controller_custody {w : W} {t₀ : Nat} (hh : h.Custodial)
    (hrun : CustodialSteps h (.deployed w, t₀) p) :
    PoolRun h.toPoolHost p.1.pool p.2 ∧
      (∀ token, p.1.pool.cashOf token ≤ h.balance p.1.pool.world token h.pool) ∧
      (∃ log, CustodialLog h p log) ∧
      ∀ log, CustodialLog h p log → ∀ market m, p.1.pool.markets.get? market = some m →
        (∃ t ≤ p.2, MarketRun market m t (log market)) ∧
        ((∀ step ∈ log market, step.hitsFloorClamp market = false) →
          p.1.store.totalShares .supply market * m.state.supplyIndex ≤
            p.1.store.totalShares .borrow market * m.state.borrowIndex +
              (m.state.cash * assetUnit m.params.assetDecimals +
                (2 * accrualChunks (log market) + seizeBorrows (log market) : Nat)) * ray) := by
  have hpool := CustodialSteps.poolRun hh hrun
  refine ⟨hpool, fun token => ?_, CustodialSteps.logged hrun, fun log hlog market m hget => ?_⟩
  · have hbacked := (hpool.custody hh.conforming).backed token
    rwa [add_zero] at hbacked
  · obtain ⟨t, hle, hmarket⟩ := hlog.logs.run market m hget
    have hs : p.1.Reachable h := ⟨w, t₀, p.2, CustodialSteps.controller hrun⟩
    exact ⟨⟨t, hle, hmarket⟩, hs.claims_le hget hmarket⟩

end Runs

/-- Calls in a row, none of them signed by the pool. -/
theorem runCalls_custodial {s s' : System W} {calls : List ControllerCall}
    (hsigns : ∀ call ∈ calls, call.signatory ≠ some h.pool)
    (hrun : runCalls h timestamp s calls = .ok s') :
    CustodialSteps h (s, timestamp) (s', timestamp) := by
  induction calls generalizing s with
  | nil =>
    obtain rfl := Except.ok.inj hrun
    exact .refl
  | cons call calls ih =>
    obtain ⟨t, hexec, hrest⟩ := Fallible.bind_ok hrun
    exact .head (.call call (hsigns call List.mem_cons_self) le_rfl hexec)
      (ih (fun c hc => hsigns c (List.mem_cons_of_mem _ hc)) hrest)

namespace Sample

theorem controllerHost_custodial : controllerHost.Custodial where
  conforming := host_conforming
  apart := by decide
  transfer hne hmove token := by
    have hm := moveTokens_ok hmove token
    rw [if_neg (fun hc => hne hc.2), sub_zero] at hm
    exact hm
  router hrun token := by
    cases hrun
    exact le_rfl
  receiver hrun token := by
    cases hrun
    exact le_rfl
  blend hrun token := by
    cases hrun
    exact le_rfl
  assign _ _ _ _ := le_rfl
  release _ _ _ := le_rfl

end Sample

/-- Two deposits and a loan; then someone sends the pool a hundred units it does not track. -/
theorem controller_custody_sample :
    ∃ (s : System Sample.Balances) (w : Sample.Balances),
      CustodialSteps Sample.controllerHost (.deployed Sample.opening, 1_000)
        ({ s with pool.world := w }, 1_000) ∧
      s.pool.cashOf 7 = 8_000_000_000 ∧ (w 7 1 : Int) = 8_000_000_100 ∧
      s.pool.cashOf 7 ≤ w 7 1 := by
  obtain ⟨s, hrun, hcash, hheld⟩ : ∃ s : System Sample.Balances,
      runCalls Sample.controllerHost 1_000 (.deployed Sample.opening) Sample.calls = .ok s ∧
      s.pool.cashOf 7 = 8_000_000_000 ∧
      Sample.movedTokens s.pool.world 7 5 1 100 7 1 = 8_000_000_100 :=
    runCalls_ok (by decide +kernel)
  have hsteps : CustodialSteps Sample.controllerHost (.deployed Sample.opening, 1_000)
      ({ s with pool.world := Sample.movedTokens s.pool.world 7 5 1 100 }, 1_000) := by
    refine (runCalls_custodial (by decide) hrun).tail (.outside _ fun token => ?_)
    show ((s.pool.world token 1 : Nat) : Int) ≤ Sample.movedTokens s.pool.world 7 5 1 100 token 1
    unfold Sample.movedTokens
    split
    · rename_i heq
      subst heq
      simp
    · exact le_rfl
  obtain ⟨-, hbacked, -⟩ := controller_custody Sample.controllerHost_custodial hsteps
  exact ⟨s, _, hsteps, hcash, by exact_mod_cast hheld, hbacked 7⟩

end Lending
