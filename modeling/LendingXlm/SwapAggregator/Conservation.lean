import LendingXlm.SwapAggregator.Execution
import Mathlib.Algebra.BigOperators.Intervals

/-!
# Conservation over a run

Every unit a run credits to its vault leaves it again: into an instruction, a fee, the payout or a
residual.

* `Trace`: the instructions of a run, with what each spent and received;
* `runClosing_settled`: the payout and the residuals;
* `run_conserves`: the account of a run that returned.
-/

namespace Lending.SwapAggregator

open Fallible Transaction

variable {router : Address} {venues : Venues router} {s s' : Run}

/-! ## The instructions -/

/-- The first `n` instructions of a program, from `s` to `s'`, with the previous outputs, the
states between them and what each moved. -/
structure Trace (venues : Venues router) (ctx : Ctx) (n : Nat) (s s' : Run) where
  prevs : Nat → PrevOutput
  states : Nat → Run
  fills : Nat → Fill
  prevs_zero : prevs 0 = none
  first : states 0 = s
  last : states n = s'
  step : ∀ i < n, executeNext venues ctx (prevs i) i (states i) =
    .ok (prevs (i + 1)) (states (i + 1))
  measured : ∀ i < n, Measured router (fills i) (states i) (states (i + 1))

namespace Trace

variable {ctx : Ctx} {n : Nat} (tr : Trace venues ctx n s s')

def spent (t : Address) : Int := ∑ i ∈ Finset.range n, (tr.fills i).spent t

def received (t : Address) : Int := ∑ i ∈ Finset.range n, (tr.fills i).received t

include tr in
theorem store : s'.store = s.store := by
  have hprefix : ∀ k ≤ n, (tr.states k).store = s.store := by
    intro k
    induction k with
    | zero => exact fun _ => congrArg Run.store tr.first
    | succ k ih => exact fun hk => (tr.measured k hk).store.trans (ih (by omega))
  rw [← tr.last]
  exact hprefix n (le_refl n)

/-- A quantity every instruction moves by what it received less what it spent. -/
theorem telescope {q : Run → Int} {gain : Nat → Int}
    (hstep : ∀ i < n, q (tr.states (i + 1)) = q (tr.states i) + gain i) :
    q s' = q s + ∑ i ∈ Finset.range n, gain i := by
  have hprefix : ∀ k ≤ n, q (tr.states k) = q s + ∑ i ∈ Finset.range k, gain i := by
    intro k
    induction k with
    | zero =>
      intro _
      rw [tr.first, Finset.sum_range_zero, add_zero]
    | succ k ih =>
      intro hk
      rw [hstep k hk, ih (by omega), Finset.sum_range_succ, add_assoc]
  rw [← tr.last]
  exact hprefix n (le_refl n)

theorem balance (t : Address) :
    s'.vault.balanceOf t = s.vault.balanceOf t - tr.spent t + tr.received t := by
  have hstep : ∀ i < n, (tr.states (i + 1)).vault.balanceOf t =
      (tr.states i).vault.balanceOf t + ((tr.fills i).received t - (tr.fills i).spent t) := by
    intro i hi
    rw [(tr.measured i hi).balance]
    ring
  have h := tr.telescope (q := fun s => s.vault.balanceOf t) hstep
  rw [h, Finset.sum_sub_distrib]
  unfold spent received
  ring

theorem credited (t : Address) : s'.vault.creditedOf t = s.vault.creditedOf t + tr.received t :=
  tr.telescope (q := fun s => s.vault.creditedOf t) fun i hi => (tr.measured i hi).credited t

/-- The router's balances move with the vault. -/
theorem covered (t : Address) :
    s.ledger.balance t router - tr.spent t + tr.received t ≤ s'.ledger.balance t router := by
  have hprefix : ∀ k ≤ n, s.ledger.balance t router - ∑ i ∈ Finset.range k, (tr.fills i).spent t +
      ∑ i ∈ Finset.range k, (tr.fills i).received t ≤ (tr.states k).ledger.balance t router := by
    intro k
    induction k with
    | zero =>
      intro _
      rw [tr.first, Finset.sum_range_zero, Finset.sum_range_zero, sub_zero, add_zero]
    | succ k ih =>
      intro hk
      have h := ih (by omega)
      have hstep := (tr.measured k hk).covered t
      rw [Finset.sum_range_succ, Finset.sum_range_succ]
      omega
  have h := hprefix n (le_refl n)
  rwa [tr.last] at h

end Trace

/-- The trace of the instruction loop. -/
theorem runProgram_trace {ctx : Ctx} {n : Nat} {prev : PrevOutput} (hs : Ready s)
    (h : runProgram venues ctx n s = .ok prev s') : Nonempty (Trace venues ctx n s s') := by
  obtain ⟨prevs, states, -, hlast, hreach, hstep⟩ := foldlM_range_trace h
  have hfills : ∀ i, ∃ fill, i < n → Measured router fill (states i) (states (i + 1)) := by
    intro i
    by_cases hi : i < n
    · have hready := ((runProgram_reached hs i).ok rfl (hreach i hi.le)).ready
      obtain ⟨op, fill, -, hmeasured, -⟩ := (executeNext_measured hready).ok rfl (hstep i hi)
      exact ⟨fill, fun _ => hmeasured⟩
    · exact ⟨⟨0, 0⟩, fun h => absurd h hi⟩
  choose fills hfills using hfills
  obtain ⟨hprev, hstate⟩ := Transaction.pure_ok_iff.mp (hreach 0 (Nat.zero_le n))
  exact ⟨⟨prevs, states, fills, hprev.symm, hstate.symm, hlast, hstep, hfills⟩⟩

/-! ## The closing -/

variable {sender : Address}

/-- From `s` to `s'` the vault's whole balance of a token went to `sender`. -/
structure Payout (router sender token : Address) (out : Int) (s s' : Run) : Prop where
  store : s'.store = s.store
  ledger : s.ledger.transfer token router sender out = some s'.ledger
  balance : ∀ t, s'.vault.balanceOf t = s.vault.balanceOf t - single token out t
  credited : ∀ t, s'.vault.creditedOf t = s.vault.creditedOf t
  whole : out = s.vault.balanceOf token

/-- What the closing of a run does: the output fee, the payout, the residuals. -/
structure Settled (router sender : Address) (o : Opening) (out : Int) (s s' : Run) : Prop where
  minOut : o.totalMinOut ≤ out
  steps : ∃ fee s₁ s₂, Charged o.outputToken o.ctx.program.referralId fee s s₁ ∧
    (o.onInput = true → fee = .none) ∧ Payout router sender o.outputToken out s₁ s₂ ∧
    Ready s₂ ∧ Sweeping s₂ [] s'

theorem Payout.ready {token : Address} {out : Int} (h : Payout router sender token out s s')
    (hs : Ready s) (hcache : s'.tokensCache = s.tokensCache) : Ready s' where
  vault t := by
    rw [h.balance]
    by_cases ht : t = token
    · subst ht
      rw [single_self, h.whole, sub_self]
    · rw [single_ne _ ht, sub_zero]
      exact hs.vault t
  cache := by
    unfold CacheNodup
    rw [hcache]
    exact hs.cache

theorem runClosing_settled {o : Opening} (hs : Ready s) :
    Ends (· = s) Expected (runClosing router sender o) fun out s' =>
      Settled router sender o out s s' := by
  -- everything after the output fee
  have hrest : ∀ s₁ fee, Charged o.outputToken o.ctx.program.referralId fee s s₁ →
      (o.onInput = true → fee = .none) → Ends (· = s₁) Expected (do
        let totalOut := (← get).vault.balanceOf o.outputToken
        require (o.totalMinOut ≤ totalOut) RouterError.slippageExceeded
        vaultWithdraw o.outputToken totalOut
        transfer o.outputToken router sender totalOut
        accrueResidualAsRevenue
        return totalOut : Router Int) fun out s' => Settled router sender o out s s' := by
    intro s₁ fee hcharged hfee
    have hs₁ := hcharged.ready hs
    refine .get_bind fun s₂ hs₂ => ?_
    subst hs₂
    refine .bind (.require fun _ => nofun) fun _ => .start fun s₃ hs₃ => ?_
    obtain ⟨rfl, hmin⟩ := hs₃
    refine .bind (vaultWithdraw_enters (hs₁.vault _)) fun _ => .start fun s₄ hs₄ => ?_
    obtain ⟨-, -, hwithdraw⟩ := hs₄
    refine .bind transfer_moves fun _ => .start fun s₅ hs₅ => ?_
    obtain ⟨l, hl, rfl⟩ := hs₅
    have hpayout : Payout router sender o.outputToken (s₃.vault.balanceOf o.outputToken) s₃
        { s₄ with ledger := l } := by
      refine ⟨hwithdraw.store, ?_, fun t => ?_, fun t => ?_, rfl⟩
      · rw [← hwithdraw.ledger]
        exact hl
      · dsimp only
        rw [hwithdraw.vault, single_neg]
        rfl
      · dsimp only
        rw [hwithdraw.credited, single_zero, add_zero]
    have hready := hpayout.ready hs₁ hwithdraw.cache
    refine .bind (accrueResidualAsRevenue_swept hready) fun _ => .pure fun s' hs' => ?_
    exact ⟨hmin, fee, s₃, _, hcharged, hfee, hpayout, hready, hs'⟩
  unfold runClosing
  cases honInput : o.onInput with
  | true =>
    refine .ite (fun h => absurd rfl h) fun _ => ?_
    exact hrest s .none (.refl hs) fun _ => rfl
  | false =>
    refine .ite (fun _ => ?_) fun h => absurd nofun h
    refine .bind (applyFeesOnToken_charged hs) fun _ => .start fun s₁ hs₁ => ?_
    obtain ⟨fee, hcharged⟩ := hs₁
    exact hrest s₁ fee hcharged fun h => absurd h (by rw [honInput]; exact nofun)

/-! ## The account of a run -/

/-- What one run of a strategy did: the program, the input it measured, the fee and what it was
taken from, the instructions, and what was left of each token. -/
structure Account (venues : Venues router) (payload : StrategyPayload) where
  program : Program
  inputToken : Address
  outputToken : Address
  minOut : Int
  creditedIn : Int
  onInput : Bool
  feeToken : Address
  feeBase : Int
  fee : Fee
  opened : Run
  closed : Run
  trace : Trace venues ⟨payload.assets, payload.amounts, program⟩ program.opCount opened closed
  residual : Address → Int

namespace Account

variable {payload : StrategyPayload} (a : Account venues payload)

/-- What the opening of the run handed on. -/
def opening : Opening :=
  ⟨⟨payload.assets, payload.amounts, a.program⟩, a.inputToken, a.outputToken, a.minOut,
    a.creditedIn, a.onInput⟩

/-- Everything the vault was credited of a token. -/
def credits (t : Address) : Int := single a.inputToken a.creditedIn t + a.trace.received t

/-- The fee is taken on the input, out of what was pulled, or on the output, before the payout. -/
def FeeSide (w : World) (out : Int) : Prop :=
  if feeOnInput w.store a.program.referralId a.inputToken a.outputToken then
    a.feeToken = a.inputToken ∧ a.feeBase = a.creditedIn
  else a.feeToken = a.outputToken ∧ a.feeBase = out + a.fee.total

/-- The account is that of the run from `w`, phase by phase, that paid `out` and ended in `s'`,
and it balances. -/
structure Balances (sender : Address) (w : World) (totalIn out : Int) (s' : Run) : Prop where
  opens : runOpening router sender totalIn payload (.start w) = .ok a.opening a.opened
  executes : ∃ prev, runProgram venues a.opening.ctx a.program.opCount a.opened = .ok prev a.closed
  closes : runClosing router sender a.opening a.closed = .ok out s'
  decoded : Program.decode payload.ops payload.assets payload.amounts.length = .ok a.program
  input : payload.assets[a.program.tokenIn]? = some a.inputToken
  output : payload.assets[a.program.tokenOut]? = some a.outputToken
  minOut : payload.amounts[a.program.minOut]? = some a.minOut
  pulled : w.ledger.transfer a.inputToken sender router totalIn = some a.opened.ledger ∧
    a.creditedIn =
      a.opened.ledger.balance a.inputToken router - w.ledger.balance a.inputToken router
  delivered : 0 < a.minOut ∧ a.minOut ≤ out
  paid : a.closed.ledger.transfer a.outputToken router sender out = some s'.ledger
  conserved : ∀ t, a.credits t = a.trace.spent t + single a.feeToken a.fee.total t +
    single a.outputToken out t + a.residual t
  credited : ∀ t, s'.vault.creditedOf t = a.credits t
  drained : ∀ t, s'.vault.balanceOf t = 0
  residual_nonneg : ∀ t, 0 ≤ a.residual t
  residual_allowed : ∀ t, a.residual t ≤ residualAllowance (a.credits t)
  booked : ∀ k, s'.store.feeBalance k = w.store.feeBalance k +
    a.fee.share a.feeToken a.program.referralId k + residualShare a.residual k
  fee_side : a.FeeSide w out
  fee_nonneg : 0 ≤ a.fee.static ∧ 0 ≤ a.fee.referral
  fee_active : 0 < a.fee.total → a.program.referralId ≠ 0 ∧ ∃ cfg,
    w.store.referral a.program.referralId = some cfg ∧ cfg.active = true ∧
      a.fee = .ofActive w.store cfg a.feeBase
  fee_capped : a.fee.total * bps ≤ feeCap * a.feeBase
  covered : ∀ t, w.ledger.balance t router + single a.feeToken a.fee.total t + a.residual t ≤
    s'.ledger.balance t router

end Account

section Assembly

variable {w : World} {token : Address} {fee : Fee}

/-- A charge that took nothing leaves every quantity in place. -/
theorem Charged.none {id : Nat} (h : Charged token id .none s s') :
    (∀ t, s'.vault.balanceOf t = s.vault.balanceOf t) ∧
      ∀ k, s'.store.feeBalance k = s.store.feeBalance k := by
  refine ⟨fun t => ?_, fun k => ?_⟩
  · rw [h.balance]
    exact (congrArg _ (single_zero token t)).trans (sub_zero _)
  · rw [h.posted]
    simp [Fee.share, Fee.none]

/-- What was pulled is on the router's balance. -/
theorem Pulled.covered {amount pulled : Int} (h : Pulled router sender w token amount pulled s)
    (t : Address) :
    w.ledger.balance t router + single token pulled t ≤ s.ledger.balance t router := by
  by_cases ht : t = token
  · subst ht
    have := h.measured
    rw [single_self]
    omega
  · have hmoved := Ledger.transfer_loses h.ledger t router
    rw [single_ne _ ht] at hmoved ⊢
    omega

end Assembly

/-- **Conservation.** A run that returns has an account of its opening, its instructions and its
closing: after the instructions the sender is paid at least the minimum, what the vault was
credited of each token is what it spent plus the fee, the payout and a residual within its
allowance, every unit of fee and residual is in its bucket, and the fee is that of an active
referral and within the cap. -/
theorem run_conserves {sender : Address} {w : World} {totalIn out : Int}
    {payload : StrategyPayload} (h : run venues sender totalIn payload (.start w) = .ok out s') :
    ∃ a : Account venues payload, a.Balances sender w totalIn out s' := by
  rw [run_eq, Transaction.bind_ok_iff] at h
  obtain ⟨⟨⟨assets, amounts, program⟩, input, output, minOut, pulled, onInput⟩, s₀, hopen, h⟩ := h
  obtain ⟨_, s₁, hprogram, hclose⟩ := Transaction.bind_ok_iff.mp h
  have hopened := runOpening_opened.ok rfl hopen
  obtain rfl : assets = payload.assets := hopened.assets
  obtain rfl : amounts = payload.amounts := hopened.amounts
  obtain ⟨tr⟩ := runProgram_trace hopened.ready hprogram
  have hready := ((runProgram_reached hopened.ready _).ok rfl hprogram).ready
  have hsettled := (runClosing_settled hready).ok rfl hclose
  obtain ⟨sp, feeIn, hpulled, hin, hinNone⟩ := hopened.start
  obtain ⟨feeOut, s₂, s₃, hout, houtNone, hpayout, hready₃, hswept⟩ := hsettled.steps
  dsimp only at hpulled hin hinNone hout houtNone hpayout tr
  have hvault : ∀ t, s₃.vault.balanceOf t = single input pulled t - single input feeIn.total t -
      tr.spent t + tr.received t - single output feeOut.total t - single output out t := by
    intro t
    rw [hpayout.balance, hout.balance, tr.balance, hin.balance, hpulled.balance]
  have hcredits : ∀ t, s₃.vault.creditedOf t = single input pulled t + tr.received t := by
    intro t
    rw [hpayout.credited, hout.credited, tr.credited, hin.credited, hpulled.credited]
  have hposted : ∀ k, s'.store.feeBalance k = w.store.feeBalance k +
      feeIn.share input program.referralId k + feeOut.share output program.referralId k +
        residualShare s₃.vault.balanceOf k := by
    intro k
    have hswept := hswept.posted k
    simp only [List.not_mem_nil, if_false] at hswept
    rw [hswept, hpayout.store, hout.posted, tr.store, hin.posted, hpulled.store]
  have hledger : ∀ t, w.ledger.balance t router + single input pulled t - tr.spent t +
      tr.received t - single output out t ≤ s'.ledger.balance t router := by
    intro t
    have h1 := hpulled.covered t
    have h2 := tr.covered t
    have h3 := Ledger.transfer_loses hpayout.ledger t router
    rw [hin.ledger] at h2
    rw [hout.ledger] at h3
    rw [hswept.ledger]
    omega
  -- the account, from the fee on whichever side it was taken
  have hassemble : ∀ (feeToken : Address) (feeBase : Int) (fee : Fee),
      (∀ t, single feeToken fee.total t = single input feeIn.total t +
        single output feeOut.total t) →
      (∀ k, fee.share feeToken program.referralId k =
        feeIn.share input program.referralId k + feeOut.share output program.referralId k) →
      (if feeOnInput w.store program.referralId input output then
        feeToken = input ∧ feeBase = pulled
      else feeToken = output ∧ feeBase = out + fee.total) →
      (0 ≤ fee.static ∧ 0 ≤ fee.referral) →
      (0 < fee.total → program.referralId ≠ 0 ∧ ∃ cfg,
        w.store.referral program.referralId = some cfg ∧ cfg.active = true ∧
          fee = .ofActive w.store cfg feeBase) →
      fee.total * bps ≤ feeCap * feeBase →
      ∃ a : Account venues payload, a.Balances sender w totalIn out s' := by
    intro feeToken feeBase fee htotal hshare hside hnonneg hactive hcapped
    refine ⟨⟨program, input, output, minOut, pulled, onInput, feeToken, feeBase, fee, s₀, s₁, tr,
      s₃.vault.balanceOf⟩, ?_⟩
    refine
      { opens := hopen
        executes := ⟨_, hprogram⟩
        closes := hclose
        decoded := hopened.decoded
        input := hopened.inputToken
        output := hopened.outputToken
        minOut := hopened.minOut
        pulled := hin.ledger ▸ ⟨hpulled.ledger, hpulled.measured⟩
        delivered := ⟨hopened.minOut_pos, hsettled.minOut⟩
        paid := by
          rw [hswept.ledger, ← hpayout.ledger, hout.ledger]
        conserved := fun t => ?_
        credited := fun t => (hswept.credited t).trans (hcredits t)
        drained := fun t => (hswept.balance t).trans (if_neg List.not_mem_nil)
        residual_nonneg := hready₃.vault
        residual_allowed := fun t => ?_
        booked := fun k => ?_
        fee_side := hside
        fee_nonneg := hnonneg
        fee_active := hactive
        fee_capped := hcapped
        covered := fun t => ?_ }
    · have h1 := hvault t
      have h2 := htotal t
      unfold Account.credits
      dsimp only
      omega
    · have hallowed := hswept.allowed t List.not_mem_nil
      rwa [hcredits] at hallowed
    · rw [hposted, hshare, add_assoc (w.store.feeBalance k)]
    · have h1 := hvault t
      have h2 := htotal t
      have h3 := hledger t
      dsimp only
      omega
  have hnone : ∀ token t, single token Fee.none.total t = 0 := single_zero
  have hshareNone : ∀ token k, Fee.none.share token program.referralId k = 0 := by
    intro token k
    simp [Fee.share, Fee.none]
  have hside := hopened.onInput
  dsimp only at hside
  cases onInput with
  | true =>
    obtain rfl := houtNone rfl
    refine hassemble input pulled feeIn (fun t => ?_) (fun k => ?_) ?_ hin.nonneg
      (fun hpos => ?_) ?_
    · rw [hnone, add_zero]
    · rw [hshareNone, add_zero]
    · rw [if_pos hside.symm]
      exact ⟨rfl, rfl⟩
    · have hactive := hin.active hpos
      rwa [hpulled.store, hpulled.balance, single_self] at hactive
    · have hcapped := hin.capped
      rwa [hpulled.balance, single_self] at hcapped
  | false =>
    obtain ⟨rfl, rfl⟩ := hinNone rfl
    have hbase : s₁.vault.balanceOf output = out + feeOut.total := by
      have hbalance := hout.balance output
      rw [single_self, ← hpayout.whole] at hbalance
      omega
    have hstore : s₁.store = w.store := tr.store.trans hpulled.store
    refine hassemble output (out + feeOut.total) feeOut (fun t => ?_) (fun k => ?_) ?_ hout.nonneg
      (fun hpos => ?_) ?_
    · rw [hnone, zero_add]
    · rw [hshareNone, zero_add]
    · rw [← hside]
      exact ⟨rfl, rfl⟩
    · have hactive := hout.active hpos
      rwa [hstore, hbase] at hactive
    · have hcapped := hout.capped
      rwa [hbase] at hcapped

theorem run_conserves_sample : ∃ s', run (parPools 0) 3 100_000 parPayload (.start parWorld) =
    .ok 99_700 s' ∧ ∃ a : Account (parPools 0) parPayload,
      a.Balances 3 parWorld 100_000 99_700 s' := by
  have hanswered : answered (run (parPools 0) 3 100_000 parPayload (.start parWorld)) =
      some 99_700 := by
    decide +kernel
  cases hrun : run (parPools 0) 3 100_000 parPayload (.start parWorld) with
  | ok out s' =>
    rw [hrun] at hanswered
    obtain rfl : out = 99_700 := Option.some.inj hanswered
    exact ⟨s', rfl, run_conserves hrun⟩
  | error e s' =>
    rw [hrun] at hanswered
    cases hanswered

end Lending.SwapAggregator
