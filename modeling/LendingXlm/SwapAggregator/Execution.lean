import LendingXlm.SwapAggregator.Charges
import LendingXlm.SwapAggregator.Encoding

/-!
# Execution of a decoded program

`run` is an opening up to the input fee, the instructions, and a closing from the output fee on.
What `decode` accepted executes without an index outside its table: the registry, the amounts and
the weights.

* `run_eq`: the three phases;
* `runProgram_reached`: what holds before every instruction;
* `program_safety`: the grammar and the safety of execution.
-/

namespace Lending.SwapAggregator

open Fallible Transaction

variable {router : Address} {venues : Venues router} {s s' : Run}

/-! ## Phases -/

/-- What the opening of a run hands to the rest of it. -/
structure Opening where
  ctx : Ctx
  inputToken : Address
  outputToken : Address
  totalMinOut : Int
  creditedIn : Int
  onInput : Bool

/-- `run` up to the input fee. -/
def runOpening (router sender : Address) (totalIn : Int) (payload : StrategyPayload) :
    Router Opening := do
  require (0 < totalIn) RouterError.invalidAmount
  let program ← Program.decode payload.ops payload.assets payload.amounts.length
  let ctx : Ctx := ⟨payload.assets, payload.amounts, program⟩
  let inputToken ← ctx.asset program.tokenIn
  let outputToken ← ctx.asset program.tokenOut
  let totalMinOut ← ctx.amount program.minOut
  require (0 < totalMinOut) RouterError.slippageExceeded
  let creditedIn ← transferAmountMeasured router inputToken sender totalIn
  vaultDeposit inputToken creditedIn
  let onInput := feeOnInput (← get).store program.referralId inputToken outputToken
  if onInput then applyFeesOnToken inputToken program.referralId
  return ⟨ctx, inputToken, outputToken, totalMinOut, creditedIn, onInput⟩

/-- The first `k` instructions. -/
def runProgram (venues : Venues router) (ctx : Ctx) (k : Nat) : Router PrevOutput :=
  (List.range k).foldlM (executeNext venues ctx) none

/-- `run` from the output fee on. -/
def runClosing (router sender : Address) (o : Opening) : Router Int := do
  if ¬ o.onInput then applyFeesOnToken o.outputToken o.ctx.program.referralId
  let totalOut := (← get).vault.balanceOf o.outputToken
  require (o.totalMinOut ≤ totalOut) RouterError.slippageExceeded
  vaultWithdraw o.outputToken totalOut
  transfer o.outputToken router sender totalOut
  accrueResidualAsRevenue
  return totalOut

theorem run_eq (venues : Venues router) (sender : Address) (totalIn : Int)
    (payload : StrategyPayload) : run venues sender totalIn payload = (do
      let o ← runOpening router sender totalIn payload
      let _ ← runProgram venues o.ctx o.ctx.program.opCount
      runClosing router sender o) := by
  unfold run runOpening
  simp only [bind_assoc]
  refine bind_congr fun _ => bind_congr fun program => bind_congr fun inputToken =>
    bind_congr fun outputToken => bind_congr fun totalMinOut => bind_congr fun _ =>
    bind_congr fun creditedIn => bind_congr fun _ => bind_congr fun s => ?_
  unfold runClosing
  cases feeOnInput s.store program.referralId inputToken outputToken with
  | false => simp [runProgram]
  | true => simp [runProgram]

/-! ## The opening -/

/-- After the input is pulled the vault holds what was measured of it and nothing else. -/
structure Pulled (router sender : Address) (w : World) (token : Address) (amount pulled : Int)
    (s : Run) : Prop where
  store : s.store = w.store
  cache : s.tokensCache = .empty
  ledger : w.ledger.transfer token sender router amount = some s.ledger
  measured : pulled = s.ledger.balance token router - w.ledger.balance token router
  nonneg : 0 ≤ pulled
  balance : ∀ t, s.vault.balanceOf t = single token pulled t
  credited : ∀ t, s.vault.creditedOf t = single token pulled t

theorem cacheNodup_empty (h : s.tokensCache = .empty) : CacheNodup s := by
  intro pool tokens hget
  rw [h] at hget
  cases hget

theorem Pulled.ready {sender : Address} {w : World} {token : Address} {amount pulled : Int}
    (h : Pulled router sender w token amount pulled s) : Ready s where
  vault t := by
    rw [h.balance]
    exact single_nonneg h.nonneg t
  cache := cacheNodup_empty h.cache

theorem transfer_moves {token sender recipient : Address} {amount : Int} :
    Ends (· = s) Expected (transfer token sender recipient amount) fun _ s' =>
      ∃ l, s.ledger.transfer token sender recipient amount = some l ∧
        s' = { s with ledger := l } := by
  refine .get_bind fun s₁ hs₁ => ?_
  subst hs₁
  refine .bind (.orThrow fun _ => nofun) fun l => .set ?_
  rintro _ ⟨rfl, hl⟩
  exact ⟨l, hl, rfl⟩

theorem transferAmountMeasured_moves {token sender : Address} {amount : Int} :
    Ends (· = s) Expected (transferAmountMeasured router token sender amount) fun pulled s' =>
      ∃ l, s.ledger.transfer token sender router amount = some l ∧ s' = { s with ledger := l } ∧
        pulled = l.balance token router - s.ledger.balance token router := by
  refine .bind (.require fun _ => nofun) fun _ => .bind balance_ends fun pre => ?_
  refine .start fun s₁ hs₁ => ?_
  obtain ⟨⟨rfl, -⟩, rfl⟩ := hs₁
  refine .bind transfer_moves fun _ => .bind balance_ends fun post => ?_
  refine (Ends.orThrow fun _ => nofun).post ?_
  rintro pulled s' ⟨⟨⟨l, hl, rfl⟩, rfl⟩, hpulled⟩
  obtain ⟨-, rfl⟩ := I128.checkedSub_some.mp hpulled
  exact ⟨l, hl, rfl, rfl⟩

/-- What holds when the instructions start: the tables are the payload's, the vault holds the
input less its fee. -/
structure Opened (router sender : Address) (w : World) (totalIn : Int) (payload : StrategyPayload)
    (o : Opening) (s : Run) : Prop where
  decoded : Program.decode payload.ops payload.assets payload.amounts.length = .ok o.ctx.program
  assets : o.ctx.assets = payload.assets
  amounts : o.ctx.amounts = payload.amounts
  inputToken : payload.assets[o.ctx.program.tokenIn]? = some o.inputToken
  outputToken : payload.assets[o.ctx.program.tokenOut]? = some o.outputToken
  minOut : payload.amounts[o.ctx.program.minOut]? = some o.totalMinOut
  minOut_pos : 0 < o.totalMinOut
  onInput : o.onInput = feeOnInput w.store o.ctx.program.referralId o.inputToken o.outputToken
  start : ∃ s₁ fee, Pulled router sender w o.inputToken totalIn o.creditedIn s₁ ∧
    Charged o.inputToken o.ctx.program.referralId fee s₁ s ∧
      (o.onInput = false → fee = .none ∧ s = s₁)

theorem Opened.ready {sender : Address} {w : World} {totalIn : Int} {payload : StrategyPayload}
    {o : Opening} (h : Opened router sender w totalIn payload o s) : Ready s := by
  obtain ⟨s₁, fee, hpulled, hcharged, -⟩ := h.start
  exact hcharged.ready hpulled.ready

theorem runOpening_opened {sender : Address} {w : World} {totalIn : Int}
    {payload : StrategyPayload} :
    Ends (· = Run.start w) Expected (runOpening router sender totalIn payload)
      (Opened router sender w totalIn payload) := by
  refine .bind (.require fun _ => nofun) fun _ => ?_
  refine .bind (Q := fun program s => s = Run.start w ∧
    Program.decode payload.ops payload.assets payload.amounts.length = .ok program)
    (.lift (fun program hdecode _ hs => ⟨hs.1, hdecode⟩) (expected_of_avoids decode_avoids))
    fun program => ?_
  refine .bind (.orThrow fun _ => nofun) fun inputToken => ?_
  refine .bind (.orThrow fun _ => nofun) fun outputToken => ?_
  refine .bind (.orThrow fun _ => nofun) fun totalMinOut => ?_
  refine .bind (.require fun _ => nofun) fun _ => .start fun s₀ hs₀ => ?_
  obtain ⟨⟨⟨⟨⟨rfl, hdecode⟩, hinput⟩, houtput⟩, hminOut⟩, hpos⟩ := hs₀
  refine .bind transferAmountMeasured_moves fun creditedIn => .start fun s₁ hs₁ => ?_
  obtain ⟨l, hledger, rfl, hmeasured⟩ := hs₁
  refine .bind vaultDeposit_enters fun _ => .get_bind fun s₂ hs₂ => ?_
  obtain ⟨hnonneg, hdeposit⟩ := hs₂
  have hpulled : Pulled router sender w inputToken totalIn creditedIn s₂ := by
    refine ⟨hdeposit.store, hdeposit.cache, ?_, ?_, hnonneg, fun t => ?_, fun t => ?_⟩
    · rw [hdeposit.ledger]
      exact hledger
    · rw [hdeposit.ledger]
      exact hmeasured
    · rw [hdeposit.vault]
      exact zero_add _
    · rw [hdeposit.credited]
      exact zero_add _
  have hopened : ∀ onInput fee s', onInput = feeOnInput s₂.store program.referralId inputToken
      outputToken → Charged inputToken program.referralId fee s₂ s' →
      (onInput = false → fee = .none ∧ s' = s₂) → Opened router sender w totalIn payload
        ⟨⟨payload.assets, payload.amounts, program⟩, inputToken, outputToken, totalMinOut,
          creditedIn, onInput⟩ s' := by
    intro onInput fee s' hside hcharged hfee
    exact ⟨hdecode, rfl, rfl, hinput, houtput, hminOut, hpos, hpulled.store ▸ hside,
      s₂, fee, hpulled, hcharged, hfee⟩
  refine .ite (fun hside => ?_) fun hside => ?_
  · refine .bind (applyFeesOnToken_charged hpulled.ready) fun _ => .pure ?_
    rintro s' ⟨fee, hcharged⟩
    exact hopened _ fee s' rfl hcharged fun h => absurd hside (by rw [h]; exact nofun)
  · refine .pure ?_
    rintro _ rfl
    exact hopened _ .none _ rfl (.refl hpulled.ready) fun _ => ⟨rfl, rfl⟩

/-! ## Before an instruction -/

theorem runProgram_succ (venues : Venues router) (ctx : Ctx) (k : Nat) :
    runProgram venues ctx (k + 1) =
      runProgram venues ctx k >>= fun prev => executeNext venues ctx prev k := by
  unfold runProgram
  rw [List.range_succ, List.foldlM_append]
  simp only [List.foldlM_cons, List.foldlM_nil, bind_pure]

/-- What holds before instruction `k`: the previous output is what the instruction before it put
into the vault, if that has a single one. -/
structure Reached (router : Address) (ctx : Ctx) (k : Nat) (prev : PrevOutput) (s : Run) :
    Prop where
  ready : Ready s
  handed : ∀ j, k = j + 1 → ∃ op fill s₁, ctx.program.op j = .ok op ∧
    Measured router fill s₁ s ∧ HandsOn ctx op fill prev

theorem runProgram_reached {ctx : Ctx} (hs : Ready s) (k : Nat) :
    Ends (· = s) Expected (runProgram venues ctx k) (Reached router ctx k) := by
  induction k with
  | zero =>
    refine .pure ?_
    rintro _ rfl
    exact ⟨hs, nofun⟩
  | succ k ih =>
    rw [runProgram_succ]
    refine .bind ih fun prev => .start fun s₁ hs₁ => (executeNext_measured hs₁.ready).post ?_
    rintro next s' ⟨op, fill, hop, hmeasured, hnext⟩
    refine ⟨hmeasured.ready, fun j hj => ?_⟩
    obtain rfl : k = j := by omega
    exact ⟨op, fill, s₁, hop, hmeasured, hnext⟩

/-! ## Indices and amounts -/

/-- Every index `op` reads is inside its table, and an amount it does not name itself is covered by
the vault: from the state `s` only a fixed amount can fail the withdrawal. -/
structure OpSafe (ctx : Ctx) (op : Op) (prev : PrevOutput) (s : Run) : Prop where
  pool : op.idxA < ctx.assets.length
  token : op.idxB < ctx.assets.length
  operand : match op.opcode with
    | .swap _ => op.idxC < ctx.assets.length
    | .burn | .mint => op.idxC < ctx.amounts.length ∧ op.mode = .all
  fixed : ∀ idx, op.mode = .fixed idx → idx < ctx.amounts.length
  ppm : ∀ idx, op.mode = .ppm idx →
    ctx.program.weightsAt + weightLen * idx + weightLen ≤ ctx.program.buf.length ∧
      ctx.program.weight idx ≠ 0 ∧ (ctx.program.weight idx : Int) ≤ ppmDenominator
  chained : ∀ t, ctx.assets[op.idxB]? = some t →
    ∀ s', resolveAmount ctx op.mode t prev s ≠ .error .brokenTokenChain s'
  covered : (∀ idx, op.mode ≠ .fixed idx) → ∀ t, ctx.assets[op.idxB]? = some t →
    ∀ amount s', resolveAmount ctx op.mode t prev s = .ok amount s' →
      amount ≤ s.vault.balanceOf t ∧ ∃ s'', vaultWithdraw t amount s = .ok () s''

/-- What a withdrawal within the balance needs. -/
theorem vaultWithdraw_returns {token : Address} {amount : Int} (hnonneg : 0 ≤ amount)
    (hle : amount ≤ s.vault.balanceOf token) : ∃ s', vaultWithdraw token amount s = .ok () s' := by
  obtain ⟨v, hv⟩ : ∃ v, s.vault.withdraw token amount = .ok v := by
    unfold Vault.withdraw
    by_cases hzero : amount = 0
    · exact ⟨_, if_pos hzero⟩
    · rw [if_neg hzero, require_pos hnonneg]
      simp only [Fallible.ok_bind, require_pos hle]
      exact ⟨_, rfl⟩
  refine ⟨{ s with vault := v }, ?_⟩
  unfold vaultWithdraw
  rw [Transaction.bind_ok_iff]
  refine ⟨s, s, rfl, ?_⟩
  rw [Transaction.lift_bind_ok_iff]
  exact ⟨v, hv, rfl⟩

/-- The amounts an instruction can resolve to, when what it is handed is in the vault. -/
theorem resolveAmount_covered {ctx : Ctx} {mode : Mode} {prev : PrevOutput} {t : Address}
    (hvault : 0 ≤ s.vault.balanceOf t)
    (hprev : mode = .prev → ∃ amount, prev = some (t, amount) ∧ 0 ≤ amount ∧
      amount ≤ s.vault.balanceOf t)
    (hppm : ∀ idx, mode = .ppm idx → (ctx.program.weight idx : Int) ≤ ppmDenominator) :
    Ends (· = s) (· ≠ .brokenTokenChain) (resolveAmount ctx mode t prev) fun amount s' =>
      s' = s ∧ ((∀ idx, mode ≠ .fixed idx) → 0 ≤ amount ∧ amount ≤ s.vault.balanceOf t) := by
  refine .get_bind fun s₁ hs₁ => ?_
  subst hs₁
  cases mode with
  | all => exact .pure fun _ h => ⟨h, fun _ => ⟨hvault, le_refl _⟩⟩
  | prev =>
    obtain ⟨amount, rfl, hnonneg, hle⟩ := hprev rfl
    refine .ite (fun hne => absurd rfl hne) fun _ => ?_
    exact .pure fun _ h => ⟨h, fun _ => ⟨hnonneg, hle⟩⟩
  | fixed idx =>
    refine (Ends.orThrow fun _ => nofun).post ?_
    rintro _ _ ⟨h, -⟩
    exact ⟨h, fun hfixed => absurd rfl (hfixed idx)⟩
  | ppm idx =>
    refine .bind (Q := fun product s' => s' = s₁ ∧
      product = s₁.vault.balanceOf t * ctx.program.weight idx) (.lift ?_ ?_) fun product => ?_
    · exact fun product hproduct s' hs' => ⟨hs', checkedMul_ok hproduct⟩
    · intro e he
      obtain ⟨-, rfl⟩ := orThrow_error_iff.mp he
      exact nofun
    · refine .pure ?_
      rintro _ ⟨rfl, rfl⟩
      have hweight := hppm idx rfl
      have hproduct := mul_nonneg hvault (Int.natCast_nonneg (ctx.program.weight idx))
      refine ⟨rfl, fun _ => ⟨Int.tdiv_nonneg hproduct (by decide), ?_⟩⟩
      rw [Int.tdiv_eq_ediv_of_nonneg hproduct]
      exact Int.ediv_le_of_le_mul (by decide) (mul_le_mul_of_nonneg_left hweight hvault)

/-- The weight of a decoded program. -/
theorem decoded_weight {src : Source} (h : src.Fits) {idx : Nat} {weight : UInt32}
    (hidx : src.weights[idx]? = some weight) : src.decoded.weight idx = weight.toNat := by
  rw [← parse_program h, Program.parse_weight, Source.byteAt_opCount h,
    Source.readWeight_program h hidx]

variable {ctx : Ctx} {prev : PrevOutput} {k : Nat}

/-- A `prev` instruction is handed its own input token, out of the vault. -/
theorem Reached.handed_prev {bytes : List UInt8}
    (hdecode : Program.decode bytes ctx.assets ctx.amounts.length = .ok ctx.program)
    (hk : k < ctx.program.opCount) (h : Reached router ctx k prev s) {raw before : RawOp} {j : Nat}
    (hkj : k = j + 1) (hbefore : ctx.program.source.ops[j]? = some before)
    (houtput : before.output = some raw.idxB) {t : Address}
    (ht : ctx.assets[raw.idxB.toNat]? = some t) :
    ∃ amount, prev = some (t, amount) ∧ 0 ≤ amount ∧ amount ≤ s.vault.balanceOf t := by
  obtain ⟨op, fill, s₁, hop, hmeasured, hnext⟩ := h.handed j hkj
  obtain ⟨raw', code, hraw, hcode, -, -, hop'⟩ := decode_op hdecode (show j < _ by omega)
  rw [hbefore, Option.some.injEq] at hraw
  subst hraw
  rw [hop', Except.ok.injEq] at hop
  subst hop
  unfold RawOp.output at houtput
  rw [hcode] at houtput
  unfold HandsOn at hnext
  have hfill : ∀ t', ctx.assets[raw.idxB.toNat]? = some t' → prev = some (t', fill.received t') →
      ∃ amount, prev = some (t, amount) ∧ 0 ≤ amount ∧ amount ≤ s.vault.balanceOf t := by
    intro t' ht' hprev
    rw [ht, Option.some.injEq] at ht'
    subst ht'
    exact ⟨_, hprev, hmeasured.received_nonneg t, hmeasured.received_le t⟩
  cases code with
  | swap venue =>
    obtain ⟨t', ht', hprev⟩ := hnext
    rw [Option.some.injEq] at houtput
    exact hfill t' (houtput ▸ ht') hprev
  | mint =>
    obtain ⟨t', ht', hprev⟩ := hnext
    rw [Option.some.injEq] at houtput
    exact hfill t' (houtput ▸ ht') hprev
  | burn => cases houtput

/-- **Safety of one instruction.** Reached by the ones before it, an instruction of a decoded
program is safe. -/
theorem Reached.safe {bytes : List UInt8}
    (hdecode : Program.decode bytes ctx.assets ctx.amounts.length = .ok ctx.program)
    (hk : k < ctx.program.opCount) (h : Reached router ctx k prev s) :
    ∃ op, ctx.program.op k = .ok op ∧ OpSafe ctx op prev s := by
  obtain ⟨raw, code, -, -, hadmitted, hoperands, hop⟩ := decode_op hdecode hk
  obtain ⟨hvalid, -, hdecoded⟩ := decode_source hdecode
  have hmode := hadmitted.mode
  have hppm : ∀ idx, Mode.fromU8 raw.mode.toNat = .ppm idx →
      idx < ctx.program.source.weights.length ∧ ctx.program.weight idx ≠ 0 ∧
        (ctx.program.weight idx : Int) ≤ ppmDenominator := by
    intro idx hidx
    rw [hidx] at hmode
    have hget := List.getElem?_eq_getElem (show idx < ctx.program.source.weights.length from hmode)
    refine ⟨hmode, ?_⟩
    rw [← hdecoded, decoded_weight hvalid.fits hget]
    exact hvalid.weight _ (List.mem_of_getElem? hget)
  have hresolve : ∀ t, ctx.assets[raw.idxB.toNat]? = some t →
      Ends (· = s) (· ≠ .brokenTokenChain)
        (resolveAmount ctx (.fromU8 raw.mode.toNat) t prev) fun amount s' =>
          s' = s ∧ ((∀ idx, Mode.fromU8 raw.mode.toNat ≠ .fixed idx) →
            0 ≤ amount ∧ amount ≤ s.vault.balanceOf t) := by
    intro t ht
    refine resolveAmount_covered (h.ready.vault t) (fun hprev => ?_) fun idx hidx =>
      (hppm idx hidx).2.2
    rw [hprev] at hmode
    obtain ⟨j, before, hkj, hbefore, houtput⟩ := hmode
    exact h.handed_prev hdecode hk hkj hbefore houtput ht
  refine ⟨_, hop, hadmitted.pool, hadmitted.token, ?_, fun idx hidx => ?_, fun idx hidx => ?_,
    fun t ht s' herr => ?_, fun hfixed t ht amount s' hok => ?_⟩
  · cases code with
    | swap venue => exact hoperands.1
    | burn => exact ⟨hoperands.2, hoperands.1⟩
    | mint => exact ⟨hoperands.2, hoperands.1⟩
  · dsimp only at hidx
    rw [hidx] at hmode
    exact hmode
  · obtain ⟨hlt, hweight⟩ := hppm idx hidx
    refine ⟨?_, hweight⟩
    rw [← hdecoded]
    have hlen := ctx.program.source.length_program
    dsimp only [Source.decoded]
    rw [hlen]
    unfold weightLen
    omega
  · have := hresolve t ht s rfl
    rw [herr] at this
    exact this rfl
  · obtain ⟨-, hcovered⟩ := (hresolve t ht).ok rfl hok
    obtain ⟨hnonneg, hle⟩ := hcovered hfixed
    exact ⟨hle, vaultWithdraw_returns hnonneg hle⟩

/-! ## Floors of a burn -/

/-- The floors `amounts[minStart..minStart + n]`, each read within the bound. -/
def floorRun (amounts : List Int) (minStart n : Nat) (h : minStart + n ≤ amounts.length) :
    List Int :=
  List.ofFn fun i : Fin n => amounts.get ⟨minStart + i, by omega⟩

theorem floorRun_eq {amounts : List Int} {minStart n : Nat} (h : minStart + n ≤ amounts.length) :
    (amounts.drop minStart).take n = floorRun amounts minStart n h := by
  refine List.ext_getElem ?_ fun i h₁ h₂ => ?_
  · rw [floorRun, List.length_ofFn, List.length_take, List.length_drop]
    omega
  · simp [floorRun]

/-- `remove_liquidity` once it has its floors. -/
def burnWith (venues : Venues router) (pool lpToken : Address) (tokens : List Address)
    (floors : List Int) : Router Unit := do
  let s ← get
  let shares := s.vault.balanceOf lpToken
  require (0 < shares) RouterError.invalidAmount
  let minAmounts ← (floors.mapM toU128 : Except RouterError (List Int))
  let before := tokens.map fun token => s.ledger.balance token router
  let sharesBefore := s.ledger.balance lpToken router
  let _ ← invoke venues [⟨lpToken, shares⟩] (.withdraw pool shares minAmounts)
  let sharesAfter ← balance router lpToken
  let burned ← orThrow (I128.checkedSub sharesBefore sharesAfter) RouterError.integerOverflow
  require (burned = shares) RouterError.invalidAmount
  vaultWithdraw lpToken shares
  let totalReceived ←
    (tokens.zip (before.zip floors)).foldlM (Aquarius.creditConstituent router) 0
  require (0 < totalReceived) RouterError.zeroOutput

/-- A burn checks the run of its floors before it reads one. -/
theorem removeLiquidity_eq (venues : Venues router) (pool lpToken : Address) (amounts : List Int)
    (minStart : Nat) : Aquarius.removeLiquidity venues pool lpToken amounts minStart = (do
      let tokens ← poolTokens (Aquarius.getTokens venues pool) pool
      Aquarius.assertShareToken venues pool lpToken
      if h : minStart + tokens.length ≤ amounts.length then
        burnWith venues pool lpToken tokens (floorRun amounts minStart tokens.length h)
      else throw .minAmountsNotMet) := by
  unfold Aquarius.removeLiquidity
  refine bind_congr fun tokens => bind_congr fun _ => ?_
  by_cases h : minStart + tokens.length ≤ amounts.length
  · rw [dif_pos h, require_pos h, ← floorRun_eq h]
    rfl
  · rw [dif_neg h]
    unfold Fallible.require
    rw [if_neg h]
    rfl

/-! ## The result -/

/-- **Programs.** Decoding accepts the encodings of valid sources, and on those decoding and
encoding are inverse. In any run, every instruction the loop reaches is safe; a burn checks the
run of its floors before it reads them. -/
theorem program_safety (router : Address) :
    (∀ bytes assets amountsLen p, Program.decode bytes assets amountsLen = .ok p ↔
      ∃ src : Source, src.Valid assets amountsLen ∧ src.program = bytes ∧ src.decoded = p) ∧
    (∀ (src : Source) assets amountsLen, src.Valid assets amountsLen →
      Program.decode src.program assets amountsLen = .ok src.decoded ∧
        src.decoded.source = src) ∧
    (∀ bytes assets amountsLen p, Program.decode bytes assets amountsLen = .ok p →
      p.source.program = bytes ∧ p.source.decoded = p ∧ p.tokenIn < assets.length ∧
        p.tokenOut < assets.length ∧ p.minOut < amountsLen) ∧
    (∀ (venues : Venues router) sender totalIn payload,
      run venues sender totalIn payload = (do
        let o ← runOpening router sender totalIn payload
        let _ ← runProgram venues o.ctx o.ctx.program.opCount
        runClosing router sender o)) ∧
    (∀ (venues : Venues router) sender w totalIn payload o s₀,
      runOpening router sender totalIn payload (.start w) = .ok o s₀ →
      o.ctx.assets = payload.assets ∧ o.ctx.amounts = payload.amounts ∧
      Program.decode payload.ops payload.assets payload.amounts.length = .ok o.ctx.program ∧
      ∀ k < o.ctx.program.opCount, ∀ prev s, runProgram venues o.ctx k s₀ = .ok prev s →
        ∃ op, o.ctx.program.op k = .ok op ∧ OpSafe o.ctx op prev s) ∧
    ∀ (venues : Venues router) pool lpToken amounts minStart,
      Aquarius.removeLiquidity venues pool lpToken amounts minStart = (do
        let tokens ← poolTokens (Aquarius.getTokens venues pool) pool
        Aquarius.assertShareToken venues pool lpToken
        if h : minStart + tokens.length ≤ amounts.length then
          burnWith venues pool lpToken tokens (floorRun amounts minStart tokens.length h)
        else throw .minAmountsNotMet) := by
  refine ⟨fun bytes assets amountsLen p => ⟨fun h => ?_, ?_⟩, fun src assets amountsLen h =>
    decode_program h, fun bytes assets amountsLen p h => ?_, run_eq, ?_, removeLiquidity_eq⟩
  · exact ⟨p.source, decode_source h⟩
  · rintro ⟨src, hvalid, rfl, rfl⟩
    exact (decode_program hvalid).1
  · obtain ⟨hvalid, hbytes, hdecoded⟩ := decode_source h
    refine ⟨hbytes, hdecoded, ?_⟩
    rw [← hdecoded]
    exact ⟨hvalid.tokenIn, hvalid.tokenOut, hvalid.minOut⟩
  · intro venues sender w totalIn payload o s₀ hopening
    have hopened := runOpening_opened.ok rfl hopening
    refine ⟨hopened.assets, hopened.amounts, hopened.decoded, fun k hk prev s hrun => ?_⟩
    have hreached := (runProgram_reached hopened.ready k).ok rfl hrun
    have hdecode := hopened.decoded
    rw [← hopened.assets, ← hopened.amounts] at hdecode
    exact hreached.safe hdecode hk

/-- Half of the input into token 2, that back into token 1, and all of it into token 2 again. -/
def roundTrip : Source :=
  ⟨0, 1, 0, 1, [⟨2, 128, 2, 0, 1⟩, ⟨2, 1, 3, 1, 0⟩, ⟨2, 0, 2, 0, 1⟩], [500_000]⟩

def roundPayload : StrategyPayload where
  amounts := [90_000]
  assets := [1, 2, 9, 8]
  ops := roundTrip.program

/-- What a computation that returned answered. -/
def answered {α : Type} : EStateM.Result RouterError Run α → Option α
  | .ok a _ => some a
  | .error _ _ => none

/-- The first instruction takes its share of what the fee left, the second what the first put in. -/
theorem program_safety_sample : ∃ o s₀ s first second,
    runOpening 0 3 100_000 roundPayload (.start parWorld) = .ok o s₀ ∧
      o.ctx.program = roundTrip.decoded ∧
      o.ctx.program.op 0 = .ok first ∧ first.mode = .ppm 0 ∧ OpSafe o.ctx first none s₀ ∧
      runProgram (parPools 0) o.ctx 1 s₀ = .ok (some (2, 49_850)) s ∧
      o.ctx.program.op 1 = .ok second ∧ second.mode = .prev ∧
      OpSafe o.ctx second (some (2, 49_850)) s := by
  have hanswered : answered ((do
      let o ← runOpening 0 3 100_000 roundPayload
      runProgram (parPools 0) o.ctx 1 : Router PrevOutput) (.start parWorld)) =
        some (some (2, 49_850)) := by
    decide +kernel
  have hdecodes : Program.decode roundPayload.ops roundPayload.assets
      roundPayload.amounts.length = .ok roundTrip.decoded := by
    decide +kernel
  have hppm : roundTrip.decoded.op 0 = .ok ⟨.swap .phoenix, .ppm 0, 2, 0, 1⟩ := by
    decide +kernel
  have hprev : roundTrip.decoded.op 1 = .ok ⟨.swap .phoenix, .prev, 3, 1, 0⟩ := by
    decide +kernel
  obtain ⟨-, -, -, -, hsafe, -⟩ := program_safety 0
  cases hrun : (do
      let o ← runOpening 0 3 100_000 roundPayload
      runProgram (parPools 0) o.ctx 1 : Router PrevOutput) (.start parWorld) with
  | error e s =>
    rw [hrun] at hanswered
    cases hanswered
  | ok prev s =>
    rw [hrun] at hanswered
    obtain rfl := Option.some.inj hanswered
    obtain ⟨o, s₀, hopen, hprogram⟩ := Transaction.bind_ok_iff.mp hrun
    obtain ⟨-, -, hdecode, hops⟩ := hsafe (parPools 0) 3 parWorld 100_000 roundPayload o s₀ hopen
    have hdecoded : o.ctx.program = roundTrip.decoded :=
      Except.ok.inj (hdecode.symm.trans hdecodes)
    have hcount : o.ctx.program.opCount = 3 := congrArg Program.opCount hdecoded
    rw [← hdecoded] at hppm hprev
    obtain ⟨first, hfirst, hsafe₀⟩ := hops 0 (by omega) none s₀ rfl
    obtain ⟨second, hsecond, hsafe₁⟩ := hops 1 (by omega) _ s hprogram
    obtain rfl := Except.ok.inj (hfirst.symm.trans hppm)
    obtain rfl := Except.ok.inj (hsecond.symm.trans hprev)
    exact ⟨o, s₀, s, _, _, hopen, hdecoded, hppm, rfl, hsafe₀, hprogram, hprev, rfl, hsafe₁⟩

end Lending.SwapAggregator
