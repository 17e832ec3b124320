import LendingXlm.SwapAggregator.Venues

/-!
# The swap router

`fees.rs`, `execute/` and the entrypoints of `lib.rs`. Who may call (`only_owner`, the sender's
authorization), ownership, the upgrade and the views are not part of the model.
-/

namespace Lending.SwapAggregator

variable (router : Address)

/-! ## `fees.rs` -/

/-- `FeeBucket::key`, of the admin's bucket or a referral's. -/
def feeBucketKey (referral : Option Nat) (token : Address) : FeeKey :=
  match referral with
  | none => .adminFee token
  | some id => .referralFee id token

def feeAmount (balance : Int) (feeBps : Nat) : Except RouterError Int := do
  let product ← checkedMul balance feeBps
  return product.tdiv bps

/-- The part of `apply_fees_on_token` for an active referral. -/
def applyActiveFees (token : Address) (referralId : Nat) (cfg : ReferralConfig) :
    Router Unit := do
  let s ← get
  let balance := s.vault.balanceOf token
  if balance ≤ 0 then return ()
  let staticFeeBps := s.store.staticFee
  let combinedBps := staticFeeBps + cfg.feeBps
  require (combinedBps ≤ u32Max) RouterError.integerOverflow
  if combinedBps = 0 then return ()
  require (combinedBps ≤ feeCap) RouterError.feeTooHigh
  let staticFee ← feeAmount balance staticFeeBps
  let referralFee ← feeAmount balance cfg.feeBps
  let total ← checkedAdd staticFee referralFee
  if total ≤ 0 then return ()
  vaultWithdraw token total
  let s ← get
  let store ← s.store.accumulateSwapFees token referralId staticFee referralFee
  set { s with store }

def applyFeesOnToken (token : Address) (referralId : Nat) : Router Unit := do
  if referralId = 0 then return ()
  match (← get).store.referral referralId with
  | none => return ()
  | some cfg => if cfg.active then applyActiveFees token referralId cfg else return ()

/-- One token of `claim_fee_bucket`. -/
def claimFee (recipient : Address) (referral : Option Nat) (token : Address) : Router Unit := do
  let s ← get
  let (store, amount) ← s.store.takeFeeBucket (feeBucketKey referral token)
  set { s with store }
  if 0 < amount then transfer token router recipient amount

def claimFeeBucket (recipient : Address) (tokens : List Address) (referral : Option Nat) :
    Router Unit :=
  tokens.forM (claimFee router recipient referral)

/-! ## `execute/` -/

abbrev PrevOutput := Option (Address × Int)

structure Ctx where
  assets : List Address
  amounts : List Int
  program : Program

namespace Ctx

def asset (ctx : Ctx) (i : Nat) : Except RouterError Address := orThrow ctx.assets[i]? .hostTrap

def amount (ctx : Ctx) (i : Nat) : Except RouterError Int := orThrow ctx.amounts[i]? .hostTrap

end Ctx

def resolveAmount (ctx : Ctx) (mode : Mode) (tokenIn : Address) (prev : PrevOutput) :
    Router Int := do
  let s ← get
  match mode with
  | .all => return s.vault.balanceOf tokenIn
  | .prev =>
    match prev with
    | none => throw .brokenTokenChain
    | some (prevToken, prevAmount) =>
      if prevToken ≠ tokenIn then throw .brokenTokenChain
      return prevAmount
  | .fixed idx => ctx.amount idx
  | .ppm idx =>
    let product ← checkedMul (s.vault.balanceOf tokenIn) (ctx.program.weight idx)
    return product.tdiv ppmDenominator

section Execute

variable {router} (venues : Venues router)

def executeSwap (ctx : Ctx) (hop : SwapHop) (mode : Mode) (prev : PrevOutput) :
    Router PrevOutput := do
  let amountIn ← resolveAmount ctx mode hop.tokenIn prev
  require (0 < amountIn) RouterError.invalidAmount
  vaultWithdraw hop.tokenIn amountIn
  let out ← dispatchHop venues hop amountIn
  require (0 < out) RouterError.zeroOutput
  vaultDeposit hop.tokenOut out
  return some (hop.tokenOut, out)

def executeOp (ctx : Ctx) (op : Op) (prev : PrevOutput) : Router PrevOutput := do
  let a ← ctx.asset op.idxA
  let b ← ctx.asset op.idxB
  match op.opcode with
  | .swap venue =>
    let c ← ctx.asset op.idxC
    executeSwap venues ctx ⟨a, b, c, venue⟩ op.mode prev
  | .burn =>
    Aquarius.removeLiquidity venues a b ctx.amounts op.idxC
    return none
  | .mint =>
    let minShares ← ctx.amount op.idxC
    let shares ← Aquarius.addLiquidity venues a b minShares
    return some (b, shares)

/-- One round of the instruction loop. -/
def executeNext (ctx : Ctx) (prev : PrevOutput) (i : Nat) : Router PrevOutput := do
  let op ← ctx.program.op i
  executeOp venues ctx op prev

end Execute

/-- One token of `accrue_residual_as_revenue`. -/
def accrueResidual (token : Address) : Router Unit := do
  let s ← get
  let amount := s.vault.balanceOf token
  if amount ≤ 0 then return ()
  require (amount ≤ residualAllowance (s.vault.creditedOf token)) RouterError.excessiveResidual
  vaultWithdraw token amount
  let s ← get
  let store ← s.store.accumulateFee (.adminFee token) amount
  set { s with store }

def accrueResidualAsRevenue : Router Unit := do
  (← get).vault.tokens.forM accrueResidual

/-- `common::token::transfer_amount_measured` into the router. -/
def transferAmountMeasured (token sender : Address) (amount : Int) : Router Int := do
  require (0 < amount) (RouterError.generic .amountMustBePositive)
  let pre ← balance router token
  transfer token sender router amount
  let post ← balance router token
  orThrow (I128.checkedSub post pre) (RouterError.generic .amountMustBePositive)

/-- Whether the fee is taken on the input token. -/
def feeOnInput (store : Storage) (referralId : Nat) (inputToken outputToken : Address) : Bool :=
  decide (referralId ≠ 0 ∧ (outputToken ∉ store.whitelist ∨ inputToken ∈ store.whitelist))

variable {router} in
def run (venues : Venues router) (sender : Address) (totalIn : Int) (payload : StrategyPayload) :
    Router Int := do
  require (0 < totalIn) RouterError.invalidAmount
  let program ← Program.decode payload.ops payload.assets payload.amounts.length
  let ctx : Ctx := ⟨payload.assets, payload.amounts, program⟩
  let inputToken ← ctx.asset program.tokenIn
  let outputToken ← ctx.asset program.tokenOut
  let totalMinOut ← ctx.amount program.minOut
  require (0 < totalMinOut) RouterError.slippageExceeded
  let creditedIn ← transferAmountMeasured router inputToken sender totalIn
  vaultDeposit inputToken creditedIn
  let onInput := feeOnInput (← get).store program.referralId inputToken outputToken
  if onInput then applyFeesOnToken inputToken program.referralId
  let _ ← (List.range program.opCount).foldlM (executeNext venues ctx) none
  if ¬ onInput then applyFeesOnToken outputToken program.referralId
  let totalOut := (← get).vault.balanceOf outputToken
  require (totalMinOut ≤ totalOut) RouterError.slippageExceeded
  vaultWithdraw outputToken totalOut
  transfer outputToken router sender totalOut
  accrueResidualAsRevenue
  return totalOut

/-! ## `lib.rs` -/

def modifyStore (f : Storage → Except RouterError Storage) : Router Unit := do
  let s ← get
  let store ← f s.store
  set { s with store }

def setStaticFee (feeBps : Nat) (s : Storage) : Except RouterError Storage := do
  require (feeBps ≤ feeCap) .feeTooHigh
  return { s with staticFeeBps := some feeBps }

def addToWhitelist (token : Address) (s : Storage) : Except RouterError Storage :=
  if token ∈ s.whitelist then pure s
  else pure { s with whitelistedTokens := some (s.whitelist ++ [token]) }

def removeFromWhitelist (token : Address) (s : Storage) : Except RouterError Storage :=
  if token ∈ s.whitelist then pure { s with whitelistedTokens := some (s.whitelist.erase token) }
  else pure s

def addReferral (owner : Address) (feeBps : Nat) (s : Storage) : Except RouterError Storage := do
  require (feeBps ≤ feeCap) .feeTooHigh
  let id := s.referralCounter.getD 0 + 1
  require (id ≤ u64Max) .integerOverflow
  return { s with referralCounter := some id }.setReferral id ⟨owner, feeBps, true⟩

def loadReferral (s : Storage) (id : Nat) : Except RouterError ReferralConfig :=
  orThrow (s.referral id) .referralNotFound

def setReferralFee (id feeBps : Nat) (s : Storage) : Except RouterError Storage := do
  require (feeBps ≤ feeCap) .feeTooHigh
  let cfg ← loadReferral s id
  return s.setReferral id { cfg with feeBps }

def setReferralActive (id : Nat) (active : Bool) (s : Storage) : Except RouterError Storage := do
  let cfg ← loadReferral s id
  return s.setReferral id { cfg with active }

def setReferralOwner (id : Nat) (newOwner : Address) (s : Storage) :
    Except RouterError Storage := do
  let cfg ← loadReferral s id
  return s.setReferral id { cfg with owner := newOwner }

def claimAdminFees (recipient : Address) (tokens : List Address) : Router Unit :=
  claimFeeBucket router recipient tokens none

def claimReferralFees (id : Nat) (tokens : List Address) : Router Unit := do
  let cfg ← loadReferral (← get).store id
  claimFeeBucket router cfg.owner tokens (some id)

/-- One token of `sweep_balance`. -/
def sweepToken (recipient token : Address) : Router Unit := do
  let s ← get
  let balance := s.ledger.balance token router
  let reserved := s.store.reservedFeeBalance token
  if reserved < balance then transfer token router recipient (balance - reserved)

def sweepBalance (recipient : Address) (tokens : List Address) : Router Unit :=
  tokens.forM (sweepToken router recipient)

/-! ## Calls -/

/-- What lies behind the router between its calls. -/
structure World where
  store : Storage
  ledger : Ledger

/-- The calls that can change the router's storage or balances, with what the venues do during an
execution. -/
inductive Call where
  | setStaticFee (feeBps : Nat)
  | addToWhitelist (token : Address)
  | removeFromWhitelist (token : Address)
  | addReferral (owner : Address) (feeBps : Nat)
  | setReferralFee (id feeBps : Nat)
  | setReferralActive (id : Nat) (active : Bool)
  | setReferralOwner (id : Nat) (newOwner : Address)
  | claimAdminFees (recipient : Address) (tokens : List Address)
  | claimReferralFees (id : Nat) (tokens : List Address)
  | sweepBalance (recipient : Address) (tokens : List Address)
  | executeStrategy (venues : Venues router) (sender : Address) (totalIn : Int)
      (payload : StrategyPayload)

variable {router}

def Call.body : Call router → Router Unit
  | setStaticFee feeBps => modifyStore (SwapAggregator.setStaticFee feeBps)
  | addToWhitelist token => modifyStore (SwapAggregator.addToWhitelist token)
  | removeFromWhitelist token => modifyStore (SwapAggregator.removeFromWhitelist token)
  | addReferral owner feeBps => modifyStore (SwapAggregator.addReferral owner feeBps)
  | setReferralFee id feeBps => modifyStore (SwapAggregator.setReferralFee id feeBps)
  | setReferralActive id active => modifyStore (SwapAggregator.setReferralActive id active)
  | setReferralOwner id newOwner => modifyStore (SwapAggregator.setReferralOwner id newOwner)
  | claimAdminFees recipient tokens => SwapAggregator.claimAdminFees router recipient tokens
  | claimReferralFees id tokens => SwapAggregator.claimReferralFees router id tokens
  | sweepBalance recipient tokens => SwapAggregator.sweepBalance router recipient tokens
  | executeStrategy venues sender totalIn payload => do
    let _ ← run venues sender totalIn payload

def Run.start (w : World) : Run := ⟨w.store, w.ledger, .new, .empty, 0⟩

def Call.apply (call : Call router) (w : World) : Except RouterError World :=
  match call.body (.start w) with
  | .ok _ s => .ok ⟨s.store, s.ledger⟩
  | .error e _ => .error e

/-- What happens to the router: a call, or anything else on the ledger. Without the router's
authorization nothing else lowers its balances. -/
inductive Event (router : Address) where
  | call (call : Call router)
  | outside (change : Ledger → Ledger)
      (keeps : ∀ l token, l.balance token router ≤ (change l).balance token router)

/-- A call that traps changes nothing. -/
def World.step (w : World) : Event router → World
  | .call call => (call.apply w).toOption.getD w
  | .outside change _ => { w with ledger := change w.ledger }

/-- The world after a list of events, from a new router. -/
def World.run (ledger : Ledger) (events : List (Event router)) : World :=
  events.foldl World.step ⟨.new, ledger⟩

end Lending.SwapAggregator
