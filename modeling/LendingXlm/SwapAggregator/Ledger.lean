import LendingXlm.Lib.SortedMap
import LendingXlm.Lib.Transaction
import LendingXlm.SwapAggregator.Program

/-!
# Storage, vault and tokens of the swap router

`storage.rs` and `vault.rs`, and the tokens the router moves. The key `ReferralFee(id, token)` is
the entry `id` of the map `referralFee token`, so that the buckets of one token can be summed. TTL
extensions are not part of the model.

Tokens conform: a transfer moves exactly its amount, from a balance that covers it.
-/

namespace Lending.SwapAggregator

/-! ## `storage.rs` -/

/-- The fee buckets among the keys of `DataKey`. -/
inductive FeeKey where
  | adminFee (token : Address)
  | referralFee (id : Nat) (token : Address)
  deriving DecidableEq, Repr

/-- `bucket_token`, which has no other key to fail on here. -/
def FeeKey.token : FeeKey → Address
  | adminFee token => token
  | referralFee _ token => token

structure Storage where
  staticFeeBps : Option Nat
  whitelistedTokens : Option (List Address)
  referralCounter : Option Nat
  referral : Nat → Option ReferralConfig
  adminFee : Address → Option Int
  referralFee : Address → SortedMap Nat Int
  reservedTotal : Address → Option Int

namespace Storage

def new : Storage where
  staticFeeBps := none
  whitelistedTokens := none
  referralCounter := none
  referral := fun _ => none
  adminFee := fun _ => none
  referralFee := fun _ => .empty
  reservedTotal := fun _ => none

variable (s : Storage)

def staticFee : Nat := s.staticFeeBps.getD 0

def whitelist : List Address := s.whitelistedTokens.getD []

/-- `fee_balance`. -/
def feeBalance : FeeKey → Int
  | .adminFee token => (s.adminFee token).getD 0
  | .referralFee id token => ((s.referralFee token).get? id).getD 0

def setFee (key : FeeKey) (amount : Int) : Storage :=
  match key with
  | .adminFee token => { s with adminFee := Function.update s.adminFee token (some amount) }
  | .referralFee id token =>
    { s with
      referralFee := Function.update s.referralFee token ((s.referralFee token).set id amount) }

def removeFee (key : FeeKey) : Storage :=
  match key with
  | .adminFee token => { s with adminFee := Function.update s.adminFee token none }
  | .referralFee id token =>
    { s with
      referralFee := Function.update s.referralFee token ((s.referralFee token).erase id) }

/-- `reserved_fee_balance`. -/
def reservedFeeBalance (token : Address) : Int := (s.reservedTotal token).getD 0

def setReserved (token : Address) (amount : Option Int) : Storage :=
  { s with reservedTotal := Function.update s.reservedTotal token amount }

def setReferral (id : Nat) (cfg : ReferralConfig) : Storage :=
  { s with referral := Function.update s.referral id (some cfg) }

def creditBucket (key : FeeKey) (amount : Int) : Except RouterError Storage := do
  let next ← checkedAdd (s.feeBalance key) amount
  return s.setFee key next

def reserve (token : Address) (amount : Int) : Except RouterError Storage := do
  require (0 ≤ amount) .internalInvariant
  if amount = 0 then return s
  let next ← checkedAdd (s.reservedFeeBalance token) amount
  return s.setReserved token (some next)

def release (token : Address) (amount : Int) : Except RouterError Storage := do
  let current := s.reservedFeeBalance token
  require (amount ≤ current) .internalInvariant
  let next := current - amount
  return s.setReserved token (if next = 0 then none else some next)

def accumulateFee (key : FeeKey) (amount : Int) : Except RouterError Storage := do
  let s ← s.creditBucket key amount
  s.reserve key.token amount

/-- One bucket of `accumulate_swap_fees`, and the reserved amount so far. -/
def accumulateSwapFee (key : FeeKey) (amount reserved : Int) :
    Except RouterError (Storage × Int) := do
  if 0 < amount then
    let s ← s.creditBucket key amount
    let reserved ← checkedAdd reserved amount
    return (s, reserved)
  else return (s, reserved)

def accumulateSwapFees (token : Address) (referralId : Nat) (staticAmount referralAmount : Int) :
    Except RouterError Storage := do
  let (s, reserved) ← s.accumulateSwapFee (.adminFee token) staticAmount 0
  let (s, reserved) ← s.accumulateSwapFee (.referralFee referralId token) referralAmount reserved
  s.reserve token reserved

/-- Empties a positive bucket. -/
def takeFeeBucket (key : FeeKey) : Except RouterError (Storage × Int) := do
  let amount := s.feeBalance key
  if 0 < amount then
    let s ← (s.removeFee key).release key.token amount
    return (s, amount)
  else return (s, amount)

end Storage

/-! ## `vault.rs` -/

structure Vault where
  balances : SortedMap Address Int
  credited : SortedMap Address Int

namespace Vault

def new : Vault := ⟨.empty, .empty⟩

variable (v : Vault)

def balanceOf (token : Address) : Int := (v.balances.get? token).getD 0

def tokens : List Address := v.balances.keys

def creditedOf (token : Address) : Int := (v.credited.get? token).getD 0

def deposit (token : Address) (amount : Int) : Except RouterError Vault := do
  if amount = 0 then return v
  require (0 ≤ amount) .invalidAmount
  let new ← orThrow (I128.checkedAdd (v.balanceOf token) amount) .integerOverflow
  let credited ← orThrow (I128.checkedAdd (v.creditedOf token) amount) .integerOverflow
  return ⟨v.balances.set token new, v.credited.set token credited⟩

def withdraw (token : Address) (amount : Int) : Except RouterError Vault := do
  if amount = 0 then return v
  require (0 ≤ amount) .invalidAmount
  let current := v.balanceOf token
  require (amount ≤ current) .invalidAmount
  return { v with balances := v.balances.set token (current - amount) }

end Vault

/-! ## Tokens -/

/-- The balances of all tokens by holder; no token has a negative one. -/
structure Ledger where
  balance : Address → Address → Int
  nonneg : ∀ token holder, 0 ≤ balance token holder

namespace Ledger

/-- A transfer of a conforming token; `none` when it fails. -/
def transfer (l : Ledger) (token sender recipient : Address) (amount : Int) : Option Ledger :=
  if h : 0 ≤ amount ∧ amount ≤ l.balance token sender then
    some
      { balance := fun t a =>
          l.balance t a - (if t = token ∧ a = sender then amount else 0) +
            (if t = token ∧ a = recipient then amount else 0)
        nonneg := by
          intro t a
          have hta := l.nonneg t a
          split_ifs with hs hr
          · omega
          · obtain ⟨rfl, rfl⟩ := hs
            omega
          · omega
          · omega }
  else none

end Ledger

/-! ## Venues -/

/-- What the router authorizes for one call: a venue may take up to `amount` of the token. -/
structure Grant where
  token : Address
  amount : Int
  deriving DecidableEq, Repr

/-- Everything the grants allow of a token. -/
def granted (grants : List Grant) (token : Address) : Int :=
  (grants.map fun g => if g.token = token then g.amount else 0).sum

/-- The calls the adapters make into a pool, with the arguments the pool does not know already. -/
inductive VenueCall where
  | getReserves (pool : Address)
  | soroswapSwap (pool : Address) (amount0Out amount1Out : Int)
  | getTokens (pool : Address)
  | shareId (pool : Address)
  | aquariusSwap (pool : Address) (inIdx outIdx : Nat) (amountIn : Int)
  | withdraw (pool : Address) (shares : Int) (minAmounts : List Int)
  | deposit (pool : Address) (amounts : List Int) (minShares : Int)
  | phoenixSwap (pool tokenIn : Address) (amountIn : Int)
  | token0 (pool : Address)
  | token1 (pool : Address)
  | getOracleHints (pool : Address)
  | sushiSwap (pool : Address) (zeroForOne : Bool) (amountIn : Int) (priceLimit hints : Nat)
  | swapExactAmountIn (pool tokenIn : Address) (amountIn : Int) (tokenOut : Address)
  | poolInfo (pool : Address)
  | removeLiquidityOneCoin (pool : Address) (amountIn : Int) (index : Nat)
  | addLiquidity (pool : Address) (amounts : List Int)
  | exchange (pool : Address) (i j : Nat) (amountIn : Int)

/-- What a call returns, as far as the adapters look at it. The `coins` of a Curve pool are `none`
when they are missing or not addresses. -/
def VenueCall.Reply : VenueCall → Type
  | getReserves _ => Int × Int
  | getTokens _ => List Address
  | shareId _ | token0 _ | token1 _ => Address
  | getOracleHints _ => Nat
  | poolInfo _ => Option (List Address)
  | _ => Unit

/-- What the pools do during one call of the router, which has made some number of calls into them
already; `none` is a failed call. From the router a pool takes no more than the router granted it
for the call. -/
structure Venues (router : Address) where
  invoke : Nat → List Grant → (call : VenueCall) → Ledger → Option (call.Reply × Ledger)
  takes_granted : ∀ calls grants call l reply l', invoke calls grants call l = some (reply, l') →
    ∀ token, l.balance token router - granted grants token ≤ l'.balance token router

/-! ## The state of one call -/

structure Run where
  store : Storage
  ledger : Ledger
  vault : Vault
  tokensCache : SortedMap Address (List Address)
  calls : Nat

/-- A step of the router. A trap reverts the call. -/
abbrev Router := EStateM RouterError Run

variable {router : Address}

/-- `token::Client::balance` at the router. -/
def balance (router token : Address) : Router Int := do
  return (← get).ledger.balance token router

/-- `token::Client::transfer`. -/
def transfer (token sender recipient : Address) (amount : Int) : Router Unit := do
  let s ← get
  let ledger ← orThrow (s.ledger.transfer token sender recipient amount) RouterError.hostTrap
  set { s with ledger }

/-- A call into a pool under the grants. -/
def invoke (venues : Venues router) (grants : List Grant) (call : VenueCall) :
    Router call.Reply := do
  let s ← get
  let (reply, ledger) ← orThrow (venues.invoke s.calls grants call s.ledger) RouterError.hostTrap
  set { s with ledger, calls := s.calls + 1 }
  return reply

/-- `Vault::deposit`. -/
def vaultDeposit (token : Address) (amount : Int) : Router Unit := do
  let s ← get
  let vault ← s.vault.deposit token amount
  set { s with vault }

/-- `Vault::withdraw`. -/
def vaultWithdraw (token : Address) (amount : Int) : Router Unit := do
  let s ← get
  let vault ← s.vault.withdraw token amount
  set { s with vault }

end Lending.SwapAggregator
