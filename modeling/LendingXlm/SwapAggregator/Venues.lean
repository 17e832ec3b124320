import LendingXlm.Common.Math
import LendingXlm.SwapAggregator.Ledger

/-!
# Venue adapters

`venues/`: the hops of each venue and the liquidity legs of Aquarius. The fill of a hop is the
measured change of the router's balances, never what the pool reports. The allowance a Comet pool
gets is the grant of its call: it is cleared when the call returns.
-/

namespace Lending.SwapAggregator

variable {router : Address} (venues : Venues router)

/-! ## `venues/mod.rs` -/

/-- The constituents of a pool, read with `fetch` unless a hop of this call read them before. -/
def poolTokens (fetch : Router (List Address)) (pool : Address) : Router (List Address) := do
  match (← get).tokensCache.get? pool with
  | some tokens => return tokens
  | none =>
    let tokens ← fetch
    require (2 ≤ tokens.length ∧ tokens.length ≤ maxAssets) RouterError.brokenTokenChain
    require (pool ∉ tokens ∧ tokens.Nodup) RouterError.brokenTokenChain
    modify fun s => { s with tokensCache := s.tokensCache.set pool tokens }
    return tokens

def findIndex (tokens : List Address) (target : Address) : Except RouterError Nat :=
  orThrow (tokens.idxOf? target) .brokenTokenChain

def toU128 (amount : Int) : Except RouterError Int := do
  require (0 ≤ amount) .integerOverflow
  return amount

/-- What `authorize_pool_pull` grants. -/
def poolPull (hop : SwapHop) (amountIn : Int) : List Grant := [⟨hop.tokenIn, amountIn⟩]

def directionForPair (hop : SwapHop) (token0 token1 : Address) : Except RouterError Bool :=
  if hop.tokenIn = token0 ∧ hop.tokenOut = token1 then pure true
  else if hop.tokenIn = token1 ∧ hop.tokenOut = token0 then pure false
  else throw .brokenTokenChain

/-! ## `soroswap.rs` -/

namespace Soroswap

def feeNum : Int := 3
def feeDen : Int := 1_000

def soroswapFee (amountIn : Int) : Except RouterError Int := do
  if amountIn ≤ 0 then return 0
  let scaled ← checkedMul amountIn feeNum
  let scaled ← checkedAdd scaled (feeDen - 1)
  return scaled.tdiv feeDen

def soroswapAmountOut (amountIn reserveIn reserveOut : Int) : Except RouterError Int := do
  if amountIn ≤ 0 ∨ reserveIn ≤ 0 ∨ reserveOut ≤ 0 then return 0
  let fee ← soroswapFee amountIn
  let inLess := amountIn - fee
  if inLess ≤ 0 then return 0
  let denominator ← checkedAdd reserveIn inLess
  FpCore.mulDivFloor inLess reserveOut denominator

def swap (hop : SwapHop) (amountIn : Int) : Router Unit := do
  let tokenInIs0 := decide (hop.tokenIn < hop.tokenOut)
  let reserves ← invoke venues [] (.getReserves hop.pool)
  let (reserveIn, reserveOut) :=
    if tokenInIs0 then (reserves.1, reserves.2) else (reserves.2, reserves.1)
  let requestedOut ← soroswapAmountOut amountIn reserveIn reserveOut
  require (0 < requestedOut) RouterError.zeroOutput
  transfer hop.tokenIn router hop.pool amountIn
  let (amount0Out, amount1Out) := if tokenInIs0 then (0, requestedOut) else (requestedOut, 0)
  invoke venues [] (.soroswapSwap hop.pool amount0Out amount1Out)

end Soroswap

/-! ## `aquarius/` -/

namespace Aquarius

def getTokens (pool : Address) : Router (List Address) := invoke venues [] (.getTokens pool)

def assertShareToken (pool lpToken : Address) : Router Unit := do
  let share : Address ← invoke venues [] (.shareId pool)
  require (share = lpToken) RouterError.lpTokenMismatch

def swap (hop : SwapHop) (amountIn : Int) : Router Unit := do
  let tokens ← poolTokens (getTokens venues hop.pool) hop.pool
  let inIdx ← findIndex tokens hop.tokenIn
  let outIdx ← findIndex tokens hop.tokenOut
  let amountIn ← toU128 amountIn
  invoke venues (poolPull hop amountIn) (.aquariusSwap hop.pool inIdx outIdx amountIn)

variable (router) in
/-- One constituent of `remove_liquidity` after the burn, with its balance before and its floor. -/
def creditConstituent (total : Int) (constituent : Address × Int × Int) : Router Int := do
  let (token, before, floor) := constituent
  let after ← balance router token
  let received ← orThrow (I128.checkedSub after before) RouterError.integerOverflow
  require (floor ≤ received) RouterError.minAmountsNotMet
  let total ← checkedAdd total received
  vaultDeposit token received
  return total

def removeLiquidity (pool lpToken : Address) (amounts : List Int) (minStart : Nat) :
    Router Unit := do
  let tokens ← poolTokens (getTokens venues pool) pool
  assertShareToken venues pool lpToken
  require (minStart + tokens.length ≤ amounts.length) RouterError.minAmountsNotMet
  let s ← get
  let shares := s.vault.balanceOf lpToken
  require (0 < shares) RouterError.invalidAmount
  let floors := (amounts.drop minStart).take tokens.length
  let minAmounts ← (floors.mapM toU128 : Except RouterError (List Int))
  let before := tokens.map fun token => s.ledger.balance token router
  let sharesBefore := s.ledger.balance lpToken router
  let _ ← invoke venues [⟨lpToken, shares⟩] (.withdraw pool shares minAmounts)
  let sharesAfter ← balance router lpToken
  let burned ← orThrow (I128.checkedSub sharesBefore sharesAfter) RouterError.integerOverflow
  require (burned = shares) RouterError.invalidAmount
  vaultWithdraw lpToken shares
  let totalReceived ←
    (tokens.zip (before.zip floors)).foldlM (creditConstituent router) 0
  require (0 < totalReceived) RouterError.zeroOutput

variable (router) in
/-- One constituent of `add_liquidity` after the deposit, with what the vault held of it and its
balance before. -/
def debitConstituent (constituent : Address × Int × Int) : Router Unit := do
  let (token, held, before) := constituent
  if held = 0 then return ()
  let after ← balance router token
  let spent ← orThrow (I128.checkedSub before after) RouterError.integerOverflow
  require (0 ≤ spent) RouterError.invalidAmount
  vaultWithdraw token spent

def addLiquidity (pool lpToken : Address) (minShares : Int) : Router Int := do
  let tokens ← poolTokens (getTokens venues pool) pool
  assertShareToken venues pool lpToken
  require (0 < minShares) RouterError.minSharesNotMet
  let s ← get
  let held ← (tokens.mapM fun token => toU128 (s.vault.balanceOf token) :
    Except RouterError (List Int))
  let before := tokens.map fun token =>
    if 0 < s.vault.balanceOf token then s.ledger.balance token router else 0
  let totalRequested ← (held.foldlM checkedAdd 0 : Except RouterError Int)
  require (0 < totalRequested) RouterError.invalidAmount
  let grants := ((tokens.zip held).filter fun c => decide (0 < c.2)).map fun c => ⟨c.1, c.2⟩
  let sharesBefore := s.ledger.balance lpToken router
  let _ ← invoke venues grants (.deposit pool held minShares)
  (tokens.zip (held.zip before)).forM (debitConstituent router)
  let sharesAfter ← balance router lpToken
  let shares ← orThrow (I128.checkedSub sharesAfter sharesBefore) RouterError.integerOverflow
  require (minShares ≤ shares) RouterError.minSharesNotMet
  vaultDeposit lpToken shares
  return shares

end Aquarius

/-! ## The other venues -/

namespace Phoenix

def swap (hop : SwapHop) (amountIn : Int) : Router Unit :=
  invoke venues (poolPull hop amountIn) (.phoenixSwap hop.pool hop.tokenIn amountIn)

end Phoenix

namespace Sushi

def minSqrtRatioPlusOne : Nat := 4_295_128_740
def maxSqrtRatioMinusOne : Nat := 0xfffd8963efd1fc6a506488495d951d5263988d25

def sqrtPriceLimit (zeroForOne : Bool) : Nat :=
  if zeroForOne then minSqrtRatioPlusOne else maxSqrtRatioMinusOne

def swap (hop : SwapHop) (amountIn : Int) : Router Unit := do
  let token0 : Address ← invoke venues [] (.token0 hop.pool)
  let token1 : Address ← invoke venues [] (.token1 hop.pool)
  let zeroForOne ← directionForPair hop token0 token1
  let hints : Nat ← invoke venues [] (.getOracleHints hop.pool)
  invoke venues (poolPull hop amountIn)
    (.sushiSwap hop.pool zeroForOne amountIn (sqrtPriceLimit zeroForOne) hints)

end Sushi

namespace Comet

def swap (hop : SwapHop) (amountIn : Int) : Router Unit :=
  invoke venues (poolPull hop amountIn)
    (.swapExactAmountIn hop.pool hop.tokenIn amountIn hop.tokenOut)

end Comet

namespace Curve

def coins (pool : Address) : Router (List Address) := do
  let info : Option (List Address) ← invoke venues [] (.poolInfo pool)
  orThrow info RouterError.brokenTokenChain

/-- Burning a pool's own shares needs no nested authorization: the call itself lets the pool burn
what it is asked to. -/
def swap (hop : SwapHop) (amountIn : Int) : Router Unit := do
  let tokens ← poolTokens (coins venues hop.pool) hop.pool
  if hop.tokenIn = hop.pool then
    let j ← findIndex tokens hop.tokenOut
    invoke venues (poolPull hop amountIn) (.removeLiquidityOneCoin hop.pool amountIn j)
  else
    let i ← findIndex tokens hop.tokenIn
    if hop.tokenOut = hop.pool then
      let amounts := (List.range tokens.length).map fun index => if index = i then amountIn else 0
      invoke venues (poolPull hop amountIn) (.addLiquidity hop.pool amounts)
    else
      let j ← findIndex tokens hop.tokenOut
      invoke venues (poolPull hop amountIn) (.exchange hop.pool i j amountIn)

end Curve

/-! ## Dispatch -/

def venueSwap (hop : SwapHop) (amountIn : Int) : Router Unit :=
  match hop.venue with
  | .soroswap => Soroswap.swap venues hop amountIn
  | .aquarius => Aquarius.swap venues hop amountIn
  | .phoenix => Phoenix.swap venues hop amountIn
  | .sushi => Sushi.swap venues hop amountIn
  | .cometDex => Comet.swap venues hop amountIn
  | .curve => Curve.swap venues hop amountIn

/-- Runs the hop; returns the measured increase of the output balance, when exactly `amountIn` was
spent. -/
def dispatchHop (hop : SwapHop) (amountIn : Int) : Router Int := do
  require (0 < amountIn) RouterError.invalidAmount
  require (hop.tokenIn ≠ hop.tokenOut) RouterError.sameToken
  let beforeIn ← balance router hop.tokenIn
  let beforeOut ← balance router hop.tokenOut
  venueSwap venues hop amountIn
  let afterOut ← balance router hop.tokenOut
  let received ← orThrow (I128.checkedSub afterOut beforeOut) RouterError.zeroOutput
  require (0 < received) RouterError.zeroOutput
  let afterIn ← balance router hop.tokenIn
  let spent ← orThrow (I128.checkedSub beforeIn afterIn) RouterError.invalidAmount
  require (spent = amountIn) RouterError.invalidAmount
  return received

end Lending.SwapAggregator
