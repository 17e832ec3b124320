import LendingXlm.Lib.SortedMap
import LendingXlm.PriceAggregator.Lp

/-!
# The resolution engine

`registry.rs`, `tolerance.rs`, `providers/aquarius.rs`, `providers/curve.rs`, `engine.rs`, the
prefetch of `session.rs` and the queries of `lib.rs`.

A function of the source that returns a `Result` is an `ExceptT OracleError Engine` here, so that
`?` is sequencing: an `OracleError` is carried as data, a `Panic` reverts the call. The recursion
of the source counts `depth` up to `MAX_RESOLUTION_DEPTH`; here `room` counts down from
`rootRoom`, and `depth > MAX_RESOLUTION_DEPTH` is `room = 0`. The readers of composed sources get
the nested resolver, one level down, as an argument.
-/

namespace Lending.PriceAggregator

/-! ## `registry.rs` -/

structure Registry where
  oracles : PriceKey → Option AssetOracle
  keys : List PriceKey

namespace Registry

def empty : Registry := ⟨fun _ => none, []⟩

def getOracle (reg : Registry) (key : PriceKey) : Option AssetOracle := reg.oracles key

def storeOracle (key : PriceKey) (oracle : AssetOracle) (reg : Registry) : Registry where
  oracles := Function.update reg.oracles key (some oracle)
  keys := if key ∈ reg.keys then reg.keys else reg.keys ++ [key]

end Registry

/-- `properties::dependencies`: the keys a source composes over. -/
def PriceSource.dependencies : PriceSource → List PriceKey
  | feed _ => []
  | scaled s => [s.quote]
  | aquariusLp lp | aquariusStableLp lp => [lp.keyA, lp.keyB]
  | curveStableLp lp => lp.coins.map .token

/-- Every key an oracle composes over, source by source. -/
def AssetOracle.dependencies (o : AssetOracle) : List PriceKey :=
  o.sources.flatMap PriceSource.dependencies

/-! ## `tolerance.rs` -/

def withinToleranceBand (anchor primary : Int) (tolerance : OracleTolerance) : Bool :=
  match FpCore.tryMulDivHalfUp (max anchor primary) bps (min anchor primary) with
  | none => false
  | some upperRatioBps => decide (upperRatioBps ≤ tolerance.upperRatioBps)

def midpointPriceOrZero (anchorPrice primaryPrice : Int) : Int :=
  ((I128.checkedAdd anchorPrice primaryPrice).map (·.tdiv 2)).getD 0

/-! ## Outcomes -/

structure Reading where
  priceWad : Int
  timestamp : Nat
  stale : Bool
  nature : FeedNature
  deriving DecidableEq, Repr

inductive LegSlot where
  | primary | secondary
  deriving DecidableEq, Repr

inductive Legs where
  | one (reading : Reading)
  | two (primary anchor : Reading)
  | part (reading : Reading) (slot : LegSlot)
  | empty
  deriving DecidableEq, Repr

structure Outcome where
  priceWad : Int
  timestamp : Nat
  firstWad : Int
  secondWad : Int
  stale : Bool
  deviation : Bool
  err : Option OracleError
  deriving DecidableEq, Repr

namespace Outcome

def blank : Outcome := ⟨0, 0, 0, 0, false, false, none⟩

def withErr (err : OracleError) : Outcome := { blank with err := some err }

def unreadable : Outcome := withErr .noLastPrice

def one (r : Reading) : Outcome where
  priceWad := r.priceWad
  timestamp := r.timestamp
  firstWad := r.priceWad
  secondWad := r.priceWad
  stale := r.stale
  deviation := false
  err := none

/-- Only one of two legs produced a reading: `Outcome::partial`. -/
def ofPart (reading : Reading) (slot : LegSlot) : Outcome where
  priceWad := 0
  timestamp := reading.timestamp
  firstWad := if slot = .primary then reading.priceWad else 0
  secondWad := if slot = .primary then 0 else reading.priceWad
  stale := reading.stale
  deviation := true
  err := none

/-- The error that makes the outcome unusable, the first that applies. -/
def failure (out : Outcome) (oracle : Option AssetOracle) : Option OracleError :=
  match out.err with
  | some err => some err
  | none =>
    match oracle with
    | none => some .oracleNotConfigured
    | some oracle =>
      if out.stale then some .priceFeedStale
      else if out.deviation then some .unsafePriceNotAllowed
      else if out.priceWad ≤ 0 then some .invalidPrice
      else if out.priceWad < oracle.minSanityPriceWad ∨
          oracle.maxSanityPriceWad < out.priceWad then some .sanityBoundViolated
      else none

/-- The carried error, if it is about the configuration. -/
def configFailure (out : Outcome) : Option OracleError :=
  match out.err with
  | some .oracleCycleDetected => some .oracleCycleDetected
  | some .oracleDepthExceeded => some .oracleDepthExceeded
  | some .sourceCountOutOfRange => some .sourceCountOutOfRange
  | some .oracleNotConfigured => some .oracleNotConfigured
  | _ => none

def toFeed (out : Outcome) (assetDecimals : Nat) : PriceFeedRaw :=
  ⟨out.priceWad, assetDecimals, out.timestamp⟩

def force (out : Outcome) (oracle : Option AssetOracle) : Except Panic PriceFeedRaw :=
  match out.failure oracle with
  | some err => throw (.oracle err)
  | none =>
    match oracle with
    | none => throw (.oracle .oracleNotConfigured)
    | some oracle => pure (out.toFeed oracle.assetDecimals)

def toStatus (out : Outcome) (oracle : Option AssetOracle) : PriceStatus :=
  let failure := out.failure oracle
  let errorCode := failure.map OracleError.code
  if out.err.isSome then { PriceStatus.unusable with errorCode }
  else
    { finalWad := out.priceWad
      primaryWad := out.firstWad
      secondaryWad := out.secondWad
      priceTimestamp := out.timestamp
      stale := out.stale
      deviation := out.deviation
      valid := failure.isNone
      errorCode }

end Outcome

/-- Whether the two legs of a dual source count as stale together: either leg alone, or two market
feeds observed too far apart. -/
def legsStale (primary anchor : Reading) : Bool :=
  let spreadBounded := primary.nature == .market && anchor.nature == .market
  let ageSpread := max primary.timestamp anchor.timestamp - min primary.timestamp anchor.timestamp
  primary.stale || anchor.stale || (spreadBounded && decide (maxLegAgeSpreadSeconds < ageSpread))

def blend (oracle : AssetOracle) : Legs → Outcome
  | .empty => .unreadable
  | .one r => .one r
  | .part reading slot => .ofPart reading slot
  | .two primary anchor =>
    { priceWad := midpointPriceOrZero anchor.priceWad primary.priceWad
      timestamp := min primary.timestamp anchor.timestamp
      firstWad := primary.priceWad
      secondWad := anchor.priceWad
      stale := legsStale primary anchor
      deviation := !withinToleranceBand anchor.priceWad primary.priceWad oracle.tolerance
      err := none }

/-! ## Reading sources -/

/-- A function of the source with a `Result`. -/
abbrev Reads := ExceptT OracleError Engine

/-- `ok_or`. -/
def okOr {α : Type} (o : Option α) (e : OracleError) : Except OracleError α := orThrow o e

instance : MonadLift (ExceptT OracleError (Except Panic)) Reads where
  monadLift x := ExceptT.mk (liftM x.run)

def sourceNature : PriceSource → FeedNature
  | .feed feed => feed.provider.nature
  | .scaled scaled => scaled.factor.provider.nature
  | .aquariusLp _ | .aquariusStableLp _ | .curveStableLp _ => .market

variable (p : Providers)

section Readers

variable (nested : PriceKey → Reads PriceFeedRaw)

def readScaled (scaled : ScaledSource) : Reads (Option (OracleObservation × Bool)) := do
  match ← (readFeed p scaled.factor : Engine _) with
  | none => return none
  | some (factor, factorStale) =>
    if factor.priceWad < scaled.minFactorWad ∨ scaled.maxFactorWad < factor.priceWad then
      throw .factorOutOfBounds
    let quote ← nested scaled.quote
    let priceWad ← okOr (FpCore.tryMulDivHalfUp factor.priceWad quote.priceWad wad)
      .invalidPrice
    return some (⟨priceWad, min factor.timestamp quote.timestamp⟩, factorStale)

/-! ### `providers/aquarius.rs` -/

def aquariusAmpCall (pool : Address) : Option Nat :=
  (p.aquariusAmp pool).filter fun amp => decide (0 < amp)

def aquariusPoolReservesCall (pool : Address) : Option (Int × Int) :=
  match p.aquariusReserves pool with
  | some [a, b] => do return (← tryU256ToI128 a, ← tryU256ToI128 b)
  | _ => none

def aquariusTotalSharesCall (pool : Address) : Option Int :=
  (p.aquariusTotalShares pool).bind tryU256ToI128

def poolKindMatches (lp : AquariusLpSource) (stable : Bool) : Bool :=
  decide (p.aquariusPoolType lp.pool = some (if stable then "stable" else "constant_product"))

def boundTokens (key : PriceKey) (lp : AquariusLpSource) : Option (List Address) :=
  match key with
  | .ref _ => none
  | .token share =>
    if p.aquariusShareId lp.pool ≠ some share then none
    else
      (p.aquariusTokens lp.pool).filter fun tokens => decide (tokens = [lp.tokenA, lp.tokenB])

def decimalsMatch (share : Address) (tokens : List Address) (shareDecimals : Nat)
    (lp : AquariusLpSource) : Bool :=
  decide (p.tokenDecimals share = some shareDecimals ∧
    tokens[0]?.bind p.tokenDecimals = some lp.reserveADecimals ∧
    tokens[1]?.bind p.tokenDecimals = some lp.reserveBDecimals)

/-- `aquarius::read`, before it resolves its legs. -/
def aquariusBinding (key : PriceKey) (lp : AquariusLpSource) (shareDecimals : Nat)
    (stable : Bool) : Except OracleError Unit := do
  let tokens ← orThrow (boundTokens p key lp) .noLastPrice
  require (poolKindMatches p lp stable = true) .noLastPrice
  match key with
  | .ref _ => throw .noLastPrice
  | .token share => require (decimalsMatch p share tokens shareDecimals lp = true) .noLastPrice

/-- `aquarius::read`, after it resolved its legs. -/
def aquariusPrice (lp : AquariusLpSource) (shareDecimals : Nat) (stable : Bool)
    (priceA priceB : PriceFeedRaw) : ExceptT OracleError (Except Panic) Int := do
  let (reserveA, reserveB) ← okOr (aquariusPoolReservesCall p lp.pool) .noLastPrice
  let totalShares ← okOr (aquariusTotalSharesCall p lp.pool) .noLastPrice
  let legA : LpLeg := ⟨reserveA, lp.reserveADecimals, priceA.priceWad⟩
  let legB : LpLeg := ⟨reserveB, lp.reserveBDecimals, priceB.priceWad⟩
  let supply : LpSupply := ⟨totalShares, shareDecimals⟩
  let priceWad ←
    if stable then do
      let amp ← okOr (aquariusAmpCall p lp.pool) .noLastPrice
      fairStableLpPriceWad legA legB supply amp
    else fairLpPriceWad legA legB supply
  let shareUnit ← okOr (I128.checkedPow 10 shareDecimals) .invalidPrice
  let poolValueWad ← okOr (FpCore.tryMulDivHalfUp priceWad totalShares shareUnit)
    .invalidPrice
  if poolValueWad < lp.minPoolValueWad then throw OracleError.insufficientAquariusLiquidity
  return priceWad

def aquariusRead (key : PriceKey) (lp : AquariusLpSource) (shareDecimals : Nat) (stable : Bool) :
    Reads (Option (OracleObservation × Bool)) := do
  aquariusBinding p key lp shareDecimals stable
  let priceA ← nested lp.keyA
  let priceB ← nested lp.keyB
  let priceWad ← aquariusPrice p lp shareDecimals stable priceA priceB
  return some (⟨priceWad, min priceA.timestamp priceB.timestamp⟩, false)

/-! ### `providers/curve.rs` -/

/-- The checks of the `i`-th coin of a Curve pool against `pool_info`. -/
def curveCoinMatches (info : CurvePoolInfo) (coin : Address) (i : Nat) : Bool :=
  match info.coinDecimals[i]?, info.rates[i]? with
  | some decimals, some rate =>
    decide (decimals ≤ 18 ∧ p.tokenDecimals coin = some decimals ∧ rate = 10 ^ (36 - decimals))
  | _, _ => false

/-- `bound_pool`: whether the pool still matches its configured binding. -/
def boundPool (key : PriceKey) (lp : CurveStableLpSource) (decimals : Nat) : Bool :=
  decide (key = .token lp.pool ∧ decimals = 18 ∧ p.executable lp.pool = some lp.wasmHash) &&
    match p.curvePoolInfo lp.pool with
    | none => false
    | some info =>
      decide (p.curveDecimals lp.pool = some 18 ∧ info.coins = lp.coins ∧ info.precision = wad) &&
        lp.coins.zipIdx.all fun (coin, i) => curveCoinMatches p info coin i

/-- One coin of the loop of `curve::read`: the lowest price and the oldest timestamp so far. -/
def curveCoin (seen : Int × Nat) (coin : Address) : Reads (Int × Nat) := do
  let price ← nested (.token coin)
  return (min seen.1 price.priceWad, min seen.2 price.timestamp)

/-- `curve::read`, after it resolved its coins. -/
def curvePrice (lp : CurveStableLpSource) (minimum : Int) :
    ExceptT OracleError (Except Panic) Int := do
  let virtualPrice ← okOr (p.curveVirtualPrice lp.pool) .noLastPrice
  let supply ← okOr (p.curveTotalSupply lp.pool) .noLastPrice
  let priceWad ← (FpCore.mulDivFloorSaturating virtualPrice minimum wad : Result Int)
  let poolValueWad ← (FpCore.mulDivFloorSaturating priceWad supply wad : Result Int)
  if poolValueWad < lp.minPoolValueWad then throw OracleError.insufficientCurveLiquidity
  return priceWad

def curveRead (key : PriceKey) (lp : CurveStableLpSource) (decimals : Nat) :
    Reads (Option (OracleObservation × Bool)) := do
  if ¬ boundPool p key lp decimals then throw .unsupportedCurvePool
  let (minimum, timestamp) ← lp.coins.foldlM (curveCoin nested) (i128Max, p.nowSecs)
  let priceWad ← curvePrice p lp minimum
  return some (⟨priceWad, timestamp⟩, false)

/-! ### Sources and legs -/

def evaluateSource (key : PriceKey) (source : PriceSource) (assetDecimals : Nat) :
    Reads (Option (OracleObservation × Bool)) :=
  match source with
  | .feed feed => (readFeed p feed : Engine _)
  | .scaled scaled => readScaled p nested scaled
  | .aquariusLp lp => aquariusRead p nested key lp assetDecimals false
  | .aquariusStableLp lp => aquariusRead p nested key lp assetDecimals true
  | .curveStableLp lp => curveRead p nested key lp assetDecimals

def readSource (key : PriceKey) (oracle : AssetOracle) (source : PriceSource) :
    Reads (Option Reading) := do
  match ← evaluateSource p nested key source oracle.assetDecimals with
  | none => return none
  | some (observation, componentStale) =>
    return some
      { priceWad := observation.priceWad
        timestamp := observation.timestamp
        stale := componentStale ||
          isStale p.nowSecs observation.timestamp oracle.maxPriceStaleSeconds
        nature := sourceNature source }

/-- The legs of a single source. -/
def singleLegs : Option Reading → Legs
  | some r => .one r
  | none => .empty

/-- The legs of a dual source. -/
def dualLegs : Option Reading → Option Reading → Legs
  | some primary, some anchor => .two primary anchor
  | some reading, none => .part reading .primary
  | none, some reading => .part reading .secondary
  | none, none => .empty

def compose (key : PriceKey) (oracle : AssetOracle) : Reads Legs :=
  match oracle.sources with
  | [source] => do
    let first ← readSource p nested key oracle source
    return singleLegs first
  | [source, source'] => do
    let first ← readSource p nested key oracle source
    let second ← readSource p nested key oracle source'
    return dualLegs first second
  | _ => throw .sourceCountOutOfRange

end Readers

/-! ## Resolution -/

variable (reg : Registry)

/-- The room at depth zero. -/
def rootRoom : Nat := maxResolutionDepth + 1

def validateCachedPath : Nat → PriceKey → Reads Unit
  | 0, _ => throw .oracleDepthExceeded
  | room + 1, key => do
    if (← getThe Session).isResolving key then throw .oracleCycleDetected
    let oracle ← okOr (reg.getOracle key) .oracleNotConfigured
    (Session.pushKey key : Engine _)
    -- the walk stops at the first error, but the key is popped all the same
    let result ← ExceptT.lift (oracle.dependencies.forM (validateCachedPath room)).run
    (Session.popKey : Engine _)
    (result : Except OracleError Unit)

/-- `resolve_nested`, from the resolver and the path check of its depth. -/
def resolveNested (resolveAt : PriceKey → Engine (Outcome × Option AssetOracle))
    (validateAt : PriceKey → Reads Unit) (key : PriceKey) : Reads PriceFeedRaw := do
  let session ← getThe Session
  match session.keyPrices key, session.keyErrors key with
  | some cached, _ =>
    validateAt key
    return cached
  | none, some cached =>
    validateAt key
    throw cached
  | none, none =>
    let (outcome, oracle) ← (resolveAt key : Engine _)
    match outcome.failure oracle with
    | some err =>
      if outcome.configFailure.isNone then
        (Session.storeError key err : Engine _)
      throw err
    | none =>
      let oracle ← okOr oracle .oracleNotConfigured
      let feed := outcome.toFeed oracle.assetDecimals
      (Session.storePrice key feed : Engine _)
      return feed

/-- The outcome of composed legs, or of the error that stopped the composition. -/
def outcomeOf (oracle : AssetOracle) : Except OracleError Legs → Outcome
  | .ok legs => blend oracle legs
  | .error err => .withErr err

def resolveOutcome : Nat → PriceKey → Option AssetOracle → Engine (Outcome × Option AssetOracle)
  | 0, _, _ => return (.withErr .oracleDepthExceeded, none)
  | room + 1, key, overrideOracle => do
    if (← get).isResolving key then return (.withErr .oracleCycleDetected, none)
    Session.pushKey key
    match overrideOracle.or (reg.getOracle key) with
    | none =>
      Session.popKey
      return (.withErr .oracleNotConfigured, none)
    | some oracle =>
      let nested := resolveNested (fun k => resolveOutcome room k none)
        (validateCachedPath reg room)
      let legs ← (compose p nested key oracle).run
      Session.popKey
      return (outcomeOf oracle legs, some oracle)

def resolve (key : PriceKey) : Engine PriceFeedRaw := do
  match (← get).keyPrices key with
  | some cached => return cached
  | none =>
    let (outcome, oracle) ← resolveOutcome p reg rootRoom key none
    let feed ← outcome.force oracle
    Session.storePrice key feed
    return feed

def resolveStatus (key : PriceKey) : Engine PriceStatus := do
  match (← get).keyStatuses key with
  | some cached => return cached
  | none =>
    let (outcome, oracle) ← resolveOutcome p reg rootRoom key none
    let status := outcome.toStatus oracle
    Session.storeStatus key status
    return status

def probePriceable (key : PriceKey) (oracle : AssetOracle) : Engine Unit := do
  let (outcome, resolved) ← resolveOutcome p reg rootRoom key (some oracle)
  let _ ← outcome.force (resolved.or (some oracle))

def probe (key : PriceKey) (oracle : AssetOracle) : Engine Unit := do
  let (outcome, _) ← resolveOutcome p reg rootRoom key (some oracle)
  match outcome.configFailure with
  | some err => throw (.oracle err)
  | none => return ()

/-! ## Prefetch -/

/-- What `collect_key` gathers: the feeds of each adapter, and the keys visited. -/
structure Collected where
  byAdapter : SortedMap Address (List FeedId)
  visited : List PriceKey

def collectProvider (c : Collected) : ProviderRef → Collected
  | .redStone feed | .xoxno feed =>
    let feeds := (c.byAdapter.get? feed.contract).getD []
    let feeds := if feed.feedId ∈ feeds then feeds else feeds ++ [feed.feedId]
    { c with byAdapter := c.byAdapter.set feed.contract feeds }
  | .chainlink _ | .reflector _ => c

def collectSource (c : Collected) : PriceSource → Collected
  | .feed feed => collectProvider c feed.provider
  | .scaled scaled => collectProvider c scaled.factor.provider
  | .aquariusLp _ | .aquariusStableLp _ | .curveStableLp _ => c

def collectKey : Nat → Collected → PriceKey → Collected
  | 0, c, _ => c
  | room + 1, c, key =>
    if key ∈ c.visited then c
    else
      let c := { c with visited := c.visited ++ [key] }
      match reg.getOracle key with
      | none => c
      | some oracle =>
        oracle.sources.foldl
          (fun c source => source.dependencies.foldl (collectKey room) (collectSource c source)) c

def minBulkFeeds : Nat := 2

/-- The bulk read of one adapter; a failed read is skipped. -/
def warmAdapter (s : Session) (entry : Address × List FeedId) : Session :=
  if entry.2.length < minBulkFeeds then s
  else
    match readPriceDataBulk p entry.1 entry.2 with
    | none => s
    | some payloads =>
      (entry.2.zip payloads).foldl (fun s (feedId, payload) => s.setFeed entry.1 feedId payload) s

def Session.warm (keys : List PriceKey) (s : Session) : Session :=
  let collected := keys.foldl (collectKey reg rootRoom) ⟨.empty, []⟩
  collected.byAdapter.entries.foldl (warmAdapter p) s

def warmedSession (keys : List PriceKey) : Session := Session.new.warm p reg keys

/-! ## Queries -/

/-- Runs a resolution from a session; only its answer leaves the call. -/
def Engine.answer {α : Type} (x : Engine α) (s : Session) : Except Panic α :=
  match x s with
  | .ok a _ => .ok a
  | .error e _ => .error e

/-- Resolves each key in turn and collects the answers by key. -/
def collectAnswers {α : Type} (query : PriceKey → Engine α) (keys : List PriceKey) :
    Engine (PriceKey → Option α) :=
  keys.foldlM
    (fun out key => do
      let answer ← query key
      return Function.update out key (some answer))
    fun _ => none

def prices (keys : List PriceKey) : Except Panic (PriceKey → Option PriceFeedRaw) :=
  (collectAnswers (resolve p reg) keys).answer (warmedSession p reg keys)

def quotes (keys : List PriceKey) : Except Panic (PriceKey → Option PriceStatus) :=
  (collectAnswers (resolveStatus p reg) keys).answer (warmedSession p reg keys)

end Lending.PriceAggregator
