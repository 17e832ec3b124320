import LendingXlm.PriceAggregator.Types

/-!
# Reading feeds

`common/src/oracle/observation.rs`, `price-aggregator/src/observation.rs`, the state of
`session.rs` and the feed providers `reflector.rs`, `chainlink.rs` and `multi_feed.rs`: a
provider's answer is normalized to an observation, or there is none.
-/

namespace Lending.PriceAggregator

/-! ## `observation.rs` -/

structure OracleObservation where
  priceWad : Int
  timestamp : Nat
  deriving DecidableEq, Repr

def tryNormalizePositivePrice (price : Int) (decimals : Nat) : Option Int :=
  if price ≤ 0 ∨ wadDecimals < decimals then none
  else do
    let factor ← I128.checkedPow 10 (wadDecimals - decimals)
    I128.checkedMul price factor

def isStale (nowSecs feedTs maxStale : Nat) : Bool :=
  decide (feedTs < nowSecs ∧ maxStale < nowSecs - feedTs)

/-- A ledger time so late that the skew overflows `u64` lets every timestamp pass. -/
def isFutureAt (nowSecs feedTs : Nat) : Bool :=
  if nowSecs + maxFutureSkewSeconds ≤ u64Max then
    decide (nowSecs + maxFutureSkewSeconds < feedTs)
  else false

def tryU256ToI128 (value : Nat) : Option Int :=
  if (value : Int) ≤ i128Max then some value else none

def millisToSeconds (timestampMs : Nat) : Nat := timestampMs / msPerSecond

namespace OracleObservation

def fromChainlink (nowSecs : Nat) (round : ChainlinkRound) (decimals : Nat) :
    Option OracleObservation :=
  if isFutureAt nowSecs round.timestamp then none
  else do
    let answer ← FpCore.toI128? round.answer
    let priceWad ← tryNormalizePositivePrice answer decimals
    return ⟨priceWad, round.timestamp⟩

def fromMultiFeed (nowSecs : Nat) (priceData : RedStonePriceData) (decimals : Nat) :
    Option OracleObservation :=
  let packageTs := millisToSeconds priceData.packageTimestamp
  let writeTs := millisToSeconds priceData.writeTimestamp
  if isFutureAt nowSecs packageTs ∨ isFutureAt nowSecs writeTs then none
  else do
    let rawPrice ← tryU256ToI128 priceData.price
    let priceWad ← tryNormalizePositivePrice rawPrice decimals
    return ⟨priceWad, min writeTs packageTs⟩

def fromReflector (nowSecs : Nat) (priceData : ReflectorPriceData) (decimals : Nat) :
    Option OracleObservation :=
  if isFutureAt nowSecs priceData.timestamp then none
  else do
    let priceWad ← tryNormalizePositivePrice priceData.price decimals
    return ⟨priceWad, priceData.timestamp⟩

end OracleObservation

/-! ## `session.rs` -/

/-- The state of one resolution: the raw payloads read, the keys being resolved (the latest
first), and what was resolved for each key. `now_secs` is the ledger's. -/
structure Session where
  feedCache : Address → FeedId → Option RedStonePriceData
  resolvingKeys : List PriceKey
  keyPrices : PriceKey → Option PriceFeedRaw
  keyErrors : PriceKey → Option OracleError
  keyStatuses : PriceKey → Option PriceStatus

def Session.new : Session where
  feedCache := fun _ _ => none
  resolvingKeys := []
  keyPrices := fun _ => none
  keyErrors := fun _ => none
  keyStatuses := fun _ => none

/-- A step of the resolution. A panic reverts the call. -/
abbrev Engine := EStateM Panic Session

namespace Session

def setFeed (adapter : Address) (feedId : FeedId) (data : RedStonePriceData) (s : Session) :
    Session :=
  { s with
    feedCache := fun a f => if a = adapter ∧ f = feedId then some data else s.feedCache a f }

def isResolving (key : PriceKey) (s : Session) : Bool := decide (key ∈ s.resolvingKeys)

def pushKey (key : PriceKey) : Engine Unit := do
  let s ← get
  if s.isResolving key then throw (.oracle .oracleCycleDetected)
  set { s with resolvingKeys := key :: s.resolvingKeys }

theorem pushKey_run (key : PriceKey) (s : Session) :
    pushKey key s =
      if key ∈ s.resolvingKeys then .error (.oracle .oracleCycleDetected) s
      else .ok () { s with resolvingKeys := key :: s.resolvingKeys } := by
  change (if s.isResolving key = true then _ else _ : Engine Unit) s = _
  by_cases h : key ∈ s.resolvingKeys <;> simp [isResolving, h] <;> rfl

def popKey : Engine Unit :=
  modify fun s => { s with resolvingKeys := s.resolvingKeys.tail }

def storePrice (key : PriceKey) (feed : PriceFeedRaw) : Engine Unit :=
  modify fun s => { s with keyPrices := Function.update s.keyPrices key (some feed) }

def storeError (key : PriceKey) (error : OracleError) : Engine Unit :=
  modify fun s => { s with keyErrors := Function.update s.keyErrors key (some error) }

def storeStatus (key : PriceKey) (status : PriceStatus) : Engine Unit :=
  modify fun s => { s with keyStatuses := Function.update s.keyStatuses key (some status) }

end Session

/-! ## Providers -/

def validateTwapRecords (records : Nat) : Except Panic Unit := do
  assertOracle (records ≠ 0) .twapInsufficientObservations
  assertOracle (records ≤ maxTwapRecords) .twapRecordsOutOfRange

def toReflectorAsset : OracleAssetRef → Except Panic ReflectorAsset
  | .stellar address => pure (.stellar address)
  | .symbol symbol => pure (.other symbol)
  | .string _ => throw (.oracle .invalidOracleTokenType)

/-- The mean, rounded down; `none` for an empty history, a price that is not positive, or a sum
that overflows. -/
def tryTwapMeanPrice (history : List ReflectorPriceData) : Option Int := do
  let sum ← history.foldlM
    (fun sum pd => if pd.price ≤ 0 then none else I128.checkedAdd sum pd.price) 0
  if history.length = 0 then none else some (sum / history.length)

/-- Seconds a `Twap(records)` window spans at `resolution`. -/
def twapRequiredSpan (records resolution : Nat) : Nat :=
  U64.saturatingMul (records - 1) resolution

/-- One round of the loop of `read_twap`: the state is the previous timestamp and the oldest. -/
def checkTwapRecord (nowSecs resolution : Nat) (seen : Option Nat × Nat)
    (priceData : ReflectorPriceData) : Except OracleError (Option Nat × Nat) := do
  if isFutureAt nowSecs priceData.timestamp then throw .priceFeedStale
  if seen.1.any fun newer =>
      decide (newer < priceData.timestamp ∨ newer - priceData.timestamp < resolution) then
    throw .twapInsufficientObservations
  return (some priceData.timestamp, priceData.timestamp)

variable (p : Providers)

/-- `read_twap`, after the panics on its record count and asset. -/
def twapObservation (contract : Address) (asset : ReflectorAsset) (decimals records : Nat) :
    Except OracleError OracleObservation := do
  let history ← orThrow (p.prices contract asset records) .reflectorHistoryEmpty
  if history.isEmpty then throw .reflectorHistoryEmpty
  if U32.saturatingAdd records 1 < history.length then throw .twapInsufficientObservations
  let resolution ← orThrow
    ((p.reflectorResolution contract).filter fun r => decide (minOracleResolutionSeconds ≤ r))
    .invalidOracleResolution
  let newestTs := (history.head?.map (·.timestamp)).getD 0
  let (_, oldestTs) ← history.foldlM (checkTwapRecord p.nowSecs resolution) (none, u64Max)
  if newestTs - oldestTs < twapRequiredSpan records resolution then
    throw .twapInsufficientObservations
  let rawPrice ← orThrow (tryTwapMeanPrice history) .invalidPrice
  let priceWad ← orThrow (tryNormalizePositivePrice rawPrice decimals) .invalidPrice
  return ⟨priceWad, oldestTs⟩

def readTwap (feed : ReflectorFeedRef) (decimals records : Nat) :
    Except Panic (Except OracleError OracleObservation) := do
  validateTwapRecords records
  let asset ← toReflectorAsset feed.asset
  return twapObservation p feed.contract asset decimals records

def readSpot (feed : ReflectorFeedRef) (decimals : Nat) :
    Except Panic (Option OracleObservation) := do
  let asset ← toReflectorAsset feed.asset
  return do
    let priceData ← p.lastprice feed.contract asset
    OracleObservation.fromReflector p.nowSecs priceData decimals

def readReflectorSource (feed : ReflectorFeedRef) (decimals : Nat) :
    Except Panic (Option OracleObservation) :=
  match feed.readMode with
  | .spot => readSpot p feed decimals
  | .twap records => do
    let observation ← readTwap p feed decimals records
    return observation.toOption

def readChainlinkSource (feed : ChainlinkFeedRef) (decimals : Nat) : Option OracleObservation := do
  let round ← p.latestRound feed.contract feed.dataId decimals
  OracleObservation.fromChainlink p.nowSecs round decimals

/-- Takes the payload from the session when it is there, and leaves it there otherwise. -/
def readPriceData (contract : Address) (feedId : FeedId) : Engine (Option RedStonePriceData) := do
  match (← get).feedCache contract feedId with
  | some data => return some data
  | none =>
    match p.readPriceDataForFeed contract feedId with
    | none => return none
    | some data =>
      modify (Session.setFeed contract feedId data)
      return some data

def readMultiFeedSource (feed : MultiFeedRef) (decimals : Nat) :
    Engine (Option OracleObservation) := do
  let priceData ← readPriceData p feed.contract feed.feedId
  return priceData.bind fun priceData =>
    OracleObservation.fromMultiFeed p.nowSecs priceData decimals

/-- The bulk read of several feeds; `none` unless there is one payload for each feed. -/
def readPriceDataBulk (contract : Address) (feedIds : List FeedId) :
    Option (List RedStonePriceData) :=
  (p.readPriceData contract feedIds).filter fun data => decide (data.length = feedIds.length)

def readProvider (provider : ProviderRef) (decimals : Nat) : Engine (Option OracleObservation) :=
  match provider with
  | .chainlink c => return readChainlinkSource p c decimals
  | .reflector r => readReflectorSource p r decimals
  | .redStone r => readMultiFeedSource p r decimals
  | .xoxno x => readMultiFeedSource p x decimals

/-- The observation of a feed, and whether it is older than the feed's own limit. -/
def readFeed (feed : FeedSource) : Engine (Option (OracleObservation × Bool)) := do
  let observation ← readProvider p feed.provider feed.decimals
  return observation.map fun observation =>
    (observation, isStale p.nowSecs observation.timestamp feed.maxStaleSeconds)

end Lending.PriceAggregator
