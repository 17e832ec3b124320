import LendingXlm.Lib.Transaction
import LendingXlm.XoxnoOracle.Storage

/-!
# Types of the price aggregator

`common/src/types/oracle.rs` and `composable_oracle.rs`: how the price of a key is composed from
one or two sources, and the prices and statuses the aggregator answers with. `Providers` is what
lies outside the contract: the ledger time and the answers of the price providers, tokens and
pools, fixed for the length of one call.
-/

namespace Lending.PriceAggregator

export XoxnoOracle (ReflectorAsset RedStonePriceData FeedId maxFutureSkewSeconds)

/-! ## Errors -/

/-- `common::errors::OracleError`, without the variants no function of the contract raises. -/
inductive OracleError where
  | invalidOracleTokenType | unsafePriceNotAllowed | priceFeedStale | badLastTolerance
  | noLastPrice | reflectorHistoryEmpty | oracleNotConfigured | invalidPrice
  | invalidStalenessConfig | twapInsufficientObservations | invalidOracleBase
  | invalidOracleDecimals | invalidOracleResolution | sanityBoundViolated | invalidSanityBounds
  | oracleCycleDetected | sanityBandTooWideForSingleSource | sanityBandMustTighten
  | twapRecordsOutOfRange | oracleDepthExceeded | factorOutOfBounds | sourceCountOutOfRange
  | independenceNotDeclared | unsupportedAquariusPool | insufficientAquariusLiquidity
  | unsupportedCurvePool | insufficientCurveLiquidity
  deriving DecidableEq, Repr

/-- The error's discriminant. -/
def OracleError.code : OracleError → Nat
  | .invalidOracleTokenType => 204
  | .unsafePriceNotAllowed => 205
  | .priceFeedStale => 206
  | .badLastTolerance => 208
  | .noLastPrice => 210
  | .reflectorHistoryEmpty => 212
  | .oracleNotConfigured => 216
  | .invalidPrice => 217
  | .invalidStalenessConfig => 218
  | .twapInsufficientObservations => 219
  | .invalidOracleBase => 220
  | .invalidOracleDecimals => 221
  | .invalidOracleResolution => 222
  | .sanityBoundViolated => 223
  | .invalidSanityBounds => 224
  | .oracleCycleDetected => 225
  | .sanityBandTooWideForSingleSource => 226
  | .sanityBandMustTighten => 227
  | .twapRecordsOutOfRange => 228
  | .oracleDepthExceeded => 229
  | .factorOutOfBounds => 230
  | .sourceCountOutOfRange => 231
  | .independenceNotDeclared => 232
  | .unsupportedAquariusPool => 234
  | .insufficientAquariusLiquidity => 235
  | .unsupportedCurvePool => 236
  | .insufficientCurveLiquidity => 237

theorem OracleError.code_injective : Function.Injective OracleError.code := by
  intro a b h
  cases a <;> cases b <;> first | rfl | cases h

/-- What a call reverts with. `math` is an error of the fixed-point library; `hostTrap` is a trap of
the host: a provider call made without `try_` that failed, or a `U256` operator that overflowed. -/
inductive Panic where
  | oracle (e : OracleError)
  | spotOnlyNotProductionSafe
  | math (e : Error)
  | hostTrap
  deriving DecidableEq, Repr

instance : MonadLift Result (Except Panic) where
  monadLift x := x.mapError Panic.math

/-- `assert_with_error!` with an `OracleError`. -/
def assertOracle (c : Prop) [Decidable c] (e : OracleError) : Except Panic Unit :=
  require c (.oracle e)

/-! ## Constants -/

def maxResolutionDepth : Nat := 3
def maxCurveCoins : Nat := 3
def maxTwapRecords : Nat := 12
def minPriceStaleSeconds : Nat := 60
def maxPriceStaleSeconds : Nat := 93_600
def minOracleResolutionSeconds : Nat := 60
def minOracleDecimals : Nat := 1
def maxOracleDecimals : Nat := 18
def maxSingleSourceSanityBandBps : Int := 1_000
def maxLegAgeSpreadSeconds : Nat := 3_600
def maxLpSanityBandBps : Int := 8_182
def minSmoothingTwapRecords : Nat := 3
def chainlinkDecimals : Nat := 18
def redstoneDecimals : Nat := 8

/-! ## Sources -/

/-- A `BytesN<32>`. -/
abbrev Bytes32 := Nat

inductive PriceKey where
  | token (address : Address)
  | ref (symbol : String)
  deriving DecidableEq, Repr

inductive OracleAssetRef where
  | stellar (address : Address)
  | symbol (symbol : String)
  | string (name : String)
  deriving DecidableEq, Repr

inductive OracleReadMode where
  | spot
  | twap (records : Nat)
  deriving DecidableEq, Repr

inductive FeedNature where
  | market | fundamental
  deriving DecidableEq, Repr

structure ReflectorFeedRef where
  contract : Address
  asset : OracleAssetRef
  readMode : OracleReadMode
  deriving DecidableEq, Repr

structure ChainlinkFeedRef where
  contract : Address
  dataId : Bytes32
  deriving DecidableEq, Repr

structure MultiFeedRef where
  contract : Address
  feedId : FeedId
  nature : FeedNature
  deriving DecidableEq, Repr

inductive ProviderRef where
  | reflector (r : ReflectorFeedRef)
  | redStone (r : MultiFeedRef)
  | xoxno (r : MultiFeedRef)
  | chainlink (r : ChainlinkFeedRef)
  deriving DecidableEq, Repr

namespace ProviderRef

def contract : ProviderRef → Address
  | reflector r => r.contract
  | redStone r | xoxno r => r.contract
  | chainlink r => r.contract

def isSmoothed : ProviderRef → Bool
  | reflector r =>
    match r.readMode with
    | .twap _ => true
    | .spot => false
  | redStone _ | xoxno _ | chainlink _ => false

def nature : ProviderRef → FeedNature
  | reflector _ => .market
  | redStone r | xoxno r => r.nature
  | chainlink _ => .market

def isUnsmoothedMarketLeg (r : ProviderRef) : Bool :=
  r.nature == .market && !r.isSmoothed

end ProviderRef

structure FeedSource where
  provider : ProviderRef
  decimals : Nat
  maxStaleSeconds : Nat
  deriving DecidableEq, Repr

structure ScaledSource where
  factor : FeedSource
  quote : PriceKey
  minFactorWad : Int
  maxFactorWad : Int
  deriving DecidableEq, Repr

structure AquariusLpSource where
  pool : Address
  tokenA : Address
  tokenB : Address
  keyA : PriceKey
  keyB : PriceKey
  reserveADecimals : Nat
  reserveBDecimals : Nat
  minPoolValueWad : Int
  deriving DecidableEq, Repr

structure CurveStableLpSource where
  pool : Address
  coins : List Address
  wasmHash : Bytes32
  minPoolValueWad : Int
  deriving DecidableEq, Repr

inductive PriceSource where
  | feed (f : FeedSource)
  | scaled (s : ScaledSource)
  | aquariusLp (lp : AquariusLpSource)
  | aquariusStableLp (lp : AquariusLpSource)
  | curveStableLp (lp : CurveStableLpSource)
  deriving DecidableEq, Repr

def PriceSource.isLp : PriceSource → Bool
  | aquariusLp _ | aquariusStableLp _ | curveStableLp _ => true
  | feed _ | scaled _ => false

inductive IndependencePolicy where
  | requireDisjoint
  | allowShared (declared : List Address)
  deriving DecidableEq, Repr

structure OracleTolerance where
  upperRatioBps : Nat
  lowerRatioBps : Nat
  deriving DecidableEq, Repr

structure AssetOracle where
  assetDecimals : Nat
  maxPriceStaleSeconds : Nat
  sources : List PriceSource
  tolerance : OracleTolerance
  independence : IndependencePolicy
  minSanityPriceWad : Int
  maxSanityPriceWad : Int
  deriving DecidableEq, Repr

/-- Whether the first configured source is an LP valuation. -/
def AssetOracle.hasLpSource (o : AssetOracle) : Bool :=
  match o.sources with
  | source :: _ => source.isLp
  | [] => false

/-! ## Answers -/

structure PriceFeedRaw where
  priceWad : Int
  assetDecimals : Nat
  timestamp : Nat
  deriving DecidableEq, Repr

structure PriceStatus where
  finalWad : Int
  primaryWad : Int
  secondaryWad : Int
  priceTimestamp : Nat
  stale : Bool
  deviation : Bool
  valid : Bool
  errorCode : Option Nat
  deriving DecidableEq, Repr

def PriceStatus.unusable : PriceStatus where
  finalWad := 0
  primaryWad := 0
  secondaryWad := 0
  priceTimestamp := 0
  stale := false
  deviation := false
  valid := false
  errorCode := none

/-! ## Outside the contract -/

structure ReflectorPriceData where
  price : Int
  timestamp : Nat
  deriving DecidableEq, Repr

structure ChainlinkRound where
  answer : Int
  timestamp : Nat
  deriving DecidableEq, Repr

/-- The fields of a Curve pool's `pool_info` that the contract reads. -/
structure CurvePoolInfo where
  coinDecimals : List Nat
  coins : List Address
  rates : List Int
  precision : Int
  deriving DecidableEq, Repr

/-- What the ledger and the contracts the aggregator calls answer during one call. An answer is
`none` when the call fails, and for `lastprice` and `prices` also when there is no price. The
timestamps of an answer are `u64`. -/
structure Providers where
  nowSecs : Nat
  reflectorBase : Address → Option ReflectorAsset
  reflectorDecimals : Address → Option Nat
  reflectorResolution : Address → Option Nat
  lastprice : Address → ReflectorAsset → Option ReflectorPriceData
  prices : Address → ReflectorAsset → Nat → Option (List ReflectorPriceData)
  latestRound : Address → Bytes32 → Nat → Option ChainlinkRound
  readPriceDataForFeed : Address → FeedId → Option RedStonePriceData
  readPriceData : Address → List FeedId → Option (List RedStonePriceData)
  maxSubmissionAgeSeconds : Address → Option Nat
  tokenDecimals : Address → Option Nat
  aquariusPoolType : Address → Option String
  aquariusReserves : Address → Option (List Nat)
  aquariusTotalShares : Address → Option Nat
  aquariusTokens : Address → Option (List Address)
  aquariusShareId : Address → Option Address
  aquariusAmp : Address → Option Nat
  executable : Address → Option Bytes32
  curvePoolInfo : Address → Option CurvePoolInfo
  curveDecimals : Address → Option Nat
  curveVirtualPrice : Address → Option Int
  curveTotalSupply : Address → Option Int
  lastprice_u64 : ∀ c a d, lastprice c a = some d → d.timestamp ≤ u64Max
  prices_u64 : ∀ c a n l, prices c a n = some l → ∀ d ∈ l, d.timestamp ≤ u64Max
  latestRound_u64 : ∀ c i n r, latestRound c i n = some r → r.timestamp ≤ u64Max
  readPriceDataForFeed_u64 : ∀ c f d, readPriceDataForFeed c f = some d →
    d.packageTimestamp ≤ u64Max ∧ d.writeTimestamp ≤ u64Max
  readPriceData_u64 : ∀ c fs ds, readPriceData c fs = some ds →
    ∀ d ∈ ds, d.packageTimestamp ≤ u64Max ∧ d.writeTimestamp ≤ u64Max

end Lending.PriceAggregator
