import LendingXlm.PriceAggregator.Engine

/-!
# Administration of the registry

`properties.rs`, `validation.rs`, the oracle checks of `common/src/validation.rs`, and `admin.rs`.
Who may call (`only_owner`) and the emitted events are not part of the model.
-/

namespace Lending.PriceAggregator

def minAssetDecimals : Nat := 0
def maxAssetDecimals : Nat := 18
def maxReasonablePriceWad : Int := 1_000_000_000 * wad
def minTolerance : Nat := 150
def maxTolerance : Nat := 2_500
def minSanityBandBps : Int := 50

/-! ## `properties.rs` -/

structure SourceProperties where
  hasUnsmoothedMarketLeg : Bool
  trust : List Address
  loosestMaxStaleSeconds : Nat
  depth : Nat
  deriving DecidableEq, Repr

namespace SourceProperties

def empty : SourceProperties := ⟨false, [], 0, 0⟩

def ofFeed (feed : FeedSource) : SourceProperties where
  hasUnsmoothedMarketLeg := feed.provider.isUnsmoothedMarketLeg
  trust := [feed.provider.contract]
  loosestMaxStaleSeconds := feed.maxStaleSeconds
  depth := 0

/-- Appends to `trust` the contracts of `other` that are not there yet. -/
def joinTrust (trust other : List Address) : List Address :=
  other.foldl (fun trust contract => if contract ∈ trust then trust else trust ++ [contract]) trust

def join (a b : SourceProperties) : SourceProperties where
  hasUnsmoothedMarketLeg := a.hasUnsmoothedMarketLeg || b.hasUnsmoothedMarketLeg
  trust := joinTrust a.trust b.trust
  loosestMaxStaleSeconds := max a.loosestMaxStaleSeconds b.loosestMaxStaleSeconds
  depth := max a.depth b.depth

def sharedContractsWith (a b : SourceProperties) : List Address :=
  a.trust.foldl
    (fun shared contract =>
      if contract ∈ b.trust ∧ contract ∉ shared then shared ++ [contract] else shared) []

end SourceProperties

def localProperties : PriceSource → SourceProperties
  | .feed feed => .ofFeed feed
  | .scaled scaled => .ofFeed scaled.factor
  | .aquariusLp _ | .aquariusStableLp _ | .curveStableLp _ =>
    { SourceProperties.empty with hasUnsmoothedMarketLeg := true }

/-- `properties_of_source` at a depth within the maximum, from the properties of a key one level
down. -/
def propertiesOfSourceWith (propertiesOfKey : PriceKey → Engine SourceProperties) (depth : Nat)
    (source : PriceSource) : Engine SourceProperties := do
  let properties ← source.dependencies.foldlM
    (fun properties key => do return properties.join (← propertiesOfKey key))
    (localProperties source)
  return { properties with depth := max properties.depth depth }

variable (reg : Registry)

/-- `properties_of_key` with `room` levels left; the source's `depth` is
`MAX_RESOLUTION_DEPTH + 1 - room`. -/
def propertiesOfKey : Nat → PriceKey → Engine SourceProperties
  | 0, _ => throw (.oracle .oracleDepthExceeded)
  | room + 1, key => do
    Session.pushKey key
    let oracle ← orThrow (reg.getOracle key) (Panic.oracle .oracleNotConfigured)
    let joined ← oracle.sources.foldlM
      (fun joined source => do
        return joined.join
          (← propertiesOfSourceWith (propertiesOfKey room) (maxResolutionDepth - room) source))
      SourceProperties.empty
    Session.popKey
    return joined

/-- `properties_of_source` at depth zero. -/
def propertiesOfSource (source : PriceSource) : Engine SourceProperties :=
  propertiesOfSourceWith (propertiesOfKey reg maxResolutionDepth) 0 source

structure ConfigProperties where
  first : SourceProperties
  second : Option SourceProperties
  deriving DecidableEq, Repr

def ConfigProperties.combined (c : ConfigProperties) : SourceProperties :=
  match c.second with
  | some second => c.first.join second
  | none => c.first

def propertiesOfConfig (sources : List PriceSource) : Engine ConfigProperties :=
  match sources with
  | [source] => do
    let first ← propertiesOfSource reg source
    return ⟨first, none⟩
  | [source, source'] => do
    let first ← propertiesOfSource reg source
    let second ← propertiesOfSource reg source'
    return ⟨first, some second⟩
  | _ => throw (.oracle .sourceCountOutOfRange)

/-! ## `validation.rs` -/

namespace Validation

def compositionDepth (properties : SourceProperties) : Except Panic Unit :=
  assertOracle (properties.depth ≤ maxResolutionDepth) .oracleDepthExceeded

def stalenessEnvelope (assetMaxStaleSeconds : Nat) (properties : SourceProperties) :
    Except Panic Unit :=
  assertOracle
    ((minPriceStaleSeconds ≤ assetMaxStaleSeconds ∧ assetMaxStaleSeconds ≤ maxPriceStaleSeconds) ∧
      properties.loosestMaxStaleSeconds ≤ assetMaxStaleSeconds)
    .invalidStalenessConfig

/-- Some source is free of unsmoothed market legs. -/
def Smoothed (first : SourceProperties) (second : Option SourceProperties) : Prop :=
  ¬ (first.hasUnsmoothedMarketLeg = true ∧
    ∀ source ∈ second, source.hasUnsmoothedMarketLeg = true)

instance (first : SourceProperties) (second : Option SourceProperties) :
    Decidable (Smoothed first second) := inferInstanceAs (Decidable (¬ _))

def smoothing (first : SourceProperties) (second : Option SourceProperties) : Except Panic Unit :=
  require (Smoothed first second) .spotOnlyNotProductionSafe

/-- Every address of `inner` is in `outer`. -/
def covers (outer inner : List Address) : Bool := inner.all fun address => decide (address ∈ outer)

def sameAddressSet (left right : List Address) : Bool := covers left right && covers right left

/-- What `independence` asks of the contracts shared between the two sources. -/
def Independent (shared : List Address) (policy : IndependencePolicy) (exactly : Bool) : Prop :=
  match policy with
  | .requireDisjoint => shared = []
  | .allowShared declared =>
    declared ≠ [] ∧ covers declared shared = true ∧
      (exactly = true → covers shared declared = true)

instance (shared : List Address) (policy : IndependencePolicy) (exactly : Bool) :
    Decidable (Independent shared policy exactly) := by
  unfold Independent
  cases policy <;> infer_instance

def independence (first second : SourceProperties) (policy : IndependencePolicy)
    (exactly : Bool) : Except Panic Unit :=
  assertOracle (Independent (first.sharedContractsWith second) policy exactly)
    .independenceNotDeclared

def feedShape (feed : FeedSource) : Except Panic Unit := do
  assertOracle (minOracleDecimals ≤ feed.decimals ∧ feed.decimals ≤ maxOracleDecimals)
    .invalidOracleDecimals
  assertOracle (minPriceStaleSeconds ≤ feed.maxStaleSeconds ∧
    feed.maxStaleSeconds ≤ maxPriceStaleSeconds) .invalidStalenessConfig
  match feed.provider with
  | .reflector reflector =>
    match reflector.asset with
    | .string _ => throw (.oracle .invalidOracleTokenType)
    | .stellar _ | .symbol _ => pure ()
    match reflector.readMode with
    | .spot => pure ()
    | .twap records =>
      validateTwapRecords records
      assertOracle (minSmoothingTwapRecords ≤ records) .twapInsufficientObservations
  | .redStone _ | .xoxno _ | .chainlink _ => pure ()

def factorBounds (scaled : ScaledSource) : Except Panic Unit :=
  assertOracle (0 < scaled.minFactorWad ∧ scaled.minFactorWad ≤ scaled.maxFactorWad ∧
    scaled.maxFactorWad ≤ maxReasonablePriceWad) .invalidSanityBounds

def keyPricesToken (key : PriceKey) (token : Address) : Bool :=
  match key with
  | .token address => decide (address = token)
  | .ref _ => true

def aquariusLpShape (lp : AquariusLpSource) : Except Panic Unit := do
  assertOracle (∀ decimals ∈ [lp.reserveADecimals, lp.reserveBDecimals],
    minAssetDecimals ≤ decimals ∧ decimals ≤ maxAssetDecimals) .invalidOracleDecimals
  assertOracle (lp.tokenA ≠ lp.tokenB ∧ lp.keyA ≠ lp.keyB ∧
    keyPricesToken lp.keyA lp.tokenA = true ∧ keyPricesToken lp.keyB lp.tokenB = true ∧
    0 < lp.minPoolValueWad) .invalidOracleBase

def sourceShape : PriceSource → Except Panic Unit
  | .feed feed => feedShape feed
  | .scaled scaled => do
    feedShape scaled.factor
    factorBounds scaled
  | .aquariusLp lp | .aquariusStableLp lp => aquariusLpShape lp
  | .curveStableLp lp =>
    assertOracle ((2 ≤ lp.coins.length ∧ lp.coins.length ≤ maxCurveCoins) ∧ 0 < lp.minPoolValueWad)
      .invalidOracleBase

def assetDecimals (key : PriceKey) (decimals : Nat) : Except Panic Unit :=
  match key with
  | .token _ =>
    assertOracle (minAssetDecimals ≤ decimals ∧ decimals ≤ maxAssetDecimals) .invalidOracleDecimals
  | .ref _ => assertOracle (decimals = 0) .invalidOracleDecimals

/-! ### `common/src/validation.rs` -/

def validateOracleTolerance (tolerance : OracleTolerance) : Except Panic Unit := do
  assertOracle (bps.toNat + minTolerance ≤ tolerance.upperRatioBps ∧
    tolerance.upperRatioBps ≤ bps.toNat + maxTolerance ∧
    bps.toNat - maxTolerance ≤ tolerance.lowerRatioBps ∧ tolerance.lowerRatioBps ≤ bps.toNat)
    .badLastTolerance
  let expectedLower ← (FpCore.mulDivHalfUp bps bps tolerance.upperRatioBps : Result Int)
  assertOracle ((tolerance.lowerRatioBps : Int) = expectedLower) .badLastTolerance

def validateSanityBounds (minWad maxWad : Int) : Except Panic Unit := do
  assertOracle (0 < minWad ∧ 0 < maxWad ∧ minWad < maxWad ∧ maxWad ≤ maxReasonablePriceWad)
    .invalidSanityBounds
  let halfWidthBps ← (FpCore.mulDivFloor (maxWad - minWad) bps (maxWad + minWad) : Result Int)
  assertOracle (minSanityBandBps ≤ halfWidthBps) .invalidSanityBounds

/-- The check both sanity-band caps make. -/
def validateBandWidth (capBps minWad maxWad : Int) : Except Panic Unit := do
  let bandBps ← (FpCore.mulDivCeil (maxWad - minWad) bps (maxWad + minWad) : Result Int)
  assertOracle (bandBps ≤ capBps) .sanityBandTooWideForSingleSource

def validateSingleSourceSanityBand (isDual : Bool) (minWad maxWad : Int) : Except Panic Unit :=
  if isDual then pure () else validateBandWidth maxSingleSourceSanityBandBps minWad maxWad

def validateLpSanityBand (minWad maxWad : Int) : Except Panic Unit :=
  validateBandWidth maxLpSanityBandBps minWad maxWad

end Validation

/-! ## `admin.rs` -/

open Validation

/-- Whether a dual source is exempt from the cap of single-source bands. -/
def exemptFromBandCap (derived : ConfigProperties) : Bool :=
  match derived.second with
  | some second => !sameAddressSet derived.first.trust second.trust
  | none => false

/-- The checks of `validate_oracle` once the properties are derived. -/
def validateDerived (key : PriceKey) (oracle : AssetOracle) (derived : ConfigProperties)
    (exactIndependence : Bool) : Except Panic Unit := do
  validateSanityBounds oracle.minSanityPriceWad oracle.maxSanityPriceWad
  if oracle.hasLpSource then
    validateLpSanityBand oracle.minSanityPriceWad oracle.maxSanityPriceWad
  else
    validateSingleSourceSanityBand (exemptFromBandCap derived) oracle.minSanityPriceWad
      oracle.maxSanityPriceWad
  Validation.assetDecimals key oracle.assetDecimals
  oracle.sources.forM sourceShape
  assertOracle (¬ (oracle.sources.any PriceSource.isLp = true ∧ oracle.sources.length ≠ 1))
    .sourceCountOutOfRange
  compositionDepth derived.first
  match derived.second with
  | some second => compositionDepth second
  | none => pure ()
  stalenessEnvelope oracle.maxPriceStaleSeconds derived.combined
  if ¬ oracle.hasLpSource then
    smoothing derived.first derived.second
    validateOracleTolerance oracle.tolerance
  match derived.second with
  | some second => independence derived.first second oracle.independence exactIndependence
  | none => pure ()

/-- The properties `validate_oracle` derives, with `key` on the stack. -/
def derivedProperties (key : PriceKey) (oracle : AssetOracle) : Engine ConfigProperties := do
  Session.pushKey key
  let derived ← propertiesOfConfig reg oracle.sources
  Session.popKey
  return derived

def validateOracle (key : PriceKey) (oracle : AssetOracle) (exactIndependence : Bool) :
    Except Panic Unit := do
  let derived ← (derivedProperties reg key oracle).answer .new
  validateDerived key oracle derived exactIndependence

def validateAssetOracle (key : PriceKey) (oracle : AssetOracle) : Except Panic Unit :=
  validateOracle reg key oracle true

variable (p : Providers)

/-- `reflector::attest_base`. -/
def attestBase (base : ReflectorAsset) (quote : Option PriceKey) : Except Panic Unit :=
  match base, quote with
  | .other symbol, none => assertOracle (symbol = "USD") .invalidOracleBase
  | .stellar baseAsset, some (.token quoteAsset) =>
    assertOracle (baseAsset = quoteAsset) .invalidOracleBase
  | _, _ => throw (.oracle .invalidOracleBase)

/-- `reflector::attest`. -/
def attestReflector (feed : ReflectorFeedRef) (decimals maxStale : Nat) (quote : Option PriceKey) :
    Except Panic Unit := do
  let base ← orThrow (p.reflectorBase feed.contract) Panic.hostTrap
  attestBase base quote
  let reported ← orThrow (p.reflectorDecimals feed.contract) Panic.hostTrap
  assertOracle (reported = decimals) .invalidOracleDecimals
  let resolution ← orThrow (p.reflectorResolution feed.contract) Panic.hostTrap
  assertOracle (minOracleResolutionSeconds ≤ resolution ∧ resolution ≤ maxStale)
    .invalidOracleResolution
  match feed.readMode with
  | .spot => pure ()
  | .twap records =>
    assertOracle (twapRequiredSpan records resolution ≤ maxStale) .invalidOracleResolution

def attestFeed (feed : FeedSource) (quote : Option PriceKey) : Except Panic Unit :=
  match feed.provider with
  | .reflector reflector => attestReflector p reflector feed.decimals feed.maxStaleSeconds quote
  | .redStone _ => assertOracle (feed.decimals = redstoneDecimals) .invalidOracleDecimals
  | .chainlink _ => assertOracle (feed.decimals = chainlinkDecimals) .invalidOracleDecimals
  | .xoxno xoxnoFeed => do
    let reported ← orThrow (p.reflectorDecimals xoxnoFeed.contract) Panic.hostTrap
    assertOracle (reported = feed.decimals) .invalidOracleDecimals
    let age ← orThrow (p.maxSubmissionAgeSeconds xoxnoFeed.contract) Panic.hostTrap
    assertOracle (age ≤ feed.maxStaleSeconds) .invalidStalenessConfig

/-- `aquarius::attest`. -/
def attestAquarius (key : PriceKey) (oracle : AssetOracle) (lp : AquariusLpSource)
    (stable : Bool) : Except Panic Unit := do
  let tokens ← orThrow (boundTokens p key lp) (Panic.oracle .invalidOracleBase)
  assertOracle (poolKindMatches p lp stable = true ∧
    (stable = true → (aquariusAmpCall p lp.pool).isSome = true) ∧
    (aquariusPoolReservesCall p lp.pool).any (fun (a, b) => decide (0 < a ∧ 0 < b)) = true)
    .unsupportedAquariusPool
  assertOracle
    ((aquariusTotalSharesCall p lp.pool).any (fun shares => decide (0 < shares)) = true)
    .unsupportedAquariusPool
  match key with
  | .ref _ => throw (.oracle .invalidOracleBase)
  | .token share =>
    assertOracle (decimalsMatch p share tokens oracle.assetDecimals lp = true)
      .invalidOracleDecimals

def attestSource (key : PriceKey) (oracle : AssetOracle) : PriceSource → Except Panic Unit
  | .feed feed => attestFeed p feed none
  | .scaled scaled => attestFeed p scaled.factor (some scaled.quote)
  | .aquariusLp lp => attestAquarius p key oracle lp false
  | .aquariusStableLp lp => attestAquarius p key oracle lp true
  | .curveStableLp _ => pure ()

def attestSources (key : PriceKey) (oracle : AssetOracle) : Except Panic Unit :=
  oracle.sources.forM (attestSource p key oracle)

/-- `depends_on`; a walk along `visiting` never gets longer than the registry has keys, which is
what `fuel` counts. -/
def dependsOn (target : PriceKey) : Nat → List PriceKey → PriceKey → Bool
  | 0, _, _ => false
  | fuel + 1, visiting, root =>
    if root ∈ visiting then false
    else
      match reg.getOracle root with
      | none => false
      | some oracle =>
        oracle.dependencies.any fun dependency =>
          decide (dependency = target) ||
            dependsOn target fuel (root :: visiting) dependency

def revalidateDependents (changed : PriceKey) : Except Panic Unit :=
  reg.keys.forM fun candidate =>
    if candidate = changed ∨
        ¬ dependsOn reg changed (reg.keys.length + 1) [] candidate then pure ()
    else do
      let oracle ← orThrow (reg.getOracle candidate) (Panic.oracle .oracleNotConfigured)
      validateOracle reg candidate oracle false

def setOracle (key : PriceKey) (oracle : AssetOracle) : Except Panic Registry := do
  match reg.getOracle key with
  | some stored =>
    assertOracle (stored.assetDecimals = oracle.assetDecimals) .invalidOracleDecimals
  | none => pure ()
  validateAssetOracle reg key oracle
  attestSources p key oracle
  if oracle.hasLpSource then (probePriceable p reg key oracle).answer .new
  else (probe p reg key oracle).answer .new
  let stored := reg.storeOracle key oracle
  revalidateDependents stored key
  return stored

def setSanityBand (key : PriceKey) (minWad maxWad : Int) : Except Panic Registry := do
  let oracle ← orThrow (reg.getOracle key) (Panic.oracle .oracleNotConfigured)
  assertOracle (oracle.minSanityPriceWad ≤ minWad ∧ maxWad ≤ oracle.maxSanityPriceWad)
    .sanityBandMustTighten
  let oracle := { oracle with minSanityPriceWad := minWad, maxSanityPriceWad := maxWad }
  validateOracle reg key oracle false
  (probe p reg key oracle).answer .new
  return reg.storeOracle key oracle

def setTolerance (key : PriceKey) (tolerance : OracleTolerance) : Except Panic Registry := do
  let oracle ← orThrow (reg.getOracle key) (Panic.oracle .oracleNotConfigured)
  assertOracle (oracle.hasLpSource = false) .sourceCountOutOfRange
  validateOracleTolerance tolerance
  let oracle := { oracle with tolerance := tolerance }
  (probe p reg key oracle).answer .new
  return reg.storeOracle key oracle

end Lending.PriceAggregator
