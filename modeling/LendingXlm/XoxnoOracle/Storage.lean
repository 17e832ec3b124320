import LendingXlm.Common.Types
import LendingXlm.Lib.SwapIndex

/-!
# Storage of the XOXNO oracle

`xoxno-oracle/src/storage`: the contract's keys as the fields of one record, with the accessors of
`config.rs`, `index.rs`, `prices.rs` and `registry.rs`. A key family is a function to `Option`,
`none` for a key that is not stored; storage expiry is left aside.
-/

namespace Lending.XoxnoOracle

/-! ## Types and constants -/

/-- The errors of the contract; the last two are host traps: an index count that does not cover an
indexed element, and an overflowing arithmetic operator. -/
inductive Error where
  | notAuthorizedSigner | invalidPrice | invalidThreshold | signerAlreadyRegistered
  | signerNotRegistered | cannotRemoveBelowThreshold | noDataForFeed | staleData
  | priceOutOfRange | lengthMismatch | futureTimestamp | feedAlreadyMapped | feedNotMapped
  | feedNotKnown | invalidSubmissionAge | staleSubmission | feedAlreadyRegistered
  | invalidRelativeSkew | invalidClusterSpread
  | indexCountExpectation | arithmeticOverflow
  deriving DecidableEq, Repr

abbrev Result := Except Error

abbrev FeedId := String

/-- `common::oracle::providers::reflector::ReflectorAsset`. -/
inductive ReflectorAsset where
  | stellar (address : Address)
  | other (symbol : String)
  deriving DecidableEq, Repr

/-- `common::oracle::providers::redstone::RedStonePriceData`; timestamps in milliseconds. -/
structure RedStonePriceData where
  price : Nat
  packageTimestamp : Nat
  writeTimestamp : Nat
  deriving DecidableEq, Repr

/-- A signer's latest submission for a feed; the timestamp is in milliseconds. -/
structure SignerSubmission where
  price : Int
  packageTimestamp : Nat
  deriving DecidableEq, Repr

def maxFutureSkewSeconds : Nat := 60
def maxHistoryLen : Nat := 12
def maxSubmittedPrice : Int := 1_000_000_000_000_000_000_000_000
def defaultMaxStaleSeconds : Nat := 86_400
def defaultMaxSubmissionAgeSeconds : Nat := 900
def minSubmissionAgeSeconds : Nat := maxFutureSkewSeconds + 1
def defaultMaxRelativeSkewSeconds : Nat := defaultMaxSubmissionAgeSeconds
def defaultMaxClusterSpreadBps : Nat := 200

/-- The contract's storage, one field for each key family of `DataKey`. `sources` is a history
variable: it records whose submissions the stored aggregate of a feed was computed from, is
written together with that aggregate, and is read by no function of the contract. -/
structure Storage where
  signers : Option (List Address)
  threshold : Option Nat
  maxStaleSeconds : Option Nat
  maxSubmissionAgeSeconds : Option Nat
  maxRelativeSkewSeconds : Option Nat
  resolution : Option Nat
  maxClusterSpreadBps : Option Nat
  latestSubmission : FeedId → Address → Option SignerSubmission
  signerFeeds : Address → Option (List FeedId)
  currentAggregate : FeedId → Option RedStonePriceData
  history : FeedId → Option (List RedStonePriceData)
  feedMapping : ReflectorAsset → Option FeedId
  feedOwner : FeedId → Option ReflectorAsset
  assets : SwapIndex ReflectorAsset
  feeds : SwapIndex FeedId
  sources : FeedId → List Address

/-- Nothing stored. -/
def Storage.empty : Storage where
  signers := none
  threshold := none
  maxStaleSeconds := none
  maxSubmissionAgeSeconds := none
  maxRelativeSkewSeconds := none
  resolution := none
  maxClusterSpreadBps := none
  latestSubmission := fun _ _ => none
  signerFeeds := fun _ => none
  currentAggregate := fun _ => none
  history := fun _ => none
  feedMapping := fun _ => none
  feedOwner := fun _ => none
  assets := .empty
  feeds := .empty
  sources := fun _ => []

namespace Storage

variable (s : Storage)

/-! ## `config.rs` -/

def loadSigners : List Address := s.signers.getD []

def loadThreshold : Nat := s.threshold.getD 0

def loadMaxStaleSeconds : Nat := s.maxStaleSeconds.getD defaultMaxStaleSeconds

def loadMaxSubmissionAge : Nat := s.maxSubmissionAgeSeconds.getD defaultMaxSubmissionAgeSeconds

/-- Clamped to the maximum submission age. -/
def loadMaxRelativeSkew : Nat :=
  min (s.maxRelativeSkewSeconds.getD defaultMaxRelativeSkewSeconds) s.loadMaxSubmissionAge

def loadMaxClusterSpreadBps : Nat := s.maxClusterSpreadBps.getD defaultMaxClusterSpreadBps

def loadResolution : Nat := s.resolution.getD 0

/-! ## `prices.rs` -/

def loadSubmission (feedId : FeedId) (signer : Address) : Option SignerSubmission :=
  s.latestSubmission feedId signer

def storeSubmissionRecord (feedId : FeedId) (signer : Address) (price : Int)
    (packageTimestamp : Nat) : Storage :=
  { s with
    latestSubmission := Function.update s.latestSubmission feedId
      (Function.update (s.latestSubmission feedId) signer (some ⟨price, packageTimestamp⟩)) }

def removeSubmission (feedId : FeedId) (signer : Address) : Storage :=
  { s with
    latestSubmission := Function.update s.latestSubmission feedId
      (Function.update (s.latestSubmission feedId) signer none) }

/-- Stores an aggregate, and in the history variable the signers it was computed from. -/
def storeAggregate (feedId : FeedId) (aggregate : RedStonePriceData) (sources : List Address) :
    Storage :=
  { s with
    currentAggregate := Function.update s.currentAggregate feedId (some aggregate)
    sources := Function.update s.sources feedId sources }

def removeAggregate (feedId : FeedId) : Storage :=
  { s with
    currentAggregate := Function.update s.currentAggregate feedId none
    sources := Function.update s.sources feedId [] }

def loadHistory (feedId : FeedId) : Option (List RedStonePriceData) := s.history feedId

def storeHistory (feedId : FeedId) (history : List RedStonePriceData) : Storage :=
  { s with history := Function.update s.history feedId (some history) }

def removeHistory (feedId : FeedId) : Storage :=
  { s with history := Function.update s.history feedId none }

/-! ## `index.rs` -/

def feedIndexContains (feedId : FeedId) : Bool := s.feeds.contains feedId

def assetIndexInsert (asset : ReflectorAsset) : Result Storage := do
  require (s.assets.count + 1 ≤ u32Max) .arithmeticOverflow
  return { s with assets := s.assets.insert asset }

def assetIndexRemove (asset : ReflectorAsset) : Result Storage := do
  let assets ← orThrow (s.assets.remove asset) .indexCountExpectation
  return { s with assets }

def feedIndexInsert (feedId : FeedId) : Result Storage := do
  require (s.feeds.count + 1 ≤ u32Max) .arithmeticOverflow
  return { s with feeds := s.feeds.insert feedId }

def feedIndexRemove (feedId : FeedId) : Result Storage := do
  let feeds ← orThrow (s.feeds.remove feedId) .indexCountExpectation
  return { s with feeds }

/-! ## `registry.rs` -/

def loadFeedId (asset : ReflectorAsset) : Option FeedId := s.feedMapping asset

def loadFeedOwner (feedId : FeedId) : Option ReflectorAsset := s.feedOwner feedId

def hasFeedMapping (asset : ReflectorAsset) : Bool := (s.feedMapping asset).isSome

def mapFeed (asset : ReflectorAsset) (feedId : FeedId) : Storage :=
  { s with
    feedMapping := Function.update s.feedMapping asset (some feedId)
    feedOwner := Function.update s.feedOwner feedId (some asset) }

def removeFeedMapping (asset : ReflectorAsset) : Storage :=
  { s with feedMapping := Function.update s.feedMapping asset none }

def ensureKnownFeed (feedId : FeedId) : Result Storage :=
  if s.feedIndexContains feedId then return s else s.feedIndexInsert feedId

def loadSignerFeeds (signer : Address) : List FeedId := (s.signerFeeds signer).getD []

def recordSignerFeed (signer : Address) (feedId : FeedId) : Storage :=
  if feedId ∈ s.loadSignerFeeds signer then s
  else
    { s with
      signerFeeds :=
        Function.update s.signerFeeds signer (some (s.loadSignerFeeds signer ++ [feedId])) }

def clearSignerFeeds (signer : Address) : Storage :=
  { s with signerFeeds := Function.update s.signerFeeds signer none }

/-- Drops the feed from the signer's list, and the list itself once it is empty. -/
def removeSignerFeed (signer : Address) (feedId : FeedId) : Storage :=
  match s.signerFeeds signer with
  | none => s
  | some feeds =>
    let kept := feeds.filter (· ≠ feedId)
    { s with
      signerFeeds :=
        Function.update s.signerFeeds signer (if kept.isEmpty then none else some kept) }

/-- Everything stored for the feed goes, except the asset's `FeedMapping`. -/
def clearFeedState (feedId : FeedId) : Result Storage :=
  let cleared := s.loadSigners.foldl
    (fun s signer => (s.removeSubmission feedId signer).removeSignerFeed signer feedId)
    ((s.removeAggregate feedId).removeHistory feedId)
  feedIndexRemove { cleared with feedOwner := Function.update cleared.feedOwner feedId none } feedId

def requireRegisteredSigner (signer : Address) : Result Unit :=
  require (signer ∈ s.loadSigners) .notAuthorizedSigner

def requireKnownFeed (feedId : FeedId) : Result Unit :=
  require (s.feedIndexContains feedId) .feedNotKnown

end Storage

end Lending.XoxnoOracle
