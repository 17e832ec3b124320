import LendingXlm.XoxnoOracle.Aggregation
import Mathlib.Logic.Relation

/-!
# Entry points of the XOXNO oracle

`xoxno-oracle/src/lib.rs`, `admin.rs` and `submit.rs`. A call gets the ledger time `now` in seconds
and the storage, and returns the new storage or the error it reverts with. Who may call what
(`only_owner`, `require_auth`) is not part of the model: every call is open to everyone.
-/

namespace Lending.XoxnoOracle

/-! ## `admin.rs` -/

namespace Admin

def addSigner (signer : Address) (s : Storage) : Result Storage := do
  let signers := s.loadSigners
  require (signer ∉ signers) .signerAlreadyRegistered
  return { s with signers := some (signers ++ [signer]) }

def removeSigner (now : Nat) (signer : Address) (s : Storage) : Result Storage := do
  let signers := s.loadSigners
  require (signer ∈ signers) .signerNotRegistered
  require (s.loadThreshold ≤ signers.length - 1) .cannotRemoveBelowThreshold
  let s := { s with signers := some (signers.erase signer) }
  let s ← (s.loadSignerFeeds signer).foldlM
    (fun s feedId => (s.removeSubmission feedId signer).recomputeAggregate now feedId .clear) s
  return s.clearSignerFeeds signer

def setThreshold (threshold : Nat) (s : Storage) : Result Storage := do
  require (threshold ≠ 0 ∧ threshold ≤ s.loadSigners.length) .invalidThreshold
  return { s with threshold := some threshold }

def setMaxStaleSeconds (seconds : Nat) (s : Storage) : Result Storage := do
  require (s.loadMaxSubmissionAge ≤ seconds) .invalidSubmissionAge
  return { s with maxStaleSeconds := some seconds }

def setMaxSubmissionAgeSeconds (seconds : Nat) (s : Storage) : Result Storage := do
  require (minSubmissionAgeSeconds ≤ seconds ∧ seconds ≤ s.loadMaxStaleSeconds)
    .invalidSubmissionAge
  return { s with maxSubmissionAgeSeconds := some seconds }

def setMaxRelativeSkewSeconds (seconds : Nat) (s : Storage) : Result Storage := do
  require (seconds ≤ s.loadMaxSubmissionAge ∧ maxFutureSkewSeconds < seconds) .invalidRelativeSkew
  return { s with maxRelativeSkewSeconds := some seconds }

def setMaxClusterSpreadBps (spread : Nat) (s : Storage) : Result Storage := do
  require (spread ≠ 0 ∧ (spread : Int) ≤ bps) .invalidClusterSpread
  return { s with maxClusterSpreadBps := some spread }

def recomputeFeeds (now : Nat) (feedIds : List FeedId) (s : Storage) : Result Storage := do
  feedIds.forM s.requireKnownFeed
  feedIds.foldlM (fun s feedId => s.recomputeAggregate now feedId .clear) s

def registerFeed (feedId : FeedId) (s : Storage) : Result Storage := do
  require (s.feedIndexContains feedId = false) .feedAlreadyRegistered
  s.ensureKnownFeed feedId

def addFeed (feedId : FeedId) (asset : ReflectorAsset) (s : Storage) : Result Storage := do
  require (s.hasFeedMapping asset = false) .feedAlreadyMapped
  require (s.loadFeedOwner feedId = none) .feedAlreadyMapped
  let s ← (s.mapFeed asset feedId).ensureKnownFeed feedId
  s.assetIndexInsert asset

def clearAssetAndFeed (asset : ReflectorAsset) (feedId : FeedId) (s : Storage) :
    Result Storage := do
  let s ← (s.removeFeedMapping asset).assetIndexRemove asset
  s.clearFeedState feedId

def removeFeed (asset : ReflectorAsset) (s : Storage) : Result Storage := do
  let feedId ← orThrow (s.loadFeedId asset) .feedNotMapped
  clearAssetAndFeed asset feedId s

def setResolution (resolution : Nat) (s : Storage) : Result Storage :=
  return { s with resolution := some resolution }

def purgeFeed (feedId : FeedId) (s : Storage) : Result Storage := do
  require (s.feedIndexContains feedId) .feedNotKnown
  match s.loadFeedOwner feedId with
  | some asset => clearAssetAndFeed asset feedId s
  | none => s.clearFeedState feedId

end Admin

/-! ## `submit.rs` -/

namespace Submit

def validatePrice (price : Int) : Result Unit := do
  require (0 < price) .invalidPrice
  require (price ≤ maxSubmittedPrice) .priceOutOfRange

def submitPrice (now : Nat) (signer : Address) (feedId : FeedId) (price : Int)
    (packageTimestamp : Nat) (s : Storage) : Result Storage := do
  s.requireRegisteredSigner signer
  s.requireKnownFeed feedId
  validatePrice price
  Storage.requireNotFuture now packageTimestamp
  s.requireFreshSubmission now packageTimestamp
  s.requireMonotonicPackage feedId signer packageTimestamp
  (s.storeSubmission feedId signer price packageTimestamp).recomputeAggregate now feedId .retain

def submitPrices (now : Nat) (signer : Address) (feedIds : List FeedId) (prices : List Int)
    (packageTimestamp : Nat) (s : Storage) : Result Storage := do
  s.requireRegisteredSigner signer
  require (feedIds.length = prices.length) .lengthMismatch
  Storage.requireNotFuture now packageTimestamp
  s.requireFreshSubmission now packageTimestamp
  feedIds.forM fun feedId => do
    s.requireKnownFeed feedId
    s.requireMonotonicPackage feedId signer packageTimestamp
  prices.forM validatePrice
  (feedIds.zip prices).foldlM (fun s e =>
    (s.storeSubmission e.1 signer e.2 packageTimestamp).recomputeAggregate now e.1 .retain) s

end Submit

/-! ## Runs -/

/-- `__constructor`. -/
def construct (signers : List Address) (threshold resolution : Nat) : Result Storage := do
  require (threshold ≠ 0 ∧ threshold ≤ signers.length ∧ signers.Nodup) .invalidThreshold
  return { Storage.empty with
    signers := some signers
    threshold := some threshold
    maxStaleSeconds := some defaultMaxStaleSeconds
    maxSubmissionAgeSeconds := some defaultMaxSubmissionAgeSeconds
    maxRelativeSkewSeconds := some defaultMaxRelativeSkewSeconds
    resolution := some resolution }

/-- The entry points that write storage. -/
inductive OracleCall where
  | addSigner (signer : Address)
  | removeSigner (signer : Address)
  | setThreshold (threshold : Nat)
  | setMaxStaleSeconds (seconds : Nat)
  | setMaxSubmissionAgeSeconds (seconds : Nat)
  | setMaxRelativeSkewSeconds (seconds : Nat)
  | setMaxClusterSpreadBps (spread : Nat)
  | setResolution (resolution : Nat)
  | recomputeFeeds (feedIds : List FeedId)
  | registerFeed (feedId : FeedId)
  | addFeed (feedId : FeedId) (asset : ReflectorAsset)
  | removeFeed (asset : ReflectorAsset)
  | purgeFeed (feedId : FeedId)
  | submitPrice (signer : Address) (feedId : FeedId) (price : Int) (packageTimestamp : Nat)
  | submitPrices (signer : Address) (feedIds : List FeedId) (prices : List Int)
      (packageTimestamp : Nat)

def OracleCall.exec (now : Nat) : OracleCall → Storage → Result Storage
  | .addSigner signer => Admin.addSigner signer
  | .removeSigner signer => Admin.removeSigner now signer
  | .setThreshold threshold => Admin.setThreshold threshold
  | .setMaxStaleSeconds seconds => Admin.setMaxStaleSeconds seconds
  | .setMaxSubmissionAgeSeconds seconds => Admin.setMaxSubmissionAgeSeconds seconds
  | .setMaxRelativeSkewSeconds seconds => Admin.setMaxRelativeSkewSeconds seconds
  | .setMaxClusterSpreadBps spread => Admin.setMaxClusterSpreadBps spread
  | .setResolution resolution => Admin.setResolution resolution
  | .recomputeFeeds feedIds => Admin.recomputeFeeds now feedIds
  | .registerFeed feedId => Admin.registerFeed feedId
  | .addFeed feedId asset => Admin.addFeed feedId asset
  | .removeFeed asset => Admin.removeFeed asset
  | .purgeFeed feedId => Admin.purgeFeed feedId
  | .submitPrice signer feedId price packageTimestamp =>
      Submit.submitPrice now signer feedId price packageTimestamp
  | .submitPrices signer feedIds prices packageTimestamp =>
      Submit.submitPrices now signer feedIds prices packageTimestamp

/-- One successful call, at any ledger time. -/
def OracleStep (s s' : Storage) : Prop :=
  ∃ (now : Nat) (call : OracleCall), call.exec now s = .ok s'

/-- Storage after deployment and any sequence of calls; a call that fails changes nothing. -/
def Storage.Reachable (s : Storage) : Prop :=
  ∃ signers threshold resolution deployed,
    construct signers threshold resolution = .ok deployed ∧
      Relation.ReflTransGen OracleStep deployed s

end Lending.XoxnoOracle
