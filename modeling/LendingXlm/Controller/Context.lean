import LendingXlm.Controller.Types
import LendingXlm.Lib.Transaction
import LendingXlm.Pool.Contract

/-!
# The controller's state and its invocations

`contracts/controller/src/{storage,context.rs,spoke_usage.rs}`. An entrypoint runs on the
contracts' state and an empty `Context`; when it traps, the host drops everything it wrote.

The context keeps what changes the outcome: prices and indexes read earlier in the invocation,
and the buffered usage rows of one spoke. Copies of values that cannot change during an
invocation (the pool's address and parameters, listings, hub checks), renewals of storage and
events are left out.
-/

namespace Lending

open Transaction

/-! ## Storage -/

structure ControllerStore where
  metas : SortedMap Nat AccountMeta
  supplyPositions : SortedMap Nat (SortedMap HubAssetKey AccountPosition)
  borrowPositions : SortedMap Nat (SortedMap HubAssetKey DebtPosition)
  delegates : SortedMap Nat DelegateGrant
  hubs : SortedMap Nat HubConfig
  spokes : SortedMap Nat SpokeConfig
  spokeAssets : SortedMap SpokeAssetKey SpokeAssetConfig
  spokeUsage : SortedMap SpokeAssetKey SpokeUsage
  spokeFlagsEpoch : SortedMap SpokeAssetKey Nat
  positionManagers : SortedMap Address Bool
  blendPools : SortedMap Address Bool
  positionLimits : PositionLimits
  minBorrowCollateralUsd : Int
  swapAggregator : Option Address
  priceAggregator : Option Address
  accumulator : Option Address
  lastSpokeId : Nat
  lastHubId : Nat
  paused : Bool
  deriving DecidableEq

namespace ControllerStore

def getSpoke (s : ControllerStore) (id : Nat) : Result SpokeConfig :=
  orThrow (s.spokes.get? id) .spokeNotFound

def getSpokeAsset (s : ControllerStore) (spokeId : Nat) (hubAsset : HubAssetKey) :
    Option SpokeAssetConfig :=
  s.spokeAssets.get? ⟨spokeId, hubAsset⟩

def getSpokeUsage (s : ControllerStore) (spokeId : Nat) (hubAsset : HubAssetKey) :
    Option SpokeUsage :=
  s.spokeUsage.get? ⟨spokeId, hubAsset⟩

/-- Stores a usage row; a row with nothing on either side is deleted. -/
def setSpokeUsage (s : ControllerStore) (spokeId : Nat) (hubAsset : HubAssetKey)
    (usage : SpokeUsage) : ControllerStore :=
  if usage.suppliedScaledRay = 0 ∧ usage.borrowedScaledRay = 0 then
    { s with spokeUsage := s.spokeUsage.erase ⟨spokeId, hubAsset⟩ }
  else
    { s with spokeUsage := s.spokeUsage.set ⟨spokeId, hubAsset⟩ usage }

/-- The stored supply positions of an account; none are stored as an absent entry. -/
def getSupplyPositions (s : ControllerStore) (accountId : Nat) :
    SortedMap HubAssetKey AccountPosition :=
  (s.supplyPositions.get? accountId).getD .empty

def getDebtPositions (s : ControllerStore) (accountId : Nat) :
    SortedMap HubAssetKey DebtPosition :=
  (s.borrowPositions.get? accountId).getD .empty

def setSupplyPositions (s : ControllerStore) (accountId : Nat)
    (map : SortedMap HubAssetKey AccountPosition) : ControllerStore :=
  if map.isEmpty then { s with supplyPositions := s.supplyPositions.erase accountId }
  else { s with supplyPositions := s.supplyPositions.set accountId map }

def setDebtPositions (s : ControllerStore) (accountId : Nat)
    (map : SortedMap HubAssetKey DebtPosition) : ControllerStore :=
  if map.isEmpty then { s with borrowPositions := s.borrowPositions.erase accountId }
  else { s with borrowPositions := s.borrowPositions.set accountId map }

def removeAccountEntry (s : ControllerStore) (accountId : Nat) : ControllerStore :=
  { s with
    metas := s.metas.erase accountId
    supplyPositions := s.supplyPositions.erase accountId
    borrowPositions := s.borrowPositions.erase accountId
    delegates := s.delegates.erase accountId }

/-- The delegates `owner` granted; a grant of a previous owner reads as empty. -/
def getDelegates (s : ControllerStore) (accountId : Nat) (owner : Address) : List Address :=
  match s.delegates.get? accountId with
  | some grant => if grant.grantedBy = owner then grant.delegates else []
  | none => []

def isActiveManager (s : ControllerStore) (addr : Address) : Bool :=
  (s.positionManagers.get? addr).getD false

def requireHubActive (s : ControllerStore) (hubId : Nat) : Result Unit :=
  require (((s.hubs.get? hubId).any HubConfig.isActive) = true) .hubNotActive

end ControllerStore

/-! ## The system -/

/-- The position NFT: which tokens exist, and the counter ids are taken from. Only the
controller mints and burns; who owns a token is part of the outside state, since holders may
transfer theirs in any outside call. -/
structure PositionNft where
  nextTokenId : Nat
  tokens : SortedMap Nat Unit
  deriving DecidableEq

/-- The contracts' state and the outside world. `flashLoanOngoing` is the reentrancy flag. -/
structure System (W : Type) where
  store : ControllerStore
  nft : PositionNft
  pool : PoolCtx W
  flashLoanOngoing : Bool

/-- A request to a Blend pool. -/
structure BlendRequest where
  requestType : Nat
  address : Address
  amount : Int
  deriving DecidableEq, Repr

/-- What the controller calls outside, besides tokens: prices, the router, receivers, Blend, and
the NFT's ownership records. -/
structure ControllerHost (W : Type) extends PoolHost W where
  controller : Address
  price : W → (aggregator asset : Address) → Result PriceFeed
  nftOwner : W → (tokenId : Nat) → Address
  nftAssign : W → (tokenId : Nat) → (owner : Address) → W
  nftRelease : W → (tokenId : Nat) → W
  executeStrategy : W → (router sender : Address) → (amountIn : Int) → (swap : List UInt8) →
    Result W
  executeFlashPosition : W → (receiver initiator : Address) → (accountId : Nat) →
    (asset : Address) → (amount fee amountReceived : Int) → (controller : Address) →
    (data : List UInt8) → Result W
  blendSubmit : W → (blendPool holder spender recipient : Address) → List BlendRequest → Result W

/-! ## Spoke usage -/

inductive UsageSide where
  | supply | borrow
  deriving DecidableEq, Repr

namespace UsageSide

def scaled : UsageSide → SpokeUsage → Int
  | supply, usage => usage.suppliedScaledRay
  | borrow, usage => usage.borrowedScaledRay

def setScaled : UsageSide → SpokeUsage → Int → SpokeUsage
  | supply, usage, value => { usage with suppliedScaledRay := value }
  | borrow, usage, value => { usage with borrowedScaledRay := value }

def cap : UsageSide → SpokeAssetConfig → Int
  | supply, cfg => cfg.supplyCap
  | borrow, cfg => cfg.borrowCap

def index : UsageSide → MarketIndex → Int
  | supply, marketIndex => marketIndex.supplyIndex
  | borrow, marketIndex => marketIndex.borrowIndex

def capError : UsageSide → Error
  | supply => .spokeSupplyCapReached
  | borrow => .spokeBorrowCapReached

end UsageSide

/-- The buffered usage rows of one spoke. -/
structure SpokeUsageContext where
  spokeId : Nat
  usage : SortedMap HubAssetKey SpokeUsage
  deriving DecidableEq

def enforceSpokeCap (side : UsageSide) (usage : SpokeUsage) (deltaScaled cap index : Int)
    (decimals : Nat) : Result Int := do
  let capScaled ← calculateScaledCap cap decimals index
  let nextScaled ← Ray.checkedAdd (side.scaled usage) deltaScaled
  require (nextScaled ≤ capScaled) side.capError
  return nextScaled

namespace SpokeUsageContext

def new (spokeId : Nat) : SpokeUsageContext := ⟨spokeId, .empty⟩

/-- The row as buffered, or as stored. -/
def row (ctx : SpokeUsageContext) (store : ControllerStore) (hubAsset : HubAssetKey) :
    Option SpokeUsage :=
  match ctx.usage.get? hubAsset with
  | some usage => some usage
  | none => store.getSpokeUsage ctx.spokeId hubAsset

def persist (ctx : SpokeUsageContext) (store : ControllerStore) : ControllerStore :=
  ctx.usage.entries.foldl (fun store e => store.setSpokeUsage ctx.spokeId e.1 e.2) store

def applyEntry (ctx : SpokeUsageContext) (store : ControllerStore) (side : UsageSide)
    (hubAsset : HubAssetKey) (deltaScaled cap index : Int) (decimals : Nat) :
    Result SpokeUsageContext := do
  let usage := (ctx.row store hubAsset).getD {}
  let next ← enforceSpokeCap side usage deltaScaled cap index decimals
  return { ctx with usage := ctx.usage.set hubAsset (side.setScaled usage next) }

/-- A zero delta and a missing row are no-ops. -/
def applyExit (ctx : SpokeUsageContext) (store : ControllerStore) (side : UsageSide)
    (hubAsset : HubAssetKey) (deltaScaled : Int) : Result SpokeUsageContext := do
  if deltaScaled = Ray.zero then
    return ctx
  match ctx.row store hubAsset with
  | none => return ctx
  | some usage =>
    let next ← orThrow (I128.checkedSub (side.scaled usage) deltaScaled) .mathOverflow
    require (next ≥ 0) .internalError
    return { ctx with usage := ctx.usage.set hubAsset (side.setScaled usage next) }

end SpokeUsageContext

/-! ## The context of an invocation -/

/-- An exit as `apply_exit` met it: the row it found, and what was to leave it. -/
structure ExitRecord where
  row : Option SpokeUsage
  side : UsageSide
  delta : Int
  deriving DecidableEq

/-- The row is there and holds what leaves. -/
def ExitRecord.Covered (r : ExitRecord) : Prop :=
  ∃ usage, r.row = some usage ∧ r.delta ≤ r.side.scaled usage

/-- `exits` lists the exits met so far. The source keeps no such list and nothing reads it: it
is there to state that they were all covered. -/
structure Context where
  tokenPrices : SortedMap Address PriceFeed := .empty
  marketIndexes : SortedMap HubAssetKey MarketIndex := .empty
  spokeUsage : Option SpokeUsageContext := none
  exits : List ExitRecord := []
  deriving DecidableEq

structure Invocation (W : Type) extends System W where
  cache : Context

/-- A controller computation. -/
abbrev Ctrl (W : Type) := EStateM Error (Invocation W)

variable {W : Type}

namespace Ctrl

/-- `assert_with_error!` -/
def assertWithError (c : Prop) [Decidable c] (e : Error) : Ctrl W Unit :=
  liftM (require c e : Result Unit)

/-- `unwrap_or_else` with an error. -/
def unwrapOr {α : Type} (o : Option α) (e : Error) : Ctrl W α :=
  liftM (orThrow o e : Result α)

def store : Ctrl W ControllerStore := return (← get).store

def world : Ctrl W W := return (← get).pool.world

def modifyStore (f : ControllerStore → ControllerStore) : Ctrl W Unit :=
  modify fun s => { s with store := f s.store }

def modifyCache (f : Context → Context) : Ctrl W Unit :=
  modify fun s => { s with cache := f s.cache }

/-- A call of the pool. -/
def poolCall {α : Type} (f : PoolCtx W → Result (PoolCtx W × α)) : Ctrl W α := do
  let (pool, a) ← f (← get).pool
  modify fun s => { s with pool }
  return a

/-- A call outside the contracts. -/
def outside {α : Type} (f : W → Result (W × α)) : Ctrl W α :=
  poolCall fun pool => do
    let (world, a) ← f pool.world
    return ({ pool with world }, a)

/-- Runs `f` with the flash-loan flag set; an outer guard stays in place. -/
def withFlashGuard {α : Type} (f : Ctrl W α) : Ctrl W α := do
  let prev := (← get).flashLoanOngoing
  modify fun s => { s with flashLoanOngoing := true }
  let out ← f
  if ¬ prev then
    modify fun s => { s with flashLoanOngoing := false }
  return out

end Ctrl

open Ctrl

variable (h : ControllerHost W) (timestamp : Nat)

namespace Context

def collectUncachedKeys {K V : Type} [LinearOrder K] (requested : List K)
    (cache : SortedMap K V) : List K :=
  requested.foldl (fun missing key =>
    if cache.contains key = false ∧ key ∉ missing then missing ++ [key] else missing) []

def uniqueHubTokens (hubAssets : List HubAssetKey) : List Address :=
  hubAssets.foldl (fun assets key =>
    if key.asset ∈ assets then assets else assets ++ [key.asset]) []

def fetchPrice (asset : Address) : Ctrl W Unit := do
  let s ← get
  let aggregator ← unwrapOr s.store.priceAggregator .aggregatorNotSet
  let feed ← h.price s.pool.world aggregator asset
  modifyCache fun c => { c with tokenPrices := c.tokenPrices.set asset feed }

def fetchPrices (assets : List Address) : Ctrl W Unit := do
  let missing := collectUncachedKeys assets (← get).cache.tokenPrices
  missing.foldlM (fun _ asset => fetchPrice h asset) ()

def fetchMarketIndexes (hubAssets : List HubAssetKey) : Ctrl W Unit := do
  let s ← get
  let missing := collectUncachedKeys hubAssets s.cache.marketIndexes
  if missing = [] then
    return ()
  else
    let indexes ← getBulkIndexes s.pool.markets.get? timestamp missing
    modifyCache fun c =>
      { c with
        marketIndexes := (missing.zip indexes).foldl (fun m e => m.set e.1 e.2) c.marketIndexes }

def loadMarkets (hubAssets : List HubAssetKey) : Ctrl W Unit := do
  fetchPrices h (uniqueHubTokens hubAssets)
  fetchMarketIndexes timestamp hubAssets

def putMarketIndex (hubAsset : HubAssetKey) (index : MarketIndex) : Ctrl W Unit :=
  modifyCache fun c => { c with marketIndexes := c.marketIndexes.set hubAsset index }

def cachedMarketIndex (hubAsset : HubAssetKey) : Ctrl W MarketIndex := do
  fetchMarketIndexes timestamp [hubAsset]
  unwrapOr ((← get).cache.marketIndexes.get? hubAsset) .internalError

def cachedPrice (asset : Address) : Ctrl W PriceFeed := do
  unwrapOr ((← get).cache.tokenPrices.get? asset) .oracleNotConfigured

def requireHubActive (hubId : Nat) : Ctrl W Unit := do
  (← store).requireHubActive hubId

def cachedPoolSyncData (hubAsset : HubAssetKey) : Ctrl W PoolSyncData := do
  LiquidityPool.getSyncData (← get).pool hubAsset

/-- Binds the invocation to one spoke. -/
def ensureSpokeContext (spokeId : Nat) : Ctrl W SpokeUsageContext := do
  match (← get).cache.spokeUsage with
  | some ctx =>
    assertWithError (ctx.spokeId = spokeId) .spokeMismatch
    return ctx
  | none =>
    modifyCache fun c => { c with spokeUsage := some (.new spokeId) }
    return .new spokeId

def resetSpokeContext : Ctrl W Unit :=
  modifyCache fun c => { c with spokeUsage := none }

def cachedSpokeAsset (spokeId : Nat) (hubAsset : HubAssetKey) :
    Ctrl W (Option SpokeAssetConfig) := do
  let _ ← ensureSpokeContext spokeId
  return (← store).getSpokeAsset spokeId hubAsset

def requireSpokeAssetConfig (spokeId : Nat) (hubAsset : HubAssetKey) :
    Ctrl W SpokeAssetConfig := do
  unwrapOr (← cachedSpokeAsset spokeId hubAsset) .assetNotInSpoke

def requireSpokeAsset (spokeId : Nat) (hubAsset : HubAssetKey) : Ctrl W AssetConfig :=
  return (← requireSpokeAssetConfig spokeId hubAsset).toAssetConfig

def spokeConfig (spokeId : Nat) : Ctrl W SpokeConfig := do
  let _ ← ensureSpokeContext spokeId
  (← store).getSpoke spokeId

def activeSpoke (spokeId : Nat) : Ctrl W SpokeConfig := do
  let spoke ← spokeConfig spokeId
  assertWithError (¬ spoke.isDeprecated) .spokeDeprecated
  return spoke

def requireListedActiveConfig (spokeId : Nat) (hubAsset : HubAssetKey) : Ctrl W AssetConfig := do
  let _ ← activeSpoke spokeId
  requireSpokeAsset spokeId hubAsset

def applySpokeEntry (spokeId : Nat) (side : UsageSide) (hubAsset : HubAssetKey)
    (deltaScaled : Int) (marketIndex : MarketIndex) (decimals : Nat) : Ctrl W Unit := do
  let config ← requireSpokeAssetConfig spokeId hubAsset
  let ctx ← ensureSpokeContext spokeId
  let ctx ← ctx.applyEntry (← store) side hubAsset deltaScaled (side.cap config)
    (side.index marketIndex) decimals
  modifyCache fun c => { c with spokeUsage := some ctx }

def applySpokeExit (spokeId : Nat) (side : UsageSide) (hubAsset : HubAssetKey)
    (deltaScaled : Int) : Ctrl W Unit := do
  let ctx ← ensureSpokeContext spokeId
  let store ← store
  let met : ExitRecord := ⟨ctx.row store hubAsset, side, deltaScaled⟩
  modifyCache fun c => { c with exits := if deltaScaled = 0 then c.exits else met :: c.exits }
  let ctx ← ctx.applyExit store side hubAsset deltaScaled
  modifyCache fun c => { c with spokeUsage := some ctx }

def persistSpokeUsage : Ctrl W Unit := do
  match (← get).cache.spokeUsage with
  | some ctx => modifyStore ctx.persist
  | none => return ()

end Context

end Lending
