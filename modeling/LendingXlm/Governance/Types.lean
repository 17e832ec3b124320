import LendingXlm.Controller.Entrypoints
import LendingXlm.Lib.SwapIndex
import LendingXlm.PriceAggregator.Types

/-!
# Types of the governance contract

`interfaces/governance/src/lib.rs` and the constants of `contracts/governance`: the admin
operations with their arguments, and the values a cross-contract call passes.

The timelock, the owner and the roles are kept by `stellar_governance` and `stellar_access`, which
are not part of the repository. `TimelockLib` and `AccessLib` are what the contract calls of them,
over whatever they store; `Lawful` says what their documentation promises. `GovernanceHost` is what
lies outside: tokens, the price aggregator's oracles, and the contracts the governance calls.
-/

namespace Lending.Gov

export PriceAggregator (PriceKey AssetOracle OracleTolerance Bytes32)
export Config (SpokeAssetArgs)

/-! ## Errors -/

/-- What a call reverts with: an error the contract shares with the others, one of its own, or a
trap inside the libraries or an invoked contract. -/
inductive GovernanceError where
  | common (e : Error)
  | oracle (e : PriceAggregator.OracleError)
  | poolAlreadyDeployed | invalidWasmHash | notSmartContract | invalidTimelockDelay
  | timelockOperationExpired | invalidRole | operationNotCancellable | cannotRemoveLastProposer
  | invalidAggregator
  | libraryTrap
  | calleeTrap
  deriving DecidableEq, Repr

abbrev GovResult := Except GovernanceError

instance : MonadLift Result GovResult where
  monadLift x := x.mapError GovernanceError.common

/-- `assert_with_error!` -/
def assertWithError (c : Prop) [Decidable c] (e : GovernanceError) : GovResult Unit :=
  require c e

/-! ## Constants -/

def timelockMinDelayLedgers : Nat := 34_560
def timelockMaxDelayLedgers : Nat := 241_920
def timelockSensitiveMinDelayLedgers : Nat := 12
def timelockOperationGraceLedgers : Nat := 120_960
def timelockRecoveryMinDelayLedgers : Nat := 518_400
def minAssetDecimals : Nat := 0
def maxAssetDecimals : Nat := 18
def minTolerance : Nat := 150
def maxTolerance : Nat := 2_500

/-! ## Values -/

deriving instance DecidableEq, Repr for Config.SpokeAssetArgs

/-- A value passed to a contract or returned by one. -/
inductive Val where
  | void
  | bool (b : Bool)
  | u32 (n : Nat)
  | u64 (n : Nat)
  | i128 (x : Int)
  | address (a : Address)
  | bytesN (b : Bytes32)
  | string (s : String)
  | symbol (s : String)
  | addresses (l : List Address)
  | hubAsset (k : HubAssetKey)
  | positionLimits (l : PositionLimits)
  | spokeAsset (args : SpokeAssetArgs)
  | marketParams (p : MarketParams)
  | interestRateModel (m : InterestRateModel)
  | priceKey (k : PriceKey)
  | assetOracle (o : AssetOracle)
  | oracleTolerance (t : OracleTolerance)
  deriving DecidableEq, Repr

/-! ## Admin operations -/

structure RemoveAssetFromSpokeArgs where
  hubAsset : HubAssetKey
  spokeId : Nat
  deriving DecidableEq, Repr

structure RelaxSpokeAssetFlagsArgs where
  spokeId : Nat
  hubAsset : HubAssetKey
  expectedEpoch : Nat
  paused : Bool
  frozen : Bool
  noSeize : Bool
  deriving DecidableEq, Repr

structure CreatePoolArgs where
  hubId : Nat
  asset : Address
  params : MarketParams
  deriving DecidableEq, Repr

structure UpgradePoolParamsArgs where
  hubAsset : HubAssetKey
  params : InterestRateModel
  deriving DecidableEq, Repr

structure DeployPositionNftArgs where
  wasmHash : Bytes32
  uri : String
  name : String
  symbol : String
  deriving DecidableEq, Repr

structure TransferOwnershipArgs where
  newOwner : Address
  liveUntilLedger : Nat
  deriving DecidableEq, Repr

structure ConfigureAssetOracleArgs where
  key : PriceKey
  oracle : AssetOracle
  deriving DecidableEq, Repr

structure EditToleranceArgs where
  key : PriceKey
  tolerance : Nat
  deriving DecidableEq, Repr

structure SpokeLiquidationCurveArgs where
  spokeId : Nat
  targetHfWad : Int
  hfForMaxBonusWad : Int
  liquidationBonusFactorBps : Nat
  deriving DecidableEq, Repr

structure RoleArgs where
  account : Address
  role : String
  deriving DecidableEq, Repr

inductive AdminOperation where
  | setSwapAggregator (addr : Address)
  | setPriceAggregator (addr : Address)
  | setAccumulator (addr : Address)
  | setPositionLimits (limits : PositionLimits)
  | setMinBorrowCollateralUsd (floorWad : Int)
  | createHub
  | addSpoke
  | removeSpoke (id : Nat)
  | addAssetToSpoke (args : SpokeAssetArgs)
  | editAssetInSpoke (args : SpokeAssetArgs)
  | removeAssetFromSpoke (args : RemoveAssetFromSpokeArgs)
  | approveBlendPool (pool : Address)
  | revokeBlendPool (pool : Address)
  | createLiquidityPool (args : CreatePoolArgs)
  | upgradeLiquidityPoolParams (args : UpgradePoolParamsArgs)
  | deployPool (hash : Bytes32)
  | deployPositionNft (args : DeployPositionNftArgs)
  | upgradePool (hash : Bytes32)
  | upgradePositionNft (hash : Bytes32)
  | upgradePriceAggregator (hash : Bytes32)
  | setPositionManager (manager : Address) (isActive : Bool)
  | upgradeController (hash : Bytes32)
  | migrateController (version : Nat)
  | transferCtrlOwnership (args : TransferOwnershipArgs)
  | editOracleTolerance (args : EditToleranceArgs)
  | setSpokeLiquidationCurve (args : SpokeLiquidationCurveArgs)
  | forceSocializeBadDebt (accountId : Nat)
  | unpause
  | upgradeGov (hash : Bytes32)
  | updateGovDelay (newDelay : Nat)
  | grantGovRole (args : RoleArgs)
  | revokeGovRole (args : RoleArgs)
  | transferGovOwnership (args : TransferOwnershipArgs)
  | configureAssetOracle (args : ConfigureAssetOracleArgs)
  | relaxSpokeAssetFlags (args : RelaxSpokeAssetFlagsArgs)
  deriving DecidableEq, Repr

/-- Classifies an operation by the minimum delay it must wait before execution. -/
inductive DelayTier where
  | standard | sensitive | recovery
  deriving DecidableEq, Repr

/-! ## The timelock -/

/-- `stellar_governance::timelock::Operation`; `Id` is the type of operation ids. -/
structure Operation (Id : Type) where
  target : Address
  function : String
  args : List Val
  predecessor : Id
  salt : Bytes32
  deriving DecidableEq

/-- What is called of `stellar_governance::timelock`, `T` being what it stores.
`removeOperationLedger` deletes the entry `get_operation_ledger` reads. -/
structure TimelockLib (Id T : Type) where
  fresh : T
  noPredecessor : Id
  hashOperation : Operation Id → Id
  getMinDelay : T → Nat
  setMinDelay : T → Nat → T
  getOperationLedger : T → Id → Nat
  scheduleOperation : T → (now : Nat) → Operation Id → (delay : Nat) → GovResult (T × Id)
  setExecuteOperation : T → (now : Nat) → Operation Id → GovResult T
  cancelOperation : T → Id → GovResult T
  removeOperationLedger : T → Id → T

/-- An operation's ledger is 0 while it is unset, 1 once it is done, and the ledger it gets ready
at in between. -/
structure TimelockLib.Lawful {Id T : Type} [DecidableEq Id] (lib : TimelockLib Id T) : Prop where
  hash_injective : Function.Injective lib.hashOperation
  fresh_ledger : ∀ id, lib.getOperationLedger lib.fresh id = 0
  setMinDelay : ∀ t delay, lib.getMinDelay (lib.setMinDelay t delay) = delay ∧
    lib.getOperationLedger (lib.setMinDelay t delay) = lib.getOperationLedger t
  schedule : ∀ {t now op delay t' id}, lib.scheduleOperation t now op delay = .ok (t', id) →
    id = lib.hashOperation op ∧ lib.getOperationLedger t id = 0 ∧ lib.getMinDelay t ≤ delay ∧
    lib.getMinDelay t' = lib.getMinDelay t ∧
    lib.getOperationLedger t' = Function.update (lib.getOperationLedger t) id (now + delay)
  setExecute : ∀ {t now op t'}, lib.setExecuteOperation t now op = .ok t' →
    2 ≤ lib.getOperationLedger t (lib.hashOperation op) ∧
    lib.getOperationLedger t (lib.hashOperation op) ≤ now ∧
    lib.getMinDelay t' = lib.getMinDelay t ∧
    lib.getOperationLedger t' =
      Function.update (lib.getOperationLedger t) (lib.hashOperation op) 1
  cancel : ∀ {t id t'}, lib.cancelOperation t id = .ok t' →
    2 ≤ lib.getOperationLedger t id ∧ lib.getMinDelay t' = lib.getMinDelay t ∧
    lib.getOperationLedger t' = Function.update (lib.getOperationLedger t) id 0
  remove : ∀ t id, lib.getMinDelay (lib.removeOperationLedger t id) = lib.getMinDelay t ∧
    lib.getOperationLedger (lib.removeOperationLedger t id) =
      Function.update (lib.getOperationLedger t) id 0

/-! ## The owner and the roles -/

/-- What the contract reads: the owner of `ownable`, the admin of `access_control`, and the
enumeration of each role's holders. -/
structure AccessView where
  owner : Option Address
  admin : Option Address
  roleMembers : String → SwapIndex Address

/-- The two pending transfers kept by `role_transfer`. -/
inductive TransferKey where
  | pendingOwner | pendingAdmin
  deriving DecidableEq, Repr

/-- What is called of `stellar_access`, `A` being what it stores. `writeAdmin` and
`removePendingAdmin` are the contract's own writes to the entries of `access_control`. -/
structure AccessLib (A : Type) where
  fresh : A
  view : A → AccessView
  pending : A → (now : Nat) → TransferKey → Option Address
  setOwner : A → Address → GovResult A
  setAdmin : A → Address → GovResult A
  transferRole : A → (now : Nat) → (newRole : Address) → TransferKey → (liveUntilLedger : Nat) →
    GovResult A
  acceptOwnership : A → (now : Nat) → (signers : List Address) → GovResult A
  writeAdmin : A → Address → A
  removePendingAdmin : A → A
  grantRoleNoAuth : A → (account : Address) → (role : String) → GovResult A
  revokeRoleNoAuth : A → (account : Address) → (role : String) → GovResult A

namespace AccessLib

variable {A : Type} (lib : AccessLib A) (a : A)

def getOwner : Option Address := (lib.view a).owner

def getAdmin : Option Address := (lib.view a).admin

/-- `access_control::has_role(..).is_some()` -/
def hasRole (account : Address) (role : String) : Bool :=
  ((lib.view a).roleMembers role).contains account

def getRoleMemberCount (role : String) : Nat := ((lib.view a).roleMembers role).count

def getRoleMember (role : String) (index : Nat) : GovResult Address :=
  orThrow (((lib.view a).roleMembers role).slotAt index) .libraryTrap

def ensureRole (role : String) (caller : Address) : GovResult Unit :=
  require (lib.hasRole a caller role) .libraryTrap

end AccessLib

/-- Pending transfers touch neither owner nor admin nor roles; a new owner is the pending one and
signed. A grant appends to the enumeration of the role unless the account is in it, a revocation
swaps the last holder into the freed place. -/
structure AccessLib.Lawful {A : Type} (lib : AccessLib A) : Prop where
  fresh : ∀ role, (lib.view lib.fresh).roleMembers role = .empty
  setOwner : ∀ {a x a'}, lib.setOwner a x = .ok a' →
    lib.view a' = { lib.view a with owner := some x }
  setAdmin : ∀ {a x a'}, lib.setAdmin a x = .ok a' →
    lib.view a' = { lib.view a with admin := some x }
  transferRole : ∀ {a now x key live a'}, lib.transferRole a now x key live = .ok a' →
    lib.view a' = lib.view a
  acceptOwnership : ∀ {a now signers a'}, lib.acceptOwnership a now signers = .ok a' →
    ∃ x ∈ signers, lib.pending a now .pendingOwner = some x ∧
      lib.view a' = { lib.view a with owner := some x }
  writeAdmin : ∀ a x, lib.view (lib.writeAdmin a x) = { lib.view a with admin := some x }
  removePendingAdmin : ∀ a, lib.view (lib.removePendingAdmin a) = lib.view a
  grant : ∀ {a account role a'}, lib.grantRoleNoAuth a account role = .ok a' →
    lib.view a' =
      if lib.hasRole a account role then lib.view a
      else { lib.view a with
        roleMembers := Function.update (lib.view a).roleMembers role
          (((lib.view a).roleMembers role).insert account) }
  revoke : ∀ {a account role a'}, lib.revokeRoleNoAuth a account role = .ok a' →
    lib.hasRole a account role = true ∧
    ∃ members, ((lib.view a).roleMembers role).remove account = some members ∧
      lib.view a' =
        { lib.view a with
          roleMembers := Function.update (lib.view a).roleMembers role members }

/-! ## The outside -/

/-- What the contract calls outside, `W` being everything it does not store itself. The host runs
no call of the governance inside one of these. -/
structure GovernanceHost (W : Type) where
  currentContractAddress : Address
  isWasmContract : W → Address → Bool
  tryDecimals : W → (token : Address) → Option Nat
  trySymbol : W → (token : Address) → Option String
  oracle : W → (aggregator : Address) → PriceKey → GovResult (Option AssetOracle)
  getSpokeAssetFlagsEpoch : W → (controller : Address) → (spokeId : Nat) → HubAssetKey →
    GovResult Nat
  invokeContract : W → (target : Address) → (function : String) → List Val → GovResult (W × Val)
  deployContract : W → (salt wasmHash : Bytes32) → GovResult (W × Address)

/-- The governance's environment. -/
structure GovernanceEnv (Id T A W : Type) extends GovernanceHost W where
  timelock : TimelockLib Id T
  access : AccessLib A

structure GovernanceEnv.Lawful {Id T A W : Type} [DecidableEq Id] (g : GovernanceEnv Id T A W) :
    Prop where
  timelock : g.timelock.Lawful
  access : g.access.Lawful

/-- What the contract stores, with the libraries' parts, and the outside. `wasm` is the code an
upgrade installed; `none` is the code modelled here. -/
structure GovernanceState (Id T A W : Type) where
  timelock : T
  access : A
  controller : Option Address
  priceAggregator : Option Address
  roleRevocationTarget : Id → Option Address
  recoveryOp : Id → Bool
  wasm : Option Bytes32
  world : W

end Lending.Gov
