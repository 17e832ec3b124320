import LendingXlm.Controller.Views

/-!
# The DeFindex strategy

`contracts/defindex-strategy/src/lib.rs`: an adapter that holds one controller account for each
vault and supplies and withdraws one asset on its behalf.

The strategy stands beside the controller in one system. Its calls run the controller's entrypoints
on a fresh context each, and a failure anywhere takes the whole call back. The host checks the
vault's signature before a body runs. Renewals of storage and the authorization of the pool's pull
are left out.
-/

namespace Lending.DefindexStrategy

open Transaction Fallible

variable {W : Type}

/-- `DeFindexStrategyError` -/
inductive StrategyError where
  | notInitialized
  | amountNotPositive
  | insufficientBalance
  | arithmeticError
  | accountLookupFailed
  deriving DecidableEq, Repr

/-- An error of the strategy, or one that a contract it calls reverts with. -/
inductive Failure where
  | strategy (e : StrategyError)
  | callee (e : Error)
  deriving DecidableEq

structure Config where
  hubId : Nat
  spokeId : Nat
  asset : Address
  controller : Address
  pool : Address
  deriving DecidableEq, Repr

/-- A host value, as far as the constructor tells values apart. -/
inductive Val where
  | address (a : Address)
  | u32 (n : Nat)
  | other
  deriving DecidableEq, Repr

/-- The strategy's storage, and the system it lives in. -/
structure State (W : Type) extends System W where
  config : Option Config
  vaultAccounts : SortedMap Address Nat

instance : MonadLift Result (Except Failure) where
  monadLift x := x.mapError Failure.callee

/-- A computation of the strategy. -/
abbrev Strat (W : Type) := EStateM Failure (State W)

namespace Strat

def ensure (c : Prop) [Decidable c] (e : StrategyError) : Strat W Unit :=
  liftM (require c (.strategy e) : Except Failure Unit)

/-- `ok_or` and `unwrap_or_else` with an error of the strategy. -/
def unwrapOr {α : Type} (o : Option α) (e : StrategyError) : Strat W α :=
  liftM (orThrow o (.strategy e) : Except Failure α)

end Strat

open Strat

variable (h : ControllerHost W) (timestamp : Nat) (strategy : Address)

/-! ## `ControllerClient` -/

/-- A call of the contract at `controller`, and how it ended; one that failed leaves no trace. Only
the controller is deployed with this interface. -/
def tryClient {α : Type} (controller : Address) (x : Ctrl W α) : Strat W (Except Error α) :=
  fun s =>
    if controller = h.controller then
      match x { toSystem := s.toSystem, cache := {} } with
      | .ok a t => .ok (.ok a) { s with toSystem := t.toSystem }
      | .error e _ => .ok (.error e) s
    else .ok (.error .foreignTrap) s

/-- A call that takes the caller down with it. -/
def client {α : Type} (controller : Address) (x : Ctrl W α) : Strat W α := do
  let answer ← tryClient h controller x
  (answer : Result α)

/-! ## Storage -/

def config : Strat W Config := do
  unwrapOr (← get).config .notInitialized

def setVaultAccount (vault : Address) (accountId : Nat) : Strat W Unit :=
  modify fun s => { s with vaultAccounts := s.vaultAccounts.set vault accountId }

def clearVaultAccount (vault : Address) : Strat W Unit :=
  modify fun s => { s with vaultAccounts := s.vaultAccounts.erase vault }

/-- The vault's account, if the controller says it is there. Only an explicit no clears the
mapping. -/
def resolveVaultAccount (cfg : Config) (vault : Address) (clearIfGone : Bool) : Strat W Nat := do
  let stored := ((← get).vaultAccounts.get? vault).getD 0
  if stored = 0 then
    return 0
  else
    let found ← tryClient h cfg.controller (Views.accountExists stored)
    let found ← unwrapOr found.toOption .accountLookupFailed
    if found then
      return stored
    else if clearIfGone then
      clearVaultAccount vault
      return 0
    else
      return 0

/-! ## `Ctx` -/

def Config.hubAsset (cfg : Config) : HubAssetKey := ⟨cfg.hubId, cfg.asset⟩

def Config.toPayment (cfg : Config) (amount : Int) : List HubPayment := [(cfg.hubAsset, amount)]

def collateral (cfg : Config) (accountId : Nat) : Strat W Int :=
  client h cfg.controller (Views.collateralAmountForHubAsset timestamp accountId cfg.hubAsset)

def vaultBalance (cfg : Config) (vault : Address) : Strat W Int := do
  let accountId ← resolveVaultAccount h cfg vault false
  if accountId = 0 then
    return 0
  else
    collateral h timestamp cfg accountId

def ppsDecimals : Nat := 12

/-- The supply index with 12 decimals, rounded down. -/
def harvestPricePerShare (cfg : Config) : Strat W Int := do
  let index ← client h cfg.controller (Views.getMarketIndex timestamp cfg.hubAsset)
  Ray.toAssetFloor index.supplyIndex ppsDecimals

/-! ## Entrypoints -/

def Val.toAddress : Val → Option Address
  | address a => some a
  | _ => none

def Val.toU32 : Val → Option Nat
  | u32 n => some n
  | _ => none

/-- `__constructor` -/
def construct (asset : Address) (initArgs : List Val) : Strat W Unit := do
  let controller ← unwrapOr (initArgs[0]?.bind Val.toAddress) .notInitialized
  let hubId ← unwrapOr (initArgs[1]?.bind Val.toU32) .notInitialized
  let spokeId ← unwrapOr (initArgs[2]?.bind Val.toU32) .notInitialized
  let cfg : Config := ⟨hubId, spokeId, asset, controller, h.pool⟩
  let _ ← client h controller (Views.getMarketIndex timestamp cfg.hubAsset)
  let _ ← client h controller (Views.getSpoke spokeId)
  let _ ← client h controller (Views.getSpokeAsset spokeId cfg.hubAsset)
  modify fun s => { s with config := some cfg }

def asset : Strat W Address := do
  return (← config).asset

/-- `transfer_amount_measured` from the vault into the strategy. -/
def pullFromVault (cfg : Config) (vault : Address) (amount : Int) : Strat W Int := do
  let (w, received) ← h.transferAmountMeasured (← get).pool.world cfg.asset vault strategy amount
    .amountMustBePositive
  modify fun s => { s with pool.world := w }
  return received

/-- Supplies what arrives to the vault's account, opening one if it has none. -/
def deposit (amount : Int) (vault : Address) : Strat W Int := do
  ensure (amount > 0) .amountNotPositive
  let cfg ← config
  let received ← pullFromVault h strategy cfg vault amount
  let storedId ← resolveVaultAccount h cfg vault true
  let accountId ← client h cfg.controller (Governance.whenNotPaused
    (Positions.processSupply h timestamp strategy storedId cfg.spokeId (cfg.toPayment received)))
  setVaultAccount vault accountId
  collateral h timestamp cfg accountId

/-- The price that the event reports. -/
def harvest : Strat W Int := do
  harvestPricePerShare h timestamp (← config)

def balance (vault : Address) : Strat W Int := do
  vaultBalance h timestamp (← config) vault

/-- Withdraws to `recipient`; the whole balance closes the account and drops the mapping. -/
def withdraw (amount : Int) (vault recipient : Address) : Strat W Int := do
  ensure (amount > 0) .amountNotPositive
  let cfg ← config
  let accountId ← resolveVaultAccount h cfg vault false
  ensure (accountId ≠ 0) .insufficientBalance
  let balance ← collateral h timestamp cfg accountId
  ensure (amount ≤ balance) .insufficientBalance
  let withdrawAmount := if amount = balance then 0 else amount
  let _ ← client h cfg.controller (Positions.processWithdraw h timestamp strategy accountId
    (cfg.toPayment withdrawAmount) (some recipient))
  if amount = balance then
    clearVaultAccount vault
    collateral h timestamp cfg accountId
  else
    collateral h timestamp cfg accountId

end Lending.DefindexStrategy
