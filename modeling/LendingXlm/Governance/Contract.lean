import LendingXlm.Governance.Op
import LendingXlm.Lib.History

/-!
# The governance contract

`contracts/governance/src/timelock`, `deploy.rs` and the entrypoints of `api.rs`. A call runs at a
ledger `now`; one that traps leaves the state as it was. The views are left out, and so are the
entrypoints built for tests only.
-/

namespace Lending.Gov

variable {Id T A W : Type} [DecidableEq Id] (g : GovernanceEnv Id T A W)

/-! ## `timelock/mod.rs` -/

/-- The delay of a tier: the minimum delay, raised to the tier's floor. -/
def operationDelay (t : T) (tier : DelayTier) : Nat :=
  let min := g.timelock.getMinDelay t
  match tier with
  | .standard => min
  | .sensitive => max min timelockSensitiveMinDelayLedgers
  | .recovery => max min timelockRecoveryMinDelayLedgers

def applyUpdateDelay (t : T) (newDelay : Nat) : GovResult T := do
  validateDelayUpdate g t newDelay
  return g.timelock.setMinDelay t newDelay

/-- The caller signed and holds the role. -/
def requireRole (a : A) (signers : List Address) (caller : Address) (role : String) :
    GovResult Unit := do
  require (caller ∈ signers) GovernanceError.libraryTrap
  g.access.ensureRole a role caller

/-- Without an executor, anyone may drive the execution. -/
def authorizeExecutor (a : A) (signers : List Address) (executor : Option Address) :
    GovResult Unit :=
  match executor with
  | some exec => requireRole g a signers exec executorRole
  | none => return ()

def requireOperationNotExpired (t : T) (now : Nat) (operationId : Id) : GovResult Unit := do
  let readyLedger := g.timelock.getOperationLedger t operationId
  if readyLedger ≤ 1 then
    return ()
  else
    let expiresAt := U32.saturatingAdd readyLedger timelockOperationGraceLedgers
    assertWithError (now ≤ expiresAt) .timelockOperationExpired

def operationForAdminOp (s : GovernanceState Id T A W) (op : AdminOperation) (salt : Bytes32) :
    GovResult (Operation Id × DelayTier) := do
  let resolved ← resolveOp g s op
  return ({ target := resolved.target
            function := resolved.function
            args := resolved.args
            predecessor := g.timelock.noPredecessor
            salt }, resolved.delayTier)

def cancellerResetOperation (newCancellers : List Address) (salt : Bytes32) : Operation Id where
  target := g.currentContractAddress
  function := "reset_cancellers"
  args := [.addresses newCancellers]
  predecessor := g.timelock.noPredecessor
  salt

def beginImmediate (s : GovernanceState Id T A W) (signers : List Address) (caller : Address)
    (role : String) : GovResult Unit :=
  requireRole g s.access signers caller role

def prepareExecute (s : GovernanceState Id T A W) (now : Nat) (signers : List Address)
    (executor : Option Address) (operation : Operation Id) : GovResult Id := do
  authorizeExecutor g s.access signers executor
  let operationId := g.timelock.hashOperation operation
  requireOperationNotExpired g s.timelock now operationId
  return operationId

def finishExecute (s : GovernanceState Id T A W) (operationId : Id) : GovernanceState Id T A W :=
  { s with timelock := g.timelock.removeOperationLedger s.timelock operationId }
    |>.clearOperationSidecars operationId

/-! ## `timelock/lifecycle.rs` -/

/-- The operations only the owner may propose. -/
def ownerOnly : AdminOperation → Bool
  | .transferGovOwnership _ | .transferCtrlOwnership _ | .upgradeGov _ | .upgradeController _
  | .upgradePool _ | .upgradePositionNft _ | .upgradePriceAggregator _ | .migrateController _
  | .updateGovDelay _ | .setPriceAggregator _ | .configureAssetOracle _ | .editOracleTolerance _
  | .setSwapAggregator _ | .approveBlendPool _ | .setAccumulator _ | .grantGovRole _
  | .setPositionManager _ true => true
  | _ => false

/-- What `propose` asks of the proposer besides the role. -/
def requireProposer (a : A) (proposer : Address) (op : AdminOperation) : GovResult Unit :=
  match op with
  | .revokeGovRole args => do
    assertWithError (args.account ≠ proposer) (.common .notAuthorized)
    let owner ← Access.ownerOrPanic g.access a
    assertWithError (args.account ≠ owner) (.common .notAuthorized)
  | op =>
    if ownerOnly op then do
      let owner ← Access.ownerOrPanic g.access a
      assertWithError (proposer = owner) (.common .notAuthorized)
    else
      return ()

/-- The marks `propose` leaves beside the schedule. -/
def markProposal (s : GovernanceState Id T A W) (operationId : Id) :
    AdminOperation → GovernanceState Id T A W
  | .revokeGovRole args => s.markRoleRevocationTarget operationId args.account
  | _ => s

def propose (s : GovernanceState Id T A W) (now : Nat) (signers : List Address)
    (proposer : Address) (op : AdminOperation) (salt : Bytes32) :
    GovResult (GovernanceState Id T A W × Id) := do
  beginImmediate g s signers proposer proposerRole
  requireProposer g s.access proposer op
  let (operation, delayTier) ← operationForAdminOp g s op salt
  let delay := operationDelay g s.timelock delayTier
  let (timelock, operationId) ← g.timelock.scheduleOperation s.timelock now operation delay
  return (markProposal { s with timelock } operationId op, operationId)

/-- An operation of another contract. -/
def execute (s : GovernanceState Id T A W) (now : Nat) (signers : List Address)
    (executor : Option Address) (operation : Operation Id) :
    GovResult (GovernanceState Id T A W × Val) := do
  assertWithError (operation.target ≠ g.currentContractAddress) (.common .internalError)
  let operationId ← prepareExecute g s now signers executor operation
  let timelock ← g.timelock.setExecuteOperation s.timelock now operation
  let (world, result) ← g.invokeContract s.world operation.target operation.function operation.args
  return (finishExecute g { s with timelock, world } operationId, result)

/-- A call of another contract whose answer is dropped. -/
def invoke (s : GovernanceState Id T A W) (target : Address) (function : String)
    (args : List Val) : GovResult (GovernanceState Id T A W) := do
  let (world, _) ← g.invokeContract s.world target function args
  return { s with world }

/-- `op.rs`: an operation on the governance itself. -/
def applySelfOp (s : GovernanceState Id T A W) (now : Nat) :
    AdminOperation → GovResult (GovernanceState Id T A W)
  | .upgradeGov hash => return { s with wasm := some hash }
  | .updateGovDelay newDelay => return { s with timelock := ← applyUpdateDelay g s.timelock newDelay }
  | .grantGovRole args =>
    return { s with access := ← Access.applyGrantRole g.access s.access args.account args.role }
  | .revokeGovRole args =>
    return { s with access := ← Access.applyRevokeRole g.access s.access args.account args.role }
  | .transferGovOwnership args =>
    return { s with
      access := ← Access.applyTransferOwnership g.access s.access now args.newOwner
        args.liveUntilLedger }
  | .setPriceAggregator addr => do
    requireContractAddress g s.world addr .invalidAggregator
    let s := { s with priceAggregator := some addr }
    invoke g s (← s.getController) "set_price_aggregator" [.address addr]
  | _ => throw (.common .internalError)

def executeSelf (s : GovernanceState Id T A W) (now : Nat) (signers : List Address)
    (executor : Option Address) (op : AdminOperation) (salt : Bytes32) :
    GovResult (GovernanceState Id T A W) := do
  let (operation, _) ← operationForAdminOp g s op salt
  assertWithError (operation.target = g.currentContractAddress) (.common .internalError)
  let operationId ← prepareExecute g s now signers executor operation
  let timelock ← g.timelock.setExecuteOperation s.timelock now operation
  let s ← applySelfOp g { s with timelock } now op
  return finishExecute g s operationId

/-- A recovery operation cannot be cancelled, nor a revocation by its target. -/
def cancel (s : GovernanceState Id T A W) (signers : List Address) (canceller : Address)
    (operationId : Id) : GovResult (GovernanceState Id T A W) := do
  requireRole g s.access signers canceller cancellerRole
  assertWithError (s.recoveryOp operationId = false) .operationNotCancellable
  assertWithError (s.roleRevocationTarget operationId ≠ some canceller) .operationNotCancellable
  let timelock ← g.timelock.cancelOperation s.timelock operationId
  return { s with timelock }.clearOperationSidecars operationId

/-! ## `timelock/recovery.rs` -/

def proposeCancellerReset (s : GovernanceState Id T A W) (now : Nat) (signers : List Address)
    (newCancellers : List Address) (salt : Bytes32) :
    GovResult (GovernanceState Id T A W × Id) := do
  Access.onlyOwner g.access s.access signers
  let operation := cancellerResetOperation g newCancellers salt
  let delay := operationDelay g s.timelock .recovery
  let (timelock, id) ← g.timelock.scheduleOperation s.timelock now operation delay
  return ({ s with timelock }.markRecoveryOp id, id)

def executeCancellerReset (s : GovernanceState Id T A W) (now : Nat) (signers : List Address)
    (executor : Option Address) (newCancellers : List Address) (salt : Bytes32) :
    GovResult (GovernanceState Id T A W) := do
  let operation := cancellerResetOperation g newCancellers salt
  let operationId ← prepareExecute g s now signers executor operation
  let timelock ← g.timelock.setExecuteOperation s.timelock now operation
  let access ← Access.applyCancellerReset g.access s.access newCancellers
  return finishExecute g { s with timelock, access } operationId

/-! ## `timelock/immediate.rs`

A call at once of the controller or the price aggregator, for the holders of a role. -/

def controllerCall (s : GovernanceState Id T A W) (signers : List Address) (caller : Address)
    (role function : String) (args : List Val) : GovResult (GovernanceState Id T A W) := do
  beginImmediate g s signers caller role
  invoke g s (← s.getController) function args

def pause (s : GovernanceState Id T A W) (signers : List Address) (caller : Address) :
    GovResult (GovernanceState Id T A W) :=
  controllerCall g s signers caller guardianRole "pause" []

def setSpokeAssetFlags (s : GovernanceState Id T A W) (signers : List Address) (caller : Address)
    (spokeId : Nat) (hubAsset : HubAssetKey) (paused frozen noSeize : Bool) :
    GovResult (GovernanceState Id T A W) :=
  controllerCall g s signers caller guardianRole "set_spoke_asset_flags"
    [.u32 spokeId, .hubAsset hubAsset, .bool paused, .bool frozen, .bool noSeize]

def setSanityBand (s : GovernanceState Id T A W) (signers : List Address) (caller : Address)
    (key : PriceKey) (minWad maxWad : Int) : GovResult (GovernanceState Id T A W) := do
  beginImmediate g s signers caller oracleRole
  invoke g s (← s.getPriceAggregator) "set_sanity_band"
    [.priceKey key, .i128 minWad, .i128 maxWad]

def createHub (s : GovernanceState Id T A W) (signers : List Address) (caller : Address) :
    GovResult (GovernanceState Id T A W) :=
  controllerCall g s signers caller guardianRole "create_hub" []

def addSpoke (s : GovernanceState Id T A W) (signers : List Address) (caller : Address) :
    GovResult (GovernanceState Id T A W) :=
  controllerCall g s signers caller guardianRole "add_spoke" []

def deactivatePositionManager (s : GovernanceState Id T A W) (signers : List Address)
    (caller manager : Address) : GovResult (GovernanceState Id T A W) :=
  controllerCall g s signers caller guardianRole "set_position_manager"
    [.address manager, .bool false]

def revokeBlendPool (s : GovernanceState Id T A W) (signers : List Address)
    (caller pool : Address) : GovResult (GovernanceState Id T A W) :=
  controllerCall g s signers caller guardianRole "revoke_blend_pool" [.address pool]

/-- Only the guardian and oracle roles can be revoked at once. -/
def revokeRoleImmediate (s : GovernanceState Id T A W) (signers : List Address)
    (account : Address) (role : String) : GovResult (GovernanceState Id T A W) := do
  Access.onlyOwner g.access s.access signers
  assertWithError (role = guardianRole ∨ role = oracleRole) .invalidRole
  return { s with access := ← Access.applyRevokeRole g.access s.access account role }

/-! ## `deploy.rs` -/

def controllerDeploySalt : Bytes32 := 0

def priceAggregatorDeploySalt : Bytes32 :=
  0x0101010101010101010101010101010101010101010101010101010101010101

def deployController (s : GovernanceState Id T A W) (signers : List Address)
    (wasmHash : Bytes32) : GovResult (GovernanceState Id T A W) := do
  Access.onlyOwner g.access s.access signers
  requireNonzeroWasmHash wasmHash
  assertWithError (s.controller = none) .poolAlreadyDeployed
  let (world, controller) ← g.deployContract s.world controllerDeploySalt wasmHash
  return { s with world, controller := some controller }

def deployPriceAggregator (s : GovernanceState Id T A W) (signers : List Address)
    (wasmHash : Bytes32) : GovResult (GovernanceState Id T A W) := do
  Access.onlyOwner g.access s.access signers
  requireNonzeroWasmHash wasmHash
  assertWithError (s.priceAggregator = none) .poolAlreadyDeployed
  let (world, priceAggregator) ← g.deployContract s.world priceAggregatorDeploySalt wasmHash
  let s := { s with world, priceAggregator := some priceAggregator }
  match s.controller with
  | some controller => invoke g s controller "set_price_aggregator" [.address priceAggregator]
  | none => return s

/-- `__constructor`, on the libraries' empty storage. -/
def construct (world : W) (admin : Address) (minDelay : Nat) :
    GovResult (GovernanceState Id T A W) := do
  let access ← g.access.setOwner g.access.fresh admin
  let access ← g.access.setAdmin access admin
  let access ← defaultOperationalRoles.foldlM
    (fun access role => g.access.grantRoleNoAuth access admin role) access
  requireNonzeroDelay minDelay
  return { timelock := g.timelock.setMinDelay g.timelock.fresh minDelay
           access
           controller := none
           priceAggregator := none
           roleRevocationTarget := fun _ => none
           recoveryOp := fun _ => false
           wasm := none
           world }

/-! ## Entrypoints -/

/-- The calls that write, with their arguments. -/
inductive GovernanceCall (Id : Type) where
  | deployController (wasmHash : Bytes32)
  | deployPriceAggregator (wasmHash : Bytes32)
  | execute (executor : Option Address) (operation : Operation Id)
  | cancel (canceller : Address) (operationId : Id)
  | propose (proposer : Address) (op : AdminOperation) (salt : Bytes32)
  | pause (caller : Address)
  | setSpokeAssetFlags (caller : Address) (spokeId : Nat) (hubAsset : HubAssetKey)
      (paused frozen noSeize : Bool)
  | setSanityBand (caller : Address) (key : PriceKey) (minWad maxWad : Int)
  | createHub (caller : Address)
  | addSpoke (caller : Address)
  | deactivatePositionManager (caller manager : Address)
  | revokeBlendPool (caller pool : Address)
  | revokeRoleImmediate (account : Address) (role : String)
  | executeSelf (executor : Option Address) (op : AdminOperation) (salt : Bytes32)
  | proposeCancellerReset (newCancellers : List Address) (salt : Bytes32)
  | executeCancellerReset (executor : Option Address) (newCancellers : List Address)
      (salt : Bytes32)
  | acceptOwnership
  deriving DecidableEq

/-- The state a call leaves; what it returns is dropped. -/
def GovernanceCall.exec (now : Nat) (signers : List Address) (s : GovernanceState Id T A W) :
    GovernanceCall Id → GovResult (GovernanceState Id T A W)
  | deployController wasmHash => Gov.deployController g s signers wasmHash
  | deployPriceAggregator wasmHash => Gov.deployPriceAggregator g s signers wasmHash
  | execute executor operation => return (← Gov.execute g s now signers executor operation).1
  | cancel canceller operationId => Gov.cancel g s signers canceller operationId
  | propose proposer op salt => return (← Gov.propose g s now signers proposer op salt).1
  | pause caller => Gov.pause g s signers caller
  | setSpokeAssetFlags caller spokeId hubAsset paused frozen noSeize =>
    Gov.setSpokeAssetFlags g s signers caller spokeId hubAsset paused frozen noSeize
  | setSanityBand caller key minWad maxWad =>
    Gov.setSanityBand g s signers caller key minWad maxWad
  | createHub caller => Gov.createHub g s signers caller
  | addSpoke caller => Gov.addSpoke g s signers caller
  | deactivatePositionManager caller manager =>
    Gov.deactivatePositionManager g s signers caller manager
  | revokeBlendPool caller pool => Gov.revokeBlendPool g s signers caller pool
  | revokeRoleImmediate account role => Gov.revokeRoleImmediate g s signers account role
  | executeSelf executor op salt => Gov.executeSelf g s now signers executor op salt
  | proposeCancellerReset newCancellers salt =>
    return (← Gov.proposeCancellerReset g s now signers newCancellers salt).1
  | executeCancellerReset executor newCancellers salt =>
    Gov.executeCancellerReset g s now signers executor newCancellers salt
  | acceptOwnership =>
    return { s with access := ← Access.acceptOwnership g.access s.access now signers }

/-! ## Runs -/

/-- The contract at a ledger. -/
structure Moment (Id T A W : Type) extends GovernanceState Id T A W where
  ledger : Nat

/-- A call and who signed it, or a change outside. -/
inductive GovernanceEvent (Id : Type) where
  | call (signers : List Address) (call : GovernanceCall Id)
  | outside
  deriving DecidableEq

/-- One step: a call that returns, at a ledger no earlier than before and while the contract runs
this code, or a move of everything outside along `outside`. -/
inductive GovernanceStep (outside : W → W → Prop) :
    Moment Id T A W → GovernanceEvent Id → Moment Id T A W → Prop
  | call {m : Moment Id T A W} {s : GovernanceState Id T A W} {now : Nat}
      {signers : List Address} {call : GovernanceCall Id} (hwasm : m.wasm = none)
      (hle : m.ledger ≤ now)
      (hexec : call.exec g now signers m.toGovernanceState = .ok s) :
      GovernanceStep outside m (.call signers call) ⟨s, now⟩
  | outside {m : Moment Id T A W} {w : W} {now : Nat} (hle : m.ledger ≤ now)
      (hworld : outside m.world w) :
      GovernanceStep outside m .outside ⟨{ m.toGovernanceState with world := w }, now⟩

abbrev GovernanceTransition (Id T A W : Type) :=
  History.Transition (Moment Id T A W) (GovernanceEvent Id)

/-- The transitions of a run, the latest first. -/
abbrev GovernanceLog (Id T A W : Type) := List (GovernanceTransition Id T A W)

/-- A recorded run from the deployment. -/
def GovernanceRun (outside : W → W → Prop) (log : GovernanceLog Id T A W) (m : Moment Id T A W) :
    Prop :=
  ∃ (world : W) (admin : Address) (minDelay now : Nat) (s : GovernanceState Id T A W),
    construct g world admin minDelay = .ok s ∧
    History.Run (GovernanceStep g outside) ⟨s, now⟩ log m

theorem GovernanceStep.exec {g : GovernanceEnv Id T A W} {outside : W → W → Prop}
    {m m' : Moment Id T A W} {signers : List Address} {call : GovernanceCall Id}
    (hstep : GovernanceStep g outside m (.call signers call) m') :
    call.exec g m'.ledger signers m.toGovernanceState = .ok m'.toGovernanceState := by
  cases hstep with
  | call _ _ hexec => exact hexec

/-- A recorded transition of a run is a step from a state a run reached. -/
theorem GovernanceRun.at_transition {g : GovernanceEnv Id T A W} {outside : W → W → Prop}
    {later earlier : GovernanceLog Id T A W}
    {x : GovernanceTransition Id T A W} {m : Moment Id T A W}
    (hrun : GovernanceRun g outside (later ++ x :: earlier) m) :
    GovernanceRun g outside earlier x.before ∧
      GovernanceStep g outside x.before x.event x.after := by
  obtain ⟨world, admin, minDelay, now, s, hs, hrun⟩ := hrun
  obtain ⟨hearlier, hstep, -⟩ := hrun.at_transition
  exact ⟨⟨world, admin, minDelay, now, s, hs, hearlier⟩, hstep⟩

end Lending.Gov
