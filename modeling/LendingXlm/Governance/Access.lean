import LendingXlm.Governance.Types

/-!
# Storage and access control of the governance contract

`contracts/governance/src/storage.rs` and `access.rs`. An account authorised a call when it is
among the call's `signers`. Events and renewals of storage are left out.
-/

namespace Lending.Gov

/-! ## `storage.rs` -/

section Storage

variable {Id T A W : Type}

namespace GovernanceState

variable (s : GovernanceState Id T A W)

def getController : GovResult Address := orThrow s.controller (.common .poolNotInitialized)

def getPriceAggregator : GovResult Address := orThrow s.priceAggregator (.common .aggregatorNotSet)

variable [DecidableEq Id]

def markRoleRevocationTarget (operationId : Id) (account : Address) : GovernanceState Id T A W :=
  { s with
    roleRevocationTarget := Function.update s.roleRevocationTarget operationId (some account) }

def markRecoveryOp (operationId : Id) : GovernanceState Id T A W :=
  { s with recoveryOp := Function.update s.recoveryOp operationId true }

def clearOperationSidecars (operationId : Id) : GovernanceState Id T A W :=
  { s with
    recoveryOp := Function.update s.recoveryOp operationId false
    roleRevocationTarget := Function.update s.roleRevocationTarget operationId none }

end GovernanceState

end Storage

/-! ## `access.rs` -/

def oracleRole : String := "ORACLE"
def proposerRole : String := "PROPOSER"
def executorRole : String := "EXECUTOR"
def cancellerRole : String := "CANCELLER"
def guardianRole : String := "GUARDIAN"

def defaultOperationalRoles : List String :=
  [oracleRole, proposerRole, executorRole, cancellerRole, guardianRole]

def requireKnownGovernanceRole (role : String) : GovResult Unit :=
  assertWithError (role ∈ defaultOperationalRoles) .invalidRole

namespace Access

variable {A : Type} (lib : AccessLib A)

def ownerOrPanic (a : A) : GovResult Address := orThrow (lib.getOwner a) (.common .ownerNotSet)

def syncPendingAdminTransfer (a : A) (now : Nat) (newOwner : Address) (liveUntilLedger : Nat) :
    GovResult A := do
  let a ← if liveUntilLedger = 0 then .ok (lib.removePendingAdmin a)
    else lib.transferRole a now newOwner .pendingAdmin liveUntilLedger
  let _ ← orThrow ((lib.getAdmin a).or (lib.getOwner a)) (GovernanceError.common .ownerNotSet)
  return a

/-- One role of the loop in `sync_owner_access_control`. -/
def handOverRole (previousOwner newOwner : Address) (a : A) (role : String) : GovResult A := do
  let a ← lib.grantRoleNoAuth a newOwner role
  if previousOwner ≠ newOwner ∧ lib.hasRole a previousOwner role = true then
    lib.revokeRoleNoAuth a previousOwner role
  else
    return a

def syncOwnerAccessControl (a : A) (previousOwner newOwner : Address) : GovResult A :=
  defaultOperationalRoles.foldlM (handOverRole lib previousOwner newOwner)
    (lib.removePendingAdmin (lib.writeAdmin a newOwner))

def applyTransferOwnership (a : A) (now : Nat) (newOwner : Address) (liveUntilLedger : Nat) :
    GovResult A := do
  let _ ← ownerOrPanic lib a
  let a ← lib.transferRole a now newOwner .pendingOwner liveUntilLedger
  syncPendingAdminTransfer lib a now newOwner liveUntilLedger

/-- The owner may hold both roles. -/
def requireExecutorCancellerSeparation (a : A) (owner account : Address) (role : String) :
    GovResult Unit :=
  if account = owner then
    return ()
  else if role = executorRole then
    assertWithError (lib.hasRole a account cancellerRole = false) .invalidRole
  else if role = cancellerRole then
    assertWithError (lib.hasRole a account executorRole = false) .invalidRole
  else
    return ()

def applyGrantRole (a : A) (account : Address) (role : String) : GovResult A := do
  let owner ← ownerOrPanic lib a
  requireExecutorCancellerSeparation lib a owner account role
  lib.grantRoleNoAuth a account role

/-- The loop that revokes, from the last holder down; `count` is what is left to visit. -/
def revokeCancellers (owner : Address) : (count : Nat) → A → GovResult A
  | 0, a => .ok a
  | count + 1, a => do
    let holder ← lib.getRoleMember a cancellerRole count
    let a ← if holder ≠ owner then lib.revokeRoleNoAuth a holder cancellerRole else .ok a
    revokeCancellers owner count a

/-- One account of the loop that grants. -/
def grantCanceller (owner : Address) (a : A) (account : Address) : GovResult A := do
  if account ≠ owner ∧ lib.hasRole a account cancellerRole = false then
    requireExecutorCancellerSeparation lib a owner account cancellerRole
    lib.grantRoleNoAuth a account cancellerRole
  else
    return a

def applyCancellerReset (a : A) (newCancellers : List Address) : GovResult A := do
  let owner ← ownerOrPanic lib a
  let a ← revokeCancellers lib owner (lib.getRoleMemberCount a cancellerRole) a
  newCancellers.foldlM (grantCanceller lib owner) a

def applyRevokeRole (a : A) (account : Address) (role : String) : GovResult A := do
  assertWithError (lib.hasRole a account role = true) .invalidRole
  let owner ← ownerOrPanic lib a
  assertWithError (account ≠ owner) (.common .notAuthorized)
  if role = proposerRole then
    assertWithError (lib.getRoleMemberCount a role > 1) .cannotRemoveLastProposer
    lib.revokeRoleNoAuth a account role
  else
    lib.revokeRoleNoAuth a account role

def acceptOwnership (a : A) (now : Nat) (signers : List Address) : GovResult A := do
  let previousOwner ← ownerOrPanic lib a
  let a ← lib.acceptOwnership a now signers
  let newOwner ← ownerOrPanic lib a
  syncOwnerAccessControl lib a previousOwner newOwner

/-- `#[only_owner]` -/
def onlyOwner (a : A) (signers : List Address) : GovResult Unit := do
  let owner ← orThrow (lib.getOwner a) GovernanceError.libraryTrap
  require (owner ∈ signers) GovernanceError.libraryTrap

end Access

end Lending.Gov
