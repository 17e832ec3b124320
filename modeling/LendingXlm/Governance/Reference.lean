import LendingXlm.Governance.Contract

/-!
# The libraries as documented

An implementation of the timelock and of the access libraries that follows their documentation,
with operation ids that are the operations themselves; it is lawful (`Reference.env_lawful`).
`replay` makes calls one after the other, and what it records is a run (`replay_run`).
-/

namespace Lending.Gov

open Fallible (bind_ok require_ok_iff pure_ok_iff)

/-! ## Replaying calls -/

section Replay

variable {Id T A W : Type} [DecidableEq Id] (g : GovernanceEnv Id T A W)

/-- A call, when it is made and who signs it. -/
abbrev SignedCall (Id : Type) := Nat × List Address × GovernanceCall Id

def replayCall (r : GovernanceLog Id T A W × Moment Id T A W) (c : SignedCall Id) :
    GovResult (GovernanceLog Id T A W × Moment Id T A W) := do
  let (now, signers, call) := c
  require (r.2.wasm = none ∧ r.2.ledger ≤ now) GovernanceError.libraryTrap
  let s ← call.exec g now signers r.2.toGovernanceState
  return (⟨r.2, .call signers call, ⟨s, now⟩⟩ :: r.1, ⟨s, now⟩)

/-- The calls in order, from the deployment at ledger `now`. -/
def replay (world : W) (admin : Address) (minDelay now : Nat) (calls : List (SignedCall Id)) :
    GovResult (GovernanceLog Id T A W × Moment Id T A W) := do
  let s ← construct g world admin minDelay
  calls.foldlM (replayCall g) ([], ⟨s, now⟩)

variable {g}

theorem replay_run {outside : W → W → Prop} {world : W} {admin : Address} {minDelay now : Nat}
    {calls : List (SignedCall Id)} {log : GovernanceLog Id T A W} {m : Moment Id T A W}
    (h : replay g world admin minDelay now calls = .ok (log, m)) :
    GovernanceRun g outside log m := by
  obtain ⟨s, hs, h⟩ := bind_ok h
  refine ⟨world, admin, minDelay, now, s, hs, ?_⟩
  refine Fallible.foldlM_inv
    (P := fun r => History.Run (GovernanceStep g outside) ⟨s, now⟩ r.1 r.2) ?_ .nil h
  rintro ⟨log, m⟩ ⟨now, signers, call⟩ r' - hrun hstep
  obtain ⟨_, hready, hstep⟩ := bind_ok hstep
  obtain ⟨hwasm, hle⟩ := require_ok_iff.mp hready
  obtain ⟨s', hexec, hstep⟩ := bind_ok hstep
  obtain rfl := pure_ok_iff.mp hstep
  exact hrun.snoc (.call hwasm hle hexec)

/-- The run a replay made, read off what its last transition shows. -/
theorem replay_last (outside : W → W → Prop) {world : W} {admin : Address} {minDelay now : Nat}
    {calls : List (SignedCall Id)} {α : Type} {f : GovernanceTransition Id T A W → α} {a : α}
    (h : (replay g world admin minDelay now calls).toOption.map
      (fun r => r.1.head?.map f) = some (some a)) :
    ∃ x earlier, GovernanceRun g outside (x :: earlier) x.after ∧ f x = a := by
  cases hr : replay g world admin minDelay now calls with
  | error e =>
    rw [hr] at h
    cases h
  | ok r =>
    obtain ⟨log, m⟩ := r
    rw [hr] at h
    cases log with
    | nil => cases h
    | cons x earlier =>
      have hrun : GovernanceRun g outside (x :: earlier) m := replay_run hr
      have hlast : m = x.after := by
        obtain ⟨_, _, _, _, _, _, hrun⟩ := hrun
        exact hrun.cons_inv.2.2
      subst hlast
      exact ⟨x, earlier, hrun, Option.some.inj (Option.some.inj h)⟩

end Replay

namespace Reference

/-! ## The timelock -/

/-- Distinct operations have distinct ids. -/
inductive OperationId where
  | zero
  | digest (target : Address) (function : String) (args : List Val) (predecessor : OperationId)
      (salt : Bytes32)
  deriving DecidableEq

structure TimelockStore where
  minDelay : Nat
  ledgers : OperationId → Nat

def hash (op : Operation OperationId) : OperationId :=
  .digest op.target op.function op.args op.predecessor op.salt

namespace TimelockStore

def setLedger (t : TimelockStore) (id : OperationId) (ledger : Nat) : TimelockStore :=
  { t with ledgers := Function.update t.ledgers id ledger }

def schedule (t : TimelockStore) (now : Nat) (op : Operation OperationId) (delay : Nat) :
    GovResult (TimelockStore × OperationId) := do
  require (t.ledgers (hash op) = 0 ∧ t.minDelay ≤ delay) GovernanceError.libraryTrap
  return (t.setLedger (hash op) (now + delay), hash op)

/-- A ready operation whose predecessor, if any, is done. -/
def setExecute (t : TimelockStore) (now : Nat) (op : Operation OperationId) :
    GovResult TimelockStore := do
  require (2 ≤ t.ledgers (hash op) ∧ t.ledgers (hash op) ≤ now) GovernanceError.libraryTrap
  require (op.predecessor = .zero ∨ t.ledgers op.predecessor = 1) GovernanceError.libraryTrap
  return t.setLedger (hash op) 1

def cancel (t : TimelockStore) (id : OperationId) : GovResult TimelockStore := do
  require (2 ≤ t.ledgers id) GovernanceError.libraryTrap
  return t.setLedger id 0

end TimelockStore

def timelock : TimelockLib OperationId TimelockStore where
  fresh := ⟨0, fun _ => 0⟩
  noPredecessor := .zero
  hashOperation := hash
  getMinDelay := TimelockStore.minDelay
  setMinDelay t delay := { t with minDelay := delay }
  getOperationLedger := TimelockStore.ledgers
  scheduleOperation := TimelockStore.schedule
  setExecuteOperation := TimelockStore.setExecute
  cancelOperation := TimelockStore.cancel
  removeOperationLedger t id := t.setLedger id 0

theorem hash_injective : Function.Injective hash := by
  intro op op' h
  cases op
  cases op'
  simpa [hash] using h

theorem timelock_lawful : timelock.Lawful where
  hash_injective := hash_injective
  fresh_ledger _ := rfl
  setMinDelay _ _ := ⟨rfl, rfl⟩
  schedule {t now op delay t' id} h := by
    obtain ⟨_, hfree, h⟩ := bind_ok h
    obtain ⟨rfl, rfl⟩ := Prod.mk.inj (pure_ok_iff.mp h)
    obtain ⟨hunset, hle⟩ := require_ok_iff.mp hfree
    exact ⟨rfl, hunset, hle, rfl, rfl⟩
  setExecute {t now op t'} h := by
    obtain ⟨_, hready, h⟩ := bind_ok h
    obtain ⟨_, -, h⟩ := bind_ok h
    obtain rfl := pure_ok_iff.mp h
    obtain ⟨hset, hle⟩ := require_ok_iff.mp hready
    exact ⟨hset, hle, rfl, rfl⟩
  cancel {t id t'} h := by
    obtain ⟨_, hpending, h⟩ := bind_ok h
    obtain rfl := pure_ok_iff.mp h
    exact ⟨require_ok_iff.mp hpending, rfl, rfl⟩
  remove _ _ := ⟨rfl, rfl⟩

/-! ## Owner and roles -/

/-- A pending transfer lives until a ledger. -/
structure AccessStore extends AccessView where
  pendingOwner : Option (Address × Nat)
  pendingAdmin : Option (Address × Nat)

namespace AccessStore

def entry (a : AccessStore) : TransferKey → Option (Address × Nat)
  | .pendingOwner => a.pendingOwner
  | .pendingAdmin => a.pendingAdmin

def setEntry (a : AccessStore) (key : TransferKey) (e : Option (Address × Nat)) : AccessStore :=
  match key with
  | .pendingOwner => { a with pendingOwner := e }
  | .pendingAdmin => { a with pendingAdmin := e }

def pending (a : AccessStore) (now : Nat) (key : TransferKey) : Option Address :=
  ((a.entry key).filter fun e => now ≤ e.2).map Prod.fst

/-- Ledger zero drops the pending transfer to the account. -/
def transferRole (a : AccessStore) (now : Nat) (newRole : Address) (key : TransferKey)
    (liveUntilLedger : Nat) : GovResult AccessStore := do
  if liveUntilLedger = 0 then
    require (a.pending now key = some newRole) GovernanceError.libraryTrap
    return a.setEntry key none
  else
    require (now ≤ liveUntilLedger) GovernanceError.libraryTrap
    return a.setEntry key (some (newRole, liveUntilLedger))

def acceptOwnership (a : AccessStore) (now : Nat) (signers : List Address) :
    GovResult AccessStore := do
  let x ← Fallible.orThrow (a.pending now .pendingOwner) GovernanceError.libraryTrap
  require (x ∈ signers) GovernanceError.libraryTrap
  return { a with owner := some x, pendingOwner := none }

def setOwner (a : AccessStore) (x : Address) : GovResult AccessStore := do
  require (a.owner = none) GovernanceError.libraryTrap
  return { a with owner := some x }

def setAdmin (a : AccessStore) (x : Address) : GovResult AccessStore := do
  require (a.admin = none) GovernanceError.libraryTrap
  return { a with admin := some x }

def setMembers (a : AccessStore) (role : String) (members : SwapIndex Address) : AccessStore :=
  { a with roleMembers := Function.update a.roleMembers role members }

def grant (a : AccessStore) (account : Address) (role : String) : GovResult AccessStore :=
  if (a.roleMembers role).contains account = true then
    return a
  else
    return a.setMembers role ((a.roleMembers role).insert account)

def revoke (a : AccessStore) (account : Address) (role : String) : GovResult AccessStore := do
  require ((a.roleMembers role).contains account = true) GovernanceError.libraryTrap
  let members ← Fallible.orThrow ((a.roleMembers role).remove account) GovernanceError.libraryTrap
  return a.setMembers role members

@[simp] theorem setEntry_view (a : AccessStore) (key : TransferKey)
    (e : Option (Address × Nat)) : (a.setEntry key e).toAccessView = a.toAccessView := by
  cases key <;> rfl

end AccessStore

def access : AccessLib AccessStore where
  fresh := ⟨⟨none, none, fun _ => .empty⟩, none, none⟩
  view := AccessStore.toAccessView
  pending := AccessStore.pending
  setOwner := AccessStore.setOwner
  setAdmin := AccessStore.setAdmin
  transferRole := AccessStore.transferRole
  acceptOwnership := AccessStore.acceptOwnership
  writeAdmin a x := { a with admin := some x }
  removePendingAdmin a := a.setEntry .pendingAdmin none
  grantRoleNoAuth := AccessStore.grant
  revokeRoleNoAuth := AccessStore.revoke

theorem access_lawful : access.Lawful where
  fresh _ := rfl
  setOwner {a x a'} h := by
    obtain ⟨_, -, h⟩ := bind_ok h
    obtain rfl := pure_ok_iff.mp h
    rfl
  setAdmin {a x a'} h := by
    obtain ⟨_, -, h⟩ := bind_ok h
    obtain rfl := pure_ok_iff.mp h
    rfl
  transferRole {a now x key live a'} h := by
    change AccessStore.transferRole a now x key live = .ok a' at h
    unfold AccessStore.transferRole at h
    split at h
    · obtain ⟨_, -, h⟩ := bind_ok h
      obtain rfl := pure_ok_iff.mp h
      exact a.setEntry_view key none
    · obtain ⟨_, -, h⟩ := bind_ok h
      obtain rfl := pure_ok_iff.mp h
      exact a.setEntry_view key _
  acceptOwnership {a now signers a'} h := by
    obtain ⟨x, hx, h⟩ := bind_ok h
    obtain ⟨_, hsigned, h⟩ := bind_ok h
    obtain rfl := pure_ok_iff.mp h
    exact ⟨x, require_ok_iff.mp hsigned, Fallible.orThrow_ok_iff.mp hx, rfl⟩
  writeAdmin _ _ := rfl
  removePendingAdmin a := a.setEntry_view .pendingAdmin none
  grant {a account role a'} h := by
    change AccessStore.grant a account role = .ok a' at h
    unfold AccessStore.grant at h
    by_cases hheld : access.hasRole a account role = true
    · rw [if_pos hheld]
      change (a.roleMembers role).contains account = true at hheld
      rw [if_pos hheld] at h
      obtain rfl := pure_ok_iff.mp h
      rfl
    · rw [if_neg hheld]
      change ¬ (a.roleMembers role).contains account = true at hheld
      rw [if_neg hheld] at h
      obtain rfl := pure_ok_iff.mp h
      rfl
  revoke {a account role a'} h := by
    obtain ⟨_, hheld, h⟩ := bind_ok h
    obtain ⟨members, hremove, h⟩ := bind_ok h
    obtain rfl := pure_ok_iff.mp h
    exact ⟨require_ok_iff.mp hheld, members, Fallible.orThrow_ok_iff.mp hremove, rfl⟩

/-! ## The environment -/

/-- The libraries over any outside. -/
def env {W : Type} (host : GovernanceHost W) :
    GovernanceEnv OperationId TimelockStore AccessStore W where
  toGovernanceHost := host
  timelock := timelock
  access := access

theorem env_lawful {W : Type} (host : GovernanceHost W) : (env host).Lawful :=
  ⟨timelock_lawful, access_lawful⟩

/-- An outside that answers every call and keeps no state: address 100 is the governance, 200 the
controller and 300 the price aggregator. -/
def quietHost : GovernanceHost Unit where
  currentContractAddress := 100
  isWasmContract _ _ := true
  tryDecimals _ _ := some 7
  trySymbol _ _ := some "TKN"
  oracle _ _ _ := .ok none
  getSpokeAssetFlagsEpoch _ _ _ _ := .ok 0
  invokeContract _ _ _ _ := .ok ((), .void)
  deployContract _ salt _ := .ok ((), if salt = controllerDeploySalt then 200 else 300)

end Reference

end Lending.Gov
