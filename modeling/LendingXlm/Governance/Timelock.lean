import LendingXlm.Governance.Gates
import LendingXlm.Governance.Reference

/-!
# The timelock law

- **Effects** (`ScheduleEffect`): what a transition does to the schedule: it schedules, cancels or
  executes one operation, or leaves the schedule alone. `GovernanceCall.exec_schedule` says what
  the operation's ledger was and becomes.
- **The invariant** (`Scheduled`): an operation with a ledger was scheduled by a recorded proposal
  for that very ledger, nothing has touched it since, and its marks are in place.
- **The law** (`timelock_law`): every executed operation goes back to one authorised proposal that
  waited out its tier.
-/

namespace Lending.Gov

open Fallible (bind_ok pure_ok_iff)
open History (Since since_iff)

variable {Id T A W : Type} (g : GovernanceEnv Id T A W)

/-! ## Effects -/

/-- What happens to the schedule. -/
inductive ScheduleEffect (Id : Type) where
  | none
  | schedule (operation : Operation Id) (tier : DelayTier)
  | cancel (id : Id)
  | execute (operation : Operation Id)
  deriving DecidableEq

/-- The effect is on the operation with this id. -/
def ScheduleEffect.On (id : Id) : ScheduleEffect Id → Prop
  | none => False
  | schedule operation _ => g.timelock.hashOperation operation = id
  | cancel id' => id' = id
  | execute operation => g.timelock.hashOperation operation = id

/-- The effect of a call that returns. -/
def GovernanceCall.effect (s : GovernanceState Id T A W) : GovernanceCall Id → ScheduleEffect Id
  | propose _ op salt =>
    match operationForAdminOp g s op salt with
    | .ok (operation, tier) => .schedule operation tier
    | .error _ => .none
  | proposeCancellerReset newCancellers salt =>
    .schedule (cancellerResetOperation g newCancellers salt) .recovery
  | cancel _ operationId => .cancel operationId
  | execute _ operation => .execute operation
  | executeSelf _ op salt =>
    match operationForAdminOp g s op salt with
    | .ok (operation, _) => .execute operation
    | .error _ => .none
  | executeCancellerReset _ newCancellers salt =>
    .execute (cancellerResetOperation g newCancellers salt)
  | _ => .none

def effectOf (x : GovernanceTransition Id T A W) : ScheduleEffect Id :=
  match x.event with
  | .call _ call => call.effect g x.before.toGovernanceState
  | .outside => .none

/-- A proposal with its authority: a proposer, the owner for an owner-only operation, or the owner
for a reset of the cancellers. -/
inductive Proposal (p : GovernanceTransition Id T A W) (operation : Operation Id)
    (tier : DelayTier) : Prop
  | propose {signers : List Address} {proposer : Address} {op : AdminOperation} {salt : Bytes32}
      (hevent : p.event = .call signers (.propose proposer op salt))
      (hop : operationForAdminOp g p.before.toGovernanceState op salt = .ok (operation, tier))
      (hsigned : proposer ∈ signers)
      (hrole : g.access.hasRole p.before.access proposer proposerRole = true)
      (howner : ownerOnly op = true → g.access.getOwner p.before.access = some proposer)
  | reset {signers : List Address} {owner : Address} {newCancellers : List Address}
      {salt : Bytes32}
      (hevent : p.event = .call signers (.proposeCancellerReset newCancellers salt))
      (hop : operation = cancellerResetOperation g newCancellers salt) (htier : tier = .recovery)
      (hsigned : owner ∈ signers) (howner : g.access.getOwner p.before.access = some owner)

/-- The operation a `RevokeGovRole` proposal schedules. -/
def revocationOperation (args : RoleArgs) (salt : Bytes32) : Operation Id where
  target := g.currentContractAddress
  function := "revoke_role"
  args := [.address args.account, .symbol args.role]
  predecessor := g.timelock.noPredecessor
  salt

/-- A reset is marked as a recovery, a revocation with its target. -/
structure Marked (s : GovernanceState Id T A W) (operation : Operation Id) : Prop where
  recovery : ∀ newCancellers salt, operation = cancellerResetOperation g newCancellers salt →
    s.recoveryOp (g.timelock.hashOperation operation) = true
  revocation : ∀ args salt, operation = revocationOperation g args salt →
    s.roleRevocationTarget (g.timelock.hashOperation operation) = some args.account

/-- The ledger an operation gets ready at. -/
def readyLedger (s : GovernanceState Id T A W) : Id → Nat :=
  g.timelock.getOperationLedger s.timelock

variable {g}

/-! ## What a call does to the schedule -/

section Calls

variable {s s' : GovernanceState Id T A W} {now : Nat} {signers : List Address}

theorem revocationOperation_eq {args : RoleArgs} {salt : Bytes32} {operation : Operation Id}
    {tier : DelayTier}
    (h : operationForAdminOp g s (.revokeGovRole args) salt = .ok (operation, tier)) :
    operation = revocationOperation g args salt := by
  obtain ⟨r, hr, -, rfl⟩ := operationForAdminOp_ok h
  obtain ⟨htarget, hargs⟩ := resolveOp_revokeGovRole hr
  have hfunction := (resolveOp_call hr).1
  rw [htarget, hargs, hfunction]
  rfl

/-- An operation on the governance itself touches neither schedule nor marks. -/
theorem applySelfOp_frame [DecidableEq Id] (hg : g.timelock.Lawful) {op : AdminOperation}
    (h : applySelfOp g s now op = .ok s') :
    readyLedger g s' = readyLedger g s ∧ s'.recoveryOp = s.recoveryOp ∧
      s'.roleRevocationTarget = s.roleRevocationTarget ∧ s'.controller = s.controller := by
  unfold applySelfOp at h
  split at h
  · obtain rfl := pure_ok_iff.mp h
    exact ⟨rfl, rfl, rfl, rfl⟩
  · obtain ⟨t, ht, h⟩ := bind_ok h
    obtain rfl := pure_ok_iff.mp h
    obtain ⟨_, -, ht⟩ := bind_ok ht
    obtain rfl := pure_ok_iff.mp ht
    exact ⟨(hg.setMinDelay _ _).2, rfl, rfl, rfl⟩
  · obtain ⟨a, -, h⟩ := bind_ok h
    obtain rfl := pure_ok_iff.mp h
    exact ⟨rfl, rfl, rfl, rfl⟩
  · obtain ⟨a, -, h⟩ := bind_ok h
    obtain rfl := pure_ok_iff.mp h
    exact ⟨rfl, rfl, rfl, rfl⟩
  · obtain ⟨a, -, h⟩ := bind_ok h
    obtain rfl := pure_ok_iff.mp h
    exact ⟨rfl, rfl, rfl, rfl⟩
  · obtain ⟨_, -, h⟩ := bind_ok h
    obtain ⟨_, -, h⟩ := bind_ok h
    obtain ⟨w, v, -, rfl⟩ := invoke_ok h
    exact ⟨rfl, rfl, rfl, rfl⟩
  · cases h

variable [DecidableEq Id]

theorem markProposal_timelock {id : Id} {op : AdminOperation} :
    (markProposal s id op).timelock = s.timelock := by
  unfold markProposal
  split <;> rfl

/-- What an execution finds and leaves of the operation's ledger: it is ready and not expired, and
done for good. -/
theorem Executable.ledger (hg : g.timelock.Lawful) {operation : Operation Id} {t : T}
    (h : Executable g s now operation t) {s₁ : GovernanceState Id T A W}
    (hs₁ : readyLedger g s₁ = g.timelock.getOperationLedger t) :
    2 ≤ readyLedger g s (g.timelock.hashOperation operation) ∧
    readyLedger g s (g.timelock.hashOperation operation) ≤ now ∧
    now ≤ readyLedger g s (g.timelock.hashOperation operation) + timelockOperationGraceLedgers ∧
    readyLedger g (finishExecute g s₁ (g.timelock.hashOperation operation)) =
      Function.update (readyLedger g s) (g.timelock.hashOperation operation) 0 := by
  obtain ⟨hset, hready, -, ht⟩ := hg.setExecute h.executed
  refine ⟨hset, hready, requireOperationNotExpired_ok h.notExpired hset, ?_⟩
  have hremove := (hg.remove s₁.timelock (g.timelock.hashOperation operation)).2
  change g.timelock.getOperationLedger s₁.timelock = _ at hs₁
  rw [hs₁, ht, Function.update_idem] at hremove
  exact hremove

/-- **What a call does to the schedule.** -/
theorem GovernanceCall.exec_schedule (hg : g.timelock.Lawful) {call : GovernanceCall Id}
    (h : call.exec g now signers s = .ok s') :
    match call.effect g s with
    | .none => readyLedger g s' = readyLedger g s
    | .schedule operation tier =>
      readyLedger g s (g.timelock.hashOperation operation) = 0 ∧
      readyLedger g s' = Function.update (readyLedger g s) (g.timelock.hashOperation operation)
        (now + operationDelay g s.timelock tier)
    | .cancel id =>
      2 ≤ readyLedger g s id ∧ readyLedger g s' = Function.update (readyLedger g s) id 0
    | .execute operation =>
      2 ≤ readyLedger g s (g.timelock.hashOperation operation) ∧
      readyLedger g s (g.timelock.hashOperation operation) ≤ now ∧
      now ≤ readyLedger g s (g.timelock.hashOperation operation) +
        timelockOperationGraceLedgers ∧
      readyLedger g s' =
        Function.update (readyLedger g s) (g.timelock.hashOperation operation) 0 := by
  cases call with
  | deployController wasmHash =>
    obtain ⟨-, w, controller, -, rfl⟩ := deployController_ok h
    rfl
  | deployPriceAggregator wasmHash =>
    obtain ⟨w, w', aggregator, -, -, rfl⟩ := deployPriceAggregator_ok h
    rfl
  | execute executor operation =>
    obtain ⟨⟨t, v⟩, hexec, h⟩ := bind_ok h
    obtain rfl := pure_ok_iff.mp h
    obtain ⟨-, t, w, hready, -, rfl⟩ := execute_ok hexec
    exact hready.ledger hg rfl
  | cancel canceller operationId =>
    obtain ⟨-, -, -, t, hcancel, rfl⟩ := cancel_ok h
    obtain ⟨hset, -, ht⟩ := hg.cancel hcancel
    exact ⟨hset, ht⟩
  | propose proposer op salt =>
    obtain ⟨⟨t, id⟩, hpropose, h⟩ := bind_ok h
    obtain rfl := pure_ok_iff.mp h
    obtain ⟨-, -, operation, tier, t, hop, hschedule, rfl⟩ := propose_ok hpropose
    obtain ⟨rfl, hunset, -, -, ht⟩ := hg.schedule hschedule
    simp only [effect, hop]
    refine ⟨hunset, ?_⟩
    unfold readyLedger
    rw [markProposal_timelock]
    exact ht
  | setSanityBand caller key minWad maxWad =>
    obtain ⟨aggregator, w, v, -, -, rfl⟩ := setSanityBand_ok h
    rfl
  | revokeRoleImmediate account role =>
    obtain ⟨-, a, ha, rfl⟩ := revokeRoleImmediate_ok h
    rfl
  | executeSelf executor op salt =>
    obtain ⟨operation, tier, t, s₁, hop, -, hready, hself, rfl⟩ := executeSelf_ok h
    simp only [effect, hop]
    exact hready.ledger hg (applySelfOp_frame hg hself).1
  | proposeCancellerReset newCancellers salt =>
    obtain ⟨⟨t, id⟩, hpropose, h⟩ := bind_ok h
    obtain rfl := pure_ok_iff.mp h
    obtain ⟨-, t, hschedule, rfl⟩ := proposeCancellerReset_ok hpropose
    obtain ⟨rfl, hunset, -, -, ht⟩ := hg.schedule hschedule
    exact ⟨hunset, ht⟩
  | executeCancellerReset executor newCancellers salt =>
    obtain ⟨t, a, hready, -, rfl⟩ := executeCancellerReset_ok h
    exact hready.ledger hg rfl
  | acceptOwnership =>
    obtain ⟨a, -, h⟩ := bind_ok h
    obtain rfl := pure_ok_iff.mp h
    rfl
  | pause | setSpokeAssetFlags | createHub | addSpoke | deactivatePositionManager
  | revokeBlendPool =>
    obtain ⟨-, controller, w, v, -, -, rfl⟩ := controllerCall_ok h
    rfl

/-! ## What a call does to the marks -/

theorem markProposal_marks {id i : Id} {op : AdminOperation} (hi : id ≠ i) :
    (markProposal s id op).recoveryOp i = s.recoveryOp i ∧
      (markProposal s id op).roleRevocationTarget i = s.roleRevocationTarget i := by
  unfold markProposal
  split
  · exact ⟨rfl, Function.update_of_ne hi.symm _ _⟩
  · exact ⟨rfl, rfl⟩

theorem clearOperationSidecars_marks {id i : Id} (hi : id ≠ i) :
    (s.clearOperationSidecars id).recoveryOp i = s.recoveryOp i ∧
      (s.clearOperationSidecars id).roleRevocationTarget i = s.roleRevocationTarget i :=
  ⟨Function.update_of_ne hi.symm _ _, Function.update_of_ne hi.symm _ _⟩

/-- Marks of other operations stay. -/
theorem GovernanceCall.exec_marks (hg : g.timelock.Lawful) {call : GovernanceCall Id}
    (h : call.exec g now signers s = .ok s') {i : Id} (hi : ¬ (call.effect g s).On g i) :
    s'.recoveryOp i = s.recoveryOp i ∧ s'.roleRevocationTarget i = s.roleRevocationTarget i := by
  cases call with
  | deployController wasmHash =>
    obtain ⟨-, w, controller, -, rfl⟩ := deployController_ok h
    exact ⟨rfl, rfl⟩
  | deployPriceAggregator wasmHash =>
    obtain ⟨w, w', aggregator, -, -, rfl⟩ := deployPriceAggregator_ok h
    exact ⟨rfl, rfl⟩
  | execute executor operation =>
    obtain ⟨⟨t, v⟩, hexec, h⟩ := bind_ok h
    obtain rfl := pure_ok_iff.mp h
    obtain ⟨-, t, w, -, -, rfl⟩ := execute_ok hexec
    exact clearOperationSidecars_marks hi
  | cancel canceller operationId =>
    obtain ⟨-, -, -, t, -, rfl⟩ := cancel_ok h
    exact clearOperationSidecars_marks hi
  | propose proposer op salt =>
    obtain ⟨⟨t, id⟩, hpropose, h⟩ := bind_ok h
    obtain rfl := pure_ok_iff.mp h
    obtain ⟨-, -, operation, tier, t, hop, hschedule, rfl⟩ := propose_ok hpropose
    obtain ⟨rfl, -⟩ := hg.schedule hschedule
    simp only [effect, hop] at hi
    exact markProposal_marks hi
  | setSanityBand caller key minWad maxWad =>
    obtain ⟨aggregator, w, v, -, -, rfl⟩ := setSanityBand_ok h
    exact ⟨rfl, rfl⟩
  | revokeRoleImmediate account role =>
    obtain ⟨-, a, ha, rfl⟩ := revokeRoleImmediate_ok h
    exact ⟨rfl, rfl⟩
  | executeSelf executor op salt =>
    obtain ⟨operation, tier, t, s₁, hop, -, -, hself, rfl⟩ := executeSelf_ok h
    obtain ⟨-, hrecovery, htarget, -⟩ := applySelfOp_frame hg hself
    simp only [effect, hop] at hi
    obtain ⟨hr, ht⟩ := clearOperationSidecars_marks (s := s₁) hi
    exact ⟨hr.trans (congrFun hrecovery i), ht.trans (congrFun htarget i)⟩
  | proposeCancellerReset newCancellers salt =>
    obtain ⟨⟨t, id⟩, hpropose, h⟩ := bind_ok h
    obtain rfl := pure_ok_iff.mp h
    obtain ⟨-, t, hschedule, rfl⟩ := proposeCancellerReset_ok hpropose
    obtain ⟨rfl, -⟩ := hg.schedule hschedule
    exact ⟨Function.update_of_ne (Ne.symm hi) _ _, rfl⟩
  | executeCancellerReset executor newCancellers salt =>
    obtain ⟨t, a, -, -, rfl⟩ := executeCancellerReset_ok h
    exact clearOperationSidecars_marks hi
  | acceptOwnership =>
    obtain ⟨a, -, h⟩ := bind_ok h
    obtain rfl := pure_ok_iff.mp h
    exact ⟨rfl, rfl⟩
  | pause | setSpokeAssetFlags | createHub | addSpoke | deactivatePositionManager
  | revokeBlendPool =>
    obtain ⟨-, controller, w, v, -, -, rfl⟩ := controllerCall_ok h
    exact ⟨rfl, rfl⟩

/-- A call that schedules is a proposal with its authority, and leaves the operation marked. -/
theorem GovernanceCall.exec_proposal (hg : g.timelock.Lawful) {call : GovernanceCall Id}
    {m m' : Moment Id T A W} {operation : Operation Id} {tier : DelayTier}
    (h : call.exec g now signers m.toGovernanceState = .ok m'.toGovernanceState)
    (heffect : call.effect g m.toGovernanceState = .schedule operation tier) :
    Proposal g ⟨m, .call signers call, m'⟩ operation tier ∧
      Marked g m'.toGovernanceState operation := by
  cases call with
  | propose proposer op salt =>
    obtain ⟨⟨t, id⟩, hpropose, h⟩ := bind_ok h
    have hs := pure_ok_iff.mp h
    obtain ⟨⟨hsigned, hrole⟩, hproposer, operation', tier', t, hop, hschedule, rfl⟩ :=
      propose_ok hpropose
    obtain ⟨rfl, -⟩ := hg.schedule hschedule
    simp only [effect, hop, ScheduleEffect.schedule.injEq] at heffect
    obtain ⟨rfl, rfl⟩ := heffect
    refine ⟨.propose rfl hop hsigned hrole (requireProposer_ok hproposer).1, ?_⟩
    obtain ⟨r, hr, -, heq⟩ := operationForAdminOp_ok hop
    have hfunction : operation'.function = op.function := by
      rw [heq]
      exact (resolveOp_call hr).1
    refine ⟨fun newCancellers salt' hreset => ?_, fun args salt' hrevoke => ?_⟩
    · -- A proposed operation is no reset.
      rw [hreset] at hfunction
      exact absurd hfunction.symm op.function_ne_reset
    · obtain ⟨args', rfl⟩ := AdminOperation.eq_revokeGovRole
        (hfunction.symm.trans (congrArg Operation.function hrevoke))
      have hargs := congrArg Operation.args
        ((revocationOperation_eq hop).symm.trans hrevoke)
      simp only [revocationOperation, List.cons.injEq, Val.address.injEq] at hargs
      rw [← hs, ← hargs.1]
      exact Function.update_self ..
  | proposeCancellerReset newCancellers salt =>
    obtain ⟨⟨t, id⟩, hpropose, h⟩ := bind_ok h
    have hs := pure_ok_iff.mp h
    obtain ⟨⟨owner, howner, hsigned⟩, t, hschedule, rfl⟩ := proposeCancellerReset_ok hpropose
    obtain ⟨rfl, -⟩ := hg.schedule hschedule
    obtain ⟨rfl, rfl⟩ := ScheduleEffect.schedule.inj heffect
    refine ⟨.reset rfl rfl rfl hsigned howner, fun _ _ _ => ?_, fun args salt' hrevoke => ?_⟩
    · rw [← hs]
      exact Function.update_self ..
    · have hfunction := congrArg Operation.function hrevoke
      simp [cancellerResetOperation, revocationOperation] at hfunction
  | executeSelf executor op salt =>
    simp only [effect] at heffect
    split at heffect <;> cases heffect
  | _ => cases heffect

end Calls

/-! ## The invariant -/

section Invariant

variable [DecidableEq Id]

/-- The transition schedules the operation with this id, to be ready at `ready`. -/
def SchedulesFor (g : GovernanceEnv Id T A W) (id : Id) (ready : Nat)
    (p : GovernanceTransition Id T A W) : Prop :=
  ∃ operation tier, effectOf g p = .schedule operation tier ∧
    g.timelock.hashOperation operation = id ∧
    ready = p.after.ledger + operationDelay g p.before.timelock tier

/-- Every ledger goes back to a proposal that nothing has touched since, with its marks. -/
structure Scheduled (g : GovernanceEnv Id T A W) (log : GovernanceLog Id T A W)
    (m : Moment Id T A W) : Prop where
  since : ∀ id, readyLedger g m.toGovernanceState id ≠ 0 →
    Since (fun y => ¬ (effectOf g y).On g id)
      (SchedulesFor g id (readyLedger g m.toGovernanceState id)) log
  marked : ∀ operation,
    readyLedger g m.toGovernanceState (g.timelock.hashOperation operation) ≠ 0 →
    Marked g m.toGovernanceState operation

variable {outside : W → W → Prop} {log : GovernanceLog Id T A W} {m m' : Moment Id T A W}
  {e : GovernanceEvent Id}

/-- A step that leaves the operation alone. -/
theorem step_frame (hg : g.timelock.Lawful) (hstep : GovernanceStep g outside m e m') {id : Id}
    (hid : ¬ (effectOf g ⟨m, e, m'⟩).On g id) :
    readyLedger g m'.toGovernanceState id = readyLedger g m.toGovernanceState id ∧
      m'.recoveryOp id = m.recoveryOp id ∧
      m'.roleRevocationTarget id = m.roleRevocationTarget id := by
  cases hstep with
  | outside _ _ => exact ⟨rfl, rfl, rfl⟩
  | @call s now signers call _ _ hexec =>
    change ¬ (call.effect g m.toGovernanceState).On g id at hid
    refine ⟨?_, GovernanceCall.exec_marks hg hexec hid⟩
    have hschedule := GovernanceCall.exec_schedule hg hexec
    cases heffect : call.effect g m.toGovernanceState with
    | none =>
      simp only [heffect] at hschedule
      exact congrFun hschedule id
    | schedule operation tier =>
      simp only [heffect] at hschedule hid
      rw [hschedule.2]
      exact Function.update_of_ne (Ne.symm hid) _ _
    | cancel id' =>
      simp only [heffect] at hschedule hid
      rw [hschedule.2]
      exact Function.update_of_ne (Ne.symm hid) _ _
    | execute operation =>
      simp only [heffect] at hschedule hid
      rw [hschedule.2.2.2]
      exact Function.update_of_ne (Ne.symm hid) _ _

/-- A step on an operation unsets it, or schedules it. -/
theorem step_on (hg : g.timelock.Lawful) (hstep : GovernanceStep g outside m e m') {id : Id}
    (hid : (effectOf g ⟨m, e, m'⟩).On g id) :
    readyLedger g m'.toGovernanceState id = 0 ∨
      SchedulesFor g id (readyLedger g m'.toGovernanceState id) ⟨m, e, m'⟩ ∧
      ∀ operation, g.timelock.hashOperation operation = id →
        Marked g m'.toGovernanceState operation := by
  cases hstep with
  | outside _ _ => exact hid.elim
  | @call s now signers call _ _ hexec =>
    change (call.effect g m.toGovernanceState).On g id at hid
    have hschedule := GovernanceCall.exec_schedule hg hexec
    cases heffect : call.effect g m.toGovernanceState with
    | none =>
      rw [heffect] at hid
      exact hid.elim
    | schedule operation tier =>
      rw [heffect] at hid
      simp only [heffect] at hschedule
      obtain rfl : g.timelock.hashOperation operation = id := hid
      have hafter : call.exec g now signers m.toGovernanceState =
          .ok (Moment.mk s now).toGovernanceState := hexec
      obtain ⟨hproposal, hmarked⟩ := GovernanceCall.exec_proposal hg hafter heffect
      refine .inr ⟨⟨operation, tier, heffect, rfl, ?_⟩, fun operation' heq => ?_⟩
      · rw [hschedule.2]
        exact Function.update_self ..
      · rw [hg.hash_injective heq]
        exact hmarked
    | cancel id' =>
      rw [heffect] at hid
      simp only [heffect] at hschedule
      obtain rfl : id' = id := hid
      rw [hschedule.2]
      exact .inl (Function.update_self ..)
    | execute operation =>
      rw [heffect] at hid
      simp only [heffect] at hschedule
      obtain rfl : g.timelock.hashOperation operation = id := hid
      rw [hschedule.2.2.2]
      exact .inl (Function.update_self ..)

theorem Scheduled.step (hg : g.timelock.Lawful) (hlog : Scheduled g log m)
    (hstep : GovernanceStep g outside m e m') : Scheduled g (⟨m, e, m'⟩ :: log) m' := by
  refine ⟨fun id hset => ?_, fun operation hset => ?_⟩
  · by_cases hid : (effectOf g ⟨m, e, m'⟩).On g id
    · rcases step_on hg hstep hid with hunset | ⟨hfor, -⟩
      · exact absurd hunset hset
      · exact .head hfor
    · obtain ⟨hready, -⟩ := step_frame hg hstep hid
      rw [hready] at hset ⊢
      exact .tail hid (hlog.since id hset)
  · by_cases hid : (effectOf g ⟨m, e, m'⟩).On g (g.timelock.hashOperation operation)
    · rcases step_on hg hstep hid with hunset | ⟨-, hmarked⟩
      · exact absurd hunset hset
      · exact hmarked operation rfl
    · obtain ⟨hready, hrecovery, htarget⟩ := step_frame hg hstep hid
      rw [hready] at hset
      obtain ⟨hr, ht⟩ := hlog.marked operation hset
      refine ⟨fun l salt heq => ?_, fun args salt heq => ?_⟩
      · rw [hrecovery]
        exact hr l salt heq
      · rw [htarget]
        exact ht args salt heq

theorem GovernanceRun.scheduled (hg : g.timelock.Lawful) (hrun : GovernanceRun g outside log m) :
    Scheduled g log m := by
  obtain ⟨world, admin, minDelay, now, s, hs, hrun⟩ := hrun
  refine hrun.invariant (I := Scheduled g) ?_ fun log m e m' _ hlog hstep => hlog.step hg hstep
  -- The constructor sets a delay on an empty schedule.
  obtain ⟨a, -, hs⟩ := bind_ok hs
  obtain ⟨b, -, hs⟩ := bind_ok hs
  obtain ⟨c, -, hs⟩ := bind_ok hs
  obtain ⟨_, -, hs⟩ := bind_ok hs
  obtain rfl := pure_ok_iff.mp hs
  have hunset : ∀ id, readyLedger g
      { timelock := g.timelock.setMinDelay g.timelock.fresh minDelay
        access := c
        controller := none
        priceAggregator := none
        roleRevocationTarget := fun _ => none
        recoveryOp := fun _ => false
        wasm := none
        world } id = 0 := by
    intro id
    unfold readyLedger
    rw [(hg.setMinDelay _ _).2]
    exact hg.fresh_ledger id
  exact ⟨fun id hset => absurd (hunset id) hset, fun operation hset => absurd (hunset _) hset⟩

end Invariant

/-! ## The law -/

section Law

variable [DecidableEq Id] {outside : W → W → Prop} {log later earlier : GovernanceLog Id T A W}
  {m : Moment Id T A W} {x : GovernanceTransition Id T A W} {operation : Operation Id}

/-- Whatever admin operation the executed call could stand for, its tier was waited out and, if it
is owner-only, the owner proposed. -/
def GatedAs (g : GovernanceEnv Id T A W) (p : GovernanceTransition Id T A W)
    (operation : Operation Id) (tier : DelayTier) : Prop :=
  ∀ s op r, resolveOp g s op = .ok r → r.target = operation.target →
    r.function = operation.function → r.args = operation.args →
    r.delayTier = tier ∧ (ownerOnly op = true → ∃ signers owner op' salt,
      p.event = .call signers (.propose owner op' salt) ∧ owner ∈ signers ∧
      g.access.getOwner p.before.access = some owner)

/-- An execution of `operation` at `x` goes back to the proposal `p`, the latest thing to happen to
the operation in `earlier`. -/
structure Backed (g : GovernanceEnv Id T A W) (earlier : GovernanceLog Id T A W)
    (x : GovernanceTransition Id T A W) (operation : Operation Id)
    (p : GovernanceTransition Id T A W) (tier : DelayTier) : Prop where
  proposal : Proposal g p operation tier
  delay : p.after.ledger + operationDelay g p.before.timelock tier ≤ x.after.ledger
  grace : x.after.ledger ≤ p.after.ledger + operationDelay g p.before.timelock tier +
    timelockOperationGraceLedgers
  untouched : ∃ between past, earlier = between ++ p :: past ∧
    ∀ y ∈ between, ¬ (effectOf g y).On g (g.timelock.hashOperation operation)
  gated : GatedAs g p operation tier

omit [DecidableEq Id] in
theorem Proposal.gated {p : GovernanceTransition Id T A W} {tier : DelayTier}
    (hp : Proposal g p operation tier) : GatedAs g p operation tier := by
  intro s op r hr htarget hfunction hargs
  cases hp with
  | @propose signers proposer op' salt hevent hop hsigned hrole howner =>
    obtain ⟨r', hr', rfl, rfl⟩ := operationForAdminOp_ok hop
    obtain ⟨htier, hown⟩ := resolveOp_same_gate hr hr' hfunction hargs
    exact ⟨htier, fun h => ⟨signers, proposer, op', salt, hevent, hsigned, howner (hown ▸ h)⟩⟩
  | reset hevent hop =>
    rw [(resolveOp_call hr).1, hop] at hfunction
    exact absurd hfunction op.function_ne_reset

theorem GovernanceRun.proposal (hg : g.timelock.Lawful)
    (hrun : GovernanceRun g outside (later ++ x :: earlier) m) {tier : DelayTier}
    (hx : effectOf g x = .schedule operation tier) : Proposal g x operation tier := by
  obtain ⟨-, hstep⟩ := hrun.at_transition
  obtain ⟨before, event, after⟩ := x
  cases event with
  | call signers call => exact (GovernanceCall.exec_proposal hg hstep.exec hx).1
  | outside => cases hx

theorem GovernanceRun.backed (hg : g.timelock.Lawful)
    (hrun : GovernanceRun g outside (later ++ x :: earlier) m)
    (hx : effectOf g x = .execute operation) : ∃ p tier, Backed g earlier x operation p tier := by
  obtain ⟨hearlier, hstep⟩ := hrun.at_transition
  obtain ⟨before, event, after⟩ := x
  cases event with
  | outside => cases hx
  | call signers call =>
    have hschedule := GovernanceCall.exec_schedule hg hstep.exec
    change call.effect g before.toGovernanceState = .execute operation at hx
    simp only [hx] at hschedule
    obtain ⟨hset, hready, hgrace, -⟩ := hschedule
    have hset' : readyLedger g before.toGovernanceState (g.timelock.hashOperation operation) ≠ 0 := by
      omega
    -- The ledger the execution found was set by a proposal, and nothing has touched it since.
    obtain ⟨between, p, past, rfl, ⟨operation', tier, hp, hid, hfor⟩, hbetween⟩ :=
      since_iff.mp ((hearlier.scheduled hg).since _ hset')
    obtain rfl := hg.hash_injective hid
    have hproposal := GovernanceRun.proposal hg hearlier hp
    refine ⟨p, tier, hproposal, ?_, ?_, ⟨between, past, rfl, hbetween⟩, hproposal.gated⟩
    · rw [← hfor]
      exact hready
    · rw [← hfor]
      exact hgrace

/-- Between two executions of an operation it was proposed again. -/
theorem GovernanceRun.proposed_between (hg : g.timelock.Lawful)
    {x₁ x₂ : GovernanceTransition Id T A W} {between : GovernanceLog Id T A W}
    (hrun : GovernanceRun g outside (later ++ x₂ :: (between ++ x₁ :: earlier)) m)
    (h₁ : effectOf g x₁ = .execute operation) (h₂ : effectOf g x₂ = .execute operation) :
    ∃ p ∈ between, ∃ tier, Backed g (between ++ x₁ :: earlier) x₂ operation p tier := by
  obtain ⟨p, tier, hp⟩ := hrun.backed hg h₂
  obtain ⟨untouched, past, hsplit, huntouched⟩ := hp.untouched
  refine ⟨p, ?_, tier, hp⟩
  have hon : (effectOf g x₁).On g (g.timelock.hashOperation operation) := by
    rw [h₁]
    exact rfl
  have hne : p ≠ x₁ := by
    rintro rfl
    -- An execution is no proposal.
    rcases hp.proposal with ⟨hevent, -⟩ | ⟨hevent, -⟩
    · unfold effectOf at h₁
      rw [hevent] at h₁
      simp only [GovernanceCall.effect] at h₁
      split at h₁ <;> cases h₁
    · unfold effectOf at h₁
      rw [hevent] at h₁
      cases h₁
  rcases List.append_eq_append_iff.mp hsplit with ⟨c, rfl, hc⟩ | ⟨c, rfl, hc⟩
  · cases c with
    | nil => exact absurd (List.cons.inj hc).1.symm hne
    | cons y c =>
      obtain rfl := (List.cons.inj hc).1
      exact absurd hon (huntouched x₁ (by simp))
  · cases c with
    | nil => exact absurd (List.cons.inj hc).1 hne
    | cons y c =>
      obtain rfl := (List.cons.inj hc).1
      simp

/-- What a cancellation found: the operation pending, no recovery, and no revocation of the
canceller. -/
theorem GovernanceRun.cancelled (hg : g.timelock.Lawful)
    (hrun : GovernanceRun g outside (later ++ x :: earlier) m) {signers : List Address}
    {canceller : Address} {id : Id} (hx : x.event = .call signers (.cancel canceller id)) :
    (∀ newCancellers salt,
      id ≠ g.timelock.hashOperation (cancellerResetOperation g newCancellers salt)) ∧
    ∀ args salt, id = g.timelock.hashOperation (revocationOperation g args salt) →
      canceller ≠ args.account := by
  obtain ⟨hearlier, hstep⟩ := hrun.at_transition
  obtain ⟨before, event, after⟩ := x
  obtain rfl : event = .call signers (.cancel canceller id) := hx
  have hmarked := (hearlier.scheduled hg).marked
  have hset := (GovernanceCall.exec_schedule hg hstep.exec).1
  obtain ⟨-, hrecovery, htarget, -⟩ := cancel_ok hstep.exec
  refine ⟨?_, ?_⟩
  · rintro newCancellers salt rfl
    have hmark := (hmarked _ (by omega)).recovery newCancellers salt rfl
    rw [hmark] at hrecovery
    cases hrecovery
  · rintro args salt rfl rfl
    exact htarget ((hmarked _ (by omega)).revocation args salt rfl)

/-- **The timelock law.** In every run:

* an executed operation goes back to a proposal of that operation by an address that then held
  PROPOSER (by the owner of that moment, for owner-only operations and resets), made at least the
  tier's delay before and at most that and the grace period, with nothing done to the operation in
  between; the proposal was gated as strictly as whatever the executed call could stand for;
* between two executions of an operation lies a proposal that only the second goes back to;
* a reset of the cancellers is never cancelled, and a revocation never by the account it names;
* admin operations with the same call are gated alike. -/
theorem timelock_law (hg : g.timelock.Lawful) (hrun : GovernanceRun g outside log m) :
    (∀ later x earlier operation, log = later ++ x :: earlier →
      effectOf g x = .execute operation → ∃ p tier, Backed g earlier x operation p tier) ∧
    (∀ later x₂ between x₁ earlier operation,
      log = later ++ x₂ :: (between ++ x₁ :: earlier) →
      effectOf g x₁ = .execute operation → effectOf g x₂ = .execute operation →
      ∃ p ∈ between, ∃ tier, Backed g (between ++ x₁ :: earlier) x₂ operation p tier) ∧
    (∀ x ∈ log, ∀ signers canceller id, x.event = .call signers (.cancel canceller id) →
      (∀ newCancellers salt,
        id ≠ g.timelock.hashOperation (cancellerResetOperation g newCancellers salt)) ∧
      ∀ s args salt operation tier,
        operationForAdminOp g s (.revokeGovRole args) salt = .ok (operation, tier) →
        id = g.timelock.hashOperation operation → canceller ≠ args.account) ∧
    ∀ s s' op op' r r', resolveOp g s op = .ok r → resolveOp g s' op' = .ok r' →
      r.target = r'.target → r.function = r'.function → r.args = r'.args →
      r.delayTier = r'.delayTier ∧ ownerOnly op = ownerOnly op' := by
  refine ⟨?_, ?_, ?_, ?_⟩
  · rintro later x earlier operation rfl hx
    exact hrun.backed hg hx
  · rintro later x₂ between x₁ earlier operation rfl h₁ h₂
    exact hrun.proposed_between hg h₁ h₂
  · intro x hx signers canceller id hevent
    obtain ⟨later, earlier, rfl⟩ := List.append_of_mem hx
    obtain ⟨hreset, hrevoke⟩ := hrun.cancelled hg hevent
    refine ⟨hreset, fun s args salt operation tier hop hid => hrevoke args salt ?_⟩
    rw [hid, revocationOperation_eq hop]
  · intro s s' op op' r r' hr hr' _ hfunction hargs
    exact resolveOp_same_gate hr hr' hfunction hargs

end Law

namespace Sample

/-- The owner makes 5 an executor: proposed at 100, executed at 120 by nobody in particular. -/
def grantCalls : List (SignedCall Reference.OperationId) :=
  [(100, [1], .propose 1 (.grantGovRole ⟨5, executorRole⟩) 0),
    (120, [], .executeSelf none (.grantGovRole ⟨5, executorRole⟩) 0)]

def grantOperation : Operation Reference.OperationId :=
  ⟨100, "grant_role", [.address 5, .symbol executorRole], .zero, 0⟩

end Sample

/-- The execution above goes back to its proposal. -/
theorem timelock_law_sample : ∃ x earlier p tier,
    GovernanceRun (Reference.env Reference.quietHost) (fun _ _ => False) (x :: earlier) x.after ∧
    x.after.ledger = 120 ∧
    Backed (Reference.env Reference.quietHost) earlier x Sample.grantOperation p tier := by
  have hreplay : (replay (Reference.env Reference.quietHost) () 1 20 100
      Sample.grantCalls).toOption.map (fun r => r.1.head?.map fun x =>
        (x.after.ledger, effectOf (Reference.env Reference.quietHost) x)) =
      some (some (120, .execute Sample.grantOperation)) := by
    decide +kernel
  obtain ⟨x, earlier, hrun, hx⟩ := replay_last (fun _ _ => False) hreplay
  obtain ⟨hledger, heffect⟩ := Prod.mk.inj hx
  obtain ⟨p, tier, hp⟩ := (timelock_law Reference.timelock_lawful hrun).1
    [] x earlier _ rfl heffect
  exact ⟨x, earlier, p, tier, hrun, hledger, hp⟩

end Lending.Gov
