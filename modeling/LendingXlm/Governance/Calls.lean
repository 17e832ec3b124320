import LendingXlm.Governance.Contract

/-!
# What the governance calls do

One inversion lemma for each function of the timelock and the entrypoints: the checks a call that
returned has passed, and the state it left.
-/

namespace Lending.Gov

open Fallible (bind_ok require_ok_iff orThrow_ok_iff pure_ok_iff)

variable {Id T A W : Type} {g : GovernanceEnv Id T A W}
  {s s' : GovernanceState Id T A W} {now : Nat} {signers : List Address}

/-! ## Checks -/

theorem requireRole_ok {a : A} {caller : Address} {role : String} {u : Unit}
    (h : requireRole g a signers caller role = .ok u) :
    caller ∈ signers ∧ g.access.hasRole a caller role = true := by
  obtain ⟨_, hsigned, h⟩ := bind_ok h
  exact ⟨require_ok_iff.mp hsigned, require_ok_iff.mp h⟩

theorem onlyOwner_ok {lib : AccessLib A} {a : A} {u : Unit}
    (h : Access.onlyOwner lib a signers = .ok u) :
    ∃ owner, lib.getOwner a = some owner ∧ owner ∈ signers := by
  obtain ⟨owner, howner, h⟩ := bind_ok h
  exact ⟨owner, orThrow_ok_iff.mp howner, require_ok_iff.mp h⟩

theorem requireProposer_ok {a : A} {proposer : Address} {op : AdminOperation} {u : Unit}
    (h : requireProposer g a proposer op = .ok u) :
    (ownerOnly op = true → g.access.getOwner a = some proposer) ∧
      ∀ args, op = .revokeGovRole args → args.account ≠ proposer := by
  unfold requireProposer at h
  split at h
  · rename_i args
    obtain ⟨_, hne, -⟩ := bind_ok h
    refine ⟨fun hown => by simp [ownerOnly] at hown, ?_⟩
    rintro _ ⟨rfl⟩
    exact require_ok_iff.mp hne
  · rename_i hop
    refine ⟨fun hown => ?_, fun args hargs => absurd hargs (hop args)⟩
    rw [if_pos hown] at h
    obtain ⟨owner, howner, h⟩ := bind_ok h
    rw [require_ok_iff.mp h]
    exact orThrow_ok_iff.mp howner

theorem requireOperationNotExpired_ok {t : T} {id : Id} {u : Unit}
    (h : requireOperationNotExpired g t now id = .ok u)
    (hready : 2 ≤ g.timelock.getOperationLedger t id) :
    now ≤ g.timelock.getOperationLedger t id + timelockOperationGraceLedgers := by
  unfold requireOperationNotExpired at h
  rw [if_neg (by omega)] at h
  have hle : now ≤ U32.saturatingAdd _ _ := require_ok_iff.mp h
  exact hle.trans (Nat.min_le_right ..)

/-- What `prepare_execute` and `set_execute_operation` have checked of an operation. -/
structure Executable (g : GovernanceEnv Id T A W) (s : GovernanceState Id T A W) (now : Nat)
    (operation : Operation Id) (t : T) : Prop where
  notExpired : requireOperationNotExpired g s.timelock now (g.timelock.hashOperation operation) =
    .ok ()
  executed : g.timelock.setExecuteOperation s.timelock now operation = .ok t

theorem prepareExecute_ok {executor : Option Address} {operation : Operation Id} {id : Id}
    (h : prepareExecute g s now signers executor operation = .ok id) :
    id = g.timelock.hashOperation operation ∧
      requireOperationNotExpired g s.timelock now (g.timelock.hashOperation operation) =
        .ok () := by
  obtain ⟨_, -, h⟩ := bind_ok h
  obtain ⟨_, hexp, h⟩ := bind_ok h
  exact ⟨(pure_ok_iff.mp h).symm, hexp⟩

/-! ## The calls of other contracts -/

theorem invoke_ok {target : Address} {function : String} {args : List Val}
    (h : invoke g s target function args = .ok s') :
    ∃ w v, g.invokeContract s.world target function args = .ok (w, v) ∧
      s' = { s with world := w } := by
  obtain ⟨⟨w, v⟩, hinvoke, h⟩ := bind_ok h
  exact ⟨w, v, hinvoke, (pure_ok_iff.mp h).symm⟩

theorem controllerCall_ok {caller : Address} {role function : String} {args : List Val}
    (h : controllerCall g s signers caller role function args = .ok s') :
    (caller ∈ signers ∧ g.access.hasRole s.access caller role = true) ∧
    ∃ controller w v, s.controller = some controller ∧
      g.invokeContract s.world controller function args = .ok (w, v) ∧
      s' = { s with world := w } := by
  obtain ⟨_, hrole, h⟩ := bind_ok h
  obtain ⟨controller, hcontroller, h⟩ := bind_ok h
  obtain ⟨w, v, hinvoke, hs'⟩ := invoke_ok h
  exact ⟨requireRole_ok hrole, controller, w, v, orThrow_ok_iff.mp hcontroller, hinvoke, hs'⟩

theorem setSanityBand_ok {caller : Address} {key : PriceKey} {minWad maxWad : Int}
    (h : setSanityBand g s signers caller key minWad maxWad = .ok s') :
    ∃ aggregator w v, s.priceAggregator = some aggregator ∧
      g.invokeContract s.world aggregator "set_sanity_band"
        [.priceKey key, .i128 minWad, .i128 maxWad] = .ok (w, v) ∧
      s' = { s with world := w } := by
  obtain ⟨_, -, h⟩ := bind_ok h
  obtain ⟨aggregator, haggregator, h⟩ := bind_ok h
  obtain ⟨w, v, hinvoke, hs'⟩ := invoke_ok h
  exact ⟨aggregator, w, v, orThrow_ok_iff.mp haggregator, hinvoke, hs'⟩

theorem revokeRoleImmediate_ok {account : Address} {role : String}
    (h : revokeRoleImmediate g s signers account role = .ok s') :
    (∃ owner, g.access.getOwner s.access = some owner ∧ owner ∈ signers) ∧
    ∃ a, Access.applyRevokeRole g.access s.access account role = .ok a ∧
      s' = { s with access := a } := by
  obtain ⟨_, howner, h⟩ := bind_ok h
  obtain ⟨_, -, h⟩ := bind_ok h
  obtain ⟨a, ha, h⟩ := bind_ok h
  exact ⟨onlyOwner_ok howner, a, ha, (pure_ok_iff.mp h).symm⟩

theorem deployController_ok {wasmHash : Bytes32}
    (h : deployController g s signers wasmHash = .ok s') :
    s.controller = none ∧ ∃ w controller,
      g.deployContract s.world controllerDeploySalt wasmHash = .ok (w, controller) ∧
      s' = { s with world := w, controller := some controller } := by
  obtain ⟨_, -, h⟩ := bind_ok h
  obtain ⟨_, -, h⟩ := bind_ok h
  obtain ⟨_, hnone, h⟩ := bind_ok h
  obtain ⟨⟨w, controller⟩, hdeploy, h⟩ := bind_ok h
  exact ⟨require_ok_iff.mp hnone, w, controller, hdeploy, (pure_ok_iff.mp h).symm⟩

/-- The new aggregator is registered with the controller, if there is one. -/
theorem deployPriceAggregator_ok {wasmHash : Bytes32}
    (h : deployPriceAggregator g s signers wasmHash = .ok s') :
    ∃ w w' aggregator,
      g.deployContract s.world priceAggregatorDeploySalt wasmHash = .ok (w, aggregator) ∧
      (w' = w ∨ ∃ controller v, s.controller = some controller ∧
        g.invokeContract w controller "set_price_aggregator" [.address aggregator] =
          .ok (w', v)) ∧
      s' = { s with world := w', priceAggregator := some aggregator } := by
  obtain ⟨_, -, h⟩ := bind_ok h
  obtain ⟨_, -, h⟩ := bind_ok h
  obtain ⟨_, -, h⟩ := bind_ok h
  obtain ⟨⟨w, aggregator⟩, hdeploy, h⟩ := bind_ok h
  cases hcontroller : s.controller with
  | none =>
    simp only [hcontroller] at h
    exact ⟨w, w, aggregator, hdeploy, .inl rfl, (pure_ok_iff.mp h).symm⟩
  | some controller =>
    simp only [hcontroller] at h
    obtain ⟨w', v, hinvoke, rfl⟩ := invoke_ok h
    exact ⟨w, w', aggregator, hdeploy, .inr ⟨controller, v, rfl, hinvoke⟩, rfl⟩

/-! ## The timelock's calls -/

theorem operationForAdminOp_ok {op : AdminOperation} {salt : Bytes32} {operation : Operation Id}
    {tier : DelayTier} (h : operationForAdminOp g s op salt = .ok (operation, tier)) :
    ∃ r, resolveOp g s op = .ok r ∧ r.delayTier = tier ∧
      operation = ⟨r.target, r.function, r.args, g.timelock.noPredecessor, salt⟩ := by
  obtain ⟨r, hr, h⟩ := bind_ok h
  obtain ⟨rfl, rfl⟩ := Prod.mk.inj (pure_ok_iff.mp h)
  exact ⟨r, hr, rfl, rfl⟩

variable [DecidableEq Id]

theorem propose_ok {proposer : Address} {op : AdminOperation} {salt : Bytes32} {id : Id}
    (h : propose g s now signers proposer op salt = .ok (s', id)) :
    (proposer ∈ signers ∧ g.access.hasRole s.access proposer proposerRole = true) ∧
    requireProposer g s.access proposer op = .ok () ∧
    ∃ operation tier t, operationForAdminOp g s op salt = .ok (operation, tier) ∧
      g.timelock.scheduleOperation s.timelock now operation
        (operationDelay g s.timelock tier) = .ok (t, id) ∧
      s' = markProposal { s with timelock := t } id op := by
  obtain ⟨_, hrole, h⟩ := bind_ok h
  obtain ⟨_, hproposer, h⟩ := bind_ok h
  obtain ⟨⟨operation, tier⟩, hop, h⟩ := bind_ok h
  obtain ⟨⟨t, id'⟩, hschedule, h⟩ := bind_ok h
  obtain ⟨rfl, rfl⟩ := Prod.mk.inj (pure_ok_iff.mp h)
  exact ⟨requireRole_ok hrole, hproposer, operation, tier, t, hop, hschedule, rfl⟩

theorem proposeCancellerReset_ok {newCancellers : List Address} {salt : Bytes32} {id : Id}
    (h : proposeCancellerReset g s now signers newCancellers salt = .ok (s', id)) :
    (∃ owner, g.access.getOwner s.access = some owner ∧ owner ∈ signers) ∧
    ∃ t, g.timelock.scheduleOperation s.timelock now (cancellerResetOperation g newCancellers salt)
        (operationDelay g s.timelock .recovery) = .ok (t, id) ∧
      s' = { s with timelock := t }.markRecoveryOp id := by
  obtain ⟨_, howner, h⟩ := bind_ok h
  obtain ⟨⟨t, id'⟩, hschedule, h⟩ := bind_ok h
  obtain ⟨rfl, rfl⟩ := Prod.mk.inj (pure_ok_iff.mp h)
  exact ⟨onlyOwner_ok howner, t, hschedule, rfl⟩

theorem execute_ok {executor : Option Address} {operation : Operation Id} {result : Val}
    (h : execute g s now signers executor operation = .ok (s', result)) :
    operation.target ≠ g.currentContractAddress ∧
    ∃ t w, Executable g s now operation t ∧
      g.invokeContract s.world operation.target operation.function operation.args =
        .ok (w, result) ∧
      s' = finishExecute g { s with timelock := t, world := w }
        (g.timelock.hashOperation operation) := by
  obtain ⟨_, htarget, h⟩ := bind_ok h
  obtain ⟨id, hprepare, h⟩ := bind_ok h
  obtain ⟨t, hexec, h⟩ := bind_ok h
  obtain ⟨⟨w, v⟩, hinvoke, h⟩ := bind_ok h
  obtain ⟨rfl, rfl⟩ := Prod.mk.inj (pure_ok_iff.mp h)
  obtain ⟨rfl, hexp⟩ := prepareExecute_ok hprepare
  exact ⟨require_ok_iff.mp htarget, t, w, ⟨hexp, hexec⟩, hinvoke, rfl⟩

theorem executeSelf_ok {executor : Option Address} {op : AdminOperation} {salt : Bytes32}
    (h : executeSelf g s now signers executor op salt = .ok s') :
    ∃ operation tier t s₁, operationForAdminOp g s op salt = .ok (operation, tier) ∧
      operation.target = g.currentContractAddress ∧ Executable g s now operation t ∧
      applySelfOp g { s with timelock := t } now op = .ok s₁ ∧
      s' = finishExecute g s₁ (g.timelock.hashOperation operation) := by
  obtain ⟨⟨operation, tier⟩, hop, h⟩ := bind_ok h
  obtain ⟨_, htarget, h⟩ := bind_ok h
  obtain ⟨id, hprepare, h⟩ := bind_ok h
  obtain ⟨t, hexec, h⟩ := bind_ok h
  obtain ⟨s₁, hself, h⟩ := bind_ok h
  obtain rfl := pure_ok_iff.mp h
  obtain ⟨rfl, hexp⟩ := prepareExecute_ok hprepare
  exact ⟨operation, tier, t, s₁, hop, require_ok_iff.mp htarget, ⟨hexp, hexec⟩, hself, rfl⟩

theorem executeCancellerReset_ok {executor : Option Address} {newCancellers : List Address}
    {salt : Bytes32}
    (h : executeCancellerReset g s now signers executor newCancellers salt = .ok s') :
    ∃ t a, Executable g s now (cancellerResetOperation g newCancellers salt) t ∧
      Access.applyCancellerReset g.access s.access newCancellers = .ok a ∧
      s' = finishExecute g { s with timelock := t, access := a }
        (g.timelock.hashOperation (cancellerResetOperation g newCancellers salt)) := by
  obtain ⟨id, hprepare, h⟩ := bind_ok h
  obtain ⟨t, hexec, h⟩ := bind_ok h
  obtain ⟨a, hreset, h⟩ := bind_ok h
  obtain rfl := pure_ok_iff.mp h
  obtain ⟨rfl, hexp⟩ := prepareExecute_ok hprepare
  exact ⟨t, a, ⟨hexp, hexec⟩, hreset, rfl⟩

theorem cancel_ok {canceller : Address} {id : Id}
    (h : cancel g s signers canceller id = .ok s') :
    (canceller ∈ signers ∧ g.access.hasRole s.access canceller cancellerRole = true) ∧
    s.recoveryOp id = false ∧ s.roleRevocationTarget id ≠ some canceller ∧
    ∃ t, g.timelock.cancelOperation s.timelock id = .ok t ∧
      s' = { s with timelock := t }.clearOperationSidecars id := by
  obtain ⟨_, hrole, h⟩ := bind_ok h
  obtain ⟨_, hrecovery, h⟩ := bind_ok h
  obtain ⟨_, htarget, h⟩ := bind_ok h
  obtain ⟨t, hcancel, h⟩ := bind_ok h
  exact ⟨requireRole_ok hrole, require_ok_iff.mp hrecovery, require_ok_iff.mp htarget, t, hcancel,
    (pure_ok_iff.mp h).symm⟩

end Lending.Gov
