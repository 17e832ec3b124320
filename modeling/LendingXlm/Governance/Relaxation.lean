import LendingXlm.Controller.Listings
import LendingXlm.Governance.Timelock

/-!
# Relaxations wait, flags do not

The governance over the controller it owns, both as modelled: a proposal to relax reads the
listing's epoch, and its execution, a delay later, is checked against that epoch by the controller.

- **The deployment** (`deployedHost`): the calls of the governance reach the controller's own
  entrypoints; everyone else calls the controller directly (`ControllerMoves`).
- **One step** (`GovernanceStep.listing_move`): at most one write of each listing's register, and
  an overwrite only by an executed relaxation.
- **The law** (`relaxation_law`): epochs only grow, flags are cleared by relaxations only, and a
  relaxation finds the listing as its proposal found it.
-/

namespace Lending.Gov

open Fallible (bind_ok pure_ok_iff orThrow_ok_iff)
open Register (Move Write Grows Spends)

/-! ## The deployment -/

/-- The controller's contracts with the time of the ledger. -/
structure Deployment (W : Type) where
  system : System W
  timestamp : Nat

namespace Deployment

variable {W : Type}

/-- The outside world. -/
def outside (d : Deployment W) : W := d.system.pool.world

def withOutside (d : Deployment W) (w : W) : Deployment W :=
  { d with system.pool.world := w }

/-- The flags of a listing with their epoch. -/
def listing (d : Deployment W) (key : SpokeAssetKey) : Register Flags :=
  d.system.store.flagRegister key

end Deployment

/-- The entrypoint a call of the controller names. Deployments, upgrades, `migrate` and the
handover of the ownership are not among them. -/
def controllerEntry (function : String) (args : List Val) : Option ControllerCall :=
  match function, args with
  | "set_swap_aggregator", [.address addr] => some (.setSwapAggregator addr)
  | "set_price_aggregator", [.address addr] => some (.setPriceAggregator addr)
  | "set_accumulator", [.address addr] => some (.setAccumulator addr)
  | "set_position_limits", [.positionLimits limits] => some (.setPositionLimits limits)
  | "set_min_borrow_collateral_usd", [.i128 floorWad] => some (.setMinBorrowCollateralUsd floorWad)
  | "set_position_manager", [.address manager, .bool isActive] =>
    some (.setPositionManager manager isActive)
  | "approve_blend_pool", [.address pool] => some (.setBlendPoolApproval pool true)
  | "revoke_blend_pool", [.address pool] => some (.setBlendPoolApproval pool false)
  | "create_hub", [] => some .createHub
  | "add_spoke", [] => some .addSpoke
  | "remove_spoke", [.u32 id] => some (.removeSpoke id)
  | "set_spoke_liquidation_curve",
      [.u32 id, .i128 targetHfWad, .i128 hfForMaxBonusWad, .u32 liquidationBonusFactorBps] =>
    some (.setSpokeLiquidationCurve id targetHfWad hfForMaxBonusWad liquidationBonusFactorBps)
  | "add_asset_to_spoke", [.spokeAsset input] => some (.addAssetToSpoke input)
  | "edit_asset_in_spoke", [.spokeAsset input] => some (.editAssetInSpoke input)
  | "set_spoke_asset_flags",
      [.u32 spokeId, .hubAsset hubAsset, .bool paused, .bool frozen, .bool noSeize] =>
    some (.setSpokeAssetFlags spokeId hubAsset paused frozen noSeize)
  | "relax_spoke_asset_flags",
      [.u32 spokeId, .hubAsset hubAsset, .u64 expectedEpoch, .bool paused, .bool frozen,
        .bool noSeize] =>
    some (.relaxSpokeAssetFlags spokeId hubAsset expectedEpoch paused frozen noSeize)
  | "remove_asset_from_spoke", [.hubAsset hubAsset, .u32 spokeId] =>
    some (.removeAssetFromSpoke hubAsset spokeId)
  | "create_liquidity_pool", [.u32 hubId, .address asset, .marketParams params] =>
    some (.createLiquidityPool hubId asset params)
  | "upgrade_liquidity_pool_params", [.hubAsset hubAsset, .interestRateModel params] =>
    some (.upgradeLiquidityPoolParams hubAsset params)
  | "force_socialize_bad_debt", [.u64 accountId] => some (.forceSocializeBadDebt accountId)
  | "pause", [] => some .pause
  | "unpause", [] => some .unpause
  | _, _ => none

variable {W : Type}

/-- The governance's outside with the controller in it: calls of its entrypoints run them, other
calls are `base`'s, over the world outside both. What an entrypoint returns is dropped. -/
def deployedHost (h : ControllerHost W) (base : GovernanceHost W) :
    GovernanceHost (Deployment W) where
  currentContractAddress := base.currentContractAddress
  isWasmContract d := base.isWasmContract d.outside
  tryDecimals d := base.tryDecimals d.outside
  trySymbol d := base.trySymbol d.outside
  oracle d := base.oracle d.outside
  getSpokeAssetFlagsEpoch d target spokeId hubAsset :=
    if target = h.controller then
      return Config.getSpokeFlagsEpoch d.system.store ⟨spokeId, hubAsset⟩
    else
      base.getSpokeAssetFlagsEpoch d.outside target spokeId hubAsset
  invokeContract d target function args :=
    match if target = h.controller then controllerEntry function args else none with
    | some call => do
      let system ← (call.exec h d.timestamp d.system : Result (System W))
      return ({ d with system }, .void)
    | none => do
      let (w, v) ← base.invokeContract d.outside target function args
      return (d.withOutside w, v)
  deployContract d salt wasmHash := do
    let (w, addr) ← base.deployContract d.outside salt wasmHash
    return (d.withOutside w, addr)

/-- What happens to the controller without the governance: time passes, the world outside moves,
and anyone makes any call of the controller but a relaxation, which it takes from its owner only,
the governance. -/
inductive ControllerMoves (h : ControllerHost W) : Deployment W → Deployment W → Prop
  | call {d : Deployment W} {s : System W} {timestamp : Nat} {call : ControllerCall}
      (howner : ∀ key epoch f, ¬ call.Relaxes key epoch f) (hle : d.timestamp ≤ timestamp)
      (hexec : call.exec h timestamp d.system = .ok s) : ControllerMoves h d ⟨s, timestamp⟩
  | outside {d : Deployment W} (w : W) {timestamp : Nat} (hle : d.timestamp ≤ timestamp) :
      ControllerMoves h d { d.withOutside w with timestamp }

/-! ## What a call of the governance invokes -/

section Invokes

variable {Id T A : Type} {g : GovernanceEnv Id T A W} {s s' : GovernanceState Id T A W}
  {now : Nat} {signers : List Address}

/-- The outside moves by an invocation of another contract, if at all. -/
def Invoked (g : GovernanceEnv Id T A W) (w w' : W) (operation : Address × String × List Val) :
    Prop :=
  ∃ v, g.invokeContract w operation.1 operation.2.1 operation.2.2 = .ok (w', v)

/-- An operation on the governance itself invokes the registration of a price aggregator only. -/
theorem applySelfOp_invokes {op : AdminOperation} (h : applySelfOp g s now op = .ok s') :
    s'.world = s.world ∨ ∃ controller addr,
      Invoked g s.world s'.world (controller, "set_price_aggregator", [.address addr]) := by
  unfold applySelfOp at h
  split at h
  · obtain rfl := pure_ok_iff.mp h
    exact .inl rfl
  · obtain ⟨t, -, h⟩ := bind_ok h
    obtain rfl := pure_ok_iff.mp h
    exact .inl rfl
  · obtain ⟨a, -, h⟩ := bind_ok h
    obtain rfl := pure_ok_iff.mp h
    exact .inl rfl
  · obtain ⟨a, -, h⟩ := bind_ok h
    obtain rfl := pure_ok_iff.mp h
    exact .inl rfl
  · obtain ⟨a, -, h⟩ := bind_ok h
    obtain rfl := pure_ok_iff.mp h
    exact .inl rfl
  · obtain ⟨_, -, h⟩ := bind_ok h
    obtain ⟨controller, -, h⟩ := bind_ok h
    obtain ⟨w, v, hinvoke, rfl⟩ := invoke_ok h
    exact .inr ⟨controller, _, v, hinvoke⟩
  · cases h

variable [DecidableEq Id]

/-- **What a call does outside.** It may deploy a contract, and then invoke one: the operation it
executes, or something else than a relaxation. -/
theorem GovernanceCall.exec_invokes {call : GovernanceCall Id}
    (h : call.exec g now signers s = .ok s') :
    ∃ w, (w = s.world ∨ ∃ salt wasmHash addr,
        g.deployContract s.world salt wasmHash = .ok (w, addr)) ∧
      (s'.world = w ∨ ∃ target function args, Invoked g w s'.world (target, function, args) ∧
        (function = "relax_spoke_asset_flags" → ∃ executor predecessor salt,
          call = .execute executor ⟨target, function, args, predecessor, salt⟩)) := by
  cases call with
  | deployController wasmHash =>
    obtain ⟨-, w, controller, hdeploy, rfl⟩ := deployController_ok h
    exact ⟨w, .inr ⟨_, _, controller, hdeploy⟩, .inl rfl⟩
  | deployPriceAggregator wasmHash =>
    obtain ⟨w, w', aggregator, hdeploy, hinvoke, rfl⟩ := deployPriceAggregator_ok h
    refine ⟨w, .inr ⟨_, _, aggregator, hdeploy⟩, ?_⟩
    refine hinvoke.imp id ?_
    rintro ⟨controller, v, -, hinvoke⟩
    exact ⟨controller, _, _, ⟨v, hinvoke⟩, fun heq => absurd heq (by decide)⟩
  | execute executor operation =>
    obtain ⟨⟨t, v⟩, hexec, h⟩ := bind_ok h
    obtain rfl := pure_ok_iff.mp h
    obtain ⟨-, t, w, -, hinvoke, rfl⟩ := execute_ok hexec
    exact ⟨s.world, .inl rfl, .inr ⟨operation.target, operation.function, operation.args,
      ⟨v, hinvoke⟩, fun _ => ⟨executor, operation.predecessor, operation.salt, rfl⟩⟩⟩
  | cancel canceller operationId =>
    obtain ⟨-, -, -, t, -, rfl⟩ := cancel_ok h
    exact ⟨s.world, .inl rfl, .inl rfl⟩
  | propose proposer op salt =>
    obtain ⟨⟨t, id⟩, hpropose, h⟩ := bind_ok h
    obtain rfl := pure_ok_iff.mp h
    obtain ⟨-, -, operation, tier, t, -, -, rfl⟩ := propose_ok hpropose
    refine ⟨s.world, .inl rfl, .inl ?_⟩
    unfold markProposal
    split <;> rfl
  | setSanityBand caller key minWad maxWad =>
    obtain ⟨aggregator, w, v, -, hinvoke, rfl⟩ := setSanityBand_ok h
    exact ⟨s.world, .inl rfl,
      .inr ⟨aggregator, _, _, ⟨v, hinvoke⟩, fun heq => absurd heq (by decide)⟩⟩
  | revokeRoleImmediate account role =>
    obtain ⟨-, a, -, rfl⟩ := revokeRoleImmediate_ok h
    exact ⟨s.world, .inl rfl, .inl rfl⟩
  | executeSelf executor op salt =>
    obtain ⟨operation, tier, t, s₁, -, -, -, hself, rfl⟩ := executeSelf_ok h
    refine ⟨s.world, .inl rfl, (applySelfOp_invokes hself).imp id ?_⟩
    rintro ⟨controller, addr, hinvoke⟩
    exact ⟨controller, _, _, hinvoke, fun heq => absurd heq (by decide)⟩
  | proposeCancellerReset newCancellers salt =>
    obtain ⟨⟨t, id⟩, hpropose, h⟩ := bind_ok h
    obtain rfl := pure_ok_iff.mp h
    obtain ⟨-, t, -, rfl⟩ := proposeCancellerReset_ok hpropose
    exact ⟨s.world, .inl rfl, .inl rfl⟩
  | executeCancellerReset executor newCancellers salt =>
    obtain ⟨t, a, -, -, rfl⟩ := executeCancellerReset_ok h
    exact ⟨s.world, .inl rfl, .inl rfl⟩
  | acceptOwnership =>
    obtain ⟨a, -, h⟩ := bind_ok h
    obtain rfl := pure_ok_iff.mp h
    exact ⟨s.world, .inl rfl, .inl rfl⟩
  | pause | setSpokeAssetFlags | createHub | addSpoke | deactivatePositionManager
  | revokeBlendPool =>
    obtain ⟨-, controller, w, v, -, hinvoke, rfl⟩ := controllerCall_ok h
    exact ⟨s.world, .inl rfl,
      .inr ⟨controller, _, _, ⟨v, hinvoke⟩, fun heq => absurd heq (by decide)⟩⟩

end Invokes

/-! ## One step -/

namespace RelaxSpokeAssetFlagsArgs

def key (args : RelaxSpokeAssetFlagsArgs) : SpokeAssetKey := ⟨args.spokeId, args.hubAsset⟩

def flags (args : RelaxSpokeAssetFlagsArgs) : Flags := (args.paused, args.frozen, args.noSeize)

/-- The arguments of the call of the controller. -/
def vals (args : RelaxSpokeAssetFlagsArgs) : List Val :=
  [.u32 args.spokeId, .hubAsset args.hubAsset, .u64 args.expectedEpoch, .bool args.paused,
    .bool args.frozen, .bool args.noSeize]

end RelaxSpokeAssetFlagsArgs

/-- Only one entrypoint relaxes. -/
theorem controllerEntry_relaxes {function : String} {args : List Val} {call : ControllerCall}
    (hentry : controllerEntry function args = some call) {key : SpokeAssetKey} {epoch : Nat}
    {f : Flags} (hcall : call.Relaxes key epoch f) :
    function = "relax_spoke_asset_flags" ∧
      args = RelaxSpokeAssetFlagsArgs.vals ⟨key.spokeId, key.hubAsset, epoch, f.1, f.2.1, f.2.2⟩ := by
  obtain rfl := hcall
  unfold controllerEntry at hentry
  split at hentry <;> cases hentry
  exact ⟨rfl, rfl⟩

variable {Id T A : Type} {h : ControllerHost W} {base : GovernanceHost W}

/-- The governance over the deployment. -/
def deployedEnv (h : ControllerHost W) (base : GovernanceHost W) (timelock : TimelockLib Id T)
    (access : AccessLib A) : GovernanceEnv Id T A (Deployment W) where
  toGovernanceHost := deployedHost h base
  timelock
  access

/-- The transition executes a relaxation by the controller. -/
def RelaxExecution (h : ControllerHost W) (x : GovernanceTransition Id T A (Deployment W))
    (args : RelaxSpokeAssetFlagsArgs) : Prop :=
  ∃ signers executor operation, x.event = .call signers (.execute executor operation) ∧
    operation.target = h.controller ∧ operation.function = "relax_spoke_asset_flags" ∧
    operation.args = args.vals

/-- The transition proposes a relaxation. -/
def RelaxProposal (p : GovernanceTransition Id T A (Deployment W))
    (args : RelaxSpokeAssetFlagsArgs) : Prop :=
  ∃ signers proposer salt,
    p.event = .call signers (.propose proposer (.relaxSpokeAssetFlags args) salt)

theorem lift_ok {α : Type} {r : Result α} {a : α} (hr : (liftM r : GovResult α) = .ok a) :
    r = .ok a := by
  cases r with
  | ok b =>
    cases hr
    rfl
  | error e => cases hr

/-- What an invocation does to a listing. -/
theorem deployedHost_invoke {d d' : Deployment W} {target : Address} {function : String}
    {args : List Val} {v : Val}
    (hinvoke : (deployedHost h base).invokeContract d target function args = .ok (d', v))
    (key : SpokeAssetKey) :
    ∃ w, Move (d.listing key) w (d'.listing key) ∧
      (w = .overwrite → target = h.controller ∧ function = "relax_spoke_asset_flags" ∧
        ∃ relax : RelaxSpokeAssetFlagsArgs, relax.key = key ∧ args = relax.vals) := by
  unfold deployedHost at hinvoke
  dsimp only at hinvoke
  split at hinvoke
  · rename_i call hentry
    obtain ⟨system, hexec, hinvoke⟩ := bind_ok hinvoke
    obtain ⟨rfl, -⟩ := Prod.mk.inj (pure_ok_iff.mp hinvoke)
    obtain ⟨w, hmove, hrelax⟩ := ControllerCall.exec_move (lift_ok hexec) key
    refine ⟨w, hmove, fun hw => ?_⟩
    obtain ⟨epoch, f, hcall⟩ := hrelax hw
    split at hentry
    · rename_i htarget
      obtain ⟨hfunction, hargs⟩ := controllerEntry_relaxes hentry hcall
      exact ⟨htarget, hfunction, _, rfl, hargs⟩
    · cases hentry
  · obtain ⟨⟨w, v'⟩, -, hinvoke⟩ := bind_ok hinvoke
    obtain ⟨rfl, -⟩ := Prod.mk.inj (pure_ok_iff.mp hinvoke)
    exact ⟨.keep, .keep _, fun hw => by cases hw⟩

/-- What a relaxation finds and leaves. -/
theorem deployedHost_relax {d d' : Deployment W} {args : RelaxSpokeAssetFlagsArgs} {v : Val}
    (hinvoke : (deployedHost h base).invokeContract d h.controller "relax_spoke_asset_flags"
      args.vals = .ok (d', v)) :
    (∃ f, d.listing args.key = ⟨some f, args.expectedEpoch⟩) ∧
      d'.listing args.key = ⟨some args.flags, args.expectedEpoch + 1⟩ := by
  simp only [deployedHost] at hinvoke
  obtain ⟨system, hexec, hinvoke⟩ := bind_ok hinvoke
  obtain ⟨rfl, -⟩ := Prod.mk.inj (pure_ok_iff.mp hinvoke)
  obtain ⟨t, hbody, rfl⟩ := ControllerCall.exec_ok (lift_ok hexec)
  exact (Config.relaxSpokeAssetFlags_writes hbody).2

variable [DecidableEq Id] {timelock : TimelockLib Id T} {access : AccessLib A}

/-- **One step.** Each listing's register takes at most one write, and an overwrite only by an
executed relaxation. -/
theorem GovernanceStep.listing_move {m m' : Moment Id T A (Deployment W)}
    {e : GovernanceEvent Id}
    (hstep : GovernanceStep (deployedEnv h base timelock access) (ControllerMoves h) m e m')
    (key : SpokeAssetKey) :
    ∃ w, Move (m.world.listing key) w (m'.world.listing key) ∧
      (w = .overwrite → ∃ args, RelaxExecution h ⟨m, e, m'⟩ args ∧ args.key = key) := by
  cases hstep with
  | outside _ hmove =>
    cases hmove with
    | call howner _ hexec =>
      obtain ⟨w, hmove, hrelax⟩ := ControllerCall.exec_move hexec key
      refine ⟨w, hmove, fun hw => ?_⟩
      obtain ⟨epoch, f, hcall⟩ := hrelax hw
      exact absurd hcall (howner key epoch f)
    | outside w _ => exact ⟨.keep, .keep _, fun hw => by cases hw⟩
  | @call s now signers call _ _ hexec =>
    obtain ⟨d, hdeploy, hinvoke⟩ := GovernanceCall.exec_invokes hexec
    have hd : d.listing key = m.world.listing key := by
      rcases hdeploy with rfl | ⟨salt, wasmHash, addr, hdeploy⟩
      · rfl
      · obtain ⟨⟨w, a⟩, -, hdeploy⟩ := bind_ok hdeploy
        obtain ⟨rfl, -⟩ := Prod.mk.inj (pure_ok_iff.mp hdeploy)
        rfl
    change ∃ w, Move (m.world.listing key) w (s.world.listing key) ∧ _
    rw [← hd]
    rcases hinvoke with heq | ⟨target, function, args, ⟨v, hinvoke⟩, hexecute⟩
    · rw [heq]
      exact ⟨.keep, .keep _, fun hw => by cases hw⟩
    · obtain ⟨w, hmove, hrelax⟩ := deployedHost_invoke hinvoke key
      refine ⟨w, hmove, fun hw => ?_⟩
      obtain ⟨htarget, hfunction, relax, hkey, hargs⟩ := hrelax hw
      obtain ⟨executor, predecessor, salt, rfl⟩ := hexecute hfunction
      exact ⟨relax, ⟨signers, executor, _, rfl, htarget, hfunction, hargs⟩, hkey⟩

/-! ## Stretches of a run -/

section Stretch

variable {a b : Moment Id T A (Deployment W)} {segment : GovernanceLog Id T A (Deployment W)}
  {key : SpokeAssetKey}

theorem stretch_fresh
    (hrun : History.Run (GovernanceStep (deployedEnv h base timelock access) (ControllerMoves h))
      a segment b) : Register.Fresh (a.world.listing key) (b.world.listing key) := by
  refine hrun.rel (R := fun m m' => Register.Fresh (m.world.listing key) (m'.world.listing key))
    (fun _ => .refl _) (fun _ _ _ => .trans) fun x hx => ?_
  obtain ⟨w, hmove, -⟩ := (hrun.step_of_mem hx).listing_move key
  exact hmove.fresh

/-- While nothing is relaxed and the listing stays, flags stay set. -/
theorem stretch_grows
    (hrun : History.Run (GovernanceStep (deployedEnv h base timelock access) (ControllerMoves h))
      a segment b)
    (hrelax : ∀ x ∈ segment, ∀ args, RelaxExecution h x args → args.key ≠ key)
    (hlisted : ∀ x ∈ segment, (x.after.world.listing key).value ≠ none) :
    Grows (a.world.listing key) (b.world.listing key) := by
  refine hrun.rel (R := fun m m' => Grows (m.world.listing key) (m'.world.listing key))
    (fun _ => .refl _) (fun _ _ _ => .trans) fun x hx => ?_
  obtain ⟨w, hmove, hoverwrite⟩ := (hrun.step_of_mem hx).listing_move key
  refine hmove.grows (fun hw => ?_) (hlisted x hx)
  obtain ⟨args, hexec, hkey⟩ := hoverwrite hw
  exact hrelax x hx args hexec hkey

/-- The listing appears. -/
def Lists (key : SpokeAssetKey) (x : GovernanceTransition Id T A (Deployment W)) : Prop :=
  (x.before.world.listing key).value = none ∧ (x.after.world.listing key).value ≠ none

/-- While nothing is relaxed or listed, the epoch is paid for by unset flags. -/
theorem stretch_spends
    (hrun : History.Run (GovernanceStep (deployedEnv h base timelock access) (ControllerMoves h))
      a segment b)
    (hrelax : ∀ x ∈ segment, ∀ args, RelaxExecution h x args → args.key ≠ key)
    (hlists : ∀ x ∈ segment, ¬ Lists key x) :
    Spends Flags.unset (a.world.listing key) (b.world.listing key) := by
  refine hrun.rel
    (R := fun m m' => Spends Flags.unset (m.world.listing key) (m'.world.listing key))
    (fun _ => le_rfl) (fun _ _ _ => .trans) fun x hx => ?_
  obtain ⟨w, hmove, hoverwrite⟩ := (hrun.step_of_mem hx).listing_move key
  refine hmove.spends Flags.unset_strictAnti (fun hw => hlists x hx ?_) fun hw => ?_
  · subst hw
    unfold Lists
    generalize x.before.world.listing key = r at hmove
    generalize x.after.world.listing key = r' at hmove
    cases hmove
    exact ⟨rfl, by simp⟩
  · obtain ⟨args, hexec, hkey⟩ := hoverwrite hw
    exact hrelax x hx args hexec hkey

end Stretch

/-! ## Proposals and executions -/

section Relaxations

variable {g : GovernanceEnv Id T A W} {s : GovernanceState Id T A W} {r : ResolvedOperation}

omit [DecidableEq Id] in
/-- A proposal to relax has found the epoch it expects. -/
theorem resolveOp_relaxSpokeAssetFlags {args : RelaxSpokeAssetFlagsArgs}
    (hr : resolveOp g s (.relaxSpokeAssetFlags args) = .ok r) :
    r.args = args.vals ∧
      g.getSpokeAssetFlagsEpoch s.world r.target args.spokeId args.hubAsset =
        .ok args.expectedEpoch := by
  obtain ⟨controller, hcontroller, hr⟩ := bind_ok hr
  obtain ⟨epoch, hepoch, hr⟩ := bind_ok hr
  obtain ⟨_, heq, hcall⟩ := bind_ok hr
  obtain rfl := Fallible.require_ok_iff.mp heq
  obtain ⟨controller', hcontroller', rfl⟩ := controllerOperation_ok hcall
  have hsame := (orThrow_ok_iff.mp hcontroller).symm.trans hcontroller'
  obtain rfl := Option.some.inj hsame
  exact ⟨rfl, hepoch⟩

theorem AdminOperation.eq_relaxSpokeAssetFlags {op : AdminOperation}
    (hop : op.function = "relax_spoke_asset_flags") : ∃ args, op = .relaxSpokeAssetFlags args := by
  cases op with
  | relaxSpokeAssetFlags args => exact ⟨args, rfl⟩
  | _ => simp [function] at hop

theorem RelaxSpokeAssetFlagsArgs.vals_injective : Function.Injective vals := by
  intro args args' heq
  cases args
  cases args'
  simpa [vals] using heq

end Relaxations

variable {x p : GovernanceTransition Id T A (Deployment W)} {args : RelaxSpokeAssetFlagsArgs}

omit [DecidableEq Id] in
/-- What schedules a relaxation is a proposal to relax, at the listing's epoch. -/
theorem Proposal.relax {operation : Operation Id} {tier : DelayTier}
    (hp : Proposal (deployedEnv h base timelock access) p operation tier)
    (htarget : operation.target = h.controller)
    (hfunction : operation.function = "relax_spoke_asset_flags")
    (hargs : operation.args = args.vals) :
    RelaxProposal p args ∧ (p.before.world.listing args.key).version = args.expectedEpoch := by
  cases hp with
  | @propose signers proposer op salt hevent hop =>
    obtain ⟨r, hr, -, rfl⟩ := operationForAdminOp_ok hop
    obtain ⟨args', rfl⟩ := AdminOperation.eq_relaxSpokeAssetFlags
      ((resolveOp_call hr).1.symm.trans hfunction)
    obtain ⟨hvals, hepoch⟩ := resolveOp_relaxSpokeAssetFlags hr
    obtain rfl := RelaxSpokeAssetFlagsArgs.vals_injective (hvals.symm.trans hargs)
    refine ⟨⟨signers, proposer, salt, hevent⟩, ?_⟩
    change (deployedHost h base).getSpokeAssetFlagsEpoch _ _ _ _ = _ at hepoch
    simp only [deployedHost] at hepoch
    rw [if_pos htarget] at hepoch
    exact pure_ok_iff.mp hepoch
  | reset hevent hop =>
    rw [hop] at hfunction
    simp [cancellerResetOperation] at hfunction

/-- What an executed relaxation found and left. -/
theorem GovernanceStep.relaxed
    (hstep : GovernanceStep (deployedEnv h base timelock access) (ControllerMoves h) x.before
      x.event x.after) (hx : RelaxExecution h x args) :
    (∃ f, x.before.world.listing args.key = ⟨some f, args.expectedEpoch⟩) ∧
      x.after.world.listing args.key = ⟨some args.flags, args.expectedEpoch + 1⟩ := by
  obtain ⟨signers, executor, operation, hevent, htarget, hfunction, hargs⟩ := hx
  rw [hevent] at hstep
  have hexec := hstep.exec
  obtain ⟨⟨t, v⟩, hexec, hafter⟩ := bind_ok hexec
  have hworld := congrArg GovernanceState.world (pure_ok_iff.mp hafter)
  obtain ⟨-, _, d, -, hinvoke, rfl⟩ := execute_ok hexec
  change d = x.after.world at hworld
  subst hworld
  rw [htarget, hfunction, hargs] at hinvoke
  exact deployedHost_relax hinvoke

/-- The executed relaxation `x` goes back to the proposal `p`, and from there to `x` the listing was
there, with flags `f` and the epoch the proposal names. -/
structure RelaxedAsProposed (earlier : GovernanceLog Id T A (Deployment W))
    (x : GovernanceTransition Id T A (Deployment W)) (args : RelaxSpokeAssetFlagsArgs)
    (p : GovernanceTransition Id T A (Deployment W)) (f : Flags) : Prop where
  proposal : RelaxProposal p args
  held : ∃ between past, earlier = between ++ p :: past ∧
    ∀ y ∈ x :: between ++ [p], y.before.world.listing args.key = ⟨some f, args.expectedEpoch⟩
  written : x.after.world.listing args.key = ⟨some args.flags, args.expectedEpoch + 1⟩

theorem GovernanceRun.relaxed (htimelock : timelock.Lawful)
    {later earlier : GovernanceLog Id T A (Deployment W)} {m : Moment Id T A (Deployment W)}
    (hrun : GovernanceRun (deployedEnv h base timelock access) (ControllerMoves h)
      (later ++ x :: earlier) m) (hx : RelaxExecution h x args) :
    ∃ p f, RelaxedAsProposed earlier x args p f := by
  obtain ⟨hearlier, hstep⟩ := hrun.at_transition
  obtain ⟨⟨f, hfound⟩, hwritten⟩ := hstep.relaxed hx
  obtain ⟨signers, executor, operation, hevent, htarget, hfunction, hargs⟩ := hx
  have heffect : effectOf (deployedEnv h base timelock access) x = .execute operation := by
    unfold effectOf
    rw [hevent]
    rfl
  obtain ⟨p, tier, hbacked⟩ := hrun.backed htimelock heffect
  obtain ⟨between, past, rfl, -⟩ := hbacked.untouched
  obtain ⟨hproposal, hversion⟩ := hbacked.proposal.relax htarget hfunction hargs
  refine ⟨p, f, hproposal, ⟨between, past, rfl, fun y hy => ?_⟩, hwritten⟩
  -- Whatever lies in between, the epoch at its ends is the same.
  obtain ⟨world, admin, minDelay, now, s, hs, hearlier⟩ := hearlier
  obtain ⟨-, hp, hbetween⟩ := hearlier.at_transition
  have hfrom : Register.Fresh (p.before.world.listing args.key) (p.after.world.listing args.key) := by
    obtain ⟨w, hmove, -⟩ := hp.listing_move args.key
    exact hmove.fresh
  have hends : (x.before.world.listing args.key).version =
      (p.before.world.listing args.key).version := by
    rw [hversion, hfound]
  have hvalue := congrArg Register.value hfound
  rw [List.mem_append, List.mem_cons, List.mem_singleton] at hy
  rw [← hfound]
  rcases hy with (rfl | hy) | rfl
  · rfl
  · obtain ⟨newer, older, rfl⟩ := List.append_of_mem hy
    obtain ⟨hbefore, hy, hafter⟩ := hbetween.at_transition
    obtain ⟨w, hmove, -⟩ := hy.listing_move args.key
    exact (hfrom.trans (stretch_fresh hbefore)).between
      (hmove.fresh.trans (stretch_fresh hafter)) hends hvalue
  · exact (Register.Fresh.refl _).between (hfrom.trans (stretch_fresh hbetween)) hends hvalue

/-- **Relaxations wait, flags do not.** For every listing, in any stretch of a run from any state:

* its epoch does not go back, also across a removal, and a value that was not there before (new
  flags, or a new listing) has a higher one;
* a set flag is cleared only by an executed relaxation or a removal in between;
* without a relaxation and without a listing the epoch advances by three at most;

and in every run, an executed relaxation goes back to a proposal that found the listing with the
very flags and epoch it has at the execution and had at every moment in between. -/
theorem relaxation_law (htimelock : timelock.Lawful) (key : SpokeAssetKey) :
    (∀ a segment b,
      History.Run (GovernanceStep (deployedEnv h base timelock access) (ControllerMoves h))
        a segment b →
      let before := a.world.listing key
      let after := b.world.listing key
      (before.version ≤ after.version ∧
        ∀ f, after.value = some f → before.value ≠ some f → before.version < after.version) ∧
      (∀ f f', before.value = some f → after.value = some f' → ¬ f ≤ f' →
        ∃ x ∈ segment, (∃ args, RelaxExecution h x args ∧ args.key = key) ∨
          (x.after.world.listing key).value = none) ∧
      ((∀ x ∈ segment, (∀ args, RelaxExecution h x args → args.key ≠ key) ∧ ¬ Lists key x) →
        after.version ≤ before.version + 3)) ∧
    ∀ log m later x earlier args,
      GovernanceRun (deployedEnv h base timelock access) (ControllerMoves h) log m →
      log = later ++ x :: earlier → RelaxExecution h x args →
      ∃ p f, RelaxedAsProposed earlier x args p f := by
  refine ⟨fun a segment b hrun => ?_, ?_⟩
  · have hfresh : Register.Fresh (a.world.listing key) (b.world.listing key) := stretch_fresh hrun
    refine ⟨⟨hfresh.version, fun f => hfresh.lt⟩, fun f f' hf hf' hcleared => ?_, fun hquiet => ?_⟩
    · by_contra hnone
      push Not at hnone
      have hgrows := stretch_grows hrun (fun x hx args hexec => (hnone x hx).1 args hexec)
        fun x hx => (hnone x hx).2
      obtain ⟨f'', hf'', hle⟩ := hgrows f hf
      rw [hf'] at hf''
      obtain rfl := Option.some.inj hf''
      exact hcleared hle
    · have hspends := stretch_spends hrun (fun x hx => (hquiet x hx).1) fun x hx => (hquiet x hx).2
      have hroom : (a.world.listing key).room Flags.unset ≤ 3 := by
        unfold Register.room
        cases (a.world.listing key).value with
        | none => exact Nat.zero_le 3
        | some f => exact f.unset_le
      unfold Spends at hspends
      omega
  · rintro log m later x earlier args hrun rfl hx
    exact hrun.relaxed htimelock hx

namespace Sample

/-- A controller at address 200 that nothing outside answers. -/
def quietController : ControllerHost Unit where
  balance _ _ _ := 0
  allowance _ _ _ _ := 0
  transfer _ _ _ _ _ := .error .foreignTrap
  transferFrom _ _ _ _ _ _ := .error .foreignTrap
  pool := 201
  owner := none
  isWasmContract _ _ := false
  executeFlashLoan _ _ _ _ _ _ _ _ := .error .foreignTrap
  controller := 200
  price _ _ _ := .error .foreignTrap
  nftOwner _ _ := 0
  nftAssign _ _ _ := ()
  nftRelease _ _ := ()
  executeStrategy _ _ _ _ _ := .error .foreignTrap
  executeFlashPosition _ _ _ _ _ _ _ _ _ _ := .error .foreignTrap
  blendSubmit _ _ _ _ _ _ := .error .foreignTrap

/-- Asset 7 of hub 1 is listed in spoke 1, paused, at epoch 2. -/
def pausedListing : Deployment Unit :=
  let key : SpokeAssetKey := ⟨1, 1, 7⟩
  { system := { System.deployed () with
      store := { Governance.init with
        spokeAssets := SortedMap.empty.set key
          ⟨⟨7000, 8000, 500, 100, true, true⟩, true, false, false, 0, 0⟩
        spokeFlagsEpoch := SortedMap.empty.set key 2 } }
    timestamp := 0 }

/-- Unpausing it. -/
def unpauseListing : RelaxSpokeAssetFlagsArgs := ⟨1, ⟨1, 7⟩, 2, false, false, false⟩

def unpauseOperation : Operation Reference.OperationId :=
  ⟨200, "relax_spoke_asset_flags", unpauseListing.vals, .zero, 0⟩

def relaxCalls : List (SignedCall Reference.OperationId) :=
  [(100, [1], .deployController 1), (100, [1], .propose 1 (.relaxSpokeAssetFlags unpauseListing) 0),
    (120, [], .execute none unpauseOperation)]

end Sample

/-- The unpausing above goes back to its proposal. -/
theorem relaxation_law_sample : ∃ x earlier p f,
    GovernanceRun (deployedEnv Sample.quietController Reference.quietHost Reference.timelock
      Reference.access) (ControllerMoves Sample.quietController) (x :: earlier) x.after ∧
    RelaxExecution Sample.quietController x Sample.unpauseListing ∧
    RelaxedAsProposed earlier x Sample.unpauseListing p f := by
  have hreplay : (replay (deployedEnv Sample.quietController Reference.quietHost
      Reference.timelock Reference.access) Sample.pausedListing 1 20 100
      Sample.relaxCalls).toOption.map (fun r => r.1.head?.map fun x => x.event) =
      some (some (.call [] (.execute none Sample.unpauseOperation))) := by
    decide +kernel
  obtain ⟨x, earlier, hrun, hx⟩ :=
    replay_last (ControllerMoves Sample.quietController) hreplay
  have hexec : RelaxExecution Sample.quietController x Sample.unpauseListing :=
    ⟨[], none, Sample.unpauseOperation, hx, rfl, rfl, rfl⟩
  obtain ⟨p, f, hp⟩ := (relaxation_law Reference.timelock_lawful ⟨1, 1, 7⟩).2 _ _ [] x earlier _
    hrun rfl hexec
  exact ⟨x, earlier, p, f, hrun, hexec, hp⟩

end Lending.Gov
