import LendingXlm.Controller.StrategyFlows
import LendingXlm.Controller.Liquidation.Flows

/-!
# Every call balances

The calls on markets move no account, those on the configuration write nothing a total is read
from, and the flows keep the books: `ControllerCall.body_keeps`. By induction over a run the
invariant holds of every system that can be reached, and every exit any call meets is covered.
-/

namespace Lending

open Transaction Ctrl Invocation Books

variable {W : Type} {h : ControllerHost W} {timestamp : Nat} {start : System W}

/-! ## Configuration -/

/-- Limits an account may be filled up to. -/
def ControllerStore.Limited (st : ControllerStore) : Prop :=
  st.positionLimits.maxSupplyPositions ≤ positionLimitMax ∧
    st.positionLimits.maxBorrowPositions ≤ positionLimitMax

/-- `st'` has the accounts and the rows of `st`. -/
structure ControllerStore.Spares (st st' : ControllerStore) : Prop where
  metas : st'.metas = st.metas
  supply : st'.supplyPositions = st.supplyPositions
  debt : st'.borrowPositions = st.borrowPositions
  usage : st'.spokeUsage = st.spokeUsage
  limits : st.Limited → st'.Limited

theorem ControllerStore.Spares.booksBesides {st st' : ControllerStore} (hs : st.Spares st')
    {ids : List Nat} : st'.booksBesides ids = st.booksBesides ids := by
  unfold ControllerStore.booksBesides getSupplyPositions getDebtPositions
  rw [hs.metas, hs.supply, hs.debt]

theorem Balanced.setting {ids : List Nat} {rest : Books} {s : Invocation W} {st : ControllerStore}
    (hs : Balanced start ids rest s) (hst : s.store.Spares st) :
    Balanced start ids rest { s with store := st } := by
  have hwf := hs.wellFormed
  have hrec : Invocation.recorded { s with store := st } = s.recorded ∧
      System.recorded { s.toSystem with store := st } = s.toSystem.recorded :=
    Invocation.recorded_congr rfl hst.usage rfl
  refine ⟨⟨fun id owner m => ?_, ?_, ?_, hwf.fresh, hst.limits hwf.limits⟩,
    ⟨hs.evolves.counter, ?_⟩, ?_, ?_⟩
  · refine (hwf.sound id owner m).congr ?_ ?_
    · show (st.supplyPositions.get? id).getD .empty = _
      rw [hst.supply]
      rfl
    · show (st.borrowPositions.get? id).getD .empty = _
      rw [hst.debt]
      rfl
  · show ∀ id, st.metas.get? id = none → st.supplyPositions.get? id = none ∧
      st.borrowPositions.get? id = none
    rw [hst.metas, hst.supply, hst.debt]
    exact hwf.orphan
  · show ∀ id, st.metas.contains id = s.nft.tokens.contains id
    rw [hst.metas]
    exact hwf.live
  · show ∀ id < start.nft.nextTokenId, ∀ m, st.metas.get? id = some m → _
    rw [hst.metas]
    exact hs.evolves.metas
  · rw [hrec.1, hrec.2, hs.persisted]
  · show Invocation.recorded { s with store := st } = st.booksBesides ids + rest
    rw [hrec.1, hs.books, hst.booksBesides]

theorem Keeps.setting {ids : List Nat} {rest : Books} {f : ControllerStore → ControllerStore}
    (hf : ∀ st : ControllerStore, st.Spares (f st)) :
    Keeps (Balanced start ids rest) (Ctrl.modifyStore f : Ctrl W Unit)
      fun _ => Balanced start ids rest :=
  Keeps.modifyStore fun _ hs => Balanced.setting hs (hf _)

namespace Account

theorem setAccountDelegate_keeps {caller delegate : Address} {accountId : Nat} {add : Bool} :
    Keeps (Balanced start [] 0) (setAccountDelegate h caller accountId delegate add)
      fun _ => Balanced start [] 0 := by
  refine .read h 0 balanced_stable requireAccountOwner_reads fun _ =>
    .skip balanced_stable store_outward.quiet fun st => .ite (fun _ => .assert fun _ => ?_) fun _ => ?_
  · exact .ite (fun _ => .pure fun _ hs => hs) fun _ => .assert fun _ =>
      .setting fun _ => ⟨rfl, rfl, rfl, rfl, id⟩
  · split
    · exact .pure fun _ hs => hs
    · exact .ite (fun _ => .setting fun _ => ⟨rfl, rfl, rfl, rfl, id⟩)
        fun _ => .setting fun _ => ⟨rfl, rfl, rfl, rfl, id⟩

end Account

namespace Config

theorem setSpokeAsset_keeps {key : SpokeAssetKey} {config : SpokeAssetConfig} :
    Keeps (Balanced start [] 0) (setSpokeAsset key config : Ctrl W Unit)
      fun _ => Balanced start [] 0 :=
  .setting fun _ => ⟨rfl, rfl, rfl, rfl, id⟩

theorem bumpSpokeFlagsEpoch_keeps {key : SpokeAssetKey} :
    Keeps (Balanced start [] 0) (bumpSpokeFlagsEpoch key : Ctrl W Unit)
      fun _ => Balanced start [] 0 :=
  .skip balanced_stable store_outward.quiet fun _ => .assert fun _ =>
    .setting fun _ => ⟨rfl, rfl, rfl, rfl, id⟩

theorem requireRegistration_quiet {args : SpokeAssetArgs} {key : SpokeAssetKey}
    {mutation : SpokeAssetMutation} :
    QuietOnly (requireRegistration args key mutation : Ctrl W (Option SpokeAssetConfig)) := by
  refine .bind store_outward.quiet fun _ => .bind .lift fun _ => ?_
  cases mutation with
  | add => exact .bind .lift fun _ => .bind .lift fun _ => .pure
  | edit => exact .bind .lift fun _ => .bind .lift fun _ => .pure

theorem upsertSpokeAsset_keeps {args : SpokeAssetArgs} {mutation : SpokeAssetMutation} :
    Keeps (Balanced start [] 0) (upsertSpokeAsset args mutation : Ctrl W Unit)
      fun _ => Balanced start [] 0 := by
  refine .skip balanced_stable .lift fun _ => ?_
  generalize validateLiquidationFees args.liquidationFees = fees
  refine .skip balanced_stable .lift fun _ => .skip balanced_stable .lift fun _ =>
    .skip balanced_stable requireRegistration_quiet fun stored =>
    .skip balanced_stable .get fun _ => .skip balanced_stable .lift fun market =>
    .skip balanced_stable .lift fun _ => .skip balanced_stable .lift fun _ =>
    .skip balanced_stable .lift fun _ => .bind setSpokeAsset_keeps fun _ => ?_
  exact .ite (fun _ => bumpSpokeFlagsEpoch_keeps) fun _ => .pure fun _ hs => hs

theorem writeSpokeAssetFlags_keeps {key : SpokeAssetKey} {config : SpokeAssetConfig}
    {paused frozen noSeize : Bool} :
    Keeps (Balanced start [] 0)
      (writeSpokeAssetFlags key config paused frozen noSeize : Ctrl W Unit)
      fun _ => Balanced start [] 0 :=
  .bind setSpokeAsset_keeps fun _ => bumpSpokeFlagsEpoch_keeps

theorem setPositionLimits_keeps {limits : PositionLimits} :
    Keeps (Balanced start [] 0) (setPositionLimits limits : Ctrl W Unit)
      fun _ => Balanced start [] 0 :=
  .assert fun hok => .setting fun _ => ⟨rfl, rfl, rfl, rfl, fun _ => ⟨hok.1.2, hok.2.2⟩⟩

theorem createHub_keeps :
    Keeps (Balanced start [] 0) (createHub : Ctrl W Nat) fun _ => Balanced start [] 0 :=
  .skip balanced_stable store_outward.quiet fun _ => .assert fun _ =>
    .bind (.setting fun _ => ⟨rfl, rfl, rfl, rfl, id⟩) fun _ => .pure fun _ hs => hs

theorem addSpoke_keeps :
    Keeps (Balanced start [] 0) (addSpoke : Ctrl W Nat) fun _ => Balanced start [] 0 :=
  .skip balanced_stable store_outward.quiet fun _ => .assert fun _ =>
    .bind (.setting fun _ => ⟨rfl, rfl, rfl, rfl, id⟩) fun _ => .pure fun _ hs => hs

end Config

/-! ## Markets -/

/-- A position that is held is of a market the pool has. -/
theorem Balanced.listed {s : Invocation W} (hs : Balanced start [] 0 s) {id : Nat} {a : Account}
    (ha : Loaded id a s) {side : UsageSide} {market : HubAssetKey} (hk : market ∈ a.keysOf side) :
    s.pool.markets.get? market ≠ none := by
  intro hnone
  have hopen := hs.open ha List.not_mem_nil fun _ _ _ => le_rfl
  have hshares := hopen.positive.shares_pos hk
  have hle : a.shares side market ≤ a.books ⟨none, side, market⟩ := by
    have hposted : posting a.spokeId side market (a.shares side market) ≤ a.books :=
      hopen.positive.posting_le_books side
    simpa [posting, atPool] using hposted ⟨none, side, market⟩
  have hothers : 0 ≤ s.store.booksBesides [id] ⟨none, side, market⟩ :=
    hs.wellFormed.booksBesides_nonneg [id] _
  have hbooks := congrFun hopen.books ⟨none, side, market⟩
  simp only [Invocation.recorded, Pi.add_apply, poolBooks, rowBooks, hnone, Option.elim_none,
    Pi.zero_apply] at hbooks
  omega

/-- Markets may be added, as long as they have no shares. -/
theorem Balanced.pool_grown {s : Invocation W} {pool : PoolCtx W} (hs : Balanced start [] 0 s)
    (hbooks : poolBooks pool.markets = poolBooks s.pool.markets)
    (hdec : ∀ k, s.pool.markets.get? k ≠ none → pool.decimals k = s.pool.decimals k) :
    Balanced start [] 0 { s with pool } := by
  have hwf := hs.wellFormed
  have hrec : Invocation.recorded { s with pool } = s.recorded ∧
      System.recorded { s.toSystem with pool } = s.toSystem.recorded :=
    ⟨congrArg (· + _) hbooks, congrArg (· + _) hbooks⟩
  refine ⟨⟨fun id owner m => ⟨(hwf.sound id owner m).positive, fun side =>
    ⟨((hwf.sound id owner m).fits side).limit, ?_⟩⟩, hwf.orphan, hwf.live, hwf.fresh, hwf.limits⟩,
    hs.evolves.congr rfl rfl, hrec.1.trans (hs.persisted.trans hrec.2.symm), hrec.1.trans hs.books⟩
  intro hside k hk d hd
  refine ((hwf.sound id owner m).fits side).isolated hside k hk d ?_
  rw [← hdec k]
  · exact hd
  cases hget : s.store.metas.get? id with
  | some m' =>
    have ha : Loaded id (s.store.account id owner m') s := ⟨⟨m', hget, rfl⟩, rfl, rfl⟩
    have hk' : k ∈ (s.store.account id owner m').keysOf side := by
      cases side <;> exact hk
    exact hs.listed ha hk'
  | none =>
    obtain ⟨hsupply, hdebt⟩ := hwf.orphan id hget
    cases side with
    | supply =>
      obtain ⟨p, hp⟩ := SortedMap.mem_keys.mp (List.mem_toFinset.mp hk)
      have hempty : s.store.getSupplyPositions id = .empty := by
        rw [ControllerStore.getSupplyPositions, hsupply, Option.getD_none]
      have hp' : (s.store.getSupplyPositions id).get? k = some p := hp
      rw [hempty] at hp'
      cases hp'
    | borrow => cases hside

namespace Markets

open LiquidityPool

theorem poolUpdateIndexes_keeps {hubAssets : List HubAssetKey} :
    Keeps (Balanced start [] 0) (poolUpdateIndexes timestamp hubAssets : Ctrl W Unit)
      fun _ => Balanced start [] 0 := by
  refine .poolCall fun s pool _ hs hrun => ?_
  obtain ⟨pool1, hupdate, heq⟩ := Fallible.bind_ok hrun
  obtain rfl : pool1 = pool := congrArg Prod.fst (Except.ok.inj heq)
  refine hs.pool_still (Fallible.foldlM_inv (P := fun p : PoolCtx W =>
    poolBooks p.markets = poolBooks s.pool.markets ∧ p.decimals = s.pool.decimals)
    (fun p key p' _ hp hstep => ?_) ⟨rfl, rfl⟩ hupdate)
  obtain ⟨hbooks, hdec⟩ := (accrue_moved hstep).1.still
  exact ⟨hbooks.trans hp.1, hdec.trans hp.2⟩

theorem upgradeLiquidityPoolParams_keeps {hubAsset : HubAssetKey} {params : InterestRateModel} :
    Keeps (Balanced start [] 0)
      (upgradeLiquidityPoolParams timestamp hubAsset params : Ctrl W Unit)
      fun _ => Balanced start [] 0 := by
  refine .bind poolUpdateIndexes_keeps fun _ => .poolCall fun s pool _ hs hrun => ?_
  obtain ⟨pool1, hupdate, heq⟩ := Fallible.bind_ok hrun
  obtain rfl : pool1 = pool := congrArg Prod.fst (Except.ok.inj heq)
  exact hs.pool_still (updateParams_moved hupdate).1.still

theorem updateIndexes_keeps {hubAssets : List HubAssetKey} :
    Keeps (Balanced start [] 0) (updateIndexes timestamp hubAssets : Ctrl W Unit)
      fun _ => Balanced start [] 0 :=
  .skip balanced_stable (.bind .get fun _ => .lift) fun _ => poolUpdateIndexes_keeps

theorem claimRevenueForAsset_keeps {hubAsset : HubAssetKey} :
    Keeps (Balanced start [] 0) (claimRevenueForAsset h timestamp hubAsset)
      fun _ => Balanced start [] 0 := by
  refine .skip balanced_stable store_outward.quiet fun _ => .unwrap fun _ _ =>
    .skip balanced_stable world_outward.quiet fun _ => .bind (Q := fun _ => Balanced start [] 0)
    (.poolCall fun s pool r hs hrun => hs.pool_still (Revenue.apply_moved hrun).1.still) fun _ => ?_
  exact .skip balanced_stable Payments.balanceDeltaSince_outward.quiet fun _ => .ite
    (fun _ => .skip balanced_stable Payments.transferAmountMeasured_outward.quiet fun _ =>
      .pure fun _ hs => hs) fun _ => .pure fun _ hs => hs

theorem claimRevenue_keeps {hubAssets : List HubAssetKey} :
    Keeps (Balanced start [] 0) (claimRevenue h timestamp hubAssets)
      fun _ => Balanced start [] 0 :=
  .skip balanced_stable (.bind .get fun _ => .lift) fun _ => Keeps.foldlM
    (P := fun _ _ => Balanced start [] 0) (fun _ _ _ _ => .bind claimRevenueForAsset_keeps fun _ =>
      .pure fun _ hs => hs) []

theorem recapitalize_keeps {payer : Address} {hubAsset : HubAssetKey} {amount : Int} :
    Keeps (Balanced start [] 0) (recapitalize h timestamp payer hubAsset amount)
      fun _ => Balanced start [] 0 :=
  .skip balanced_stable (.bind .get fun _ => .lift) fun _ => .result fun _ _ =>
    .skip balanced_stable Payments.transferAmountMeasured_outward.quiet fun _ =>
    .poolCall fun _ _ _ hs hrun => hs.pool_still (Recapitalize.apply_moved hrun).1.still

/-- **A new market.** It has no shares, and nobody holds it yet. -/
theorem createLiquidityPool_keeps {hubId : Nat} {asset : Address} {params : MarketParams} :
    Keeps (Balanced start [] 0) (createLiquidityPool timestamp hubId asset params : Ctrl W Unit)
      fun _ => Balanced start [] 0 := by
  refine .skip balanced_stable (.bind store_outward.quiet fun _ => .lift) fun _ => .assert fun _ =>
    .poolCall fun s pool _ hs hrun => ?_
  obtain ⟨pool1, hcreate, heq⟩ := Fallible.bind_ok hrun
  obtain rfl : pool1 = pool := congrArg Prod.fst (Except.ok.inj heq)
  obtain ⟨m, hm, heq⟩ := Fallible.bind_ok hcreate
  obtain rfl := Except.ok.inj heq
  obtain ⟨-, hnone, now, -, rfl⟩ := MarketOps.create_ok hm
  refine hs.pool_grown ?_ fun k hk => ?_
  · funext ⟨scope, side, market⟩
    cases scope with
    | some id => rfl
    | none =>
      unfold poolBooks
      dsimp only
      rw [SortedMap.get?_set]
      split
      · rename_i hk
        rw [hk, hnone]
        cases side <;> rfl
      · rfl
  · unfold PoolCtx.decimals
    dsimp only
    rw [SortedMap.get?_set_ne]
    rintro rfl
    exact hk hnone

end Markets

/-! ## Calls -/

open Positions Liquidation Strategies Config Governance

theorem Governance.whenNotPaused_keeps {α : Type} {x : Ctrl W α} {Q : α → Invocation W → Prop}
    (hx : Keeps (Balanced start [] 0) x Q) : Keeps (Balanced start [] 0) (whenNotPaused x) Q :=
  .skip balanced_stable store_outward.quiet fun _ => .assert fun _ => hx

/-- What a call returns is dropped. -/
theorem Keeps.drop {α : Type} {x : Ctrl W α}
    (hx : Keeps (Balanced start [] 0) x fun _ => Balanced start [] 0) :
    Keeps (Balanced start [] 0) (do let _ ← x : Ctrl W Unit) fun _ => Balanced start [] 0 :=
  .bind hx fun _ => .pure fun _ hs => hs

/-- **Every call keeps the books.** -/
theorem ControllerCall.body_keeps (call : ControllerCall) :
    Keeps (Balanced start [] 0) (call.body h timestamp) fun _ => Balanced start [] 0 := by
  cases call with
  | supply => exact whenNotPaused_keeps processSupply_keeps.drop
  | borrow => exact whenNotPaused_keeps processBorrow_keeps
  | withdraw => exact processWithdraw_keeps.drop
  | repay => exact processRepay_keeps
  | liquidate => exact processLiquidation_keeps.drop
  | cleanBadDebt => exact processCleanBadDebt_keeps
  | forceSocializeBadDebt => exact processForceSocializeBadDebt_keeps
  | flashLoan => exact whenNotPaused_keeps processFlashLoan_keeps
  | flashPosition => exact whenNotPaused_keeps processFlashPosition_keeps.drop
  | multiply => exact whenNotPaused_keeps processMultiply_keeps.drop
  | swapDebt => exact whenNotPaused_keeps processSwapDebt_keeps
  | swapCollateral => exact whenNotPaused_keeps processSwapCollateral_keeps
  | repayDebtWithCollateral => exact whenNotPaused_keeps processRepayDebtWithCollateral_keeps
  | migrateFromBlend => exact whenNotPaused_keeps processMigrateBlend_keeps.drop
  | updateIndexes => exact whenNotPaused_keeps Markets.updateIndexes_keeps
  | claimRevenue => exact whenNotPaused_keeps Markets.claimRevenue_keeps.drop
  | updateAccountThreshold => exact whenNotPaused_keeps Risk.updateAccountThreshold_keeps
  | recapitalize => exact Markets.recapitalize_keeps.drop
  | addDelegate => exact whenNotPaused_keeps Account.setAccountDelegate_keeps
  | removeDelegate => exact Account.setAccountDelegate_keeps
  | createLiquidityPool => exact Markets.createLiquidityPool_keeps
  | upgradeLiquidityPoolParams => exact Markets.upgradeLiquidityPoolParams_keeps
  | setSwapAggregator | setPriceAggregator | setAccumulator | setPositionManager
  | setBlendPoolApproval =>
    unfold ControllerCall.body
    exact .setting fun _ => ⟨rfl, rfl, rfl, rfl, id⟩
  | setPositionLimits => exact setPositionLimits_keeps
  | setMinBorrowCollateralUsd =>
    exact .assert fun _ => .setting fun _ => ⟨rfl, rfl, rfl, rfl, id⟩
  | createHub => exact createHub_keeps.drop
  | addSpoke => exact addSpoke_keeps.drop
  | removeSpoke =>
    exact .skip balanced_stable store_outward.quiet fun _ => .result fun _ _ => .assert fun _ =>
      .setting fun _ => ⟨rfl, rfl, rfl, rfl, id⟩
  | setSpokeLiquidationCurve =>
    exact .result fun _ _ => .skip balanced_stable store_outward.quiet fun _ => .result fun _ _ =>
      .setting fun _ => ⟨rfl, rfl, rfl, rfl, id⟩
  | addAssetToSpoke | editAssetInSpoke => exact upsertSpokeAsset_keeps
  | setSpokeAssetFlags =>
    exact .skip balanced_stable store_outward.quiet fun _ => .unwrap fun _ _ => .result fun _ _ =>
      .assert fun _ => writeSpokeAssetFlags_keeps
  | relaxSpokeAssetFlags =>
    exact .skip balanced_stable store_outward.quiet fun _ => .unwrap fun _ _ => .assert fun _ =>
      writeSpokeAssetFlags_keeps
  | removeAssetFromSpoke =>
    exact .skip balanced_stable store_outward.quiet fun _ => .assert fun _ => .assert fun _ =>
      .setting fun _ => ⟨rfl, rfl, rfl, rfl, id⟩
  | pause | unpause =>
    exact .skip balanced_stable store_outward.quiet fun _ => .assert fun _ =>
      .setting fun _ => ⟨rfl, rfl, rfl, rfl, id⟩

/-! ## Runs -/

/-- The invariant between two calls. -/
def System.InBalance (start s : System W) : Prop := Balanced start [] 0 { toSystem := s, cache := {} }

theorem System.InBalance.restart {s : System W} (hs : start.InBalance s) : s.InBalance s :=
  ⟨hs.wellFormed, .refl, hs.persisted, hs.books⟩

theorem Balanced.inBalance {s : Invocation W} (hs : Balanced start [] 0 s) :
    start.InBalance s.toSystem :=
  ⟨hs.wellFormed, hs.evolves, rfl, hs.persisted.symm.trans hs.books⟩

/-- A call starts without exits. -/
theorem System.noExits {s : System W} :
    Invocation.ExitsCovered { toSystem := s, cache := {} } :=
  fun _ hr => absurd hr List.not_mem_nil

theorem ControllerCall.exec_inBalance {call : ControllerCall} {s s' : System W}
    (hs : start.InBalance s) (hexec : call.exec h timestamp s = .ok s') : start.InBalance s' := by
  unfold ControllerCall.exec at hexec
  split at hexec
  · rename_i u t hrun
    cases hexec
    exact (call.body_keeps.ok System.noExits hs hrun).2.inBalance
  · cases hexec

/-- Whichever way it ends, a call met only exits that were covered. -/
theorem ControllerCall.ending_covered {call : ControllerCall} {s : System W}
    (hs : start.InBalance s) : (call.ending h timestamp s).ExitsCovered :=
  call.body_keeps.final System.noExits hs

theorem ControllerStep.inBalance {p p' : System W × Nat} (hstep : ControllerStep h p p')
    (hs : start.InBalance p.1) : start.InBalance p'.1 := by
  cases hstep with
  | call _ _ hexec => exact ControllerCall.exec_inBalance hs hexec
  | @outside s _ w =>
    exact balanced_stable { toSystem := s, cache := {} } _ ⟨rfl, rfl, rfl, .inl rfl⟩ hs

theorem ControllerSteps.inBalance {p p' : System W × Nat} (hsteps : ControllerSteps h p p')
    (hs : start.InBalance p.1) : start.InBalance p'.1 := by
  induction hsteps with
  | refl => exact hs
  | tail _ hstep ih => exact hstep.inBalance ih

/-- Nothing is deployed with shares. -/
theorem System.deployed_inBalance (w : W) : (deployed w).InBalance (deployed w) := by
  refine ⟨⟨fun _ _ _ => Account.sound_empty rfl rfl, fun _ _ => ⟨rfl, rfl⟩, fun _ => rfl, nofun,
    ⟨le_rfl, le_rfl⟩⟩, .refl, rfl, ?_⟩
  funext ⟨scope, side, market⟩
  cases scope <;> rfl

theorem System.Reachable.inBalance {s : System W} (hs : s.Reachable h) : s.InBalance s := by
  obtain ⟨w, t, t', hsteps⟩ := hs
  exact (hsteps.inBalance (System.deployed_inBalance w)).restart

end Lending
