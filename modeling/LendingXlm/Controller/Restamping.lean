import LendingXlm.Controller.Health
import LendingXlm.Controller.Liquidation.Refusal

/-!
# Restamping

Supply, withdrawal, borrowing and the public threshold update all refresh the risk parameters
stamped on an account, each a different part of them, leg by leg. At fixed prices and indexes none
of them makes a healthy account liquidatable.

* `refreshSupplyRiskParams_gated`: a worse tuple is taken only at the floor;
* `mergeSupplyLeg_leg`, `mergeWithdrawLeg_leg`: merging what the pool returned is one leg;
* `ControllerCall.body_refreshes`: a refreshing call moves every account along legs;
* `restamping_keeps_health`: so it goes over whole runs.
-/

namespace Lending

open Transaction Ctrl Invocation Marks

variable {W : Type} {h : ControllerHost W} {timestamp : Nat} {v : Marks}

/-! ## Fixed marks -/

/-- The marks are the prices the aggregator reports and the indexes the pool has. -/
structure Marks.Holds (v : Marks) (h : ControllerHost W) (timestamp : Nat) (pool : PoolCtx W) :
    Prop where
  lawful : v.Lawful
  price : ∀ asset feed, h.Reported asset feed → feed.price = v.price asset
  index : ∀ market index, pool.CurrentIndex timestamp market index → v.index market = index

/-- States in which whatever is quoted, now or later, is at the marks. -/
structure Marks.Steady (v : Marks) (h : ControllerHost W) (timestamp : Nat)
    (P : Invocation W → Prop) : Prop where
  lawful : v.Lawful
  keep : ∀ s s', Idles h timestamp s s' → P s → P s'
  quoted : ∀ s, P s → s.Quoted h timestamp
  agreed : ∀ s, P s → ∀ markets, s.Agreed timestamp v markets

section

variable {st : ControllerStore} {nft : PositionNft} {base pool : PoolCtx W}

theorem Marks.Holds.agreed (hv : v.Holds h timestamp base) {s : Invocation W}
    (hs : s.Working h timestamp st nft base) (markets : List HubAssetKey) :
    s.Agreed timestamp v markets :=
  ⟨fun market _ index hcur => hv.index market index (hs.carries.index.mp hcur),
    fun _ _ feed hfeed => hv.price _ feed (hs.quoted.price hfeed)⟩

theorem Marks.Holds.working (hv : v.Holds h timestamp base) :
    v.Steady h timestamp (Working h timestamp st nft base) :=
  ⟨hv.lawful, fun _ _ hi hs => hi.working hs, fun _ hs => hs.quoted, fun _ hs => hv.agreed hs⟩

theorem Marks.Holds.workingOn (hv : v.Holds h timestamp base) :
    v.Steady h timestamp (WorkingOn h timestamp st nft base pool) :=
  ⟨hv.lawful, fun _ _ hi hs => hi.workingOn hs, fun _ hs => hs.quoted,
    fun _ hs => hv.agreed hs.toWorking⟩

end

/-! ## Refreshing one position -/

namespace Risk

variable {P : Invocation W → Prop} {a : Account} {market : HubAssetKey} {p : AccountPosition}
  {config : AssetConfig}

/-- What is computed is the health factor at the marks. -/
theorem calculateAccountRiskTotals_health (hP : v.Steady h timestamp P)
    {supply : SortedMap HubAssetKey AccountPosition} {debt : SortedMap HubAssetKey DebtPosition}
    (hd : Owes debt) :
    Within P (calculateAccountRiskTotals h timestamp supply debt)
      fun totals => totals.healthFactor = v.healthFactor supply debt := by
  intro s hs
  cases hrun : calculateAccountRiskTotals h timestamp supply debt s with
  | error e s' => trivial
  | ok totals s' =>
    have hends := calculateAccountRiskTotals_totals.ok (hP.quoted s hs) hrun
    have hs' := hP.keep s s' (calculateAccountRiskTotals_reads.idles.ok hrun) hs
    exact ⟨hs', totals_healthFactor hP.lawful hd (hends.2 v (hP.agreed s' hs' _))⟩

theorem clearsMinHf_health (hP : v.Steady h timestamp P) (hd : Owes a.borrowPositions)
    {newLt : Nat} :
    Within P (clearsMinHf h timestamp a market p newLt) fun clears => clears = true →
      thresholdUpdateMinHfRaw ≤ v.healthFactor
        (a.supplyPositions.set market { p with liquidationThreshold := newLt })
        a.borrowPositions :=
  .bind (calculateAccountRiskTotals_health hP hd) fun _ htotals => .pure fun hclears =>
    htotals ▸ of_decide_eq_true hclears

/-- **The gate.** A worse tuple is taken only if the account then stands at the floor. -/
theorem applyGatedLiquidationParams_gated (hP : v.Steady h timestamp P)
    (hd : Owes a.borrowPositions) :
    Within P (applyGatedLiquidationParams h timestamp a market p config) fun p' =>
      p'.scaledAmount = p.scaledAmount ∧ (p.Worsens p' → thresholdUpdateMinHfRaw ≤
        v.healthFactor (a.supplyPositions.set market p') a.borrowPositions) := by
  have hself : ¬ p.Worsens p := by simp [AccountPosition.Worsens]
  refine .bind (Q := fun refused => refused = false → favorsLiquidator p config = true →
    thresholdUpdateMinHfRaw ≤ v.healthFactor (a.supplyPositions.set market
      { p with liquidationThreshold := config.liquidationThreshold }) a.borrowPositions) ?_
    fun refused hrefused => .ite (fun _ => .pure ⟨rfl, fun hw => absurd hw hself⟩)
    fun hkept => .pure ⟨rfl, fun hw => ?_⟩
  · refine .ite (fun _ => .bind (clearsMinHf_health hP hd) fun clears hclears => .pure ?_)
      fun hnot => .pure fun _ hfavors => ?_
    · intro hkept _
      exact hclears (by simpa using hkept)
    · have hfree : a.debtFree = true := by
        by_contra hdebt
        exact hnot ⟨hfavors, hdebt⟩
      rw [healthFactor_free hfree]
      decide
  · have hfavors : favorsLiquidator p config = true := decide_eq_true hw
    refine (hrefused (by simpa using hkept) hfavors).trans (le_of_eq ?_)
    exact healthFactor_set_congr rfl rfl

/-- A refresh leaves the shares alone, and takes a worse tuple only at the floor. -/
theorem refreshSupplyRiskParams_gated (hP : v.Steady h timestamp P) (hd : Owes a.borrowPositions)
    {scope : RiskRefreshScope} :
    Within P (refreshSupplyRiskParams h timestamp a market p config scope) fun p' =>
      p'.scaledAmount = p.scaledAmount ∧ (p.Worsens p' → scope = .fullTuple ∧
        thresholdUpdateMinHfRaw ≤
          v.healthFactor (a.supplyPositions.set market p') a.borrowPositions) := by
  refine .ite (fun hfull => Spec.post (applyGatedLiquidationParams_gated hP hd) fun p' hp' =>
    ⟨hp'.1, fun hw => ⟨hfull, hp'.2 hw⟩⟩) fun _ => .pure ⟨rfl, fun hw => ?_⟩
  simp [AccountPosition.Worsens] at hw

end Risk

/-! ## Merging one leg -/

namespace Positions

variable {P : Invocation W → Prop} {st : ControllerStore} {nft : PositionNft}
  {base pool : PoolCtx W} {a : Account} {moves : Int → Int → Prop}

/-- A refreshed position is written as one leg. -/
theorem updateOrRemoveSupplyPosition_leg {market : HubAssetKey} {p p' : AccountPosition}
    (hnonneg : 0 ≤ p'.scaledAmount)
    (hmoves : moves (a.shares .supply market) p'.scaledAmount)
    (hp : ∀ q, a.supplyPositions.get? market = some q → p = { q with scaledAmount := p.scaledAmount })
    (hp' : p.Worsens p' → thresholdUpdateMinHfRaw ≤
      v.healthFactor (a.supplyPositions.set market p') a.borrowPositions) :
    v.Leg moves a.borrowPositions a.supplyPositions
      (a.updateOrRemoveSupplyPosition market p').supplyPositions := by
  rw [Account.updateOrRemoveSupplyPosition_eq]
  refine .write hnonneg hmoves fun q hget hworse => ?_
  rw [healthFactor_updateOrRemove]
  refine hp' ?_
  rw [hp q hget]
  exact hworse

theorem mergeSupplyLeg_leg {action : PoolAction} {result : PoolPositionMutation}
    (hv : v.Holds h timestamp base) (hd : Owes a.borrowPositions)
    (hcur : pool.CurrentIndex timestamp action.hubAsset result.marketIndex)
    (hnonneg : 0 ≤ result.position.scaledAmount)
    (hmoves : moves (a.shares .supply action.hubAsset) result.position.scaledAmount) :
    Within (WorkingOn h timestamp st nft base pool) (mergeSupplyLeg h timestamp a action result)
      fun b => a.Becomes .supply action.hubAsset result.position.scaledAmount b ∧
        v.Leg moves a.borrowPositions a.supplyPositions b.supplyPositions := by
  refine .idleOn Context.requireSpokeAsset_reads.idles fun config =>
    .bind (Context.putMarketIndex_within hcur) fun _ _ =>
    .bind (Risk.refreshSupplyRiskParams_gated hv.workingOn hd) fun position hposition =>
    .idleOn applyLegUsage_idles fun _ => .pure ?_
  obtain ⟨hscaled, hgate⟩ := hposition
  have hscaled' : position.scaledAmount = result.position.scaledAmount := hscaled
  refine ⟨hscaled' ▸ a.updateOrRemoveSupplyPosition_becomes action.hubAsset position,
    updateOrRemoveSupplyPosition_leg (hscaled' ▸ hnonneg) (hscaled' ▸ hmoves) (fun q hget => ?_)
      fun hw => (hgate hw).2⟩
  rw [Account.getOrCreateSupplyPosition, hget]
  rfl

theorem mergeWithdrawLeg_leg {market : HubAssetKey} {outcome : LegOutcome}
    (hv : v.Holds h timestamp base) (hd : Owes a.borrowPositions)
    (hcur : pool.CurrentIndex timestamp market outcome.marketIndex)
    (hnonneg : 0 ≤ outcome.newScaled)
    (hmoves : moves (a.shares .supply market) outcome.newScaled) :
    Within (WorkingOn h timestamp st nft base pool)
      (mergeWithdrawLeg h timestamp a market .normal outcome) fun b =>
        a.Becomes .supply market outcome.newScaled b ∧
          v.Leg moves a.borrowPositions a.supplyPositions b.supplyPositions := by
  refine .idleOn legMayRestampRiskParams_reads.idles fun _ => .unwrap fun position hget =>
    .bind (Context.putMarketIndex_within hcur) fun _ _ => .idleOn applyLegUsage_idles fun _ =>
    .ite (fun _ => .idleOn Context.requireSpokeAsset_reads.idles fun config =>
      .bind (Risk.refreshSupplyRiskParams_gated hv.workingOn hd) fun position' hposition' =>
      .pure ?_) fun _ => .pure ?_
  · obtain ⟨hscaled, hgate⟩ := hposition'
    have hscaled' : position'.scaledAmount = outcome.newScaled := hscaled
    refine ⟨hscaled' ▸ a.updateOrRemoveSupplyPosition_becomes market position',
      updateOrRemoveSupplyPosition_leg (hscaled' ▸ hnonneg) (hscaled' ▸ hmoves)
        (fun q hq => ?_) fun hw => (hgate hw).2⟩
    rw [hget, Option.some.injEq] at hq
    rw [← hq]
  · have hbecomes := a.updateOrRemoveSupplyPosition_becomes market
      { position with scaledAmount := outcome.newScaled }
    refine ⟨hbecomes, updateOrRemoveSupplyPosition_leg
      (p := { position with scaledAmount := outcome.newScaled }) hnonneg hmoves (fun q hq => ?_)
      fun hworse => ?_⟩
    · rw [hget, Option.some.injEq] at hq
      rw [← hq]
    · simp [AccountPosition.Worsens] at hworse

/-! ## Batches -/

/-- A loop over markets, each of which is visited once: a visit finds the shares the account had
before the loop. -/
theorem forEachLeg_legs {E R : Type} {entries : List E} {results : List R}
    {f : Account → E × R → Ctrl W Account} (market : E × R → HubAssetKey) (new : E × R → Int)
    (hnodup : ((entries.zip results).map market).Nodup)
    (hmoves : ∀ e ∈ entries.zip results, moves (a.shares .supply (market e)) (new e))
    (hf : ∀ b e, e ∈ entries.zip results → b.borrowPositions = a.borrowPositions →
      moves (b.shares .supply (market e)) (new e) →
      Within P (f b e) fun b' => b.Becomes .supply (market e) (new e) b' ∧
        v.Leg moves b.borrowPositions b.supplyPositions b'.supplyPositions) :
    Within P (forEachLeg entries results f a) fun b =>
      a.SameBesides .supply b ∧ v.Legs moves a.borrowPositions a.supplyPositions b.supplyPositions := by
  refine .assert fun _ => ?_
  have hloop := Ends.foldlM (l := entries.zip results) (f := f) (T := fun _ => True)
    (P := fun b rest s => P s ∧ (rest.map market).Nodup ∧
      (∀ e ∈ rest, moves (b.shares .supply (market e)) (new e)) ∧ a.SameBesides .supply b ∧
      v.Legs moves a.borrowPositions a.supplyPositions b.supplyPositions) ?_ a
  · exact hloop.conseq (fun s hs => ⟨hs, hnodup, hmoves, .refl, .refl⟩)
      fun b s hs => ⟨hs.1, hs.2.2.2⟩
  · rintro b e rest he s ⟨hs, hnd, hmv, hbes, hlegs⟩
    rw [List.map_cons, List.nodup_cons] at hnd
    have hdebt : b.borrowPositions = a.borrowPositions := hbes
    have hstep := hf b e he hdebt (hmv e List.mem_cons_self) s hs
    cases hrun : f b e s with
    | error e s' => trivial
    | ok b' s' =>
      rw [hrun] at hstep
      obtain ⟨hs', hb, hleg⟩ := hstep
      refine ⟨hs', hnd.2, fun e' he' => ?_, hbes.trans hb.besides, hlegs.tail (hdebt ▸ hleg)⟩
      rw [hb.shares_ne]
      · exact hmv e' (List.mem_cons_of_mem _ he')
      · exact fun heq => hnd.1 (heq ▸ List.mem_map_of_mem he')

end Positions

/-- What every leg of a batch returns. -/
theorem Ops.runBatch_results {E : Type} {k : E → HubAssetKey} {unique : Bool}
    {leg : PoolCtx W → E → Result (PoolCtx W × PoolPositionMutation)}
    {R : E → PoolPositionMutation → Prop}
    (hleg : ∀ {s s' e r}, MarketsRun timestamp s.markets → leg s e = .ok (s', r) →
      R e r ∧ MarketsStep timestamp s.markets s'.markets)
    {entries : List E} {seen : List HubAssetKey} {s s' : PoolCtx W}
    {rs : List PoolPositionMutation} (hs : MarketsRun timestamp s.markets)
    (hrun : runBatch k unique leg seen s entries = .ok (s', rs)) :
    ∀ e ∈ entries.zip rs, R e.1 e.2 := by
  induction entries generalizing s seen rs with
  | nil => exact fun e he => by simp at he
  | cons e entries ih =>
    obtain ⟨s1, r, rs1, h1, -, hrest, rfl⟩ := runBatch_cons hrun
    obtain ⟨hr, hstep⟩ := hleg hs h1
    rw [List.zip_cons_cons]
    exact List.forall_mem_cons.mpr ⟨hr, ih (hs.steps (.single hstep)) hrest⟩

/-- A supply takes no shares away. -/
theorem Supply.leg_grows {s s' : PoolCtx W} {action : PoolAction} {r : PoolPositionMutation}
    (hrun : MarketsRun timestamp s.markets)
    (hleg : Supply.leg timestamp s action = .ok (s', r)) :
    0 ≤ action.position.scaledAmount ∧
      action.position.scaledAmount ≤ r.position.scaledAmount := by
  unfold Supply.leg at hleg
  simp only [Fallible.bind_ok_iff, Fallible.pure_ok_iff, Prod.mk.injEq] at hleg
  obtain ⟨⟨cache, mutation⟩, happly, -, rfl⟩ := hleg
  obtain ⟨c, minted, hc, hamount, hpos, -, hminted, -, -, -, -, rfl, rfl⟩ :=
    Supply.apply_ok happly
  obtain ⟨m, hget⟩ : ∃ m, s.markets.get? action.hubAsset = some m := by
    obtain ⟨m, -, hget, -⟩ := Ops.syncedMarket_ok hc
    exact ⟨m, hget⟩
  rw [hget] at hc
  obtain ⟨t, -, trace, hmrun⟩ := hrun action.hubAsset m hget
  have hsound := syncedMarket_sound hmrun.sound.1 hc
  obtain ⟨-, -, rfl⟩ :=
    (calculateScaledSupply_ok_iff hsound.decimals_le hsound.supplyIndex_pos).mp hminted
  have hmint : 0 ≤ action.amount * assetUnit c.params.assetDecimals * ray / c.supplyIndex :=
    Rounding.floor_nonneg hsound.supplyIndex_pos
      (mul_nonneg (mul_nonneg hamount (assetUnit_pos _).le) ray_pos.le)
  exact ⟨hpos, le_add_of_nonneg_right hmint⟩

theorem Borrow.apply_nonneg {s s' : PoolCtx W} {receiver : Address} {action : PoolAction}
    {r : PoolPositionMutation}
    (hleg : Borrow.apply h.toPoolHost timestamp receiver s action = .ok (s', r)) :
    0 ≤ r.position.scaledAmount := by
  unfold Borrow.apply at hleg
  simp only [Fallible.bind_ok_iff, Fallible.pure_ok_iff, Prod.mk.injEq] at hleg
  obtain ⟨o, hacc, world, -, -, rfl⟩ := hleg
  obtain ⟨c, minted, -, -, hpos, -, -, hminted, -, -, -, hmut⟩ := Borrow.accounting_ok hacc
  rw [hmut]
  exact add_nonneg hpos hminted.le

/-- A withdrawal burns no more than there is. -/
theorem Withdraw.apply_shrinks {s s' : PoolCtx W} {receiver : Address} {liq : Bool}
    {entry : PoolWithdrawEntry} {r : PoolPositionMutation}
    (hleg : Withdraw.apply h.toPoolHost timestamp receiver liq s entry = .ok (s', r)) :
    0 ≤ r.position.scaledAmount ∧
      r.position.scaledAmount ≤ entry.action.position.scaledAmount := by
  unfold Withdraw.apply at hleg
  obtain ⟨o, hacc, hleg⟩ := Fallible.bind_ok hleg
  obtain ⟨c, burned, gross, c1, -, -, -, -, -, -, hburned, hle, -, -, -, -, -, -, hmut⟩ :=
    Withdraw.accounting_ok hacc
  have hr : r = o.mutation := by
    split at hleg
    · simp only [Fallible.pure_ok_iff, Prod.mk.injEq] at hleg
      exact hleg.2.symm
    · simp only [Fallible.bind_ok_iff, Fallible.pure_ok_iff, Prod.mk.injEq] at hleg
      obtain ⟨world, -, -, rfl⟩ := hleg
      rfl
  rw [hr, hmut]
  show 0 ≤ entry.action.position.scaledAmount - burned ∧
    entry.action.position.scaledAmount - burned ≤ entry.action.position.scaledAmount
  omega

/-! ## Flows up to their gates -/

namespace Positions

variable {st : ControllerStore} {nft : PositionNft} {base : PoolCtx W} {a : Account}

/-- What a deposit merges: each market once, at its current index, with its shares or more. -/
structure Deposited (timestamp : Nat) (pool : PoolCtx W) (a : Account) (entries : List PoolAction)
    (results : List PoolPositionMutation) : Prop where
  nodup : ((entries.zip results).map fun e => e.1.hubAsset).Nodup
  current : ∀ e ∈ entries.zip results, pool.CurrentIndex timestamp e.1.hubAsset e.2.marketIndex
  grows : ∀ e ∈ entries.zip results, 0 ≤ a.shares .supply e.1.hubAsset ∧
    a.shares .supply e.1.hubAsset ≤ e.2.position.scaledAmount

/-- A deposit is as good as the merging of what it brought. -/
theorem processDeposit_merges {Q : Account → Prop} {caller : Address}
    {aggregated : List HubPayment}
    (hmerge : ∀ pool entries results, Deposited timestamp pool a entries results →
      Within (WorkingOn h timestamp st nft base pool) (forEachLeg entries results
        (fun account leg => mergeSupplyLeg h timestamp account leg.1 leg.2) a) Q) :
    Within (Working h timestamp st nft base) (processDeposit h timestamp caller a aggregated) Q := by
  refine .idle validatePositionEntryGates_reads.idles fun _ =>
    .idle Context.fetchPrices_reads.idles fun _ => .bind (.loop (I := fun entries =>
      ∀ e ∈ entries, e.position.scaledAmount = a.shares .supply e.hubAsset)
      (fun entries payment _ hentries => ?_) [] fun e he => absurd he List.not_mem_nil)
    fun entries hentries => Ctrl.poolCall_within fun {pool pool' results} hrun hcall => ?_
  · refine .idle Context.requireSpokeAsset_reads.idles fun config =>
      .idle Payments.transferAmountMeasured_outward.idles fun _ => .pure fun e he => ?_
    rcases List.mem_append.mp he with he | he
    · exact hentries e he
    · rw [List.mem_singleton.mp he]
      exact Account.scaled_getOrCreateSupplyPosition
  · obtain ⟨hcarries, hcur⟩ := Ops.runBatch_ranAt (k := PoolAction.hubAsset)
      (fun hleg => ⟨Supply.leg_ranAt hleg, (Supply.leg_moved hleg).1.step⟩) hrun hcall
    obtain ⟨-, -, hnodup, -⟩ := Ops.runBatch_books Supply.leg_posts hcall
    have hgrows := Ops.runBatch_results
      (R := fun action r => 0 ≤ action.position.scaledAmount ∧
        action.position.scaledAmount ≤ r.position.scaledAmount)
      (fun hrun hleg => ⟨Supply.leg_grows hrun hleg, (Supply.leg_moved hleg).1.step⟩) hrun hcall
    refine ⟨hcarries, hmerge pool' entries results ⟨hnodup, hcur, fun e he => ?_⟩⟩
    rw [← hentries e.1 (List.of_mem_zip he).1]
    exact hgrows e he

/-- **Deposits.** They only add shares. -/
theorem processDeposit_legs (hv : v.Holds h timestamp base) (hd : Owes a.borrowPositions)
    {caller : Address} {aggregated : List HubPayment} :
    Within (Working h timestamp st nft base) (processDeposit h timestamp caller a aggregated)
      fun b => a.SameBesides .supply b ∧
        v.Legs (· ≤ ·) a.borrowPositions a.supplyPositions b.supplyPositions :=
  processDeposit_merges fun _ _ _ hdeposited => forEachLeg_legs (fun e => e.1.hubAsset)
    (fun e => e.2.position.scaledAmount) hdeposited.nodup
    (fun e he => (hdeposited.grows e he).2) fun _ e he hdebt hmoves =>
    mergeSupplyLeg_leg hv (hdebt ▸ hd) (hdeposited.current e he)
      ((hdeposited.grows e he).1.trans (hdeposited.grows e he).2) hmoves

/-- Borrowed shares are minted onto what is owed. -/
theorem settleBorrow_positive (ha : a.Positive) {recipient : Address}
    {aggregated : List HubPayment} :
    Within (Working h timestamp st nft base) (settleBorrow h timestamp a recipient aggregated)
      fun b => a.SameBesides .borrow b ∧ b.Positive := by
  refine Ctrl.poolCall_within fun {pool pool' results} hrun hcall => ?_
  obtain ⟨hcarries, hcur⟩ := Ops.runBatch_ranAt (k := PoolAction.hubAsset)
    (fun hleg => ⟨Borrow.apply_ranAt hleg, (Borrow.apply_moved hleg).1.step⟩) hrun hcall
  have hgrows := Ops.runBatch_results (R := fun _ r => 0 ≤ r.position.scaledAmount)
    (fun _ hleg => ⟨Borrow.apply_nonneg hleg, (Borrow.apply_moved hleg).1.step⟩) hrun hcall
  refine ⟨hcarries, .assert fun _ => .loop (I := fun b => a.SameBesides .borrow b ∧ b.Positive)
    (fun b e he hb => ?_) a ⟨.refl, ha⟩⟩
  refine Spec.post (mergeDebtLeg_within ?_) fun b' hb' =>
    ⟨hb.1.trans hb'.besides, hb'.positive (hgrows e he) hb.2⟩
  exact hcur e he

/-- **Withdrawals.** They only take shares. -/
theorem settleWithdraw_legs (hv : v.Holds h timestamp base) (hd : Owes a.borrowPositions)
    {recipient : Address} {aggregated : List HubPayment} :
    Within (Working h timestamp st nft base) (settleWithdraw h timestamp a recipient aggregated)
      fun r => a.SameBesides .supply r.1 ∧
        v.Legs (· ≥ ·) a.borrowPositions a.supplyPositions r.1.supplyPositions := by
  refine .bind (.loop (I := fun entries : List PoolWithdrawEntry => ∀ e ∈ entries,
      e.action.position.scaledAmount = a.shares .supply e.action.hubAsset)
      (fun entries payment _ hentries => ?_) [] fun e he => absurd he List.not_mem_nil)
    fun entries hentries => .bind (Q := fun r => a.SameBesides .supply r.1 ∧
      v.Legs (· ≥ ·) a.borrowPositions a.supplyPositions r.1.supplyPositions)
      (Ctrl.poolCall_within fun {pool pool' results} hrun hcall => ?_) fun _ hr => .pure hr
  · refine .idle enforceSpokeAssetFlags_reads.idles fun _ => .unwrap fun position hget =>
      .pure fun e he => ?_
    rcases List.mem_append.mp he with he | he
    · exact hentries e he
    · rw [List.mem_singleton.mp he]
      exact (Account.shares_of_supply hget).symm
  · obtain ⟨hcarries, hcur⟩ := Ops.runBatch_ranAt
      (k := fun e : PoolWithdrawEntry => e.action.hubAsset) (fun hleg => by
        obtain ⟨net, hm, -⟩ := Withdraw.apply_moved hleg
        exact ⟨Withdraw.apply_ranAt hleg, hm.step⟩) hrun hcall
    obtain ⟨-, -, hnodup, -⟩ := Ops.runBatch_books Withdraw.apply_posts hcall
    have hshrinks := Ops.runBatch_results
      (R := fun (entry : PoolWithdrawEntry) r => 0 ≤ r.position.scaledAmount ∧
        r.position.scaledAmount ≤ entry.action.position.scaledAmount) (fun _ hleg => by
        obtain ⟨net, hm, -⟩ := Withdraw.apply_moved hleg
        exact ⟨Withdraw.apply_shrinks hleg, hm.step⟩) hrun hcall
    refine ⟨hcarries, .bind (forEachLeg_legs (fun e => e.1.action.hubAsset)
      (fun e => e.2.position.scaledAmount) hnodup (fun e he => ?_)
      fun b e he hdebt hmoves => ?_) fun _ hb => .pure hb⟩
    · rw [← hentries e.1 (List.of_mem_zip he).1]
      exact (hshrinks e he).2
    · refine mergeWithdrawLeg_leg hv (hdebt ▸ hd) ?_ (hshrinks e he).1 hmoves
      exact hcur e he

/-- `b` is `a` with parameters refreshed leg by leg, under the same shares; the legs are gated
against `borrows`. -/
structure Refreshed (v : Marks) (borrows : SortedMap HubAssetKey DebtPosition) (a b : Account) :
    Prop where
  debt : b.borrowPositions = a.borrowPositions
  legs : v.Legs (· = ·) borrows a.supplyPositions b.supplyPositions
  nonneg : ∀ market p, b.supplyPositions.get? market = some p → 0 ≤ p.scaledAmount

/-- One more position, written under its own shares. -/
theorem Refreshed.write {borrows : SortedMap HubAssetKey DebtPosition} {b : Account}
    (hr : Refreshed v borrows a b) {market : HubAssetKey} {p q : AccountPosition}
    (hget : b.supplyPositions.get? market = some p) (hq : q.scaledAmount = p.scaledAmount)
    (hworse : p.Worsens q → thresholdUpdateMinHfRaw ≤
      v.healthFactor (b.supplyPositions.set market q) borrows) :
    Refreshed v borrows a (b.updateOrRemoveSupplyPosition market q) := by
  have hnonneg : 0 ≤ q.scaledAmount := hq ▸ hr.nonneg market p hget
  rw [Account.updateOrRemoveSupplyPosition_eq]
  refine ⟨hr.debt, hr.legs.tail (.write hnonneg ?_ fun p' hget' hw => ?_), fun k p' hget' => ?_⟩
  · rw [hq]
    exact Account.shares_of_supply hget
  · rw [hget, Option.some.injEq] at hget'
    rw [healthFactor_updateOrRemove]
    exact hworse (hget' ▸ hw)
  · rcases get?_updateOrRemove hget' with hold | ⟨-, rfl, -⟩
    · exact hr.nonneg k p' hold
    · exact hnonneg

/-- The refresh of the loan-to-value touches no liquidation tuple. -/
theorem restampListedSupplyLtv_legs
    (ha : ∀ market p, a.supplyPositions.get? market = some p → 0 ≤ p.scaledAmount) :
    Within (Working h timestamp st nft base) (Risk.restampListedSupplyLtv timestamp a)
      fun r => (∀ borrows, Refreshed v borrows a r.1) ∧ (r.2 = false → r.1 = a) := by
  refine .loop (I := fun r : Account × Bool =>
    (∀ borrows, Refreshed v borrows a r.1) ∧ (r.2 = false → r.1 = a))
    (fun acc market _ hacc => ?_) (a, false) ⟨fun _ => ⟨rfl, .refl, ha⟩, fun _ => rfl⟩
  refine .idle Context.cachedSpokeAsset_reads.idles fun config => ?_
  cases config with
  | none => exact .pure hacc
  | some config =>
    dsimp only
    split
    · exact .pure hacc
    · rename_i position hget
      refine .ite (fun _ => .pure hacc) fun _ =>
        .idle Context.fetchMarketIndexes_reads.idles fun _ =>
        .idle Context.cachedMarketIndex_reads.idles fun _ =>
        .pure ⟨fun borrows => (hacc.1 borrows).write hget rfl fun hworse => ?_, nofun⟩
      simp [AccountPosition.Worsens] at hworse

/-- **Gates.** What passes them is healthy, and was refreshed under its own shares. -/
theorem enforcePostPoolSolvency_healthy (hv : v.Holds h timestamp base)
    (hd : Owes a.borrowPositions)
    (ha : ∀ market p, a.supplyPositions.get? market = some p → 0 ≤ p.scaledAmount) :
    Within (Working h timestamp st nft base) (enforcePostPoolSolvency h timestamp a)
      fun r => ((∀ borrows, Refreshed v borrows a r.1) ∧ (r.2 = false → r.1 = a)) ∧
        wad ≤ v.healthFactor r.1.supplyPositions r.1.borrowPositions := by
  have hfree : wad ≤ i128Max := by decide
  refine .bind (restampListedSupplyLtv_legs ha) fun r hr => .bind
    (Q := fun _ => wad ≤ v.healthFactor r.1.supplyPositions r.1.borrowPositions) ?_
    fun _ hhealthy => .pure ⟨hr, hhealthy⟩
  refine .ite (fun hdebt => .pure ?_) fun _ => .bind (Risk.calculateAccountRiskTotals_health
    hv.working ((hr.1 .empty).debt ▸ hd)) fun totals htotals =>
    .assert fun _ => .assert fun hone => ?_
  · rw [healthFactor_free hdebt]
    exact hfree
  · have hfloor : IdleOnly h timestamp (Risk.requireWholeUnitCollateralFloor timestamp r.1) :=
      Risk.requireWholeUnitCollateralFloor_reads.idles
    exact .idle store_outward.idles fun _ => .assert fun _ =>
      Spec.post (Within.along hfloor fun _ _ hi hs => hi.working hs) fun _ _ => htotals ▸ hone

end Positions

/-! ## Whole flows -/

theorem Account.Positive.owes {a : Account} (ha : a.Positive) : Owes a.borrowPositions :=
  fun _ _ hget => (ha.debt hget).le

theorem Account.Positive.nonneg {a : Account} (ha : a.Positive) :
    ∀ market p, a.supplyPositions.get? market = some p → 0 ≤ p.scaledAmount :=
  fun _ _ hget => (ha.supply hget).le

/-- Stored positions hold shares, and nothing is stored under the next id. -/
structure Account.Filled (st : ControllerStore) (nft : PositionNft) : Prop
    extends Account.Vacant st nft where
  positive : ∀ id owner m, (st.account id owner m).Positive

/-- So does an account that was read off them. -/
theorem Account.Filled.read {st : ControllerStore} {nft : PositionNft} {id : Nat} {a : Account}
    (hst : Account.Filled st nft) (ha : st.getSupplyPositions id = a.supplyPositions ∧
      st.getDebtPositions id = a.borrowPositions) : a.Positive := by
  have hpos := hst.positive id 0 ⟨0, .normal⟩
  exact ⟨fun hget => hpos.supply (ha.1 ▸ hget), fun hget => hpos.debt (ha.2 ▸ hget)⟩

theorem System.WellFormed.filled {s : System W} (hs : s.WellFormed) :
    Account.Filled s.store s.nft := by
  obtain ⟨hsupply, hdebt⟩ := hs.orphan _ hs.next_unbound
  refine ⟨⟨?_, ?_⟩, fun id owner m => (hs.sound id owner m).positive⟩
  · rw [ControllerStore.getSupplyPositions, hsupply, Option.getD_none]
  · rw [ControllerStore.getDebtPositions, hdebt, Option.getD_none]

/-- What a refreshing call does to the stored accounts: each moves along legs, and stays healthy
if it was. -/
structure Marks.Refreshes (v : Marks) (moves : Int → Int → Prop) (st st' : ControllerStore) :
    Prop where
  legs : ∀ id, v.Legs moves (st.getDebtPositions id) (st.getSupplyPositions id)
    (st'.getSupplyPositions id)
  healthy : ∀ id, wad ≤ v.healthFactor (st.getSupplyPositions id) (st.getDebtPositions id) →
    wad ≤ v.healthFactor (st'.getSupplyPositions id) (st'.getDebtPositions id)

namespace Positions

variable {st : ControllerStore} {nft : PositionNft} {base : PoolCtx W} {a : Account}
  {caller : Address} {moves : Int → Int → Prop}

/-- A store with the same positions stands in for `st`. -/
theorem Stores.of_maps {st' st'' : ControllerStore} {id : Nat} (hs : Stores st' id a st'')
    (hsupply : st'.supplyPositions = st.supplyPositions)
    (hdebt : st'.borrowPositions = st.borrowPositions) : Stores st id a st'' := by
  refine ⟨hs.supply, hs.debt, fun id' hne => (hs.supply_ne id' hne).trans ?_,
    fun id' hne => (hs.debt_ne id' hne).trans ?_⟩
  · rw [ControllerStore.getSupplyPositions, hsupply, ← ControllerStore.getSupplyPositions]
  · rw [ControllerStore.getDebtPositions, hdebt, ← ControllerStore.getDebtPositions]

/-- One account moved along legs, and the others not at all. -/
theorem Stores.refreshes {st' : ControllerStore} {id : Nat} (hs : Stores st id a st')
    (hlegs : v.Legs moves (st.getDebtPositions id) (st.getSupplyPositions id) a.supplyPositions)
    (hhealthy : wad ≤ v.healthFactor (st.getSupplyPositions id) (st.getDebtPositions id) →
      wad ≤ v.healthFactor a.supplyPositions a.borrowPositions) : v.Refreshes moves st st' := by
  refine ⟨fun id' => ?_, fun id' => ?_⟩
  · by_cases hid : id' = id
    · rw [hid, hs.supply]
      exact hlegs
    · rw [hs.supply_ne id' hid]
  · by_cases hid : id' = id
    · rw [hid, hs.supply, hs.debt]
      exact hhealthy
    · rw [hs.supply_ne id' hid, hs.debt_ne id' hid]
      exact fun hhealthy => hhealthy

/-- What a flow writes back at its end. -/
theorem finalizePositionFlow_working {id : Nat} {sides : PositionSides} {removeIfEmpty : Bool}
    (hsave : st.Saves id sides a a) :
    Leaves (Working h timestamp st nft base) (finalizePositionFlow h id a sides removeIfEmpty)
      fun _ s => Stores st id a s.store :=
  (finalizePositionFlow_leaves (P := fun _ => True) (fun _ _ _ _ => trivial) hsave).conseq
    (fun _ hs => ⟨hs.store, trivial⟩) fun _ _ hs => hs.1

/-- **Supply.** -/
theorem processSupply_refreshes (hv : v.Holds h timestamp base) (hst : Account.Filled st nft)
    {accountId spokeId : Nat} {assets : List HubPayment} :
    Leaves (Working h timestamp st nft base)
      (processSupply h timestamp caller accountId spokeId assets)
      fun _ s => v.Refreshes (· ≤ ·) st s.store := by
  refine .idle Risk.requireNotFlashLoaning_reads.idles fun _ => .result fun aggregated _ =>
    Ends.bind Account.loadOrCreateAccount_opens fun r s hs => ?_
  obtain ⟨-, st', nft', hopens, hs⟩ := hs
  obtain ⟨id, a⟩ := r
  have ha := hopens.account hst.toVacant
  have hd : Owes a.borrowPositions := (hst.read ha).owes
  obtain ⟨hsupply, hdebt⟩ := ha
  have hrest : Leaves (Working h timestamp st' nft' base) (do
      requireThirdPartyExistingSupply accountId id caller a aggregated
      let account ← processDeposit h timestamp caller a aggregated
      finalizePositionFlow h id account .supply false
      return id) fun _ s => v.Refreshes (· ≤ ·) st s.store := by
    refine .idle requireThirdPartyExistingSupply_reads.idles fun _ =>
      .step (processDeposit_legs hv hd) fun b hb => Ends.bind (finalizePositionFlow_working ?_)
      fun _ => Ends.pure fun s hs => ?_
    · have hsame : b.borrowPositions = a.borrowPositions := hb.1
      refine ⟨rfl, hsame.trans (hdebt.symm.trans ?_)⟩
      rw [ControllerStore.getDebtPositions, ← hopens.debt]
      rfl
    · have hsame : b.borrowPositions = a.borrowPositions := hb.1
      refine (hs.of_maps hopens.supply hopens.debt).refreshes ?_ fun hhealthy => ?_
      · rw [hsupply, hdebt]
        exact hb.2
      · rw [hsame]
        rw [hsupply, hdebt] at hhealthy
        exact hb.2.healthy hv.lawful hd (fun _ _ hle => hle) hhealthy
  exact hrest s hs

/-- **Withdrawal.** -/
theorem processWithdraw_refreshes (hv : v.Holds h timestamp base) (hst : Account.Filled st nft)
    {accountId : Nat} {withdrawals : List HubPayment} {recipient : Option Address} :
    Leaves (Working h timestamp st nft base)
      (processWithdraw h timestamp caller accountId withdrawals recipient)
      fun _ s => v.Refreshes (· ≥ ·) st s.store := by
  refine .idle Risk.requireNotFlashLoaning_reads.idles fun _ => .step getAccount_working fun a ha =>
    .idle Account.requireOwnerOrDelegate_reads.idles fun _ => .assert fun _ => .result fun _ _ => ?_
  have hpos := hst.read ha
  obtain ⟨hsupply, hdebt⟩ := ha
  refine .step (settleWithdraw_legs hv hpos.owes) fun r hr => ?_
  have hsame : r.1.borrowPositions = a.borrowPositions := hr.1
  refine .step (enforcePostPoolSolvency_healthy hv (hsame ▸ hpos.owes)
    (hr.2.nonneg hpos.nonneg)) fun r' hr' =>
    Ends.bind (finalizePositionFlow_working ?_) fun _ => Ends.pure fun s hs =>
    hs.refreshes ?_ fun _ => hr'.2
  · exact ⟨rfl, (hr'.1.1 .empty).debt.trans (hsame.trans hdebt.symm)⟩
  · rw [hsupply, hdebt]
    exact hr.2.trans ((hr'.1.1 _).legs.mono fun _ _ heq => heq.ge)

/-- **Borrowing.** -/
theorem processBorrow_refreshes (hv : v.Holds h timestamp base) (hst : Account.Filled st nft)
    {accountId : Nat} {borrows : List HubPayment} {recipient : Option Address} :
    Leaves (Working h timestamp st nft base)
      (processBorrow h timestamp caller accountId borrows recipient)
      fun _ s => v.Refreshes (· = ·) st s.store := by
  refine .idle Risk.requireNotFlashLoaning_reads.idles fun _ => .step getAccount_working fun a ha =>
    .idle Account.requireOwnerOrDelegate_reads.idles fun _ => .assert fun _ => .result fun _ _ =>
    .idle validatePositionEntryGates_reads.idles fun _ => ?_
  have hpos := hst.read ha
  obtain ⟨hsupply, hdebt⟩ := ha
  refine .step (settleBorrow_positive hpos) fun b hb => ?_
  have hsame : b.supplyPositions = a.supplyPositions := hb.1
  refine .step (enforcePostPoolSolvency_healthy hv hb.2.owes hb.2.nonneg) fun r hr =>
    (finalizePositionFlow_working ?_).post fun _ s hs => hs.refreshes ?_ fun _ => hr.2
  · cases hrestamped : r.2 with
    | true => exact saves_both
    | false =>
      rw [hr.1.2 hrestamped]
      exact ⟨hsame.trans hsupply.symm, rfl⟩
  · rw [hsupply, ← hsame]
    exact (hr.1.1 _).legs

end Positions

/-! ## Threshold updates -/

namespace Risk

open Positions

variable {st : ControllerStore} {nft : PositionNft} {base : PoolCtx W} {a : Account}
  {scope : RiskRefreshScope}

theorem syncThresholdOf_refreshed (hv : v.Holds h timestamp base) {acc : Account × Bool}
    {market : HubAssetKey} {borrows : SortedMap HubAssetKey DebtPosition}
    (hd : Owes a.borrowPositions) (hscope : scope = .fullTuple → a.borrowPositions = borrows)
    (hacc : Refreshed v borrows a acc.1) :
    Within (Working h timestamp st nft base) (syncThresholdOf h timestamp scope acc market)
      fun acc' => Refreshed v borrows a acc'.1 := by
  refine .idle Context.cachedSpokeAsset_reads.idles fun config => ?_
  cases config with
  | none => exact .pure hacc
  | some config =>
    refine .unwrap fun position hget =>
      .bind (refreshSupplyRiskParams_gated hv.working (hacc.debt ▸ hd)) fun updated hupdated =>
      .ite (fun _ => .pure hacc) fun _ => .idle Context.cachedMarketIndex_reads.idles fun _ =>
      .pure (hacc.write hget hupdated.1 fun hworse => ?_)
    obtain ⟨hfull, hfloor⟩ := hupdated.2 hworse
    rwa [hacc.debt, hscope hfull] at hfloor

/-- Every account moved along legs under its own shares, and none owes anything else. -/
structure Swept (v : Marks) (st st' : ControllerStore) : Prop where
  debt : ∀ id, st'.getDebtPositions id = st.getDebtPositions id
  legs : ∀ id, v.Legs (· = ·) (st.getDebtPositions id) (st.getSupplyPositions id)
    (st'.getSupplyPositions id)

theorem Swept.refl : Swept v st st := ⟨fun _ => rfl, fun _ => .refl⟩

theorem Swept.trans {st' st'' : ControllerStore} (hst : Swept v st st') (hst' : Swept v st' st'') :
    Swept v st st'' :=
  ⟨fun id => (hst'.debt id).trans (hst.debt id),
    fun id => (hst.legs id).trans (hst.debt id ▸ hst'.legs id)⟩

/-- One account's supply is written. -/
theorem Swept.write {id : Nat} {supply : SortedMap HubAssetKey AccountPosition}
    (hlegs : v.Legs (· = ·) (st.getDebtPositions id) (st.getSupplyPositions id) supply) :
    Swept v st (st.setSupplyPositions id supply) := by
  have hw : st.Writes id ⟨0, 0, .normal, supply, st.getDebtPositions id⟩
      (st.setSupplyPositions id supply) := ControllerStore.writes_supply rfl
  refine ⟨fun id' => ?_, fun id' => ?_⟩
  · by_cases hid : id' = id
    · rw [hid]
      exact hw.debt
    · exact hw.getDebt_ne hid
  · by_cases hid : id' = id
    · rw [hid, ControllerStore.getSupplyPositions_set]
      exact hlegs
    · rw [hw.getSupply_ne hid]

theorem syncAccountThresholds_swept (hv : v.Holds h timestamp base) {id : Nat}
    (hd : Owes (st.getDebtPositions id))
    (hpos : ∀ market p, (st.getSupplyPositions id).get? market = some p → 0 ≤ p.scaledAmount) :
    Leaves (Working h timestamp st nft base) (syncAccountThresholds h timestamp id scope)
      fun _ s => ∃ st', Swept v st st' ∧ Working h timestamp st' nft base s := by
  refine .store (fun _ hs => hs.store) ?_
  cases hm : st.metas.get? id with
  | none => exact Ends.pure fun s hs => ⟨st, .refl, hs⟩
  | some m =>
    refine Ends.ite (fun _ => Ends.pure fun s hs => ⟨st, .refl, hs⟩) fun _ =>
      Leaves.idle Storage.tryAccountOwner_reads.idles fun owner => ?_
    cases owner with
    | none => exact Ends.pure fun s hs => ⟨st, .refl, hs⟩
    | some owner =>
      -- The debt is read in one of the modes only; in the other no tuple is replaced.
      have hread : Owes (if scope = .fullTuple then st.getDebtPositions id else .empty) := by
        split
        · exact hd
        · exact fun market p hget => by cases hget
      refine Leaves.step (.loop (I := fun r : Account × Bool => Refreshed v (st.getDebtPositions id)
        (Storage.accountFromParts owner m (st.getSupplyPositions id)
          (if scope = .fullTuple then st.getDebtPositions id else .empty)) r.1)
        (fun acc market _ hacc => syncThresholdOf_refreshed hv hread
          (fun hfull => if_pos hfull) hacc) _ ⟨rfl, .refl, hpos⟩) fun r hr => ?_
      refine Ends.bind (Q := fun _ s => ∃ st', Swept v st st' ∧ Working h timestamp st' nft base s)
        (Ends.modify fun s hs => ?_) fun _ => ?_
      · obtain rfl := hs.store
        refine ⟨if r.2 = true then s.store.setSupplyPositions id r.1.supplyPositions else s.store,
          ?_, rfl, hs.nft, hs.carries, hs.quoted.congr rfl rfl rfl⟩
        split
        · exact .write hr.legs
        · exact .refl
      · have hgate : IdleOnly h timestamp (if scope = .fullTuple then do
            let totals ← calculateAccountRiskTotals h timestamp r.1.supplyPositions
              r.1.borrowPositions
            assertWithError (totals.healthFactor ≥ thresholdUpdateMinHfRaw) .healthFactorTooLow
          else pure () : Ctrl W Unit) :=
          .ite (.bind calculateAccountRiskTotals_reads.idles fun _ => .lift) .pure
        refine Leaves.along hgate ?_
        rintro s s' hi ⟨st', hswept, hs⟩
        exact ⟨st', hswept, hi.working hs⟩

theorem Swept.filled {st' : ControllerStore} (hst : Swept v st st')
    (hd : ∀ id, Owes (st.getDebtPositions id))
    (hpos : ∀ id market p, (st.getSupplyPositions id).get? market = some p → 0 ≤ p.scaledAmount) :
    (∀ id, Owes (st'.getDebtPositions id)) ∧
      ∀ id market p, (st'.getSupplyPositions id).get? market = some p → 0 ≤ p.scaledAmount :=
  ⟨fun id => hst.debt id ▸ hd id, fun id => (hst.legs id).nonneg (hpos id)⟩

/-- **Threshold update.** -/
theorem updateAccountThreshold_refreshes (hv : v.Holds h timestamp base)
    (hst : Account.Filled st nft) {hasRisks : Bool} {accountIds : List Nat} :
    Leaves (Working h timestamp st nft base)
      (updateAccountThreshold h timestamp hasRisks accountIds)
      fun _ s => v.Refreshes (· = ·) st s.store := by
  have hd : ∀ id, Owes (st.getDebtPositions id) := fun id => (hst.read ⟨rfl, rfl⟩ :
    (st.account id 0 ⟨0, .normal⟩).Positive).owes
  have hpos : ∀ id market p, (st.getSupplyPositions id).get? market = some p →
      0 ≤ p.scaledAmount := fun id => (hst.read ⟨rfl, rfl⟩ :
    (st.account id 0 ⟨0, .normal⟩).Positive).nonneg
  have hreset : IdleOnly h timestamp (Context.resetSpokeContext : Ctrl W Unit) :=
    .modify fun _ => ⟨rfl, rfl, rfl, fun hq => hq.congr rfl rfl rfl⟩
  refine .idle requireNotFlashLoaning_reads.idles fun _ => ?_
  have hloop := Ends.foldlM (l := accountIds) (T := fun _ => True)
    (P := fun (_ : Unit) _ s => ∃ st', Swept v st st' ∧ Working h timestamp st' nft base s)
    (f := fun _ id => do
      Context.resetSpokeContext
      syncAccountThresholds h timestamp id (if hasRisks then .fullTuple else .ltvOnly))
    (fun _ id _ _ s hs => ?_) ()
  · refine hloop.conseq (fun s hs => ⟨st, .refl, hs⟩) ?_
    rintro _ s ⟨st', hswept, hs⟩
    rw [hs.store]
    exact ⟨hswept.legs, fun id hhealthy => hswept.debt id ▸
      (hswept.legs id).healthy hv.lawful (hd id) (fun _ _ heq => heq.le) hhealthy⟩
  · obtain ⟨st', hswept, hs⟩ := hs
    obtain ⟨hd', hpos'⟩ := hswept.filled hd hpos
    have hstep : Leaves (Working h timestamp st' nft base) (do
        Context.resetSpokeContext
        syncAccountThresholds h timestamp id (if hasRisks then .fullTuple else .ltvOnly))
        fun _ s => ∃ st'', Swept v st st'' ∧ Working h timestamp st'' nft base s :=
      .idle hreset fun _ => (syncAccountThresholds_swept hv (hd' id) (hpos' id)).post
        fun _ s hs => by
          obtain ⟨st'', hswept', hs⟩ := hs
          exact ⟨st'', hswept.trans hswept', hs⟩
    exact hstep s hs

end Risk

/-! ## Calls -/

open Positions Governance

/-- The calls that refresh stamped parameters, with what they do to the shares of a position. -/
def ControllerCall.moves : ControllerCall → Option (Int → Int → Prop)
  | supply _ _ _ _ => some (· ≤ ·)
  | withdraw _ _ _ _ => some (· ≥ ·)
  | borrow _ _ _ _ | updateAccountThreshold _ _ => some (· = ·)
  | _ => none

/-- **Refreshing calls.** Each moves every account along legs. -/
theorem ControllerCall.body_refreshes {st : ControllerStore} {nft : PositionNft}
    {base : PoolCtx W} {call : ControllerCall} {moves : Int → Int → Prop}
    (hmoves : call.moves = some moves) (hv : v.Holds h timestamp base)
    (hst : Account.Filled st nft) :
    Leaves (Working h timestamp st nft base) (call.body h timestamp)
      fun _ s => v.Refreshes moves st s.store := by
  cases call with
  | supply => cases hmoves; exact whenNotPaused_leaves (processSupply_refreshes hv hst).drop
  | borrow => cases hmoves; exact whenNotPaused_leaves (processBorrow_refreshes hv hst)
  | withdraw => cases hmoves; exact (processWithdraw_refreshes hv hst).drop
  | updateAccountThreshold =>
    cases hmoves
    exact whenNotPaused_leaves (Risk.updateAccountThreshold_refreshes hv hst)
  | _ => cases hmoves

/-- A call from a system that calls have reached. -/
theorem ControllerCall.exec_refreshes {w : W} {t₀ t₁ : Nat} {s s' : System W}
    (hsteps : ControllerSteps h (.deployed w, t₀) (s, t₁)) (hle : t₁ ≤ timestamp)
    {call : ControllerCall} {moves : Int → Int → Prop} (hmoves : call.moves = some moves)
    (hv : v.Holds h timestamp s.pool) (hexec : call.exec h timestamp s = .ok s') :
    v.Refreshes moves s.store s'.store := by
  have hmarkets : MarketsRun timestamp s.pool.markets :=
    (ControllerSteps.markets h hsteps (System.deployed_markets w)).mono hle
  have hworking : Working h timestamp s.store s.nft s.pool { toSystem := s, cache := {} } :=
    ⟨rfl, rfl, .refl hmarkets, quoted_fresh rfl rfl⟩
  have hreach : System.Reachable h s := ⟨w, t₀, t₁, hsteps⟩
  obtain ⟨t, hbody, rfl⟩ := ControllerCall.exec_ok hexec
  exact (call.body_refreshes hmoves hv hreach.inBalance.wellFormed.filled).ok hworking hbody

/-! ## Runs -/

/-- A step of a run at fixed marks: a refreshing call, a change of the configuration, or anything
that happens outside the contracts. -/
inductive RefreshStep (h : ControllerHost W) (v : Marks) : System W × Nat → System W × Nat → Prop
  | refresh {s s' : System W} {timestamp timestamp' : Nat} {moves : Int → Int → Prop}
      (call : ControllerCall) (hmoves : call.moves = some moves) (hle : timestamp ≤ timestamp')
      (hv : v.Holds h timestamp' s.pool) (hexec : call.exec h timestamp' s = .ok s') :
      RefreshStep h v (s, timestamp) (s', timestamp')
  | configure {s s' : System W} {timestamp timestamp' : Nat} (call : ControllerCall)
      (hconf : call.isConfiguration = true) (hle : timestamp ≤ timestamp')
      (hexec : call.exec h timestamp' s = .ok s') :
      RefreshStep h v (s, timestamp) (s', timestamp')
  | outside {s : System W} {timestamp : Nat} (w : W) :
      RefreshStep h v (s, timestamp) ({ s with pool.world := w }, timestamp)

abbrev RefreshSteps (h : ControllerHost W) (v : Marks) := Relation.ReflTransGen (RefreshStep h v)

variable {p p' : System W × Nat}

theorem RefreshStep.controller (hstep : RefreshStep h v p p') : ControllerStep h p p' := by
  cases hstep with
  | refresh call _ hle _ hexec => exact .call call hle hexec
  | configure call _ hle hexec => exact .call call hle hexec
  | outside w => exact .outside w

theorem RefreshSteps.controller (hsteps : RefreshSteps h v p p') : ControllerSteps h p p' :=
  Relation.ReflTransGen.mono (fun _ _ => RefreshStep.controller) _ _ hsteps

/-- An account of the system is healthy at the marks. -/
def System.Healthy (v : Marks) (id : Nat) (s : System W) : Prop :=
  wad ≤ v.healthFactor (s.store.getSupplyPositions id) (s.store.getDebtPositions id)

instance {id : Nat} {s : System W} : Decidable (s.Healthy v id) :=
  inferInstanceAs (Decidable (wad ≤ _))

/-- **One step** leaves every healthy account healthy. -/
theorem RefreshStep.healthy {w : W} {t₀ : Nat} (hsteps : ControllerSteps h (.deployed w, t₀) p)
    (hstep : RefreshStep h v p p') {id : Nat} (hs : p.1.Healthy v id) : p'.1.Healthy v id := by
  cases hstep with
  | refresh call hmoves hle hv hexec =>
    exact (ControllerCall.exec_refreshes hsteps hle hmoves hv hexec).healthy id hs
  | configure call hconf _ hexec =>
    obtain ⟨t, hbody, rfl⟩ := ControllerCall.exec_ok hexec
    have hsame := (call.configuration_pool h hconf).ok hbody
    unfold System.Healthy ControllerStore.getSupplyPositions ControllerStore.getDebtPositions
    rw [hsame.supply, hsame.debt]
    exact hs
  | outside w => exact hs

theorem RefreshSteps.healthy {w : W} {t₀ : Nat} (hsteps : ControllerSteps h (.deployed w, t₀) p)
    (hrun : RefreshSteps h v p p') {id : Nat} (hs : p.1.Healthy v id) : p'.1.Healthy v id := by
  induction hrun with
  | refl => exact hs
  | tail hrun hstep ih => exact hstep.healthy (hsteps.trans (RefreshSteps.controller hrun)) ih

/-- What is reported at the marks is at the marks in every world. -/
theorem Marks.Holds.prices {pool : PoolCtx W} (hv : v.Holds h timestamp pool)
    (markets : List HubAssetKey) (w : W) : h.Prices v markets w :=
  fun _ _ aggregator _ hfeed => hv.price _ _ ⟨w, aggregator, hfeed⟩

/-- A healthy account is not liquidated. -/
theorem System.Healthy.refused {s s' : System W} {id : Nat} (hs : s.Healthy v id)
    (hv : v.Holds h timestamp s.pool) (hwf : s.WellFormed) {liquidator : Address}
    {payments : List HubPayment} {mode : SeizeMode} :
    (ControllerCall.liquidate liquidator id payments mode).exec h timestamp s ≠ .ok s' := by
  intro hexec
  obtain ⟨t, hbody, -⟩ := ControllerCall.exec_ok hexec
  have howes : Owes (s.store.getDebtPositions id) :=
    (hwf.filled.read ⟨rfl, rfl⟩ : (s.store.account id 0 ⟨0, .normal⟩).Positive).owes
  have hrefused : Leaves (· = { toSystem := s, cache := {} })
      (Liquidation.processLiquidation h timestamp liquidator id payments mode) fun _ _ => False :=
    Liquidation.processLiquidation_healthy
      (.inr fun totals htotals => by rwa [totals_healthFactor hv.lawful howes htotals])
      (fun market _ index hcur => hv.index market index hcur) fun w' _ => hv.prices _ w'
  exact Ends.ok hrefused.drop rfl hbody

/-- **Restamping.** However often and in whatever order its parameters are refreshed, while the
listings change and the marks stand, an account that was healthy is healthy and cannot be
liquidated; and a refresh replaces a tuple by a worse one only at the floor. -/
theorem restamping_keeps_health {w : W} {t₀ : Nat} {p p' : System W × Nat}
    (hsteps : ControllerSteps h (.deployed w, t₀) p) (hrun : RefreshSteps h v p p') {id : Nat}
    (hs : p.1.Healthy v id) (hle : p'.2 ≤ timestamp) (hv : v.Holds h timestamp p'.1.pool) :
    p'.1.Healthy v id ∧
      (∀ liquidator payments mode s,
        (ControllerCall.liquidate liquidator id payments mode).exec h timestamp p'.1 ≠ .ok s) ∧
      ∀ (call : ControllerCall) moves s, call.moves = some moves →
        call.exec h timestamp p'.1 = .ok s →
        ∀ id, v.Legs moves (p'.1.store.getDebtPositions id) (p'.1.store.getSupplyPositions id)
          (s.store.getSupplyPositions id) := by
  have hsteps' := hsteps.trans hrun.controller
  have hreach : System.Reachable h p'.1 := ⟨w, t₀, p'.2, hsteps'⟩
  have hhealthy := hrun.healthy hsteps hs
  exact ⟨hhealthy, fun _ _ _ _ => hhealthy.refused hv hreach.inBalance.wellFormed,
    fun call _ _ hmoves hexec => (call.exec_refreshes hsteps' hle hmoves hv hexec).legs⟩

namespace Sample

/-- Every price and every index is one. -/
def ones : Marks := ⟨fun _ => wad, fun _ => ⟨ray, ray⟩⟩

/-- Every market is at the index one. -/
abbrev atOne (s : System Balances) : Prop :=
  ∀ e ∈ s.pool.markets.entries, simulateUpdateIndexes 1_000_000 e.2 = .ok ⟨ray, ray⟩

theorem ones_holds {s : System Balances} (hs : atOne s) :
    ones.Holds controllerHost 1_000 s.pool := by
  refine ⟨⟨fun _ => wad_pos.le, fun _ => ray_pos.le, fun _ => ray_pos.le⟩, ?_, ?_⟩
  · rintro asset feed ⟨_, _, hfeed⟩
    cases hfeed
    rfl
  · rintro market index ⟨now, m, hnow, hget, hsim⟩
    obtain rfl : 1_000_000 = now := Except.ok.inj hnow
    exact Except.ok.inj ((hs (market, m) (SortedMap.mem_entries.mpr hget)).symm.trans hsim)

/-- The listing of the sample run, at another threshold. -/
def relisted (threshold : Nat) : ControllerCall :=
  .editAssetInSpoke { listingArgs with ltv := 5_000, threshold }

def stamped (s : System Balances) : Option Nat :=
  ((s.store.getSupplyPositions 1).get? key).map AccountPosition.liquidationThreshold

end Sample

/-- The first account takes a threshold of 76%, then refuses one of 52%: it would stand at 1.04. -/
theorem restamping_keeps_health_sample :
    ∃ s s' : System Sample.Balances,
      ControllerSteps Sample.controllerHost (s, 1_000) (s', 1_000) ∧
      Sample.stamped s = some 8_000 ∧ Sample.stamped s' = some 7_600 ∧
      s'.Healthy Sample.ones 1 ∧
      ∀ liquidator payments mode s'',
        (ControllerCall.liquidate liquidator 1 payments mode).exec Sample.controllerHost 1_000
          s' ≠ .ok s'' := by
  obtain ⟨s, hrun, hhealthy, hstamped, hany⟩ : ∃ s : System Sample.Balances,
      runCalls Sample.controllerHost 1_000 (.deployed Sample.opening) Sample.calls = .ok s ∧
      s.Healthy Sample.ones 1 ∧ Sample.stamped s = some 8_000 ∧
      (runCalls Sample.controllerHost 1_000 s [Sample.relisted 7_600]).toOption.any (fun s1 =>
        Sample.atOne s1 ∧ (runCalls Sample.controllerHost 1_000 s1
          [.updateAccountThreshold true [1]]).toOption.any (fun s2 =>
        Sample.atOne s2 ∧ (runCalls Sample.controllerHost 1_000 s2
          [Sample.relisted 5_200]).toOption.any (fun s3 =>
        Sample.atOne s3 ∧ (runCalls Sample.controllerHost 1_000 s3
          [.supply 6 1 1 [(Sample.key, 10_000)]]).toOption.any (fun s4 =>
        Sample.atOne s4 ∧ Sample.stamped s4 = some 7_600) = true) = true) = true) = true :=
    runCalls_ok (by decide +kernel)
  obtain ⟨s1, hrun1, hs1, hany⟩ := runCalls_ok hany
  obtain ⟨s2, hrun2, -, hany⟩ := runCalls_ok hany
  obtain ⟨s3, hrun3, hs3, hany⟩ := runCalls_ok hany
  obtain ⟨s4, hrun4, hs4, hstamped'⟩ := runCalls_ok hany
  have hsteps : RefreshSteps Sample.controllerHost Sample.ones (s, 1_000) (s4, 1_000) :=
    .head (.configure _ rfl le_rfl (runCalls_single hrun1)) <|
    .head (.refresh _ rfl le_rfl (Sample.ones_holds hs1) (runCalls_single hrun2)) <|
    .head (.configure _ rfl le_rfl (runCalls_single hrun3)) <|
    .single (.refresh _ rfl le_rfl (Sample.ones_holds hs3) (runCalls_single hrun4))
  obtain ⟨hhealthy', hrefused, -⟩ := restamping_keeps_health (runCalls_steps hrun) hsteps hhealthy
    le_rfl (Sample.ones_holds hs4)
  exact ⟨s, s4, hsteps.controller, hstamped, hstamped', hhealthy', hrefused⟩

end Lending
