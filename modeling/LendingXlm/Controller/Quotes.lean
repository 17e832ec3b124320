import LendingXlm.Controller.Indexes
import LendingXlm.Controller.StrategyFlows

/-!
# What a flow has quoted

A flow reads prices and indexes early, runs the pool, and gates the account at the end on what it
read. This goes well since the pool's operations leave the current indexes alone, and since the
indexes they return are written into the context: whatever a flow has quoted is current when it
comes to its gates.

* `Idles`: steps that write neither the store nor a market;
* `Working`: a flow between two steps, its quotes current;
* one lemma for each step of a flow that runs the pool, and one for each flow up to its gates.
-/

namespace Lending

open Transaction Ctrl Invocation

variable {W : Type} {h : ControllerHost W} {timestamp : Nat}

/-! ## Steps that write nothing -/

namespace Invocation

/-- Neither the store nor a market was written, and what is quoted is good if it was before. -/
structure Idles (h : ControllerHost W) (timestamp : Nat) (s s' : Invocation W) : Prop where
  store : s'.store = s.store
  nft : s'.nft = s.nft
  markets : s'.pool.markets = s.pool.markets
  quoted : s.Quoted h timestamp → s'.Quoted h timestamp

instance : Std.Refl (Idles h timestamp (W := W)) where
  refl _ := ⟨rfl, rfl, rfl, id⟩

instance : IsTrans (Invocation W) (Idles h timestamp) where
  trans _ _ _ hst htu := ⟨htu.store.trans hst.store, htu.nft.trans hst.nft,
    htu.markets.trans hst.markets, fun hq => htu.quoted (hst.quoted hq)⟩

/-- Quotes are of the markets, and kept in the context. -/
theorem Quoted.congr {s s' : Invocation W} (hs : s.Quoted h timestamp)
    (hm : s'.pool.markets = s.pool.markets)
    (hi : s'.cache.marketIndexes = s.cache.marketIndexes)
    (hp : s'.cache.tokenPrices = s.cache.tokenPrices) : s'.Quoted h timestamp := by
  constructor
  · intro key index hget
    rw [hi] at hget
    obtain ⟨now, m, hnow, hmarket, hsim⟩ := hs.index hget
    exact ⟨now, m, hnow, hm ▸ hmarket, hsim⟩
  · intro asset feed hget
    rw [hp] at hget
    exact hs.price hget

theorem Reads.idles {s s' : Invocation W} (hr : Reads h timestamp s s') :
    Idles h timestamp s s' :=
  ⟨congrArg System.store hr.system, congrArg System.nft hr.system,
    congrArg (fun b => b.pool.markets) hr.system, hr.quoted⟩

theorem Outward.idles {s s' : Invocation W} (ho : Outward s s') : Idles h timestamp s s' :=
  ⟨ho.store, ho.nft, ho.markets, fun hq => hq.congr ho.markets
    (congrArg Context.marketIndexes ho.cache) (congrArg Context.tokenPrices ho.cache)⟩

end Invocation

/-- A computation that writes neither the store nor a market. -/
abbrev IdleOnly (h : ControllerHost W) (timestamp : Nat) {α : Type} (x : Ctrl W α) : Prop :=
  Along (Idles h timestamp) x

theorem ReadsOnly.idles {α : Type} {x : Ctrl W α} (hx : ReadsOnly h timestamp x) :
    IdleOnly h timestamp x :=
  Along.mono hx fun _ _ => Reads.idles

theorem OutwardOnly.idles {α : Type} {x : Ctrl W α} (hx : OutwardOnly x) :
    IdleOnly h timestamp x :=
  Along.mono hx fun _ _ => Outward.idles

namespace Context

/-- Usage and exits are not quoted. -/
theorem modifyUsage_idles {f : Context → Context}
    (hi : ∀ c, (f c).marketIndexes = c.marketIndexes) (hp : ∀ c, (f c).tokenPrices = c.tokenPrices) :
    IdleOnly h timestamp (modifyCache f : Ctrl W Unit) :=
  .modify fun s => ⟨rfl, rfl, rfl, fun hq => hq.congr rfl (hi s.cache) (hp s.cache)⟩

theorem applySpokeEntry_idles {spokeId : Nat} {side : UsageSide} {market : HubAssetKey}
    {delta : Int} {index : MarketIndex} {decimals : Nat} :
    IdleOnly h timestamp
      (applySpokeEntry spokeId side market delta index decimals : Ctrl W Unit) :=
  .bind requireSpokeAssetConfig_reads.idles fun _ => .bind ensureSpokeContext_reads.idles fun _ =>
    .bind store_reads.idles fun _ => .bind .lift fun _ =>
    modifyUsage_idles (fun _ => rfl) fun _ => rfl

theorem applySpokeExit_idles {spokeId : Nat} {side : UsageSide} {market : HubAssetKey}
    {delta : Int} :
    IdleOnly h timestamp (applySpokeExit spokeId side market delta : Ctrl W Unit) :=
  .bind ensureSpokeContext_reads.idles fun _ => .bind store_reads.idles fun _ =>
    .bind (modifyUsage_idles (fun _ => rfl) fun _ => rfl) fun _ => .bind .lift fun _ =>
    modifyUsage_idles (fun _ => rfl) fun _ => rfl

end Context

theorem Positions.applyLegUsage_idles {spokeId : Nat} {side : UsageSide} {market : HubAssetKey}
    {direction : LegDirection} {old : Int} {outcome : LegOutcome} :
    IdleOnly h timestamp
      (applyLegUsage spokeId side market direction old outcome : Ctrl W Unit) := by
  cases direction with
  | entry assetDecimals => exact .bind .lift fun _ => Context.applySpokeEntry_idles
  | exit => exact .bind .lift fun _ => Context.applySpokeExit_idles

/-! ## Flows at work -/

/-- A flow between two steps: the store and the NFTs it works on, the indexes of the pool it started
from, and quotes that are good. -/
structure Invocation.Working (h : ControllerHost W) (timestamp : Nat) (st : ControllerStore)
    (nft : PositionNft) (base : PoolCtx W) (s : Invocation W) : Prop where
  store : s.store = st
  nft : s.nft = nft
  carries : PoolCtx.Carries timestamp base s.pool
  quoted : s.Quoted h timestamp

/-- A flow on the markets of `pool`. -/
structure Invocation.WorkingOn (h : ControllerHost W) (timestamp : Nat) (st : ControllerStore)
    (nft : PositionNft) (base pool : PoolCtx W) (s : Invocation W) : Prop
    extends Working h timestamp st nft base s where
  markets : s.pool.markets = pool.markets

/-- From `P`, `x` keeps `P`, and what it returns has `Q`, unless it traps. -/
abbrev Within (P : Invocation W → Prop) {α : Type} (x : Ctrl W α) (Q : α → Prop) : Prop :=
  Spec P (fun _ => True) x Q

variable {α β : Type} {st : ControllerStore} {nft : PositionNft} {base pool : PoolCtx W}

theorem Invocation.Idles.working {s s' : Invocation W} (hi : Idles h timestamp s s')
    (hs : s.Working h timestamp st nft base) : s'.Working h timestamp st nft base :=
  ⟨hi.store.trans hs.store, hi.nft.trans hs.nft, hs.carries.congr hi.markets, hi.quoted hs.quoted⟩

theorem Invocation.Idles.workingOn {s s' : Invocation W} (hi : Idles h timestamp s s')
    (hs : s.WorkingOn h timestamp st nft base pool) : s'.WorkingOn h timestamp st nft base pool :=
  ⟨hi.working hs.toWorking, hi.markets.trans hs.markets⟩

theorem Within.along {R : Invocation W → Invocation W → Prop} {x : Ctrl W α}
    {P : Invocation W → Prop} (hx : Along R x) (hP : ∀ s s', R s s' → P s → P s') :
    Within P x fun _ => True := by
  intro s hs
  cases hrun : x s with
  | ok a s' => exact ⟨hP s s' (hx.ok hrun) hs, trivial⟩
  | error e s' => trivial

namespace Within

variable {P : Invocation W → Prop} {x : Ctrl W α} {f : α → Ctrl W β} {Q : α → Prop} {R : β → Prop}

/-- A step that writes nothing, and whose answer does not matter. -/
theorem idle (hx : IdleOnly h timestamp x)
    (hf : ∀ a, Within (Working h timestamp st nft base) (f a) R) :
    Within (Working h timestamp st nft base) (x >>= f) R :=
  Spec.bind (along hx fun _ _ hi hs => hi.working hs) fun a _ => hf a

theorem idleOn (hx : IdleOnly h timestamp x)
    (hf : ∀ a, Within (WorkingOn h timestamp st nft base pool) (f a) R) :
    Within (WorkingOn h timestamp st nft base pool) (x >>= f) R :=
  Spec.bind (along hx fun _ _ hi hs => hi.workingOn hs) fun a _ => hf a

theorem result {r : Result α} (hf : ∀ a, r = .ok a → Within P (f a) R) :
    Within P ((liftM r : Ctrl W α) >>= f) R :=
  Spec.bind (Spec.lift (fun _ ha => ha) fun _ _ => trivial) hf

theorem unwrap {o : Option α} {e : Error} (hf : ∀ a, o = some a → Within P (f a) R) :
    Within P (unwrapOr o e >>= f) R :=
  result fun a ha => hf a (Fallible.orThrow_ok_iff.mp ha)

theorem assert {c : Prop} [Decidable c] {e : Error} {g : Unit → Ctrl W β}
    (hg : c → Within P (g ()) R) : Within P (assertWithError c e >>= g) R :=
  result fun _ ha => hg (Fallible.require_ok_iff.mp ha)

theorem pure {a : α} (ha : Q a) : Within P (Pure.pure a : Ctrl W α) Q := Spec.pure ha

theorem bind (hx : Within P x Q) (hf : ∀ a, Q a → Within P (f a) R) : Within P (x >>= f) R :=
  Spec.bind hx hf

theorem ite {c : Prop} [Decidable c] {y : Ctrl W α} (hx : c → Within P x Q)
    (hy : ¬ c → Within P y Q) : Within P (if c then x else y) Q :=
  Spec.ite hx hy

/-- A loop that keeps a fact about its accumulator. -/
theorem loop {I : β → Prop} {g : β → α → Ctrl W β} {l : List α}
    (hg : ∀ b a, a ∈ l → I b → Within P (g b a) I) (b : β) (hb : I b) :
    Within P (l.foldlM g b) I :=
  Spec.foldlM (P := fun b _ => I b) (fun b a _ ha hb => hg b a ha hb) b hb

/-- A step that reads the store, which is known. -/
theorem store {f : ControllerStore → Ctrl W β} (hP : ∀ s, P s → s.store = st)
    (hf : Within P (f st) R) : Within P (Ctrl.store >>= f) R := by
  intro s hs
  obtain rfl := hP s hs
  exact hf s hs

end Within

/-! ## Running the pool -/

/-- The index a leg returned becomes quoted. -/
theorem Context.putMarketIndex_within {market : HubAssetKey} {index : MarketIndex}
    (hcur : pool.CurrentIndex timestamp market index) :
    Within (WorkingOn h timestamp st nft base pool) (putMarketIndex market index : Ctrl W Unit)
      fun _ => True := by
  refine Spec.modify (fun s hs => ⟨⟨hs.store, hs.nft, hs.carries, ?_, hs.quoted.price⟩, hs.markets⟩)
    trivial
  intro key index' hget
  rw [SortedMap.get?_set] at hget
  split at hget
  · rename_i hkey
    cases hget
    obtain ⟨now, m, hnow, hmarket, hsim⟩ := hcur
    exact ⟨now, m, hnow, (congrArg (·.get? key) hs.markets).trans (hkey ▸ hmarket), hsim⟩
  · exact hs.quoted.index hget

/-- **A pool call and the merging of its legs.** The call leaves what was quoted current, and the
merges run on the markets it left. -/
theorem Ctrl.poolCall_within {f : PoolCtx W → Result (PoolCtx W × α)} {g : α → Ctrl W β}
    {Q : β → Prop}
    (hf : ∀ {pool pool' a}, MarketsRun timestamp pool.markets → f pool = .ok (pool', a) →
      PoolCtx.Carries timestamp pool pool' ∧
        Within (WorkingOn h timestamp st nft base pool') (g a) Q) :
    Within (Working h timestamp st nft base) (poolCall f >>= g) Q := by
  intro s hs
  cases hrun : (poolCall f >>= g) s with
  | error e s' => trivial
  | ok b s' =>
    obtain ⟨a, s1, hcall, hrest⟩ := bind_ok_iff.mp hrun
    obtain ⟨t, _, hget, hcall⟩ := bind_ok_iff.mp hcall
    obtain ⟨rfl, rfl⟩ := get_ok_iff.mp hget
    obtain ⟨⟨pool', a'⟩, hok, hcall⟩ := lift_bind_ok_iff.mp hcall
    obtain ⟨_, _, hmod, hpure⟩ := bind_ok_iff.mp hcall
    obtain rfl := modify_ok_iff.mp hmod
    obtain ⟨rfl, rfl⟩ := Transaction.pure_ok_iff.mp hpure
    obtain ⟨hcarries, hg⟩ := hf hs.carries.run hok
    have hat : WorkingOn h timestamp st nft base pool' { s with pool := pool' } :=
      ⟨⟨hs.store, hs.nft, hs.carries.trans hcarries,
        fun hget => hcarries.index.mpr (hs.quoted.index hget), hs.quoted.price⟩, rfl⟩
    have hafter := hg _ hat
    rw [hrest] at hafter
    exact ⟨hafter.1.toWorking, hafter.2⟩

namespace Positions

variable {a : Account}

theorem mergeSupplyLeg_within {action : PoolAction} {result : PoolPositionMutation}
    (hcur : pool.CurrentIndex timestamp action.hubAsset result.marketIndex) :
    Within (WorkingOn h timestamp st nft base pool) (mergeSupplyLeg h timestamp a action result)
      (a.SameBesides .supply) :=
  .idleOn Context.requireSpokeAsset_reads.idles fun _ =>
    .bind (Context.putMarketIndex_within hcur) fun _ _ =>
    .idleOn Risk.refreshSupplyRiskParams_reads.idles fun position =>
    .idleOn applyLegUsage_idles fun _ =>
    .pure (a.updateOrRemoveSupplyPosition_becomes action.hubAsset position).besides

theorem mergeWithdrawLeg_within {market : HubAssetKey} {kind : WithdrawKind} {outcome : LegOutcome}
    (hcur : pool.CurrentIndex timestamp market outcome.marketIndex) :
    Within (WorkingOn h timestamp st nft base pool)
      (mergeWithdrawLeg h timestamp a market kind outcome) (a.SameBesides .supply) :=
  .idleOn legMayRestampRiskParams_reads.idles fun _ => .unwrap fun _ _ =>
    .bind (Context.putMarketIndex_within hcur) fun _ _ => .idleOn applyLegUsage_idles fun _ =>
    .ite (fun _ => .idleOn Context.requireSpokeAsset_reads.idles fun _ =>
      .idleOn Risk.refreshSupplyRiskParams_reads.idles fun position =>
      .pure (a.updateOrRemoveSupplyPosition_becomes market position).besides)
    fun _ => .pure (a.updateOrRemoveSupplyPosition_becomes market _).besides

theorem mergeDebtLeg_within {market : HubAssetKey} {direction : LegDirection}
    {outcome : LegOutcome} (hcur : pool.CurrentIndex timestamp market outcome.marketIndex) :
    Within (WorkingOn h timestamp st nft base pool) (mergeDebtLeg a market direction outcome)
      (a.Becomes .borrow market outcome.newScaled) := by
  have hold : ∀ old : Int, Within (WorkingOn h timestamp st nft base pool) (do
      applyLegUsage a.spokeId .borrow market direction old outcome
      Context.putMarketIndex market outcome.marketIndex
      return a.updateOrRemoveDebtPosition market ⟨outcome.newScaled⟩)
      (a.Becomes .borrow market outcome.newScaled) :=
    fun _ => .idleOn applyLegUsage_idles fun _ => .bind (Context.putMarketIndex_within hcur)
      fun _ _ => .pure (a.updateOrRemoveDebtPosition_becomes market ⟨outcome.newScaled⟩)
  cases direction with
  | entry assetDecimals => exact .bind (Q := fun _ => True) (.pure trivial) fun old _ => hold old
  | exit =>
    exact .bind (Q := fun _ => True) (.unwrap fun _ _ => .pure trivial) fun old _ => hold old

/-- Merging the legs of a batch. -/
theorem forEachLeg_within {E R : Type} {entries : List E} {results : List R}
    {f : Account → E × R → Ctrl W Account} {side : UsageSide} {P : Invocation W → Prop}
    (hf : ∀ b e, e ∈ entries.zip results → Within P (f b e) (b.SameBesides side)) :
    Within P (forEachLeg entries results f a) (a.SameBesides side) := by
  refine .assert fun _ => ?_
  refine .loop (I := a.SameBesides side) (fun b e he hb => ?_) a .refl
  exact Spec.post (hf b e he) fun _ hb' => hb.trans hb'

theorem applyWithdrawBatch_within {recipient : Address} {kind : WithdrawKind}
    {entries : List PoolWithdrawEntry} :
    Within (Working h timestamp st nft base)
      (applyWithdrawBatch h timestamp a recipient kind entries)
      fun r => a.SameBesides .supply r.1 := by
  refine Ctrl.poolCall_within fun {pool pool' results} hrun hcall => ?_
  obtain ⟨hcarries, hcur⟩ := Ops.runBatch_ranAt
    (k := fun e : PoolWithdrawEntry => e.action.hubAsset) (fun hleg => by
      obtain ⟨net, hm, -⟩ := Withdraw.apply_moved hleg
      exact ⟨Withdraw.apply_ranAt hleg, hm.step⟩) hrun hcall
  refine ⟨hcarries, .bind (forEachLeg_within fun b e he => ?_) fun a' ha' => .pure ha'⟩
  exact mergeWithdrawLeg_within (hcur e he)

theorem applyRepayBatch_within {payer : Address} {actions : List PoolAction} :
    Within (Working h timestamp st nft base) (applyRepayBatch h timestamp a payer actions)
      fun r => a.SameBesides .borrow r.1 := by
  refine Ctrl.poolCall_within fun {pool pool' results} hrun hcall => ?_
  obtain ⟨hcarries, hcur⟩ := Ops.runBatch_ranAt (k := PoolAction.hubAsset) (fun hleg => by
    obtain ⟨overpayment, hm, -⟩ := Repay.apply_moved hleg
    exact ⟨Repay.apply_ranAt hleg, hm.step⟩) hrun hcall
  refine ⟨hcarries, .bind (forEachLeg_within fun b e he => ?_) fun a' ha' => .pure ha'⟩
  exact Spec.post (mergeDebtLeg_within (hcur e he)) fun _ hb => hb.besides

theorem settleBorrow_within {recipient : Address} {aggregated : List HubPayment} :
    Within (Working h timestamp st nft base) (settleBorrow h timestamp a recipient aggregated)
      (a.SameBesides .borrow) := by
  refine Ctrl.poolCall_within fun {pool pool' results} hrun hcall => ?_
  obtain ⟨hcarries, hcur⟩ := Ops.runBatch_ranAt (k := PoolAction.hubAsset)
    (fun hleg => ⟨Borrow.apply_ranAt hleg, (Borrow.apply_moved hleg).1.step⟩) hrun hcall
  exact ⟨hcarries, forEachLeg_within fun b e he =>
    Spec.post (mergeDebtLeg_within (hcur e he)) fun _ hb => hb.besides⟩

theorem processDeposit_within {caller : Address} {aggregated : List HubPayment} :
    Within (Working h timestamp st nft base) (processDeposit h timestamp caller a aggregated)
      (a.SameBesides .supply) := by
  refine .idle validatePositionEntryGates_reads.idles fun _ =>
    .idle Context.fetchPrices_reads.idles fun _ => .idle (.foldlM (fun _ _ =>
      .bind Context.requireSpokeAsset_reads.idles fun _ =>
      .bind Payments.transferAmountMeasured_outward.idles fun _ => .pure) []) fun entries => ?_
  refine Ctrl.poolCall_within fun {pool pool' results} hrun hcall => ?_
  obtain ⟨hcarries, hcur⟩ := Ops.runBatch_ranAt (k := PoolAction.hubAsset)
    (fun hleg => ⟨Supply.leg_ranAt hleg, (Supply.leg_moved hleg).1.step⟩) hrun hcall
  exact ⟨hcarries, forEachLeg_within fun b e he => mergeSupplyLeg_within (hcur e he)⟩

theorem settleWithdraw_within {recipient : Address} {aggregated : List HubPayment} :
    Within (Working h timestamp st nft base) (settleWithdraw h timestamp a recipient aggregated)
      fun r => a.SameBesides .supply r.1 :=
  .idle (.foldlM (fun _ _ => withdrawEntry_reads.idles) []) fun _ =>
    .bind applyWithdrawBatch_within fun _ ha => .pure ha

theorem executeWithdrawal_within {recipient : Address} {market : HubAssetKey} {amount : Int}
    {position : AccountPosition} :
    Within (Working h timestamp st nft base)
      (executeWithdrawal h timestamp a recipient market amount position) fun _ => True :=
  .idle enforceSpokeAssetFlags_reads.idles fun _ => .bind applyWithdrawBatch_within fun _ _ =>
    .result fun _ _ => .pure trivial

theorem repayPrefundedPosition_within {refundTo : Address} {market : HubAssetKey}
    {position : DebtPosition} {amount : Int} :
    Within (Working h timestamp st nft base)
      (repayPrefundedPosition h timestamp a refundTo market position amount) fun _ => True :=
  .idle enforceSpokeAssetFlags_reads.idles fun _ => .bind applyRepayBatch_within fun _ _ =>
    .result fun _ _ => .pure trivial

end Positions

/-! ## Strategies -/

namespace Ctrl

theorem guard_idles {b : Bool} :
    IdleOnly h timestamp (modify fun s => { s with flashLoanOngoing := b } : Ctrl W Unit) :=
  .modify fun _ => Outward.idles ⟨rfl, rfl, rfl, rfl⟩

theorem withFlashGuard_within {x : Ctrl W α} {Q : α → Prop}
    (hx : Within (Working h timestamp st nft base) x Q) :
    Within (Working h timestamp st nft base) (withFlashGuard x) Q :=
  .idle .get fun _ => .idle guard_idles fun _ => .bind hx fun _ ha =>
    .ite (fun _ => .idle guard_idles fun _ => .pure ha) fun _ => .pure ha

/-- A guarded pool call, and what follows on the markets it left. -/
theorem guardedPoolCall_within {f : PoolCtx W → Result (PoolCtx W × α)} {g : α → Ctrl W β}
    {Q : β → Prop}
    (hf : ∀ {pool pool' a}, MarketsRun timestamp pool.markets → f pool = .ok (pool', a) →
      PoolCtx.Carries timestamp pool pool' ∧
        Within (WorkingOn h timestamp st nft base pool') (g a) Q) :
    Within (Working h timestamp st nft base) (withFlashGuard (poolCall f) >>= g) Q := by
  unfold withFlashGuard
  simp only [bind_assoc]
  refine .idle .get fun _ => .idle guard_idles fun _ => poolCall_within fun hrun hcall => ?_
  obtain ⟨hcarries, hg⟩ := hf hrun hcall
  refine ⟨hcarries, ?_⟩
  split
  · simp only [bind_assoc, pure_bind]
    exact .idleOn guard_idles fun _ => hg
  · simp only [pure_bind]
    exact hg

end Ctrl

namespace Positions

variable {a : Account}

theorem borrowIntoController_within {market : HubAssetKey} {amount : Int} {chargeFee : Bool} :
    Within (Working h timestamp st nft base)
      (borrowIntoController h timestamp a market amount chargeFee) fun _ => True := by
  refine .result fun _ _ => .idle validatePositionEntryGates_reads.idles fun _ =>
    .idle world_outward.idles fun _ =>
    Ctrl.guardedPoolCall_within fun {pool pool' r} hrun hcall => ?_
  obtain ⟨hcarries, hcur⟩ := (Strategy.apply_ranAt hcall).carries hrun
    (hrun.steps (.single (Strategy.apply_moved hcall).1.step))
  exact ⟨hcarries, .idleOn Payments.balanceDeltaSince_outward.idles fun _ => .assert fun _ =>
    .assert fun _ => .bind (mergeDebtLeg_within hcur) fun _ _ => .pure trivial⟩

end Positions

namespace Strategies

open Positions

variable {a : Account} {caller : Address}

theorem repayDebtFromController_within {debt : HubAssetKey} {available : Int}
    {debtPos : DebtPosition} :
    Within (Working h timestamp st nft base)
      (repayDebtFromController h timestamp a caller debt available debtPos) fun _ => True :=
  .idle Payments.transferAmountMeasured_outward.idles fun _ => .idle world_outward.idles fun _ =>
    .bind repayPrefundedPosition_within fun _ _ =>
    .idle Payments.refundControllerBalanceDelta_outward.idles fun _ => .pure trivial

theorem withdrawCollateralToController_within {market : HubAssetKey} {amount : Int}
    {position : AccountPosition} :
    Within (Working h timestamp st nft base)
      (withdrawCollateralToController h timestamp a market amount position) fun _ => True :=
  .idle world_outward.idles fun _ =>
    .bind (Ctrl.withFlashGuard_within executeWithdrawal_within) fun _ _ =>
    .idle Payments.balanceDeltaSince_outward.idles fun _ => .pure trivial

theorem withdrawAndSwapFromSupply_within {source : HubAssetKey} {amount : Int}
    {tokenOut : Address} {swap : StrategySwap} :
    Within (Working h timestamp st nft base)
      (withdrawAndSwapFromSupply h timestamp a caller source amount tokenOut swap)
      fun _ => True :=
  .unwrap fun _ _ => .bind withdrawCollateralToController_within fun _ _ =>
    .idle swapTokensOrPassthrough_outward.idles fun _ => .pure trivial

theorem withdrawAllOf_within {destination : Address} {market : HubAssetKey} :
    Within (Working h timestamp st nft base) (withdrawAllOf h timestamp destination a market)
      fun _ => True := by
  unfold withdrawAllOf
  split
  · exact .pure trivial
  · exact .bind executeWithdrawal_within fun _ _ => .pure trivial

theorem reserveWithdrawFootprint_within {destination : Address} {market : HubAssetKey} :
    Within (Working h timestamp st nft base)
      (reserveWithdrawFootprint h timestamp destination market) fun _ => True := by
  refine Ctrl.poolCall_within fun {pool pool' results} hrun hcall => ⟨?_, .pure trivial⟩
  exact (Ops.runBatch_ranAt (fun hleg => by
    obtain ⟨net, hm, -⟩ := Withdraw.apply_moved hleg
    exact ⟨Withdraw.apply_ranAt hleg, hm.step⟩) hrun hcall).1

theorem executeWithdrawAll_within {destination : Address} {repaid : HubAssetKey} :
    Within (Working h timestamp st nft base) (executeWithdrawAll h timestamp a destination repaid)
      fun _ => True :=
  .bind (Q := fun _ => True) (.ite (fun _ => .pure trivial) fun _ =>
    reserveWithdrawFootprint_within) fun _ _ =>
    .loop (I := fun _ => True) (fun _ _ _ _ => withdrawAllOf_within) a trivial

/-- Both legs of a settlement are merged on the markets it left. -/
theorem netSettleCollateralAgainstDebt_within {market : HubAssetKey} {amount : Int} :
    Within (Working h timestamp st nft base)
      (netSettleCollateralAgainstDebt h timestamp a market amount) fun _ => True := by
  refine .idle enforceSpokeAssetFlags_reads.idles fun _ => .unwrap fun _ _ => .unwrap fun _ _ =>
    Ctrl.poolCall_within fun {pool pool' r} hrun hcall => ?_
  obtain ⟨hcarries, hcur⟩ := (LiquidityPool.netSettle_ranAt hcall).carries hrun
    (hrun.steps (.single (LiquidityPool.netSettle_moved hcall).1.step))
  exact ⟨hcarries, .bind (mergeWithdrawLeg_within hcur) fun _ _ =>
    Spec.post (mergeDebtLeg_within hcur) fun _ _ => trivial⟩

theorem repayViaCollateralSwap_within {collateral debt : HubAssetKey} {amount : Int}
    {swap : StrategySwap} :
    Within (Working h timestamp st nft base)
      (repayViaCollateralSwap h timestamp caller a collateral amount debt swap) fun _ => True :=
  .unwrap fun _ _ => .bind withdrawAndSwapFromSupply_within fun _ _ =>
    repayDebtFromController_within

theorem closeAfterRepay_within {collateral : HubAssetKey} {closePosition : Bool} :
    Within (Working h timestamp st nft base)
      (closeAfterRepay h timestamp caller a collateral closePosition) fun _ => True :=
  .ite (fun _ => .assert fun _ => executeWithdrawAll_within) fun _ => .pure trivial

theorem mintAndForward_within {debt : HubAssetKey} {amount : Int} {receiver : Address} :
    Within (Working h timestamp st nft base) (mintAndForward h timestamp a debt amount receiver)
      fun _ => True :=
  .idle world_outward.idles fun _ => .bind borrowIntoController_within fun _ _ =>
    .idle Payments.balanceDeltaSince_outward.idles fun _ => .assert fun _ => .assert fun _ =>
    .idle Payments.transferAmountMeasured_outward.idles fun _ => .assert fun _ => .pure trivial

theorem fundAndCall_within {accountId : Nat} {p : FlashPositionParams} :
    Within (Working h timestamp st nft base) (fundAndCall h timestamp caller accountId a p)
      fun _ => True :=
  .bind mintAndForward_within fun _ _ => .idle Payments.snapshotBalances_outward.idles fun _ =>
    .idle Payments.snapshotBalances_outward.idles fun _ => .idle outside_outward.idles fun _ =>
    .pure trivial

theorem borrowMigrationDebt_within {hubId : Nat} {cap : PaymentTuple} :
    Within (Working h timestamp st nft base) (borrowMigrationDebt h timestamp hubId a cap)
      fun _ => True :=
  .result fun _ _ => .bind borrowIntoController_within fun _ _ => .pure trivial

theorem reconcileDebtRefund_within {hubId : Nat} {before : SortedMap Address Int}
    {cap : PaymentTuple} :
    Within (Working h timestamp st nft base)
      (reconcileDebtRefund h timestamp caller hubId before a cap) fun _ => True :=
  .idle Payments.balanceDeltaSince_outward.idles fun _ => .ite
    (fun _ => .unwrap fun _ _ => repayDebtFromController_within) fun _ => .pure trivial

theorem executeMigrationDebtLeg_within {p : MigrateBlendParams} :
    Within (Working h timestamp st nft base) (executeMigrationDebtLeg h timestamp caller p a)
      fun _ => True := by
  refine .ite (fun _ => .pure trivial) fun _ =>
    .idle Payments.snapshotBalances_outward.idles fun _ =>
    .bind (.loop (I := fun _ => True) (fun _ _ _ _ => borrowMigrationDebt_within) a trivial)
      fun _ _ => .idle guardedSubmit_outward.idles fun _ => ?_
  exact .loop (I := fun _ => True) (fun _ _ _ _ => reconcileDebtRefund_within) _ trivial

theorem sweepAndDeposit_within {p : MigrateBlendParams} :
    Within (Working h timestamp st nft base) (sweepAndDeposit h timestamp caller p a)
      fun _ => True := by
  refine .ite (fun _ => .idle Payments.snapshotBalances_outward.idles fun _ =>
    .idle guardedSubmit_outward.idles fun _ => ?_) fun _ => .pure trivial
  refine .idle (OutwardOnly.idles (.foldlM (fun _ _ =>
    .bind Payments.balanceDeltaSince_outward fun _ => .pure) [])) fun _ => ?_
  exact .ite (fun _ => Spec.post processDeposit_within fun _ _ => trivial) fun _ => .pure trivial

end Strategies

end Lending
