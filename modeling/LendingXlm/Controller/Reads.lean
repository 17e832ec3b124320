import LendingXlm.Controller.Liquidation.Apply

/-!
# Reading computations

Valuation, gates and liquidation planning read the contracts and fill the context; they write
nothing. `Reads` says what such a computation leaves alone, and every one of them is shown to
move along it, traps included.

`Quoted` is what its answers are worth: cached indexes are the pool's current ones and cached
prices came from the aggregator.
-/

namespace Lending

open Transaction Ctrl

variable {W : Type} {h : ControllerHost W} {timestamp : Nat}

/-- The index of `hubAsset` as of now. -/
def PoolCtx.CurrentIndex (timestamp : Nat) (pool : PoolCtx W) (hubAsset : HubAssetKey)
    (index : MarketIndex) : Prop :=
  ∃ now m, nowMs timestamp = .ok now ∧ pool.markets.get? hubAsset = some m ∧
    simulateUpdateIndexes now m = .ok index

/-- The aggregator reported `feed` for `asset`. -/
def ControllerHost.Reported (h : ControllerHost W) (asset : Address) (feed : PriceFeed) : Prop :=
  ∃ w aggregator, h.price w aggregator asset = .ok feed

namespace Invocation

structure Quoted (h : ControllerHost W) (timestamp : Nat) (s : Invocation W) : Prop where
  index : ∀ {hubAsset index}, s.cache.marketIndexes.get? hubAsset = some index →
    s.pool.CurrentIndex timestamp hubAsset index
  price : ∀ {asset feed}, s.cache.tokenPrices.get? asset = some feed → h.Reported asset feed

/-- A fresh context has quoted nothing yet. -/
theorem quoted_fresh {s : Invocation W} (hi : s.cache.marketIndexes = .empty)
    (hp : s.cache.tokenPrices = .empty) : s.Quoted h timestamp := by
  constructor
  · intro key index hget
    rw [hi] at hget
    cases hget
  · intro asset feed hget
    rw [hp] at hget
    cases hget

/-- `s'` differs from `s` in what the context has read, and in being bound to a spoke. -/
structure Reads (h : ControllerHost W) (timestamp : Nat) (s s' : Invocation W) : Prop where
  system : s'.toSystem = s.toSystem
  exits : s'.cache.exits = s.cache.exits
  spokeUsage : s'.cache.spokeUsage = s.cache.spokeUsage ∨
    (s.cache.spokeUsage = none ∧ ∃ spokeId, s'.cache.spokeUsage = some (.new spokeId))
  quoted : s.Quoted h timestamp → s'.Quoted h timestamp

instance : Std.Refl (Reads h timestamp (W := W)) where
  refl _ := ⟨rfl, rfl, .inl rfl, id⟩

instance : IsTrans (Invocation W) (Reads h timestamp) where
  trans s t u hst htu := by
    refine ⟨htu.system.trans hst.system, htu.exits.trans hst.exits, ?_,
      fun hq => htu.quoted (hst.quoted hq)⟩
    rcases hst.spokeUsage with heq | ⟨hnone, spokeId, hsome⟩
    · rw [← heq]
      exact htu.spokeUsage
    · rcases htu.spokeUsage with heq' | ⟨hnone', -⟩
      · exact .inr ⟨hnone, spokeId, heq'.trans hsome⟩
      · rw [hsome] at hnone'
        cases hnone'

/-- A change of the context alone that keeps the usage buffer and the exits. -/
theorem reads_of_cache {s : Invocation W} {c : Context} (hexits : c.exits = s.cache.exits)
    (husage : c.spokeUsage = s.cache.spokeUsage ∨
      (s.cache.spokeUsage = none ∧ ∃ spokeId, c.spokeUsage = some (.new spokeId)))
    (hq : s.Quoted h timestamp → Quoted h timestamp { s with cache := c }) :
    Reads h timestamp s { s with cache := c } :=
  ⟨rfl, hexits, husage, hq⟩

end Invocation

open Invocation

/-- A computation that only reads. -/
abbrev ReadsOnly (h : ControllerHost W) (timestamp : Nat) {α : Type} (x : Ctrl W α) : Prop :=
  Along (Reads h timestamp) x

/-! ## Calls -/

namespace Ctrl

section Inversion

variable {α β : Type} {s s' : Invocation W} {b : β}

theorem assertWithError_bind_ok {c : Prop} [Decidable c] {e : Error} {f : Unit → Ctrl W β}
    (hrun : (assertWithError c e >>= f) s = .ok b s') : c ∧ f () s = .ok b s' := by
  obtain ⟨_, hc, hrun⟩ := lift_bind_ok_iff.mp hrun
  exact ⟨Fallible.require_ok_iff.mp hc, hrun⟩

theorem unwrapOr_bind_ok {o : Option α} {e : Error} {f : α → Ctrl W β}
    (hrun : (unwrapOr o e >>= f) s = .ok b s') : ∃ a, o = some a ∧ f a s = .ok b s' := by
  obtain ⟨a, ho, hrun⟩ := lift_bind_ok_iff.mp hrun
  exact ⟨a, Fallible.orThrow_ok_iff.mp ho, hrun⟩

theorem store_bind_ok {f : ControllerStore → Ctrl W β}
    (hrun : (store >>= f) s = .ok b s') : f s.store s = .ok b s' := by
  obtain ⟨_, _, hstore, hrun⟩ := bind_ok_iff.mp hrun
  obtain ⟨_, _, hget, hpure⟩ := bind_ok_iff.mp hstore
  obtain ⟨rfl, rfl⟩ := get_ok_iff.mp hget
  obtain ⟨rfl, rfl⟩ := pure_ok_iff.mp hpure
  exact hrun

end Inversion

variable {α : Type} {I P : Invocation W → Prop} {Q : α → Invocation W → Prop}

/-- A call of the pool: what returns replaces the pool's state. -/
theorem poolCall_triple {f : PoolCtx W → Result (PoolCtx W × α)}
    (hf : ∀ s, I s → P s → ∀ pool a, f s.pool = .ok (pool, a) →
      I { s with pool } ∧ Q a { s with pool }) : Triple I P (poolCall f) Q := by
  refine Triple.bind Triple.get fun s => Triple.bind Triple.lift fun r =>
    Triple.bind (Q := fun _ => Q r.2) (Triple.modify ?_) fun _ => Triple.pure fun _ _ hQ => hQ
  rintro s' hI ⟨⟨hP, rfl⟩, hr⟩
  exact hf s hI hP r.1 r.2 hr

/-- A call outside the contracts. -/
theorem outside_triple {f : W → Result (W × α)}
    (hf : ∀ s, I s → P s → ∀ w a, f s.pool.world = .ok (w, a) →
      I { s with pool.world := w } ∧ Q a { s with pool.world := w }) :
    Triple I P (outside f) Q := by
  refine poolCall_triple fun s hI hP pool a hrun => ?_
  simp only [Fallible.bind_ok_iff, Fallible.pure_ok_iff, Prod.mk.injEq] at hrun
  obtain ⟨⟨w, b⟩, hw, rfl, rfl⟩ := hrun
  exact hf s hI hP w b hw

end Ctrl

/-! ## The context -/

namespace Ctrl

theorem assertWithError_reads {c : Prop} [Decidable c] {e : Error} :
    ReadsOnly h timestamp (assertWithError c e : Ctrl W Unit) :=
  .lift

theorem unwrapOr_reads {α : Type} {o : Option α} {e : Error} :
    ReadsOnly h timestamp (unwrapOr o e : Ctrl W α) :=
  .lift

theorem store_reads : ReadsOnly h timestamp (store : Ctrl W ControllerStore) :=
  .bind .get fun _ => .pure

end Ctrl

namespace Context

theorem fetchPrice_reads {asset : Address} : ReadsOnly h timestamp (fetchPrice h asset) := by
  intro s
  unfold fetchPrice unwrapOr modifyCache
  rw [final_get_bind]
  cases orThrow s.store.priceAggregator Error.aggregatorNotSet with
  | error e => exact Std.Refl.refl s
  | ok aggregator =>
    rw [final_ok_bind]
    cases hprice : h.price s.pool.world aggregator asset with
    | error e => exact Std.Refl.refl s
    | ok feed =>
      refine reads_of_cache rfl (.inl rfl) fun hq => ⟨hq.index, ?_⟩
      intro asset' feed' hget
      rw [SortedMap.get?_set] at hget
      split at hget
      · rename_i heq
        cases hget
        exact ⟨_, aggregator, heq ▸ hprice⟩
      · exact hq.price hget

theorem fetchPrices_reads {assets : List Address} :
    ReadsOnly h timestamp (fetchPrices h assets) :=
  .bind .get fun _ => .foldlM (fun _ _ => fetchPrice_reads) ()

/-- Looking up what a run of writes put into a map. -/
theorem get?_foldl_set {K V : Type} [LinearOrder K] {l : List (K × V)} {m : SortedMap K V}
    {k : K} {v : V} (hget : (l.foldl (fun m e => m.set e.1 e.2) m).get? k = some v) :
    m.get? k = some v ∨ (k, v) ∈ l := by
  induction l generalizing m with
  | nil => exact .inl hget
  | cons e l ih =>
    rcases ih hget with hm | hl
    · rw [SortedMap.get?_set] at hm
      split at hm
      · rename_i heq
        cases hm
        exact .inr (heq ▸ List.mem_cons_self)
      · exact .inl hm
    · exact .inr (List.mem_cons_of_mem _ hl)

/-- Every index of a bulk read is the market's current one. -/
theorem getBulkIndexes_mem {pool : PoolCtx W} {hubAssets : List HubAssetKey}
    {indexes : List MarketIndex}
    (hbulk : getBulkIndexes pool.markets.get? timestamp hubAssets = .ok indexes)
    {e : HubAssetKey × MarketIndex} (he : e ∈ hubAssets.zip indexes) :
    pool.CurrentIndex timestamp e.1 e.2 := by
  unfold getBulkIndexes at hbulk
  obtain ⟨now, hnow, hmap⟩ := Fallible.bind_ok hbulk
  clear hbulk
  induction hubAssets generalizing indexes with
  | nil => simp at he
  | cons key keys ih =>
    rw [List.mapM_cons] at hmap
    simp only [Fallible.bind_ok_iff, Fallible.pure_ok_iff, Fallible.orThrow_ok_iff] at hmap
    obtain ⟨index, ⟨m, hget, hsim⟩, rest, hrest, rfl⟩ := hmap
    rw [List.zip_cons_cons] at he
    rcases List.mem_cons.mp he with rfl | he
    · exact ⟨now, m, hnow, hget, hsim⟩
    · exact ih he hrest

theorem fetchMarketIndexes_reads {hubAssets : List HubAssetKey} :
    ReadsOnly h timestamp (fetchMarketIndexes timestamp hubAssets : Ctrl W Unit) := by
  intro s
  unfold fetchMarketIndexes modifyCache
  rw [final_get_bind]
  dsimp only
  split
  · exact Std.Refl.refl s
  cases hbulk : getBulkIndexes s.pool.markets.get? timestamp
      (collectUncachedKeys hubAssets s.cache.marketIndexes) with
  | error e => exact Std.Refl.refl s
  | ok indexes =>
    refine reads_of_cache rfl (.inl rfl) fun hq => ⟨?_, hq.price⟩
    intro key index hget
    rcases get?_foldl_set hget with hold | hnew
    · exact hq.index hold
    · exact getBulkIndexes_mem hbulk hnew

theorem loadMarkets_reads {hubAssets : List HubAssetKey} :
    ReadsOnly h timestamp (loadMarkets h timestamp hubAssets) :=
  .bind fetchPrices_reads fun _ => fetchMarketIndexes_reads

theorem cachedMarketIndex_reads {hubAsset : HubAssetKey} :
    ReadsOnly h timestamp (cachedMarketIndex timestamp hubAsset : Ctrl W MarketIndex) :=
  .bind fetchMarketIndexes_reads fun _ => .bind .get fun _ => unwrapOr_reads

theorem cachedPrice_reads {asset : Address} :
    ReadsOnly h timestamp (cachedPrice asset : Ctrl W PriceFeed) :=
  .bind .get fun _ => unwrapOr_reads

theorem requireHubActive_reads {hubId : Nat} :
    ReadsOnly h timestamp (requireHubActive hubId : Ctrl W Unit) :=
  .bind store_reads fun _ => .lift

theorem cachedPoolSyncData_reads {hubAsset : HubAssetKey} :
    ReadsOnly h timestamp (cachedPoolSyncData hubAsset : Ctrl W PoolSyncData) :=
  .bind .get fun _ => .lift

theorem ensureSpokeContext_reads {spokeId : Nat} :
    ReadsOnly h timestamp (ensureSpokeContext spokeId : Ctrl W SpokeUsageContext) := by
  intro s
  unfold ensureSpokeContext modifyCache
  rw [final_get_bind]
  split
  · rename_i ctx hctx
    exact Along.bind assertWithError_reads (fun _ => .pure) s
  · rename_i hnone
    exact reads_of_cache rfl (.inr ⟨hnone, spokeId, rfl⟩) fun hq => ⟨hq.index, hq.price⟩

theorem cachedSpokeAsset_reads {spokeId : Nat} {hubAsset : HubAssetKey} :
    ReadsOnly h timestamp
      (cachedSpokeAsset spokeId hubAsset : Ctrl W (Option SpokeAssetConfig)) :=
  .bind ensureSpokeContext_reads fun _ => .bind store_reads fun _ => .pure

theorem requireSpokeAssetConfig_reads {spokeId : Nat} {hubAsset : HubAssetKey} :
    ReadsOnly h timestamp
      (requireSpokeAssetConfig spokeId hubAsset : Ctrl W SpokeAssetConfig) :=
  .bind cachedSpokeAsset_reads fun _ => unwrapOr_reads

theorem requireSpokeAsset_reads {spokeId : Nat} {hubAsset : HubAssetKey} :
    ReadsOnly h timestamp (requireSpokeAsset spokeId hubAsset : Ctrl W AssetConfig) :=
  .bind requireSpokeAssetConfig_reads fun _ => .pure

theorem spokeConfig_reads {spokeId : Nat} :
    ReadsOnly h timestamp (spokeConfig spokeId : Ctrl W SpokeConfig) :=
  .bind ensureSpokeContext_reads fun _ => .bind store_reads fun _ => .lift

theorem activeSpoke_reads {spokeId : Nat} :
    ReadsOnly h timestamp (activeSpoke spokeId : Ctrl W SpokeConfig) :=
  .bind spokeConfig_reads fun _ => .bind assertWithError_reads fun _ => .pure

theorem requireListedActiveConfig_reads {spokeId : Nat} {hubAsset : HubAssetKey} :
    ReadsOnly h timestamp
      (requireListedActiveConfig spokeId hubAsset : Ctrl W AssetConfig) :=
  .bind activeSpoke_reads fun _ => requireSpokeAsset_reads

end Context

open Context

/-! ## Risk -/

namespace Risk

theorem sumDebtUsdLoaded_reads {borrowPositions : SortedMap HubAssetKey DebtPosition}
    {value : Int → Int → Int → Result Int} :
    ReadsOnly h timestamp (sumDebtUsdLoaded timestamp borrowPositions value : Ctrl W Int) :=
  .foldlM (fun _ _ => .bind cachedPrice_reads fun _ => .bind cachedMarketIndex_reads fun _ =>
    .bind .lift fun _ => .lift) _

theorem addCollateral_reads {sums : Int × Int × Int} {e : HubAssetKey × AccountPosition} :
    ReadsOnly h timestamp (addCollateral timestamp sums e : Ctrl W (Int × Int × Int)) := by
  obtain ⟨hubAsset, position⟩ := e
  refine .bind cachedPrice_reads fun _ => .bind cachedMarketIndex_reads fun _ => ?_
  exact .bind .lift fun _ => .bind .lift fun _ => .bind .lift fun _ => .bind .lift fun _ =>
    .bind .lift fun _ => .bind .lift fun _ => .bind .lift fun _ => .pure

theorem calculateAccountRiskTotals_reads
    {supplyPositions : SortedMap HubAssetKey AccountPosition}
    {borrowPositions : SortedMap HubAssetKey DebtPosition} :
    ReadsOnly h timestamp
      (calculateAccountRiskTotals h timestamp supplyPositions borrowPositions) :=
  .bind loadMarkets_reads fun _ => .bind (.foldlM (fun _ _ => addCollateral_reads) _) fun _ =>
    .bind sumDebtUsdLoaded_reads fun _ => .bind .lift fun _ => .pure

theorem requireNotFlashLoaning_reads :
    ReadsOnly h timestamp (requireNotFlashLoaning : Ctrl W Unit) :=
  .bind .get fun _ => assertWithError_reads

theorem requireWholeUnitCollateralFloor_reads {account : Account} :
    ReadsOnly h timestamp (requireWholeUnitCollateralFloor timestamp account : Ctrl W Unit) :=
  .foldlM (fun _ _ => .bind cachedPrice_reads fun _ =>
    .ite .pure (.bind cachedMarketIndex_reads fun _ =>
      .bind .lift fun _ => .bind .lift fun _ => assertWithError_reads)) ()

theorem requirePostPoolRiskGates_reads {account : Account} :
    ReadsOnly h timestamp (requirePostPoolRiskGates h timestamp account) :=
  .ite .pure (.bind calculateAccountRiskTotals_reads fun _ =>
    .bind assertWithError_reads fun _ => .bind assertWithError_reads fun _ =>
    .bind store_reads fun _ => .bind assertWithError_reads fun _ =>
    requireWholeUnitCollateralFloor_reads)

theorem validateBulkPositionLimits_reads {account : Account} {side : AccountPositionType}
    {aggregated : List HubPayment} :
    ReadsOnly h timestamp (validateBulkPositionLimits account side aggregated : Ctrl W Unit) :=
  .bind store_reads fun _ => assertWithError_reads

theorem requireWholeUnitIsolation_reads {account : Account} {aggregated : List HubPayment} :
    ReadsOnly h timestamp (requireWholeUnitIsolation account aggregated : Ctrl W Unit) :=
  .ite .pure (.foldlM (fun _ _ =>
    .bind cachedPoolSyncData_reads fun _ => assertWithError_reads) ())

theorem clearsMinHf_reads {account : Account} {hubAsset : HubAssetKey}
    {position : AccountPosition} {newLt : Nat} :
    ReadsOnly h timestamp (clearsMinHf h timestamp account hubAsset position newLt) :=
  .bind calculateAccountRiskTotals_reads fun _ => .pure

theorem applyGatedLiquidationParams_reads {account : Account} {hubAsset : HubAssetKey}
    {position : AccountPosition} {config : AssetConfig} :
    ReadsOnly h timestamp
      (applyGatedLiquidationParams h timestamp account hubAsset position config) :=
  .bind (.ite (.bind clearsMinHf_reads fun _ => .pure) .pure) fun _ => .ite .pure .pure

theorem refreshSupplyRiskParams_reads {account : Account} {hubAsset : HubAssetKey}
    {position : AccountPosition} {config : AssetConfig} {scope : RiskRefreshScope} :
    ReadsOnly h timestamp
      (refreshSupplyRiskParams h timestamp account hubAsset position config scope) :=
  .ite applyGatedLiquidationParams_reads .pure

theorem restampListedSupplyLtvOf_reads {keys : List HubAssetKey} {acc : Account × Bool}
    {hubAsset : HubAssetKey} :
    ReadsOnly h timestamp
      (restampListedSupplyLtvOf timestamp keys acc hubAsset : Ctrl W (Account × Bool)) := by
  refine .bind cachedSpokeAsset_reads fun config => ?_
  cases config with
  | none => exact .pure
  | some config =>
    dsimp only
    split
    · exact .pure
    · exact .ite .pure (.bind fetchMarketIndexes_reads fun _ =>
        .bind cachedMarketIndex_reads fun _ => .pure)

theorem restampListedSupplyLtv_reads {account : Account} :
    ReadsOnly h timestamp (restampListedSupplyLtv timestamp account : Ctrl W (Account × Bool)) :=
  .foldlM (fun _ _ => restampListedSupplyLtvOf_reads) _

theorem syncThresholdOf_reads {scope : RiskRefreshScope} {acc : Account × Bool}
    {hubAsset : HubAssetKey} :
    ReadsOnly h timestamp (syncThresholdOf h timestamp scope acc hubAsset) := by
  refine .bind cachedSpokeAsset_reads fun config => ?_
  cases config with
  | none => exact .pure
  | some config =>
    exact .bind .lift fun _ => .bind refreshSupplyRiskParams_reads fun _ =>
      .ite .pure (.bind cachedMarketIndex_reads fun _ => .pure)

end Risk

namespace Storage

theorem tryAccountOwner_reads {accountId : Nat} :
    ReadsOnly h timestamp (tryAccountOwner h accountId) :=
  .bind .get fun _ => .ite .pure .pure

theorem accountOwner_reads {accountId : Nat} :
    ReadsOnly h timestamp (accountOwner h accountId) :=
  .bind tryAccountOwner_reads fun _ => unwrapOr_reads

theorem getAccountMeta_reads {accountId : Nat} :
    ReadsOnly h timestamp (getAccountMeta accountId : Ctrl W AccountMeta) :=
  .bind store_reads fun _ => unwrapOr_reads

theorem getAccount_reads {accountId : Nat} : ReadsOnly h timestamp (getAccount h accountId) :=
  .bind store_reads fun _ => .bind unwrapOr_reads fun _ => .bind accountOwner_reads fun _ => .pure

theorem getAccountBorrowOnly_reads {accountId : Nat} :
    ReadsOnly h timestamp (getAccountBorrowOnly h accountId) :=
  .bind getAccountMeta_reads fun _ => .bind accountOwner_reads fun _ =>
    .bind store_reads fun _ => .pure

end Storage

namespace Account

theorem isOwnerOrDelegate_reads {accountId : Nat} {caller owner : Address} :
    ReadsOnly h timestamp (isOwnerOrDelegate accountId caller owner : Ctrl W Bool) :=
  .bind store_reads fun _ => .pure

theorem requireOwnerOrDelegate_reads {accountId : Nat} {caller owner : Address} :
    ReadsOnly h timestamp (requireOwnerOrDelegate accountId caller owner : Ctrl W Unit) :=
  .bind isOwnerOrDelegate_reads fun _ => assertWithError_reads

theorem requireGuard_reads {guard : AccountGuard} {accountId : Nat} {caller : Address}
    {account : Account} {spokeId : Nat} {mode : PositionMode} :
    ReadsOnly h timestamp
      (requireGuard guard accountId caller account spokeId mode : Ctrl W Unit) := by
  cases guard with
  | supply => exact assertWithError_reads
  | migrate => exact .bind requireOwnerOrDelegate_reads fun _ => assertWithError_reads
  | multiply =>
    exact .bind requireOwnerOrDelegate_reads fun _ => .bind assertWithError_reads fun _ =>
      assertWithError_reads

theorem requireAccountOwner_reads {accountId : Nat} {caller : Address} :
    ReadsOnly h timestamp (requireAccountOwner h accountId caller) :=
  .bind Storage.getAccountMeta_reads fun _ => .bind Storage.accountOwner_reads fun _ =>
    .bind assertWithError_reads fun _ => .pure

end Account

/-! ## Position gates -/

namespace Positions

theorem enforceSpokeAssetFlags_reads {spokeId : Nat} {hubAsset : HubAssetKey}
    {freeze : FreezePolicy} :
    ReadsOnly h timestamp (enforceSpokeAssetFlags spokeId hubAsset freeze : Ctrl W Unit) := by
  refine .bind cachedSpokeAsset_reads fun config => ?_
  cases config with
  | none => exact .pure
  | some sa =>
    cases freeze with
    | blockOnEntry => exact .bind assertWithError_reads fun _ => assertWithError_reads
    | allowOnExit => exact assertWithError_reads
    | seizureLeg => exact assertWithError_reads

theorem enforcePostPoolSolvency_reads {account : Account} :
    ReadsOnly h timestamp (enforcePostPoolSolvency h timestamp account) :=
  .bind Risk.restampListedSupplyLtv_reads fun _ =>
    .bind Risk.requirePostPoolRiskGates_reads fun _ => .pure

theorem requireListedUnhaltedConfig_reads {spokeId : Nat} {hubAsset : HubAssetKey} :
    ReadsOnly h timestamp
      (requireListedUnhaltedConfig spokeId hubAsset : Ctrl W AssetConfig) :=
  .bind requireHubActive_reads fun _ => .bind requireListedActiveConfig_reads fun _ =>
    .bind enforceSpokeAssetFlags_reads fun _ => .pure

theorem requireCanBorrow_reads {spokeId : Nat} {hubAsset : HubAssetKey} :
    ReadsOnly h timestamp (requireCanBorrow spokeId hubAsset : Ctrl W Unit) :=
  .bind requireListedUnhaltedConfig_reads fun _ => assertWithError_reads

theorem requireCanSupply_reads {spokeId : Nat} {hubAsset : HubAssetKey} :
    ReadsOnly h timestamp (requireCanSupply spokeId hubAsset : Ctrl W Unit) :=
  .bind requireListedUnhaltedConfig_reads fun _ => assertWithError_reads

theorem validatePositionEntryGates_reads {account : Account} {aggregated : List HubPayment}
    {side : AccountPositionType} :
    ReadsOnly h timestamp (validatePositionEntryGates account aggregated side : Ctrl W Unit) := by
  refine .bind Risk.validateBulkPositionLimits_reads fun _ => ?_
  cases side with
  | deposit =>
    exact .bind Risk.requireWholeUnitIsolation_reads fun _ =>
      .foldlM (fun _ _ => requireCanSupply_reads) ()
  | borrow => exact .foldlM (fun _ _ => requireCanBorrow_reads) ()

theorem legMayRestampRiskParams_reads {kind : WithdrawKind} {account : Account}
    {hubAsset : HubAssetKey} {newScaled : Int} :
    ReadsOnly h timestamp
      (legMayRestampRiskParams kind account hubAsset newScaled : Ctrl W Bool) :=
  .ite .pure (.bind cachedSpokeAsset_reads fun _ => .pure)

theorem withdrawEntry_reads {account : Account} {entries : List PoolWithdrawEntry}
    {payment : HubPayment} :
    ReadsOnly h timestamp
      (withdrawEntry account entries payment : Ctrl W (List PoolWithdrawEntry)) :=
  .bind enforceSpokeAssetFlags_reads fun _ => .bind unwrapOr_reads fun _ => .pure

theorem requireThirdPartyExistingSupply_reads {accountId resolvedAccountId : Nat}
    {caller : Address} {account : Account} {aggregated : List HubPayment} :
    ReadsOnly h timestamp (requireThirdPartyExistingSupply accountId resolvedAccountId caller
      account aggregated : Ctrl W Unit) :=
  .bind Account.isOwnerOrDelegate_reads fun _ => assertWithError_reads

end Positions

/-! ## Liquidation plans -/

namespace Liquidation

theorem getAccountBonusParams_reads {supplyPositions : SortedMap HubAssetKey AccountPosition}
    {totalCollateral proportionSeized : Int} :
    ReadsOnly h timestamp (getAccountBonusParams timestamp supplyPositions totalCollateral
      proportionSeized : Ctrl W BonusBounds) :=
  .bind .lift fun _ => .ite .pure (.bind (.foldlM (fun _ _ =>
    .bind cachedPrice_reads fun _ => .bind cachedMarketIndex_reads fun _ => .bind .lift fun _ =>
      .bind unwrapOr_reads fun _ => unwrapOr_reads) _) fun _ => .bind .lift fun _ => .pure)

theorem calculateSeizureProportions_reads {account : Account}
    {totalCollateral weightedCollateral : Int} :
    ReadsOnly h timestamp (calculateSeizureProportions timestamp account totalCollateral
      weightedCollateral : Ctrl W (Int × BonusBounds)) :=
  .bind .lift fun _ => .bind getAccountBonusParams_reads fun _ => .pure

theorem planRepayment_reads {account : Account} {acc : RepaymentAcc} {payment : HubPayment} :
    ReadsOnly h timestamp (planRepayment timestamp account acc payment : Ctrl W RepaymentAcc) :=
  .bind cachedPrice_reads fun _ => .bind cachedMarketIndex_reads fun _ =>
    .bind unwrapOr_reads fun _ => .bind .lift fun _ => .bind .lift fun _ =>
    .bind .lift fun _ => .pure

theorem calculateRepaymentAmounts_reads {rawPayments : List HubPayment} {account : Account} :
    ReadsOnly h timestamp
      (calculateRepaymentAmounts timestamp rawPayments account : Ctrl W RepaymentAcc) :=
  .bind .lift fun _ => .foldlM (fun _ _ => planRepayment_reads) _

theorem repaysEveryDebtLeg_reads {account : Account} {repaid : List RepayEntry} :
    ReadsOnly h timestamp (repaysEveryDebtLeg timestamp account repaid : Ctrl W Bool) := by
  refine .ite .pure (.foldlM (fun all entry => .ite .pure ?_) _)
  split
  · exact .pure
  · exact .bind cachedMarketIndex_reads fun _ => .bind .lift fun _ => .pure

theorem oneUnitPerDebtLegUsd_reads {account : Account} :
    ReadsOnly h timestamp (oneUnitPerDebtLegUsd account : Ctrl W Int) :=
  .foldlM (fun _ _ => .bind cachedPrice_reads fun _ => .bind .lift fun _ =>
    .bind .lift fun _ => .lift) _

theorem wholeUnitQuote_reads {account : Account} {snap : LiquidationSnapshot} {feed : PriceFeed}
    {quoteUsd bonus : Int} :
    ReadsOnly h timestamp (wholeUnitQuote account snap feed quoteUsd bonus : Ctrl W Int) :=
  .bind .lift fun _ => .bind .lift fun _ => .bind .lift fun _ => .bind .lift fun _ =>
    .bind .lift fun _ => .bind .lift fun _ => .ite .pure (.bind .lift fun _ =>
    .bind oneUnitPerDebtLegUsd_reads fun _ => .bind .lift fun _ =>
    .ite .pure (.bind .lift fun _ => .ite .pure .pure))

theorem wholeUnitRepayment_reads {account : Account} {snap : LiquidationSnapshot}
    {quoteUsd bonus : Int} :
    ReadsOnly h timestamp
      (wholeUnitRepayment timestamp account snap quoteUsd bonus : Ctrl W Int) := by
  unfold wholeUnitRepayment
  split
  · exact .bind cachedPrice_reads fun _ => .ite .pure (.bind cachedMarketIndex_reads fun _ =>
      .bind .lift fun _ => .bind .lift fun _ => .ite .pure wholeUnitQuote_reads)
  · exact .pure

theorem normalizeRepaymentPlan_reads {account : Account} {rawPayments : List HubPayment}
    {snap : LiquidationSnapshot} {bonusBounds : BonusBounds} {curve : LiquidationCurve} :
    ReadsOnly h timestamp (normalizeRepaymentPlan timestamp account rawPayments snap bonusBounds
      curve : Ctrl W NormalizedRepaymentPlan) :=
  .bind calculateRepaymentAmounts_reads fun _ => .bind .lift fun _ =>
    .bind (.ite .pure wholeUnitRepayment_reads) fun _ => .bind .lift fun _ =>
    .bind .lift fun _ => .bind .lift fun _ =>
    .bind (.ite repaysEveryDebtLeg_reads .pure) fun _ => .pure

theorem seizePosition_reads {repayment : NormalizedRepaymentPlan}
    {totalCollateral onePlusBonus totalSeizureUsd : Int} {acc : List SeizeEntry × Int}
    {e : HubAssetKey × AccountPosition} :
    ReadsOnly h timestamp (seizePosition timestamp repayment totalCollateral onePlusBonus
      totalSeizureUsd acc e : Ctrl W (List SeizeEntry × Int)) :=
  .bind cachedPrice_reads fun _ => .bind cachedMarketIndex_reads fun _ => .bind .lift fun _ =>
    .bind .lift fun _ => .bind .lift fun _ => .bind .lift fun _ => .bind .lift fun _ =>
    .bind .lift fun _ => .ite .pure (.bind .lift fun _ => .pure)

theorem calculateSeizedCollateral_reads {account : Account} {totalCollateral : Int}
    {repayment : NormalizedRepaymentPlan} :
    ReadsOnly h timestamp (calculateSeizedCollateral timestamp account totalCollateral
      repayment : Ctrl W (List SeizeEntry × Int)) :=
  .ite .pure (.bind .lift fun _ => .bind .lift fun _ => .bind .lift fun _ =>
    .bind (.foldlM (fun _ _ => seizePosition_reads) _) fun _ => .bind .lift fun _ => .pure)

theorem liquidationSnapshot_reads {account : Account} :
    ReadsOnly h timestamp (liquidationSnapshot h timestamp account) :=
  .bind Risk.calculateAccountRiskTotals_reads fun _ => .bind assertWithError_reads fun _ =>
    .bind calculateSeizureProportions_reads fun _ => .bind spokeConfig_reads fun _ => .pure

theorem assembleLiquidationPlan_reads {account : Account} {rawPayments : List HubPayment} :
    ReadsOnly h timestamp (assembleLiquidationPlan h timestamp account rawPayments) :=
  .bind assertWithError_reads fun _ =>
    .bind (.foldlM (fun _ _ => Positions.enforceSpokeAssetFlags_reads) _) fun _ =>
    .bind liquidationSnapshot_reads fun _ => .bind normalizeRepaymentPlan_reads fun _ =>
    .bind calculateSeizedCollateral_reads fun _ => .bind .lift fun _ => .bind .lift fun _ =>
    .bind (.foldlM (fun _ _ => Positions.enforceSpokeAssetFlags_reads) _) fun _ => .pure

theorem buildLiquidationPlan_reads {account : Account} {rawPayments : List HubPayment} :
    ReadsOnly h timestamp (buildLiquidationPlan h timestamp account rawPayments) :=
  .bind assembleLiquidationPlan_reads fun _ => .bind .lift fun _ => .pure

theorem seizureEntry_reads {account : Account} {entries : List PoolWithdrawEntry}
    {entry : SeizeEntry} :
    ReadsOnly h timestamp
      (seizureEntry account entries entry : Ctrl W (List PoolWithdrawEntry)) :=
  .bind Positions.enforceSpokeAssetFlags_reads fun _ => .bind .lift fun _ => .pure

theorem creditSupplyShares_reads {receiver : Account} {hubAsset : HubAssetKey} {scaled : Int} :
    ReadsOnly h timestamp (creditSupplyShares receiver hubAsset scaled : Ctrl W Account) := by
  refine .ite .pure (.bind ?_ fun _ => .bind .lift fun _ => .pure)
  split
  · exact .pure
  · exact .bind requireSpokeAsset_reads fun _ => .pure

theorem requireCreditPositionLimit_reads {receiver : Account} {seized : List SeizeEntry}
    {fresh : Bool} :
    ReadsOnly h timestamp (requireCreditPositionLimit receiver seized fresh : Ctrl W Unit) :=
  .bind .lift fun _ => .ite Risk.requireWholeUnitIsolation_reads
    (.bind Risk.validateBulkPositionLimits_reads fun _ => Risk.requireWholeUnitIsolation_reads)

theorem recordShareCreditUpdates_reads {receiver : Account} {seized : List SeizeEntry} :
    ReadsOnly h timestamp (recordShareCreditUpdates receiver seized : Ctrl W Unit) :=
  .foldlM (fun _ _ => .bind .lift fun _ => .ite .pure (.bind unwrapOr_reads fun _ =>
    .bind .lift fun _ => .bind .lift fun _ => .pure)) ()

theorem loadCreditReceiver_reads {accountId : Nat} {account : Account} {requested : Nat} :
    ReadsOnly h timestamp (loadCreditReceiver h accountId account requested) :=
  .bind assertWithError_reads fun _ => .bind Storage.getAccount_reads fun _ =>
    .bind assertWithError_reads fun _ => .bind assertWithError_reads fun _ => .pure

end Liquidation

/-! ## Answers -/

/-- The invocation sees `pool`, and what it has quoted holds there. -/
structure Invocation.Sees (h : ControllerHost W) (timestamp : Nat) (pool : PoolCtx W)
    (s : Invocation W) : Prop where
  pool_eq : s.pool = pool
  quoted : s.Quoted h timestamp

/-- A computation that only reads `pool`; what it returns satisfies `Q`. -/
def Answers (h : ControllerHost W) (timestamp : Nat) (pool : PoolCtx W) {α : Type} (x : Ctrl W α)
    (Q : α → Prop) : Prop :=
  Triple (fun _ => True) (Sees h timestamp pool) x fun a s => Sees h timestamp pool s ∧ Q a

namespace Answers

variable {pool : PoolCtx W} {α β : Type} {x : Ctrl W α} {f : α → Ctrl W β} {P Q : α → Prop}
  {R : β → Prop}

theorem ok {s s' : Invocation W} {a : α} (hx : Answers h timestamp pool x Q)
    (hs : s.Sees h timestamp pool) (h1 : x s = .ok a s') : s'.Sees h timestamp pool ∧ Q a :=
  (Triple.ok hx trivial hs h1).2

theorem of_reads (hx : ReadsOnly h timestamp x) : Answers h timestamp pool x fun _ => True := by
  refine (hx.keeps (fun _ _ _ _ => trivial) ?_).post fun _ _ _ hs => ⟨hs, trivial⟩
  intro s s' hr hs
  refine ⟨?_, hr.quoted hs.quoted⟩
  rw [← hs.pool_eq]
  exact congrArg System.pool hr.system

theorem mono (hx : Answers h timestamp pool x P) (himp : ∀ a, P a → Q a) :
    Answers h timestamp pool x Q :=
  Triple.post hx fun a _ _ hs => ⟨hs.1, himp a hs.2⟩

theorem pure {a : α} (ha : Q a) : Answers h timestamp pool (pure a : Ctrl W α) Q :=
  Triple.pure fun _ _ hs => ⟨hs, ha⟩

theorem lift {r : Result α} (hr : ∀ a, r = .ok a → Q a) :
    Answers h timestamp pool (liftM r : Ctrl W α) Q :=
  Triple.post Triple.lift fun a _ _ hs => ⟨hs.1, hr a hs.2⟩

theorem bind (hx : Answers h timestamp pool x P)
    (hf : ∀ a, P a → Answers h timestamp pool (f a) R) : Answers h timestamp pool (x >>= f) R :=
  Triple.bind hx fun a s hI hs => hf a hs.2 s hI hs.1

/-- A read whose answer does not matter. -/
theorem skip (hx : ReadsOnly h timestamp x) (hf : ∀ a, Answers h timestamp pool (f a) R) :
    Answers h timestamp pool (x >>= f) R :=
  bind (of_reads hx) fun a _ => hf a

theorem ite {c : Prop} [Decidable c] {y : Ctrl W α} (hx : c → Answers h timestamp pool x Q)
    (hy : ¬ c → Answers h timestamp pool y Q) :
    Answers h timestamp pool (if c then x else y) Q :=
  Triple.ite hx hy

theorem foldlM {P : β → List α → Prop} {g : β → α → Ctrl W β} {xs : List α}
    (hg : ∀ b a rest, a ∈ xs → P b (a :: rest) →
      Answers h timestamp pool (g b a) fun b' => P b' rest) (b : β) (hb : P b xs) :
    Answers h timestamp pool (xs.foldlM g b) fun b' => P b' [] := by
  have hloop := Triple.foldlM (I := fun _ => True) (f := g) (l := xs)
    (P := fun b rest s => Sees h timestamp pool s ∧ P b rest)
    (fun b a rest ha s hI hs => hg b a rest ha hs.2 s hI hs.1) b
  exact hloop.pre fun s _ hs => ⟨hs, hb⟩

end Answers

theorem Context.cachedMarketIndex_answers {pool : PoolCtx W} {hubAsset : HubAssetKey} :
    Answers h timestamp pool (cachedMarketIndex timestamp hubAsset : Ctrl W MarketIndex)
      (pool.CurrentIndex timestamp hubAsset) := by
  refine .skip fetchMarketIndexes_reads fun _ =>
    Triple.bind Triple.get fun s => Triple.lift.post ?_
  rintro index s' - ⟨⟨hs, rfl⟩, hget⟩
  rw [Fallible.orThrow_ok_iff] at hget
  exact ⟨hs, hs.pool_eq ▸ hs.quoted.index hget⟩

theorem Context.cachedPrice_answers {pool : PoolCtx W} {asset : Address} :
    Answers h timestamp pool (cachedPrice asset : Ctrl W PriceFeed) (h.Reported asset) := by
  refine Triple.bind Triple.get fun s => Triple.lift.post ?_
  rintro feed s' - ⟨⟨hs, rfl⟩, hget⟩
  rw [Fallible.orThrow_ok_iff] at hget
  exact ⟨hs, hs.quoted.price hget⟩

/-! ## Computations that write the context only -/

/-- The contracts and the world are untouched. -/
def Invocation.SameSystem (s s' : Invocation W) : Prop := s'.toSystem = s.toSystem

instance : Std.Refl (SameSystem (W := W)) where
  refl _ := rfl

instance : IsTrans (Invocation W) SameSystem where
  trans _ _ _ hst htu := htu.trans hst

/-- A computation whose writes stay in the context. -/
abbrev ContextOnly {α : Type} (x : Ctrl W α) : Prop := Along SameSystem x

namespace Context

theorem ensureSpokeContext_contextOnly {spokeId : Nat} :
    ContextOnly (ensureSpokeContext spokeId : Ctrl W SpokeUsageContext) := by
  refine .bind .get fun s => ?_
  split
  · exact .bind .lift fun _ => .pure
  · exact .bind (.modify fun _ => rfl) fun _ => .pure

theorem applySpokeExit_contextOnly {spokeId : Nat} {side : UsageSide} {hubAsset : HubAssetKey}
    {delta : Int} : ContextOnly (applySpokeExit spokeId side hubAsset delta : Ctrl W Unit) :=
  .bind ensureSpokeContext_contextOnly fun _ => .bind (.bind .get fun _ => .pure) fun _ =>
    .bind (.modify fun _ => rfl) fun _ => .bind .lift fun _ => .modify fun _ => rfl

theorem requireSpokeAsset_contextOnly {spokeId : Nat} {hubAsset : HubAssetKey} :
    ContextOnly (requireSpokeAssetConfig spokeId hubAsset : Ctrl W SpokeAssetConfig) :=
  .bind (.bind ensureSpokeContext_contextOnly fun _ => .bind (.bind .get fun _ => .pure)
    fun _ => .pure) fun _ => .lift

theorem applySpokeEntry_contextOnly {spokeId : Nat} {side : UsageSide} {hubAsset : HubAssetKey}
    {delta : Int} {marketIndex : MarketIndex} {decimals : Nat} :
    ContextOnly (applySpokeEntry spokeId side hubAsset delta marketIndex decimals :
      Ctrl W Unit) :=
  .bind requireSpokeAsset_contextOnly fun _ => .bind ensureSpokeContext_contextOnly fun _ =>
    .bind (.bind .get fun _ => .pure) fun _ => .bind .lift fun _ => .modify fun _ => rfl

end Context

theorem ContextOnly.of_reads (h : ControllerHost W) (timestamp : Nat) {α : Type} {x : Ctrl W α}
    (hx : ReadsOnly h timestamp x) : ContextOnly x :=
  Along.mono hx fun _ _ => Reads.system

namespace Positions

variable {a : Account} {market : HubAssetKey}

theorem applyLegUsage_contextOnly {spokeId : Nat} {side : UsageSide} {direction : LegDirection}
    {oldScaled : Int} {outcome : LegOutcome} :
    ContextOnly (applyLegUsage spokeId side market direction oldScaled outcome : Ctrl W Unit) := by
  cases direction with
  | entry decimals => exact .bind .lift fun _ => Context.applySpokeEntry_contextOnly
  | exit => exact .bind .lift fun _ => Context.applySpokeExit_contextOnly

theorem forEachLeg_contextOnly {E R α : Type} {entries : List E} {results : List R}
    {f : α → E × R → Ctrl W α} {init : α} (hf : ∀ a leg, ContextOnly (f a leg)) :
    ContextOnly (forEachLeg entries results f init) :=
  .bind .lift fun _ => .foldlM hf _

theorem mergeSupplyLeg_contextOnly {action : PoolAction} {result : PoolPositionMutation} :
    ContextOnly (mergeSupplyLeg h timestamp a action result) :=
  .bind (.bind Context.requireSpokeAsset_contextOnly fun _ => .pure) fun _ =>
    .bind (.modify fun _ => rfl) fun _ =>
    .bind (ContextOnly.of_reads h timestamp Risk.refreshSupplyRiskParams_reads) fun _ =>
    .bind applyLegUsage_contextOnly fun _ => .pure

theorem mergeWithdrawLeg_contextOnly {kind : WithdrawKind} {outcome : LegOutcome} :
    ContextOnly (mergeWithdrawLeg h timestamp a market kind outcome) :=
  .bind (.ite .pure (.bind (.bind Context.ensureSpokeContext_contextOnly fun _ =>
    .bind (.bind .get fun _ => .pure) fun _ => .pure) fun _ => .pure)) fun _ =>
    .bind .lift fun _ => .bind (.modify fun _ => rfl) fun _ =>
    .bind applyLegUsage_contextOnly fun _ =>
    .ite (.bind (.bind Context.requireSpokeAsset_contextOnly fun _ => .pure) fun _ =>
      .bind (ContextOnly.of_reads h timestamp Risk.refreshSupplyRiskParams_reads) fun _ => .pure) .pure

theorem mergeDebtLeg_contextOnly {direction : LegDirection} {outcome : LegOutcome} :
    ContextOnly (mergeDebtLeg a market direction outcome : Ctrl W Account) := by
  refine .bind ?_ fun _ => .bind applyLegUsage_contextOnly fun _ =>
    .bind (.modify fun _ => rfl) fun _ => .pure
  cases direction with
  | entry decimals => exact .pure
  | exit => exact .bind .lift fun _ => .pure

end Positions

end Lending
