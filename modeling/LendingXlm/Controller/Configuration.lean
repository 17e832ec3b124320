import LendingXlm.Controller.Entrypoints
import LendingXlm.Controller.Reads
import LendingXlm.Pool.Run

/-!
# User calls leave the configuration alone

The store holds the accounts with the usage they add up to, and the configuration: hubs, spokes,
listings with their epochs, limits and addresses. A call that moves positions, whatever the tokens,
the router, a receiver or Blend do meanwhile, writes the accounts' part only (`AccountsOnly`, and
for the entrypoints `ControllerCall.user_configuration`).
-/

namespace Lending

open Transaction Ctrl

variable {W : Type} (h : ControllerHost W) {timestamp : Nat}

/-- The store without accounts and usage. -/
def ControllerStore.configuration (s : ControllerStore) : ControllerStore :=
  { s with
    metas := .empty
    supplyPositions := .empty
    borrowPositions := .empty
    delegates := .empty
    spokeUsage := .empty }

namespace ControllerStore

@[simp] theorem setSpokeUsage_configuration (s : ControllerStore) (spokeId : Nat)
    (hubAsset : HubAssetKey) (usage : SpokeUsage) :
    (s.setSpokeUsage spokeId hubAsset usage).configuration = s.configuration := by
  unfold setSpokeUsage
  split <;> rfl

@[simp] theorem setSupplyPositions_configuration (s : ControllerStore) (accountId : Nat)
    (map : SortedMap HubAssetKey AccountPosition) :
    (s.setSupplyPositions accountId map).configuration = s.configuration := by
  unfold setSupplyPositions
  split <;> rfl

@[simp] theorem setDebtPositions_configuration (s : ControllerStore) (accountId : Nat)
    (map : SortedMap HubAssetKey DebtPosition) :
    (s.setDebtPositions accountId map).configuration = s.configuration := by
  unfold setDebtPositions
  split <;> rfl

end ControllerStore

theorem SpokeUsageContext.persist_configuration (ctx : SpokeUsageContext)
    (store : ControllerStore) : (ctx.persist store).configuration = store.configuration := by
  unfold persist
  induction ctx.usage.entries generalizing store with
  | nil => rfl
  | cons e entries ih =>
    rw [List.foldl_cons, ih]
    exact store.setSpokeUsage_configuration ..

/-- The configuration is the same, and every market of the pool still comes from a run. -/
structure Invocation.Works (timestamp : Nat) (s s' : Invocation W) : Prop where
  configuration : s'.store.configuration = s.store.configuration
  markets : MarketsRun timestamp s.pool.markets → MarketsRun timestamp s'.pool.markets

open Invocation

instance : Std.Refl (Works timestamp (W := W)) where
  refl _ := ⟨rfl, id⟩

instance : IsTrans (Invocation W) (Works timestamp) where
  trans _ _ _ hst htu := ⟨htu.configuration.trans hst.configuration, htu.markets ∘ hst.markets⟩

theorem Invocation.SameSystem.works {s s' : Invocation W} (hs : SameSystem s s') :
    Works timestamp s s' :=
  ⟨congrArg (fun b : System W => b.store.configuration) hs, fun hrun => by
    rwa [show s'.pool = s.pool from congrArg System.pool hs]⟩

/-- A computation that writes accounts and usage only, and runs the pool by its calls. -/
abbrev AccountsOnly (timestamp : Nat) {α : Type} (x : Ctrl W α) : Prop := Along (Works timestamp) x

namespace AccountsOnly

variable {α β : Type} {x : Ctrl W α}

theorem of_reads (t : Nat) (hx : ReadsOnly h t x) : AccountsOnly timestamp x :=
  hx.mono fun _ _ hr => SameSystem.works hr.system

/-- A read, and what follows it. -/
theorem afterRead (t : Nat) {f : α → Ctrl W β} (hx : ReadsOnly h t x)
    (hf : ∀ a, AccountsOnly timestamp (f a)) : AccountsOnly timestamp (x >>= f) :=
  .bind (of_reads h t hx) hf

end AccountsOnly

open AccountsOnly

/-! ## The context and the calls -/

namespace Ctrl

variable {α : Type}

theorem assertWithError_accounts {c : Prop} [Decidable c] {e : Error} :
    AccountsOnly timestamp (assertWithError c e : Ctrl W Unit) :=
  .lift

theorem unwrapOr_accounts {o : Option α} {e : Error} :
    AccountsOnly timestamp (unwrapOr o e : Ctrl W α) :=
  .lift

theorem world_accounts : AccountsOnly timestamp (world : Ctrl W W) :=
  .bind .get fun _ => .pure

theorem store_accounts : AccountsOnly timestamp (store : Ctrl W ControllerStore) :=
  .bind .get fun _ => .pure

theorem modifyCache_accounts {f : Context → Context} :
    AccountsOnly timestamp (modifyCache f : Ctrl W Unit) :=
  .modify fun _ => ⟨rfl, id⟩

theorem modifyStore_accounts {f : ControllerStore → ControllerStore}
    (hf : ∀ s, (f s).configuration = s.configuration) :
    AccountsOnly timestamp (modifyStore f : Ctrl W Unit) :=
  .modify fun s => ⟨hf s.store, id⟩

theorem outside_accounts {f : W → Result (W × α)} : AccountsOnly timestamp (outside f) := by
  intro s
  unfold outside poolCall
  rw [final_get_bind]
  dsimp only
  cases hf : f s.pool.world with
  | error e => exact Std.Refl.refl s
  | ok r => exact ⟨rfl, id⟩

/-- A call of the pool, with what it returns. -/
theorem poolCall_accounts (call : PoolCall) {f : PoolCtx W → Result (PoolCtx W × α)}
    (hf : ∀ pool, Prod.fst <$> f pool = call.exec h.toPoolHost timestamp pool) :
    AccountsOnly timestamp (poolCall f) := by
  intro s
  unfold poolCall
  rw [final_get_bind]
  cases hrun : f s.pool with
  | error e => exact Std.Refl.refl s
  | ok r =>
    have hexec := hf s.pool
    rw [hrun] at hexec
    exact ⟨rfl, PoolCall.exec_markets hexec.symm⟩

/-- A call of the pool that returns nothing. -/
theorem poolRun_accounts (call : PoolCall) :
    AccountsOnly timestamp (poolCall fun pool => do
      return (← call.exec h.toPoolHost timestamp pool, ()) : Ctrl W Unit) :=
  poolCall_accounts h call fun pool => by cases call.exec h.toPoolHost timestamp pool <;> rfl

theorem withFlashGuard_accounts {f : Ctrl W α} (hf : AccountsOnly timestamp f) :
    AccountsOnly timestamp (withFlashGuard f) :=
  .bind .get fun _ => .bind (.modify fun _ => ⟨rfl, id⟩) fun _ => .bind hf fun _ =>
    .ite (.bind (.modify fun _ => ⟨rfl, id⟩) fun _ => .pure) .pure

end Ctrl

namespace Context

theorem putMarketIndex_accounts {hubAsset : HubAssetKey} {index : MarketIndex} :
    AccountsOnly timestamp (putMarketIndex hubAsset index : Ctrl W Unit) :=
  modifyCache_accounts

theorem resetSpokeContext_accounts : AccountsOnly timestamp (resetSpokeContext : Ctrl W Unit) :=
  modifyCache_accounts

theorem ensureSpokeContext_accounts {spokeId : Nat} :
    AccountsOnly timestamp (ensureSpokeContext spokeId : Ctrl W SpokeUsageContext) :=
  Along.mono ensureSpokeContext_contextOnly fun _ _ => SameSystem.works

theorem cachedSpokeAsset_accounts {spokeId : Nat} {hubAsset : HubAssetKey} :
    AccountsOnly timestamp (cachedSpokeAsset spokeId hubAsset : Ctrl W (Option SpokeAssetConfig)) :=
  .bind ensureSpokeContext_accounts fun _ => .bind store_accounts fun _ => .pure

theorem requireSpokeAssetConfig_accounts {spokeId : Nat} {hubAsset : HubAssetKey} :
    AccountsOnly timestamp (requireSpokeAssetConfig spokeId hubAsset : Ctrl W SpokeAssetConfig) :=
  .bind cachedSpokeAsset_accounts fun _ => unwrapOr_accounts

theorem applySpokeEntry_accounts {spokeId : Nat} {side : UsageSide} {hubAsset : HubAssetKey}
    {delta : Int} {marketIndex : MarketIndex} {decimals : Nat} :
    AccountsOnly timestamp
      (applySpokeEntry spokeId side hubAsset delta marketIndex decimals : Ctrl W Unit) :=
  .bind requireSpokeAssetConfig_accounts fun _ => .bind ensureSpokeContext_accounts fun _ =>
    .bind store_accounts fun _ => .bind .lift fun _ => modifyCache_accounts

theorem applySpokeExit_accounts {spokeId : Nat} {side : UsageSide} {hubAsset : HubAssetKey}
    {delta : Int} : AccountsOnly timestamp (applySpokeExit spokeId side hubAsset delta : Ctrl W Unit) :=
  Along.mono applySpokeExit_contextOnly fun _ _ => SameSystem.works

theorem persistSpokeUsage_accounts : AccountsOnly timestamp (persistSpokeUsage : Ctrl W Unit) := by
  refine .bind .get fun s => ?_
  split
  · exact modifyStore_accounts fun _ => SpokeUsageContext.persist_configuration ..
  · exact .pure

end Context

open Context

/-! ## Payments and accounts -/

namespace Payments

theorem transferAmountMeasured_accounts {asset sender recipient : Address} {amount : Int}
    {e : Error} : AccountsOnly timestamp (transferAmountMeasured h asset sender recipient amount e) :=
  outside_accounts

theorem transfer_accounts {asset sender recipient : Address} {amount : Int} :
    AccountsOnly timestamp (transfer h asset sender recipient amount) :=
  outside_accounts

theorem balanceDeltaSince_accounts {asset holder : Address} {before : Int} :
    AccountsOnly timestamp (balanceDeltaSince h asset holder before) :=
  .bind world_accounts fun _ => unwrapOr_accounts

theorem snapshotBalances_accounts {holder : Address} {assets : List Address} :
    AccountsOnly timestamp (snapshotBalances h holder assets) :=
  .bind world_accounts fun _ => .pure

theorem refundControllerBalanceDelta_accounts {asset refundTo : Address} {before : Int} :
    AccountsOnly timestamp (refundControllerBalanceDelta h asset before refundTo) :=
  .bind (balanceDeltaSince_accounts h) fun _ => .ite (transfer_accounts h) .pure

end Payments

theorem nftMintCall_accounts {owner : Address} : AccountsOnly timestamp (nftMintCall h owner) :=
  .bind .get fun _ => .bind assertWithError_accounts fun _ =>
    .bind (.modify fun _ => ⟨rfl, id⟩) fun _ => .pure

theorem nftBurnCall_accounts {accountId : Nat} : AccountsOnly timestamp (nftBurnCall h accountId) :=
  .bind assertWithError_accounts fun _ => .bind .get fun _ =>
    .bind assertWithError_accounts fun _ => .modify fun _ => ⟨rfl, id⟩

namespace Account

theorem createAccountWith_accounts {owner : Address} {spokeId : Nat} {mode : PositionMode}
    {admission : SpokeAdmission} :
    AccountsOnly timestamp (createAccountWith h owner spokeId mode admission) := by
  have hmint : AccountsOnly timestamp (do
      let accountId ← nftMintCall h owner
      let account : Account :=
        { owner, spokeId, mode, supplyPositions := .empty, borrowPositions := .empty }
      modifyStore fun s => { s with metas := s.metas.set accountId { spokeId, mode } }
      return (accountId, account)) :=
    .bind (nftMintCall_accounts h) fun _ => .bind (modifyStore_accounts fun _ => rfl) fun _ => .pure
  refine .bind assertWithError_accounts fun _ => ?_
  cases admission with
  | activeOnly => exact afterRead h 0 activeSpoke_reads fun _ => hmint
  | allowDeprecated => exact afterRead h 0 spokeConfig_reads fun _ => hmint

theorem loadOrCreateAccount_accounts {caller : Address} {accountId spokeId : Nat}
    {mode : PositionMode} {guard : AccountGuard} :
    AccountsOnly timestamp (loadOrCreateAccount h caller accountId spokeId mode guard) :=
  .ite (createAccountWith_accounts h) (afterRead h 0 Storage.getAccount_reads fun _ =>
    afterRead h 0 requireGuard_reads fun _ => .pure)

theorem removeAccountAndBurnNft_accounts {accountId : Nat} :
    AccountsOnly timestamp (removeAccountAndBurnNft h accountId) :=
  .bind (modifyStore_accounts fun _ => rfl) fun _ => nftBurnCall_accounts h

theorem cleanupAccountIfEmpty_accounts {account : Account} {accountId : Nat} :
    AccountsOnly timestamp (cleanupAccountIfEmpty h account accountId) :=
  .ite (removeAccountAndBurnNft_accounts h) .pure

theorem setAccountDelegate_accounts {caller : Address} {accountId : Nat} {delegate : Address}
    {add : Bool} : AccountsOnly timestamp (setAccountDelegate h caller accountId delegate add) := by
  refine afterRead h 0 requireAccountOwner_reads fun _ => .bind store_accounts fun s => .ite ?_ ?_
  · exact .bind assertWithError_accounts fun _ => .ite .pure
      (.bind assertWithError_accounts fun _ => modifyStore_accounts fun _ => rfl)
  · split
    · exact .pure
    · exact .ite (modifyStore_accounts fun _ => rfl) (modifyStore_accounts fun _ => rfl)

end Account

namespace Risk

theorem syncAccountThresholds_accounts {accountId : Nat} {scope : RiskRefreshScope} :
    AccountsOnly timestamp (syncAccountThresholds h timestamp accountId scope) := by
  refine .bind store_accounts fun s => ?_
  split
  · exact .pure
  refine .ite .pure (afterRead h timestamp Storage.tryAccountOwner_reads fun _ => ?_)
  split
  · exact .pure
  refine afterRead h timestamp (.foldlM (fun _ _ => syncThresholdOf_reads) _) fun _ =>
    .bind (modifyStore_accounts fun s => ?_) fun _ => ?_
  · split
    · exact s.setSupplyPositions_configuration ..
    · rfl
  · exact .ite (afterRead h timestamp calculateAccountRiskTotals_reads fun _ =>
      assertWithError_accounts) .pure

theorem updateAccountThreshold_accounts {hasRisks : Bool} {accountIds : List Nat} :
    AccountsOnly timestamp (updateAccountThreshold h timestamp hasRisks accountIds) :=
  afterRead h timestamp requireNotFlashLoaning_reads fun _ => .foldlM (fun _ _ =>
    .bind resetSpokeContext_accounts fun _ => syncAccountThresholds_accounts h) ()

end Risk

/-! ## Positions -/

namespace Positions

theorem forEachLeg_accounts {E R α : Type} {entries : List E} {results : List R}
    {f : α → E × R → Ctrl W α} {init : α} (hf : ∀ a leg, AccountsOnly timestamp (f a leg)) :
    AccountsOnly timestamp (forEachLeg entries results f init) :=
  .bind assertWithError_accounts fun _ => .foldlM hf _

theorem applyLegUsage_accounts {spokeId : Nat} {side : UsageSide} {hubAsset : HubAssetKey}
    {direction : LegDirection} {oldScaled : Int} {outcome : LegOutcome} :
    AccountsOnly timestamp
      (applyLegUsage spokeId side hubAsset direction oldScaled outcome : Ctrl W Unit) := by
  cases direction with
  | entry decimals => exact .bind .lift fun _ => applySpokeEntry_accounts
  | exit => exact .bind .lift fun _ => applySpokeExit_accounts

theorem persistAccountPositions_accounts {accountId : Nat} {account : Account}
    {sides : PositionSides} {removeIfEmpty : Bool} :
    AccountsOnly timestamp (persistAccountPositions h accountId account sides removeIfEmpty) := by
  refine .bind (modifyStore_accounts fun s => ?_) fun _ =>
    .bind (modifyStore_accounts fun s => ?_) fun _ =>
    .ite (Account.cleanupAccountIfEmpty_accounts h) .pure
  · split
    · exact s.setSupplyPositions_configuration ..
    · rfl
  · split
    · exact s.setDebtPositions_configuration ..
    · rfl

theorem finalizePositionFlow_accounts {accountId : Nat} {account : Account}
    {sides : PositionSides} {removeIfEmpty : Bool} :
    AccountsOnly timestamp (finalizePositionFlow h accountId account sides removeIfEmpty) :=
  .bind persistSpokeUsage_accounts fun _ => persistAccountPositions_accounts h

theorem mergeSupplyLeg_accounts {account : Account} {action : PoolAction}
    {result : PoolPositionMutation} :
    AccountsOnly timestamp (mergeSupplyLeg h timestamp account action result) :=
  afterRead h timestamp requireSpokeAsset_reads fun _ => .bind putMarketIndex_accounts fun _ =>
    afterRead h timestamp Risk.refreshSupplyRiskParams_reads fun _ =>
    .bind applyLegUsage_accounts fun _ => .pure

theorem mergeWithdrawLeg_accounts {account : Account} {hubAsset : HubAssetKey}
    {kind : WithdrawKind} {outcome : LegOutcome} :
    AccountsOnly timestamp (mergeWithdrawLeg h timestamp account hubAsset kind outcome) :=
  afterRead h timestamp legMayRestampRiskParams_reads fun _ => .bind unwrapOr_accounts fun _ =>
    .bind putMarketIndex_accounts fun _ => .bind applyLegUsage_accounts fun _ =>
    .ite (afterRead h timestamp requireSpokeAsset_reads fun _ =>
      afterRead h timestamp Risk.refreshSupplyRiskParams_reads fun _ => .pure) .pure

theorem mergeDebtLeg_accounts {account : Account} {hubAsset : HubAssetKey}
    {direction : LegDirection} {outcome : LegOutcome} :
    AccountsOnly timestamp (mergeDebtLeg account hubAsset direction outcome : Ctrl W Account) := by
  refine .bind ?_ fun _ => .bind applyLegUsage_accounts fun _ =>
    .bind putMarketIndex_accounts fun _ => .pure
  cases direction with
  | entry decimals => exact .pure
  | exit => exact .bind unwrapOr_accounts fun _ => .pure

theorem applyWithdrawBatch_accounts {account : Account} {recipient : Address}
    {kind : WithdrawKind} {entries : List PoolWithdrawEntry} :
    AccountsOnly timestamp (applyWithdrawBatch h timestamp account recipient kind entries) :=
  .bind (poolCall_accounts h (.withdraw _ _ _) fun _ => rfl) fun _ => .bind (forEachLeg_accounts fun _ _ =>
    mergeWithdrawLeg_accounts h) fun _ => .pure

theorem applyRepayBatch_accounts {account : Account} {payer : Address}
    {actions : List PoolAction} :
    AccountsOnly timestamp (applyRepayBatch h timestamp account payer actions) :=
  .bind (poolCall_accounts h (.repay _ _) fun _ => rfl) fun _ =>
    .bind (forEachLeg_accounts fun _ _ => mergeDebtLeg_accounts) fun _ => .pure

theorem pullDeposit_accounts {caller : Address} {account : Account} {entries : List PoolAction}
    {payment : HubPayment} : AccountsOnly timestamp (pullDeposit h caller account entries payment) :=
  afterRead h 0 requireSpokeAsset_reads fun _ =>
    .bind (Payments.transferAmountMeasured_accounts h) fun _ => .pure

theorem processDeposit_accounts {caller : Address} {account : Account}
    {aggregated : List HubPayment} :
    AccountsOnly timestamp (processDeposit h timestamp caller account aggregated) :=
  afterRead h timestamp validatePositionEntryGates_reads fun _ =>
    afterRead h timestamp fetchPrices_reads fun _ =>
    .bind (.foldlM (fun _ _ => pullDeposit_accounts h) _) fun _ =>
    .bind (poolCall_accounts h (.supply _) fun _ => rfl) fun _ =>
    forEachLeg_accounts fun _ _ => mergeSupplyLeg_accounts h

theorem processSupply_accounts {caller : Address} {accountId spokeId : Nat}
    {assets : List HubPayment} :
    AccountsOnly timestamp (processSupply h timestamp caller accountId spokeId assets) :=
  afterRead h timestamp Risk.requireNotFlashLoaning_reads fun _ => .bind .lift fun _ =>
    .bind (Account.loadOrCreateAccount_accounts h) fun _ =>
    afterRead h timestamp requireThirdPartyExistingSupply_reads fun _ =>
    .bind (processDeposit_accounts h) fun _ =>
    .bind (finalizePositionFlow_accounts h) fun _ => .pure

theorem settleWithdraw_accounts {account : Account} {recipient : Address}
    {aggregated : List HubPayment} :
    AccountsOnly timestamp (settleWithdraw h timestamp account recipient aggregated) :=
  afterRead h timestamp (.foldlM (fun _ _ => withdrawEntry_reads) _) fun _ =>
    .bind (applyWithdrawBatch_accounts h) fun _ => .pure

theorem processWithdraw_accounts {caller : Address} {accountId : Nat}
    {withdrawals : List HubPayment} {recipient : Option Address} :
    AccountsOnly timestamp (processWithdraw h timestamp caller accountId withdrawals recipient) :=
  afterRead h timestamp Risk.requireNotFlashLoaning_reads fun _ =>
    afterRead h timestamp Storage.getAccount_reads fun _ =>
    afterRead h timestamp Account.requireOwnerOrDelegate_reads fun _ =>
    .bind assertWithError_accounts fun _ => .bind .lift fun _ =>
    .bind (settleWithdraw_accounts h) fun _ =>
    afterRead h timestamp enforcePostPoolSolvency_reads fun _ =>
    .bind (finalizePositionFlow_accounts h) fun _ => .pure

theorem executeWithdrawal_accounts {account : Account} {recipient : Address}
    {hubAsset : HubAssetKey} {amount : Int} {position : AccountPosition} :
    AccountsOnly timestamp (executeWithdrawal h timestamp account recipient hubAsset amount position) :=
  afterRead h timestamp enforceSpokeAssetFlags_reads fun _ =>
    .bind (applyWithdrawBatch_accounts h) fun _ => .bind .lift fun _ => .pure

theorem settleBorrow_accounts {account : Account} {recipient : Address}
    {aggregated : List HubPayment} :
    AccountsOnly timestamp (settleBorrow h timestamp account recipient aggregated) :=
  .bind (poolCall_accounts h (.borrow _ _) fun _ => rfl) fun _ => forEachLeg_accounts fun _ _ => mergeDebtLeg_accounts

theorem processBorrow_accounts {caller : Address} {accountId : Nat} {borrows : List HubPayment}
    {recipient : Option Address} :
    AccountsOnly timestamp (processBorrow h timestamp caller accountId borrows recipient) :=
  afterRead h timestamp Risk.requireNotFlashLoaning_reads fun _ =>
    afterRead h timestamp Storage.getAccount_reads fun _ =>
    afterRead h timestamp Account.requireOwnerOrDelegate_reads fun _ =>
    .bind assertWithError_accounts fun _ => .bind .lift fun _ =>
    afterRead h timestamp validatePositionEntryGates_reads fun _ =>
    .bind (settleBorrow_accounts h) fun _ =>
    afterRead h timestamp enforcePostPoolSolvency_reads fun _ => finalizePositionFlow_accounts h

theorem pullRepayment_accounts {account : Account} {payer : Address}
    {actions : List PoolAction} {payment : HubPayment} :
    AccountsOnly timestamp (pullRepayment h account payer actions payment) :=
  afterRead h 0 enforceSpokeAssetFlags_reads fun _ => .bind unwrapOr_accounts fun _ =>
    .bind (Payments.transferAmountMeasured_accounts h) fun _ => .pure

theorem processRepay_accounts {caller : Address} {accountId : Nat}
    {payments : List HubPayment} :
    AccountsOnly timestamp (processRepay h timestamp caller accountId payments) :=
  afterRead h timestamp Risk.requireNotFlashLoaning_reads fun _ => .bind .lift fun _ =>
    afterRead h timestamp Storage.getAccountBorrowOnly_reads fun _ =>
    .bind (.bind (.foldlM (fun _ _ => pullRepayment_accounts h) _) fun _ =>
      .bind (applyRepayBatch_accounts h) fun _ => .pure) fun _ =>
    finalizePositionFlow_accounts h

theorem repayPrefundedPosition_accounts {account : Account} {refundTo : Address}
    {hubAsset : HubAssetKey} {position : DebtPosition} {amount : Int} :
    AccountsOnly timestamp
      (repayPrefundedPosition h timestamp account refundTo hubAsset position amount) :=
  afterRead h timestamp enforceSpokeAssetFlags_reads fun _ =>
    .bind (applyRepayBatch_accounts h) fun _ => .bind .lift fun _ => .pure

theorem borrowIntoController_accounts {account : Account} {hubDebt : HubAssetKey} {amount : Int}
    {chargeFee : Bool} :
    AccountsOnly timestamp (borrowIntoController h timestamp account hubDebt amount chargeFee) :=
  .bind .lift fun _ => afterRead h timestamp validatePositionEntryGates_reads fun _ =>
    .bind world_accounts fun _ => .bind (withFlashGuard_accounts (poolCall_accounts h (.createStrategy _ _ _) fun _ => rfl)) fun _ =>
    .bind (Payments.balanceDeltaSince_accounts h) fun _ => .bind assertWithError_accounts fun _ =>
    .bind assertWithError_accounts fun _ => .bind mergeDebtLeg_accounts fun _ => .pure

end Positions

/-! ## Strategies -/

open Positions

namespace Strategies

theorem strategyFinalize_accounts {accountId : Nat} {account : Account} :
    AccountsOnly timestamp (strategyFinalize h timestamp accountId account) :=
  afterRead h timestamp enforcePostPoolSolvency_reads fun _ =>
    .bind (finalizePositionFlow_accounts h) fun _ => .pure

theorem verifyRouterOutput_accounts {tokenOut : Address} {before : Int} :
    AccountsOnly timestamp (verifyRouterOutput h tokenOut before) :=
  .bind (Payments.balanceDeltaSince_accounts h) fun _ =>
    .bind assertWithError_accounts fun _ => .pure

theorem swapTokens_accounts {refundTo tokenIn : Address} {amountIn : Int} {tokenOut : Address}
    {swap : StrategySwap} :
    AccountsOnly timestamp (swapTokens h refundTo tokenIn amountIn tokenOut swap) :=
  .bind .lift fun _ => .bind assertWithError_accounts fun _ => .bind store_accounts fun _ =>
    .bind unwrapOr_accounts fun _ => .bind world_accounts fun _ => .bind world_accounts fun _ =>
    .bind (withFlashGuard_accounts outside_accounts) fun _ => .bind world_accounts fun _ =>
    .bind assertWithError_accounts fun _ => .bind unwrapOr_accounts fun _ =>
    .bind assertWithError_accounts fun _ => .bind unwrapOr_accounts fun _ =>
    .ite (.bind (Payments.transfer_accounts h) fun _ => verifyRouterOutput_accounts h)
      (verifyRouterOutput_accounts h)

theorem swapTokensOrPassthrough_accounts {refundTo tokenIn : Address} {amountIn : Int}
    {tokenOut : Address} {swap : StrategySwap} :
    AccountsOnly timestamp (swapTokensOrPassthrough h refundTo tokenIn amountIn tokenOut swap) :=
  .ite (.bind assertWithError_accounts fun _ => .pure) (swapTokens_accounts h)

theorem repayDebtFromController_accounts {account : Account} {caller : Address}
    {debt : HubAssetKey} {debtAvailable : Int} {debtPos : DebtPosition} :
    AccountsOnly timestamp
      (repayDebtFromController h timestamp account caller debt debtAvailable debtPos) :=
  .bind (Payments.transferAmountMeasured_accounts h) fun _ => .bind world_accounts fun _ =>
    .bind (repayPrefundedPosition_accounts h) fun _ =>
    .bind (Payments.refundControllerBalanceDelta_accounts h) fun _ => .pure

theorem withdrawCollateralToController_accounts {account : Account} {hubAsset : HubAssetKey}
    {amount : Int} {position : AccountPosition} :
    AccountsOnly timestamp (withdrawCollateralToController h timestamp account hubAsset amount position) :=
  .bind world_accounts fun _ =>
    .bind (withFlashGuard_accounts (executeWithdrawal_accounts h)) fun _ =>
    .bind (Payments.balanceDeltaSince_accounts h) fun _ => .pure

theorem withdrawAllOf_accounts {destination : Address} {account : Account}
    {hubAsset : HubAssetKey} :
    AccountsOnly timestamp (withdrawAllOf h timestamp destination account hubAsset) := by
  unfold withdrawAllOf
  split
  · exact .pure
  · exact .bind (executeWithdrawal_accounts h) fun _ => .pure

theorem executeWithdrawAll_accounts {account : Account} {destination : Address}
    {repaidCollateral : HubAssetKey} :
    AccountsOnly timestamp (executeWithdrawAll h timestamp account destination repaidCollateral) :=
  .bind (.ite .pure (.bind (poolCall_accounts h (.withdraw _ _ _) fun _ => rfl) fun _ => .pure)) fun _ =>
    .foldlM (fun _ _ => withdrawAllOf_accounts h) _

theorem netSettleCollateralAgainstDebt_accounts {account : Account} {hubAsset : HubAssetKey}
    {amount : Int} :
    AccountsOnly timestamp (netSettleCollateralAgainstDebt h timestamp account hubAsset amount) :=
  afterRead h timestamp enforceSpokeAssetFlags_reads fun _ => .bind unwrapOr_accounts fun _ =>
    .bind unwrapOr_accounts fun _ => .bind (poolCall_accounts h (.netSettle _) fun _ => rfl) fun _ =>
    .bind (mergeWithdrawLeg_accounts h) fun _ => mergeDebtLeg_accounts

theorem withdrawAndSwapFromSupply_accounts {account : Account} {caller : Address}
    {source : HubAssetKey} {amount : Int} {tokenOut : Address} {swap : StrategySwap} :
    AccountsOnly timestamp
      (withdrawAndSwapFromSupply h timestamp account caller source amount tokenOut swap) :=
  .bind unwrapOr_accounts fun _ =>
    .bind (withdrawCollateralToController_accounts h) fun _ =>
    .bind (swapTokensOrPassthrough_accounts h) fun _ => .pure

theorem collectInitialMultiplyPayment_accounts {caller : Address} {collateral debt : HubAssetKey}
    {initialPayment : Option HubPayment} {convertSwap : Option StrategySwap} :
    AccountsOnly timestamp
      (collectInitialMultiplyPayment h caller collateral debt initialPayment convertSwap) := by
  cases initialPayment with
  | none => exact .pure
  | some payment =>
    exact .bind .lift fun _ => .bind (Payments.transferAmountMeasured_accounts h) fun _ =>
      .ite .pure (.ite .pure (.bind unwrapOr_accounts fun _ =>
        .bind (swapTokens_accounts h) fun _ => .pure))

theorem processMultiply_accounts {caller : Address} {p : MultiplyParams} :
    AccountsOnly timestamp (processMultiply h timestamp caller p) :=
  afterRead h timestamp Risk.requireNotFlashLoaning_reads fun _ => .bind .lift fun _ =>
    .bind (Account.loadOrCreateAccount_accounts h) fun _ =>
    afterRead h timestamp requireCanSupply_reads fun _ =>
    afterRead h timestamp fetchPrices_reads fun _ =>
    .bind (collectInitialMultiplyPayment_accounts h) fun _ =>
    .bind (borrowIntoController_accounts h) fun _ => .bind unwrapOr_accounts fun _ =>
    .bind (swapTokensOrPassthrough_accounts h) fun _ => .bind unwrapOr_accounts fun _ =>
    .bind (processDeposit_accounts h) fun _ =>
    .bind (strategyFinalize_accounts h) fun _ => .pure

theorem processSwapDebt_accounts {caller : Address} {p : SwapDebtParams} :
    AccountsOnly timestamp (processSwapDebt h timestamp caller p) :=
  afterRead h timestamp Risk.requireNotFlashLoaning_reads fun _ =>
    .bind assertWithError_accounts fun _ => afterRead h timestamp requireHubActive_reads fun _ =>
    .bind .lift fun _ => afterRead h timestamp Storage.getAccount_reads fun _ =>
    afterRead h timestamp Account.requireOwnerOrDelegate_reads fun _ =>
    .bind unwrapOr_accounts fun _ => afterRead h timestamp fetchPrices_reads fun _ =>
    .bind (borrowIntoController_accounts h) fun _ =>
    .bind (swapTokensOrPassthrough_accounts h) fun _ =>
    .bind (repayDebtFromController_accounts h) fun _ =>
    .bind (strategyFinalize_accounts h) fun _ => .pure

theorem processSwapCollateral_accounts {caller : Address} {p : SwapCollateralParams} :
    AccountsOnly timestamp (processSwapCollateral h timestamp caller p) :=
  afterRead h timestamp Risk.requireNotFlashLoaning_reads fun _ =>
    .bind assertWithError_accounts fun _ => afterRead h timestamp requireHubActive_reads fun _ =>
    .bind .lift fun _ => afterRead h timestamp Storage.getAccount_reads fun _ =>
    afterRead h timestamp Account.requireOwnerOrDelegate_reads fun _ =>
    afterRead h timestamp requireCanSupply_reads fun _ =>
    afterRead h timestamp fetchPrices_reads fun _ =>
    .bind (withdrawAndSwapFromSupply_accounts h) fun _ =>
    .bind (processDeposit_accounts h) fun _ =>
    .bind (strategyFinalize_accounts h) fun _ => .pure

theorem repayViaCollateralSwap_accounts {caller : Address} {account : Account}
    {collateral : HubAssetKey} {collateralAmount : Int} {debt : HubAssetKey}
    {swap : StrategySwap} :
    AccountsOnly timestamp (repayViaCollateralSwap h timestamp caller account collateral collateralAmount
      debt swap) :=
  .bind unwrapOr_accounts fun _ =>
    .bind (withdrawAndSwapFromSupply_accounts h) fun _ =>
    repayDebtFromController_accounts h

theorem processRepayDebtWithCollateral_accounts {caller : Address}
    {p : RepayWithCollateralParams} :
    AccountsOnly timestamp (processRepayDebtWithCollateral h timestamp caller p) :=
  afterRead h timestamp Risk.requireNotFlashLoaning_reads fun _ => .bind .lift fun _ =>
    afterRead h timestamp requireHubActive_reads fun _ =>
    afterRead h timestamp requireHubActive_reads fun _ =>
    afterRead h timestamp Storage.getAccount_reads fun _ =>
    afterRead h timestamp Account.requireOwnerOrDelegate_reads fun _ =>
    afterRead h timestamp fetchPrices_reads fun _ =>
    .bind (.ite (.bind assertWithError_accounts fun _ =>
        netSettleCollateralAgainstDebt_accounts h)
      (repayViaCollateralSwap_accounts h)) fun _ =>
    .bind (.ite (.bind assertWithError_accounts fun _ =>
      executeWithdrawAll_accounts h) .pure) fun _ =>
    .bind (strategyFinalize_accounts h) fun _ => .pure

theorem requireWasmReceiver_accounts {receiver : Address} :
    AccountsOnly timestamp (requireWasmReceiver h receiver) :=
  .bind world_accounts fun _ => assertWithError_accounts

theorem processFlashLoan_accounts {caller : Address} {hubAsset : HubAssetKey} {amount : Int}
    {receiver : Address} {data : List UInt8} :
    AccountsOnly timestamp (processFlashLoan h timestamp caller hubAsset amount receiver data) :=
  afterRead h timestamp Risk.requireNotFlashLoaning_reads fun _ => .bind .lift fun _ =>
    afterRead h timestamp requireHubActive_reads fun _ =>
    .bind (requireWasmReceiver_accounts h) fun _ =>
    .bind (withFlashGuard_accounts
      (poolCall_accounts h (.flashLoan _ _ _ _ _) fun _ => rfl)) fun _ => .pure

include h in
theorem validateCollaterals_accounts {account : Account} {collaterals : List HubPayment} :
    AccountsOnly timestamp (validateCollaterals account collaterals : Ctrl W Unit) :=
  .bind .lift fun _ => .bind store_accounts fun _ => .bind assertWithError_accounts fun _ =>
    .bind (.foldlM (fun _ _ => .bind .lift fun _ => .bind assertWithError_accounts fun _ =>
      afterRead h 0 requireCanSupply_reads fun _ => .pure) _) fun _ =>
    .bind assertWithError_accounts fun _ => of_reads h 0 validatePositionEntryGates_reads

include h in
theorem validateRefundAssets_accounts {spokeId hubId : Nat} {collaterals : List HubPayment}
    {refundAssets : List Address} :
    AccountsOnly timestamp
      (validateRefundAssets spokeId hubId collaterals refundAssets : Ctrl W Unit) :=
  .bind store_accounts fun _ => .bind assertWithError_accounts fun _ =>
    .bind (.foldlM (fun _ _ => .bind assertWithError_accounts fun _ =>
      afterRead h 0 requireListedActiveConfig_reads fun _ =>
      .bind assertWithError_accounts fun _ => .pure) _) fun _ => .pure

theorem mintAndForward_accounts {account : Account} {debt : HubAssetKey} {amount : Int}
    {receiver : Address} :
    AccountsOnly timestamp (mintAndForward h timestamp account debt amount receiver) :=
  .bind world_accounts fun _ => .bind (borrowIntoController_accounts h) fun _ =>
    .bind (Payments.balanceDeltaSince_accounts h) fun _ => .bind assertWithError_accounts fun _ =>
    .bind assertWithError_accounts fun _ =>
    .bind (Payments.transferAmountMeasured_accounts h) fun _ =>
    .bind assertWithError_accounts fun _ => .pure

theorem collectCollateralDeposits_accounts {collaterals : List HubPayment}
    {before : SortedMap Address Int} :
    AccountsOnly timestamp (collectCollateralDeposits h collaterals before) :=
  .bind (.foldlM (fun _ _ => .bind unwrapOr_accounts fun _ =>
    .bind (Payments.balanceDeltaSince_accounts h) fun _ =>
    .bind assertWithError_accounts fun _ => .pure) _) fun _ =>
    .bind assertWithError_accounts fun _ => .pure

theorem requireFlashPositionStillOpen_accounts {account : Account} {debt : HubAssetKey} :
    AccountsOnly timestamp (requireFlashPositionStillOpen account debt : Ctrl W Unit) :=
  .bind assertWithError_accounts fun _ => .bind unwrapOr_accounts fun _ =>
    assertWithError_accounts

theorem refundListedAssets_accounts {caller : Address} {refundAssets : List Address}
    {before : SortedMap Address Int} :
    AccountsOnly timestamp (refundListedAssets h caller refundAssets before) :=
  .foldlM (fun _ _ => .bind unwrapOr_accounts fun _ =>
    Payments.refundControllerBalanceDelta_accounts h) ()

theorem fundAndCall_accounts {caller : Address} {accountId : Nat} {account : Account}
    {p : FlashPositionParams} :
    AccountsOnly timestamp (fundAndCall h timestamp caller accountId account p) :=
  .bind (mintAndForward_accounts h) fun _ =>
    .bind (Payments.snapshotBalances_accounts h) fun _ =>
    .bind (Payments.snapshotBalances_accounts h) fun _ => .bind outside_accounts fun _ => .pure

theorem processFlashPosition_accounts {caller : Address} {p : FlashPositionParams} :
    AccountsOnly timestamp (processFlashPosition h timestamp caller p) :=
  afterRead h timestamp Risk.requireNotFlashLoaning_reads fun _ => .bind .lift fun _ =>
    afterRead h timestamp requireHubActive_reads fun _ => .bind assertWithError_accounts fun _ =>
    .bind (requireWasmReceiver_accounts h) fun _ => .bind assertWithError_accounts fun _ =>
    afterRead h timestamp cachedPoolSyncData_reads fun _ =>
    .bind assertWithError_accounts fun _ =>
    .bind (Account.loadOrCreateAccount_accounts h) fun _ =>
    .bind (validateCollaterals_accounts h) fun _ =>
    .bind (validateRefundAssets_accounts h) fun _ =>
    afterRead h timestamp fetchPrices_reads fun _ =>
    .bind (withFlashGuard_accounts (fundAndCall_accounts h)) fun _ =>
    .bind (collectCollateralDeposits_accounts h) fun _ =>
    .bind (processDeposit_accounts h) fun _ =>
    .bind (refundListedAssets_accounts h) fun _ =>
    .bind requireFlashPositionStillOpen_accounts fun _ =>
    .bind (strategyFinalize_accounts h) fun _ =>
    .bind requireFlashPositionStillOpen_accounts fun _ => .pure

theorem guardedSubmit_accounts {blendPool holder : Address} {requests : List BlendRequest} :
    AccountsOnly timestamp (guardedSubmit h blendPool holder requests) :=
  withFlashGuard_accounts outside_accounts

theorem reconcileDebtRefund_accounts {caller : Address} {hubId : Nat}
    {before : SortedMap Address Int} {account : Account} {cap : PaymentTuple} :
    AccountsOnly timestamp (reconcileDebtRefund h timestamp caller hubId before account cap) :=
  .bind (Payments.balanceDeltaSince_accounts h) fun _ =>
    .ite (.bind .lift fun _ => repayDebtFromController_accounts h) .pure

theorem borrowMigrationDebt_accounts {hubId : Nat} {account : Account} {cap : PaymentTuple} :
    AccountsOnly timestamp (borrowMigrationDebt h timestamp hubId account cap) :=
  .bind .lift fun _ => .bind (borrowIntoController_accounts h) fun _ => .pure

theorem executeMigrationDebtLeg_accounts {caller : Address} {p : MigrateBlendParams}
    {account : Account} :
    AccountsOnly timestamp (executeMigrationDebtLeg h timestamp caller p account) :=
  .ite .pure (.bind (Payments.snapshotBalances_accounts h) fun _ =>
    .bind (.foldlM (fun _ _ => borrowMigrationDebt_accounts h) _) fun _ =>
    .bind (guardedSubmit_accounts h) fun _ =>
    .foldlM (fun _ _ => reconcileDebtRefund_accounts h) _)

theorem depositWithdrawn_accounts {account : Account} {hubId : Nat}
    {withdrawAssets : List Address} {before : SortedMap Address Int} :
    AccountsOnly timestamp (depositWithdrawn h timestamp account hubId withdrawAssets before) :=
  .bind (.foldlM (fun _ _ => .bind (Payments.balanceDeltaSince_accounts h) fun _ => .pure) _)
    fun _ => .ite (processDeposit_accounts h) .pure

theorem sweepAndDeposit_accounts {caller : Address} {p : MigrateBlendParams}
    {account : Account} : AccountsOnly timestamp (sweepAndDeposit h timestamp caller p account) :=
  .ite (.bind (Payments.snapshotBalances_accounts h) fun _ =>
    .bind (guardedSubmit_accounts h) fun _ => depositWithdrawn_accounts h) .pure

theorem processMigrateBlend_accounts {caller : Address} {p : MigrateBlendParams} :
    AccountsOnly timestamp (processMigrateBlend h timestamp caller p) :=
  afterRead h timestamp Risk.requireNotFlashLoaning_reads fun _ =>
    afterRead h timestamp requireHubActive_reads fun _ =>
    .bind (.bind assertWithError_accounts fun _ => .bind store_accounts fun _ =>
      assertWithError_accounts) fun _ => .bind assertWithError_accounts fun _ =>
    .bind (Account.loadOrCreateAccount_accounts h) fun _ =>
    afterRead h timestamp fetchPrices_reads fun _ =>
    afterRead h timestamp (.foldlM (fun _ _ => requireCanSupply_reads) ()) fun _ =>
    .bind (executeMigrationDebtLeg_accounts h) fun _ =>
    .bind (sweepAndDeposit_accounts h) fun _ =>
    .bind (strategyFinalize_accounts h) fun _ => .pure

end Strategies

/-! ## Liquidation and bad debt -/

namespace Liquidation

theorem pullLiquidationRepayment_accounts {liquidator : Address} {account : Account}
    {offered : Option (List HubPayment)} {acc : PullAcc} {entry : RepayEntry} :
    AccountsOnly timestamp (pullLiquidationRepayment h liquidator account offered acc entry) :=
  afterRead h 0 enforceSpokeAssetFlags_reads fun _ => .bind .lift fun _ =>
    .bind (Payments.transferAmountMeasured_accounts h) fun _ => .bind .lift fun _ =>
    .bind .lift fun _ => .bind .lift fun _ => .pure

theorem applyLiquidationRepayments_accounts {liquidator : Address} {account : Account}
    {repaid : List RepayEntry} {offered : Option (List HubPayment)} :
    AccountsOnly timestamp (applyLiquidationRepayments h timestamp liquidator account repaid offered) :=
  .bind (.foldlM (fun _ _ => pullLiquidationRepayment_accounts h) _) fun _ =>
    .bind (applyRepayBatch_accounts h) fun _ => .pure

theorem applyLiquidationSeizures_accounts {liquidator : Address} {account : Account}
    {seized : List SeizeEntry} :
    AccountsOnly timestamp (applyLiquidationSeizures h timestamp liquidator account seized) :=
  afterRead h timestamp (.foldlM (fun _ _ => seizureEntry_reads) _) fun _ =>
    .bind (applyWithdrawBatch_accounts h) fun _ => .pure

include h in
theorem creditSeizure_accounts {acc : CreditAcc} {entry : SeizeEntry} :
    AccountsOnly timestamp (creditSeizure acc entry : Ctrl W CreditAcc) :=
  afterRead h 0 enforceSpokeAssetFlags_reads fun _ => .bind .lift fun _ =>
    .bind assertWithError_accounts fun _ => .bind .lift fun _ =>
    .bind assertWithError_accounts fun _ => .bind unwrapOr_accounts fun _ =>
    .bind .lift fun _ => afterRead h 0 creditSupplyShares_reads fun _ =>
    .ite (.bind applySpokeExit_accounts fun _ => .pure) .pure

include h in
theorem applyLiquidationShareCredit_accounts {account receiver : Account}
    {seized : List SeizeEntry} :
    AccountsOnly timestamp (applyLiquidationShareCredit timestamp account receiver seized :
      Ctrl W (Account × Account)) :=
  .bind (.foldlM (fun _ _ => creditSeizure_accounts h) _) fun _ =>
    .ite (.bind (poolRun_accounts h (.seizePositions _)) fun _ => .pure) .pure

theorem executeBadDebtCleanup_accounts {accountId : Nat} {account : Account} :
    AccountsOnly timestamp (executeBadDebtCleanup h timestamp accountId account) :=
  .bind (.foldlM (fun _ _ => .bind applySpokeExit_accounts fun _ => .pure) _) fun _ =>
    .bind (.foldlM (fun _ _ => .bind applySpokeExit_accounts fun _ => .pure) _) fun _ =>
    .bind (poolRun_accounts h (.seizePositions _)) fun _ => .bind persistSpokeUsage_accounts fun _ =>
    Account.removeAccountAndBurnNft_accounts h

theorem checkBadDebtAfterLiquidation_accounts {accountId : Nat} {account : Account}
    {totals : Risk.AccountRiskTotals} :
    AccountsOnly timestamp (checkBadDebtAfterLiquidation h timestamp accountId account totals) :=
  .ite (Account.cleanupAccountIfEmpty_accounts h)
    (.ite (executeBadDebtCleanup_accounts h) .pure)

theorem resolveSeizeReceiver_accounts {liquidator : Address} {accountId : Nat}
    {account : Account} {seizeMode : SeizeMode} :
    AccountsOnly timestamp (resolveSeizeReceiver h liquidator accountId account seizeMode) := by
  cases seizeMode with
  | transfer => exact .pure
  | credit requested =>
    exact .ite (.bind (Account.createAccountWith_accounts h) fun _ => .pure)
      (afterRead h 0 loadCreditReceiver_reads fun _ =>
        afterRead h 0 Account.requireOwnerOrDelegate_reads fun _ => .pure)

theorem takeSeizures_accounts {liquidator : Address} {account : Account}
    {receiver : Option (Nat × Account)} {fresh : Bool} {seized : List SeizeEntry} :
    AccountsOnly timestamp (takeSeizures h timestamp liquidator account receiver fresh seized) := by
  cases receiver with
  | none => exact .bind (applyLiquidationSeizures_accounts h) fun _ => .pure
  | some receiver =>
    exact afterRead h timestamp requireCreditPositionLimit_reads fun _ =>
      .bind (applyLiquidationShareCredit_accounts h) fun _ => .pure

theorem finalizeReceiver_accounts {receiver : Option (Nat × Account)}
    {seized : List SeizeEntry} : AccountsOnly timestamp (finalizeReceiver h receiver seized) := by
  cases receiver with
  | none => exact .pure
  | some receiver =>
    exact afterRead h 0 recordShareCreditUpdates_reads fun _ => finalizePositionFlow_accounts h

theorem processLiquidation_accounts {liquidator : Address} {accountId : Nat}
    {debtPayments : List HubPayment} {seizeMode : SeizeMode} :
    AccountsOnly timestamp (processLiquidation h timestamp liquidator accountId debtPayments seizeMode) :=
  afterRead h timestamp Risk.requireNotFlashLoaning_reads fun _ =>
    afterRead h timestamp Storage.getAccount_reads fun _ => .bind .lift fun _ =>
    .bind (resolveSeizeReceiver_accounts h) fun _ =>
    afterRead h timestamp buildLiquidationPlan_reads fun _ => .bind .lift fun _ =>
    .bind .lift fun _ => .bind (applyLiquidationRepayments_accounts h) fun _ =>
    .bind .lift fun _ => .bind .lift fun _ => .bind (takeSeizures_accounts h) fun _ =>
    afterRead h timestamp Risk.calculateAccountRiskTotals_reads fun _ =>
    .bind (finalizePositionFlow_accounts h) fun _ => .bind (finalizeReceiver_accounts h) fun _ =>
    .bind (checkBadDebtAfterLiquidation_accounts h) fun _ => .pure

theorem socializeBadDebt_accounts {accountId : Nat} {gate : BadDebtGate} :
    AccountsOnly timestamp (socializeBadDebt h timestamp accountId gate) :=
  afterRead h timestamp Storage.getAccount_reads fun _ => .bind assertWithError_accounts fun _ =>
    afterRead h timestamp Risk.calculateAccountRiskTotals_reads fun _ =>
    .bind assertWithError_accounts fun _ => executeBadDebtCleanup_accounts h

end Liquidation

/-! ## Markets -/

namespace Markets

include h in
theorem updateIndexes_accounts {hubAssets : List HubAssetKey} :
    AccountsOnly timestamp (updateIndexes timestamp hubAssets : Ctrl W Unit) :=
  afterRead h timestamp Risk.requireNotFlashLoaning_reads fun _ => poolRun_accounts h (.updateIndexes _)

theorem claimRevenueForAsset_accounts {hubAsset : HubAssetKey} :
    AccountsOnly timestamp (claimRevenueForAsset h timestamp hubAsset) :=
  .bind store_accounts fun _ => .bind unwrapOr_accounts fun _ => .bind world_accounts fun _ =>
    .bind (poolCall_accounts h (.claimRevenue _) fun _ => rfl) fun _ => .bind (Payments.balanceDeltaSince_accounts h) fun _ =>
    .ite (.bind (Payments.transferAmountMeasured_accounts h) fun _ => .pure) .pure

theorem claimRevenue_accounts {hubAssets : List HubAssetKey} :
    AccountsOnly timestamp (claimRevenue h timestamp hubAssets) :=
  afterRead h timestamp Risk.requireNotFlashLoaning_reads fun _ => .foldlM (fun _ _ =>
    .bind (claimRevenueForAsset_accounts h) fun _ => .pure) _

theorem recapitalize_accounts {payer : Address} {hubAsset : HubAssetKey} {amount : Int} :
    AccountsOnly timestamp (recapitalize h timestamp payer hubAsset amount) :=
  afterRead h timestamp Risk.requireNotFlashLoaning_reads fun _ => .bind .lift fun _ =>
    .bind (Payments.transferAmountMeasured_accounts h) fun _ =>
    poolCall_accounts h (.recapitalize _ _ _) fun _ => rfl

include h in
theorem createLiquidityPool_accounts {hubId : Nat} {asset : Address} {params : MarketParams} :
    AccountsOnly timestamp (createLiquidityPool timestamp hubId asset params : Ctrl W Unit) :=
  afterRead h timestamp requireHubActive_reads fun _ => .bind assertWithError_accounts fun _ =>
    poolRun_accounts h (.createMarket _ _)

include h in
theorem upgradeLiquidityPoolParams_accounts {hubAsset : HubAssetKey}
    {params : InterestRateModel} :
    AccountsOnly timestamp (upgradeLiquidityPoolParams timestamp hubAsset params : Ctrl W Unit) :=
  .bind (poolRun_accounts h (.updateIndexes _)) fun _ => poolRun_accounts h (.updateParams _ _)

end Markets

/-! ## Entrypoints -/

theorem Governance.whenNotPaused_accounts {α : Type} {x : Ctrl W α}
    (hx : AccountsOnly timestamp x) : AccountsOnly timestamp (Governance.whenNotPaused x) :=
  .bind store_accounts fun _ => .bind .lift fun _ => hx

/-- The calls that write the configuration. -/
def ControllerCall.isConfiguration : ControllerCall → Bool
  | setSwapAggregator _ | setPriceAggregator _ | setAccumulator _ | setPositionLimits _
  | setMinBorrowCollateralUsd _ | setPositionManager _ _ | setBlendPoolApproval _ _ | createHub
  | addSpoke | removeSpoke _ | setSpokeLiquidationCurve _ _ _ _ | addAssetToSpoke _
  | editAssetInSpoke _ | setSpokeAssetFlags _ _ _ _ _ | relaxSpokeAssetFlags _ _ _ _ _ _
  | removeAssetFromSpoke _ _ | pause | unpause => true
  | _ => false

open Governance

/-- **The other calls leave it alone.** -/
theorem ControllerCall.user_configuration {call : ControllerCall}
    (hcall : call.isConfiguration = false) : AccountsOnly timestamp (call.body h timestamp) := by
  cases call with
  | supply => exact whenNotPaused_accounts (.bind (Positions.processSupply_accounts h) fun _ => .pure)
  | borrow => exact whenNotPaused_accounts (Positions.processBorrow_accounts h)
  | withdraw => exact .bind (Positions.processWithdraw_accounts h) fun _ => .pure
  | repay => exact Positions.processRepay_accounts h
  | liquidate => exact .bind (Liquidation.processLiquidation_accounts h) fun _ => .pure
  | cleanBadDebt | forceSocializeBadDebt =>
    exact afterRead h timestamp Risk.requireNotFlashLoaning_reads fun _ =>
      Liquidation.socializeBadDebt_accounts h
  | flashLoan => exact whenNotPaused_accounts (Strategies.processFlashLoan_accounts h)
  | flashPosition =>
    exact whenNotPaused_accounts (.bind (Strategies.processFlashPosition_accounts h) fun _ => .pure)
  | multiply =>
    exact whenNotPaused_accounts (.bind (Strategies.processMultiply_accounts h) fun _ => .pure)
  | swapDebt => exact whenNotPaused_accounts (Strategies.processSwapDebt_accounts h)
  | swapCollateral => exact whenNotPaused_accounts (Strategies.processSwapCollateral_accounts h)
  | repayDebtWithCollateral =>
    exact whenNotPaused_accounts (Strategies.processRepayDebtWithCollateral_accounts h)
  | migrateFromBlend =>
    exact whenNotPaused_accounts (.bind (Strategies.processMigrateBlend_accounts h) fun _ => .pure)
  | updateIndexes => exact whenNotPaused_accounts (Markets.updateIndexes_accounts h)
  | claimRevenue =>
    exact whenNotPaused_accounts (.bind (Markets.claimRevenue_accounts h) fun _ => .pure)
  | updateAccountThreshold => exact whenNotPaused_accounts (Risk.updateAccountThreshold_accounts h)
  | recapitalize => exact .bind (Markets.recapitalize_accounts h) fun _ => .pure
  | addDelegate => exact whenNotPaused_accounts (Account.setAccountDelegate_accounts h)
  | removeDelegate => exact Account.setAccountDelegate_accounts h
  | createLiquidityPool => exact Markets.createLiquidityPool_accounts h
  | upgradeLiquidityPoolParams => exact Markets.upgradeLiquidityPoolParams_accounts h
  | setSwapAggregator | setPriceAggregator | setAccumulator | setPositionLimits
  | setMinBorrowCollateralUsd | setPositionManager | setBlendPoolApproval | createHub | addSpoke
  | removeSpoke | setSpokeLiquidationCurve | addAssetToSpoke | editAssetInSpoke
  | setSpokeAssetFlags | relaxSpokeAssetFlags | removeAssetFromSpoke | pause | unpause => cases hcall

/-! ## Markets of a reachable system -/

/-- The pool and the positions are the same. -/
structure Invocation.SamePool (s s' : Invocation W) : Prop where
  pool : s'.pool = s.pool
  supply : s'.store.supplyPositions = s.store.supplyPositions
  debt : s'.store.borrowPositions = s.store.borrowPositions

instance : Std.Refl (SamePool (W := W)) where
  refl _ := ⟨rfl, rfl, rfl⟩

instance : IsTrans (Invocation W) SamePool where
  trans _ _ _ hst htu :=
    ⟨htu.pool.trans hst.pool, htu.supply.trans hst.supply, htu.debt.trans hst.debt⟩

namespace Config

theorem bumpSpokeFlagsEpoch_pool {key : SpokeAssetKey} :
    Along SamePool (bumpSpokeFlagsEpoch key : Ctrl W Unit) :=
  .bind (.bind .get fun _ => .pure) fun _ => .bind .lift fun _ => .modify fun _ => ⟨rfl, rfl, rfl⟩

theorem upsertSpokeAsset_pool {args : SpokeAssetArgs} {mutation : SpokeAssetMutation} :
    Along SamePool (upsertSpokeAsset args mutation : Ctrl W Unit) := by
  have hreg : Along SamePool (requireRegistration args ⟨args.spokeId, args.hubId, args.asset⟩
      mutation : Ctrl W (Option SpokeAssetConfig)) := by
    refine .bind (.bind .get fun _ => .pure) fun _ => .bind .lift fun _ => ?_
    cases mutation with
    | add => exact .bind .lift fun _ => .bind .lift fun _ => .pure
    | edit => exact .bind .lift fun _ => .bind .lift fun _ => .pure
  refine .bind .lift fun _ => ?_
  generalize validateLiquidationFees args.liquidationFees = fees
  exact .bind .lift fun _ => .bind .lift fun _ => .bind hreg fun _ => .bind .get fun _ =>
    .bind .lift fun _ => .bind .lift fun _ => .bind .lift fun _ => .bind .lift fun _ =>
    .bind (.modify fun _ => ⟨rfl, rfl, rfl⟩) fun _ => .ite bumpSpokeFlagsEpoch_pool .pure

end Config

theorem ControllerCall.configuration_pool {call : ControllerCall}
    (hcall : call.isConfiguration = true) : Along SamePool (call.body h timestamp) := by
  have hstore : Along SamePool (store : Ctrl W ControllerStore) := .bind .get fun _ => .pure
  have hmodify : ∀ f : ControllerStore → ControllerStore,
      (∀ st, (f st).supplyPositions = st.supplyPositions ∧
        (f st).borrowPositions = st.borrowPositions) →
      Along SamePool (modifyStore f : Ctrl W Unit) :=
    fun _ hf => .modify fun s => ⟨rfl, (hf s.store).1, (hf s.store).2⟩
  cases call with
  | setSwapAggregator | setPriceAggregator | setAccumulator | setPositionManager
  | setBlendPoolApproval =>
    unfold ControllerCall.body
    exact hmodify _ fun _ => ⟨rfl, rfl⟩
  | setPositionLimits | setMinBorrowCollateralUsd =>
    exact .bind .lift fun _ => hmodify _ fun _ => ⟨rfl, rfl⟩
  | createHub | addSpoke =>
    exact .bind (.bind hstore fun _ => .bind .lift fun _ =>
      .bind (hmodify _ fun _ => ⟨rfl, rfl⟩) fun _ => .pure)
      fun _ => .pure
  | removeSpoke =>
    exact .bind hstore fun _ => .bind .lift fun _ => .bind .lift fun _ =>
      hmodify _ fun _ => ⟨rfl, rfl⟩
  | setSpokeLiquidationCurve =>
    exact .bind .lift fun _ => .bind hstore fun _ => .bind .lift fun _ =>
      hmodify _ fun _ => ⟨rfl, rfl⟩
  | pause | unpause =>
    exact .bind hstore fun _ => .bind .lift fun _ => hmodify _ fun _ => ⟨rfl, rfl⟩
  | addAssetToSpoke | editAssetInSpoke => exact Config.upsertSpokeAsset_pool
  | setSpokeAssetFlags =>
    exact .bind hstore fun _ => .bind .lift fun _ => .bind .lift fun _ => .bind .lift fun _ =>
      .bind (hmodify _ fun _ => ⟨rfl, rfl⟩) fun _ => Config.bumpSpokeFlagsEpoch_pool
  | relaxSpokeAssetFlags =>
    exact .bind hstore fun _ => .bind .lift fun _ => .bind .lift fun _ =>
      .bind (hmodify _ fun _ => ⟨rfl, rfl⟩) fun _ => Config.bumpSpokeFlagsEpoch_pool
  | removeAssetFromSpoke =>
    exact .bind hstore fun _ => .bind .lift fun _ => .bind .lift fun _ =>
      hmodify _ fun _ => ⟨rfl, rfl⟩
  | _ => cases hcall

/-- **Every call leaves markets that come from runs.** -/
theorem ControllerCall.body_markets {call : ControllerCall} {s s' : Invocation W}
    (hrun : call.body h timestamp s = .ok () s') (hs : MarketsRun timestamp s.pool.markets) :
    MarketsRun timestamp s'.pool.markets := by
  cases hconf : call.isConfiguration with
  | false => exact ((call.user_configuration h hconf).ok hrun).markets hs
  | true =>
    have hpool : s'.pool = s.pool := ((call.configuration_pool h hconf).ok hrun).pool
    rwa [hpool]

theorem ControllerSteps.markets {p p' : System W × Nat} (hsteps : ControllerSteps h p p')
    (hp : MarketsRun p.2 p.1.pool.markets) : MarketsRun p'.2 p'.1.pool.markets := by
  induction hsteps with
  | refl => exact hp
  | tail _ hstep ih =>
    cases hstep with
    | call call hle hexec =>
      unfold ControllerCall.exec at hexec
      split at hexec
      · rename_i t hbody
        cases hexec
        exact call.body_markets h hbody (ih.mono hle)
      · cases hexec
    | outside w => exact ih

theorem System.deployed_markets (w : W) : MarketsRun timestamp (deployed w).pool.markets := by
  intro key m hget
  cases hget

end Lending
