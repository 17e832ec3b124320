import LendingXlm.Controller.Flows

/-!
# Flows of the strategies

Strategies move an account's positions through the controller's own balance. What they do outside
is nothing the books look at; each step on the account keeps it in hand, and all of them end with
the same gates and write-back.
-/

namespace Lending

open Transaction Ctrl Invocation Books Positions

variable {W : Type} {h : ControllerHost W} {timestamp : Nat}

variable {base : System W} {spokeId : Nat} {others : Books} {a : Account}

/-! ## Quiet steps -/

theorem Ctrl.withFlashGuard_outward {α : Type} {f : Ctrl W α} (hf : OutwardOnly f) :
    OutwardOnly (withFlashGuard f) :=
  .bind .get fun _ => .bind (.modify fun _ => ⟨rfl, rfl, rfl, rfl⟩) fun _ =>
    .bind hf fun _ => .ite (.bind (.modify fun _ => ⟨rfl, rfl, rfl, rfl⟩) fun _ => .pure)
      .pure

namespace Strategies

theorem verifyRouterOutput_outward {tokenOut : Address} {before : Int} :
    OutwardOnly (verifyRouterOutput h tokenOut before) :=
  .bind Payments.balanceDeltaSince_outward fun _ => .bind .lift fun _ => .pure

theorem swapTokens_outward {refundTo tokenIn : Address} {amountIn : Int} {tokenOut : Address}
    {swap : StrategySwap} : OutwardOnly (swapTokens h refundTo tokenIn amountIn tokenOut swap) :=
  .bind .lift fun _ => .bind .lift fun _ => .bind store_outward fun _ => .bind .lift fun _ =>
    .bind world_outward fun _ => .bind world_outward fun _ =>
    .bind (withFlashGuard_outward outside_outward) fun _ => .bind world_outward fun _ =>
    .bind .lift fun _ => .bind .lift fun _ => .bind .lift fun _ => .bind .lift fun _ =>
    .ite (.bind Payments.transfer_outward fun _ => verifyRouterOutput_outward) verifyRouterOutput_outward

theorem swapTokensOrPassthrough_outward {refundTo tokenIn : Address} {amountIn : Int}
    {tokenOut : Address} {swap : StrategySwap} :
    OutwardOnly (swapTokensOrPassthrough h refundTo tokenIn amountIn tokenOut swap) :=
  .ite (.bind .lift fun _ => .pure) swapTokens_outward

theorem collectInitialMultiplyPayment_outward {caller : Address} {collateral debt : HubAssetKey}
    {initialPayment : Option HubPayment} {convertSwap : Option StrategySwap} :
    OutwardOnly
      (collectInitialMultiplyPayment h caller collateral debt initialPayment convertSwap) := by
  cases initialPayment with
  | none => exact .pure
  | some e =>
    exact .bind .lift fun _ => .bind Payments.transferAmountMeasured_outward fun _ => .ite .pure
      (.ite .pure (.bind .lift fun _ => .bind swapTokens_outward fun _ => .pure))

theorem prefetchStrategyPrices_reads {extraAssets : List Address} :
    ReadsOnly h timestamp (prefetchStrategyPrices h a extraAssets) :=
  Context.fetchPrices_reads

/-! ## Steps on an account in hand -/

/-- The gates and the write-back, by which every account strategy ends. -/
theorem strategyFinalize_keeps {start : System W} {id : Nat}
    (ho : Opened start base [] id spokeId) :
    Keeps (InHand base spokeId (base.store.booksBesides [id] + 0) a)
      (strategyFinalize h timestamp id a) fun _ => Balanced start [] 0 :=
  .bind enforcePostPoolSolvency_keeps fun _ => .fact fun _ =>
    .bind (writeBack_keeps ho saves_both) fun _ => .pure fun _ hs => hs.1

theorem repayDebtFromController_keeps {caller : Address} {debt : HubAssetKey} {available : Int}
    {debtPos : DebtPosition} (hold : a.Holds .borrow debt debtPos.scaledAmount) :
    Keeps (InHand base spokeId others a)
      (repayDebtFromController h timestamp a caller debt available debtPos)
      fun a' => InHand base spokeId others a' :=
  .skip inHand_stable Payments.transferAmountMeasured_outward.quiet fun _ =>
    .skip inHand_stable world_outward.quiet fun _ =>
    .bind (repayPrefundedPosition_keeps hold) fun _ => .fact fun _ =>
    .skip inHand_stable Payments.refundControllerBalanceDelta_outward.quiet fun _ => .pure fun _ hs => hs

theorem withdrawCollateralToController_keeps {market : HubAssetKey} {amount : Int}
    {position : AccountPosition} (hget : a.supplyPositions.get? market = some position) :
    Keeps (InHand base spokeId others a)
      (withdrawCollateralToController h timestamp a market amount position)
      fun r s => InHand base spokeId others r.1 s ∧ a.SameBesides .supply r.1 :=
  .skip inHand_stable world_outward.quiet fun _ =>
    .bind (withFlashGuard_keeps inHand_stable
      (fun _ s s' hq hs => ⟨inHand_stable s s' hq hs.1, hs.2⟩) (executeWithdrawal_keeps hget))
      fun _ => .fact fun hb => .skip inHand_stable Payments.balanceDeltaSince_outward.quiet fun _ =>
      .pure fun _ hs => ⟨hs, hb⟩

theorem withdrawAndSwapFromSupply_keeps {caller : Address} {source : HubAssetKey} {amount : Int}
    {tokenOut : Address} {swap : StrategySwap} :
    Keeps (InHand base spokeId others a)
      (withdrawAndSwapFromSupply h timestamp a caller source amount tokenOut swap)
      fun r s => InHand base spokeId others r.1 s ∧ a.SameBesides .supply r.1 :=
  .unwrap fun _ hget => .bind (withdrawCollateralToController_keeps hget) fun _ => .fact fun hb =>
    .skip inHand_stable swapTokensOrPassthrough_outward.quiet fun _ => .pure fun _ hs => ⟨hs, hb⟩

theorem withdrawAllOf_keeps {destination : Address} {market : HubAssetKey} :
    Keeps (InHand base spokeId others a) (withdrawAllOf h timestamp destination a market)
      fun a' => InHand base spokeId others a' := by
  unfold withdrawAllOf
  split
  · exact .pure fun s hs => hs
  · rename_i position hget
    exact .bind (executeWithdrawal_keeps hget) fun _ => .pure fun s hs => hs.1

/-- A withdrawal from nothing leaves nothing. -/
theorem withdraw_apply_nothing {receiver : Address} {liq : Bool} {pool pool' : PoolCtx W}
    {entry : PoolWithdrawEntry} {r : PoolPositionMutation}
    (hzero : entry.action.position.scaledAmount = 0)
    (hleg : Withdraw.apply h.toPoolHost timestamp receiver liq pool entry = .ok (pool', r)) :
    r.position.scaledAmount = 0 := by
  unfold Withdraw.apply at hleg
  obtain ⟨o, hacc, hleg⟩ := Fallible.bind_ok hleg
  obtain ⟨c, burned, gross, c1, -, -, -, -, -, -, h0, hle, -, -, -, -, -, -, hmut⟩ :=
    Withdraw.accounting_ok hacc
  have hburned : o.mutation.position.scaledAmount = 0 := by
    rw [hmut]
    show entry.action.position.scaledAmount - burned = 0
    omega
  split at hleg
  · simp only [Fallible.pure_ok_iff, Prod.mk.injEq] at hleg
    rw [← hleg.2]
    exact hburned
  · simp only [Fallible.bind_ok_iff, Fallible.pure_ok_iff, Prod.mk.injEq] at hleg
    obtain ⟨world, -, -, rfl⟩ := hleg
    exact hburned

/-- Withdrawing from a position that is not there touches no total. -/
theorem reserveWithdrawFootprint_keeps {destination : Address} {market : HubAssetKey} :
    Keeps (InHand base spokeId others a)
      (reserveWithdrawFootprint h timestamp destination market)
      fun _ => InHand base spokeId others a := by
  refine .bind (.poolCall (Q := fun _ => InHand base spokeId others a) ?_) fun _ =>
    .pure fun s hs => hs
  intro s pool results hs hrun
  obtain ⟨pool1, r, _, hleg, -, hrest, -⟩ := Ops.runBatch_cons hrun
  obtain ⟨rfl, -⟩ := Ops.runBatch_nil hrest
  obtain ⟨net, hm, -⟩ := Withdraw.apply_moved hleg
  rw [withdraw_apply_nothing rfl hleg] at hm
  obtain ⟨hbooks, hdec⟩ := hm.still
  have hzero : poolBooks pool.markets = poolBooks s.pool.markets + 0 := by rw [hbooks, add_zero]
  have hmoved := hs.toHolding.pool_moved hzero (fun _ _ _ => rfl) hdec
  rw [add_zero] at hmoved
  exact ⟨hmoved, hs.fits⟩

theorem executeWithdrawAll_keeps {destination : Address} {repaid : HubAssetKey} :
    Keeps (InHand base spokeId others a) (executeWithdrawAll h timestamp a destination repaid)
      fun a' => InHand base spokeId others a' :=
  .bind (.ite (fun _ => .pure fun _ hs => hs) fun _ => reserveWithdrawFootprint_keeps) fun _ =>
    Keeps.foldlM (P := fun b _ => InHand base spokeId others b)
      (fun _ _ _ _ => withdrawAllOf_keeps) a

/-- Both sides of one market move together. -/
theorem netSettleCollateralAgainstDebt_keeps {market : HubAssetKey} {amount : Int} :
    Keeps (InHand base spokeId others a)
      (netSettleCollateralAgainstDebt h timestamp a market amount)
      fun a' => InHand base spokeId others a' := by
  refine .read h timestamp inHand_stable enforceSpokeAssetFlags_reads fun _ =>
    .unwrap fun supply hsupply => .unwrap fun debt hdebt => ?_
  refine .knowing (fun s hs => And.intro hs.spoke hs.fits) ?_
  rintro ⟨rfl, hfits⟩
  refine .bind (.poolCall (Q := fun r => Holding base a.spokeId (others +
    atPool .borrow market (r.debtPosition.scaledAmount - a.shares .borrow market) +
    atPool .supply market (r.supplyPosition.scaledAmount - a.shares .supply market)) a) ?_)
    fun r => ?_
  · intro s pool r hs hrun
    obtain ⟨hm, -⟩ := LiquidityPool.netSettle_moved hrun
    have hmoved := hs.toHolding.pool_moved hm.books (fun _ _ _ => by simp) hm.decimals
    rw [a.shares_of_supply hsupply, a.shares_of_debt hdebt, add_assoc, add_comm (atPool .borrow _ _)]
    exact hmoved
  · refine .bind ((mergeWithdrawLeg_keeps ⟨r.supplyPosition.scaledAmount, r.marketIndex,
      r.settledAmount⟩).post fun a1 s hs => And.intro (hs.1.become hs.2 hfits (hfits .supply)
        (Finset.Subset.refl _) (a.holds_supply hsupply).1) hs.2) fun a1 => .fact fun hb => ?_
    have hbesides : a1.borrowPositions = a.borrowPositions := hb.besides
    have hdebt' : a1.borrowPositions.get? market = some debt := hbesides ▸ hdebt
    rw [a.shares_of_debt hdebt, ← a1.shares_of_debt hdebt', ← hb.spokeId]
    refine .knowing (fun s hs => hs.fits) fun hfits1 => ?_
    exact ((mergeDebtLeg_keeps ⟨r.debtPosition.scaledAmount, r.marketIndex,
      r.settledAmount⟩).pre fun s hs => hs.toHolding).post fun a2 s hs =>
        hs.1.become hs.2 hfits1 (hfits1 .borrow) (Finset.Subset.refl _) (a1.holds_debt hdebt').1

/-! ## Whole strategies -/

variable {start : System W} {caller : Address}

theorem processMultiply_keeps {p : MultiplyParams} :
    Keeps (Balanced start [] 0) (processMultiply h timestamp caller p)
      fun _ => Balanced start [] 0 := by
  refine .read h timestamp balanced_stable Risk.requireNotFlashLoaning_reads fun _ =>
    .result fun _ _ => .bind Account.loadOrCreateAccount_keeps fun r =>
    .read h timestamp (balanced_stable.and loaded_stable) requireCanSupply_reads fun _ =>
    .read h timestamp (balanced_stable.and loaded_stable) prefetchStrategyPrices_reads fun _ =>
    .skip (balanced_stable.and loaded_stable) collectInitialMultiplyPayment_outward.quiet fun collected =>
    .openedAlone fun t ho _ => ?_
  exact .bind (borrowIntoController_keeps ho.wellFormed) fun _ => .fact fun _ =>
    .unwrap fun _ _ => .skip inHand_stable swapTokensOrPassthrough_outward.quiet fun _ =>
    .unwrap fun _ _ => .bind (processDeposit_keeps ho.wellFormed) fun _ => .fact fun _ =>
    .bind (strategyFinalize_keeps ho) fun _ => .pure fun _ hs => hs

/-- The debt that is swapped out is another market than the one borrowed, and still held. -/
theorem processSwapDebt_keeps {p : SwapDebtParams} :
    Keeps (Balanced start [] 0) (processSwapDebt h timestamp caller p)
      fun _ => Balanced start [] 0 := by
  refine .read h timestamp balanced_stable Risk.requireNotFlashLoaning_reads fun _ =>
    .assert fun hne => .read h timestamp balanced_stable Context.requireHubActive_reads fun _ =>
    .result fun _ _ => .bind (Storage.getAccount_keeps balanced_stable) fun a =>
    .read h timestamp (balanced_stable.and loaded_stable) Account.requireOwnerOrDelegate_reads
      fun _ => .unwrap fun debtPos hget =>
    .read h timestamp (balanced_stable.and loaded_stable) prefetchStrategyPrices_reads fun _ =>
    .openedAlone fun t ho _ => .knowing (fun s hs => hs.positive) fun hpos =>
    .bind (borrowIntoController_keeps ho.wellFormed) fun r => .fact fun ⟨scaled, hb⟩ =>
    .skip inHand_stable swapTokensOrPassthrough_outward.quiet fun _ => ?_
  have hold : r.1.Holds .borrow p.existingDebt debtPos.scaledAmount := by
    refine Account.holds_of_pos ?_ (hpos.debt hget)
    rw [hb.shares_ne .borrow p.existingDebt hne, a.shares_of_debt hget]
  exact .bind (repayDebtFromController_keeps hold) fun _ =>
    .bind (strategyFinalize_keeps ho) fun _ => .pure fun _ hs => hs

theorem processSwapCollateral_keeps {p : SwapCollateralParams} :
    Keeps (Balanced start [] 0) (processSwapCollateral h timestamp caller p)
      fun _ => Balanced start [] 0 := by
  refine .read h timestamp balanced_stable Risk.requireNotFlashLoaning_reads fun _ =>
    .assert fun _ => .read h timestamp balanced_stable Context.requireHubActive_reads fun _ =>
    .result fun _ _ => .bind (Storage.getAccount_keeps balanced_stable) fun a =>
    .read h timestamp (balanced_stable.and loaded_stable) Account.requireOwnerOrDelegate_reads
      fun _ => .read h timestamp (balanced_stable.and loaded_stable) requireCanSupply_reads
      fun _ => .read h timestamp (balanced_stable.and loaded_stable) prefetchStrategyPrices_reads
      fun _ => .openedAlone fun t ho _ => ?_
  exact .bind withdrawAndSwapFromSupply_keeps fun _ => .fact fun _ =>
    .bind (processDeposit_keeps ho.wellFormed) fun _ => .fact fun _ =>
    .bind (strategyFinalize_keeps ho) fun _ => .pure fun _ hs => hs

/-! ### Repaying with collateral -/

theorem repayViaCollateralSwap_keeps {collateral debt : HubAssetKey} {amount : Int}
    {swap : StrategySwap} :
    Keeps (InHand base spokeId others a)
      (repayViaCollateralSwap h timestamp caller a collateral amount debt swap)
      fun a' => InHand base spokeId others a' := by
  refine .unwrap fun debtPos hget => .bind withdrawAndSwapFromSupply_keeps fun r => .fact fun hb => ?_
  have hbesides : r.1.borrowPositions = a.borrowPositions := hb
  exact repayDebtFromController_keeps (r.1.holds_debt (hbesides ▸ hget))

theorem closeAfterRepay_keeps {collateral : HubAssetKey} {closePosition : Bool} :
    Keeps (InHand base spokeId others a)
      (closeAfterRepay h timestamp caller a collateral closePosition)
      fun a' => InHand base spokeId others a' :=
  .ite (fun _ => .assert fun _ => executeWithdrawAll_keeps) fun _ => .pure fun _ hs => hs

theorem processRepayDebtWithCollateral_keeps {p : RepayWithCollateralParams} :
    Keeps (Balanced start [] 0) (processRepayDebtWithCollateral h timestamp caller p)
      fun _ => Balanced start [] 0 := by
  refine .read h timestamp balanced_stable Risk.requireNotFlashLoaning_reads fun _ =>
    .result fun _ _ => .read h timestamp balanced_stable Context.requireHubActive_reads fun _ =>
    .read h timestamp balanced_stable Context.requireHubActive_reads fun _ =>
    .bind (Storage.getAccount_keeps balanced_stable) fun a =>
    .read h timestamp (balanced_stable.and loaded_stable) Account.requireOwnerOrDelegate_reads
      fun _ => .read h timestamp (balanced_stable.and loaded_stable) prefetchStrategyPrices_reads
      fun _ => .openedAlone fun t ho _ => ?_
  refine .bind (.ite (fun _ => .assert fun _ => netSettleCollateralAgainstDebt_keeps)
    fun _ => repayViaCollateralSwap_keeps) fun _ => ?_
  exact .bind closeAfterRepay_keeps fun _ => .bind (strategyFinalize_keeps ho) fun _ =>
    .pure fun _ hs => hs

/-! ### Flash loans and flash positions -/

theorem processFlashLoan_keeps {hubAsset : HubAssetKey} {amount : Int} {receiver : Address}
    {data : List UInt8} :
    Keeps (Balanced start [] 0)
      (processFlashLoan h timestamp caller hubAsset amount receiver data)
      fun _ => Balanced start [] 0 := by
  refine .read h timestamp balanced_stable Risk.requireNotFlashLoaning_reads fun _ =>
    .result fun _ _ => .read h timestamp balanced_stable Context.requireHubActive_reads fun _ =>
    .skip balanced_stable (.bind world_outward.quiet fun _ => .lift) fun _ => ?_
  refine .bind (withFlashGuard_keeps balanced_stable (fun _ => balanced_stable) (.poolCall ?_))
    fun _ => .pure fun _ hs => hs
  exact fun s pool fee hs hrun => hs.pool_still (Flash.apply_moved hrun).1.still

theorem validateCollaterals_keeps (h : ControllerHost W) (timestamp : Nat)
    (hbase : base.WellFormed) {collaterals : List HubPayment} :
    Keeps (InHand base spokeId others a) (validateCollaterals a collaterals)
      fun _ => InHand base spokeId others a := by
  refine .result fun _ _ => .skip inHand_stable store_outward.quiet fun _ => .assert fun _ =>
    .read h timestamp inHand_stable (.foldlM (fun _ _ => .bind .lift fun _ => .bind .lift fun _ =>
      .bind requireCanSupply_reads fun _ => .pure) []) fun _ => .assert fun _ => ?_
  exact (validatePositionEntryGates_keeps h timestamp hbase).post fun _ _ hs => hs.1

theorem validateRefundAssets_reads {hubId : Nat} {collaterals : List HubPayment}
    {refundAssets : List Address} :
    ReadsOnly h timestamp
      (validateRefundAssets (W := W) spokeId hubId collaterals refundAssets) :=
  .bind store_reads fun _ => .bind .lift fun _ => .bind (.foldlM (fun _ _ => .bind .lift fun _ =>
    .bind Context.requireListedActiveConfig_reads fun _ => .bind .lift fun _ => .pure) [])
    fun _ => .pure

theorem mintAndForward_keeps (hbase : base.WellFormed) {debt : HubAssetKey} {amount : Int}
    {receiver : Address} :
    Keeps (InHand base spokeId others a) (mintAndForward h timestamp a debt amount receiver)
      fun r => InHand base spokeId others r.1 :=
  .skip inHand_stable world_outward.quiet fun _ => .bind (borrowIntoController_keeps hbase) fun _ =>
    .fact fun _ => .skip inHand_stable Payments.balanceDeltaSince_outward.quiet fun _ =>
    .assert fun _ => .assert fun _ =>
    .skip inHand_stable Payments.transferAmountMeasured_outward.quiet fun _ => .assert fun _ =>
    .pure fun _ hs => hs

theorem fundAndCall_keeps (hbase : base.WellFormed) {accountId : Nat} {p : FlashPositionParams} :
    Keeps (InHand base spokeId others a) (fundAndCall h timestamp caller accountId a p)
      fun r => InHand base spokeId others r.1 :=
  .bind (mintAndForward_keeps hbase) fun _ =>
    .skip inHand_stable Payments.snapshotBalances_outward.quiet fun _ =>
    .skip inHand_stable Payments.snapshotBalances_outward.quiet fun _ =>
    .skip inHand_stable outside_outward.quiet fun _ => .pure fun _ hs => hs

theorem collectCollateralDeposits_outward {collaterals : List HubPayment}
    {before : SortedMap Address Int} :
    OutwardOnly (collectCollateralDeposits h collaterals before) :=
  .bind (.foldlM (fun _ _ => .bind .lift fun _ => .bind Payments.balanceDeltaSince_outward fun _ =>
    .bind .lift fun _ => .pure) []) fun _ => .bind .lift fun _ => .pure

theorem refundListedAssets_outward {refundAssets : List Address} {before : SortedMap Address Int} :
    OutwardOnly (refundListedAssets h caller refundAssets before) :=
  .foldlM (fun _ _ => .bind .lift fun _ => Payments.refundControllerBalanceDelta_outward) ()

theorem requireFlashPositionStillOpen_outward {debt : HubAssetKey} :
    OutwardOnly (requireFlashPositionStillOpen a debt : Ctrl W Unit) :=
  .bind .lift fun _ => .bind .lift fun _ => .lift

theorem processFlashPosition_keeps {p : FlashPositionParams} :
    Keeps (Balanced start [] 0) (processFlashPosition h timestamp caller p)
      fun _ => Balanced start [] 0 := by
  refine .read h timestamp balanced_stable Risk.requireNotFlashLoaning_reads fun _ =>
    .result fun _ _ => .read h timestamp balanced_stable Context.requireHubActive_reads fun _ =>
    .assert fun _ => .skip balanced_stable (.bind world_outward.quiet fun _ => .lift) fun _ =>
    .result fun _ _ => .read h timestamp balanced_stable Context.cachedPoolSyncData_reads
      fun _ => .assert fun _ => .bind Account.loadOrCreateAccount_keeps fun r =>
    .openedAlone fun t ho _ => ?_
  refine .bind (validateCollaterals_keeps h timestamp ho.wellFormed) fun _ => .read h timestamp inHand_stable validateRefundAssets_reads fun _ =>
    .read h timestamp inHand_stable prefetchStrategyPrices_reads fun _ =>
    .bind (withFlashGuard_keeps inHand_stable (fun _ => inHand_stable)
      (fundAndCall_keeps ho.wellFormed)) fun _ => ?_
  exact .skip inHand_stable collectCollateralDeposits_outward.quiet fun _ =>
    .bind (processDeposit_keeps ho.wellFormed) fun _ => .fact fun _ =>
    .skip inHand_stable refundListedAssets_outward.quiet fun _ =>
    .skip inHand_stable requireFlashPositionStillOpen_outward.quiet fun _ =>
    .bind (strategyFinalize_keeps ho) fun _ =>
    .skip balanced_stable requireFlashPositionStillOpen_outward.quiet fun _ => .pure fun _ hs => hs

/-! ### Migration -/

theorem borrowMigrationDebt_keeps (hbase : base.WellFormed) {hubId : Nat} {cap : PaymentTuple} :
    Keeps (InHand base spokeId others a) (borrowMigrationDebt h timestamp hubId a cap)
      fun a' => InHand base spokeId others a' :=
  .result fun _ _ => .bind (borrowIntoController_keeps hbase) fun _ => .fact fun _ =>
    .pure fun _ hs => hs

theorem reconcileDebtRefund_keeps {hubId : Nat} {before : SortedMap Address Int}
    {cap : PaymentTuple} :
    Keeps (InHand base spokeId others a)
      (reconcileDebtRefund h timestamp caller hubId before a cap)
      fun a' => InHand base spokeId others a' :=
  .skip inHand_stable Payments.balanceDeltaSince_outward.quiet fun _ => .ite
    (fun _ => .unwrap fun _ hget => repayDebtFromController_keeps (a.holds_debt hget))
    fun _ => .pure fun _ hs => hs

theorem guardedSubmit_outward {blendPool holder : Address} {requests : List BlendRequest} :
    OutwardOnly (guardedSubmit h blendPool holder requests) :=
  withFlashGuard_outward outside_outward

theorem executeMigrationDebtLeg_keeps (hbase : base.WellFormed) {p : MigrateBlendParams} :
    Keeps (InHand base spokeId others a) (executeMigrationDebtLeg h timestamp caller p a)
      fun a' => InHand base spokeId others a' := by
  refine .ite (fun _ => .pure fun _ hs => hs) fun _ =>
    .skip inHand_stable Payments.snapshotBalances_outward.quiet fun _ => ?_
  refine .bind (Keeps.foldlM (P := fun b _ s => InHand base spokeId others b s)
    (fun _ _ _ _ => borrowMigrationDebt_keeps hbase) a) fun _ =>
    .skip inHand_stable guardedSubmit_outward.quiet fun _ => ?_
  exact Keeps.foldlM (P := fun b _ s => InHand base spokeId others b s)
    (fun _ _ _ _ => reconcileDebtRefund_keeps) _

theorem depositWithdrawn_keeps (hbase : base.WellFormed) {hubId : Nat} {assets : List Address}
    {before : SortedMap Address Int} :
    Keeps (InHand base spokeId others a) (depositWithdrawn h timestamp a hubId assets before)
      fun a' => InHand base spokeId others a' :=
  .skip inHand_stable (.foldlM (fun _ _ => .bind Payments.balanceDeltaSince_outward.quiet fun _ => .pure) [])
    fun _ => .ite (fun _ => (processDeposit_keeps hbase).post fun _ _ hs => hs.1)
      fun _ => .pure fun _ hs => hs

theorem sweepAndDeposit_keeps (hbase : base.WellFormed) {p : MigrateBlendParams} :
    Keeps (InHand base spokeId others a) (sweepAndDeposit h timestamp caller p a)
      fun a' => InHand base spokeId others a' :=
  .ite (fun _ => .skip inHand_stable Payments.snapshotBalances_outward.quiet fun _ =>
    .skip inHand_stable guardedSubmit_outward.quiet fun _ => depositWithdrawn_keeps hbase)
    fun _ => .pure fun _ hs => hs

theorem processMigrateBlend_keeps {p : MigrateBlendParams} :
    Keeps (Balanced start [] 0) (processMigrateBlend h timestamp caller p)
      fun _ => Balanced start [] 0 := by
  refine .read h timestamp balanced_stable Risk.requireNotFlashLoaning_reads fun _ =>
    .read h timestamp balanced_stable Context.requireHubActive_reads fun _ =>
    .skip balanced_stable (.bind .lift fun _ => .bind store_outward.quiet fun _ => .lift) fun _ =>
    .result fun _ _ => .bind Account.loadOrCreateAccount_keeps fun r =>
    .read h timestamp (balanced_stable.and loaded_stable) prefetchStrategyPrices_reads fun _ =>
    .read h timestamp (balanced_stable.and loaded_stable)
      (.foldlM (fun _ _ => requireCanSupply_reads) ()) fun _ => .openedAlone fun t ho _ => ?_
  exact .bind (executeMigrationDebtLeg_keeps ho.wellFormed) fun _ =>
    .bind (sweepAndDeposit_keeps ho.wellFormed) fun _ => .bind (strategyFinalize_keeps ho) fun _ =>
    .pure fun _ hs => hs

end Strategies

end Lending
