import LendingXlm.Controller.Liquidation.Repayment
import LendingXlm.Pool.Custody
import Mathlib.Data.List.Nodup

/-!
# Paying a liquidation plan

The plan is paid right after it was made, so the pool settles each leg at the index it was
planned at:

* `Repay.accounting_refunds`: the pool gives back exactly what the plan did not keep;
* `applyLiquidationRepayments_pays`: over tokens that deliver what is sent, the liquidator is
  down by the kept amounts;
* `liquidation_payments_conserved`: planning and paying together.
-/

namespace Lending

open Transaction Ops Ctrl Context Invocation Positions

variable {W : Type} {h : ControllerHost W} {timestamp : Nat} {pool : PoolCtx W}

/-- Tokens that deliver what is sent, and charge nobody else. -/
def TokenHost.Delivers (h : TokenHost W) : Prop :=
  ∀ {w w' asset sender recipient amount}, h.transfer w asset sender recipient amount = .ok w' →
    ∀ token holder, h.balance w' token holder = h.balance w token holder +
      (if token = asset ∧ holder = recipient then amount else 0) -
      (if token = asset ∧ holder = sender then amount else 0)

instance : AssetAmount PoolAction := ⟨fun a => a.hubAsset.asset, PoolAction.amount⟩

@[simp] theorem PoolAction.asset_eq (a : PoolAction) :
    AssetAmount.asset a = a.hubAsset.asset := rfl

@[simp] theorem PoolAction.amount_eq (a : PoolAction) : AssetAmount.amount a = a.amount := rfl

namespace Liquidation

variable {account : Account}

/-- `a` brings the pool `e`, or the whole offer that `e` was kept of. -/
def Brings (h : ControllerHost W) (timestamp : Nat) (pool : PoolCtx W) (account : Account)
    (e : RepayEntry) (a : PoolAction) : Prop :=
  Caps h timestamp pool account (a.hubAsset, a.amount) e ∧
    ∃ position, account.borrowPositions.get? a.hubAsset = some position ∧
      a.position.scaledAmount = position.scaledAmount

/-- A kept entry sent alone brings itself. -/
theorem Planned.caps_self {e : RepayEntry} {debt : Int}
    (he : Planned h timestamp pool account e debt) :
    Caps h timestamp pool account (e.hubAsset, e.amount) e :=
  ⟨rfl, debt, he, (min_eq_left he.amount_le).symm⟩

/-- **The pool's refund.** At the planned index the pool gives back what the plan did not keep. -/
theorem accounting_refunds (hrun : MarketsRun timestamp pool.markets) (hfeeds : h.FeedsMatch pool)
    {e : RepayEntry} {a : PoolAction} (hb : Brings h timestamp pool account e a)
    {o : Repay.Outcome}
    (hacc : Repay.accounting (pool.markets.get? a.hubAsset) timestamp a = .ok o) :
    o.overpayment = a.amount - e.amount ∧ o.cache.params.assetId = e.hubAsset.asset := by
  obtain ⟨⟨hkey, debt, hp, hmin⟩, position, hpos, hscaled⟩ := hb
  dsimp only at hkey hmin
  obtain ⟨m, c, hget, -, hasset, hsync, -, hindex, hid, hdec⟩ := hp.current.synced hrun
  obtain ⟨position', hpos', hdebt⟩ := hp.owed
  obtain ⟨c', burned, hc', -, -, hres, -, -, -, -, -, hcache, -⟩ := Repay.accounting_ok hacc
  rw [hkey] at hget hsync hpos'
  rw [hget] at hc'
  obtain rfl : c = c' := Except.ok.inj (hsync.symm.trans hc')
  obtain rfl : position = position' := Option.some.inj (hpos.symm.trans hpos')
  refine ⟨?_, ?_⟩
  · -- The pool computes the planned debt: same shares, index and decimals.
    have hfeed := hfeeds a.hubAsset m e.feed hget (hkey ▸ hp.reported)
    have hbi : c.borrowIndex = e.marketIndex.borrowIndex := congrArg MarketIndex.borrowIndex hindex
    unfold Cache.resolveRepay at hres
    rw [hscaled, hbi, hdec, ← hfeed] at hres
    obtain ⟨debt', hdebt', hcase⟩ := resolveRepay_cases hres
    obtain rfl : debt = debt' := Except.ok.inj (hdebt.symm.trans hdebt')
    rcases hcase with ⟨hle, -, hover⟩ | ⟨hlt, -, hover⟩
    · rw [hover, hmin, min_eq_right hle]
    · rw [hover, hmin, min_eq_left hlt.le, sub_self]
  · rw [hcache]
    exact (hid.trans hasset)

/-! ## The legs -/

theorem transferOut_delivers (hdel : h.Delivers) {c : Cache} {w w' : W} {recipient : Address}
    {amount : Int} (hne : recipient ≠ h.pool)
    (hpay : c.transferOut h.toPoolHost w recipient amount = .ok w') (token : Address) :
    h.balance w' token recipient =
      h.balance w token recipient + if c.params.assetId = token then amount else 0 := by
  unfold Cache.transferOut requireNonnegAmount at hpay
  simp only [Fallible.bind_ok_iff, Fallible.require_ok_iff] at hpay
  obtain ⟨-, -, hpay⟩ := hpay
  split at hpay
  · rename_i hz
    rw [Fallible.pure_ok_iff] at hpay
    rw [← hpay, hz, ite_self, add_zero]
  · rw [hdel hpay token recipient]
    simp only [hne, and_false, if_false, sub_zero, and_true, eq_comm]

/-- The pool's batch gives back, leg by leg, what the plan did not keep. -/
theorem repayBatch_pays (hrun : MarketsRun timestamp pool.markets) (hfeeds : h.FeedsMatch pool)
    (hdel : h.Delivers) {liquidator : Address} (hne : liquidator ≠ h.pool)
    {repaid : List RepayEntry} {actions : List PoolAction}
    (hb : List.Forall₂ (Brings h timestamp pool account) repaid actions)
    {seen : List HubAssetKey} {s s' : PoolCtx W} {rs : List PoolPositionMutation}
    -- No market is repaid twice, so each is still as it was planned.
    (hfresh : ∀ key ∉ seen, s.markets.get? key = pool.markets.get? key)
    (hbatch : runBatch PoolAction.hubAsset true (Repay.apply h.toPoolHost timestamp liquidator)
      seen s actions = .ok (s', rs)) (token : Address) :
    h.balance s'.world token liquidator =
      h.balance s.world token liquidator + totalOf token actions - totalOf token repaid := by
  induction hb generalizing seen s rs with
  | nil =>
    obtain ⟨rfl, -⟩ := runBatch_nil hbatch
    simp
  | @cons e a repaid actions hbring _ ih =>
    obtain ⟨s1, r, rs1, hleg, huniq, hrest, -⟩ := runBatch_cons hbatch
    have hseen : a.hubAsset ∉ seen := by simpa using huniq
    unfold Repay.apply at hleg
    simp only [Fallible.bind_ok_iff, Fallible.pure_ok_iff, Prod.mk.injEq] at hleg
    obtain ⟨o, hacc, w, hpay, rfl, rfl⟩ := hleg
    rw [hfresh _ hseen] at hacc
    obtain ⟨hover, hasset⟩ := accounting_refunds hrun hfeeds hbring hacc
    have hstep := transferOut_delivers hdel hne hpay token
    have hrec := ih (fun key hkey => by
      rw [List.mem_cons, not_or] at hkey
      dsimp only [PoolCtx.commit]
      rw [SortedMap.get?_set_ne _ _ hkey.1]
      exact hfresh key hkey.2) hrest
    have hkey : e.hubAsset = a.hubAsset := hbring.1.1
    rw [hrec]
    dsimp only
    rw [hstep, hasset, hover, totalOf_cons, totalOf_cons]
    simp only [PoolCtx.commit, PoolAction.asset_eq, PoolAction.amount_eq, RepayEntry.asset_eq,
      RepayEntry.amount_eq, hkey]
    split <;> omega

/-- What is pulled reaches the pool in full. -/
theorem transferAmountMeasured_delivers (hdel : h.Delivers) {w w' : W}
    {asset sender recipient : Address} {amount received : Int} {e : Error}
    (hne : sender ≠ recipient)
    (hpull : h.transferAmountMeasured w asset sender recipient amount e = .ok (w', received)) :
    received = amount ∧ ∀ token, h.balance w' token sender =
      h.balance w token sender - if asset = token then amount else 0 := by
  unfold TokenHost.transferAmountMeasured at hpull
  simp only [Fallible.bind_ok_iff, Fallible.require_ok_iff, Fallible.orThrow_ok_iff,
    I128.checkedSub_some, Fallible.pure_ok_iff, Prod.mk.injEq] at hpull
  obtain ⟨-, -, w1, htransfer, _, ⟨-, rfl⟩, rfl, rfl⟩ := hpull
  refine ⟨?_, fun token => ?_⟩
  · rw [hdel htransfer asset recipient]
    simp [hne.symm]
  · rw [hdel htransfer token sender]
    simp [hne, eq_comm]

/-- One pull: the action brings the entry, and the liquidator is down by what was pulled. -/
theorem pullLiquidationRepayment_triple (hdel : h.Delivers) {liquidator : Address}
    (hne : liquidator ≠ h.pool) {offered : Option (List HubPayment)} {e : RepayEntry}
    (hoff : ∀ pull, pullAmount offered e = .ok pull →
      Caps h timestamp pool account (e.hubAsset, pull) e)
    {acc : PullAcc} (bal : Address → Int) :
    Triple (fun _ => True)
      (fun s => s.pool.markets = pool.markets ∧
        ∀ token, h.balance s.pool.world token liquidator = bal token)
      (pullLiquidationRepayment h liquidator account offered acc e)
      fun acc' s => s.pool.markets = pool.markets ∧
        ∃ a, acc'.actions = acc.actions ++ [a] ∧ Brings h timestamp pool account e a ∧
          ∀ token, h.balance s.pool.world token liquidator = bal token - totalOf token [a] := by
  refine Triple.bind (Q := fun _ s => s.pool.markets = pool.markets ∧
      ∀ token, h.balance s.pool.world token liquidator = bal token) ?_ fun _ =>
    Triple.bind Triple.lift fun pull => ?_
  · refine Along.keeps (R := Reads h timestamp) enforceSpokeAssetFlags_reads
      (fun _ _ _ _ => trivial) ?_
    intro s s' hr hs
    rw [congrArg System.pool hr.system]
    exact hs
  refine Triple.bind (Q := fun received s => (s.pool.markets = pool.markets ∧
      ∀ token, h.balance s.pool.world token liquidator =
        bal token - if e.hubAsset.asset = token then received else 0) ∧
      pullAmount offered e = .ok received) ?_ fun received => ?_
  · refine outside_triple fun s _ ⟨⟨hm, hbal⟩, hpull⟩ w received hrun => ?_
    obtain ⟨rfl, hdown⟩ := transferAmountMeasured_delivers hdel hne hrun
    refine ⟨trivial, ⟨hm, fun token => ?_⟩, hpull⟩
    rw [← hbal token]
    exact hdown token
  · refine Triple.bind Triple.lift fun legUsd => Triple.bind Triple.lift fun receivedUsd =>
      Triple.bind Triple.lift fun position => Triple.pure ?_
    rintro s - ⟨⟨⟨⟨⟨hm, hbal⟩, hpull⟩, -⟩, -⟩, hposition⟩
    refine ⟨hm, _, rfl, ⟨hoff received hpull, position, ?_, rfl⟩, fun token => ?_⟩
    · exact Fallible.orThrow_ok_iff.mp hposition
    · rw [hbal token, totalOf_cons, totalOf_nil, add_zero]
      rfl

theorem mergeDebtLeg_contextOnly {hubAsset : HubAssetKey} {outcome : LegOutcome} :
    ContextOnly (mergeDebtLeg account hubAsset .exit outcome : Ctrl W Account) :=
  .bind (.bind .lift fun _ => .pure) fun _ => .bind (.bind .lift fun _ =>
    applySpokeExit_contextOnly) fun _ => .bind (.modify fun _ => rfl) fun _ => .pure

/-- **Paying a plan.** The liquidator is down by what the plan keeps. -/
theorem applyLiquidationRepayments_pays (hrun : MarketsRun timestamp pool.markets)
    (hfeeds : h.FeedsMatch pool) (hdel : h.Delivers) {liquidator : Address}
    (hne : liquidator ≠ h.pool) {offered : Option (List HubPayment)} {repaid : List RepayEntry}
    (hoff : ∀ e ∈ repaid, ∀ pull, pullAmount offered e = .ok pull →
      Caps h timestamp pool account (e.hubAsset, pull) e) :
    Triple (fun _ => True) (fun s => s.pool = pool)
      (applyLiquidationRepayments h timestamp liquidator account repaid offered)
      fun _ s => ∀ token, h.balance s.pool.world token liquidator =
        h.balance pool.world token liquidator - totalOf token repaid := by
  -- While pulling, the actions made so far bring the entries done so far.
  have hpulls := Triple.foldlM (I := fun _ => True) (l := repaid)
    (f := pullLiquidationRepayment h liquidator account offered)
    (P := fun acc rest s => s.pool.markets = pool.markets ∧ ∃ done, repaid = done ++ rest ∧
      List.Forall₂ (Brings h timestamp pool account) done acc.actions ∧
      ∀ token, h.balance s.pool.world token liquidator =
        h.balance pool.world token liquidator - totalOf token acc.actions) ?_ ⟨[], Wad.zero⟩
  · refine Triple.bind (hpulls.pre ?_) fun acc => ?_
    · rintro s - rfl
      exact ⟨rfl, [], rfl, .nil, fun token => by simp⟩
    refine Triple.bind (Q := fun _ s => ∀ token, h.balance s.pool.world token liquidator =
        h.balance pool.world token liquidator - totalOf token repaid) ?_
      fun r => Triple.pure fun _ _ hs => hs
    refine Triple.bind (poolCall_triple (Q := fun _ s => ∀ token,
        h.balance s.pool.world token liquidator =
          h.balance pool.world token liquidator - totalOf token repaid) ?_) fun results => ?_
    · rintro s - ⟨hm, done, hsplit, hbring, hbal⟩ pool' rs hbatch
      rw [List.append_nil] at hsplit
      subst hsplit
      refine ⟨trivial, fun token => ?_⟩
      dsimp only
      rw [repayBatch_pays hrun hfeeds hdel hne hbring (fun key _ => by rw [hm]) hbatch token,
        hbal token]
      omega
    · refine Triple.bind (Along.keeps (R := SameSystem)
        (.bind .lift fun _ => .foldlM (fun _ _ => mergeDebtLeg_contextOnly) _)
        (fun _ _ _ _ => trivial) ?_) fun _ => Triple.pure fun _ _ hs => hs
      intro s s' hsame hs
      rw [congrArg System.pool hsame]
      exact hs
  · intro acc e rest hmem
    refine Triple.start fun s _ ⟨hm, done, hsplit, hbring, hbal⟩ => ?_
    refine (pullLiquidationRepayment_triple hdel hne (hoff e hmem)
      fun token => h.balance s.pool.world token liquidator).conseq ?_ ?_
    · rintro s' - rfl
      exact ⟨hm, fun token => rfl⟩
    · rintro acc' s' - ⟨hm', a, hactions, hb, hdown⟩
      refine ⟨hm', done ++ [e], by rw [hsplit, List.append_assoc]; rfl, ?_, fun token => ?_⟩
      · rw [hactions]
        exact List.rel_append hbring (.cons hb .nil)
      · rw [hdown, hbal, hactions, totalOf_append]
        omega

/-- What a plan pulls: the kept entry, or, closing the debt, the whole merged offer of its
market. -/
theorem Repays.pulls {rawPayments merged : List HubPayment} {plan : NormalizedRepaymentPlan}
    (hm : Merged rawPayments merged) (hp : Repays h timestamp pool account merged plan)
    {e : RepayEntry} (he : e ∈ plan.repaid) {pull : Int}
    (hpull : pullAmount (if plan.fullClose then some merged else none) e = .ok pull) :
    Caps h timestamp pool account (e.hubAsset, pull) e := by
  by_cases hfull : plan.fullClose = true
  · rw [if_pos hfull] at hpull
    obtain ⟨payment, hmem, hcaps⟩ := (hp.fullClose hfull).mem he
    unfold pullAmount offeredAmount expectInvariant at hpull
    simp only [Fallible.bind_ok_iff, Fallible.orThrow_ok_iff, Fallible.pure_ok_iff] at hpull
    obtain ⟨found, hfind, rfl⟩ := hpull
    have hkey : found.1 = e.hubAsset := by simpa using List.find?_some hfind
    -- Merged offers have one entry per market.
    obtain rfl : found = payment :=
      List.inj_on_of_nodup_map hm.nodup (List.mem_of_find?_eq_some hfind) hmem
        (hkey.trans hcaps.1)
    rw [← hkey]
    exact hcaps
  · rw [if_neg hfull] at hpull
    obtain ⟨debt, hplanned⟩ := hp.planned he
    obtain rfl : e.amount = pull := Except.ok.inj hpull
    exact hplanned.caps_self

end Liquidation

open Liquidation

/-- **Liquidation payments are conserved.** Per asset, what an accepted plan keeps and what it
refunds is what was offered, and every kept amount is positive and at most the debt it pays,
rounded up. Sent to the pool at the planned index a kept amount comes back with no refund, and
the whole offer of a full close with exactly the planned one; so, over tokens that deliver what
is sent, the liquidator who pays the plan is down by the kept amounts. -/
theorem liquidation_payments_conserved {s s1 : Invocation W} {account : Account}
    {rawPayments : List HubPayment} {plan : LiquidationPlan}
    (hrun : MarketsRun timestamp s.pool.markets) (hquoted : s.Quoted h timestamp)
    (hfeeds : h.FeedsMatch s.pool) (hpos : account.Positive)
    (hplan : buildLiquidationPlan h timestamp account rawPayments s = .ok plan s1) :
    ∃ merged, Payments.aggregatePositivePayments rawPayments = .ok merged ∧
      (∀ asset, totalOf asset plan.repayment.repaid + totalOf asset plan.repayment.refunds =
        totalOf asset merged) ∧
      (∀ e ∈ plan.repayment.repaid, ∃ position debt,
        account.borrowPositions.get? e.hubAsset = some position ∧
        s.pool.CurrentIndex timestamp e.hubAsset e.marketIndex ∧
        unscaleBorrowCeil position.scaledAmount e.marketIndex.borrowIndex
          e.feed.assetDecimals = .ok debt ∧
        0 < e.amount ∧ e.amount ≤ debt ∧
        ∀ o, Repay.accounting (s.pool.markets.get? e.hubAsset) timestamp
          (makePoolAction position.scaledAmount e.amount e.hubAsset) = .ok o →
          o.overpayment = 0) ∧
      (plan.repayment.fullClose = true →
        plan.repayment.refunds =
          (List.zipWith legRefund merged plan.repayment.repaid).flatten ∧
        List.Forall₂ (fun payment e => ∀ position o,
          account.borrowPositions.get? e.hubAsset = some position →
          Repay.accounting (s.pool.markets.get? e.hubAsset) timestamp
            (makePoolAction position.scaledAmount payment.2 e.hubAsset) = .ok o →
          o.overpayment = payment.2 - e.amount) merged plan.repayment.repaid) ∧
      (h.Delivers → ∀ liquidator account' receivedUsd s2, liquidator ≠ h.pool →
        applyLiquidationRepayments h timestamp liquidator account plan.repayment.repaid
          (if plan.repayment.fullClose then some merged else none) s1 =
          .ok (account', receivedUsd) s2 →
        ∀ asset, h.balance s1.pool.world asset liquidator -
          h.balance s2.pool.world asset liquidator = totalOf asset plan.repayment.repaid) := by
  unfold buildLiquidationPlan at hplan
  simp only [bind_ok_iff, lift_ok_iff, pure_ok_iff] at hplan
  obtain ⟨plan, s1, hassemble, -, _, ⟨-, rfl⟩, rfl, rfl⟩ := hplan
  obtain ⟨hsees, merged, hm, hrep⟩ :=
    (assembleLiquidationPlan_repays hrun hfeeds hpos).ok ⟨rfl, hquoted⟩ hassemble
  have hmerged := aggregatePositivePayments_merged hm
  refine ⟨merged, hm, hrep.conserved, fun e he => ?_, fun hfull => ?_, ?_⟩
  · obtain ⟨debt, hp⟩ := hrep.planned he
    obtain ⟨position, hposition, hdebt⟩ := hp.owed
    refine ⟨position, debt, hposition, hp.current, hdebt, hp.amount_pos, hp.amount_le, ?_⟩
    intro o hacc
    have hb : Brings h timestamp s.pool account e
        (makePoolAction position.scaledAmount e.amount e.hubAsset) :=
      ⟨hp.caps_self, position, hposition, rfl⟩
    rw [(accounting_refunds hrun hfeeds hb hacc).1]
    exact sub_self _
  · have hcapped := hrep.fullClose hfull
    refine ⟨hcapped.refunds_eq, hcapped.caps.imp fun payment e hcaps position o hposition hacc => ?_⟩
    have hb : Brings h timestamp s.pool account e
        (makePoolAction position.scaledAmount payment.2 e.hubAsset) :=
      ⟨hcaps.1 ▸ hcaps, position, hposition, rfl⟩
    exact (accounting_refunds hrun hfeeds hb hacc).1
  · intro hdel liquidator account' receivedUsd s2 hne happly asset
    have hpays := (applyLiquidationRepayments_pays hrun hfeeds hdel hne
      (fun e he pull hpull => hrep.pulls hmerged he hpull)).ok trivial hsees.pool_eq happly
    rw [hpays.2 asset, hsees.pool_eq]
    omega

/-! ## A sample liquidation -/

namespace Sample

/-- The sample tokens, with every asset at one dollar and accounts owned by address 5. -/
def controllerHost : ControllerHost Balances where
  toPoolHost := host
  controller := 2
  price _ _ _ := .ok ⟨wad, 7, 1_000⟩
  nftOwner _ _ := 5
  nftAssign w _ _ := w
  nftRelease w _ := w
  executeStrategy w _ _ _ _ := .ok w
  executeFlashPosition w _ _ _ _ _ _ _ _ _ := .ok w
  blendSubmit w _ _ _ _ _ := .ok w

theorem controllerHost_delivers : controllerHost.Delivers := by
  intro w w' asset sender recipient amount hmove token holder
  change moveTokens w asset sender recipient amount = .ok w' at hmove
  unfold moveTokens at hmove
  split at hmove
  · rename_i hle
    cases hmove
    change ((movedTokens w asset sender recipient amount.toNat token holder : Nat) : Int) =
      (w token holder : Int) + _ - _
    unfold movedTokens
    by_cases ht : token = asset
    · subst ht
      simp only [if_true, true_and]
      by_cases hs : holder = sender
      · subst hs
        simp only [if_true]
        split <;> omega
      · simp only [hs, if_false]
        split <;> omega
    · simp [ht]
  · cases hmove

def spoke : SpokeConfig where
  isDeprecated := false
  liquidationTargetHfWad := defaultLiquidationTargetHfWad
  hfForMaxBonusWad := defaultHfForMaxBonusWad
  liquidationBonusFactorBps := defaultLiquidationBonusFactorBps

/-- A store with one spoke and a price source. -/
def store : ControllerStore where
  metas := .empty
  supplyPositions := .empty
  borrowPositions := .empty
  delegates := .empty
  hubs := .empty
  spokes := SortedMap.empty.set 1 spoke
  spokeAssets := .empty
  spokeUsage := .empty
  spokeFlagsEpoch := .empty
  positionManagers := .empty
  blendPools := .empty
  positionLimits := ⟨positionLimitMax, positionLimitMax⟩
  minBorrowCollateralUsd := defaultMinBorrowCollateralUsdWad
  swapAggregator := none
  priceAggregator := some 9
  accumulator := none
  lastSpokeId := 1
  lastHubId := 1
  paused := false

/-- An invocation over the sample market after it was lent out. -/
def invocation : Invocation Balances where
  store := store
  nft := ⟨1, .empty⟩
  pool := ⟨SortedMap.empty.set key lentOut, opening⟩
  flashLoanOngoing := false
  cache := {}

/-- Ninety tokens owed on a hundred supplied, at a threshold of 80%. -/
def underwater : Account where
  owner := 5
  spokeId := 1
  mode := .normal
  supplyPositions := SortedMap.empty.set key ⟨100 * ray, 8_000, 500, 7_500, 100⟩
  borrowPositions := SortedMap.empty.set key ⟨90 * ray⟩

theorem invocation_markets : MarketsRun 1_000 invocation.pool.markets := by
  intro k m hget
  unfold invocation at hget
  rw [SortedMap.get?_set] at hget
  split at hget
  · rename_i heq
    cases hget
    exact ⟨1_000, le_rfl, _, heq ▸ lentOut_run⟩
  · cases hget

theorem invocation_feeds : controllerHost.FeedsMatch invocation.pool := by
  intro k m feed hget hrep
  obtain ⟨w, aggregator, hprice⟩ := hrep
  unfold invocation at hget
  rw [SortedMap.get?_set] at hget
  split at hget
  · cases hget
    cases hprice
    rfl
  · cases hget

theorem underwater_positive : underwater.Positive := by
  constructor
  · intro k position hget
    unfold underwater at hget
    rw [SortedMap.get?_set] at hget
    split at hget
    · cases hget
      decide
    · cases hget
  · intro k position hget
    unfold underwater at hget
    rw [SortedMap.get?_set] at hget
    split at hget
    · cases hget
      decide
    · cases hget

end Sample

/-- A liquidator, address 6, offers the sample account a hundred tokens. The plan closes the
debt of ninety, so all are pulled and the pool returns ten. -/
theorem liquidation_payments_conserved_sample :
    ∃ plan s1 r s2, buildLiquidationPlan Sample.controllerHost 1_000 Sample.underwater
        [(Sample.key, 1_000_000_000)] Sample.invocation = .ok plan s1 ∧
      totalOf 7 plan.repayment.repaid + totalOf 7 plan.repayment.refunds = 1_000_000_000 ∧
      applyLiquidationRepayments Sample.controllerHost 1_000 6 Sample.underwater
        plan.repayment.repaid (some [(Sample.key, 1_000_000_000)]) s1 = .ok r s2 ∧
      Sample.controllerHost.balance s1.pool.world 7 6 -
        Sample.controllerHost.balance s2.pool.world 7 6 = totalOf 7 plan.repayment.repaid := by
  obtain ⟨plan, s1, r, s2, hplan, hfull, happly⟩ : ∃ plan s1 r s2,
      buildLiquidationPlan Sample.controllerHost 1_000 Sample.underwater
        [(Sample.key, 1_000_000_000)] Sample.invocation = .ok plan s1 ∧
      plan.repayment.fullClose = true ∧
      applyLiquidationRepayments Sample.controllerHost 1_000 6 Sample.underwater
        plan.repayment.repaid (some [(Sample.key, 1_000_000_000)]) s1 = .ok r s2 :=
    ⟨_, _, _, _, rfl, rfl, rfl⟩
  obtain ⟨merged, hm, hsum, -, -, hpays⟩ := liquidation_payments_conserved
    Sample.invocation_markets (quoted_fresh rfl rfl) Sample.invocation_feeds
    Sample.underwater_positive hplan
  obtain rfl : merged = [(Sample.key, 1_000_000_000)] := by
    cases hm
    rfl
  refine ⟨plan, s1, r, s2, hplan, hsum 7, happly, ?_⟩
  refine hpays Sample.controllerHost_delivers 6 r.1 r.2 s2 (by decide) ?_ 7
  rw [hfull]
  exact happly

end Lending
