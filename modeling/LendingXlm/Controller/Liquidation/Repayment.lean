import LendingXlm.Controller.Reads
import LendingXlm.Pool.Preview
import LendingXlm.Pool.Run

/-!
# Planned repayments

What a liquidator offers is either kept or refunded:

* `RepayEntry.Planned`: a kept entry is positive, at most the debt it pays, and valued at the
  pool's current index and a reported price;
* `planRepayment_answers`: capping one payment at its debt splits it;
* `processExcessPayment_ok`: trimming moves amounts from the entries to the refunds and only
  makes entries smaller;
* `buildLiquidationPlan_repayment`: so does the whole plan, and one that closes the debt was not
  trimmed at all.
-/

namespace Lending

open FpCore Rounding Ops Context Ctrl Invocation

variable {W : Type} {h : ControllerHost W} {timestamp : Nat} {pool : PoolCtx W}

/-! ## Indexes and prices of a reachable pool -/

namespace PoolCtx

variable {hubAsset : HubAssetKey} {index : MarketIndex}

/-- The current index is the one an operation executes at. -/
theorem CurrentIndex.synced (hrun : MarketsRun timestamp pool.markets)
    (hcur : pool.CurrentIndex timestamp hubAsset index) :
    ∃ m c, pool.markets.get? hubAsset = some m ∧ m.Sound ∧
      m.params.assetId = hubAsset.asset ∧
      syncedMarket (some m) timestamp hubAsset = .ok c ∧ c.Sound ∧ c.marketIndex = index ∧
      c.params.assetId = m.params.assetId ∧ c.params.assetDecimals = m.params.assetDecimals := by
  obtain ⟨now, m, hnow, hget, hsim⟩ := hcur
  obtain ⟨t, -, trace, hmrun⟩ := hrun hubAsset m hget
  have hm : m.Sound := hmrun.sound.1
  rw [simulateUpdateIndexes_eq hm hubAsset] at hsim
  cases hsync : Interest.globalSync (Cache.ofMarket hubAsset m now) with
  | error e =>
    rw [hsync] at hsim
    cases hsim
  | ok c =>
    rw [hsync] at hsim
    have hc : syncedMarket (some m) timestamp hubAsset = .ok c := by
      unfold syncedMarket Cache.load
      rw [hnow]
      exact hsync
    have hmoves := Interest.globalSync_moves hsync
    exact ⟨m, c, hget, hm, hmrun.assetId, hc, syncedMarket_sound hm hc, Except.ok.inj hsim,
      hmoves.assetId, hmoves.assetDecimals⟩

theorem CurrentIndex.unique {index' : MarketIndex}
    (hcur : pool.CurrentIndex timestamp hubAsset index)
    (hcur' : pool.CurrentIndex timestamp hubAsset index') : index = index' := by
  obtain ⟨now, m, hnow, hget, hsim⟩ := hcur
  obtain ⟨now', m', hnow', hget', hsim'⟩ := hcur'
  obtain rfl : now = now' := Except.ok.inj (hnow.symm.trans hnow')
  obtain rfl : m = m' := Option.some.inj (hget.symm.trans hget')
  exact Except.ok.inj (hsim.symm.trans hsim')

end PoolCtx

/-- Feeds carry the decimals of the markets they price, as listing requires. -/
def ControllerHost.FeedsMatch (h : ControllerHost W) (pool : PoolCtx W) : Prop :=
  ∀ key m feed, pool.markets.get? key = some m → h.Reported key.asset feed →
    feed.assetDecimals = m.params.assetDecimals

theorem unscaleBorrowCeil_pos {scaled index r : Int} {d : Nat} (hd : d ≤ wadDecimals)
    (hs : 0 < scaled) (hi : 0 < index) (h : unscaleBorrowCeil scaled index d = .ok r) : 0 < r := by
  obtain ⟨-, rfl⟩ := (unscaleBorrowCeil_ok_iff hd hs.le hi.le).mp h
  exact ceilDiv_pos (assetUnit_pos d) (ceilDiv_pos ray_pos (mul_pos hs hi))

theorem Wad.mul_ok_iff {a b r : Int} :
    Wad.mul a b = .ok r ↔ 0 ≤ a ∧ 0 ≤ b ∧ r = halfUpDiv (a * b) wad ∧ r ≤ i128Max := by
  unfold Wad.mul
  rw [mulDivHalfUp_ok_iff]
  simp [wad_pos]

theorem Wad.mulFloor_ok_iff {a b r : Int} :
    Wad.mulFloor a b = .ok r ↔ InI128 (a * b / wad) ∧ a * b / wad = r := by
  unfold Wad.mulFloor
  rw [mulDivFloor_eq wad_pos, toI128_ok_iff]

theorem Wad.divFloor_ok_iff {a b r : Int} (hb : 0 < b) :
    Wad.divFloor a b = .ok r ↔ InI128 (a * wad / b) ∧ a * wad / b = r := by
  unfold Wad.divFloor
  rw [mulDivFloor_eq hb, toI128_ok_iff]

/-- A debt is worth something only at a positive price. -/
theorem positionValueFloor_price {scaled index price usd : Int} (hs : 0 ≤ scaled) (hi : 0 ≤ index)
    (h : positionValueFloor scaled index price = .ok usd) (husd : 0 < usd) : 0 < price := by
  unfold positionValueFloor Ray.toWadFloor at h
  simp only [Fallible.bind_ok_iff, Ray.mulFloor_ok_iff, Wad.mulFloor_ok_iff] at h
  obtain ⟨actual, ⟨-, rfl⟩, actualWad, hwad, -, rfl⟩ := h
  have h0 : 0 ≤ scaled * index / ray := floor_nonneg ray_pos (mul_nonneg hs hi)
  rw [rescaleFloor_down h0 (by decide) (by decide), Except.ok.injEq] at hwad
  have hw : 0 ≤ actualWad := hwad ▸ floor_nonneg (by decide) h0
  by_contra hp
  have : actualWad * price ≤ 0 := mul_nonpos_of_nonneg_of_nonpos hw (by omega)
  have : actualWad * price / wad ≤ 0 := by
    have := floor_mono wad_pos this
    simpa using this
  omega

theorem PriceFeed.usdValueWad_price {feed : PriceFeed} {amount usd : Int}
    (h : feed.usdValueWad amount = .ok usd) (husd : 0 < usd) : 0 < feed.price := by
  unfold PriceFeed.usdValueWad at h
  simp only [Fallible.bind_ok_iff, Wad.mul_ok_iff] at h
  obtain ⟨x, -, -, hp, rfl, -⟩ := h
  refine lt_of_le_of_ne hp fun hz => ?_
  rw [← hz, mul_zero, halfUpDiv_zero wad_pos] at husd
  exact lt_irrefl 0 husd

/-! ## Amounts of an asset -/

/-- An amount of an asset. -/
class AssetAmount (α : Type) where
  asset : α → Address
  amount : α → Int

instance : AssetAmount HubPayment := ⟨fun e => e.1.asset, Prod.snd⟩

instance : AssetAmount RepayEntry := ⟨fun e => e.hubAsset.asset, RepayEntry.amount⟩

instance : AssetAmount PaymentTuple := ⟨PaymentTuple.asset, PaymentTuple.amount⟩

@[simp] theorem HubPayment.asset_eq (e : HubPayment) : AssetAmount.asset e = e.1.asset := rfl

@[simp] theorem HubPayment.amount_eq (e : HubPayment) : AssetAmount.amount e = e.2 := rfl

@[simp] theorem RepayEntry.asset_eq (e : RepayEntry) :
    AssetAmount.asset e = e.hubAsset.asset := rfl

@[simp] theorem RepayEntry.amount_eq (e : RepayEntry) : AssetAmount.amount e = e.amount := rfl

@[simp] theorem PaymentTuple.asset_eq (e : PaymentTuple) : AssetAmount.asset e = e.asset := rfl

@[simp] theorem PaymentTuple.amount_eq (e : PaymentTuple) : AssetAmount.amount e = e.amount := rfl

/-- How much of `asset` a list holds. -/
def totalOf {α : Type} [AssetAmount α] (asset : Address) (l : List α) : Int :=
  (l.map fun e => if AssetAmount.asset e = asset then AssetAmount.amount e else 0).sum

section
variable {α : Type} [AssetAmount α] {asset : Address}

@[simp] theorem totalOf_nil : totalOf asset ([] : List α) = 0 := rfl

@[simp] theorem totalOf_cons (e : α) (l : List α) :
    totalOf asset (e :: l) =
      (if AssetAmount.asset e = asset then AssetAmount.amount e else 0) + totalOf asset l := by
  simp [totalOf]

@[simp] theorem totalOf_append (l l' : List α) :
    totalOf asset (l ++ l') = totalOf asset l + totalOf asset l' := by
  simp [totalOf]

end

namespace Liquidation

/-! ## Merged offers -/

/-- Merged offers are positive, one per market, and add up to what was offered. -/
structure Merged (payments merged : List HubPayment) : Prop where
  positive : ∀ e ∈ merged, 0 < e.2
  nodup : (merged.map Prod.fst).Nodup
  total : ∀ asset, totalOf asset merged = totalOf asset payments

theorem aggregatePaymentAmount_ok {previous : Option Int} {amount next : Int}
    (h : Payments.aggregatePaymentAmount previous amount .rejected = .ok next) :
    0 < amount ∧ next = previous.getD 0 + amount := by
  unfold Payments.aggregatePaymentAmount requireNonnegAmount at h
  simp only [Fallible.bind_ok_iff, Fallible.require_ok_iff] at h
  obtain ⟨-, h0, h⟩ := h
  split at h
  · simp at h
  · rename_i hne
    simp only [reduceCtorEq, false_and, if_false, Fallible.orThrow_ok_iff,
      I128.checkedAdd_some] at h
    exact ⟨by omega, h.2.symm⟩

/-- Adding up in place moves the total by the difference. -/
theorem totalOf_replace {totals : List HubPayment} {key : HubAssetKey} {p next : Int}
    (hnodup : (totals.map Prod.fst).Nodup) (hp : Payments.lookupPayment key totals = some p)
    (asset : Address) :
    totalOf asset (totals.map fun e => if e.1 = key then (e.1, next) else e) =
      totalOf asset totals + if key.asset = asset then next - p else 0 := by
  induction totals with
  | nil => cases hp
  | cons e totals ih =>
    rw [List.map_cons, List.nodup_cons] at hnodup
    rw [List.map_cons, totalOf_cons, totalOf_cons]
    by_cases heq : e.1 = key
    · subst heq
      obtain rfl : e.2 = p := by simpa [Payments.lookupPayment] using hp
      -- The key does not come back, so the rest stays.
      have hrest : totals.map (fun e' => if e'.1 = e.1 then (e'.1, next) else e') = totals := by
        conv_rhs => rw [← List.map_id totals]
        refine List.map_congr_left fun e' he' => ?_
        rw [if_neg, id]
        intro hk
        exact hnodup.1 (hk ▸ List.mem_map_of_mem he')
      rw [hrest, if_pos rfl]
      simp only [HubPayment.asset_eq, HubPayment.amount_eq]
      split <;> omega
    · have hp' : Payments.lookupPayment key totals = some p := by
        simpa [Payments.lookupPayment, List.find?_cons, heq] using hp
      rw [ih hnodup.2 hp', if_neg heq]
      omega

theorem lookupPayment_none {totals : List HubPayment} {key : HubAssetKey}
    (hn : Payments.lookupPayment key totals = none) : key ∉ totals.map Prod.fst := by
  simp only [Payments.lookupPayment, Option.map_eq_none_iff, List.find?_eq_none,
    decide_eq_true_eq] at hn
  rintro hmem
  obtain ⟨e, he, rfl⟩ := List.mem_map.mp hmem
  exact hn e he rfl

theorem lookupPayment_mem {totals : List HubPayment} {key : HubAssetKey} {p : Int}
    (hp : Payments.lookupPayment key totals = some p) : (key, p) ∈ totals := by
  simp only [Payments.lookupPayment, Option.map_eq_some_iff] at hp
  obtain ⟨e, he, rfl⟩ := hp
  have hk : e.1 = key := by simpa using List.find?_some he
  exact hk ▸ List.mem_of_find?_eq_some he

theorem Merged.step {payments totals totals' : List HubPayment} {payment : HubPayment}
    (hm : Merged payments totals)
    (h : Payments.aggregateStep .rejected totals payment = .ok totals') :
    Merged (payments ++ [payment]) totals' := by
  unfold Payments.aggregateStep at h
  obtain ⟨next, hnext, h⟩ := Fallible.bind_ok h
  obtain ⟨hpos, hval⟩ := aggregatePaymentAmount_ok hnext
  cases hprev : Payments.lookupPayment payment.1 totals with
  | none =>
    simp only [hprev, Option.isNone_none, if_true, Fallible.pure_ok_iff] at h
    rw [hprev, Option.getD_none, zero_add] at hval
    subst h hval
    refine ⟨?_, ?_, ?_⟩
    · intro e he
      rcases List.mem_append.mp he with he | he
      · exact hm.positive e he
      · obtain rfl := List.mem_singleton.mp he
        exact hpos
    · rw [List.map_append, List.nodup_append]
      refine ⟨hm.nodup, by simp, ?_⟩
      rintro k hk k' hk' rfl
      obtain rfl := List.mem_singleton.mp hk'
      exact lookupPayment_none hprev hk
    · intro asset
      rw [totalOf_append, totalOf_append, hm.total]
  | some p =>
    simp only [hprev, Option.isNone_some, Bool.false_eq_true, if_false, Fallible.pure_ok_iff] at h
    rw [hprev, Option.getD_some] at hval
    have hp := hm.positive _ (lookupPayment_mem hprev)
    subst h
    refine ⟨?_, ?_, ?_⟩
    · intro e he
      obtain ⟨e', he', rfl⟩ := List.mem_map.mp he
      split
      · dsimp only at hp ⊢
        omega
      · exact hm.positive e' he'
    · have hkeys : (totals.map fun e => if e.1 = payment.1 then (e.1, next) else e).map Prod.fst =
          totals.map Prod.fst := by
        rw [List.map_map]
        refine List.map_congr_left fun e _ => ?_
        rw [Function.comp_apply]
        split <;> rfl
      rw [hkeys]
      exact hm.nodup
    · intro asset
      rw [totalOf_replace hm.nodup hprev, totalOf_append, hm.total, totalOf_cons, totalOf_nil]
      simp only [HubPayment.asset_eq, HubPayment.amount_eq]
      split <;> omega

theorem aggregatePositivePayments_merged {payments merged : List HubPayment}
    (h : Payments.aggregatePositivePayments payments = .ok merged) : Merged payments merged := by
  unfold Payments.aggregatePositivePayments Payments.aggregatePayments at h
  obtain ⟨-, -, h⟩ := Fallible.bind_ok h
  suffices hsuf : ∀ (rest done totals : List HubPayment), Merged done totals →
      rest.foldlM (Payments.aggregateStep .rejected) totals = .ok merged →
      Merged (done ++ rest) merged from
    hsuf payments [] [] ⟨by simp, by simp, by simp⟩ h
  intro rest
  induction rest with
  | nil =>
    intro done totals hm hrun
    obtain rfl := Fallible.foldlM_nil_ok hrun
    rwa [List.append_nil]
  | cons payment rest ih =>
    intro done totals hm hrun
    obtain ⟨totals', hstep, hrest⟩ := Fallible.foldlM_cons_ok hrun
    have hall := ih _ _ (hm.step hstep) hrest
    rwa [List.append_assoc, List.singleton_append] at hall

/-! ## Capping at the debt -/

/-- `e` pays part of `debt`, what the account owes in its market, at the pool's current index and
a reported price. -/
structure Planned (h : ControllerHost W) (timestamp : Nat) (pool : PoolCtx W) (account : Account)
    (e : RepayEntry) (debt : Int) : Prop where
  reported : h.Reported e.hubAsset.asset e.feed
  current : pool.CurrentIndex timestamp e.hubAsset e.marketIndex
  owed : ∃ position, account.borrowPositions.get? e.hubAsset = some position ∧
    unscaleBorrowCeil position.scaledAmount e.marketIndex.borrowIndex e.feed.assetDecimals =
      .ok debt
  amount_pos : 0 < e.amount
  amount_le : e.amount ≤ debt
  price_pos : 0 < e.usdWad → 0 < e.feed.price

/-- `e` is what the debt takes of `payment`. -/
def Caps (h : ControllerHost W) (timestamp : Nat) (pool : PoolCtx W) (account : Account)
    (payment : HubPayment) (e : RepayEntry) : Prop :=
  e.hubAsset = payment.1 ∧
    ∃ debt, Planned h timestamp pool account e debt ∧ e.amount = min payment.2 debt

/-- What `payment` gets back when `e` is kept of it. -/
def legRefund (payment : HubPayment) (e : RepayEntry) : List PaymentTuple :=
  if payment.2 > e.amount then [⟨payment.1.asset, payment.2 - e.amount⟩] else []

section
variable {account : Account}

theorem Caps.totalOf_legRefund {payment : HubPayment} {e : RepayEntry}
    (hcaps : Caps h timestamp pool account payment e) (asset : Address) :
    totalOf asset [e] + totalOf asset (legRefund payment e) = totalOf asset [payment] := by
  obtain ⟨hkey, debt, -, hmin⟩ := hcaps
  have hle : e.amount ≤ payment.2 := hmin ▸ min_le_left _ _
  unfold legRefund
  split
  · simp only [totalOf_cons, totalOf_nil, RepayEntry.asset_eq, RepayEntry.amount_eq,
      HubPayment.asset_eq, HubPayment.amount_eq, PaymentTuple.asset_eq, PaymentTuple.amount_eq,
      hkey]
    split <;> omega
  · simp only [totalOf_cons, totalOf_nil, RepayEntry.asset_eq, RepayEntry.amount_eq,
      HubPayment.asset_eq, HubPayment.amount_eq, hkey]
    split <;> omega

/-- The decimals of a reported feed are those of a sound market. -/
theorem decimals_le (hrun : MarketsRun timestamp pool.markets) (hfeeds : h.FeedsMatch pool)
    {hubAsset : HubAssetKey} {index : MarketIndex} {feed : PriceFeed}
    (hcur : pool.CurrentIndex timestamp hubAsset index) (hrep : h.Reported hubAsset.asset feed) :
    feed.assetDecimals ≤ wadDecimals := by
  obtain ⟨m, c, hget, hm, -⟩ := hcur.synced hrun
  rw [hfeeds hubAsset m feed hget hrep]
  exact hm.params.decimals_le

theorem borrowIndex_pos (hrun : MarketsRun timestamp pool.markets) {hubAsset : HubAssetKey}
    {index : MarketIndex} (hcur : pool.CurrentIndex timestamp hubAsset index) :
    0 < index.borrowIndex := by
  obtain ⟨m, c, -, -, -, -, hc, rfl, -⟩ := hcur.synced hrun
  exact hc.borrowIndex_pos

/-- One payment is split into what is kept and what is refunded. -/
theorem planRepayment_answers (hrun : MarketsRun timestamp pool.markets)
    (hfeeds : h.FeedsMatch pool) (hpos : account.Positive) {acc : RepaymentAcc}
    {payment : HubPayment} (hpay : 0 < payment.2) :
    Answers h timestamp pool (planRepayment timestamp account acc payment) fun acc' =>
      ∃ e, acc'.repaid = acc.repaid ++ [e] ∧ acc'.refunds = acc.refunds ++ legRefund payment e ∧
        Caps h timestamp pool account payment e := by
  obtain ⟨hubAsset, amount⟩ := payment
  refine .bind cachedPrice_answers fun feed hrep => .bind cachedMarketIndex_answers
    fun index hcur => .bind (.lift fun position hget => hget) fun position hget =>
    .bind (.lift fun debt hdebt => hdebt) fun debt hdebt => ?_
  rw [Fallible.orThrow_ok_iff] at hget
  have hbi := borrowIndex_pos hrun hcur
  have hscaled := hpos.debt hget
  have hdpos := unscaleBorrowCeil_pos (decimals_le hrun hfeeds hcur hrep) hscaled hbi hdebt
  dsimp only at hpay
  refine .bind (.lift fun usd husd => husd) fun usd husd =>
    .bind (.lift fun total _ => trivial) fun total _ => .pure ⟨_, rfl, ?_, rfl, debt, ?_, rfl⟩
  · unfold legRefund
    dsimp only
    by_cases hover : amount > debt
    · rw [if_pos hover, min_eq_right hover.le, if_pos hover]
    · rw [if_neg hover, min_eq_left (not_lt.mp hover), if_neg (lt_irrefl amount),
        List.append_nil]
  · refine ⟨hrep, hcur, ⟨position, hget, hdebt⟩, lt_min hpay hdpos, min_le_right _ _, ?_⟩
    intro hu
    split at husd
    · exact positionValueFloor_price hscaled.le hbi.le husd hu
    · exact PriceFeed.usdValueWad_price husd hu

/-- The merged offers, capped one by one. -/
structure Capped (h : ControllerHost W) (timestamp : Nat) (pool : PoolCtx W) (account : Account)
    (payments : List HubPayment) (repaid : List RepayEntry) (refunds : List PaymentTuple) :
    Prop where
  caps : List.Forall₂ (Caps h timestamp pool account) payments repaid
  refunds_eq : refunds = (List.zipWith legRefund payments repaid).flatten

theorem Capped.append {done : List HubPayment} {repaid : List RepayEntry}
    {refunds : List PaymentTuple} {payment : HubPayment} {e : RepayEntry}
    (hcapped : Capped h timestamp pool account done repaid refunds)
    (hcaps : Caps h timestamp pool account payment e) :
    Capped h timestamp pool account (done ++ [payment]) (repaid ++ [e])
      (refunds ++ legRefund payment e) := by
  refine ⟨List.rel_append hcapped.caps (.cons hcaps .nil), ?_⟩
  rw [List.zipWith_append hcapped.caps.length_eq, List.flatten_append, hcapped.refunds_eq]
  simp

theorem Capped.conserved {payments : List HubPayment} {repaid : List RepayEntry}
    {refunds : List PaymentTuple}
    (hcapped : Capped h timestamp pool account payments repaid refunds) (asset : Address) :
    totalOf asset repaid + totalOf asset refunds = totalOf asset payments := by
  obtain ⟨hcaps, rfl⟩ := hcapped
  induction hcaps with
  | nil => simp
  | cons hcap _ ih =>
    have hone := hcap.totalOf_legRefund asset
    simp only [totalOf_cons, totalOf_nil, add_zero] at hone
    simp only [List.zipWith_cons_cons, List.flatten_cons, totalOf_cons, totalOf_append]
    omega

theorem calculateRepaymentAmounts_answers (hrun : MarketsRun timestamp pool.markets)
    (hfeeds : h.FeedsMatch pool) (hpos : account.Positive) {rawPayments : List HubPayment} :
    Answers h timestamp pool (calculateRepaymentAmounts timestamp rawPayments account) fun acc =>
      ∃ merged, Payments.aggregatePositivePayments rawPayments = .ok merged ∧
        Capped h timestamp pool account merged acc.repaid acc.refunds := by
  refine .bind (.lift fun merged hm => hm) fun merged hm => ?_
  have hmerged := aggregatePositivePayments_merged hm
  -- The invariant splits `merged` into what was capped and what is left.
  refine (Answers.foldlM
    (P := fun acc rest => ∃ done, merged = done ++ rest ∧
      Capped h timestamp pool account done acc.repaid acc.refunds)
    ?_ _ ⟨[], rfl, .nil, rfl⟩).mono ?_
  · rintro acc payment rest hmem ⟨done, hsplit, hcapped⟩
    refine (planRepayment_answers hrun hfeeds hpos (hmerged.positive payment hmem)).mono ?_
    rintro acc' ⟨e, hrepaid, hrefunds, hcaps⟩
    refine ⟨done ++ [payment], by rw [hsplit, List.append_assoc]; rfl, ?_⟩
    rw [hrepaid, hrefunds]
    exact hcapped.append hcaps
  · rintro acc ⟨done, hsplit, hcapped⟩
    rw [List.append_nil] at hsplit
    exact ⟨merged, hm, hsplit ▸ hcapped⟩

end

/-! ## Trimming -/

/-- `x` is what is left of `e`. -/
structure CutOf (x e : RepayEntry) : Prop where
  hubAsset : x.hubAsset = e.hubAsset
  feed : x.feed = e.feed
  marketIndex : x.marketIndex = e.marketIndex
  amount_pos : 0 < x.amount
  amount_le : x.amount ≤ e.amount
  usdWad_le : x.usdWad ≤ e.usdWad

theorem CutOf.trans {x y e : RepayEntry} (hx : CutOf x y) (hy : CutOf y e) : CutOf x e where
  hubAsset := hx.hubAsset.trans hy.hubAsset
  feed := hx.feed.trans hy.feed
  marketIndex := hx.marketIndex.trans hy.marketIndex
  amount_pos := hx.amount_pos
  amount_le := hx.amount_le.trans hy.amount_le
  usdWad_le := hx.usdWad_le.trans hy.usdWad_le

theorem Planned.cut {account : Account} {x e : RepayEntry} {debt : Int}
    (he : Planned h timestamp pool account e debt) (hx : CutOf x e) :
    Planned h timestamp pool account x debt where
  reported := by
    rw [hx.hubAsset, hx.feed]
    exact he.reported
  current := by
    rw [hx.hubAsset, hx.marketIndex]
    exact he.current
  owed := by
    rw [hx.hubAsset, hx.marketIndex, hx.feed]
    exact he.owed
  amount_pos := hx.amount_pos
  amount_le := hx.amount_le.trans he.amount_le
  price_pos := by
    intro hu
    rw [hx.feed]
    exact he.price_pos (hu.trans_le hx.usdWad_le)

/-- What trimming needs of an entry. -/
structure Cuttable (e : RepayEntry) : Prop where
  decimals_le : e.feed.assetDecimals ≤ wadDecimals
  amount_pos : 0 < e.amount
  price_pos : 0 < e.usdWad → 0 < e.feed.price

theorem CutOf.cuttable {x e : RepayEntry} (hx : CutOf x e) (he : Cuttable e) : Cuttable x where
  decimals_le := by
    rw [hx.feed]
    exact he.decimals_le
  amount_pos := hx.amount_pos
  price_pos := by
    intro hu
    rw [hx.feed]
    exact he.price_pos (hu.trans_le hx.usdWad_le)

theorem fromToken_ok {amount r : Int} {d : Nat} (hd : d ≤ wadDecimals)
    (h : Wad.fromToken amount d = .ok r) : r = amount * 10 ^ (wadDecimals - d) := by
  unfold Wad.fromToken at h
  rcases hd.eq_or_lt with rfl | hlt
  · rw [rescaleHalfUp, rescale_same, Except.ok.injEq] at h
    simp [h]
  · rw [rescaleHalfUp_up hlt (by simp only [wadDecimals]; omega), toI128_ok_iff] at h
    exact h.2.symm

theorem toTokenFloor_ok {amount r : Int} {d : Nat} (hd : d ≤ wadDecimals) (ha : 0 ≤ amount)
    (h : Wad.toTokenFloor amount d = .ok r) : r = amount / 10 ^ (wadDecimals - d) := by
  unfold Wad.toTokenFloor at h
  rw [rescaleFloor_down ha hd (by simp only [wadDecimals]; omega), Except.ok.injEq] at h
  exact h.symm

/-- A cut leaves between nothing and the whole entry. -/
theorem cutEntry_ok {e : RepayEntry} {excess amount usd : Int} {keep : Bool} (he : Cuttable e)
    (hexc : 0 < excess) (hlt : excess < e.usdWad)
    (h : cutEntry e excess keep = .ok (amount, usd)) :
    0 ≤ amount ∧ amount ≤ e.amount ∧ usd ≤ e.usdWad := by
  have hprice := he.price_pos (hexc.trans hlt)
  have hunit : (0 : Int) < 10 ^ (wadDecimals - e.feed.assetDecimals) := by positivity
  have hamount := he.amount_pos
  unfold cutEntry at h
  simp only [Fallible.bind_ok_iff, Fallible.pure_ok_iff, Prod.mk.injEq] at h
  obtain ⟨newAmount, hnew, x, -, y, -, rfl, rfl⟩ := h
  suffices hsuf : 0 ≤ newAmount ∧ newAmount ≤ e.amount from
    ⟨hsuf.1, hsuf.2, min_le_right _ _⟩
  cases keep with
  | true =>
    simp only [if_true, Fallible.bind_ok_iff, Fallible.pure_ok_iff, Wad.checkedSub,
      checkedSubNonneg_ok_iff, Wad.divFloor_ok_iff hprice] at hnew
    obtain ⟨v, ⟨-, -, -, rfl⟩, q, ⟨-, rfl⟩, kept, hkept, rfl⟩ := hnew
    have hq : 0 ≤ (e.usdWad - excess) * wad / e.feed.price :=
      floor_nonneg hprice (mul_nonneg (by omega) wad_pos.le)
    have h0 := floor_nonneg hunit hq
    rw [← toTokenFloor_ok he.decimals_le hq hkept] at h0
    exact ⟨le_min h0 hamount.le, min_le_right _ _⟩
  | false =>
    simp only [Bool.false_eq_true, if_false, Fallible.bind_ok_iff, Fallible.pure_ok_iff,
      Wad.divFloor_ok_iff (hexc.trans hlt), Wad.mulFloor_ok_iff] at hnew
    obtain ⟨ratio, ⟨-, hratio⟩, whole, hwhole, scaled, ⟨-, hscaled⟩, cut, hcut, rfl⟩ := hnew
    have hwhole := fromToken_ok he.decimals_le hwhole
    -- The ratio is below one, so the cut is within the entry.
    have hr0 : 0 ≤ ratio := hratio ▸ floor_nonneg (hexc.trans hlt) (by
      have := wad_pos
      positivity)
    have hr1 : ratio ≤ wad := by
      rw [← hratio]
      refine Int.le_of_lt_add_one ((floor_lt_iff (hexc.trans hlt)).mpr ?_)
      have := wad_pos
      nlinarith
    have hw0 : 0 ≤ whole := by
      rw [hwhole]
      positivity
    have hs0 : 0 ≤ scaled := hscaled ▸ floor_nonneg wad_pos (mul_nonneg hw0 hr0)
    have hs1 : scaled ≤ whole := by
      rw [← hscaled]
      refine Int.le_of_lt_add_one ((floor_lt_iff wad_pos).mpr ?_)
      have := wad_pos
      nlinarith
    have hcut := toTokenFloor_ok he.decimals_le hs0 hcut
    have hc0 : 0 ≤ cut := hcut ▸ floor_nonneg hunit hs0
    have hc1 : cut ≤ e.amount := by
      rw [hcut]
      refine (floor_mono hunit hs1).trans ?_
      rw [hwhole, Int.mul_ediv_cancel _ hunit.ne']
    omega

/-- One entry: what it loses is refunded. -/
theorem trimEntry_ok {e : RepayEntry} {acc acc' : ExcessAcc} {keep : Bool} (he : Cuttable e)
    (h : trimEntry keep e acc = .ok acc') :
    (∀ asset, totalOf asset acc'.kept + totalOf asset acc'.refunds =
      totalOf asset acc.kept + totalOf asset acc.refunds +
        if e.hubAsset.asset = asset then e.amount else 0) ∧
    ∀ x ∈ acc'.kept, x ∈ acc.kept ∨ CutOf x e := by
  have hself : CutOf e e := ⟨rfl, rfl, rfl, he.amount_pos, le_rfl, le_rfl⟩
  unfold trimEntry at h
  split at h
  · rw [Fallible.pure_ok_iff] at h
    subst h
    refine ⟨fun asset => ?_, fun x hx => ?_⟩
    · simp only [totalOf_cons, RepayEntry.asset_eq, RepayEntry.amount_eq]
      omega
    · rcases List.mem_cons.mp hx with rfl | hx
      · exact .inr hself
      · exact .inl hx
  rename_i hgo
  split at h
  · rename_i hlt
    simp only [Fallible.bind_ok_iff, Fallible.pure_ok_iff] at h
    obtain ⟨⟨amount, usd⟩, hcut, remaining, -, rfl⟩ := h
    obtain ⟨h0, hle, husd⟩ := cutEntry_ok he (by omega) hlt hcut
    dsimp only
    split
    · rename_i hz
      subst hz
      refine ⟨fun asset => ?_, fun x hx => .inl hx⟩
      simp only [totalOf_append, totalOf_cons, totalOf_nil, PaymentTuple.asset_eq,
        PaymentTuple.amount_eq]
      split <;> omega
    · rename_i hnz
      refine ⟨fun asset => ?_, fun x hx => ?_⟩
      · simp only [totalOf_append, totalOf_cons, totalOf_nil, PaymentTuple.asset_eq,
          PaymentTuple.amount_eq, RepayEntry.asset_eq, RepayEntry.amount_eq]
        split <;> omega
      · rcases List.mem_cons.mp hx with rfl | hx
        · exact .inr ⟨rfl, rfl, rfl, by dsimp only; omega, hle, husd⟩
        · exact .inl hx
  · simp only [Fallible.bind_ok_iff, Fallible.pure_ok_iff] at h
    obtain ⟨remaining, -, rfl⟩ := h
    refine ⟨fun asset => ?_, fun x hx => .inl hx⟩
    simp only [totalOf_append, totalOf_cons, totalOf_nil, PaymentTuple.asset_eq,
      PaymentTuple.amount_eq]
    split <;> omega

theorem totalOf_reverse {α : Type} [AssetAmount α] (asset : Address) (l : List α) :
    totalOf asset l.reverse = totalOf asset l := by
  unfold totalOf
  rw [List.map_reverse, List.sum_reverse]

/-- `repaid'` and `refunds'` share out what `repaid` and `refunds` do, and entries only got
smaller. -/
structure Trims (repaid repaid' : List RepayEntry) (refunds refunds' : List PaymentTuple) :
    Prop where
  conserved : ∀ asset, totalOf asset repaid' + totalOf asset refunds' =
    totalOf asset repaid + totalOf asset refunds
  cuts : ∀ x ∈ repaid', ∃ e ∈ repaid, CutOf x e

theorem Trims.trans {r r1 r2 : List RepayEntry} {f f1 f2 : List PaymentTuple}
    (h1 : Trims r r1 f f1) (h2 : Trims r1 r2 f1 f2) : Trims r r2 f f2 where
  conserved := fun asset => (h2.conserved asset).trans (h1.conserved asset)
  cuts := by
    intro x hx
    obtain ⟨y, hy, hxy⟩ := h2.cuts x hx
    obtain ⟨e, he, hye⟩ := h1.cuts y hy
    exact ⟨e, he, hxy.trans hye⟩

theorem Trims.refl {repaid : List RepayEntry} (refunds : List PaymentTuple)
    (hcut : ∀ e ∈ repaid, Cuttable e) : Trims repaid repaid refunds refunds :=
  ⟨fun _ => rfl, fun e he => ⟨e, he, rfl, rfl, rfl, (hcut e he).amount_pos, le_rfl, le_rfl⟩⟩

theorem Trims.cuttable {repaid repaid' : List RepayEntry} {refunds refunds' : List PaymentTuple}
    (ht : Trims repaid repaid' refunds refunds') (hcut : ∀ e ∈ repaid, Cuttable e) :
    ∀ e ∈ repaid', Cuttable e := by
  intro x hx
  obtain ⟨e, he, hxe⟩ := ht.cuts x hx
  exact hxe.cuttable (hcut e he)

theorem processExcessPayment_ok {repaid repaid' : List RepayEntry}
    {refunds refunds' : List PaymentTuple} {excess : Int} {keep : Bool}
    (hcut : ∀ e ∈ repaid, Cuttable e)
    (h : processExcessPayment repaid refunds excess keep = .ok (repaid', refunds')) :
    Trims repaid repaid' refunds refunds' := by
  unfold processExcessPayment at h
  simp only [Fallible.bind_ok_iff, Fallible.pure_ok_iff, Prod.mk.injEq] at h
  obtain ⟨acc, hfold, rfl, rfl⟩ := h
  suffices hsuf : ∀ (l : List RepayEntry) (acc0 : ExcessAcc), (∀ e ∈ l, e ∈ repaid) →
      (∀ x ∈ acc0.kept, ∃ e ∈ repaid, CutOf x e) →
      l.foldlM (fun acc entry => trimEntry keep entry acc) acc0 = .ok acc →
      (∀ asset, totalOf asset acc.kept + totalOf asset acc.refunds =
        totalOf asset acc0.kept + totalOf asset acc0.refunds + totalOf asset l) ∧
      ∀ x ∈ acc.kept, ∃ e ∈ repaid, CutOf x e by
    obtain ⟨hsum, hcuts⟩ := hsuf repaid.reverse ⟨[], refunds, excess⟩
      (fun e he => List.mem_reverse.mp he) (by simp) hfold
    refine ⟨fun asset => ?_, hcuts⟩
    rw [hsum, totalOf_reverse, totalOf_nil]
    dsimp only
    omega
  intro l
  induction l with
  | nil =>
    intro acc0 _ hcuts hrun
    obtain rfl := Fallible.foldlM_nil_ok hrun
    exact ⟨fun asset => by simp, hcuts⟩
  | cons e l ih =>
    intro acc0 hmem hcuts hrun
    obtain ⟨acc1, hstep, hrest⟩ := Fallible.foldlM_cons_ok hrun
    have he := hmem e List.mem_cons_self
    obtain ⟨hsum1, hcuts1⟩ := trimEntry_ok (hcut e he) hstep
    have hkept : ∀ x ∈ acc1.kept, ∃ e ∈ repaid, CutOf x e := by
      intro x hx
      rcases hcuts1 x hx with hold | hnew
      · exact hcuts x hold
      · exact ⟨e, he, hnew⟩
    obtain ⟨hsum, hcuts'⟩ := ih acc1 (fun x hx => hmem x (List.mem_cons_of_mem _ hx)) hkept hrest
    refine ⟨fun asset => ?_, hcuts'⟩
    rw [hsum, hsum1, totalOf_cons]
    simp only [RepayEntry.asset_eq, RepayEntry.amount_eq]
    omega

/-! ## The plan -/

/-- How a plan's repayment comes from the merged offers: each capped at its debt, then trimmed,
and not trimmed when the plan closes the debt. -/
structure Repays (h : ControllerHost W) (timestamp : Nat) (pool : PoolCtx W) (account : Account)
    (merged : List HubPayment) (plan : NormalizedRepaymentPlan) : Prop where
  trims : ∃ repaid refunds, Capped h timestamp pool account merged repaid refunds ∧
    (∀ e ∈ repaid, Cuttable e) ∧ Trims repaid plan.repaid refunds plan.refunds
  fullClose : plan.fullClose = true → Capped h timestamp pool account merged plan.repaid plan.refunds
  repayUsd : sumRepaidUsd plan.repaid = .ok plan.repayUsd

section
variable {account : Account} {merged : List HubPayment}

theorem Capped.mem {repaid : List RepayEntry} {refunds : List PaymentTuple} {e : RepayEntry}
    (hcapped : Capped h timestamp pool account merged repaid refunds) (he : e ∈ repaid) :
    ∃ payment ∈ merged, Caps h timestamp pool account payment e := by
  obtain ⟨i, hi, rfl⟩ := List.getElem_of_mem he
  have hlen := hcapped.caps.length_eq
  exact ⟨merged[i], List.getElem_mem _, hcapped.caps.get (hlen ▸ hi) hi⟩

theorem Capped.cuttable (hrun : MarketsRun timestamp pool.markets) (hfeeds : h.FeedsMatch pool)
    {repaid : List RepayEntry} {refunds : List PaymentTuple}
    (hcapped : Capped h timestamp pool account merged repaid refunds) :
    ∀ e ∈ repaid, Cuttable e := by
  intro e he
  obtain ⟨payment, -, -, debt, hp, -⟩ := hcapped.mem he
  exact ⟨decimals_le hrun hfeeds hp.current hp.reported, hp.amount_pos, hp.price_pos⟩

/-- The kept entries and the refunds of a plan, whatever was trimmed. -/
theorem Repays.conserved {plan : NormalizedRepaymentPlan}
    (hp : Repays h timestamp pool account merged plan) (asset : Address) :
    totalOf asset plan.repaid + totalOf asset plan.refunds = totalOf asset merged := by
  obtain ⟨repaid, refunds, hcapped, -, htrims⟩ := hp.trims
  rw [htrims.conserved, hcapped.conserved]

theorem Repays.planned {plan : NormalizedRepaymentPlan}
    (hp : Repays h timestamp pool account merged plan) {e : RepayEntry} (he : e ∈ plan.repaid) :
    ∃ debt, Planned h timestamp pool account e debt := by
  obtain ⟨repaid, refunds, hcapped, -, htrims⟩ := hp.trims
  obtain ⟨e0, he0, hcut⟩ := htrims.cuts e he
  obtain ⟨payment, -, -, debt, hplanned, -⟩ := hcapped.mem he0
  exact ⟨debt, hplanned.cut hcut⟩

theorem normalizeRepaymentPlan_answers (hrun : MarketsRun timestamp pool.markets)
    (hfeeds : h.FeedsMatch pool) (hpos : account.Positive) {rawPayments : List HubPayment}
    {snap : LiquidationSnapshot} {bonusBounds : BonusBounds} {curve : LiquidationCurve} :
    Answers h timestamp pool
      (normalizeRepaymentPlan timestamp account rawPayments snap bonusBounds curve) fun plan =>
      ∃ merged, Payments.aggregatePositivePayments rawPayments = .ok merged ∧
        Repays h timestamp pool account merged plan := by
  refine .bind (calculateRepaymentAmounts_answers hrun hfeeds hpos) fun acc hacc => ?_
  obtain ⟨merged, hm, hcapped⟩ := hacc
  have hcut := hcapped.cuttable hrun hfeeds
  refine .skip .lift fun ⟨curveUsd, bonus⟩ =>
    .skip (.ite .pure wholeUnitRepayment_reads) fun idealUsd =>
    .bind (.lift fun r hr => hr) fun ⟨repaid, refunds⟩ hsplit =>
    .bind (.lift fun r hr => hr) fun repayUsd hsum => .skip .lift fun seizeAll =>
    .skip (.ite repaysEveryDebtLeg_reads .pure) fun repaysAll => .pure ⟨merged, hm, ?_⟩
  split at hsplit
  · rename_i hexc
    obtain ⟨excess, -, hproc⟩ := Fallible.bind_ok hsplit
    exact ⟨⟨_, _, hcapped, hcut, processExcessPayment_ok hcut hproc⟩,
      fun hfull => absurd hfull (by simpa using hexc.1), hsum⟩
  · simp only [Fallible.pure_ok_iff, Prod.mk.injEq] at hsplit
    obtain ⟨rfl, rfl⟩ := hsplit
    exact ⟨⟨_, _, hcapped, hcut, .refl _ hcut⟩, fun _ => hcapped, hsum⟩

theorem releaseUnbackedRepayment_ok {plan plan' : NormalizedRepaymentPlan} {excess : Int}
    (hp : Repays h timestamp pool account merged plan)
    (hrel : releaseUnbackedRepayment plan excess = .ok plan') :
    Repays h timestamp pool account merged plan' := by
  unfold releaseUnbackedRepayment at hrel
  split at hrel
  · rw [Fallible.pure_ok_iff] at hrel
    exact hrel ▸ hp
  · simp only [Fallible.bind_ok_iff, Fallible.pure_ok_iff] at hrel
    obtain ⟨⟨repaid', refunds'⟩, hproc, repayUsd, hsum, rfl⟩ := hrel
    obtain ⟨repaid, refunds, hcapped, hcut, htrims⟩ := hp.trims
    have htrims' := processExcessPayment_ok (htrims.cuttable hcut) hproc
    refine ⟨⟨repaid, refunds, hcapped, hcut, htrims.trans htrims'⟩, ?_, hsum⟩
    intro hfull
    cases hfull

/-- **What a plan keeps and refunds.** -/
theorem assembleLiquidationPlan_repays (hrun : MarketsRun timestamp pool.markets)
    (hfeeds : h.FeedsMatch pool) (hpos : account.Positive) {rawPayments : List HubPayment} :
    Answers h timestamp pool (assembleLiquidationPlan h timestamp account rawPayments) fun plan =>
      ∃ merged, Payments.aggregatePositivePayments rawPayments = .ok merged ∧
        Repays h timestamp pool account merged plan.repayment := by
  refine .skip assertWithError_reads fun _ =>
    .skip (.foldlM (fun _ _ => Positions.enforceSpokeAssetFlags_reads) _) fun _ =>
    .skip liquidationSnapshot_reads fun ⟨snap, bonusBounds, curve⟩ =>
    .bind (normalizeRepaymentPlan_answers hrun hfeeds hpos) fun plan hplan => ?_
  obtain ⟨merged, hm, hrep⟩ := hplan
  refine .skip calculateSeizedCollateral_reads fun ⟨seized, unbacked⟩ =>
    .bind (.lift fun plan' h' => releaseUnbackedRepayment_ok hrep h') fun plan' hrep' =>
    .bind (.lift fun plan'' h'' => ?_) fun plan'' hrep'' =>
    .skip (.foldlM (fun _ _ => Positions.enforceSpokeAssetFlags_reads) _) fun _ =>
    .pure ⟨merged, hm, hrep''⟩
  split at h''
  · exact releaseUnbackedRepayment_ok hrep' h''
  · rw [Fallible.pure_ok_iff] at h''
    exact h'' ▸ hrep'

end

end Liquidation

end Lending
