import LendingXlm.Controller.Liquidation.Seizure
import LendingXlm.Controller.Liquidation.Trimming

/-!
# What seizures are worth

A seizure is sized in dollars, leg by leg, and every leg rounds three times on the way to tokens.
From the account's figures on, a plan reads one price for each asset:

* `KeepsPrices`, `ReadsAt`: a computation over prices that are already known;
* `LegAt`: what a collateral leg is worth at them;
* `seizePosition_readsAt`: what is taken of one leg, capped at what it holds (`Takes`);
* `seized_value_bounded`: what is taken of all legs is worth the repayment with its bonus, up to
  the rounding of each leg.
-/

namespace Lending

open FpCore Rounding Ops Context Ctrl Invocation Transaction

variable {W : Type} {h : ControllerHost W} {timestamp : Nat} {pool : PoolCtx W}
  {prices : SortedMap Address PriceFeed}

/-! ## Known prices -/

/-- The known prices are the same ones. -/
def Invocation.SamePrices (s s' : Invocation W) : Prop :=
  s'.cache.tokenPrices = s.cache.tokenPrices

instance : Std.Refl (SamePrices (W := W)) where
  refl _ := rfl

instance : IsTrans (Invocation W) SamePrices where
  trans _ _ _ hst htu := htu.trans hst

/-- A computation that asks for no new price. -/
abbrev KeepsPrices {α : Type} (x : Ctrl W α) : Prop := Along SamePrices x

namespace Context

theorem cachedPrice_prices {asset : Address} :
    KeepsPrices (cachedPrice asset : Ctrl W PriceFeed) :=
  .bind .get fun _ => .lift

theorem fetchMarketIndexes_prices {hubAssets : List HubAssetKey} :
    KeepsPrices (fetchMarketIndexes timestamp hubAssets : Ctrl W Unit) :=
  .bind .get fun _ => .ite .pure (.bind .lift fun _ => .modify fun _ => rfl)

theorem cachedMarketIndex_prices {hubAsset : HubAssetKey} :
    KeepsPrices (cachedMarketIndex timestamp hubAsset : Ctrl W MarketIndex) :=
  .bind fetchMarketIndexes_prices fun _ => .bind .get fun _ => .lift

theorem spokeConfig_prices {spokeId : Nat} :
    KeepsPrices (spokeConfig spokeId : Ctrl W SpokeConfig) := by
  refine .bind (.bind .get fun s => ?_) fun _ => .bind (.bind .get fun _ => .pure) fun _ => .lift
  split
  · exact .bind .lift fun _ => .pure
  · exact .bind (.modify fun _ => rfl) fun _ => .pure

end Context

namespace Liquidation

theorem sumDebtUsdLoaded_prices {borrowPositions : SortedMap HubAssetKey DebtPosition}
    {value : Int → Int → Int → Result Int} :
    KeepsPrices (Risk.sumDebtUsdLoaded timestamp borrowPositions value : Ctrl W Int) :=
  .foldlM (fun _ _ => .bind cachedPrice_prices fun _ => .bind cachedMarketIndex_prices fun _ =>
    .bind .lift fun _ => .lift) _

theorem calculateSeizureProportions_prices {account : Account}
    {totalCollateral weightedCollateral : Int} :
    KeepsPrices (calculateSeizureProportions timestamp account totalCollateral
      weightedCollateral : Ctrl W (Int × BonusBounds)) :=
  .bind .lift fun _ => .bind (.bind .lift fun _ => .ite .pure (.bind (.foldlM (fun _ _ =>
    .bind cachedPrice_prices fun _ => .bind cachedMarketIndex_prices fun _ => .bind .lift fun _ =>
      .bind .lift fun _ => .lift) _) fun _ => .bind .lift fun _ => .pure)) fun _ => .pure

theorem calculateRepaymentAmounts_prices {rawPayments : List HubPayment} {account : Account} :
    KeepsPrices (calculateRepaymentAmounts timestamp rawPayments account : Ctrl W RepaymentAcc) :=
  .bind .lift fun _ => .foldlM (fun _ _ => .bind cachedPrice_prices fun _ =>
    .bind cachedMarketIndex_prices fun _ => .bind .lift fun _ => .bind .lift fun _ =>
    .bind .lift fun _ => .bind .lift fun _ => .pure) _

theorem repaysEveryDebtLeg_prices {account : Account} {repaid : List RepayEntry} :
    KeepsPrices (repaysEveryDebtLeg timestamp account repaid : Ctrl W Bool) := by
  refine .ite .pure (.foldlM (fun all entry => .ite .pure ?_) _)
  split
  · exact .pure
  · exact .bind cachedMarketIndex_prices fun _ => .bind .lift fun _ => .pure

theorem wholeUnitQuote_prices {account : Account} {snap : LiquidationSnapshot} {feed : PriceFeed}
    {quoteUsd bonus : Int} :
    KeepsPrices (wholeUnitQuote account snap feed quoteUsd bonus : Ctrl W Int) := by
  have hlegs : KeepsPrices (oneUnitPerDebtLegUsd account : Ctrl W Int) :=
    .foldlM (fun _ _ => .bind cachedPrice_prices fun _ => .bind .lift fun _ =>
      .bind .lift fun _ => .lift) _
  exact .bind .lift fun _ => .bind .lift fun _ => .bind .lift fun _ => .bind .lift fun _ =>
    .bind .lift fun _ => .bind .lift fun _ => .ite .pure (.bind .lift fun _ =>
    .bind hlegs fun _ => .bind .lift fun _ => .ite .pure (.bind .lift fun _ => .ite .pure .pure))

theorem wholeUnitRepayment_prices {account : Account} {snap : LiquidationSnapshot}
    {quoteUsd bonus : Int} :
    KeepsPrices (wholeUnitRepayment timestamp account snap quoteUsd bonus : Ctrl W Int) := by
  unfold wholeUnitRepayment
  split
  · exact .bind cachedPrice_prices fun _ => .ite .pure (.bind cachedMarketIndex_prices fun _ =>
      .bind .lift fun _ => .bind .lift fun _ => .ite .pure wholeUnitQuote_prices)
  · exact .pure

theorem normalizeRepaymentPlan_prices {account : Account} {rawPayments : List HubPayment}
    {snap : LiquidationSnapshot} {bonusBounds : BonusBounds} {curve : LiquidationCurve} :
    KeepsPrices (normalizeRepaymentPlan timestamp account rawPayments snap bonusBounds
      curve : Ctrl W NormalizedRepaymentPlan) :=
  .bind calculateRepaymentAmounts_prices fun _ => .bind .lift fun _ =>
    .bind (.ite .pure wholeUnitRepayment_prices) fun _ => .bind .lift fun _ =>
    .bind .lift fun _ => .bind .lift fun _ =>
    .bind (.ite repaysEveryDebtLeg_prices .pure) fun _ => .pure

end Liquidation

/-- The invocation sees `pool` and knows `prices`. -/
structure Invocation.SeesAt (h : ControllerHost W) (timestamp : Nat) (pool : PoolCtx W)
    (prices : SortedMap Address PriceFeed) (s : Invocation W) : Prop extends
    s.Sees h timestamp pool where
  prices_eq : s.cache.tokenPrices = prices

/-- A computation over `pool` and `prices`; what it returns satisfies `Q`. -/
def ReadsAt (h : ControllerHost W) (timestamp : Nat) (pool : PoolCtx W)
    (prices : SortedMap Address PriceFeed) {α : Type} (x : Ctrl W α) (Q : α → Prop) : Prop :=
  Spec (SeesAt h timestamp pool prices) (fun _ => True) x Q

namespace ReadsAt

variable {α β : Type} {x : Ctrl W α} {f : α → Ctrl W β} {Q : α → Prop} {R : β → Prop}

theorem of_answers (hx : Answers h timestamp pool x Q) (hk : KeepsPrices x) :
    ReadsAt h timestamp pool prices x Q := by
  intro s hs
  cases hrun : x s with
  | error e s' => trivial
  | ok a s' =>
    obtain ⟨hsees, hQ⟩ := hx.ok hs.toSees hrun
    exact ⟨⟨hsees, (hk.ok hrun).trans hs.prices_eq⟩, hQ⟩

theorem ok {s s' : Invocation W} {a : α} (hx : ReadsAt h timestamp pool prices x Q)
    (hs : s.SeesAt h timestamp pool prices) (hrun : x s = .ok a s') :
    s'.SeesAt h timestamp pool prices ∧ Q a :=
  Spec.ok hx hs hrun

theorem mono {Q' : α → Prop} (hx : ReadsAt h timestamp pool prices x Q)
    (himp : ∀ a, Q a → Q' a) : ReadsAt h timestamp pool prices x Q' :=
  Spec.post hx himp

theorem pure {a : α} (ha : Q a) : ReadsAt h timestamp pool prices (pure a : Ctrl W α) Q :=
  Spec.pure ha

theorem lift {r : Result α} (hr : ∀ a, r = .ok a → Q a) :
    ReadsAt h timestamp pool prices (liftM r : Ctrl W α) Q :=
  Spec.lift hr fun _ _ => trivial

theorem bind (hx : ReadsAt h timestamp pool prices x Q)
    (hf : ∀ a, Q a → ReadsAt h timestamp pool prices (f a) R) :
    ReadsAt h timestamp pool prices (x >>= f) R :=
  Spec.bind hx hf

/-- A computed value that does not matter. -/
theorem skip {r : Result α} (hf : ∀ a, ReadsAt h timestamp pool prices (f a) R) :
    ReadsAt h timestamp pool prices (liftM r >>= f) R :=
  bind (lift (Q := fun _ => True) fun _ _ => trivial) fun a _ => hf a

theorem ite {c : Prop} [Decidable c] {y : Ctrl W α}
    (hx : c → ReadsAt h timestamp pool prices x Q)
    (hy : ¬ c → ReadsAt h timestamp pool prices y Q) :
    ReadsAt h timestamp pool prices (if c then x else y) Q :=
  Spec.ite hx hy

/-- `P b done` holds after the iterations over `done`. -/
theorem foldlM {P : β → List α → Prop} {g : β → α → Ctrl W β} {l : List α}
    (hg : ∀ b x done, x ∈ l → P b done →
      ReadsAt h timestamp pool prices (g b x) fun b' => P b' (done ++ [x])) {b : β}
    (hb : P b []) : ReadsAt h timestamp pool prices (l.foldlM g b) fun b' => P b' l :=
  Spec.foldlM hg b hb

end ReadsAt

theorem Context.cachedPrice_readsAt {asset : Address} :
    ReadsAt h timestamp pool prices (cachedPrice asset : Ctrl W PriceFeed) fun feed =>
      prices.get? asset = some feed ∧ h.Reported asset feed := by
  intro s hs
  cases hrun : (cachedPrice asset : Ctrl W PriceFeed) s with
  | error e s' => trivial
  | ok feed s' =>
    obtain ⟨hs', hrep⟩ :=
      (ReadsAt.of_answers cachedPrice_answers cachedPrice_prices).ok hs hrun
    unfold cachedPrice unwrapOr at hrun
    simp only [Transaction.bind_ok_iff, Transaction.get_ok_iff, Transaction.lift_ok_iff,
      Fallible.orThrow_ok_iff] at hrun
    obtain ⟨s1, _, ⟨rfl, rfl⟩, hget, _⟩ := hrun
    rw [hs.prices_eq] at hget
    exact ⟨hs', hget, hrep⟩

theorem Context.cachedMarketIndex_readsAt {hubAsset : HubAssetKey} :
    ReadsAt h timestamp pool prices (cachedMarketIndex timestamp hubAsset : Ctrl W MarketIndex)
      (pool.CurrentIndex timestamp hubAsset) :=
  .of_answers cachedMarketIndex_answers cachedMarketIndex_prices

namespace Liquidation

/-! ## Collateral legs -/

/-- A collateral leg at the known prices: its feed, its index, its rays and its dollars. -/
structure LegAt (timestamp : Nat) (pool : PoolCtx W) (prices : SortedMap Address PriceFeed)
    (leg : HubAssetKey × AccountPosition) (feed : PriceFeed) (marketIndex : MarketIndex)
    (actualRay value : Int) : Prop where
  price : prices.get? leg.1.asset = some feed
  current : pool.CurrentIndex timestamp leg.1 marketIndex
  actual : Ray.mul leg.2.scaledAmount marketIndex.supplyIndex = .ok actualRay
  value : positionValue leg.2.scaledAmount marketIndex.supplyIndex feed.price = .ok value

theorem LegAt.unique {leg : HubAssetKey × AccountPosition} {feed feed' : PriceFeed}
    {index index' : MarketIndex} {actual actual' value value' : Int}
    (hleg : LegAt timestamp pool prices leg feed index actual value)
    (hleg' : LegAt timestamp pool prices leg feed' index' actual' value') :
    feed = feed' ∧ index = index' ∧ actual = actual' ∧ value = value' := by
  obtain rfl : feed = feed' := Option.some.inj (hleg.price.symm.trans hleg'.price)
  obtain rfl := hleg.current.unique hleg'.current
  exact ⟨rfl, rfl, Except.ok.inj (hleg.actual.symm.trans hleg'.actual),
    Except.ok.inj (hleg.value.symm.trans hleg'.value)⟩

/-- The value of a collateral leg. -/
def LegValue (timestamp : Nat) (pool : PoolCtx W) (prices : SortedMap Address PriceFeed)
    (leg : HubAssetKey × AccountPosition) (value : Int) : Prop :=
  ∃ feed index actualRay, LegAt timestamp pool prices leg feed index actualRay value

theorem legValues_unique {legs : List (HubAssetKey × AccountPosition)} {values values' : List Int}
    (hv : List.Forall₂ (LegValue timestamp pool prices) legs values)
    (hv' : List.Forall₂ (LegValue timestamp pool prices) legs values') : values = values' := by
  induction hv generalizing values' with
  | nil =>
    cases hv'
    rfl
  | cons hleg _ ih =>
    cases hv' with
    | cons hleg' hrest =>
      obtain ⟨_, _, _, hleg⟩ := hleg
      obtain ⟨_, _, _, hleg'⟩ := hleg'
      rw [(hleg.unique hleg').2.2.2, ih hrest]

section
variable {account : Account}

theorem addCollateral_readsAt {sums : Int × Int × Int} {e : HubAssetKey × AccountPosition} :
    ReadsAt h timestamp pool prices (Risk.addCollateral timestamp sums e) fun r =>
      ∃ value, LegValue timestamp pool prices e value ∧ r.1 = sums.1 + value := by
  obtain ⟨hubAsset, position⟩ := e
  refine .bind cachedPrice_readsAt fun feed hfeed => .bind cachedMarketIndex_readsAt
    fun index hindex => .bind (.lift fun value hvalue => hvalue) fun value hvalue =>
    .skip fun _ => .bind (.lift fun total ht => checkedAddRaw_ok_iff.mp ht) fun total ht => ?_
  refine .skip fun _ => .skip fun _ => .skip fun _ => .skip fun _ => .pure ?_
  have hactual := hvalue
  unfold positionValue at hactual
  obtain ⟨actual, hactual, -⟩ := Fallible.bind_ok hactual
  exact ⟨value, ⟨feed, index, actual, hfeed.1, hindex, hactual, hvalue⟩, ht.2.symm⟩

/-- The collateral of an account is the sum of its legs. -/
theorem sumCollateral_readsAt :
    ReadsAt h timestamp pool prices
      (account.supplyPositions.entries.foldlM (Risk.addCollateral timestamp)
        (Wad.zero, Wad.zero, Wad.zero)) fun r =>
      ∃ values, List.Forall₂ (LegValue timestamp pool prices) account.supplyPositions.entries
        values ∧ r.1 = values.sum := by
  refine .foldlM (P := fun (sums : Int × Int × Int) done => ∃ values,
    List.Forall₂ (LegValue timestamp pool prices) done values ∧ sums.1 = values.sum) ?_
    ⟨[], .nil, rfl⟩
  rintro sums leg done - ⟨values, hvalues, hsum⟩
  refine addCollateral_readsAt.mono ?_
  rintro sums' ⟨value, hleg, hsum'⟩
  refine ⟨values ++ [value], List.rel_append hvalues (.cons hleg .nil), ?_⟩
  rw [hsum', hsum, List.sum_append, List.sum_singleton]

end

/-! ## Sizing -/

/-- The repayment with its bonus. -/
def seizureTarget (repayment : NormalizedRepaymentPlan) : Int :=
  halfUpDiv (repayment.repayUsd * onePlus repayment.bonus) wad

/-- The dollars asked of a leg worth `value` out of `total`. -/
def requestedUsd (target total value : Int) : Int :=
  halfUpDiv (target * halfUpDiv (value * wad) total) wad

/-- What is asked of a leg worth `value` out of `total`. -/
def requestedRay (target total value price : Int) : Int :=
  wadToRaySaturating
    (halfUpDiv (halfUpDiv (target * halfUpDiv (value * wad) total) wad * wad) price)

/-- A plan that repays all debt rounds the request of a leg in whole units up. -/
def RoundedUp (timestamp : Nat) (pool : PoolCtx W) (prices : SortedMap Address PriceFeed)
    (repayment : NormalizedRepaymentPlan) (total : Int) (leg : HubAssetKey × AccountPosition) :
    Prop :=
  ∃ feed index actualRay value, LegAt timestamp pool prices leg feed index actualRay value ∧
    repayment.repaysAllDebt = true ∧ feed.assetDecimals < minBorrowableAssetDecimals ∧
    requestedRay (seizureTarget repayment) total value feed.price < actualRay ∧
    ¬ assetUnit feed.assetDecimals ∣ requestedRay (seizureTarget repayment) total value feed.price

theorem halfUpDiv_le_rat (a : Int) {d : Int} (hd : 0 < d) :
    (halfUpDiv a d : ℚ) ≤ a / d + 1 / 2 := by
  have hd' : (0 : ℚ) < d := by exact_mod_cast hd
  have hup : 2 * ((halfUpDiv a d : ℚ) * d) ≤ 2 * a + d := by exact_mod_cast halfUpDiv_mul_le a hd
  rw [← sub_le_iff_le_add, le_div_iff₀ hd']
  linarith

theorem wadToRaySaturating_nonneg {q : Int} (hq : 0 ≤ q) : 0 ≤ wadToRaySaturating q := by
  have hu : 0 ≤ ray / wad := by decide
  have hmax : 0 ≤ i128Max := by decide
  exact le_max_of_le_right (le_min hmax (mul_nonneg hq hu))

theorem wadToRaySaturating_le {q : Int} (hq : 0 ≤ q) : wadToRaySaturating q ≤ q * (ray / wad) := by
  have hu : 0 ≤ ray / wad := by decide
  have hmin : i128Min ≤ 0 := by decide
  exact max_le (hmin.trans (mul_nonneg hq hu)) (min_le_right _ _)

section
variable {target total value price : Int}

theorem requestedRay_nonneg (ht : 0 ≤ target) (hc : 0 < total) (hv : 0 ≤ value)
    (hp : 0 < price) : 0 ≤ requestedRay target total value price := by
  have hw := wad_pos
  have hshare : 0 ≤ halfUpDiv (value * wad) total := halfUpDiv_nonneg hc (mul_nonneg hv hw.le)
  have husd : 0 ≤ halfUpDiv (target * halfUpDiv (value * wad) total) wad :=
    halfUpDiv_nonneg hw (mul_nonneg ht hshare)
  exact wadToRaySaturating_nonneg (halfUpDiv_nonneg hp (mul_nonneg husd hw.le))

/-- Three roundings to the nearest: of the share, of its dollars and of their tokens. -/
theorem requestedRay_value (ht : 0 ≤ target) (hc : 0 < total) (hv : 0 ≤ value)
    (hp : 0 < price) :
    (requestedRay target total value price : ℚ) * price / ray ≤
      target * value / total + (target / (2 * wad) + 1 / 2 + price / (2 * wad)) := by
  have hw := wad_pos
  have hshare0 : 0 ≤ halfUpDiv (value * wad) total := halfUpDiv_nonneg hc (mul_nonneg hv hw.le)
  have hshare := halfUpDiv_le_rat (value * wad) hc
  set share := halfUpDiv (value * wad) total with hshareEq
  have husd0 : 0 ≤ halfUpDiv (target * share) wad := halfUpDiv_nonneg hw (mul_nonneg ht hshare0)
  have husd := halfUpDiv_le_rat (target * share) hw
  set usd := halfUpDiv (target * share) wad with husdEq
  have htokens0 : 0 ≤ halfUpDiv (usd * wad) price := halfUpDiv_nonneg hp (mul_nonneg husd0 hw.le)
  have htokens := halfUpDiv_le_rat (usd * wad) hp
  have hray := wadToRaySaturating_le htokens0
  have hreq : requestedRay target total value price =
      wadToRaySaturating (halfUpDiv (usd * wad) price) := rfl
  rw [hreq]
  set tokens := halfUpDiv (usd * wad) price with htokensEq
  have hwq : (0 : ℚ) < (wad : Int) := by exact_mod_cast hw
  have hcq : (0 : ℚ) < total := by exact_mod_cast hc
  have hpq : (0 : ℚ) < price := by exact_mod_cast hp
  have htq : (0 : ℚ) ≤ target := by exact_mod_cast ht
  have hrayq : ((ray : Int) : ℚ) = (ray / wad : Int) * (wad : Int) := by norm_num [ray, wad]
  have huq : (0 : ℚ) < (ray / wad : Int) := by norm_num [ray, wad]
  push_cast at hshare husd htokens
  calc (wadToRaySaturating tokens : ℚ) * price / ray
      ≤ (tokens * (ray / wad : Int) : ℚ) * price / ray := by
        gcongr
        · exact_mod_cast ray_pos.le
        · exact_mod_cast hray
    _ = tokens * price / wad := by
        rw [hrayq]
        field_simp
    _ ≤ (usd * wad / price + 1 / 2) * price / wad := by gcongr
    _ = usd + price / (2 * wad) := by field_simp
    _ ≤ (target * share / wad + 1 / 2) + price / (2 * wad) := by gcongr
    _ ≤ (target * (value * wad / total + 1 / 2) / wad + 1 / 2) + price / (2 * wad) := by gcongr
    _ = target * value / total + (target / (2 * wad) + 1 / 2 + price / (2 * wad)) := by
        field_simp
        ring

end

/-! ## Whole units -/

theorem decimals_le_of_whole {d : Nat} (hd : d < minBorrowableAssetDecimals) :
    d ≤ wadDecimals := by
  simp only [minBorrowableAssetDecimals] at hd
  simp only [wadDecimals]
  omega

/-- A native unit is a whole number of wad units. -/
theorem assetUnit_eq_wad {d : Nat} (hd : d ≤ wadDecimals) :
    assetUnit d = 10 ^ (wadDecimals - d) * 10 ^ (rayDecimals - wadDecimals) := by
  rw [assetUnit, ← pow_add]
  congr 1
  simp only [rayDecimals, wadDecimals] at hd ⊢
  omega

/-- The dollars of whole units: their wad amount is exact. -/
def unitsUsd (rays price : Int) : Int :=
  halfUpDiv (rays / 10 ^ (rayDecimals - wadDecimals) * price) wad

section
variable {feed : PriceFeed} {requested actualRay usd unseized r unseized' : Int}

/-- A plan that repays all debt takes the next whole unit, within what is held. -/
theorem wholeUnitSeizure_up (h0 : 0 ≤ requested) (hd : feed.assetDecimals ≤ wadDecimals)
    (hw : wholeUnitSeizure feed true requested actualRay usd unseized = .ok (r, unseized')) :
    r = min (ceilDiv requested (assetUnit feed.assetDecimals) * assetUnit feed.assetDecimals)
      actualRay ∧ unseized' = unseized := by
  unfold wholeUnitSeizure at hw
  simp only [if_true, Fallible.bind_ok_iff, Fallible.pure_ok_iff, Prod.mk.injEq,
    Ray.toAssetCeil_eq h0 hd, Ray.fromAsset_eq hd, toI128_ok_iff, Except.ok.injEq] at hw
  obtain ⟨whole, rfl, back, ⟨-, rfl⟩, rfl, rfl⟩ := hw
  exact ⟨rfl, rfl⟩

/-- Any other plan takes the whole units of the request; the dollars of the rest are dropped. -/
theorem wholeUnitSeizure_down (h0 : 0 ≤ requested) (hd : feed.assetDecimals ≤ wadDecimals)
    (hw : wholeUnitSeizure feed false requested actualRay usd unseized = .ok (r, unseized')) :
    r = requested / assetUnit feed.assetDecimals * assetUnit feed.assetDecimals ∧
      unseized' = unseized + max 0 (usd - unitsUsd r feed.price) := by
  have hunit := assetUnit_pos feed.assetDecimals
  have hq := floor_nonneg hunit h0
  have hnine : (0 : Int) < 10 ^ (rayDecimals - wadDecimals) := by decide
  unfold wholeUnitSeizure Ray.toWad at hw
  simp only [Bool.false_eq_true, if_false, Fallible.bind_ok_iff, Ray.toAssetFloor_eq h0 hd,
    Ray.fromAsset_eq hd, toI128_ok_iff, Except.ok.injEq] at hw
  obtain ⟨whole, rfl, back, ⟨-, rfl⟩, wholeWad, hwad, wholeUsd, husd, hw⟩ := hw
  set k := requested / assetUnit feed.assetDecimals
  have hsplit : k * assetUnit feed.assetDecimals =
      k * 10 ^ (wadDecimals - feed.assetDecimals) * 10 ^ (rayDecimals - wadDecimals) := by
    rw [assetUnit_eq_wad hd, mul_assoc]
  rw [rescaleHalfUp_down (mul_nonneg hq hunit.le) (by decide) (by decide), Except.ok.injEq, hsplit,
    halfUpDiv_mul_self _ hnine] at hwad
  obtain ⟨-, -, rfl, -⟩ := Wad.mul_ok_iff.mp husd
  have husd : halfUpDiv (wholeWad * feed.price) wad =
      unitsUsd (k * assetUnit feed.assetDecimals) feed.price := by
    rw [unitsUsd, hsplit, Int.mul_ediv_cancel _ hnine.ne', hwad]
  rw [husd] at hw
  split at hw
  · rename_i hgt
    simp only [Fallible.bind_ok_iff, Fallible.pure_ok_iff, Prod.mk.injEq, Wad.checkedSub,
      Wad.checkedAdd, checkedSubNonneg_ok_iff, checkedAddRaw_ok_iff] at hw
    obtain ⟨dropped, ⟨-, -, -, rfl⟩, sum, ⟨-, rfl⟩, rfl, rfl⟩ := hw
    exact ⟨rfl, by rw [max_eq_right (by omega)]⟩
  · rename_i hle
    simp only [Fallible.pure_ok_iff, Prod.mk.injEq] at hw
    obtain ⟨rfl, rfl⟩ := hw
    exact ⟨rfl, by rw [max_eq_left (by omega), add_zero]⟩

/-- Unless it is rounded up, a whole-unit request only gets smaller. -/
theorem wholeUnitSeizure_le {repaysAllDebt : Bool} (h0 : 0 ≤ requested)
    (hd : feed.assetDecimals < minBorrowableAssetDecimals)
    (hdvd : repaysAllDebt = true → assetUnit feed.assetDecimals ∣ requested)
    (hw : wholeUnitSeizure feed repaysAllDebt requested actualRay usd unseized =
      .ok (r, unseized')) : r ≤ requested := by
  have hunit := assetUnit_pos feed.assetDecimals
  cases repaysAllDebt with
  | true =>
    obtain ⟨k, rfl⟩ := hdvd rfl
    obtain ⟨rfl, -⟩ := wholeUnitSeizure_up h0 (decimals_le_of_whole hd) hw
    refine (min_le_left _ _).trans ?_
    rw [mul_comm (assetUnit _) k]
    exact mul_le_mul_of_nonneg_right ((ceilDiv_le_iff hunit).mpr le_rfl) hunit.le
  | false =>
    obtain ⟨rfl, -⟩ := wholeUnitSeizure_down h0 (decimals_le_of_whole hd) hw
    exact floor_mul_le _ hunit

end

/-! ## One leg -/

/-- `e` takes `taken` rays of `leg`, within what it holds: its shares are worth no more, or are
all of the leg's, and neither are the tokens that the pool pays for it. -/
structure Takes (timestamp : Nat) (pool : PoolCtx W) (prices : SortedMap Address PriceFeed)
    (leg : HubAssetKey × AccountPosition) (e : SeizeEntry) (taken : Int) : Prop where
  hubAsset : e.hubAsset = leg.1
  price : prices.get? leg.1.asset = some e.feed
  current : pool.CurrentIndex timestamp leg.1 e.marketIndex
  pos : 0 < taken
  held : ∃ actualRay, Ray.mul leg.2.scaledAmount e.marketIndex.supplyIndex = .ok actualRay ∧
    taken ≤ actualRay ∧ (e.scaledAmount * e.marketIndex.supplyIndex ≤ taken * ray ∨
      e.scaledAmount = leg.2.scaledAmount ∧ taken = actualRay)
  pays : ∀ burned gross, resolveWithdrawal e.amount leg.2.scaledAmount e.marketIndex.supplyIndex
    e.feed.assetDecimals = .ok (burned, gross) → gross * assetUnit e.feed.assetDecimals ≤ taken

/-- What the pool pays for `taken` rays of a position worth `actualRay`. -/
theorem withdrawal_within_taken {shares index actualRay taken amount burned gross : Int} {d : Nat}
    (hd : d ≤ wadDecimals) (hs : 0 < shares) (hi : 0 < index)
    (hactual : Ray.mul shares index = .ok actualRay) (hpos : 0 < taken)
    (hamount : (if taken = actualRay then Ray.toAsset taken d else Ray.toAssetFloor taken d :
      Result Int) = .ok amount)
    (hres : resolveWithdrawal amount shares index d = .ok (burned, gross)) :
    gross * assetUnit d ≤ taken := by
  have hunit := assetUnit_pos d
  have hfloor : amount ≤ taken / assetUnit d ∨
      taken = actualRay ∧ unscaleSupply shares index d = .ok amount := by
    split at hamount
    · rename_i hfull
      right
      refine ⟨hfull, ?_⟩
      unfold unscaleSupply scaledToOriginal
      rw [hactual, Fallible.ok_bind, ← hfull]
      exact hamount
    · left
      rw [Ray.toAssetFloor_eq hpos.le hd, Except.ok.injEq] at hamount
      exact hamount.ge
  obtain ⟨actual, floor, ha, hf, hcase⟩ := resolveWithdrawal_cases hres
  obtain ⟨-, -, -, hactualEq⟩ := (unscaleSupply_ok_iff hd).mp ha
  obtain ⟨-, hfloorEq⟩ := (unscaleSupplyFloor_ok_iff hd hs.le hi.le).mp hf
  rcases hfloor with hle | ⟨rfl, hfull⟩
  · have hgross : gross ≤ amount := by
      rcases hcase with ⟨hge, -, rfl⟩ | ⟨-, -, rfl⟩
      · refine le_trans ?_ hge
        rw [hfloorEq, hactualEq]
        exact floor_floor_le_halfUp hunit
      · exact le_rfl
    exact (le_floor_iff hunit).mp (hgross.trans hle)
  · obtain rfl : actual = amount := Except.ok.inj (ha.symm.trans hfull)
    obtain ⟨-, -, rfl⟩ | ⟨hlt, -⟩ := hcase
    · obtain ⟨-, -, rfl, -⟩ := Ray.mul_ok_iff.mp hactual
      rw [hfloorEq]
      exact (floor_mul_le _ hunit).trans (floor_le_halfUpDiv ray_pos)
    · exact absurd hlt (lt_irrefl _)

section
variable {hubAsset : HubAssetKey} {position : AccountPosition} {feed : PriceFeed}
  {marketIndex : MarketIndex} {onePlusBonus seizureRay cappedRay actualRay : Int} {e : SeizeEntry}

theorem seizeLeg_takes (hd : feed.assetDecimals ≤ wadDecimals)
    (hs : 0 < position.scaledAmount) (hi : 0 < marketIndex.supplyIndex)
    (hprice : prices.get? hubAsset.asset = some feed)
    (hcurrent : pool.CurrentIndex timestamp hubAsset marketIndex)
    (hactual : Ray.mul position.scaledAmount marketIndex.supplyIndex = .ok actualRay)
    (hcap : 0 < cappedRay) (hle : cappedRay ≤ actualRay)
    (h : seizeLeg hubAsset position feed marketIndex onePlusBonus seizureRay cappedRay actualRay =
      .ok (some e)) :
    Takes timestamp pool prices (hubAsset, position) e cappedRay := by
  unfold seizeLeg at h
  obtain ⟨rayBonus, -, h⟩ := Fallible.bind_ok h
  obtain ⟨baseRay, -, h⟩ := Fallible.bind_ok h
  obtain ⟨bonusRay, -, h⟩ := Fallible.bind_ok h
  obtain ⟨feeRay, -, h⟩ := Fallible.bind_ok h
  obtain ⟨seizedScaled, hscaled, h⟩ := Fallible.bind_ok h
  obtain ⟨bonusShares, -, h⟩ := Fallible.bind_ok h
  dsimp only at h
  split at h
  · simp at h
  obtain ⟨amount, hamount, h⟩ := Fallible.bind_ok h
  simp only [decide_eq_true_eq] at hscaled hamount
  split at h
  · simp at h
  obtain ⟨⟨burned, gross⟩, -, h⟩ := Fallible.bind_ok h
  obtain ⟨feeAsset, -, h⟩ := Fallible.bind_ok h
  obtain ⟨paidRay, -, h⟩ := Fallible.bind_ok h
  obtain ⟨excess, -, h⟩ := Fallible.bind_ok h
  simp only [Fallible.pure_ok_iff, Option.some.injEq] at h
  subst h
  refine ⟨rfl, hprice, hcurrent, hcap, ⟨actualRay, hactual, hle, ?_⟩, fun burned gross hres =>
    withdrawal_within_taken hd hs hi hactual hcap hamount hres⟩
  split at hscaled
  · rename_i hfull
    rw [Fallible.pure_ok_iff] at hscaled
    exact .inr ⟨hscaled.symm, hfull⟩
  · obtain ⟨-, rfl⟩ := (Ray.divFloor_ok_iff hi).mp hscaled
    exact .inl (floor_mul_le _ hi)

end

/-! ## All legs -/

/-- The highest price of the collateral. -/
def maxPrice (prices : SortedMap Address PriceFeed) (account : Account) : Int :=
  (account.supplyPositions.keys.filterMap fun key =>
    (prices.get? key.asset).map PriceFeed.price).foldr max 0

/-- What one leg may be off by. -/
def legSlack (target price : Int) : ℚ := target / (2 * wad) + 1 / 2 + price / (2 * wad)

section
variable {account : Account}

theorem maxPrice_nonneg (prices : SortedMap Address PriceFeed) (account : Account) :
    0 ≤ maxPrice prices account := by
  unfold maxPrice
  induction account.supplyPositions.keys.filterMap fun key =>
    (prices.get? key.asset).map PriceFeed.price with
  | nil => exact le_rfl
  | cons _ _ ih => exact le_max_of_le_right ih

theorem le_maxPrice {leg : HubAssetKey × AccountPosition} {feed : PriceFeed}
    (hleg : leg ∈ account.supplyPositions.entries)
    (hprice : prices.get? leg.1.asset = some feed) : feed.price ≤ maxPrice prices account := by
  refine List.le_max_of_le' 0 (List.mem_filterMap.mpr ⟨leg.1, ?_, ?_⟩) le_rfl
  · exact List.mem_map_of_mem hleg
  · rw [hprice]
    rfl

/-- A leg of a seizure and what is taken of it. -/
structure LegSeizure (timestamp : Nat) (pool : PoolCtx W) (prices : SortedMap Address PriceFeed)
    (target total : Int) (leg : HubAssetKey × AccountPosition) (worth : Int) (feed : PriceFeed)
    (entry : Option SeizeEntry) : Prop where
  legValue : LegValue timestamp pool prices leg worth
  worth_nonneg : 0 ≤ worth
  target_nonneg : 0 ≤ target
  total_pos : 0 < total
  price : prices.get? leg.1.asset = some feed
  taken : ∀ e ∈ entry, ∃ taken, Takes timestamp pool prices leg e taken ∧
    (taken * e.feed.price : ℚ) / ray ≤ target * worth / total + legSlack target feed.price

/-- How a leg is sized: what is asked of it, and which whole units that comes to. -/
structure SizedLeg (h : ControllerHost W) (timestamp : Nat) (pool : PoolCtx W)
    (prices : SortedMap Address PriceFeed) (repayment : NormalizedRepaymentPlan)
    (total unseized : Int) (leg : HubAssetKey × AccountPosition) (feed : PriceFeed)
    (marketIndex : MarketIndex) (actualRay value seizureRay unseized' : Int) : Prop where
  legAt : LegAt timestamp pool prices leg feed marketIndex actualRay value
  reported : h.Reported leg.1.asset feed
  value_nonneg : 0 ≤ value
  target_nonneg : 0 ≤ seizureTarget repayment
  total_pos : 0 < total
  price_pos : 0 < feed.price
  sized : (if ¬ repayment.seizeAll ∧ feed.assetDecimals < minBorrowableAssetDecimals ∧
      requestedRay (seizureTarget repayment) total value feed.price < actualRay then
    wholeUnitSeizure feed repayment.repaysAllDebt
      (requestedRay (seizureTarget repayment) total value feed.price) actualRay
      (requestedUsd (seizureTarget repayment) total value) unseized
    else pure (requestedRay (seizureTarget repayment) total value feed.price, unseized) :
    Result (Int × Int)) = .ok (seizureRay, unseized')

/-- What the plan takes of a leg that is sized to `seizureRay`. -/
def cappedRay (repayment : NormalizedRepaymentPlan) (seizureRay actualRay : Int) : Int :=
  if repayment.seizeAll then actualRay else min seizureRay actualRay

theorem seizePosition_sized {repayment : NormalizedRepaymentPlan} {total onePlusBonus : Int}
    {seized : List SeizeEntry} {unseized : Int} {leg : HubAssetKey × AccountPosition} :
    ReadsAt h timestamp pool prices (seizePosition timestamp repayment total onePlusBonus
      (seizureTarget repayment) (seized, unseized) leg) fun acc' =>
      ∃ feed index actualRay value seizureRay, SizedLeg h timestamp pool prices repayment total
        unseized leg feed index actualRay value seizureRay acc'.2 ∧
        ((seizureRay ≤ 0 ∨ cappedRay repayment seizureRay actualRay ≤ 0) ∧ acc'.1 = seized ∨
          0 < seizureRay ∧ 0 < cappedRay repayment seizureRay actualRay ∧ ∃ entry,
            seizeLeg leg.1 leg.2 feed index onePlusBonus seizureRay
              (cappedRay repayment seizureRay actualRay) actualRay = .ok entry ∧
            acc'.1 = seized ++ entry.toList) := by
  obtain ⟨hubAsset, position⟩ := leg
  refine .bind cachedPrice_readsAt fun feed hfeed => .bind cachedMarketIndex_readsAt
    fun index hcur => .bind (.lift fun actualRay hactual => hactual) fun actualRay hactual =>
    .bind (.lift fun value hvalue => hvalue) fun value hvalue => ?_
  refine .bind (.lift fun share hshare => mulDivHalfUp_ok_iff.mp hshare) fun share hshare =>
    .bind (.lift fun usd husd => Wad.mul_ok_iff.mp husd) fun usd husd =>
    .bind (.lift fun tokens ht => mulDivHalfUp_ok_iff.mp ht) fun tokens ht => ?_
  obtain ⟨hv0, -, hc, rfl, -⟩ := hshare
  obtain ⟨ht0, -, rfl, -⟩ := husd
  obtain ⟨-, -, hp, rfl, -⟩ := ht
  refine .bind (.lift fun r hr => hr) fun ⟨seizureRay, unseized'⟩ hr => ?_
  have hsized : SizedLeg h timestamp pool prices repayment total unseized (hubAsset, position)
      feed index actualRay value seizureRay unseized' :=
    ⟨⟨hfeed.1, hcur, hactual, hvalue⟩, hfeed.2, hv0, ht0, hc, hp, hr⟩
  refine .ite (fun hstop => .pure ?_) fun hgo => ?_
  · exact ⟨feed, index, actualRay, value, seizureRay, hsized, .inl ⟨hstop, rfl⟩⟩
  · have hz : Ray.zero = 0 := rfl
    rw [not_or, hz, not_le, not_le] at hgo
    exact .bind (.lift fun entry hentry => hentry) fun entry hentry =>
      .pure ⟨feed, index, actualRay, value, seizureRay, hsized,
        .inr ⟨hgo.1, hgo.2, entry, hentry, rfl⟩⟩

theorem seizePosition_readsAt (hrun : MarketsRun timestamp pool.markets)
    (hfeeds : h.FeedsMatch pool) (hpos : account.Positive) {repayment : NormalizedRepaymentPlan}
    {total onePlusBonus : Int} (hall : repayment.seizeAll = false)
    {acc : List SeizeEntry × Int} {leg : HubAssetKey × AccountPosition}
    (hleg : leg ∈ account.supplyPositions.entries)
    (hround : ¬ RoundedUp timestamp pool prices repayment total leg) :
    ReadsAt h timestamp pool prices (seizePosition timestamp repayment total onePlusBonus
      (seizureTarget repayment) acc leg) fun acc' => ∃ worth feed,
      ∃ entry : Option SeizeEntry, acc'.1 = acc.1 ++ entry.toList ∧
      LegSeizure timestamp pool prices (seizureTarget repayment) total leg worth feed entry := by
  obtain ⟨hubAsset, position⟩ := leg
  refine seizePosition_sized.mono ?_
  rintro acc' ⟨feed, index, actualRay, value, seizureRay, hs, hacc'⟩
  have hreq0 := requestedRay_nonneg hs.target_nonneg hs.total_pos hs.value_nonneg hs.price_pos
  have hle : seizureRay ≤ requestedRay (seizureTarget repayment) total value feed.price := by
    have hr := hs.sized
    split at hr
    · rename_i hwhole
      refine wholeUnitSeizure_le hreq0 hwhole.2.1 (fun hrepays => ?_) hr
      by_contra hdvd
      exact hround ⟨feed, index, actualRay, value, hs.legAt, hrepays, hwhole.2.1, hwhole.2.2, hdvd⟩
    · simp only [Fallible.pure_ok_iff, Prod.mk.injEq] at hr
      exact hr.1.ge
  have hslack := requestedRay_value hs.target_nonneg hs.total_pos hs.value_nonneg hs.price_pos
  have hseizure : ∀ entry : Option SeizeEntry, (∀ e ∈ entry, ∃ taken,
      Takes timestamp pool prices (hubAsset, position) e taken ∧ e.feed = feed ∧
        taken ≤ requestedRay (seizureTarget repayment) total value feed.price) →
      LegSeizure timestamp pool prices (seizureTarget repayment) total (hubAsset, position) value
        feed entry := by
    intro entry hentry
    refine ⟨⟨feed, index, actualRay, hs.legAt⟩, hs.value_nonneg, hs.target_nonneg, hs.total_pos,
      hs.legAt.price, fun e he => ?_⟩
    obtain ⟨taken, htakes, rfl, htaken⟩ := hentry e he
    refine ⟨taken, htakes, le_trans ?_ hslack⟩
    have hpq : (0 : ℚ) ≤ e.feed.price := by exact_mod_cast hs.price_pos.le
    have hrq : (0 : ℚ) ≤ (ray : Int) := by exact_mod_cast ray_pos.le
    have htq : (taken : ℚ) ≤ requestedRay (seizureTarget repayment) total value e.feed.price := by
      exact_mod_cast htaken
    gcongr
  rcases hacc' with ⟨-, hacc'⟩ | ⟨-, hcap, entry, hentry, hacc'⟩
  · exact ⟨value, feed, none, by simpa using hacc', hseizure none (by simp)⟩
  refine ⟨value, feed, entry, hacc', hseizure entry fun e he => ?_⟩
  obtain rfl : entry = some e := he
  unfold cappedRay at hcap hentry
  rw [hall] at hcap hentry
  have htakes := seizeLeg_takes (decimals_le hrun hfeeds hs.legAt.current hs.reported)
    (hpos.supply (SortedMap.mem_entries.mp hleg)) (supplyIndex_pos hrun hs.legAt.current)
    hs.legAt.price hs.legAt.current hs.legAt.actual hcap (min_le_right _ _) hentry
  refine ⟨min seizureRay actualRay, htakes, ?_, (min_le_left _ _).trans hle⟩
  exact Option.some.inj (htakes.price.symm.trans hs.legAt.price)

/-- The dollars of what is taken. -/
def takenValue (taken : List (SeizeEntry × Int)) : ℚ :=
  (taken.map fun t => (t.2 * t.1.feed.price : ℚ) / ray).sum

@[simp] theorem takenValue_nil : takenValue [] = 0 := rfl

@[simp] theorem takenValue_append (l r : List (SeizeEntry × Int)) :
    takenValue (l ++ r) = takenValue l + takenValue r := by
  simp [takenValue]

/-- What is taken of the legs `done`, which are worth `values`, and its bound. -/
structure SeizedSoFar (timestamp : Nat) (pool : PoolCtx W) (prices : SortedMap Address PriceFeed)
    (account : Account) (target total : Int) (done : List (HubAssetKey × AccountPosition))
    (values : List Int) (seized : List SeizeEntry) (taken : List (SeizeEntry × Int)) : Prop where
  legValues : List.Forall₂ (LegValue timestamp pool prices) done values
  entries : taken.map Prod.fst = seized
  keys : (seized.map SeizeEntry.hubAsset).Sublist (done.map Prod.fst)
  takes : ∀ t ∈ taken, ∃ leg ∈ account.supplyPositions.entries,
    Takes timestamp pool prices leg t.1 t.2
  bound : takenValue taken ≤ target * values.sum / total +
    done.length * legSlack target (maxPrice prices account)

theorem SeizedSoFar.step {target total : Int} {done : List (HubAssetKey × AccountPosition)}
    {values : List Int} {seized : List SeizeEntry} {taken : List (SeizeEntry × Int)}
    {leg : HubAssetKey × AccountPosition} {worth : Int} {feed : PriceFeed}
    {entry : Option SeizeEntry}
    (hs : SeizedSoFar timestamp pool prices account target total done values seized taken)
    (hleg : leg ∈ account.supplyPositions.entries)
    (hl : LegSeizure timestamp pool prices target total leg worth feed entry) :
    ∃ taken', SeizedSoFar timestamp pool prices account target total (done ++ [leg])
      (values ++ [worth]) (seized ++ entry.toList) taken' := by
  have hvalues := List.rel_append hs.legValues (.cons hl.legValue .nil)
  have htq : (0 : ℚ) ≤ target := by exact_mod_cast hl.target_nonneg
  have hcq : (0 : ℚ) < total := by exact_mod_cast hl.total_pos
  have hwq : (0 : ℚ) ≤ worth := by exact_mod_cast hl.worth_nonneg
  have hwadq : (0 : ℚ) < (wad : Int) := by exact_mod_cast wad_pos
  have hmaxq : (feed.price : ℚ) ≤ maxPrice prices account := by
    exact_mod_cast le_maxPrice hleg hl.price
  have hmax0 : (0 : ℚ) ≤ maxPrice prices account := by
    exact_mod_cast maxPrice_nonneg prices account
  have hpart : 0 ≤ (target * worth / total : ℚ) := by positivity
  have hslack : legSlack target feed.price ≤ legSlack target (maxPrice prices account) := by
    unfold legSlack
    gcongr
  have hslack0 : 0 ≤ legSlack target (maxPrice prices account) := by
    unfold legSlack
    positivity
  have hsum : (target * ((values ++ [worth]).sum : Int) / total : ℚ) =
      target * (values.sum : Int) / total + target * worth / total := by
    rw [List.sum_append, List.sum_singleton]
    push_cast
    ring
  have hlen : (((done ++ [leg]).length : Nat) : ℚ) = done.length + 1 := by simp
  have hbound := hs.bound
  cases entry with
  | none =>
    refine ⟨taken, hvalues, by simp [hs.entries], ?_, hs.takes, ?_⟩
    · rw [Option.toList_none, List.append_nil, List.map_append]
      exact hs.keys.trans (List.sublist_append_left _ _)
    · rw [hsum, hlen]
      linarith
  | some e =>
    obtain ⟨rays, htakes, hrays⟩ := hl.taken e rfl
    refine ⟨taken ++ [(e, rays)], hvalues, by simp [hs.entries], ?_, ?_, ?_⟩
    · rw [Option.toList_some, List.map_append, List.map_append]
      refine hs.keys.append ?_
      simp [htakes.hubAsset]
    · intro t ht
      rcases List.mem_append.mp ht with ht | ht
      · exact hs.takes t ht
      · obtain rfl := List.mem_singleton.mp ht
        exact ⟨leg, hleg, htakes⟩
    · have hone : takenValue [(e, rays)] = (rays * e.feed.price : ℚ) / ray := by
        simp [takenValue]
      rw [takenValue_append, hone, hsum, hlen]
      linarith

/-- The seizures of a plan are the legs' at its bonus, and what they drop is discounted by it. -/
theorem calculateSeizedCollateral_legs {repayment : NormalizedRepaymentPlan} {total : Int}
    {P : List SeizeEntry × Int → Prop} {Q : List SeizeEntry × Int → Prop}
    (hnone : total ≤ 0 → Q ([], 0))
    (hlegs : 0 < total → 0 ≤ repayment.bonus → ReadsAt h timestamp pool prices
      (account.supplyPositions.entries.foldlM (seizePosition timestamp repayment total
        (onePlus repayment.bonus) (seizureTarget repayment)) ([], 0)) P)
    (hsome : ∀ acc, 0 < total → 0 ≤ repayment.bonus → P acc →
      Q (acc.1, acc.2 * wad / onePlus repayment.bonus)) :
    ReadsAt h timestamp pool prices (calculateSeizedCollateral timestamp account total repayment)
      Q := by
  refine .ite (fun hle => .pure (hnone hle)) fun hgt => ?_
  have hc : 0 < total := not_le.mp hgt
  refine .bind (.lift fun bonusWad hb => mulDivHalfUp_ok_iff.mp hb) fun bonusWad hb =>
    .bind (.lift fun onePlusBonus hone => checkedAddRaw_ok_iff.mp hone) fun onePlusBonus hone =>
    .bind (.lift fun target htarget => Wad.mul_ok_iff.mp htarget) fun target htarget => ?_
  obtain ⟨hb0, -, -, rfl, -⟩ := hb
  obtain ⟨-, rfl⟩ := hone
  obtain ⟨-, -, rfl, -⟩ := htarget
  have hone : Wad.one + halfUpDiv (repayment.bonus * wad) bps = onePlus repayment.bonus := by
    have hdvd : wad / bps * bps = wad := by decide
    rw [show repayment.bonus * wad = repayment.bonus * (wad / bps) * bps by rw [mul_assoc, hdvd],
      halfUpDiv_mul_self _ bps_pos]
    rfl
  have hpos : 0 < onePlus repayment.bonus := wad_pos.trans_le (wad_le_onePlus hb0)
  rw [hone]
  refine .bind (hlegs hc hb0) fun acc hacc =>
    .bind (.lift fun u hu => ((Wad.divFloor_ok_iff hpos).mp hu).2) fun u hu => .pure ?_
  exact hu ▸ hsome acc hc hb0 hacc

theorem calculateSeizedCollateral_readsAt (hrun : MarketsRun timestamp pool.markets)
    (hfeeds : h.FeedsMatch pool) (hpos : account.Positive) {repayment : NormalizedRepaymentPlan}
    {total : Int} (hall : repayment.seizeAll = false)
    (hround : ∀ leg ∈ account.supplyPositions.entries,
      ¬ RoundedUp timestamp pool prices repayment total leg) :
    ReadsAt h timestamp pool prices
      (calculateSeizedCollateral timestamp account total repayment) fun r =>
      total ≤ 0 ∧ r.1 = [] ∨ 0 < total ∧ ∃ values taken,
        SeizedSoFar timestamp pool prices account (seizureTarget repayment) total
          account.supplyPositions.entries values r.1 taken := by
  refine calculateSeizedCollateral_legs (P := fun acc => ∃ values taken,
    SeizedSoFar timestamp pool prices account (seizureTarget repayment) total
      account.supplyPositions.entries values acc.1 taken) (fun hle => .inl ⟨hle, rfl⟩)
    (fun hc _ => ?_) fun acc hc _ hacc => .inr ⟨hc, hacc⟩
  refine .foldlM (P := fun (acc : List SeizeEntry × Int) done => ∃ values taken,
    SeizedSoFar timestamp pool prices account (seizureTarget repayment) total done values acc.1
      taken) ?_ ⟨[], [], .nil, rfl, List.Sublist.refl _, by simp, by simp⟩
  rintro acc leg done hleg ⟨values, taken, hs⟩
  refine (seizePosition_readsAt hrun hfeeds hpos hall hleg (hround leg hleg)).mono ?_
  rintro acc' ⟨worth, feed, entry, hacc', hl⟩
  obtain ⟨taken', hs'⟩ := hs.step hleg hl
  rw [hacc']
  exact ⟨_, taken', hs'⟩

/-! ## Planning -/

/-- The collateral of the figures is the sum of the legs at the prices they were read at. -/
theorem liquidationSnapshot_legs {s s1 : Invocation W}
    {r : LiquidationSnapshot × BonusBounds × LiquidationCurve} (hs : s.Sees h timestamp pool)
    (hsnap : liquidationSnapshot h timestamp account s = .ok r s1) :
    s1.SeesAt h timestamp pool s1.cache.tokenPrices ∧ ∃ values,
      List.Forall₂ (LegValue timestamp pool s1.cache.tokenPrices)
        account.supplyPositions.entries values ∧ r.1.totalCollateral = values.sum := by
  unfold liquidationSnapshot Risk.calculateAccountRiskTotals at hsnap
  simp only [Transaction.bind_ok_iff] at hsnap
  obtain ⟨totals, s0, ⟨_, sm, hload, ⟨total, ltv, weighted⟩, sc, hsum, debt, sd, hdebt, hf, sf,
    hhf, htotals⟩, hrest⟩ := hsnap
  obtain ⟨_, s2, hassert, ⟨p, bounds⟩, s3, hprop, cfg, s4, hcfg, hr⟩ := hrest
  obtain ⟨-, rfl⟩ := Transaction.lift_ok_iff.mp hhf
  obtain ⟨rfl, rfl⟩ := Transaction.pure_ok_iff.mp htotals
  obtain ⟨-, rfl⟩ := Transaction.lift_ok_iff.mp hassert
  obtain ⟨rfl, rfl⟩ := Transaction.pure_ok_iff.mp hr
  -- Every price is read before the first leg is valued.
  have hsm : sm.SeesAt h timestamp pool sm.cache.tokenPrices :=
    ⟨((Answers.of_reads loadMarkets_reads).ok hs hload).1, rfl⟩
  obtain ⟨hsc, values, hvalues, htotal⟩ := sumCollateral_readsAt.ok hsm hsum
  obtain ⟨hsd, -⟩ := (ReadsAt.of_answers (.of_reads Risk.sumDebtUsdLoaded_reads)
    sumDebtUsdLoaded_prices).ok hsc hdebt
  obtain ⟨hs3, -⟩ := (ReadsAt.of_answers (.of_reads calculateSeizureProportions_reads)
    calculateSeizureProportions_prices).ok hsd hprop
  obtain ⟨hs4, -⟩ := (ReadsAt.of_answers (.of_reads spokeConfig_reads)
    spokeConfig_prices).ok hs3 hcfg
  rw [hs4.prices_eq]
  exact ⟨hs4, values, hvalues, htotal⟩

theorem bonus_nonneg_of_toWad {b r : Int} (h : Bps.toWad b = .ok r) : 0 ≤ b :=
  (mulDivHalfUp_ok_iff.mp h).1

/-- A quoted bonus was converted to wad, or is floored at zero. -/
theorem estimateLiquidationAmount_bonus {snap : LiquidationSnapshot} {bounds : BonusBounds}
    {curve : LiquidationCurve} {q b : Int}
    (hq : estimateLiquidationAmount snap bounds curve = .ok (q, b)) : 0 ≤ b := by
  have htarget : ∀ {b'}, targetRepayment snap b' curve = .ok (q, b) → 0 ≤ b := by
    intro b' ht
    unfold targetRepayment at ht
    obtain ⟨ideal, hideal, ht⟩ := Fallible.bind_ok ht
    obtain ⟨rest, -, ht⟩ := Fallible.bind_ok ht
    have hb : b = b' := by
      split at ht <;> simp only [Fallible.pure_ok_iff, Prod.mk.injEq] at ht <;> exact ht.2.symm
    unfold liquidationAtTarget at hideal
    obtain ⟨bonusWad, hbonus, -⟩ := Fallible.bind_ok hideal
    exact hb ▸ bonus_nonneg_of_toWad hbonus
  unfold estimateLiquidationAmount at hq
  obtain ⟨scaled, -, hq⟩ := Fallible.bind_ok hq
  split at hq
  · exact htarget hq
  · split at hq
    · obtain ⟨bonusWad, hbonus, hq⟩ := Fallible.bind_ok hq
      simp only [Fallible.bind_ok_iff, Fallible.pure_ok_iff, Prod.mk.injEq] at hq
      obtain ⟨_, _, _, _, _, hb⟩ := hq
      exact hb ▸ bonus_nonneg_of_toWad hbonus
    · split at hq
      · simp only [Fallible.pure_ok_iff, Prod.mk.injEq] at hq
        exact hq.2 ▸ le_max_right _ _
      · exact htarget hq

/-- What a plan accepts is credited entry by entry, at a bonus that is not negative. -/
theorem normalizeRepaymentPlan_credited (hrun : MarketsRun timestamp pool.markets)
    (hfeeds : h.FeedsMatch pool) (hprices : h.PositivePrices) (hpos : account.Positive)
    {rawPayments : List HubPayment} {snap : LiquidationSnapshot} {bonusBounds : BonusBounds}
    {curve : LiquidationCurve} :
    Answers h timestamp pool
      (normalizeRepaymentPlan timestamp account rawPayments snap bonusBounds curve) fun plan =>
      (∀ e ∈ plan.repaid, Credited e) ∧ plan.repayUsd = usdTotal plan.repaid ∧
        0 ≤ plan.bonus := by
  refine .bind (calculateRepaymentAmounts_credited hrun hfeeds hprices hpos) fun acc hacc =>
    .bind (.lift fun r hr => hr) fun ⟨curveUsd, bonus⟩ hquote =>
    .skip (.ite .pure wholeUnitRepayment_reads) fun idealUsd =>
    .bind (.lift fun r hr => hr) fun ⟨repaid, refunds⟩ hsplit =>
    .bind (.lift fun r hr => hr) fun repayUsd hsum => .skip .lift fun seizeAll =>
    .skip (.ite repaysEveryDebtLeg_reads .pure) fun repaysAll =>
    .pure ⟨?_, sumRepaidUsd_eq hsum, estimateLiquidationAmount_bonus hquote⟩
  split at hsplit
  · obtain ⟨excess, -, hproc⟩ := Fallible.bind_ok hsplit
    exact processExcessPayment_credited hacc hproc
  · simp only [Fallible.pure_ok_iff, Prod.mk.injEq] at hsplit
    obtain ⟨rfl, rfl⟩ := hsplit
    exact hacc

end

end Liquidation

open Liquidation

/-- **Seizure value bound.** For every account, price vector and accepted plan that does not seize
everything and rounds no whole unit up: every leg gives at most what it holds, and what all legs
give is worth at most the repayment with its bonus, up to the roundings of each leg. -/
theorem seized_value_bounded {s s1 s2 s3 : Invocation W} {account : Account}
    {snap : LiquidationSnapshot} {bounds : BonusBounds} {curve : LiquidationCurve}
    {rawPayments : List HubPayment} {repayment : NormalizedRepaymentPlan}
    {seized : List SeizeEntry} {unbackedUsd : Int} (hrun : MarketsRun timestamp s.pool.markets)
    (hfeeds : h.FeedsMatch s.pool) (hquoted : s.Quoted h timestamp) (hprices : h.PositivePrices)
    (hpos : account.Positive)
    (hsnap : liquidationSnapshot h timestamp account s = .ok (snap, bounds, curve) s1)
    (hplan : normalizeRepaymentPlan timestamp account rawPayments snap bounds curve s1 =
      .ok repayment s2)
    (hseized : calculateSeizedCollateral timestamp account snap.totalCollateral repayment s2 =
      .ok (seized, unbackedUsd) s3)
    (hall : repayment.seizeAll = false)
    (hround : ∀ leg ∈ account.supplyPositions.entries, ¬ RoundedUp timestamp s.pool
      s1.cache.tokenPrices repayment snap.totalCollateral leg) :
    ∃ taken : List (SeizeEntry × Int), taken.map Prod.fst = seized ∧
      (seized.map SeizeEntry.hubAsset).Sublist account.supplyPositions.keys ∧
      (∀ t ∈ taken, ∃ leg ∈ account.supplyPositions.entries,
        Takes timestamp s.pool s1.cache.tokenPrices leg t.1 t.2) ∧
      takenValue taken ≤ seizureTarget repayment + account.supplyPositions.entries.length *
        (seizureTarget repayment / (2 * wad) + 1 / 2 +
          maxPrice s1.cache.tokenPrices account / (2 * wad)) := by
  obtain ⟨hs1, values, hvalues, htotal⟩ := liquidationSnapshot_legs ⟨rfl, hquoted⟩ hsnap
  obtain ⟨hs2, hcred, hsum, hbonus⟩ := (ReadsAt.of_answers
    (normalizeRepaymentPlan_credited hrun hfeeds hprices hpos) normalizeRepaymentPlan_prices).ok hs1
    hplan
  have hrepay : 0 ≤ repayment.repayUsd := hsum ▸ usdTotal_nonneg hcred
  obtain ⟨-, hresult⟩ :=
    (calculateSeizedCollateral_readsAt hrun hfeeds hpos hall hround).ok hs2 hseized
  rcases hresult with ⟨-, rfl⟩ | ⟨hc, values', taken, hs⟩
  · have hone := wad_le_onePlus hbonus
    have ht : (0 : ℚ) ≤ seizureTarget repayment := by
      have htarget : 0 ≤ seizureTarget repayment :=
        halfUpDiv_nonneg wad_pos (mul_nonneg hrepay (wad_pos.le.trans hone))
      exact_mod_cast htarget
    have hm : (0 : ℚ) ≤ maxPrice s1.cache.tokenPrices account := by
      exact_mod_cast maxPrice_nonneg _ account
    have hw : (0 : ℚ) < (wad : Int) := by exact_mod_cast wad_pos
    refine ⟨[], rfl, List.nil_sublist _, by simp, ?_⟩
    rw [takenValue_nil]
    positivity
  · have hsum : values'.sum = snap.totalCollateral := by
      rw [legValues_unique hs.legValues hvalues]
      exact htotal.symm
    have hcq : (snap.totalCollateral : ℚ) ≠ 0 := by exact_mod_cast hc.ne'
    have hbound := hs.bound
    rw [hsum, mul_div_assoc, div_self hcq, mul_one] at hbound
    exact ⟨taken, hs.entries, hs.keys, hs.takes, hbound⟩

/-- Forty dollars of a debt of seventy-two are repaid; what is seized is worth about as much. -/
theorem seized_value_bounded_sample :
    ∃ snap bounds curve s1 repayment s2 seized unbacked s3,
      liquidationSnapshot Sample.controllerHost 1_000 (Sample.owing (100 * ray) (72 * ray) 500)
        Sample.invocation = .ok (snap, bounds, curve) s1 ∧
      normalizeRepaymentPlan 1_000 (Sample.owing (100 * ray) (72 * ray) 500)
        [(Sample.key, 400_000_000)] snap bounds curve s1 = .ok repayment s2 ∧
      calculateSeizedCollateral 1_000 (Sample.owing (100 * ray) (72 * ray) 500)
        snap.totalCollateral repayment s2 = .ok (seized, unbacked) s3 ∧
      seized ≠ [] ∧
      ∃ taken : List (SeizeEntry × Int), taken.map Prod.fst = seized ∧
        takenValue taken ≤ seizureTarget repayment + 1 * (seizureTarget repayment / (2 * wad) +
          1 / 2 + maxPrice s1.cache.tokenPrices (Sample.owing (100 * ray) (72 * ray) 500) /
            (2 * wad)) := by
  obtain ⟨snap, bounds, curve, s1, repayment, s2, seized, unbacked, s3, hsnap, hplan, hseized,
      hsome, hall, hpart⟩ : ∃ snap bounds curve s1 repayment s2 seized unbacked s3,
      liquidationSnapshot Sample.controllerHost 1_000 (Sample.owing (100 * ray) (72 * ray) 500)
        Sample.invocation = .ok (snap, bounds, curve) s1 ∧
      normalizeRepaymentPlan 1_000 (Sample.owing (100 * ray) (72 * ray) 500)
        [(Sample.key, 400_000_000)] snap bounds curve s1 = .ok repayment s2 ∧
      calculateSeizedCollateral 1_000 (Sample.owing (100 * ray) (72 * ray) 500)
        snap.totalCollateral repayment s2 = .ok (seized, unbacked) s3 ∧
      seized ≠ [] ∧ repayment.seizeAll = false ∧ repayment.repaysAllDebt = false := by
    refine ⟨_, _, _, _, _, _, _, _, _, rfl, rfl, rfl, ?_, ?_, ?_⟩
    all_goals decide +kernel
  obtain ⟨taken, hmap, -, -, hbound⟩ := seized_value_bounded Sample.invocation_markets
    Sample.invocation_feeds (quoted_fresh rfl rfl) Sample.controllerHost_prices
    (Sample.owing_positive (by decide) (by decide)) hsnap hplan hseized hall
    (by
      rintro leg - ⟨_, _, _, _, -, hrepays, -⟩
      rw [hpart] at hrepays
      cases hrepays)
  refine ⟨snap, bounds, curve, s1, repayment, s2, seized, unbacked, s3, hsnap, hplan, hseized,
    hsome, taken, hmap, ?_⟩
  exact_mod_cast hbound

end Lending
