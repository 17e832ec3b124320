import LendingXlm.Controller.Liquidation.SeizureValue
import Mathlib.Data.Rat.Cast.Order
import Mathlib.Tactic.FieldSimp

/-!
# Valuing an account

What the totals of an account come to at given prices and indexes, and how far that is from its
exact value.

* `Marks.totals`: the totals, as a function of the positions and the marks they are valued at;
* `calculateAccountRiskTotals_totals`: an invocation computes them at the marks it has quoted;
* `Marks.exactCollateral`, `Marks.exactDebt`: the same in exact arithmetic;
* `Marks.totals_bounds`: collateral is counted at no more than its exact value, and debt at no
  less.
-/

namespace Lending

open FpCore Rounding Transaction Ctrl Invocation

/-- The prices and indexes an account is valued at. -/
structure Marks where
  price : Address → Int
  index : HubAssetKey → MarketIndex

/-! ## Totals at given marks -/

namespace Marks

variable (v : Marks)

/-- One supply position added to `(total, ltv, weighted)` collateral. -/
def addCollateral (sums : Int × Int × Int) (e : HubAssetKey × AccountPosition) :
    Result (Int × Int × Int) := do
  let (hubAsset, position) := e
  let price := v.price hubAsset.asset
  let supplyIndex := (v.index hubAsset).supplyIndex
  let value ← positionValue position.scaledAmount supplyIndex price
  let gateValue ← positionValueFloor position.scaledAmount supplyIndex price
  let total ← Wad.checkedAdd sums.1 value
  let effectiveLtv := min position.loanToValue position.liquidationThreshold
  let ltv ← Wad.checkedAdd sums.2.1 (← Bps.applyToWadFloor effectiveLtv gateValue)
  let weighted ←
    Wad.checkedAdd sums.2.2 (← Bps.applyToWadFloor position.liquidationThreshold gateValue)
  return (total, ltv, weighted)

def addDebt (total : Int) (e : HubAssetKey × DebtPosition) : Result Int := do
  let value ←
    positionValueCeil e.2.scaledAmount (v.index e.1).borrowIndex (v.price e.1.asset)
  Wad.checkedAdd total value

def totals (supply : SortedMap HubAssetKey AccountPosition)
    (debt : SortedMap HubAssetKey DebtPosition) : Result Risk.AccountRiskTotals := do
  let (totalCollateral, ltvCollateral, weightedCollateral) ←
    supply.entries.foldlM v.addCollateral (Wad.zero, Wad.zero, Wad.zero)
  let totalDebt ← debt.entries.foldlM v.addDebt Wad.zero
  let healthFactor ←
    (if totalDebt = Wad.zero then pure i128Max
    else Wad.divFloorSaturating weightedCollateral totalDebt : Result Int)
  return { totalCollateral, ltvCollateral, weightedCollateral, totalDebt, healthFactor }

variable {W : Type}

/-- The marks are the current indexes of the markets and the prices of the feeds. -/
structure Fit (v : Marks) (timestamp : Nat) (pool : PoolCtx W) (feeds : Address → PriceFeed → Prop)
    (markets : List HubAssetKey) : Prop where
  index : ∀ market ∈ markets, pool.CurrentIndex timestamp market (v.index market)
  price : ∀ market ∈ markets, ∀ feed, feeds market.asset feed →
    feed.price = v.price market.asset

/-- No current index of the markets, and no price of the feeds, differs from the marks. -/
structure Agrees (v : Marks) (timestamp : Nat) (pool : PoolCtx W)
    (feeds : Address → PriceFeed → Prop) (markets : List HubAssetKey) : Prop where
  index : ∀ market ∈ markets, ∀ index, pool.CurrentIndex timestamp market index →
    v.index market = index
  price : ∀ market ∈ markets, ∀ feed, feeds market.asset feed →
    feed.price = v.price market.asset

theorem Fit.agrees {v : Marks} {timestamp : Nat} {pool : PoolCtx W}
    {feeds : Address → PriceFeed → Prop} {markets : List HubAssetKey}
    (hv : v.Fit timestamp pool feeds markets) : v.Agrees timestamp pool feeds markets :=
  ⟨fun market hmem _ hcur => (hv.index market hmem).unique hcur, hv.price⟩

end Marks

variable {W : Type} {h : ControllerHost W} {timestamp : Nat}

/-! ## What an invocation computes -/

/-- The marks are what the invocation has quoted. -/
def Invocation.Marked (timestamp : Nat) (v : Marks) (markets : List HubAssetKey)
    (s : Invocation W) : Prop :=
  v.Fit timestamp s.pool (fun asset feed => s.cache.tokenPrices.get? asset = some feed) markets

/-- Nothing the invocation has quoted, or may still read of the pool, differs from the marks. -/
def Invocation.Agreed (timestamp : Nat) (v : Marks) (markets : List HubAssetKey)
    (s : Invocation W) : Prop :=
  v.Agrees timestamp s.pool (fun asset feed => s.cache.tokenPrices.get? asset = some feed) markets

/-- Neither the known prices nor the current indexes differ from the marks. -/
def Marks.AgreesAt (v : Marks) (timestamp : Nat) (pool : PoolCtx W)
    (prices : SortedMap Address PriceFeed) (markets : List HubAssetKey) : Prop :=
  v.Agrees timestamp pool (fun asset feed => prices.get? asset = some feed) markets

section
variable {pool : PoolCtx W} {prices : SortedMap Address PriceFeed} {keys : List HubAssetKey}

theorem ReadsAt.result {α β : Type} {r : Result α} {f : α → Ctrl W β} {R : β → Prop}
    (hf : ∀ a, r = .ok a → ReadsAt h timestamp pool prices (f a) R) :
    ReadsAt h timestamp pool prices (liftM r >>= f) R :=
  .bind (.lift fun _ ha => ha) hf

/-- What one position adds to the collateral, at marks that agree. -/
theorem Risk.addCollateral_readsAt {sums : Int × Int × Int} {e : HubAssetKey × AccountPosition}
    (he : e.1 ∈ keys) :
    ReadsAt h timestamp pool prices (addCollateral timestamp sums e) fun sums' =>
      ∀ v : Marks, v.AgreesAt timestamp pool prices keys → v.addCollateral sums e = .ok sums' := by
  obtain ⟨hubAsset, position⟩ := e
  refine .bind Context.cachedPrice_readsAt fun feed hfeed =>
    .bind Context.cachedMarketIndex_readsAt fun index hindex =>
    .result fun value hvalue =>
    .result fun gateValue hgate =>
    .result fun total htotal =>
    .result fun ltvValue hltvValue =>
    .result fun ltv hltv =>
    .result fun weightedValue hweightedValue =>
    .result fun weighted hweighted => .pure fun v hv => ?_
  have hprice : v.price hubAsset.asset = feed.price := (hv.price _ he feed hfeed.1).symm
  have hcur : v.index hubAsset = index := hv.index _ he _ hindex
  unfold Marks.addCollateral
  dsimp only
  rw [hprice, hcur, hvalue, Fallible.ok_bind, hgate, Fallible.ok_bind, htotal, Fallible.ok_bind,
    hltvValue, Fallible.ok_bind, hltv, Fallible.ok_bind, hweightedValue, Fallible.ok_bind,
    hweighted, Fallible.ok_bind]
  exact Fallible.pure_ok_iff.mpr rfl

theorem Risk.addDebt_readsAt {total : Int} {e : HubAssetKey × DebtPosition} (he : e.1 ∈ keys) :
    ReadsAt h timestamp pool prices (do
        let feed ← Context.cachedPrice e.1.asset
        let marketIndex ← Context.cachedMarketIndex timestamp e.1
        Wad.checkedAdd total
          (← positionValueCeil e.2.scaledAmount marketIndex.borrowIndex feed.price)) fun total' =>
      ∀ v : Marks, v.AgreesAt timestamp pool prices keys → v.addDebt total e = .ok total' := by
  refine .bind Context.cachedPrice_readsAt fun feed hfeed =>
    .bind Context.cachedMarketIndex_readsAt fun index hindex =>
    .result fun value hvalue => .lift fun total' htotal v hv => ?_
  unfold Marks.addDebt
  rw [← hv.price _ he feed hfeed.1, hv.index _ he _ hindex, hvalue]
  exact htotal

/-- A loop adds up what its steps add. -/
theorem ReadsAt.sum {α β : Type} {f : β → α → Ctrl W β} {g : Marks → β → α → Result β}
    {l : List α} (hf : ∀ b e, e ∈ l → ReadsAt h timestamp pool prices (f b e) fun b' =>
      ∀ v : Marks, v.AgreesAt timestamp pool prices keys → g v b e = .ok b') (b : β) :
    ReadsAt h timestamp pool prices (l.foldlM f b) fun b' =>
      ∀ v : Marks, v.AgreesAt timestamp pool prices keys → l.foldlM (g v) b = .ok b' := by
  refine .foldlM (P := fun b' done => ∀ v : Marks, v.AgreesAt timestamp pool prices keys →
    done.foldlM (g v) b = .ok b') ?_ fun v _ => rfl
  intro b' e done he hdone
  refine (hf b' e he).mono fun b'' hstep v hv => ?_
  rw [List.foldlM_append, hdone v hv, Fallible.ok_bind, List.foldlM_cons, hstep v hv]
  rfl

end

/-- **Totals.** What is computed for an account is its totals at whatever marks agree with what the
invocation has quoted. -/
theorem Risk.calculateAccountRiskTotals_totals
    {supply : SortedMap HubAssetKey AccountPosition} {debt : SortedMap HubAssetKey DebtPosition} :
    Ends (fun s : Invocation W => s.Quoted h timestamp) (fun _ => True)
      (calculateAccountRiskTotals h timestamp supply debt) fun totals s => s.Quoted h timestamp ∧
        ∀ v : Marks, s.Agreed timestamp v (supply.keys ++ debt.keys) →
          v.totals supply debt = .ok totals := by
  have hsupply : ∀ e ∈ supply.entries, e.1 ∈ supply.keys ++ debt.keys :=
    fun e he => List.mem_append_left _ (List.mem_map_of_mem he)
  have hdebt : ∀ e ∈ debt.entries, e.1 ∈ supply.keys ++ debt.keys :=
    fun e he => List.mem_append_right _ (List.mem_map_of_mem he)
  refine Ends.bind (Q := fun _ s => s.Quoted h timestamp) (fun s hs => ?_) fun _ =>
    Ends.start fun t ht => ?_
  · cases hrun : Context.loadMarkets h timestamp (supply.keys ++ debt.keys) s with
    | error e s' => trivial
    | ok u s' => exact (Context.loadMarkets_reads.ok hrun).quoted hs
  -- From here on nothing is fetched but indexes.
  have hreads : ReadsAt h timestamp t.pool t.cache.tokenPrices (do
      let sums ← supply.entries.foldlM (addCollateral timestamp) (Wad.zero, Wad.zero, Wad.zero)
      let totalDebt ← sumDebtUsdLoaded timestamp debt positionValueCeil
      let healthFactor ← (if totalDebt = Wad.zero then Pure.pure i128Max
        else Wad.divFloorSaturating sums.2.2 totalDebt : Result Int)
      return (⟨sums.1, sums.2.1, sums.2.2, totalDebt, healthFactor⟩ : AccountRiskTotals))
      fun totals => ∀ v : Marks,
        v.AgreesAt timestamp t.pool t.cache.tokenPrices (supply.keys ++ debt.keys) →
        v.totals supply debt = .ok totals := by
    refine .bind (.sum (g := Marks.addCollateral)
      (fun _ e he => addCollateral_readsAt (hsupply e he)) _) fun sums hsums =>
      .bind (.sum (g := Marks.addDebt) (fun _ e he => addDebt_readsAt (hdebt e he)) _)
        fun totalDebt htotal => .result fun healthFactor hhf =>
      .pure fun v hv => ?_
    unfold Marks.totals
    simp only [hsums v hv, htotal v hv, Fallible.ok_bind]
    split at hhf
    · rename_i hz
      obtain rfl := Except.ok.inj hhf
      rw [if_pos hz]
      rfl
    · rename_i hz
      rw [if_neg hz, hhf]
      rfl
  refine Ends.post (Ends.pre hreads ?_) fun totals s hs => ⟨hs.1.quoted, fun v hv => hs.2 v ?_⟩
  · rintro s rfl
    exact ⟨⟨rfl, ht⟩, rfl⟩
  · have hpool := hs.1.pool_eq
    have hprices := hs.1.prices_eq
    rw [← hpool, ← hprices]
    exact hv

/-! ## Exact values -/

/-- Shares of a market at an index and a price, in dollars. -/
def exactValue (shares index price : Int) : ℚ :=
  (shares / ray) * (index / ray) * (price / wad)

theorem exactValue_nonneg {shares index price : Int} (hs : 0 ≤ shares) (hi : 0 ≤ index)
    (hp : 0 ≤ price) : 0 ≤ exactValue shares index price := by
  have hray : (0 : ℚ) < (ray : Int) := by exact_mod_cast ray_pos
  have hwad : (0 : ℚ) < (wad : Int) := by exact_mod_cast wad_pos
  have hs' : (0 : ℚ) ≤ shares := by exact_mod_cast hs
  have hi' : (0 : ℚ) ≤ index := by exact_mod_cast hi
  have hp' : (0 : ℚ) ≤ price := by exact_mod_cast hp
  unfold exactValue
  positivity

theorem floor_le_div (a : Int) {d : Int} (hd : 0 < d) : ((a / d : Int) : ℚ) ≤ a / d := by
  have hd' : (0 : ℚ) < d := by exact_mod_cast hd
  rw [le_div_iff₀ hd']
  exact_mod_cast floor_mul_le a hd

theorem div_le_ceilDiv (a : Int) {d : Int} (hd : 0 < d) : (a : ℚ) / d ≤ ceilDiv a d := by
  have hd' : (0 : ℚ) < d := by exact_mod_cast hd
  rw [div_le_iff₀ hd']
  exact_mod_cast le_ceilDiv_mul a hd

/-- Ray units in a wad unit. -/
def rayPerWad : Int := 10 ^ (rayDecimals - wadDecimals)

theorem rayPerWad_pos : 0 < rayPerWad := by decide

/-- The exact value in wad, as the rounded products go about it. -/
theorem exactValue_wad (shares index price : Int) :
    exactValue shares index price * wad =
      (shares * index : Int) / ray / rayPerWad * price / wad := by
  have hray : ray = rayPerWad * wad := by decide
  have hwad : ((wad : Int) : ℚ) ≠ 0 := by exact_mod_cast wad_pos.ne'
  have hunit : ((rayPerWad : Int) : ℚ) ≠ 0 := by exact_mod_cast rayPerWad_pos.ne'
  unfold exactValue
  rw [hray]
  generalize rayPerWad = unit at hunit
  generalize wad = w at hwad
  push_cast
  field_simp

theorem positionValueFloor_eq {shares index price value : Int} (hs : 0 ≤ shares) (hi : 0 ≤ index)
    (hv : positionValueFloor shares index price = .ok value) :
    value = shares * index / ray / rayPerWad * price / wad := by
  unfold positionValueFloor Ray.toWadFloor at hv
  simp only [Fallible.bind_ok_iff, Ray.mulFloor_ok_iff, Wad.mulFloor_ok_iff] at hv
  obtain ⟨actual, ⟨-, rfl⟩, actualWad, hwad, -, rfl⟩ := hv
  have h0 : 0 ≤ shares * index / ray := floor_nonneg ray_pos (mul_nonneg hs hi)
  rw [rescaleFloor_down h0 (by decide) (by decide), Except.ok.injEq] at hwad
  subst hwad
  rfl

/-- A floored value is at most the exact one. -/
theorem positionValueFloor_le {shares index price value : Int} (hs : 0 ≤ shares)
    (hi : 0 ≤ index) (hp : 0 ≤ price) (hv : positionValueFloor shares index price = .ok value) :
    0 ≤ value ∧ (value : ℚ) ≤ exactValue shares index price * wad := by
  obtain rfl := positionValueFloor_eq hs hi hv
  have h0 : 0 ≤ shares * index / ray := floor_nonneg ray_pos (mul_nonneg hs hi)
  have h1 := floor_nonneg rayPerWad_pos h0
  have hunit : (0 : ℚ) < (rayPerWad : Int) := by exact_mod_cast rayPerWad_pos
  have hwad' : (0 : ℚ) < (wad : Int) := by exact_mod_cast wad_pos
  have hp' : (0 : ℚ) ≤ price := by exact_mod_cast hp
  refine ⟨floor_nonneg wad_pos (mul_nonneg h1 hp), ?_⟩
  rw [exactValue_wad]
  refine (floor_le_div _ wad_pos).trans ?_
  rw [Int.cast_mul]
  gcongr
  refine (floor_le_div _ rayPerWad_pos).trans ?_
  gcongr
  exact floor_le_div _ ray_pos

theorem positionValueCeil_eq {shares index price value : Int} (hs : 0 ≤ shares) (hi : 0 ≤ index)
    (hv : positionValueCeil shares index price = .ok value) :
    value = ceilDiv (ceilDiv (ceilDiv (shares * index) ray) rayPerWad * price) wad := by
  obtain ⟨actual, hactual, hv⟩ := Fallible.bind_ok hv
  obtain ⟨-, rfl⟩ := Ray.mulCeil_ok_iff.mp hactual
  obtain ⟨actualWad, hactualWad, hv⟩ := Fallible.bind_ok hv
  have h0 : 0 ≤ ceilDiv (shares * index) ray := ceilDiv_nonneg ray_pos (mul_nonneg hs hi)
  obtain rfl : ceilDiv (ceilDiv (shares * index) ray) rayPerWad = actualWad :=
    Except.ok.inj ((rescaleCeil_down h0 (by decide) (by decide)).symm.trans hactualWad)
  exact (toI128_ok_iff.mp ((mulDivCeil_eq wad_pos).symm.trans hv)).2.symm

/-- A ceiled value is at least the exact one. -/
theorem le_positionValueCeil {shares index price value : Int} (hs : 0 ≤ shares)
    (hi : 0 ≤ index) (hp : 0 ≤ price) (hv : positionValueCeil shares index price = .ok value) :
    0 ≤ value ∧ exactValue shares index price * wad ≤ value := by
  obtain rfl := positionValueCeil_eq hs hi hv
  have h0 : 0 ≤ ceilDiv (shares * index) ray := ceilDiv_nonneg ray_pos (mul_nonneg hs hi)
  have h1 := ceilDiv_nonneg rayPerWad_pos h0
  have hunit : (0 : ℚ) < (rayPerWad : Int) := by exact_mod_cast rayPerWad_pos
  have hwad' : (0 : ℚ) < (wad : Int) := by exact_mod_cast wad_pos
  have hp' : (0 : ℚ) ≤ price := by exact_mod_cast hp
  refine ⟨ceilDiv_nonneg wad_pos (mul_nonneg h1 hp), ?_⟩
  rw [exactValue_wad]
  refine le_trans ?_ (div_le_ceilDiv _ wad_pos)
  rw [Int.cast_mul (ceilDiv (ceilDiv (shares * index) ray) rayPerWad) price]
  gcongr
  exact (div_le_div_of_nonneg_right (div_le_ceilDiv _ ray_pos) hunit.le).trans
    (div_le_ceilDiv _ rayPerWad_pos)

/-- Wad units in a basis point. -/
def wadPerBps : Int := 10 ^ 14

/-- A share of basis points is exact in wad, and what it is applied to is floored. -/
theorem applyToWadFloor_eq {ratio : Nat} {value r : Int}
    (hr : Bps.applyToWadFloor ratio value = .ok r) :
    r = value * ((ratio : Int) * wadPerBps) / wad := by
  unfold Bps.applyToWadFloor Bps.toWad at hr
  simp only [Fallible.bind_ok_iff, mulDivHalfUp_ok_iff, Wad.mulFloor_ok_iff] at hr
  obtain ⟨w, ⟨-, -, -, rfl, -⟩, -, rfl⟩ := hr
  have hsplit : (wad : Int) = wadPerBps * bps := by decide
  have hexact : halfUpDiv ((ratio : Int) * wad) bps = ratio * wadPerBps := by
    rw [hsplit, ← mul_assoc]
    exact halfUpDiv_mul_self _ bps_pos
  rw [hexact]

theorem applyToWadFloor_le {ratio : Nat} {value r : Int} (hv : 0 ≤ value)
    (hr : Bps.applyToWadFloor ratio value = .ok r) :
    0 ≤ r ∧ (r : ℚ) ≤ value * (ratio / bps) := by
  obtain rfl := applyToWadFloor_eq hr
  have h0 : 0 ≤ value * ((ratio : Int) * wadPerBps) :=
    mul_nonneg hv (mul_nonneg (Int.natCast_nonneg _) (by decide))
  refine ⟨floor_nonneg wad_pos h0, (floor_le_div _ wad_pos).trans (le_of_eq ?_)⟩
  have hbps : ((bps : Int) : ℚ) ≠ 0 := by exact_mod_cast bps_pos.ne'
  have hunit : ((wadPerBps : Int) : ℚ) ≠ 0 := by exact_mod_cast (by decide : wadPerBps ≠ 0)
  have hsplit : (wad : Int) = wadPerBps * bps := by decide
  rw [hsplit]
  push_cast
  field_simp

namespace Marks

variable {v : Marks} {supply : SortedMap HubAssetKey AccountPosition}
  {debt : SortedMap HubAssetKey DebtPosition}

def exactSupplyValue (v : Marks) (market : HubAssetKey) (position : AccountPosition) : ℚ :=
  exactValue position.scaledAmount (v.index market).supplyIndex (v.price market.asset)

def exactDebtValue (v : Marks) (market : HubAssetKey) (position : DebtPosition) : ℚ :=
  exactValue position.scaledAmount (v.index market).borrowIndex (v.price market.asset)

/-- The collateral, each position counted at its share of basis points. -/
def exactCollateral (v : Marks) (weight : AccountPosition → Nat)
    (supply : SortedMap HubAssetKey AccountPosition) : ℚ :=
  supply.sumBy fun market position => v.exactSupplyValue market position * (weight position / bps)

def exactDebt (v : Marks) (debt : SortedMap HubAssetKey DebtPosition) : ℚ :=
  debt.sumBy fun market position => v.exactDebtValue market position

theorem addCollateral_bounds {sums sums' : Int × Int × Int} {e : HubAssetKey × AccountPosition}
    (hp : 0 ≤ v.price e.1.asset) (h : v.addCollateral sums e = .ok sums') :
    sums.2.1 ≤ sums'.2.1 ∧ sums.2.2 ≤ sums'.2.2 ∧
      (sums'.2.1 : ℚ) ≤ sums.2.1 + v.exactSupplyValue e.1 e.2 *
        ((min e.2.loanToValue e.2.liquidationThreshold : Nat) / bps) * wad ∧
      (sums'.2.2 : ℚ) ≤
        sums.2.2 + v.exactSupplyValue e.1 e.2 * (e.2.liquidationThreshold / bps) * wad := by
  obtain ⟨market, position⟩ := e
  unfold addCollateral at h
  obtain ⟨value, hvalue, h⟩ := Fallible.bind_ok h
  obtain ⟨gate, hgate, h⟩ := Fallible.bind_ok h
  simp only [Fallible.bind_ok_iff, Wad.checkedAdd, checkedAddRaw_ok_iff, Fallible.pure_ok_iff] at h
  obtain ⟨_, -, l, hl, _, ⟨-, rfl⟩, w, hw, _, ⟨-, rfl⟩, rfl⟩ := h
  -- The half-up value is defined on what is not negative only.
  unfold positionValue at hvalue
  obtain ⟨actual, hactual, -⟩ := Fallible.bind_ok hvalue
  obtain ⟨hs, hi, -⟩ := Ray.mul_ok_iff.mp hactual
  obtain ⟨hgate0, hgate⟩ := positionValueFloor_le hs hi hp hgate
  obtain ⟨hl0, hl⟩ := applyToWadFloor_le hgate0 hl
  obtain ⟨hw0, hw⟩ := applyToWadFloor_le hgate0 hw
  have hweigh : ∀ {r : Int} {n : Nat}, (r : ℚ) ≤ gate * (n / bps) →
      (r : ℚ) ≤ v.exactSupplyValue market position * (n / bps) * wad := by
    intro r n hr
    have hbps : (0 : ℚ) < (bps : Int) := by exact_mod_cast bps_pos
    have hn : (0 : ℚ) ≤ (n : ℚ) / bps := by positivity
    calc (r : ℚ) ≤ gate * (n / bps) := hr
      _ ≤ v.exactSupplyValue market position * wad * (n / bps) :=
        mul_le_mul_of_nonneg_right hgate hn
      _ = v.exactSupplyValue market position * (n / bps) * wad := by ring
  dsimp only
  refine ⟨by omega, by omega, ?_, ?_⟩
  · rw [Int.cast_add]
    exact add_le_add_right (hweigh hl) _
  · rw [Int.cast_add]
    exact add_le_add_right (hweigh hw) _

/-- Nothing that is valued is negative. -/
structure Nonneg (v : Marks) (supply : SortedMap HubAssetKey AccountPosition)
    (debt : SortedMap HubAssetKey DebtPosition) : Prop where
  price : ∀ asset, 0 ≤ v.price asset
  supply : ∀ e ∈ supply.entries, 0 ≤ e.2.scaledAmount ∧ 0 ≤ (v.index e.1).supplyIndex
  debt : ∀ e ∈ debt.entries, 0 ≤ e.2.scaledAmount ∧ 0 ≤ (v.index e.1).borrowIndex

theorem sumCollateral_bounds {l : List (HubAssetKey × AccountPosition)}
    {sums sums' : Int × Int × Int} (hp : ∀ asset, 0 ≤ v.price asset)
    (h : l.foldlM v.addCollateral sums = .ok sums') :
    sums.2.1 ≤ sums'.2.1 ∧ sums.2.2 ≤ sums'.2.2 ∧
      (sums'.2.1 : ℚ) ≤ sums.2.1 + (l.map fun e => v.exactSupplyValue e.1 e.2 *
        ((min e.2.loanToValue e.2.liquidationThreshold : Nat) / bps)).sum * wad ∧
      (sums'.2.2 : ℚ) ≤ sums.2.2 + (l.map fun e =>
        v.exactSupplyValue e.1 e.2 * (e.2.liquidationThreshold / bps)).sum * wad := by
  induction l generalizing sums with
  | nil =>
    obtain rfl := Except.ok.inj h
    simp
  | cons e l ih =>
    rw [List.foldlM_cons] at h
    obtain ⟨sums1, h1, hrest⟩ := Fallible.bind_ok h
    obtain ⟨hl0, hw0, hl, hw⟩ := addCollateral_bounds (hp _) h1
    obtain ⟨hl0', hw0', hl', hw'⟩ := ih hrest
    rw [List.map_cons, List.sum_cons, add_mul, List.map_cons, List.sum_cons, add_mul]
    refine ⟨hl0.trans hl0', hw0.trans hw0', ?_, ?_⟩
    · linarith
    · linarith

theorem sumDebt_bounds {l : List (HubAssetKey × DebtPosition)} {total total' : Int}
    (hp : ∀ asset, 0 ≤ v.price asset)
    (hl : ∀ e ∈ l, 0 ≤ e.2.scaledAmount ∧ 0 ≤ (v.index e.1).borrowIndex)
    (h : l.foldlM v.addDebt total = .ok total') :
    total ≤ total' ∧
      total + (l.map fun e => v.exactDebtValue e.1 e.2).sum * wad ≤ (total' : ℚ) := by
  induction l generalizing total with
  | nil =>
    obtain rfl := Except.ok.inj h
    simp
  | cons e l ih =>
    rw [List.foldlM_cons] at h
    obtain ⟨total1, h1, hrest⟩ := Fallible.bind_ok h
    obtain ⟨value, hvalue, h1⟩ := Fallible.bind_ok h1
    obtain ⟨-, rfl⟩ := checkedAddRaw_ok_iff.mp h1
    obtain ⟨hs, hi⟩ := hl e List.mem_cons_self
    obtain ⟨hv0, hv⟩ := le_positionValueCeil hs hi (hp _) hvalue
    obtain ⟨h0, hle⟩ := ih (fun e he => hl e (List.mem_cons_of_mem _ he)) hrest
    refine ⟨by omega, ?_⟩
    rw [List.map_cons, List.sum_cons, add_mul]
    have hvalue' : v.exactDebtValue e.1 e.2 * wad ≤ (value : ℚ) := hv
    push_cast at hle
    linarith

/-- **Rounding.** Collateral is counted at no more than its exact value, debt at no less. -/
theorem totals_bounds {totals : Risk.AccountRiskTotals} (hn : v.Nonneg supply debt)
    (h : v.totals supply debt = .ok totals) :
    (totals.ltvCollateral : ℚ) ≤
        v.exactCollateral (fun p => min p.loanToValue p.liquidationThreshold) supply * wad ∧
      (totals.weightedCollateral : ℚ) ≤
        v.exactCollateral AccountPosition.liquidationThreshold supply * wad ∧
      v.exactDebt debt * wad ≤ totals.totalDebt ∧ 0 ≤ totals.weightedCollateral ∧
      0 ≤ totals.totalDebt ∧
      (totals.totalDebt ≠ 0 → Wad.divFloorSaturating totals.weightedCollateral totals.totalDebt =
        .ok totals.healthFactor) := by
  unfold Marks.totals at h
  obtain ⟨sums, hsums, h⟩ := Fallible.bind_ok h
  obtain ⟨total, htotal, h⟩ := Fallible.bind_ok h
  obtain ⟨hf, hhf, h⟩ := Fallible.bind_ok h
  obtain rfl := Except.ok.inj h
  obtain ⟨-, hw0, hl, hw⟩ := sumCollateral_bounds hn.price hsums
  obtain ⟨hd0, hd⟩ := sumDebt_bounds hn.price hn.debt htotal
  have hz : ((Wad.zero : Int) : ℚ) = 0 := Int.cast_zero
  dsimp only at hw0 hl hw
  rw [hz, zero_add] at hl hw hd
  refine ⟨hl, hw, hd, hw0, hd0, fun hne => ?_⟩
  have hne' : total ≠ Wad.zero := hne
  rwa [if_neg hne'] at hhf

/-- What the gates of a flow require of an account, at given marks. -/
def Clears (v : Marks) (supply : SortedMap HubAssetKey AccountPosition)
    (debt : SortedMap HubAssetKey DebtPosition) : Prop :=
  debt.isEmpty = true ∨ ∃ totals, v.totals supply debt = .ok totals ∧
    totals.totalDebt ≤ totals.ltvCollateral ∧ wad ≤ totals.healthFactor

theorem exactCollateral_nonneg {weight : AccountPosition → Nat} (hn : v.Nonneg supply debt) :
    0 ≤ v.exactCollateral weight supply := by
  refine SortedMap.sumBy_nonneg fun market position hget => ?_
  obtain ⟨hs, hi⟩ := hn.supply _ (SortedMap.mem_entries.mpr hget)
  have hbps : (0 : ℚ) < (bps : Int) := by exact_mod_cast bps_pos
  exact mul_nonneg (exactValue_nonneg hs hi (hn.price _)) (by positivity)

/-- More weight counts for more. -/
theorem exactCollateral_mono {weight weight' : AccountPosition → Nat} (hn : v.Nonneg supply debt)
    (hle : ∀ p, weight p ≤ weight' p) :
    v.exactCollateral weight supply ≤ v.exactCollateral weight' supply := by
  unfold exactCollateral SortedMap.sumBy
  refine List.sum_le_sum fun e he => ?_
  obtain ⟨hs, hi⟩ := hn.supply e he
  have hbps : (0 : ℚ) < (bps : Int) := by exact_mod_cast bps_pos
  have hw : (weight e.2 : ℚ) ≤ weight' e.2 := by exact_mod_cast hle e.2
  exact mul_le_mul_of_nonneg_left (div_le_div_of_nonneg_right hw hbps.le)
    (exactValue_nonneg hs hi (hn.price _))

/-- **What clears the gates is covered.** -/
theorem Clears.exact (hc : v.Clears supply debt) (hn : v.Nonneg supply debt) :
    v.exactDebt debt ≤ v.exactCollateral (fun p => min p.loanToValue p.liquidationThreshold)
        supply ∧
      v.exactDebt debt ≤ v.exactCollateral AccountPosition.liquidationThreshold supply := by
  rcases hc with hempty | ⟨totals, htotals, hltv, hhf⟩
  · have hzero : v.exactDebt debt = 0 := by
      rw [SortedMap.isEmpty_iff.mp hempty]
      rfl
    rw [hzero]
    exact ⟨exactCollateral_nonneg hn, exactCollateral_nonneg hn⟩
  · obtain ⟨hl, hw, hd, hw0, hd0, hf⟩ := totals_bounds hn htotals
    have hwad : (0 : ℚ) < (wad : Int) := by exact_mod_cast wad_pos
    have hltv' : (totals.totalDebt : ℚ) ≤ totals.ltvCollateral := by exact_mod_cast hltv
    have hweighted : totals.totalDebt ≤ totals.weightedCollateral := by
      rcases hd0.eq_or_lt with hz | hpos
      · omega
      · have hdiv := hf hpos.ne'
        unfold Wad.divFloorSaturating at hdiv
        rw [mulDivFloorSaturating_eq hpos hw0 wad_pos.le, Except.ok.injEq] at hdiv
        have hle : wad ≤ totals.weightedCollateral * wad / totals.totalDebt := by omega
        have hmul := (Int.le_ediv_iff_mul_le hpos).mp hle
        exact le_of_mul_le_mul_right (by linarith) wad_pos
    have hweighted' : (totals.totalDebt : ℚ) ≤ totals.weightedCollateral := by
      exact_mod_cast hweighted
    exact ⟨le_of_mul_le_mul_right (hd.trans (hltv'.trans hl)) hwad,
      le_of_mul_le_mul_right (hd.trans (hweighted'.trans hw)) hwad⟩

end Marks

end Lending
