import LendingXlm.Controller.Liquidation.Curve

/-!
# Trimming excess payment

What `process_excess_payment` leaves of a plan whose value is above the quote:

* `Credited`: what planning credits an entry with, half up or at the floor of its debt
  (`planRepayment_credited`);
* `cutEntry_keeps`, `cutEntry_bounds`: the value left of the entry that is cut;
* `trimEntries_split`: where the backward loop stops;
* `excess_trimming`: the plan that is left, and its value.
-/

namespace Lending

open FpCore Rounding Ctrl Invocation Context

variable {W : Type} {h : ControllerHost W} {timestamp : Nat} {pool : PoolCtx W}

/-! ## Values of entries -/

namespace RepayEntry

/-- One native unit of the entry's asset in wad. -/
def unitWad (e : RepayEntry) : Int := 10 ^ (wadDecimals - e.feed.assetDecimals)

def amountWad (e : RepayEntry) : Int := e.amount * e.unitWad

/-- What the amount is worth, unrounded. -/
def worth (e : RepayEntry) : ℚ := e.amountWad * e.feed.price / wad

def unitWorth (e : RepayEntry) : ℚ := e.unitWad * e.feed.price / wad

theorem unitWad_pos (e : RepayEntry) : 0 < e.unitWad := by
  unfold unitWad
  positivity

end RepayEntry

namespace Liquidation

/-- The value an entry is credited with: what its amount is worth, or at a debt's cap up to one
native unit less. -/
structure Credited (e : RepayEntry) : Prop where
  decimals_le : e.feed.assetDecimals ≤ wadDecimals
  amount_pos : 0 < e.amount
  amount_le : e.amount ≤ i128Max
  price_pos : 0 < e.feed.price
  usd_nonneg : 0 ≤ e.usdWad
  usd_le : 2 * (e.usdWad * wad) ≤ 2 * (e.amountWad * e.feed.price) + wad
  le_usd : e.amountWad * e.feed.price ≤ (e.usdWad + 1) * wad + e.unitWad * e.feed.price

theorem Credited.cuttable {e : RepayEntry} (he : Credited e) : Cuttable e :=
  ⟨he.decimals_le, he.amount_pos, fun _ => he.price_pos⟩

/-! ## What planning credits -/

theorem usdValueWad_ok {feed : PriceFeed} {amount usd : Int} (hd : feed.assetDecimals ≤ wadDecimals)
    (hu : feed.usdValueWad amount = .ok usd) :
    0 ≤ amount * 10 ^ (wadDecimals - feed.assetDecimals) * feed.price ∧
      usd = halfUpDiv (amount * 10 ^ (wadDecimals - feed.assetDecimals) * feed.price) wad := by
  unfold PriceFeed.usdValueWad at hu
  obtain ⟨a, ha, hu⟩ := Fallible.bind_ok hu
  obtain rfl := fromToken_ok hd ha
  obtain ⟨h0, hp, rfl, -⟩ := Wad.mul_ok_iff.mp hu
  exact ⟨mul_nonneg h0 hp, rfl⟩

/-- The floor value of a debt and its ceiling-rounded amount are less than a unit apart. -/
theorem floor_credit {scaled index price usd debt : Int} {d : Nat} (hd : d ≤ wadDecimals)
    (hs : 0 ≤ scaled) (hi : 0 ≤ index) (hp : 0 ≤ price)
    (hdebt : unscaleBorrowCeil scaled index d = .ok debt)
    (husd : positionValueFloor scaled index price = .ok usd) :
    0 ≤ usd ∧ usd * wad ≤ debt * 10 ^ (wadDecimals - d) * price ∧
      debt * 10 ^ (wadDecimals - d) * price ≤
        (usd + 1) * wad + 10 ^ (wadDecimals - d) * price := by
  obtain ⟨-, rfl⟩ := (unscaleBorrowCeil_ok_iff hd hs hi).mp hdebt
  unfold positionValueFloor Ray.toWadFloor at husd
  simp only [Fallible.bind_ok_iff, Ray.mulFloor_ok_iff, Wad.mulFloor_ok_iff] at husd
  obtain ⟨actual, ⟨-, rfl⟩, actualWad, hwad, -, rfl⟩ := husd
  have h0 : 0 ≤ scaled * index / ray := floor_nonneg ray_pos (mul_nonneg hs hi)
  rw [rescaleFloor_down h0 (by decide) (by decide), Except.ok.injEq] at hwad
  set unit : Int := 10 ^ (wadDecimals - d) with hunit
  have hu : 0 < unit := by positivity
  have hasset : assetUnit d = 10 ^ (rayDecimals - wadDecimals) * unit := by
    rw [hunit, assetUnit, ← pow_add]
    simp only [rayDecimals, wadDecimals] at hd ⊢
    congr 1
    omega
  set nine : Int := 10 ^ (rayDecimals - wadDecimals)
  have hn : 0 < nine := by positivity
  have ha := assetUnit_pos d
  -- Down: the amount is at least the floored wad value.
  have hlow : actualWad ≤ ceilDiv (ceilDiv (scaled * index) ray) (assetUnit d) * unit := by
    have h1 := le_ceilDiv_mul (ceilDiv (scaled * index) ray) ha
    have h2 := floor_le_ceilDiv (a := scaled * index) ray_pos
    have h3 := floor_mul_le (scaled * index / ray) hn
    rw [hwad] at h3
    rw [hasset] at h1 ⊢
    refine le_of_mul_le_mul_right ?_ hn
    calc actualWad * nine ≤ scaled * index / ray := h3
      _ ≤ ceilDiv (scaled * index) ray := h2
      _ ≤ _ := h1
      _ = _ := by ring
  -- Up: it is at most one native unit above.
  have hhigh : ceilDiv (ceilDiv (scaled * index) ray) (assetUnit d) * unit ≤ actualWad + unit := by
    have h1 := ceilDiv_mul_lt (ceilDiv (scaled * index) ray) ha
    have h2 := ceilDiv_le_floor_add_one (a := scaled * index) ray_pos
    have h3 := lt_floor_mul_add (scaled * index / ray) hn
    rw [hwad] at h3
    rw [hasset] at h1 ⊢
    refine Int.le_of_lt_add_one (lt_of_mul_lt_mul_right ?_ hn.le)
    calc _ = ceilDiv (ceilDiv (scaled * index) ray) (nine * unit) * (nine * unit) := by ring
      _ < ceilDiv (scaled * index) ray + nine * unit := h1
      _ ≤ actualWad * nine + nine + nine * unit := by omega
      _ = _ := by ring
  have hw0 : 0 ≤ actualWad := hwad ▸ floor_nonneg hn h0
  have hfloor := floor_mul_le (actualWad * price) wad_pos
  have hceil := lt_floor_mul_add (actualWad * price) wad_pos
  have hl := mul_le_mul_of_nonneg_right hlow hp
  have hh := mul_le_mul_of_nonneg_right hhigh hp
  refine ⟨floor_nonneg wad_pos (mul_nonneg hw0 hp), hfloor.trans hl, ?_⟩
  linarith

section
variable {account : Account}

/-- Every planned entry is credited with what it is worth, or at the cap. -/
theorem planRepayment_credited (hrun : MarketsRun timestamp pool.markets)
    (hfeeds : h.FeedsMatch pool) (hprices : h.PositivePrices) (hpos : account.Positive)
    {acc : RepaymentAcc} {payment : HubPayment} (hpay : 0 < payment.2)
    (hacc : ∀ e ∈ acc.repaid, Credited e) :
    Answers h timestamp pool (planRepayment timestamp account acc payment) fun acc' =>
      ∀ e ∈ acc'.repaid, Credited e := by
  obtain ⟨hubAsset, amount⟩ := payment
  refine .bind cachedPrice_answers fun feed hrep => .bind cachedMarketIndex_answers
    fun index hcur => .bind (.lift fun position hget => hget) fun position hget =>
    .bind (.lift fun debt hdebt => hdebt) fun debt hdebt => ?_
  rw [Fallible.orThrow_ok_iff] at hget
  have hbi := borrowIndex_pos hrun hcur
  have hscaled := hpos.debt hget
  have hd := decimals_le hrun hfeeds hcur hrep
  have hp := hprices hrep
  have hdpos := unscaleBorrowCeil_pos hd hscaled hbi hdebt
  have hdmax : debt ≤ i128Max := by
    obtain ⟨hmax, rfl⟩ := (unscaleBorrowCeil_ok_iff hd hscaled.le hbi.le).mp hdebt
    have hunit := assetUnit_pos feed.assetDecimals
    refine (ceilDiv_le_iff hunit).mpr (hmax.trans ?_)
    exact le_mul_of_one_le_right (by decide) (by omega)
  refine .bind (.lift fun usd husd => husd) fun usd husd => .skip .lift fun total =>
    .pure fun e he => ?_
  rcases List.mem_append.mp he with he | he
  · exact hacc e he
  obtain rfl := List.mem_singleton.mp he
  have hunit : (0 : Int) < 10 ^ (wadDecimals - feed.assetDecimals) := by positivity
  have hgap : (0 : Int) < 10 ^ (wadDecimals - feed.assetDecimals) * feed.price := mul_pos hunit hp
  have hw := wad_pos
  set unit : Int := 10 ^ (wadDecimals - feed.assetDecimals)
  suffices hsuf : 0 ≤ usd ∧ 2 * (usd * wad) ≤ 2 * (min amount debt * unit * feed.price) + wad ∧
      min amount debt * unit * feed.price ≤ (usd + 1) * wad + unit * feed.price from
    ⟨hd, lt_min hpay hdpos, (min_le_right _ _).trans hdmax, hp, hsuf.1, hsuf.2.1, hsuf.2.2⟩
  split at husd
  · rename_i heq
    obtain ⟨h0, hle, hge⟩ := floor_credit hd hscaled.le hbi.le hp.le hdebt husd
    rw [heq]
    exact ⟨h0, by linarith, hge⟩
  · obtain ⟨h0, rfl⟩ := usdValueWad_ok hd husd
    have hle := halfUpDiv_mul_le (min amount debt * unit * feed.price) hw
    have hge := le_halfUpDiv_mul (min amount debt * unit * feed.price) hw
    exact ⟨halfUpDiv_nonneg hw h0, by linarith, by linarith⟩

theorem calculateRepaymentAmounts_credited (hrun : MarketsRun timestamp pool.markets)
    (hfeeds : h.FeedsMatch pool) (hprices : h.PositivePrices) (hpos : account.Positive)
    {rawPayments : List HubPayment} :
    Answers h timestamp pool (calculateRepaymentAmounts timestamp rawPayments account) fun acc =>
      ∀ e ∈ acc.repaid, Credited e := by
  refine .bind (.lift fun merged hm => aggregatePositivePayments_merged hm) fun merged hm => ?_
  refine Answers.foldlM (P := fun (acc : RepaymentAcc) _ => ∀ e ∈ acc.repaid, Credited e)
    (fun acc payment rest hmem hacc => ?_) _ (by simp)
  exact planRepayment_credited hrun hfeeds hprices hpos (hm.positive payment hmem) hacc

end

/-! ## The entry that is cut -/

section
variable {e : RepayEntry} {excess amount usd : Int} {keep : Bool}

/-- The value left is the amount's, and never above the credit. -/
theorem cutEntry_usd (he : Credited e) (hc : cutEntry e excess keep = .ok (amount, usd)) :
    0 ≤ amount * e.unitWad * e.feed.price ∧
      usd = min (halfUpDiv (amount * e.unitWad * e.feed.price) wad) e.usdWad := by
  unfold cutEntry at hc
  obtain ⟨newAmount, -, hc⟩ := Fallible.bind_ok hc
  obtain ⟨a, ha, hc⟩ := Fallible.bind_ok hc
  obtain ⟨v, hv, hc⟩ := Fallible.bind_ok hc
  simp only [Fallible.pure_ok_iff, Prod.mk.injEq] at hc
  obtain ⟨rfl, rfl⟩ := hc
  obtain rfl := fromToken_ok he.decimals_le ha
  obtain ⟨h0, hp, rfl, -⟩ := Wad.mul_ok_iff.mp hv
  exact ⟨mul_nonneg h0 hp, rfl⟩

/-- What is kept within a quote is worth at most the quote. -/
theorem cutEntry_keeps (he : Credited e) (hlt : excess < e.usdWad)
    (hc : cutEntry e excess true = .ok (amount, usd)) : usd ≤ e.usdWad - excess := by
  obtain ⟨-, husd⟩ := cutEntry_usd he hc
  have hp := he.price_pos
  have hunit := e.unitWad_pos
  unfold cutEntry at hc
  simp only [if_true, Fallible.bind_ok_iff, Fallible.pure_ok_iff, Prod.mk.injEq, Wad.checkedSub,
    checkedSubNonneg_ok_iff, Wad.divFloor_ok_iff hp] at hc
  obtain ⟨-, ⟨v, ⟨-, -, -, rfl⟩, q, ⟨-, rfl⟩, kept, hkept, rfl⟩, -, -, -, -, rfl, -⟩ := hc
  have hq : 0 ≤ (e.usdWad - excess) * wad / e.feed.price :=
    floor_nonneg hp (mul_nonneg (by omega) wad_pos.le)
  have hkept := toTokenFloor_ok he.decimals_le hq hkept
  change kept = _ / e.unitWad at hkept
  have h1 : kept * e.unitWad ≤ (e.usdWad - excess) * wad / e.feed.price :=
    hkept ▸ floor_mul_le _ hunit
  have h2 : kept * e.unitWad * e.feed.price ≤ (e.usdWad - excess) * wad :=
    (mul_le_mul_of_nonneg_right h1 hp.le).trans (floor_mul_le _ hp)
  have h3 : min kept e.amount * e.unitWad * e.feed.price ≤ (e.usdWad - excess) * wad :=
    (mul_le_mul_of_nonneg_right (mul_le_mul_of_nonneg_right (min_le_left _ _) hunit.le)
      hp.le).trans h2
  rw [husd]
  refine (min_le_left _ _).trans ((halfUpDiv_mono wad_pos h3).trans ?_)
  exact (halfUpDiv_mul_self _ wad_pos).le

/-- What a cut by ratio leaves: the proportional part, rounded up by less than a unit and a
`10^-18` part of the amount. -/
theorem cutEntry_amount (he : Credited e) (hexc : 0 < excess) (hlt : excess < e.usdWad)
    (hc : cutEntry e excess false = .ok (amount, usd)) :
    e.amountWad * (e.usdWad - excess) ≤ amount * e.unitWad * e.usdWad ∧
      amount * e.unitWad * wad * e.usdWad ≤
        e.amountWad * wad * (e.usdWad - excess) + (e.amountWad + e.unitWad * wad) * e.usdWad := by
  have hU : 0 < e.usdWad := hexc.trans hlt
  have hunit := e.unitWad_pos
  have hw := wad_pos
  unfold cutEntry at hc
  simp only [Bool.false_eq_true, if_false, Fallible.bind_ok_iff, Fallible.pure_ok_iff,
    Prod.mk.injEq, Wad.divFloor_ok_iff hU, Wad.mulFloor_ok_iff] at hc
  obtain ⟨-, ⟨ratio, ⟨-, hratio⟩, whole, hwhole, scaled, ⟨-, hscaled⟩, cut, hcut, rfl⟩, -, -, -,
    -, rfl, -⟩ := hc
  obtain rfl := fromToken_ok he.decimals_le hwhole
  change e.amountWad * ratio / wad = scaled at hscaled
  have hA : 0 ≤ e.amountWad := mul_nonneg he.amount_pos.le hunit.le
  have hr0 : 0 ≤ ratio := hratio ▸ floor_nonneg hU (mul_nonneg hexc.le hw.le)
  have hs0 : 0 ≤ scaled := hscaled ▸ floor_nonneg hw (mul_nonneg hA hr0)
  have hcut := toTokenFloor_ok he.decimals_le hs0 hcut
  change cut = scaled / e.unitWad at hcut
  -- The ratio, its product and the native units are all floored.
  have hr1 : ratio * e.usdWad ≤ excess * wad := hratio ▸ floor_mul_le _ hU
  have hr2 : excess * wad < ratio * e.usdWad + e.usdWad := hratio ▸ lt_floor_mul_add _ hU
  have hs1 : scaled * wad ≤ e.amountWad * ratio := hscaled ▸ floor_mul_le _ hw
  have hs2 : e.amountWad * ratio < scaled * wad + wad := hscaled ▸ lt_floor_mul_add _ hw
  have hc1 : cut * e.unitWad ≤ scaled := hcut ▸ floor_mul_le _ hunit
  have hc2 : scaled + 1 ≤ cut * e.unitWad + e.unitWad := by
    have := lt_floor_mul_add scaled hunit
    rw [← hcut] at this
    omega
  have hrest : (e.amount - cut) * e.unitWad = e.amountWad - cut * e.unitWad := by
    unfold RepayEntry.amountWad
    ring
  rw [hrest]
  constructor
  · refine le_of_mul_le_mul_right ?_ hw
    have h1 := mul_le_mul_of_nonneg_right (mul_le_mul_of_nonneg_right hc1 hw.le) hU.le
    have h2 := mul_le_mul_of_nonneg_right hs1 hU.le
    have h3 := mul_le_mul_of_nonneg_left hr1 hA
    linarith
  · have h1 := mul_le_mul_of_nonneg_right (mul_le_mul_of_nonneg_right hc2 hw.le) hU.le
    have h2 := mul_le_mul_of_nonneg_right hs2.le hU.le
    have h3 := mul_le_mul_of_nonneg_left hr2.le hA
    linarith

/-- A cut by ratio keeps the quote up to one raw unit. -/
theorem cutEntry_low (he : Credited e) (hexc : 0 < excess) (hlt : excess < e.usdWad)
    (hc : cutEntry e excess false = .ok (amount, usd)) : e.usdWad - excess - 1 ≤ usd := by
  obtain ⟨-, husd⟩ := cutEntry_usd he hc
  have hlow := mul_le_mul_of_nonneg_right (cutEntry_amount he hexc hlt hc).1 he.price_pos.le
  have hU : 0 < e.usdWad := hexc.trans hlt
  have hcredit := mul_le_mul_of_nonneg_right he.usd_le (show 0 ≤ e.usdWad - excess by omega)
  rw [husd]
  refine le_min ?_ (by omega)
  have hround := le_halfUpDiv_mul (amount * e.unitWad * e.feed.price) wad_pos
  set kept := halfUpDiv (amount * e.unitWad * e.feed.price) wad
  -- Half a unit is lost on the credit and half on the value left.
  have hkept : (2 * (e.usdWad - excess) - 1) * wad ≤ 2 * (amount * e.unitWad * e.feed.price) := by
    refine le_of_mul_le_mul_right ?_ hU
    have hshare : (e.usdWad - excess) * wad ≤ e.usdWad * wad :=
      mul_le_mul_of_nonneg_right (by omega) wad_pos.le
    linarith
  refine Int.le_of_lt_add_one (lt_of_mul_lt_mul_right ?_ wad_pos.le)
  have hw := wad_pos
  linarith

/-- It keeps at most the quote, the entry's slack, and the value of one native unit and of a
`10^-18` part of the amount, up to the rounding of the value. -/
theorem cutEntry_high (slack : Int) (he : Credited e) (hexc : 0 < excess) (hlt : excess < e.usdWad)
    (hslack : 0 ≤ slack) (hworth : e.amountWad * e.feed.price ≤ e.usdWad * wad + slack)
    (hc : cutEntry e excess false = .ok (amount, usd)) :
    2 * (usd * wad * wad) ≤ 2 * ((e.usdWad - excess) * wad * wad) + 2 * (slack * wad) +
      2 * ((e.amountWad + e.unitWad * wad) * e.feed.price) + wad * wad := by
  obtain ⟨-, husd⟩ := cutEntry_usd he hc
  have hU : 0 < e.usdWad := hexc.trans hlt
  have hw := wad_pos
  have hhigh := mul_le_mul_of_nonneg_right (cutEntry_amount he hexc hlt hc).2 he.price_pos.le
  have hround := halfUpDiv_mul_le (amount * e.unitWad * e.feed.price) hw
  set kept := halfUpDiv (amount * e.unitWad * e.feed.price) wad
  have husd' : usd * wad * wad ≤ kept * wad * wad :=
    mul_le_mul_of_nonneg_right (mul_le_mul_of_nonneg_right (husd ▸ min_le_left _ _) hw.le) hw.le
  have hround' := mul_le_mul_of_nonneg_right hround hw.le
  -- The part that stays is at most the credit's, and a share of the slack.
  have hpart : amount * e.unitWad * e.feed.price * wad ≤ (e.usdWad - excess) * wad * wad +
      slack * wad + (e.amountWad + e.unitWad * wad) * e.feed.price := by
    refine le_of_mul_le_mul_right ?_ hU
    have h1 := mul_le_mul_of_nonneg_right hworth
      (show 0 ≤ wad * (e.usdWad - excess) from mul_nonneg hw.le (by omega))
    have h2 : 0 ≤ slack * wad * excess := mul_nonneg (mul_nonneg hslack hw.le) hexc.le
    linarith
  linarith

theorem cutEntry_zero (he : Credited e) (hc : cutEntry e excess keep = .ok (0, usd)) :
    usd = 0 := by
  obtain ⟨-, husd⟩ := cutEntry_usd he hc
  rw [zero_mul, zero_mul, halfUpDiv_zero wad_pos, min_eq_left he.usd_nonneg] at husd
  exact husd

/-- What a cut by ratio leaves is worth something. -/
theorem cutEntry_pos (he : Credited e) (hexc : 0 < excess) (hlt : excess < e.usdWad)
    (hc : cutEntry e excess false = .ok (amount, usd)) : 0 < usd := by
  obtain ⟨-, husd⟩ := cutEntry_usd he hc
  have hlow := mul_le_mul_of_nonneg_right (cutEntry_amount he hexc hlt hc).1 he.price_pos.le
  have hw := wad_pos
  have hround := le_halfUpDiv_mul (amount * e.unitWad * e.feed.price) hw
  set kept := halfUpDiv (amount * e.unitWad * e.feed.price) wad
  rw [husd]
  refine lt_min ?_ (hexc.trans hlt)
  by_contra hkept
  -- The credit is at least two, so one of its parts is worth more than half a unit.
  have hhalf : 2 * (amount * e.unitWad * e.feed.price) ≤ wad :=
    hround.trans (by linarith [mul_nonpos_of_nonpos_of_nonneg (not_lt.mp hkept) hw.le])
  have hall := mul_le_mul_of_nonneg_right hhalf (hexc.trans hlt).le
  have hcredit := mul_le_mul_of_nonneg_right he.usd_le (show 0 ≤ e.usdWad - excess by omega)
  have htwo : 2 * wad ≤ e.usdWad * wad := mul_le_mul_of_nonneg_right (by omega) hw.le
  have hone : 2 * (e.usdWad * wad) - wad ≤ (2 * (e.usdWad * wad) - wad) * (e.usdWad - excess) :=
    le_mul_of_one_le_right (by omega) (by omega)
  linarith

/-- What is left of an entry is credited as the entry was. -/
theorem cutEntry_credited (he : Credited e) (hexc : 0 < excess) (hlt : excess < e.usdWad)
    (hne : amount ≠ 0) (hc : cutEntry e excess keep = .ok (amount, usd)) :
    Credited { e with
      amount := amount
      usdWad := usd } := by
  obtain ⟨h0, hle, -⟩ := cutEntry_ok he.cuttable hexc hlt hc
  obtain ⟨hworth, husd⟩ := cutEntry_usd he hc
  have hunit := e.unitWad_pos
  have hround := halfUpDiv_mul_le (amount * e.unitWad * e.feed.price) wad_pos
  have hround' := le_halfUpDiv_mul (amount * e.unitWad * e.feed.price) wad_pos
  set value := halfUpDiv (amount * e.unitWad * e.feed.price) wad
  have hw := wad_pos
  have hunitWorth := mul_pos hunit he.price_pos
  have hvalue : 0 ≤ value := halfUpDiv_nonneg hw hworth
  refine ⟨he.decimals_le, by dsimp only; omega, hle.trans he.amount_le, he.price_pos,
    husd ▸ le_min hvalue he.usd_nonneg, ?_, ?_⟩
  · have := mul_le_mul_of_nonneg_right (husd ▸ min_le_left value e.usdWad) hw.le
    change 2 * (usd * wad) ≤ 2 * (amount * e.unitWad * e.feed.price) + wad
    linarith
  · change amount * e.unitWad * e.feed.price ≤ (usd + 1) * wad + e.unitWad * e.feed.price
    rcases le_total value e.usdWad with hmin | hmin
    · rw [min_eq_left hmin] at husd
      rw [husd]
      linarith
    · rw [min_eq_right hmin] at husd
      rw [husd]
      refine le_trans (mul_le_mul_of_nonneg_right ?_ he.price_pos.le) he.le_usd
      exact mul_le_mul_of_nonneg_right hle hunit.le

end

/-! ## Trimming returns -/

theorem fromToken_part {amount part r : Int} {d : Nat} (hd : d ≤ wadDecimals)
    (hr : Wad.fromToken amount d = .ok r) (h0 : 0 ≤ part) (hle : part ≤ amount) :
    Wad.fromToken part d = .ok (part * 10 ^ (wadDecimals - d)) := by
  unfold Wad.fromToken at hr ⊢
  rcases hd.eq_or_lt with rfl | hlt
  · rw [rescaleHalfUp, rescale_same]
    simp
  · have hpow : (0 : Int) ≤ 10 ^ (wadDecimals - d) := by positivity
    have hsmall : wadDecimals - d ≤ 38 := by simp only [wadDecimals]; omega
    rw [rescaleHalfUp_up hlt hsmall, toI128_ok_iff] at hr
    rw [rescaleHalfUp_up hlt hsmall, toI128_ok_iff]
    refine ⟨inI128_of_nonneg (mul_nonneg h0 hpow) ?_, rfl⟩
    exact (mul_le_mul_of_nonneg_right hle hpow).trans hr.1.2

section
variable {e : RepayEntry} {excess v : Int}

theorem toTokenFloor_eq {a : Int} {d : Nat} (hd : d ≤ wadDecimals) (ha : 0 ≤ a) :
    Wad.toTokenFloor a d = .ok (a / 10 ^ (wadDecimals - d)) :=
  rescaleFloor_down ha hd (by simp only [wadDecimals]; omega)

theorem amountWad_le {r : Int} (he : Credited e)
    (hr : Wad.fromToken e.amount e.feed.assetDecimals = .ok r) : e.amountWad ≤ i128Max := by
  unfold Wad.fromToken at hr
  unfold RepayEntry.amountWad RepayEntry.unitWad
  rcases he.decimals_le.eq_or_lt with heq | hlt
  · rw [heq, Nat.sub_self, pow_zero, mul_one]
    exact he.amount_le
  · rw [rescaleHalfUp_up hlt (by simp only [wadDecimals]; omega), toI128_ok_iff] at hr
    exact hr.1.2

/-- An entry whose worth is representable can be cut. -/
theorem cutEntry_returns (keep : Bool) (he : Credited e) (hv : e.feed.usdValueWad e.amount = .ok v)
    (hexc : 0 < excess) (hlt : excess < e.usdWad) :
    ∃ r, cutEntry e excess keep = .ok r := by
  have hU : 0 < e.usdWad := hexc.trans hlt
  have hunit := e.unitWad_pos
  have hw := wad_pos
  have hd := he.decimals_le
  have hprice := he.price_pos
  unfold PriceFeed.usdValueWad at hv
  obtain ⟨whole, hwhole, hv⟩ := Fallible.bind_ok hv
  have hAmax := amountWad_le he hwhole
  obtain rfl := fromToken_ok hd hwhole
  change Wad.mul e.amountWad e.feed.price = _ at hv
  obtain ⟨hA, hp, rfl, hmax⟩ := Wad.mul_ok_iff.mp hv
  -- Whatever part of the amount stays is valued.
  have hvalue : ∀ part, 0 ≤ part → part ≤ e.amount → ∃ r, (do
      let newUsd := min (← Wad.mul (← Wad.fromToken part e.feed.assetDecimals) e.feed.price)
        e.usdWad
      return (part, newUsd) : Result (Int × Int)) = .ok r := by
    intro part h0 hle
    have hpart : part * e.unitWad ≤ e.amountWad := mul_le_mul_of_nonneg_right hle hunit.le
    have hmul : Wad.mul (part * e.unitWad) e.feed.price =
        .ok (halfUpDiv (part * e.unitWad * e.feed.price) wad) :=
      Wad.mul_ok_iff.mpr ⟨mul_nonneg h0 hunit.le, hp, rfl,
        (halfUpDiv_mono hw (mul_le_mul_of_nonneg_right hpart hp)).trans hmax⟩
    rw [fromToken_part hd hwhole h0 hle, Fallible.ok_bind]
    change ∃ r, (Wad.mul (part * e.unitWad) e.feed.price >>= _) = _
    rw [hmul]
    exact ⟨_, rfl⟩
  unfold cutEntry
  cases keep with
  | true =>
    have hq : 0 ≤ (e.usdWad - excess) * wad / e.feed.price :=
      floor_nonneg hprice (mul_nonneg (by omega) hw.le)
    -- What is left of the credit buys at most the amount.
    have hqmax : (e.usdWad - excess) * wad / e.feed.price ≤ e.amountWad := by
      refine Int.le_of_lt_add_one ((floor_lt_iff hprice).mpr ?_)
      have h1 : (e.usdWad - excess) * wad ≤ (e.usdWad - 1) * wad :=
        mul_le_mul_of_nonneg_right (by omega) hw.le
      have h2 := he.usd_le
      linarith
    have hkept : 0 ≤ (e.usdWad - excess) * wad / e.feed.price / e.unitWad := floor_nonneg hunit hq
    obtain ⟨r, hr⟩ := hvalue (min ((e.usdWad - excess) * wad / e.feed.price / e.unitWad) e.amount)
      (le_min hkept he.amount_pos.le) (min_le_right _ _)
    refine ⟨r, ?_⟩
    dsimp only
    rw [if_pos rfl, show Wad.checkedSub e.usdWad excess = .ok (e.usdWad - excess) from
      checkedSubNonneg_ok_iff.mpr ⟨hU.le, hexc.le, hlt.le, rfl⟩, Fallible.ok_bind,
      (Wad.divFloor_ok_iff hprice).mpr ⟨inI128_of_nonneg hq (hqmax.trans hAmax), rfl⟩,
      Fallible.ok_bind, toTokenFloor_eq hd hq]
    exact hr
  | false =>
    have hr0 : 0 ≤ excess * wad / e.usdWad := floor_nonneg hU (mul_nonneg hexc.le hw.le)
    have hr1 : excess * wad / e.usdWad ≤ wad := by
      refine Int.le_of_lt_add_one ((floor_lt_iff hU).mpr ?_)
      have := mul_le_mul_of_nonneg_right hlt.le hw.le
      linarith
    have hs0 : 0 ≤ e.amountWad * (excess * wad / e.usdWad) / wad :=
      floor_nonneg hw (mul_nonneg hA hr0)
    have hs1 : e.amountWad * (excess * wad / e.usdWad) / wad ≤ e.amountWad := by
      refine Int.le_of_lt_add_one ((floor_lt_iff hw).mpr ?_)
      have := mul_le_mul_of_nonneg_left hr1 hA
      linarith
    have hc0 : 0 ≤ e.amountWad * (excess * wad / e.usdWad) / wad / e.unitWad :=
      floor_nonneg hunit hs0
    have hc1 : e.amountWad * (excess * wad / e.usdWad) / wad / e.unitWad ≤ e.amount := by
      refine (floor_mono hunit hs1).trans ?_
      unfold RepayEntry.amountWad
      rw [Int.mul_ediv_cancel _ hunit.ne']
    obtain ⟨r, hr⟩ := hvalue
      (e.amount - e.amountWad * (excess * wad / e.usdWad) / wad / e.unitWad) (by omega) (by omega)
    refine ⟨r, ?_⟩
    dsimp only
    rw [if_neg Bool.false_ne_true,
      (Wad.divFloor_ok_iff hU).mpr ⟨inI128_of_nonneg hr0 (hr1.trans (by decide)), rfl⟩,
      Fallible.ok_bind, hwhole, Fallible.ok_bind]
    have hscaled : Wad.mulFloor e.amountWad (excess * wad / e.usdWad) =
        .ok (e.amountWad * (excess * wad / e.usdWad) / wad) :=
      Wad.mulFloor_ok_iff.mpr ⟨inI128_of_nonneg hs0 (hs1.trans hAmax), rfl⟩
    change ((Wad.mulFloor e.amountWad (excess * wad / e.usdWad) >>= _) >>= _) = _
    rw [hscaled, Fallible.ok_bind, toTokenFloor_eq hd hs0]
    exact hr

end

/-! ## The loop -/

def usdTotal (l : List RepayEntry) : Int := (l.map RepayEntry.usdWad).sum

@[simp] theorem usdTotal_nil : usdTotal [] = 0 := rfl

@[simp] theorem usdTotal_cons (e : RepayEntry) (l : List RepayEntry) :
    usdTotal (e :: l) = e.usdWad + usdTotal l := by
  simp [usdTotal]

@[simp] theorem usdTotal_append (l l' : List RepayEntry) :
    usdTotal (l ++ l') = usdTotal l + usdTotal l' := by
  simp [usdTotal]

@[simp] theorem usdTotal_reverse (l : List RepayEntry) : usdTotal l.reverse = usdTotal l := by
  simp [usdTotal, List.sum_reverse]

/-- Skipped entries are worth nothing. -/
theorem usdTotal_filter_zero (l : List RepayEntry) :
    usdTotal (l.filter fun e => e.usdWad = 0) = 0 := by
  induction l with
  | nil => rfl
  | cons e l ih =>
    rw [List.filter_cons]
    split
    · rename_i hz
      rw [usdTotal_cons, ih, add_zero]
      simpa using hz
    · exact ih

theorem usdTotal_nonneg {l : List RepayEntry} (hcred : ∀ e ∈ l, Credited e) : 0 ≤ usdTotal l :=
  List.sum_nonneg fun _ hx => by
    obtain ⟨e, he, rfl⟩ := List.mem_map.mp hx
    exact (hcred e he).usd_nonneg

theorem sumRepaidUsd_eq {l : List RepayEntry} {total : Int} (hsum : sumRepaidUsd l = .ok total) :
    total = usdTotal l := by
  suffices hsuf : ∀ start : Int, l.foldlM (fun total (entry : RepayEntry) =>
      Wad.checkedAdd total entry.usdWad) start = .ok total → total = start + usdTotal l from
    (hsuf 0 hsum).trans (zero_add _)
  clear hsum
  induction l with
  | nil =>
    intro start hrun
    rw [Fallible.foldlM_nil_ok hrun, usdTotal_nil, add_zero]
  | cons e l ih =>
    intro start hrun
    obtain ⟨next, hstep, hrest⟩ := Fallible.foldlM_cons_ok hrun
    obtain ⟨-, rfl⟩ := checkedAddRaw_ok_iff.mp hstep
    rw [ih _ hrest, usdTotal_cons, add_assoc]

/-- The whole entry, refunded. -/
def refundAll (e : RepayEntry) : PaymentTuple := ⟨e.hubAsset.asset, e.amount⟩

/-- An entry that is cut: the excess it met, and the amount and value left of it. -/
structure CutLeg where
  entry : RepayEntry
  excess : Int
  amount : Int
  usd : Int

namespace CutLeg

/-- What the plan keeps of it. -/
def kept (c : CutLeg) : List RepayEntry :=
  if c.amount = 0 then []
  else [{ c.entry with
    amount := c.amount
    usdWad := c.usd }]

def refund (c : CutLeg) : PaymentTuple := ⟨c.entry.hubAsset.asset, c.entry.amount - c.amount⟩

/-- It is cut as `cutEntry` does. -/
structure Cuts (keep : Bool) (c : CutLeg) : Prop where
  excess_pos : 0 < c.excess
  excess_lt : c.excess < c.entry.usdWad
  cut : cutEntry c.entry c.excess keep = .ok (c.amount, c.usd)

theorem usdTotal_kept {keep : Bool} {c : CutLeg} (he : Credited c.entry) (hc : c.Cuts keep) :
    usdTotal c.kept = c.usd := by
  unfold kept
  split
  · rename_i hz
    have hcut := hc.cut
    rw [hz] at hcut
    rw [cutEntry_zero he hcut, usdTotal_nil]
  · simp

end CutLeg

section
variable {keep : Bool}

/-- Without excess the rest is kept as it is. -/
theorem trimEntries_done {l : List RepayEntry} {acc acc' : ExcessAcc} (hr : acc.remaining ≤ 0)
    (hrun : l.foldlM (fun acc entry => trimEntry keep entry acc) acc = .ok acc') :
    acc'.kept = l.reverse ++ acc.kept ∧ acc'.refunds = acc.refunds := by
  induction l generalizing acc with
  | nil =>
    obtain rfl := Fallible.foldlM_nil_ok hrun
    exact ⟨rfl, rfl⟩
  | cons e l ih =>
    obtain ⟨acc1, hstep, hrest⟩ := Fallible.foldlM_cons_ok hrun
    unfold trimEntry at hstep
    rw [if_pos (.inl hr), Fallible.pure_ok_iff] at hstep
    subst hstep
    have hr' : ExcessAcc.remaining ⟨e :: acc.kept, acc.refunds, acc.remaining⟩ ≤ 0 := hr
    obtain ⟨hkept, hrefunds⟩ := ih hr' hrest
    exact ⟨by rw [hkept]; simp, hrefunds⟩

/-- The cut consumes what is left of the excess. -/
theorem trimEntry_cut {e : RepayEntry} {acc acc' : ExcessAcc} (he : Credited e)
    (hr : 0 < acc.remaining) (hlt : acc.remaining < e.usdWad)
    (hstep : trimEntry keep e acc = .ok acc') :
    ∃ c : CutLeg, c.entry = e ∧ c.excess = acc.remaining ∧ c.Cuts keep ∧
      acc'.kept = c.kept ++ acc.kept ∧ acc'.refunds = acc.refunds ++ [c.refund] ∧
      acc'.remaining ≤ 0 := by
  have hamount := he.amount_pos
  have hz : Wad.zero = 0 := rfl
  unfold trimEntry at hstep
  rw [if_neg (by omega), if_pos hlt] at hstep
  obtain ⟨⟨amount, usd⟩, hcut, hstep⟩ := Fallible.bind_ok hstep
  obtain ⟨remaining, hremaining, hstep⟩ := Fallible.bind_ok hstep
  rw [Fallible.pure_ok_iff] at hstep
  subst hstep
  refine ⟨⟨e, acc.remaining, amount, usd⟩, rfl, rfl, ⟨hr, hlt, hcut⟩, ?_, rfl, ?_⟩
  · unfold CutLeg.kept
    dsimp only
    split <;> rfl
  · cases keep with
    | true =>
      have hle := cutEntry_keeps he hlt hcut
      simp only [if_true, Fallible.bind_ok_iff, Wad.checkedSub, checkedSubNonneg_ok_iff]
        at hremaining
      obtain ⟨removed, ⟨-, -, -, rfl⟩, hremaining⟩ := hremaining
      rw [if_pos (by omega), Fallible.pure_ok_iff] at hremaining
      exact hremaining.ge
    | false =>
      simp only [Bool.false_eq_true, if_false, Fallible.pure_ok_iff] at hremaining
      exact hremaining.ge

theorem trimEntry_credited {e : RepayEntry} {acc acc' : ExcessAcc} (he : Credited e)
    (hkept : ∀ x ∈ acc.kept, Credited x) (hstep : trimEntry keep e acc = .ok acc') :
    ∀ x ∈ acc'.kept, Credited x := by
  by_cases hskip : acc.remaining ≤ 0 ∨ e.amount ≤ 0 ∨ e.usdWad = Wad.zero
  · unfold trimEntry at hstep
    rw [if_pos hskip, Fallible.pure_ok_iff] at hstep
    subst hstep
    simpa [he] using hkept
  by_cases hlt : acc.remaining < e.usdWad
  · obtain ⟨c, rfl, -, hcuts, hkept', -, -⟩ := trimEntry_cut he (by omega) hlt hstep
    rw [hkept']
    intro x hx
    rcases List.mem_append.mp hx with hx | hx
    · unfold CutLeg.kept at hx
      split at hx
      · cases hx
      · rename_i hne
        obtain rfl := List.mem_singleton.mp hx
        exact cutEntry_credited he hcuts.excess_pos hcuts.excess_lt hne hcuts.cut
    · exact hkept x hx
  · unfold trimEntry at hstep
    rw [if_neg hskip, if_neg hlt] at hstep
    simp only [Fallible.bind_ok_iff, Fallible.pure_ok_iff] at hstep
    obtain ⟨remaining, -, rfl⟩ := hstep
    exact hkept

/-- Whatever the excess, what is kept is credited. -/
theorem processExcessPayment_credited {repaid kept : List RepayEntry}
    {refunds refunds' : List PaymentTuple} {excess : Int} (hcred : ∀ e ∈ repaid, Credited e)
    (hrun : processExcessPayment repaid refunds excess keep = .ok (kept, refunds')) :
    ∀ e ∈ kept, Credited e := by
  unfold processExcessPayment at hrun
  simp only [Fallible.bind_ok_iff, Fallible.pure_ok_iff, Prod.mk.injEq] at hrun
  obtain ⟨acc, hfold, rfl, -⟩ := hrun
  exact Fallible.foldlM_inv (P := fun acc : ExcessAcc => ∀ e ∈ acc.kept, Credited e)
    (fun acc entry acc' hentry hkept hstep =>
      trimEntry_credited (hcred entry (List.mem_reverse.mp hentry)) hkept hstep) (by simp) hfold

theorem trimEntry_returns {e : RepayEntry} (keep : Bool) (acc : ExcessAcc) {v : Int}
    (he : Credited e) (hv : e.feed.usdValueWad e.amount = .ok v) :
    ∃ acc', trimEntry keep e acc = .ok acc' := by
  have hamount := he.amount_pos
  have hz : Wad.zero = 0 := rfl
  have hU := he.usd_nonneg
  unfold trimEntry
  by_cases hskip : acc.remaining ≤ 0 ∨ e.amount ≤ 0 ∨ e.usdWad = Wad.zero
  · rw [if_pos hskip]
    exact ⟨_, rfl⟩
  rw [if_neg hskip]
  by_cases hlt : e.usdWad > acc.remaining
  · obtain ⟨⟨amount, usd⟩, hcut⟩ := cutEntry_returns keep he hv (by omega) hlt
    rw [if_pos hlt, hcut, Fallible.ok_bind]
    cases keep with
    | true =>
      have hle := cutEntry_keeps he hlt hcut
      have h0 : 0 ≤ usd := by
        obtain ⟨hworth, husd⟩ := cutEntry_usd he hcut
        exact husd ▸ le_min (halfUpDiv_nonneg wad_pos hworth) hU
      dsimp only
      rw [if_pos rfl, show Wad.checkedSub e.usdWad usd = .ok (e.usdWad - usd) from
        checkedSubNonneg_ok_iff.mpr ⟨hU, h0, by omega, rfl⟩, Fallible.ok_bind,
        if_pos (by omega)]
      exact ⟨_, rfl⟩
    | false => exact ⟨_, rfl⟩
  · rw [if_neg hlt, show Wad.checkedSub acc.remaining e.usdWad = .ok (acc.remaining - e.usdWad)
      from checkedSubNonneg_ok_iff.mpr ⟨by omega, hU, by omega, rfl⟩]
    exact ⟨_, rfl⟩

/-- Where the backward loop stops: `after` was met first, and is refunded but for what is worth
nothing; at most one entry is cut; `before` is untouched. -/
theorem trimEntries_split {l : List RepayEntry} {acc acc' : ExcessAcc}
    (hcred : ∀ e ∈ l, Credited e) (hr : 0 ≤ acc.remaining) (htotal : acc.remaining ≤ usdTotal l)
    (hrun : l.foldlM (fun acc entry => trimEntry keep entry acc) acc = .ok acc') :
    ∃ (after : List RepayEntry) (cut : Option CutLeg) (before : List RepayEntry),
      l = after ++ cut.toList.map CutLeg.entry ++ before ∧
      acc'.kept = before.reverse ++ cut.toList.flatMap CutLeg.kept ++
        (after.filter fun e => e.usdWad = 0).reverse ++ acc.kept ∧
      acc'.refunds = acc.refunds ++ (after.filter fun e => e.usdWad ≠ 0).map refundAll ++
        cut.toList.map CutLeg.refund ∧
      acc.remaining = usdTotal after + (cut.toList.map CutLeg.excess).sum ∧
      ∀ c ∈ cut, c.Cuts keep := by
  induction l generalizing acc with
  | nil =>
    obtain rfl := Fallible.foldlM_nil_ok hrun
    rw [usdTotal_nil] at htotal
    exact ⟨[], none, [], rfl, rfl, by simp, by simp; omega, by simp⟩
  | cons e l ih =>
    have he := hcred e List.mem_cons_self
    have hcred' : ∀ x ∈ l, Credited x := fun x hx => hcred x (List.mem_cons_of_mem _ hx)
    rw [usdTotal_cons] at htotal
    rcases hr.eq_or_lt with hr0 | hr0
    · obtain ⟨hkept, hrefunds⟩ := trimEntries_done hr0.ge hrun
      exact ⟨[], none, e :: l, rfl, by rw [hkept]; simp, by rw [hrefunds]; simp,
        by simp [← hr0], by simp⟩
    obtain ⟨acc1, hstep, hrest⟩ := Fallible.foldlM_cons_ok hrun
    have hamount := he.amount_pos
    have hz : Wad.zero = 0 := rfl
    rcases lt_or_ge acc.remaining e.usdWad with hlt | hge
    · obtain ⟨c, rfl, hexcess, hcuts, hkept, hrefunds, hrem⟩ := trimEntry_cut he hr0 hlt hstep
      obtain ⟨hkept', hrefunds'⟩ := trimEntries_done hrem hrest
      refine ⟨[], some c, l, rfl, ?_, ?_, ?_, ?_⟩
      · rw [hkept', hkept]
        simp
      · rw [hrefunds', hrefunds]
        simp
      · simp [hexcess]
      · rintro c' hc'
        obtain rfl := Option.mem_some.mp hc'
        exact hcuts
    unfold trimEntry at hstep
    by_cases hzero : e.usdWad = 0
    · rw [if_pos (.inr (.inr hzero)), Fallible.pure_ok_iff] at hstep
      subst hstep
      have hr' : 0 ≤ ExcessAcc.remaining ⟨e :: acc.kept, acc.refunds, acc.remaining⟩ := hr
      obtain ⟨after, cut, before, hl, hkept, hrefunds, hrem, hcuts⟩ :=
        ih hcred' hr' (by dsimp only; omega) hrest
      refine ⟨e :: after, cut, before, by rw [hl]; simp, ?_, ?_, ?_, hcuts⟩
      · rw [hkept]
        simp [hzero]
      · rw [hrefunds]
        simp [hzero]
      · rw [usdTotal_cons, hzero, zero_add]
        exact hrem
    · rw [if_neg (by omega), if_neg (by omega)] at hstep
      simp only [Fallible.bind_ok_iff, Fallible.pure_ok_iff, Wad.checkedSub,
        checkedSubNonneg_ok_iff] at hstep
      obtain ⟨-, ⟨-, -, -, rfl⟩, rfl⟩ := hstep
      obtain ⟨after, cut, before, hl, hkept, hrefunds, hrem, hcuts⟩ :=
        ih hcred' (by dsimp only; omega) (by dsimp only; omega) hrest
      refine ⟨e :: after, cut, before, by rw [hl]; simp, ?_, ?_, ?_, hcuts⟩
      · rw [hkept]
        simp [hzero]
      · rw [hrefunds]
        simp [hzero, refundAll]
      · rw [usdTotal_cons]
        dsimp only at hrem
        omega

end

/-- A plan whose entries' worth is representable can be trimmed. -/
theorem processExcessPayment_returns {keep : Bool} {repaid : List RepayEntry}
    {refunds : List PaymentTuple} {excess : Int} (hcred : ∀ e ∈ repaid, Credited e)
    (hvalued : ∀ e ∈ repaid, ∃ v, e.feed.usdValueWad e.amount = .ok v) :
    ∃ r, processExcessPayment repaid refunds excess keep = .ok r := by
  suffices hsuf : ∀ (l : List RepayEntry) (acc : ExcessAcc), (∀ e ∈ l, e ∈ repaid) →
      ∃ acc', l.foldlM (fun acc entry => trimEntry keep entry acc) acc = .ok acc' by
    obtain ⟨acc, hacc⟩ := hsuf repaid.reverse ⟨[], refunds, excess⟩
      fun e he => List.mem_reverse.mp he
    unfold processExcessPayment
    rw [hacc]
    exact ⟨_, rfl⟩
  intro l
  induction l with
  | nil => exact fun acc _ => ⟨acc, rfl⟩
  | cons e l ih =>
    intro acc hmem
    have he := hmem e List.mem_cons_self
    obtain ⟨v, hv⟩ := hvalued e he
    obtain ⟨acc1, hstep⟩ := trimEntry_returns keep acc (hcred e he) hv
    rw [List.foldlM_cons, hstep]
    exact ih acc1 fun x hx => hmem x (List.mem_cons_of_mem _ hx)

/-- What `process_excess_payment` makes of a plan whose value is above the quote. -/
structure Trimmed (keep : Bool) (repaid kept : List RepayEntry)
    (refunds refunds' : List PaymentTuple) (quote : Int) (before after : List RepayEntry)
    (cut : Option CutLeg) : Prop where
  split : repaid = before ++ cut.toList.map CutLeg.entry ++ after
  kept_eq : kept = before ++ cut.toList.flatMap CutLeg.kept ++ after.filter fun e => e.usdWad = 0
  refunds_eq : refunds' = refunds ++ (after.filter fun e => e.usdWad ≠ 0).reverse.map refundAll ++
    cut.toList.map CutLeg.refund
  excess : usdTotal repaid - quote = usdTotal after + (cut.toList.map CutLeg.excess).sum
  cuts : ∀ c ∈ cut, c.Cuts keep

theorem processExcessPayment_trimmed {keep : Bool} {repaid kept : List RepayEntry}
    {refunds refunds' : List PaymentTuple} {quote : Int} (hcred : ∀ e ∈ repaid, Credited e)
    (h0 : 0 ≤ quote) (hlt : quote < usdTotal repaid)
    (hrun : processExcessPayment repaid refunds (usdTotal repaid - quote) keep =
      .ok (kept, refunds')) :
    ∃ before after cut, Trimmed keep repaid kept refunds refunds' quote before after cut := by
  unfold processExcessPayment at hrun
  simp only [Fallible.bind_ok_iff, Fallible.pure_ok_iff, Prod.mk.injEq] at hrun
  obtain ⟨acc, hfold, rfl, rfl⟩ := hrun
  obtain ⟨after, cut, before, hl, hkept, hrefunds, hrem, hcuts⟩ := trimEntries_split
    (fun e he => hcred e (List.mem_reverse.mp he)) (by dsimp only; omega)
    (by rw [usdTotal_reverse]; dsimp only; omega) hfold
  refine ⟨before.reverse, after.reverse, cut, ?_, ?_, ?_, ?_, hcuts⟩
  · rw [← List.reverse_reverse repaid, hl, List.reverse_append, List.reverse_append]
    cases cut <;> simp
  · rw [hkept, List.filter_reverse]
    simp
  · rw [hrefunds, List.filter_reverse, List.reverse_reverse]
  · rw [usdTotal_reverse]
    exact hrem

namespace Trimmed

variable {keep : Bool} {repaid kept : List RepayEntry} {refunds refunds' : List PaymentTuple}
  {quote : Int} {before after : List RepayEntry} {cut : Option CutLeg}

/-- Without a cut the excess was the value of the entries refunded. -/
theorem usdTotal_uncut (ht : Trimmed keep repaid kept refunds refunds' quote before after none) :
    usdTotal kept = quote := by
  have hexcess := ht.excess
  rw [ht.split] at hexcess
  rw [ht.kept_eq]
  simp only [Option.toList_none, List.map_nil, List.flatMap_nil, List.append_nil, usdTotal_append,
    usdTotal_filter_zero, List.sum_nil] at hexcess ⊢
  omega

/-- With one, what is kept beyond the quote is what the cut entry keeps beyond its share. -/
theorem usdTotal_cut {c : CutLeg} (hcred : ∀ e ∈ repaid, Credited e)
    (ht : Trimmed keep repaid kept refunds refunds' quote before after (some c)) :
    Credited c.entry ∧ usdTotal kept - quote = c.usd - (c.entry.usdWad - c.excess) := by
  have hexcess := ht.excess
  have hc : Credited c.entry := hcred c.entry (by rw [ht.split]; simp)
  have hkept := CutLeg.usdTotal_kept hc (ht.cuts c rfl)
  refine ⟨hc, ?_⟩
  rw [ht.split] at hexcess
  rw [ht.kept_eq]
  simp only [Option.toList_some, List.map_cons, List.map_nil, List.flatMap_cons, List.flatMap_nil,
    List.append_nil, usdTotal_append, usdTotal_cons, usdTotal_nil, usdTotal_filter_zero,
    List.sum_cons, List.sum_nil, hkept] at hexcess ⊢
  omega

/-- A cut by ratio keeps the quote up to one raw unit. -/
theorem low (hcred : ∀ e ∈ repaid, Credited e)
    (ht : Trimmed false repaid kept refunds refunds' quote before after cut) :
    quote - 1 ≤ usdTotal kept := by
  cases cut with
  | none =>
    rw [ht.usdTotal_uncut]
    exact sub_le_self _ one_pos.le
  | some c =>
    obtain ⟨hentry, hdiff⟩ := ht.usdTotal_cut hcred
    obtain ⟨hpos, hlt, hcut⟩ := ht.cuts c rfl
    have hlow := cutEntry_low hentry hpos hlt hcut
    omega

/-- Entries that are worth nothing stay, and what a cut by ratio leaves is none of them. -/
theorem filter_zero (hcred : ∀ e ∈ repaid, Credited e)
    (ht : Trimmed false repaid kept refunds refunds' quote before after cut) :
    (kept.filter fun e => e.usdWad = 0) = repaid.filter fun e => e.usdWad = 0 := by
  have hafter : ((after.filter fun e => e.usdWad = 0).filter fun e => e.usdWad = 0) =
      after.filter fun e => e.usdWad = 0 := by
    rw [List.filter_filter]
    simp
  rw [ht.kept_eq]
  conv_rhs => rw [ht.split]
  rw [List.filter_append, List.filter_append, List.filter_append, List.filter_append, hafter]
  cases cut with
  | none => rfl
  | some c =>
    obtain ⟨hpos, hlt, hcut⟩ := ht.cuts c rfl
    have hleft := cutEntry_pos (hcred c.entry (by rw [ht.split]; simp)) hpos hlt hcut
    congr 2
    simp only [Option.toList_some, List.flatMap_cons, List.flatMap_nil, List.append_nil,
      List.map_cons, List.map_nil, CutLeg.kept]
    rw [List.filter_cons_of_neg (by simp; omega)]
    split
    · rfl
    · rw [List.filter_cons_of_neg (by simp; omega)]

/-- What is left is credited as before, so it can be trimmed again. -/
theorem credited (hcred : ∀ e ∈ repaid, Credited e)
    (ht : Trimmed keep repaid kept refunds refunds' quote before after cut) :
    ∀ e ∈ kept, Credited e := by
  intro x hx
  have hold : ∀ e, e ∈ before ∨ e ∈ after → Credited e := fun e he =>
    hcred e (by rw [ht.split]; rcases he with he | he <;> simp [he])
  rw [ht.kept_eq, List.mem_append, List.mem_append, List.mem_filter] at hx
  rcases hx with (hx | hx) | ⟨hx, -⟩
  · exact hold x (.inl hx)
  · cases cut with
    | none => cases hx
    | some c =>
      obtain ⟨hexc, hlt, hcut⟩ := ht.cuts c rfl
      simp only [Option.toList_some, List.flatMap_cons, List.flatMap_nil, List.append_nil,
        CutLeg.kept] at hx
      split at hx
      · cases hx
      rename_i hne
      obtain rfl := List.mem_singleton.mp hx
      exact cutEntry_credited (hcred c.entry (by rw [ht.split]; simp)) hexc hlt hne hcut
  · exact hold x (.inr hx)

end Trimmed

/-- What a cut keeps beyond its share, in units of one. -/
theorem cut_excess_rat {e : RepayEntry} {usd share slack : Int}
    (h : 2 * (usd * wad * wad) ≤ 2 * (share * wad * wad) + 2 * (slack * wad) +
      2 * ((e.amountWad + e.unitWad * wad) * e.feed.price) + wad * wad) :
    (usd : ℚ) ≤ share + slack / wad + (e.unitWorth + e.worth / wad) + 1 / 2 := by
  have hw : (0 : ℚ) < (wad : Int) := by exact_mod_cast wad_pos
  have h' : 2 * ((usd : ℚ) * wad * wad) ≤ 2 * (share * wad * wad) + 2 * (slack * wad) +
      2 * ((e.amountWad + e.unitWad * wad) * e.feed.price) + wad * wad := by exact_mod_cast h
  unfold RepayEntry.unitWorth RepayEntry.worth
  refine le_of_mul_le_mul_right ?_ (by positivity : (0 : ℚ) < 2 * (wad * wad))
  calc (usd : ℚ) * (2 * (wad * wad)) = 2 * (usd * wad * wad) := by ring
    _ ≤ 2 * (share * wad * wad) + 2 * (slack * wad) +
        2 * ((e.amountWad + e.unitWad * wad) * e.feed.price) + wad * wad := h'
    _ = _ := by field_simp; ring

theorem worth_le_half {e : RepayEntry} (h : e.worth ≤ e.usdWad + 1 / 2) :
    e.amountWad * e.feed.price ≤ e.usdWad * wad + wad / 2 := by
  have hw : (0 : ℚ) < (wad : Int) := by exact_mod_cast wad_pos
  unfold RepayEntry.worth at h
  rw [div_le_iff₀ hw] at h
  have h' : 2 * ((e.amountWad : ℚ) * e.feed.price) ≤ 2 * (e.usdWad * wad) + wad := by linarith
  have hint : 2 * (e.amountWad * e.feed.price) ≤ 2 * (e.usdWad * wad) + wad := by exact_mod_cast h'
  omega

end Liquidation

open Liquidation

/-- **Excess trimming keeps the right amount.** Of a plan whose value is above the quote, the
entries before one are untouched, that one is cut, and those after it are refunded but for what is
worth nothing. Within a quote the value kept is at most the quote. Otherwise it is at least the
quote less one raw unit, and at most the quote plus the value of one native unit and of a
`10^-18` part of the amount that was cut, and of one more unit where the entry was credited the
floor of its debt. -/
theorem excess_trimming {repaid : List RepayEntry} {refunds : List PaymentTuple} {quote : Int}
    {keep : Bool} (hcred : ∀ e ∈ repaid, Credited e) (h0 : 0 ≤ quote)
    (hlt : quote < usdTotal repaid) :
    ((∀ e ∈ repaid, ∃ v, e.feed.usdValueWad e.amount = .ok v) →
      ∃ r, processExcessPayment repaid refunds (usdTotal repaid - quote) keep = .ok r) ∧
    ∀ kept refunds', processExcessPayment repaid refunds (usdTotal repaid - quote) keep =
        .ok (kept, refunds') →
      ∃ before after cut, Trimmed keep repaid kept refunds refunds' quote before after cut ∧
        (∀ c ∈ cut, 0 ≤ c.amount ∧ c.amount ≤ c.entry.amount) ∧
        (∀ e ∈ kept, Credited e) ∧
        (keep = true → usdTotal kept ≤ quote) ∧
        (keep = false → quote - 1 ≤ usdTotal kept ∧ (cut = none → usdTotal kept = quote) ∧
          ∀ c ∈ cut,
            (usdTotal kept : ℚ) ≤ quote +
              (2 * c.entry.unitWorth + c.entry.worth / wad) + 2 ∧
            (c.entry.worth ≤ c.entry.usdWad + 1 / 2 →
              (usdTotal kept : ℚ) ≤ quote + (c.entry.unitWorth + c.entry.worth / wad) + 2)) := by
  refine ⟨processExcessPayment_returns hcred, fun kept refunds' hrun => ?_⟩
  obtain ⟨before, after, cut, ht⟩ := processExcessPayment_trimmed hcred h0 hlt hrun
  refine ⟨before, after, cut, ht, fun c hc => ?_, ht.credited hcred, ?_, ?_⟩
  · have hcuts := ht.cuts c hc
    obtain rfl := Option.mem_def.mp hc
    obtain ⟨hentry, -⟩ := ht.usdTotal_cut hcred
    have hok := cutEntry_ok hentry.cuttable hcuts.excess_pos hcuts.excess_lt hcuts.cut
    exact ⟨hok.1, hok.2.1⟩
  · rintro rfl
    cases cut with
    | none => exact ht.usdTotal_uncut.le
    | some c =>
      obtain ⟨hentry, hdiff⟩ := ht.usdTotal_cut hcred
      have hcuts := ht.cuts c rfl
      have hle := cutEntry_keeps hentry hcuts.excess_lt hcuts.cut
      omega
  · rintro rfl
    cases cut with
    | none =>
      have htotal := ht.usdTotal_uncut
      exact ⟨by omega, fun _ => htotal, by simp⟩
    | some c =>
      obtain ⟨hentry, hdiff⟩ := ht.usdTotal_cut hcred
      obtain ⟨hpos, hclt, hcut⟩ := ht.cuts c rfl
      refine ⟨ht.low hcred, nofun, fun c' hc' => ?_⟩
      obtain rfl : c = c' := Option.mem_some.mp hc'
      have hdiff' : (usdTotal kept : ℚ) - quote =
          c.usd - ((c.entry.usdWad - c.excess : ℤ) : ℚ) := by exact_mod_cast hdiff
      have hw : (0 : ℚ) < (wad : Int) := by exact_mod_cast wad_pos
      constructor
      · have hslack : 0 ≤ wad + c.entry.unitWad * c.entry.feed.price :=
          add_nonneg wad_pos.le (mul_nonneg c.entry.unitWad_pos.le hentry.price_pos.le)
        have hhigh := cut_excess_rat (cutEntry_high _ hentry hpos hclt hslack
          (by linarith [hentry.le_usd]) hcut)
        have hunit : ((wad + c.entry.unitWad * c.entry.feed.price : ℤ) : ℚ) / wad =
            1 + c.entry.unitWorth := by
          unfold RepayEntry.unitWorth
          push_cast
          field_simp
        rw [hunit] at hhigh
        linarith
      · intro hworth
        have hhalf : ((wad / 2 : ℤ) : ℚ) / wad = 1 / 2 := by norm_num [wad]
        have hhigh := cut_excess_rat (cutEntry_high (wad / 2) hentry hpos hclt (by decide)
          (worth_le_half hworth) hcut)
        rw [hhalf] at hhigh
        linarith

namespace Sample

/-- The sample invocation with its price read. -/
def quoted : Invocation Balances :=
  { invocation with
    cache := { tokenPrices := SortedMap.empty.set 7 ⟨wad, 7, 1_000⟩ } }

theorem quoted_sees : quoted.Sees controllerHost 1_000 invocation.pool := by
  refine ⟨rfl, ⟨fun hget => ?_, fun hget => ?_⟩⟩
  · cases hget
  · unfold quoted at hget
    rw [SortedMap.get?_set] at hget
    split at hget
    · cases hget
      exact ⟨opening, 9, rfl⟩
    · cases hget

end Sample

/-- A payment of seventy-two dollars is trimmed to a quote of forty. -/
theorem excess_trimming_sample :
    ∃ acc s1 kept refunds, calculateRepaymentAmounts 1_000 [(Sample.key, 1_000_000_000)]
        (Sample.owing (100 * ray) (72 * ray) 500) Sample.quoted = .ok acc s1 ∧
      processExcessPayment acc.repaid acc.refunds (usdTotal acc.repaid - 40 * wad) false =
        .ok (kept, refunds) ∧
      40 * wad - 1 ≤ usdTotal kept := by
  obtain ⟨acc, s1, kept, refunds, hplan, hlt, hrun⟩ : ∃ acc s1 kept refunds,
      calculateRepaymentAmounts 1_000 [(Sample.key, 1_000_000_000)]
        (Sample.owing (100 * ray) (72 * ray) 500) Sample.quoted = .ok acc s1 ∧
      40 * wad < usdTotal acc.repaid ∧
      processExcessPayment acc.repaid acc.refunds (usdTotal acc.repaid - 40 * wad) false =
        .ok (kept, refunds) :=
    ⟨_, _, _, _, rfl, by decide +kernel, rfl⟩
  have hcred := ((calculateRepaymentAmounts_credited Sample.invocation_markets
    Sample.invocation_feeds Sample.controllerHost_prices
    (Sample.owing_positive (by decide) (by decide))).ok Sample.quoted_sees hplan).2
  obtain ⟨before, after, cut, -, -, -, -, hsolvent⟩ :=
    (excess_trimming hcred (by decide) hlt).2 kept refunds hrun
  exact ⟨acc, s1, kept, refunds, hplan, hrun, (hsolvent rfl).1⟩

/-- A debt of just above ten units is repaid with eleven and credited ten: what one unit less
keeps is above the quote by more than the value of a unit. -/
theorem excess_trimming_overshoots :
    ∃ acc s1 kept refunds, calculateRepaymentAmounts 1_000 [(Sample.key, 11)]
        (Sample.owing (100 * ray) (10 ^ 21 + 1) 500) Sample.quoted = .ok acc s1 ∧
      180_000_000_000 ≤ usdTotal acc.repaid ∧
      processExcessPayment acc.repaid acc.refunds 180_000_000_000 false = .ok (kept, refunds) ∧
      ∀ e ∈ acc.repaid, ((usdTotal acc.repaid - 180_000_000_000 : Int) : ℚ) +
        (e.unitWorth + e.worth / wad) + 2 < usdTotal kept := by
  refine ⟨_, _, _, _, rfl, ?_, rfl, ?_⟩
  all_goals decide +kernel

end Lending
