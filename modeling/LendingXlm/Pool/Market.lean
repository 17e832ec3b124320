import LendingXlm.Pool.Spec

/-!
# Runs of a market

A market is created once and then changed by the pool's operations at non-decreasing ledger
times. `MarketRun` is the set of such runs, with the list of the executed steps.

* `PoolState.Bounds`: the bounds on shares, cash and indexes;
* `globalSync_sound`, `MarketOp.apply_sound`: accrual and every operation keep them, and move
  the borrow index, the clock and (bad debt apart) the supply index only up;
* `MarketRun.sound`: so they hold in every state a run reaches.
-/

namespace Lending

open FpCore Rounding Ops

theorem nowMs_mono {t t' now now' : Nat} (hle : t ≤ t') (h : nowMs t = .ok now)
    (h' : nowMs t' = .ok now') : now ≤ now' := by
  unfold nowMs at h h'
  split at h <;> split at h' <;> simp_all
  subst h h'
  exact Nat.mul_le_mul_right _ hle

/-! ## Operations and runs -/

/-- The operations on one market. `amount` and the positions are the caller's. -/
inductive MarketOp where
  | supply (position amount : Int)
  | borrow (position amount : Int)
  | withdraw (isLiquidation : Bool) (position amount protocolFee : Int)
  | repay (position amount : Int)
  | netSettle (supplyPosition debtPosition amount : Int)
  | createStrategy (position amount : Int) (chargeFee : Bool)
  | flashLoan (amount preBalance : Int)
  | claimRevenue
  | recapitalize (amount : Int)
  | seize (side : AccountPositionType) (position : Int)
  | updateIndexes
  | updateParams (model : InterestRateModel)
  deriving DecidableEq, Repr

/-- The market after `op`, as the pool commits it. -/
def MarketOp.apply (key : HubAssetKey) (m : PoolSyncData) (timestamp : Nat) :
    MarketOp → Result PoolSyncData
  | .supply position amount => do
    let r ← Supply.apply (some m) timestamp ⟨⟨position⟩, amount, key⟩
    pure r.1.commit
  | .borrow position amount => do
    let o ← Borrow.accounting (some m) timestamp ⟨⟨position⟩, amount, key⟩
    pure o.cache.commit
  | .withdraw isLiquidation position amount protocolFee => do
    let o ← Withdraw.accounting (some m) timestamp isLiquidation
      ⟨⟨⟨position⟩, amount, key⟩, protocolFee⟩
    pure o.cache.commit
  | .repay position amount => do
    let o ← Repay.accounting (some m) timestamp ⟨⟨position⟩, amount, key⟩
    pure o.cache.commit
  | .netSettle supplyPosition debtPosition amount => do
    let r ← NetSettle.apply (some m) timestamp ⟨⟨supplyPosition⟩, ⟨debtPosition⟩, amount, key⟩
    pure r.1.commit
  | .createStrategy position amount chargeFee => do
    let o ← Strategy.accounting (some m) timestamp ⟨⟨position⟩, amount, key⟩ chargeFee
    pure o.cache.commit
  | .flashLoan amount preBalance => do
    let r ← Flash.accounting (some m) timestamp key amount preBalance
    pure r.1.commit
  | .claimRevenue => do
    let o ← Revenue.accounting (some m) timestamp key
    pure o.cache.commit
  | .recapitalize amount => do
    let o ← Recapitalize.accounting (some m) timestamp key amount
    pure o.cache.commit
  | .seize side position => do
    let c ← Seize.apply (some m) timestamp ⟨side, ⟨position⟩, key⟩
    pure c.commit
  | .updateIndexes => do
    let c ← syncedMarket (some m) timestamp key
    pure c.commit
  | .updateParams model => MarketOps.replaceRateModel (some m) timestamp key model

/-- One executed operation of a run. -/
structure MarketStep where
  before : PoolSyncData
  timestamp : Nat
  op : MarketOp
  deriving DecidableEq, Repr

/-- `MarketRun key m ts trace`: the market `key` was created and, by the steps of `trace`
(latest first), is `m` after the operation at ledger time `ts`. -/
inductive MarketRun (key : HubAssetKey) : PoolSyncData → Nat → List MarketStep → Prop
  | create (params : MarketParams) {timestamp : Nat} {m : PoolSyncData}
      (hasset : key.asset = params.assetId)
      (hcreate : MarketOps.create none timestamp params = .ok m) : MarketRun key m timestamp []
  | step {m m' : PoolSyncData} {timestamp timestamp' : Nat} {trace : List MarketStep}
      {op : MarketOp} (hrun : MarketRun key m timestamp trace) (hle : timestamp ≤ timestamp')
      (happly : op.apply key m timestamp' = .ok m') :
      MarketRun key m' timestamp' (⟨m, timestamp', op⟩ :: trace)

/-- The operation writes bad debt off against the suppliers. -/
def MarketOp.isSeizeBorrow : MarketOp → Bool
  | .seize .borrow _ => true
  | _ => false

/-! ## Bounds -/

/-- The bounds every state of a market satisfies. -/
structure PoolState.Bounds (s : PoolState) : Prop where
  revenue_nonneg : 0 ≤ s.revenue
  revenue_le : s.revenue ≤ s.supplied
  supplied_le : s.supplied ≤ i128Max
  borrowed_nonneg : 0 ≤ s.borrowed
  cash_nonneg : 0 ≤ s.cash
  borrowIndex_ge : ray ≤ s.borrowIndex
  borrowIndex_le : s.borrowIndex ≤ maxBorrowIndexRay
  supplyIndex_ge : supplyIndexFloorRaw ≤ s.supplyIndex
  supplyIndex_le : s.supplyIndex ≤ maxSupplyIndexRay

theorem PoolState.Bounds.supplied_nonneg {s : PoolState} (h : s.Bounds) : 0 ≤ s.supplied :=
  h.revenue_nonneg.trans h.revenue_le

theorem PoolState.Bounds.supplyIndex_pos {s : PoolState} (h : s.Bounds) : 0 < s.supplyIndex :=
  supplyIndexFloorRaw_pos.trans_le h.supplyIndex_ge

theorem PoolState.Bounds.borrowIndex_pos {s : PoolState} (h : s.Bounds) : 0 < s.borrowIndex :=
  ray_pos.trans_le h.borrowIndex_ge

/-- A market in bounds whose parameters passed their checks. -/
structure PoolSyncData.Sound (m : PoolSyncData) : Prop where
  params : m.params.Verified
  state : m.state.Bounds

namespace Cache

variable {c c' : Cache}

/-- The market a cache would commit is sound. -/
def Sound (c : Cache) : Prop := c.commit.Sound

theorem Sound.bounds (h : c.Sound) : c.commit.state.Bounds := h.state

theorem Sound.decimals_le (h : c.Sound) : c.params.assetDecimals ≤ wadDecimals :=
  h.params.decimals_le

theorem Sound.supplied_nonneg (h : c.Sound) : 0 ≤ c.supplied := h.bounds.supplied_nonneg

theorem Sound.supplyIndex_pos (h : c.Sound) : 0 < c.supplyIndex := h.bounds.supplyIndex_pos

theorem Sound.borrowIndex_pos (h : c.Sound) : 0 < c.borrowIndex := h.bounds.borrowIndex_pos

theorem Sound.markAccrued (h : c.Sound) : c.markAccrued.Sound :=
  ⟨h.params, { h.bounds with }⟩

/-- How the clock and the indexes of a market may move, bad debt apart. -/
structure Forward (c c' : Cache) : Prop where
  hubAsset : c'.hubAsset = c.hubAsset
  currentTimestamp : c'.currentTimestamp = c.currentTimestamp
  params : c'.params = c.params
  borrowIndex_le : c.borrowIndex ≤ c'.borrowIndex
  supplyIndex_le : c.supplyIndex ≤ c'.supplyIndex

theorem Forward.refl (c : Cache) : Forward c c := ⟨rfl, rfl, rfl, le_rfl, le_rfl⟩

theorem Forward.trans {a b d : Cache} (h1 : Forward a b) (h2 : Forward b d) : Forward a d :=
  ⟨h2.hubAsset.trans h1.hubAsset, h2.currentTimestamp.trans h1.currentTimestamp,
    h2.params.trans h1.params, h1.borrowIndex_le.trans h2.borrowIndex_le,
    h1.supplyIndex_le.trans h2.supplyIndex_le⟩

end Cache

/-! ## Accrual -/

namespace Interest

variable {c c' : Cache} {deltaMs : Nat}

/-- One chunk mints the step's shares as revenue and moves the indexes. -/
theorem accrueChunk_ok (h : accrueChunk c deltaMs = .ok c') :
    ∃ step, accrueStep c.params c.borrowed c.supplied c.borrowIndex c.supplyIndex deltaMs =
        .ok step ∧
      InI128 (c.revenue + step.revenueShares) ∧ InI128 (c.supplied + step.revenueShares) ∧
      c' = { c with
        borrowIndex := step.borrowIndex
        supplyIndex := step.supplyIndex
        revenue := c.revenue + step.revenueShares
        supplied := c.supplied + step.revenueShares } := by
  unfold accrueChunk at h
  obtain ⟨step, hstep, h⟩ := Fallible.bind_ok h
  obtain ⟨h1, h2, rfl⟩ := Cache.accrueRevenue_ok_iff.mp h
  exact ⟨step, hstep, h1, h2, rfl⟩

theorem accrueStep_of_sound (hc : c.Sound) {step : AccrualStep}
    (h : accrueStep c.params c.borrowed c.supplied c.borrowIndex c.supplyIndex deltaMs =
      .ok step) :
    step.Spec c.borrowed c.supplied c.borrowIndex c.supplyIndex :=
  accrueStep_spec hc.params hc.bounds.borrowIndex_le hc.supplyIndex_pos
    hc.bounds.supplyIndex_le hc.bounds.supplied_le h

/-- A chunk keeps the bounds and moves the indexes forward. -/
theorem accrueChunk_sound (hc : c.Sound) (h : accrueChunk c deltaMs = .ok c') :
    c'.Sound ∧ c.Forward c' := by
  obtain ⟨step, hstep, hrev, hsup, rfl⟩ := accrueChunk_ok h
  have spec := accrueStep_of_sound hc hstep
  have hb := hc.bounds
  refine ⟨⟨hc.params, ?_⟩, rfl, rfl, rfl, spec.borrowIndex_le, spec.supplyIndex_le⟩
  exact
    { revenue_nonneg := add_nonneg hb.revenue_nonneg spec.revenueShares_nonneg
      revenue_le := by simpa [Cache.commit] using hb.revenue_le
      supplied_le := hsup.2
      borrowed_nonneg := hb.borrowed_nonneg
      cash_nonneg := hb.cash_nonneg
      borrowIndex_ge := hb.borrowIndex_ge.trans spec.borrowIndex_le
      borrowIndex_le := spec.borrowIndex_cap
      supplyIndex_ge := hb.supplyIndex_ge.trans spec.supplyIndex_le
      supplyIndex_le := spec.supplyIndex_cap }

/-- A sync runs the chunks of the elapsed time and sets the clock. -/
theorem globalSync_ok (h : globalSync c = .ok c') :
    (c.elapsedMs = 0 ∧ c' = c) ∨
      0 < c.elapsedMs ∧ ∃ c1, (chunks c.elapsedMs).foldlM accrueChunk c = .ok c1 ∧
        c' = c1.markAccrued := by
  unfold globalSync Cache.needsAccrual at h
  split at h
  · rename_i hn
    simp only [Fallible.pure_ok_iff] at h
    exact .inl ⟨by simpa using hn, h.symm⟩
  · rename_i hn
    simp only [Fallible.bind_ok_iff, Fallible.pure_ok_iff] at h
    obtain ⟨c1, hc1, rfl⟩ := h
    exact .inr ⟨by simpa [Nat.pos_iff_ne_zero] using hn, c1, hc1, rfl⟩

theorem globalSync_of_elapsed_zero (h : c.elapsedMs = 0) : globalSync c = .ok c := by
  simp [globalSync, Cache.needsAccrual, h, pure, Except.pure]

/-- The chunks keep the bounds, the clock and what accrual does not touch. -/
theorem accrueChunks_sound {deltas : List Nat} (hc : c.Sound)
    (h : deltas.foldlM accrueChunk c = .ok c') :
    c'.Sound ∧ c.Forward c' ∧ c'.lastTimestamp = c.lastTimestamp ∧ c'.cash = c.cash ∧
      c'.borrowed = c.borrowed := by
  refine Fallible.foldlM_inv
    (P := fun d => d.Sound ∧ c.Forward d ∧ d.lastTimestamp = c.lastTimestamp ∧
      d.cash = c.cash ∧ d.borrowed = c.borrowed)
    ?_ ⟨hc, Cache.Forward.refl c, rfl, rfl, rfl⟩ h
  rintro d delta d' - ⟨hd, hfwd, hlast, hcash, hbor⟩ hstep
  obtain ⟨hd', hfwd'⟩ := accrueChunk_sound hd hstep
  obtain ⟨step, -, -, -, rfl⟩ := accrueChunk_ok hstep
  exact ⟨hd', hfwd.trans hfwd', hlast, hcash, hbor⟩

/-- **Accrual keeps the bounds.** It moves both indexes and the clock only forward, and leaves
cash and debt shares alone. -/
theorem globalSync_sound (hc : c.Sound) (h : globalSync c = .ok c') :
    c'.Sound ∧ c.Forward c' ∧ c'.lastTimestamp = max c.lastTimestamp c.currentTimestamp ∧
      c'.cash = c.cash ∧ c'.borrowed = c.borrowed := by
  rcases globalSync_ok h with ⟨hz, rfl⟩ | ⟨hpos, c1, hc1, rfl⟩
  · refine ⟨hc, Cache.Forward.refl _, ?_, rfl, rfl⟩
    unfold Cache.elapsedMs at hz
    omega
  · obtain ⟨hc1, hfwd, -, hcash, hbor⟩ := accrueChunks_sound hc hc1
    refine ⟨hc1.markAccrued, hfwd.trans ⟨rfl, rfl, rfl, le_rfl, le_rfl⟩, ?_, hcash, hbor⟩
    show c1.currentTimestamp = _
    rw [hfwd.currentTimestamp]
    unfold Cache.elapsedMs at hpos
    omega

end Interest

/-! ## Settling at the synced indexes -/

namespace Cache

/-- Supplier claims not covered by debt plus cash, in units of `1 / ray` of a ray unit. -/
def gapRaw (c : Cache) : Int :=
  c.supplied * c.supplyIndex - c.borrowed * c.borrowIndex -
    c.cash * assetUnit c.params.assetDecimals * ray

/-- What an operation does to the synced market: it keeps the bounds, the clock and both
indexes, and does not widen the gap. -/
structure Settles (c c' : Cache) : Prop where
  sound : c'.Sound
  hubAsset : c'.hubAsset = c.hubAsset
  params : c'.params = c.params
  lastTimestamp : c'.lastTimestamp = c.lastTimestamp
  borrowIndex : c'.borrowIndex = c.borrowIndex
  supplyIndex : c'.supplyIndex = c.supplyIndex
  gap_le : c'.gapRaw ≤ c.gapRaw

variable {c c' : Cache}

/-- New totals in bounds settle when the change of the claims is covered. -/
theorem Settles.of_books (hc : c.Sound) {s b r k : Int} (hr : 0 ≤ r) (hrs : r ≤ s)
    (hs : s ≤ i128Max) (hb : 0 ≤ b) (hk : 0 ≤ k)
    (hgap : (s - c.supplied) * c.supplyIndex ≤ (b - c.borrowed) * c.borrowIndex +
      (k - c.cash) * assetUnit c.params.assetDecimals * ray) :
    c.Settles { c with supplied := s, borrowed := b, revenue := r, cash := k } where
  sound := ⟨hc.params,
    { hc.bounds with
      revenue_nonneg := hr
      revenue_le := hrs
      supplied_le := hs
      borrowed_nonneg := hb
      cash_nonneg := hk }⟩
  hubAsset := rfl
  params := rfl
  lastTimestamp := rfl
  borrowIndex := rfl
  supplyIndex := rfl
  gap_le := by
    simp only [gapRaw]
    linarith

theorem Settles.refl (hc : c.Sound) : c.Settles c :=
  ⟨hc, rfl, rfl, rfl, rfl, rfl, le_rfl⟩

end Cache

/-- Booking a fee mints shares worth at most the fee, to revenue and supply alike. -/
theorem Interest.addProtocolRevenue_spec {c c' : Cache} {fee : Int} (hi : 0 < c.supplyIndex)
    (hs : c.supplied ≤ i128Max) (hfee : 0 ≤ fee) (h : addProtocolRevenue c fee = .ok c') :
    ∃ shares, 0 ≤ shares ∧ shares * c.supplyIndex ≤ fee * ray ∧ c.supplied + shares ≤ i128Max ∧
      c' = { c with revenue := c.revenue + shares, supplied := c.supplied + shares } := by
  rcases addProtocolRevenue_ok h with ⟨rfl, rfl⟩ | ⟨shares, hshares, -, hin, rfl⟩
  · exact ⟨0, le_rfl, by simp, by simpa using hs, by simp⟩
  · obtain ⟨h0, hval⟩ := protocolFeeShares_spec hi hfee hs hshares
    exact ⟨shares, h0, hval, hin.2, rfl⟩

theorem Ray.fromAsset_value {fee feeRay : Int} {d : Nat} (hd : d ≤ wadDecimals)
    (h : Ray.fromAsset fee d = .ok feeRay) : feeRay = fee * assetUnit d := by
  rw [Ray.fromAsset_eq hd, toI128_ok_iff] at h
  exact h.2.symm

section
variable {stored : Option PoolSyncData} {timestamp : Nat} {action : PoolAction} {c c' : Cache}

theorem Supply.settles (hc : c.Sound) {minted amount : Int} (ha : 0 ≤ amount)
    (hm : c.calculateScaledSupply amount = .ok minted) (hs : InI128 (c.supplied + minted)) :
    c.Settles { c with supplied := c.supplied + minted, cash := c.cash + amount } := by
  have hb := hc.bounds
  obtain ⟨-, -, rfl⟩ := (calculateScaledSupply_ok_iff hc.decimals_le hc.supplyIndex_pos).mp hm
  have hunit := assetUnit_pos c.params.assetDecimals
  have h0 : 0 ≤ amount * assetUnit c.params.assetDecimals * ray :=
    mul_nonneg (mul_nonneg ha hunit.le) ray_pos.le
  have hmint := floor_nonneg hc.supplyIndex_pos h0
  have hval := floor_mul_le (amount * assetUnit c.params.assetDecimals * ray) hc.supplyIndex_pos
  refine Cache.Settles.of_books hc hb.revenue_nonneg (le_trans hb.revenue_le (by simpa [Cache.commit]))
    hs.2 hb.borrowed_nonneg (add_nonneg hb.cash_nonneg ha) ?_
  linarith

theorem Borrow.settles (hc : c.Sound) {minted amount : Int} (hle : amount ≤ c.cash)
    (hm : c.calculateScaledBorrow amount = .ok minted) (h0 : 0 < minted) :
    c.Settles { c with borrowed := c.borrowed + minted, cash := c.cash - amount } := by
  have hb := hc.bounds
  obtain ⟨-, -, rfl⟩ := (calculateScaledBorrow_ok_iff hc.decimals_le hc.borrowIndex_pos).mp hm
  have hval := le_ceilDiv_mul (amount * assetUnit c.params.assetDecimals * ray) hc.borrowIndex_pos
  refine Cache.Settles.of_books hc hb.revenue_nonneg hb.revenue_le hb.supplied_le
    (add_nonneg hb.borrowed_nonneg h0.le) (sub_nonneg.mpr hle) ?_
  linarith

theorem Withdraw.settles (hc : c.Sound) {liq : Bool} {amount pos burned gross fee net : Int}
    {c1 : Cache} (hfee : 0 ≤ fee)
    (hr : c.resolveWithdrawal amount pos = .ok (burned, gross))
    (hb0 : 0 ≤ burned) (hrev : c.revenue ≤ c.supplied - burned)
    (hw : Withdraw.withholdLiquidationFee { c with supplied := c.supplied - burned } gross liq fee =
      .ok (c1, net)) (hnc : net ≤ c1.cash) :
    c.Settles { c1 with cash := c1.cash - net } := by
  have hb := hc.bounds
  have hval := resolveWithdrawal_backed hc.decimals_le hc.supplyIndex_pos hr
  have hsmax : c.supplied ≤ i128Max := hb.supplied_le
  rcases Withdraw.withholdLiquidationFee_ok hw with ⟨-, rfl, rfl⟩ | ⟨-, -, rfl, feeRay, hf, hadd⟩
  · refine Cache.Settles.of_books hc hb.revenue_nonneg hrev (by dsimp only; omega)
      hb.borrowed_nonneg (sub_nonneg.mpr hnc) ?_
    dsimp only
    linarith
  · have hfr : feeRay = fee * assetUnit c.params.assetDecimals :=
      Ray.fromAsset_value hc.decimals_le hf
    have hunit := assetUnit_pos c.params.assetDecimals
    obtain ⟨shares, hsh0, hsv, hsm, rfl⟩ := Interest.addProtocolRevenue_spec
      (c := { c with supplied := c.supplied - burned }) hc.supplyIndex_pos (by dsimp only; omega)
      (hfr ▸ mul_nonneg hfee hunit.le) hadd
    subst hfr
    refine Cache.Settles.of_books hc (add_nonneg hb.revenue_nonneg hsh0)
      (by dsimp only; linarith) hsm hb.borrowed_nonneg (sub_nonneg.mpr hnc) ?_
    dsimp only at hsv ⊢
    linarith

theorem Repay.settles (hc : c.Sound) {amount pos burned overpaid : Int} (hpos : 0 ≤ pos)
    (hr : c.resolveRepay amount pos = .ok (burned, overpaid)) (hle : burned ≤ c.borrowed)
    (hn : 0 ≤ amount - overpaid) :
    c.Settles { c with
      borrowed := c.borrowed - burned, cash := c.cash + (amount - overpaid) } := by
  have hb := hc.bounds
  have hval := resolveRepay_backed hc.decimals_le hc.borrowIndex_pos hpos hr
  refine Cache.Settles.of_books hc hb.revenue_nonneg hb.revenue_le hb.supplied_le
    (sub_nonneg.mpr hle) (add_nonneg hb.cash_nonneg hn) ?_
  linarith

theorem NetSettle.settles (hc : c.Sound) {amount sp dp bs bd settled : Int} (hsp : 0 ≤ sp)
    (hdp : 0 ≤ dp) (hr : c.resolveNetSettle amount sp dp = .ok (bs, bd, settled))
    (hs0 : 0 ≤ bs) (hrev : c.revenue ≤ c.supplied - bs) (hle : bd ≤ c.borrowed) :
    c.Settles { c with supplied := c.supplied - bs, borrowed := c.borrowed - bd } := by
  have hb := hc.bounds
  have hsmax : c.supplied ≤ i128Max := hb.supplied_le
  obtain ⟨h1, h2⟩ := resolveNetSettle_backed hc.decimals_le hc.supplyIndex_pos
    hc.borrowIndex_pos hsp hdp hr
  refine Cache.Settles.of_books hc hb.revenue_nonneg hrev (by omega) (sub_nonneg.mpr hle)
    hb.cash_nonneg ?_
  linarith

theorem Strategy.computeFee_nonneg {amount fee : Int} {charge : Bool}
    (h : Strategy.computeFee c amount charge = .ok fee) : 0 ≤ fee := by
  unfold Strategy.computeFee at h
  split at h
  · simp only [Fallible.pure_ok_iff] at h
    omega
  · simp only [Fallible.bind_ok_iff, Fallible.require_ok_iff, Fallible.pure_ok_iff] at h
    obtain ⟨_, hf, -, -, rfl⟩ := h
    exact Bps.flashLoanFeeOn_nonneg hf

theorem Strategy.settles (hc : c.Sound) {amount minted fee feeRay : Int} {c1 : Cache}
    (hle : amount ≤ c.cash) (hm : c.calculateScaledBorrow amount = .ok minted) (h0 : 0 < minted)
    (hf0 : 0 ≤ fee) (hf : Ray.fromAsset fee c.params.assetDecimals = .ok feeRay)
    (hadd : Interest.addProtocolRevenue { c with borrowed := c.borrowed + minted } feeRay =
      .ok c1) :
    c.Settles { c1 with cash := c1.cash - (amount - fee) } := by
  have hb := hc.bounds
  have hunit := assetUnit_pos c.params.assetDecimals
  have hfr := Ray.fromAsset_value hc.decimals_le hf
  subst hfr
  have hval : amount * assetUnit c.params.assetDecimals * ray ≤ minted * c.borrowIndex := by
    obtain ⟨-, -, rfl⟩ := (calculateScaledBorrow_ok_iff hc.decimals_le hc.borrowIndex_pos).mp hm
    exact le_ceilDiv_mul _ hc.borrowIndex_pos
  obtain ⟨shares, hsh0, hsv, hsm, rfl⟩ := Interest.addProtocolRevenue_spec
    (c := { c with borrowed := c.borrowed + minted }) hc.supplyIndex_pos hb.supplied_le
    (mul_nonneg hf0 hunit.le) hadd
  have hrev : c.revenue ≤ c.supplied := hb.revenue_le
  refine Cache.Settles.of_books hc (add_nonneg hb.revenue_nonneg hsh0) (by dsimp only; linarith)
    hsm (add_nonneg hb.borrowed_nonneg h0.le) (by dsimp only; omega) ?_
  dsimp only at hsv ⊢
  linarith

theorem Flash.settles (hc : c.Sound) {fee : Int} (h : Flash.bookFee c fee = .ok c') :
    c.Settles c' := by
  have hb := hc.bounds
  have hunit := assetUnit_pos c.params.assetDecimals
  obtain ⟨feeRay, c1, hf, hadd, hf0, rfl⟩ := Flash.bookFee_ok h
  have hfr := Ray.fromAsset_value hc.decimals_le hf
  subst hfr
  obtain ⟨shares, hsh0, hsv, hsm, rfl⟩ := Interest.addProtocolRevenue_spec hc.supplyIndex_pos
    hb.supplied_le (mul_nonneg hf0 hunit.le) hadd
  have hrev : c.revenue ≤ c.supplied := hb.revenue_le
  refine Cache.Settles.of_books hc (add_nonneg hb.revenue_nonneg hsh0) (by dsimp only; linarith)
    hsm hb.borrowed_nonneg (add_nonneg hb.cash_nonneg hf0) ?_
  dsimp only at hsv ⊢
  linarith

/-- A claim pays at most what the burned revenue shares are worth: all of them at their floored
value, or a pro-rata ceiling. -/
theorem Revenue.settles (hc : c.Sound) {c1 : Cache} {amount : Int}
    (h : c.burnClaimableRevenue = .ok (c1, amount)) (hle : amount ≤ c1.cash) :
    c.Settles { c1 with cash := c1.cash - amount } := by
  have hb := hc.bounds
  have hunit := assetUnit_pos c.params.assetDecimals
  have hsmax : c.supplied ≤ i128Max := hb.supplied_le
  have hrev : c.revenue ≤ c.supplied := hb.revenue_le
  obtain ⟨treasury, ht, ⟨rfl, rfl⟩ | ⟨burned, ha0, hac, hat, hburn, hb0, hbr, hbs, rfl⟩⟩ :=
    Cache.burnClaimableRevenue_ok h
  · simpa using Cache.Settles.refl hc
  obtain ⟨-, htv⟩ := (unscaleSupplyFloor_ok_iff hc.decimals_le hb.revenue_nonneg
    hc.supplyIndex_pos.le).mp ht
  have hfloor : treasury * assetUnit c.params.assetDecimals * ray ≤ c.revenue * c.supplyIndex :=
    htv ▸ floor_floor_le hunit
  have hval : amount * assetUnit c.params.assetDecimals * ray ≤ burned * c.supplyIndex := by
    rcases hburn with ⟨rfl, rfl⟩ | hratio
    · exact hfloor
    · -- `burned * treasury ≥ revenue * amount`, and the revenue is worth `treasury` tokens.
      have htpos : 0 < treasury := by omega
      obtain ⟨-, rfl⟩ := (Ray.mulRatioCeil_ok_iff htpos).mp hratio
      have hceil := le_ceilDiv_mul (c.revenue * amount) htpos
      set burned := ceilDiv (c.revenue * amount) treasury
      have h1 : treasury * (amount * assetUnit c.params.assetDecimals * ray) ≤
          treasury * (burned * c.supplyIndex) := by
        calc treasury * (amount * assetUnit c.params.assetDecimals * ray)
            = amount * (treasury * assetUnit c.params.assetDecimals * ray) := by ring
          _ ≤ amount * (c.revenue * c.supplyIndex) := mul_le_mul_of_nonneg_left hfloor ha0.le
          _ = c.revenue * amount * c.supplyIndex := by ring
          _ ≤ burned * treasury * c.supplyIndex :=
            mul_le_mul_of_nonneg_right hceil hc.supplyIndex_pos.le
          _ = treasury * (burned * c.supplyIndex) := by ring
      exact le_of_mul_le_mul_left h1 htpos
  refine Cache.Settles.of_books hc (sub_nonneg.mpr hbr) (by dsimp only; omega)
    (by dsimp only; omega) hb.borrowed_nonneg (sub_nonneg.mpr hle) ?_
  dsimp only
  linarith

theorem Recapitalize.settles (hc : c.Sound) {applied : Int} (h0 : 0 ≤ applied) :
    c.Settles { c with cash := c.cash + applied } := by
  have hb := hc.bounds
  have hunit := assetUnit_pos c.params.assetDecimals
  have hnn : 0 ≤ applied * assetUnit c.params.assetDecimals * ray :=
    mul_nonneg (mul_nonneg h0 hunit.le) ray_pos.le
  refine Cache.Settles.of_books hc hb.revenue_nonneg hb.revenue_le hb.supplied_le
    hb.borrowed_nonneg (add_nonneg hb.cash_nonneg h0) ?_
  linarith

theorem Seize.settles_deposit (hc : c.Sound) {position : Int} (h0 : 0 ≤ position)
    (hle : c.revenue + position ≤ c.supplied) :
    c.Settles { c with revenue := c.revenue + position } := by
  have hb := hc.bounds
  refine Cache.Settles.of_books hc (add_nonneg hb.revenue_nonneg h0) hle hb.supplied_le
    hb.borrowed_nonneg hb.cash_nonneg ?_
  linarith

end

/-! ## What an operation can do -/

section
variable {key : HubAssetKey} {m m' : PoolSyncData} {timestamp : Nat} {op : MarketOp}

/-- The books after an operation other than a write-down: those of a cache that settled at the
synced indexes, under verified parameters of the same asset. -/
def SettledInto (c : Cache) (m' : PoolSyncData) : Prop :=
  ∃ c', c.Settles c' ∧ m'.state = c'.commit.state ∧ m'.params.Verified ∧
    m'.params.assetId = c.params.assetId ∧ m'.params.assetDecimals = c.params.assetDecimals

theorem Cache.Settles.into {c c' : Cache} (h : c.Settles c') : SettledInto c c'.commit :=
  ⟨c', h, rfl, h.sound.params, congrArg MarketParams.assetId h.params,
    congrArg MarketParams.assetDecimals h.params⟩

/-- A write-down of `position` debt shares from the synced cache `c`. -/
def WroteDown (c : Cache) (position : Int) (m' : PoolSyncData) : Prop :=
  0 ≤ position ∧ position ≤ c.borrowed ∧ ∃ badDebt c1,
    c.unscaleBorrowCeilRay position = .ok badDebt ∧
    Interest.applyBadDebtToSupplyIndex c badDebt = .ok c1 ∧
    m' = { c1 with borrowed := c.borrowed - position }.commit

theorem syncedMarket_some {c : Cache} (h : syncedMarket (some m) timestamp key = .ok c) :
    ∃ now, nowMs timestamp = .ok now ∧
      Interest.globalSync (Cache.ofMarket key m now) = .ok c := by
  obtain ⟨m0, now, hm, hnow, hc⟩ := syncedMarket_ok h
  cases hm
  exact ⟨now, hnow, hc⟩

theorem syncedMarket_sound {c : Cache} (hm : m.Sound)
    (h : syncedMarket (some m) timestamp key = .ok c) : c.Sound := by
  obtain ⟨now, -, hc⟩ := syncedMarket_some h
  exact (Interest.globalSync_sound (c := Cache.ofMarket key m now) hm hc).1

/-- **Every operation syncs, then settles or writes down.** -/
theorem MarketOp.apply_cases (hm : m.Sound) (h : op.apply key m timestamp = .ok m') :
    ∃ c, syncedMarket (some m) timestamp key = .ok c ∧
      ((op.isSeizeBorrow = false ∧ SettledInto c m') ∨
        ∃ position, op = .seize .borrow position ∧ WroteDown c position m') := by
  cases op with
  | supply position amount =>
    obtain ⟨⟨c', mutation⟩, ho, h⟩ := Fallible.bind_ok h
    obtain ⟨c, minted, hc, h1, -, -, hmint, -, -, hs, -, rfl, -⟩ := Supply.apply_ok ho
    rw [Fallible.pure_ok_iff] at h
    subst h
    exact ⟨c, hc, .inl ⟨rfl, (Supply.settles (syncedMarket_sound hm hc) h1 hmint hs).into⟩⟩
  | borrow position amount =>
    obtain ⟨o, ho, h⟩ := Fallible.bind_ok h
    obtain ⟨c, minted, hc, -, -, hle, hmint, h0, -, -, hcache, -⟩ := Borrow.accounting_ok ho
    rw [Fallible.pure_ok_iff, hcache] at h
    subst h
    exact ⟨c, hc, .inl ⟨rfl, (Borrow.settles (syncedMarket_sound hm hc) hle hmint h0).into⟩⟩
  | withdraw liq position amount fee =>
    obtain ⟨o, ho, h⟩ := Fallible.bind_ok h
    obtain ⟨c, burned, gross, c1, hc, hfee, -, -, hr, -, hb0, -, -, hrev, hw, -, hnc, hcache, -⟩ :=
      Withdraw.accounting_ok ho
    rw [Fallible.pure_ok_iff, hcache] at h
    subst h
    exact ⟨c, hc, .inl ⟨rfl,
      (Withdraw.settles (syncedMarket_sound hm hc) hfee hr hb0 hrev hw hnc).into⟩⟩
  | repay position amount =>
    obtain ⟨o, ho, h⟩ := Fallible.bind_ok h
    obtain ⟨c, burned, hc, -, hp, hr, -, -, -, hle, hn, hcache, -⟩ := Repay.accounting_ok ho
    rw [Fallible.pure_ok_iff, hcache] at h
    subst h
    exact ⟨c, hc, .inl ⟨rfl, (Repay.settles (syncedMarket_sound hm hc) hp hr hle hn).into⟩⟩
  | netSettle sp dp amount =>
    obtain ⟨⟨c', result⟩, ho, h⟩ := Fallible.bind_ok h
    obtain ⟨c, bs, bd, hc, -, h1, h2, hr, hs0, -, hrev, -, hle, -, -, rfl, -⟩ :=
      NetSettle.apply_ok ho
    rw [Fallible.pure_ok_iff] at h
    subst h
    exact ⟨c, hc, .inl ⟨rfl,
      (NetSettle.settles (syncedMarket_sound hm hc) h1 h2 hr hs0 hrev hle).into⟩⟩
  | createStrategy position amount charge =>
    obtain ⟨o, ho, h⟩ := Fallible.bind_ok h
    obtain ⟨c, minted, feeRay, c1, hc, -, -, hle, hfee, hmint, h0, -, -, hf, hadd, -, hcache, -⟩ :=
      Strategy.accounting_ok ho
    rw [Fallible.pure_ok_iff, hcache] at h
    subst h
    exact ⟨c, hc, .inl ⟨rfl, (Strategy.settles (syncedMarket_sound hm hc) hle hmint h0
      (Strategy.computeFee_nonneg hfee) hf hadd).into⟩⟩
  | flashLoan amount pre =>
    obtain ⟨⟨c', t⟩, ho, h⟩ := Fallible.bind_ok h
    obtain ⟨c, hprep, -, hbook⟩ := Flash.accounting_ok ho
    obtain ⟨-, hc, -, -⟩ := Flash.prepare_ok hprep
    rw [Fallible.pure_ok_iff] at h
    subst h
    exact ⟨c, hc, .inl ⟨rfl, (Flash.settles (syncedMarket_sound hm hc) hbook).into⟩⟩
  | claimRevenue =>
    obtain ⟨o, ho, h⟩ := Fallible.bind_ok h
    obtain ⟨c, c1, hc, hburn, -, hle, hcache⟩ := Revenue.accounting_ok ho
    rw [Fallible.pure_ok_iff, hcache] at h
    subst h
    exact ⟨c, hc, .inl ⟨rfl, (Revenue.settles (syncedMarket_sound hm hc) hburn hle).into⟩⟩
  | recapitalize amount =>
    obtain ⟨o, ho, h⟩ := Fallible.bind_ok h
    obtain ⟨c, shortfall, hc, -, -, -, -, h0, hcache⟩ := Recapitalize.accounting_ok ho
    rw [Fallible.pure_ok_iff, hcache] at h
    subst h
    exact ⟨c, hc, .inl ⟨rfl, (Recapitalize.settles (syncedMarket_sound hm hc) h0).into⟩⟩
  | seize side position =>
    obtain ⟨c', ho, h⟩ := Fallible.bind_ok h
    rw [Fallible.pure_ok_iff] at h
    obtain ⟨c, hc, h0, ⟨rfl, hle, badDebt, c1, hbad, hc1, rfl⟩ | ⟨rfl, hle, rfl⟩⟩ :=
      Seize.apply_ok ho
    · exact ⟨c, hc, .inr ⟨position, rfl, h0, hle, badDebt, c1, hbad, hc1, h.symm⟩⟩
    · subst h
      exact ⟨c, hc, .inl ⟨rfl, (Seize.settles_deposit (syncedMarket_sound hm hc) h0 hle).into⟩⟩
  | updateIndexes =>
    obtain ⟨c, hc, h⟩ := Fallible.bind_ok h
    rw [Fallible.pure_ok_iff] at h
    subst h
    exact ⟨c, hc, .inl ⟨rfl, (Cache.Settles.refl (syncedMarket_sound hm hc)).into⟩⟩
  | updateParams model =>
    obtain ⟨c, hc, hv, rfl⟩ := MarketOps.replaceRateModel_ok h
    exact ⟨c, hc, .inl ⟨rfl, c, Cache.Settles.refl (syncedMarket_sound hm hc), rfl, hv, rfl, rfl⟩⟩

/-- The written-down supply index never exceeds the old one. -/
theorem Interest.writtenDownIndex_le {c : Cache} {badDebt index : Int}
    (h : writtenDownIndex c badDebt = .ok (some index)) : index ≤ c.supplyIndex := by
  obtain ⟨-, hi, ⟨-, hn⟩ | ⟨hpos, hmin, hidx⟩⟩ := writtenDownIndex_ok h
  · cases hn
  cases hidx
  set v := valueOf c.supplied c.supplyIndex
  have hfac : (v - min badDebt v) * ray / v ≤ ray := by
    rw [← Int.lt_add_one_iff, floor_lt_iff hpos]
    nlinarith [ray_pos]
  have hmul := floor_mul_le (c.supplyIndex * ((v - min badDebt v) * ray / v)) ray_pos
  have hmono := mul_le_mul_of_nonneg_left hfac hi
  by_contra hlt
  nlinarith [ray_pos]

/-- A write-down keeps the bounds: the index is floored, and never rises above the cap. -/
theorem WroteDown.sound {c : Cache} {position : Int} (hc : c.Sound)
    (h : WroteDown c position m') :
    m'.Sound ∧ m'.state.borrowIndex = c.borrowIndex ∧ m'.state.lastTimestamp = c.lastTimestamp ∧
      m'.params = c.params := by
  obtain ⟨h0, hle, badDebt, c1, -, hc1, rfl⟩ := h
  have hb := hc.bounds
  rcases Interest.applyBadDebtToSupplyIndex_ok hc1 with ⟨-, rfl⟩ | ⟨index, hidx, rfl⟩
  · exact ⟨⟨hc.params, { hb with borrowed_nonneg := sub_nonneg.mpr hle }⟩, rfl, rfl, rfl⟩
  · have hcap : supplyIndexFloorRaw ≤ maxSupplyIndexRay := by decide
    refine ⟨⟨hc.params, { hb with
      borrowed_nonneg := sub_nonneg.mpr hle
      supplyIndex_ge := le_max_right _ _
      supplyIndex_le := max_le ?_ hcap }⟩, rfl, rfl, rfl⟩
    exact (Interest.writtenDownIndex_le hidx).trans hb.supplyIndex_le

/-- **Every operation keeps the bounds**, and moves the borrow index, the clock and (a
write-down apart) the supply index only up. -/
theorem MarketOp.apply_sound (hm : m.Sound) (h : op.apply key m timestamp = .ok m') :
    m'.Sound ∧ m.state.borrowIndex ≤ m'.state.borrowIndex ∧
      (∃ now, nowMs timestamp = .ok now ∧
        m'.state.lastTimestamp = max m.state.lastTimestamp now) ∧
      (op.isSeizeBorrow = false → m.state.supplyIndex ≤ m'.state.supplyIndex) := by
  obtain ⟨c, hc, hcase⟩ := MarketOp.apply_cases hm h
  obtain ⟨now, hnow, hsync⟩ := syncedMarket_some hc
  obtain ⟨hcs, hfwd, hlast, -, -⟩ := Interest.globalSync_sound (c := Cache.ofMarket key m now) hm hsync
  rcases hcase with ⟨-, c', hset, hstate, hv, -, -⟩ | ⟨position, rfl, hw⟩
  · have hbi : m'.state.borrowIndex = c.borrowIndex := by rw [hstate]; exact hset.borrowIndex
    have hsi : m'.state.supplyIndex = c.supplyIndex := by rw [hstate]; exact hset.supplyIndex
    have hlt : m'.state.lastTimestamp = c.lastTimestamp := by rw [hstate]; exact hset.lastTimestamp
    refine ⟨⟨hv, hstate ▸ hset.sound.state⟩, hbi ▸ hfwd.borrowIndex_le,
      ⟨now, hnow, hlt.trans hlast⟩, fun _ => hsi ▸ hfwd.supplyIndex_le⟩
  · obtain ⟨hs, hbi, hlt, -⟩ := hw.sound hcs
    refine ⟨hs, hbi ▸ hfwd.borrowIndex_le, ⟨now, hnow, hlt.trans hlast⟩, ?_⟩
    intro hcon
    cases hcon

theorem MarketOps.create_sound {params : MarketParams}
    (h : MarketOps.create none timestamp params = .ok m) : m.Sound := by
  obtain ⟨hv, -, now, -, rfl⟩ := MarketOps.create_ok h
  exact ⟨hv, le_rfl, le_rfl, (by decide : (0 : Int) ≤ i128Max), le_rfl, le_rfl, le_rfl,
    ray_le_maxBorrowIndexRay, supplyIndexFloorRaw_lt_ray.le, ray_le_maxBorrowIndexRay⟩

/-- Every state a run reaches is sound, and its clock is the time of the last step. -/
theorem MarketRun.sound {trace : List MarketStep} (h : MarketRun key m timestamp trace) :
    m.Sound ∧ nowMs timestamp = .ok m.state.lastTimestamp := by
  induction h with
  | create params hasset hcreate =>
    refine ⟨MarketOps.create_sound hcreate, ?_⟩
    obtain ⟨-, -, now, hnow, rfl⟩ := MarketOps.create_ok hcreate
    exact hnow
  | step hrun hle happly ih =>
    obtain ⟨hs, -, ⟨now, hnow, hlast⟩, -⟩ := MarketOp.apply_sound ih.1 happly
    refine ⟨hs, ?_⟩
    rw [hlast, hnow]
    have : _ ≤ now := nowMs_mono hle ih.2 hnow
    rw [max_eq_right this]

/-- **Market state bounds.** Every state a run reaches is within the bounds; no operation on it
lowers the borrow index or the clock, and none but a write-down lowers the supply index. -/
theorem market_state_bounds {trace : List MarketStep} (h : MarketRun key m timestamp trace) :
    (0 ≤ m.state.revenue ∧ m.state.revenue ≤ m.state.supplied ∧ 0 ≤ m.state.borrowed ∧
      0 ≤ m.state.cash ∧ ray ≤ m.state.borrowIndex ∧ m.state.borrowIndex ≤ maxBorrowIndexRay ∧
      supplyIndexFloorRaw ≤ m.state.supplyIndex ∧ m.state.supplyIndex ≤ maxSupplyIndexRay) ∧
    ∀ op timestamp' m', timestamp ≤ timestamp' →
      MarketOp.apply key m timestamp' op = .ok m' →
      m.state.borrowIndex ≤ m'.state.borrowIndex ∧
      m.state.lastTimestamp ≤ m'.state.lastTimestamp ∧
      (op.isSeizeBorrow = false → m.state.supplyIndex ≤ m'.state.supplyIndex) := by
  obtain ⟨hs, -⟩ := h.sound
  have hb := hs.state
  refine ⟨⟨hb.revenue_nonneg, hb.revenue_le, hb.borrowed_nonneg, hb.cash_nonneg,
    hb.borrowIndex_ge, hb.borrowIndex_le, hb.supplyIndex_ge, hb.supplyIndex_le⟩, ?_⟩
  intro op timestamp' m' _ happly
  obtain ⟨-, hbi, ⟨now, -, hlast⟩, hsi⟩ := MarketOp.apply_sound hs happly
  exact ⟨hbi, hlast ▸ le_max_left _ _, hsi⟩

end

/-! ## A sample run -/

namespace Sample

def params : MarketParams where
  maxBorrowRate := ray
  baseBorrowRate := ray / 100
  slope1 := ray / 25
  slope2 := ray / 10
  slope3 := ray / 2
  midUtilization := ray / 2
  optimalUtilization := ray / 5 * 4
  maxUtilization := ray / 20 * 19
  reserveFactor := 1_000
  isFlashloanable := true
  flashloanFee := 9
  assetId := 7
  assetDecimals := 7

def key : HubAssetKey := ⟨1, 7⟩

/-- The market after it was created at ledger time 1000, supplied with 1000 tokens and lent out
by half. -/
def lentOut : PoolSyncData where
  params := params
  state :=
    { supplied := 1_000 * ray, borrowed := 500 * ray, revenue := 0, borrowIndex := ray,
      supplyIndex := ray, lastTimestamp := 1_000_000, cash := 5_000_000_000 }

/-- The freshly created market. -/
def created : PoolSyncData where
  params := params
  state :=
    { supplied := 0, borrowed := 0, revenue := 0, borrowIndex := ray, supplyIndex := ray,
      lastTimestamp := 1_000_000, cash := 0 }

/-- The market between the supply and the borrow. -/
def supplied : PoolSyncData where
  params := params
  state := { created.state with supplied := 1_000 * ray, cash := 10_000_000_000 }

theorem lentOut_run : MarketRun key lentOut 1_000
    [⟨supplied, 1_000, .borrow 0 5_000_000_000⟩, ⟨created, 1_000, .supply 0 10_000_000_000⟩] := by
  have h0 : MarketRun key created 1_000 [] := .create params rfl (by decide +kernel)
  have h1 : MarketRun key supplied 1_000 [⟨created, 1_000, .supply 0 10_000_000_000⟩] :=
    h0.step le_rfl (by decide +kernel)
  exact h1.step le_rfl (by decide +kernel)

end Sample

/-- Three years later the sample market's indexes have grown. -/
theorem market_state_bounds_sample :
    ∃ m', MarketOp.apply Sample.key Sample.lentOut 94_671_778 .updateIndexes = .ok m' ∧
      Sample.lentOut.state.borrowIndex ≤ m'.state.borrowIndex ∧
      Sample.lentOut.state.supplyIndex ≤ m'.state.supplyIndex := by
  obtain ⟨m', hm'⟩ : ∃ m', MarketOp.apply Sample.key Sample.lentOut 94_671_778 .updateIndexes =
      .ok m' := ⟨_, rfl⟩
  obtain ⟨hb, -, hs⟩ := (market_state_bounds Sample.lentOut_run).2 _ _ _ (by decide) hm'
  exact ⟨m', hm', hb, hs rfl⟩

end Lending
