import LendingXlm.Common.RatesSpec
import LendingXlm.Pool.Ops

/-!
# What each pool operation does

One inversion lemma per operation of `Pool.Ops`: an operation that returned synced the market
first, and changed exactly the stated fields of the synced cache. The proofs about the pool use
these and never unfold an operation again.
-/

namespace Lending

open FpCore Rounding

/-! ## Cache methods -/

namespace Cache

variable {c c' : Cache} {s amount : Int}

theorem mintSupply_ok_iff :
    c.mintSupply s = .ok c' ↔
      InI128 (c.supplied + s) ∧ c' = { c with supplied := c.supplied + s } := by
  unfold mintSupply
  simp only [Fallible.bind_ok_iff, Ray.checkedAdd_ok_iff, Fallible.pure_ok_iff]
  constructor
  · rintro ⟨_, ⟨h, rfl⟩, rfl⟩
    exact ⟨h, rfl⟩
  · rintro ⟨h, rfl⟩
    exact ⟨_, ⟨h, rfl⟩, rfl⟩

theorem burnSupply_ok_iff :
    c.burnSupply s = .ok c' ↔
      0 ≤ s ∧ s ≤ c.supplied ∧ c.revenue ≤ c.supplied - s ∧
        c' = { c with supplied := c.supplied - s } := by
  unfold burnSupply requireRevenueBacked
  simp only [Fallible.bind_ok_iff, Ray.checkedSub_ok_iff, Fallible.require_ok_iff,
    Fallible.pure_ok_iff]
  constructor
  · rintro ⟨_, ⟨-, h1, h2, rfl⟩, _, h3, rfl⟩
    exact ⟨h1, h2, h3, rfl⟩
  · rintro ⟨h1, h2, h3, rfl⟩
    exact ⟨_, ⟨by omega, h1, h2, rfl⟩, (), h3, rfl⟩

theorem mintDebt_ok_iff :
    c.mintDebt s = .ok c' ↔
      InI128 (c.borrowed + s) ∧ c' = { c with borrowed := c.borrowed + s } := by
  unfold mintDebt
  simp only [Fallible.bind_ok_iff, Ray.checkedAdd_ok_iff, Fallible.pure_ok_iff]
  constructor
  · rintro ⟨_, ⟨h, rfl⟩, rfl⟩
    exact ⟨h, rfl⟩
  · rintro ⟨h, rfl⟩
    exact ⟨_, ⟨h, rfl⟩, rfl⟩

theorem burnDebt_ok_iff :
    c.burnDebt s = .ok c' ↔
      0 ≤ s ∧ s ≤ c.borrowed ∧ c' = { c with borrowed := c.borrowed - s } := by
  unfold burnDebt
  simp only [Fallible.bind_ok_iff, Ray.checkedSub_ok_iff, Fallible.pure_ok_iff]
  constructor
  · rintro ⟨_, ⟨-, h1, h2, rfl⟩, rfl⟩
    exact ⟨h1, h2, rfl⟩
  · rintro ⟨h1, h2, rfl⟩
    exact ⟨_, ⟨by omega, h1, h2, rfl⟩, rfl⟩

theorem accrueRevenue_ok_iff :
    c.accrueRevenue s = .ok c' ↔
      InI128 (c.revenue + s) ∧ InI128 (c.supplied + s) ∧
        c' = { c with revenue := c.revenue + s, supplied := c.supplied + s } := by
  unfold accrueRevenue
  simp only [Fallible.bind_ok_iff, Ray.checkedAdd_ok_iff, Fallible.pure_ok_iff]
  constructor
  · rintro ⟨_, ⟨h1, rfl⟩, _, ⟨h2, rfl⟩, rfl⟩
    exact ⟨h1, h2, rfl⟩
  · rintro ⟨h1, h2, rfl⟩
    exact ⟨_, ⟨h1, rfl⟩, _, ⟨h2, rfl⟩, rfl⟩

theorem absorbSupplyAsRevenue_ok_iff :
    c.absorbSupplyAsRevenue s = .ok c' ↔
      InI128 (c.revenue + s) ∧ c.revenue + s ≤ c.supplied ∧
        c' = { c with revenue := c.revenue + s } := by
  unfold absorbSupplyAsRevenue requireRevenueBacked
  simp only [Fallible.bind_ok_iff, Ray.checkedAdd_ok_iff, Fallible.require_ok_iff,
    Fallible.pure_ok_iff]
  constructor
  · rintro ⟨_, ⟨h1, rfl⟩, _, h2, rfl⟩
    exact ⟨h1, h2, rfl⟩
  · rintro ⟨h1, h2, rfl⟩
    exact ⟨_, ⟨h1, rfl⟩, (), h2, rfl⟩

theorem creditCash_ok_iff :
    c.creditCash amount = .ok c' ↔
      0 ≤ amount ∧ InI128 (c.cash + amount) ∧ c' = { c with cash := c.cash + amount } := by
  unfold creditCash requireNonnegAmount
  simp only [Fallible.bind_ok_iff, Fallible.require_ok_iff, Fallible.orThrow_ok_iff,
    I128.checkedAdd_some, Fallible.pure_ok_iff]
  constructor
  · rintro ⟨_, h1, _, ⟨h2, rfl⟩, rfl⟩
    exact ⟨h1, h2, rfl⟩
  · rintro ⟨h1, h2, rfl⟩
    exact ⟨(), h1, _, ⟨h2, rfl⟩, rfl⟩

theorem debitCash_ok_iff :
    c.debitCash amount = .ok c' ↔
      0 ≤ amount ∧ amount ≤ c.cash ∧ InI128 (c.cash - amount) ∧
        c' = { c with cash := c.cash - amount } := by
  unfold debitCash requireNonnegAmount requireReserves
  simp only [Fallible.bind_ok_iff, Fallible.require_ok_iff, Fallible.orThrow_ok_iff,
    I128.checkedSub_some, Fallible.pure_ok_iff]
  constructor
  · rintro ⟨_, h1, _, h2, _, ⟨h3, rfl⟩, rfl⟩
    exact ⟨h1, h2, h3, rfl⟩
  · rintro ⟨h1, h2, h3, rfl⟩
    exact ⟨(), h1, (), h2, _, ⟨h3, rfl⟩, rfl⟩

/-- Claiming burns either nothing, all revenue, or its pro-rata ceiling. -/
theorem burnClaimableRevenue_ok (h : c.burnClaimableRevenue = .ok (c', amount)) :
    ∃ treasury, c.unscaleSupplyFloor c.revenue = .ok treasury ∧
      ((amount = 0 ∧ c' = c) ∨
        ∃ burned, 0 < amount ∧ amount ≤ c.cash ∧ amount ≤ treasury ∧
          (amount = treasury ∧ burned = c.revenue ∨
            Ray.mulRatioCeil c.revenue amount treasury = .ok burned) ∧
          0 ≤ burned ∧ burned ≤ c.revenue ∧ burned ≤ c.supplied ∧
          c' = { c with revenue := c.revenue - burned, supplied := c.supplied - burned }) := by
  unfold burnClaimableRevenue at h
  obtain ⟨treasury, ht, h⟩ := Fallible.bind_ok h
  refine ⟨treasury, ht, ?_⟩
  dsimp only at h
  split at h
  · simp only [Fallible.pure_ok_iff, Prod.mk.injEq] at h
    exact .inl ⟨h.2.symm, h.1.symm⟩
  rename_i hpos
  simp only [Fallible.bind_ok_iff, Fallible.require_ok_iff, Ray.checkedSub_ok_iff,
    Fallible.pure_ok_iff, Prod.mk.injEq] at h
  obtain ⟨burned, hb, -, -, _, ⟨-, h0, hr, rfl⟩, _, ⟨-, -, hs, rfl⟩, rfl, rfl⟩ := h
  refine .inr ⟨burned, by omega, min_le_left _ _, min_le_right _ _, ?_, h0, hr, hs, rfl⟩
  split at hb
  · rename_i hge
    simp only [Fallible.pure_ok_iff] at hb
    exact .inl ⟨by omega, hb.symm⟩
  · exact .inr hb

end Cache

/-! ## Interest -/

namespace Interest

variable {c c' : Cache} {fee badDebt : Int}

theorem addProtocolRevenue_ok (h : addProtocolRevenue c fee = .ok c') :
    (fee = 0 ∧ c' = c) ∨
      ∃ shares, protocolFeeShares fee c.supplyIndex c.supplied = .ok shares ∧
        InI128 (c.revenue + shares) ∧ InI128 (c.supplied + shares) ∧
        c' = { c with revenue := c.revenue + shares, supplied := c.supplied + shares } := by
  unfold addProtocolRevenue at h
  split at h
  · rename_i hz
    simp only [Fallible.pure_ok_iff] at h
    exact .inl ⟨hz, h.symm⟩
  · obtain ⟨shares, hs, h⟩ := Fallible.bind_ok h
    exact .inr ⟨shares, hs, Cache.accrueRevenue_ok_iff.mp h⟩

/-- A write-down leaves the market alone, or moves the supply index only. -/
theorem applyBadDebtToSupplyIndex_ok (h : applyBadDebtToSupplyIndex c badDebt = .ok c') :
    (writtenDownIndex c badDebt = .ok none ∧ c' = c) ∨
      ∃ index, writtenDownIndex c badDebt = .ok (some index) ∧
        c' = { c with supplyIndex := max index supplyIndexFloorRaw } := by
  unfold applyBadDebtToSupplyIndex at h
  obtain ⟨o, ho, h⟩ := Fallible.bind_ok h
  cases o with
  | none =>
    simp only [Fallible.pure_ok_iff] at h
    exact .inl ⟨ho, h.symm⟩
  | some index =>
    simp only [Fallible.pure_ok_iff] at h
    exact .inr ⟨index, ho, h.symm⟩

/-- The written-down index is the floor of the index times the floored share of the supplied
value that survives. -/
theorem writtenDownIndex_ok {o : Option Int} (h : writtenDownIndex c badDebt = .ok o) :
    0 ≤ c.supplied ∧ 0 ≤ c.supplyIndex ∧
      ((valueOf c.supplied c.supplyIndex = 0 ∧ o = none) ∨
        0 < valueOf c.supplied c.supplyIndex ∧ 0 ≤ min badDebt (valueOf c.supplied c.supplyIndex) ∧
          o = some (c.supplyIndex *
            ((valueOf c.supplied c.supplyIndex - min badDebt (valueOf c.supplied c.supplyIndex)) *
              ray / valueOf c.supplied c.supplyIndex) / ray)) := by
  unfold writtenDownIndex at h
  obtain ⟨total, ht, h⟩ := Fallible.bind_ok h
  obtain ⟨h1, h2, htot, -⟩ := Ray.mul_ok_iff.mp ht
  have hfold : total = valueOf c.supplied c.supplyIndex := htot
  have hnn : 0 ≤ total := htot ▸ halfUpDiv_nonneg ray_pos (mul_nonneg h1 h2)
  refine ⟨h1, h2, ?_⟩
  rw [← hfold]
  split at h
  · rename_i hz
    simp only [Fallible.pure_ok_iff] at h
    exact .inl ⟨hz, h.symm⟩
  · rename_i hz
    have hpos : 0 < total := lt_of_le_of_ne hnn (Ne.symm hz)
    simp only [Fallible.bind_ok_iff, Ray.checkedSub_ok_iff, Ray.divFloor_ok_iff hpos,
      Ray.mulFloor_ok_iff, Fallible.pure_ok_iff] at h
    obtain ⟨_, ⟨-, hc, -, rfl⟩, _, ⟨-, rfl⟩, _, ⟨-, rfl⟩, rfl⟩ := h
    exact .inr ⟨hpos, hc, rfl⟩

end Interest

/-! ## Operations -/

open Ops

section
variable {stored : Option PoolSyncData} {timestamp : Nat} {action : PoolAction} {c' : Cache}

theorem Ops.loadLeg_ok {c : Cache} {position : Int}
    (h : loadLeg stored timestamp action = .ok (c, position)) :
    0 ≤ action.amount ∧ 0 ≤ action.position.scaledAmount ∧
      syncedMarket stored timestamp action.hubAsset = .ok c ∧
      position = action.position.scaledAmount := by
  unfold loadLeg requireNonnegAmount at h
  simp only [Fallible.bind_ok_iff, Fallible.require_ok_iff, Fallible.pure_ok_iff,
    Prod.mk.injEq] at h
  obtain ⟨-, h1, -, h2, c, hc, rfl, rfl⟩ := h
  exact ⟨h1, h2, hc, rfl⟩

theorem Supply.apply_ok {mutation : PoolPositionMutation}
    (h : Supply.apply stored timestamp action = .ok (c', mutation)) :
    ∃ c minted, syncedMarket stored timestamp action.hubAsset = .ok c ∧
      0 ≤ action.amount ∧ 0 ≤ action.position.scaledAmount ∧
      Guards.backingShortfall c = .ok 0 ∧
      c.calculateScaledSupply action.amount = .ok minted ∧
      (action.amount = 0 ∨ 0 < minted) ∧
      InI128 (action.position.scaledAmount + minted) ∧ InI128 (c.supplied + minted) ∧
      InI128 (c.cash + action.amount) ∧
      c' = { c with supplied := c.supplied + minted, cash := c.cash + action.amount } ∧
      mutation = c'.positionMutation (action.position.scaledAmount + minted) action.amount := by
  unfold Supply.apply at h
  obtain ⟨⟨c, position⟩, hl, h⟩ := Fallible.bind_ok h
  obtain ⟨h1, h2, hc, rfl⟩ := loadLeg_ok hl
  unfold Guards.requireBackedMarket at h
  simp only [Fallible.bind_ok_iff, Fallible.require_ok_iff, Ray.checkedAdd_ok_iff,
    Cache.mintSupply_ok_iff, Cache.creditCash_ok_iff, Fallible.pure_ok_iff, Prod.mk.injEq] at h
  obtain ⟨_, ⟨_, hb, rfl⟩, minted, hm, _, hround, _, ⟨hp, rfl⟩, _, ⟨hs, rfl⟩, _, ⟨-, hk, rfl⟩,
    rfl, rfl⟩ := h
  exact ⟨c, minted, hc, h1, h2, hb, hm, hround, hp, hs, hk, rfl, rfl⟩

/-- Minting debt changes the debt total and the position by the same shares. -/
theorem Borrow.mintDebt_ok {c : Cache} {position position' amount : Int}
    (h : Borrow.mintDebt c position amount = .ok (c', position')) :
    ∃ minted, 0 < amount ∧ amount ≤ c.cash ∧ c.calculateScaledBorrow amount = .ok minted ∧
      0 < minted ∧ InI128 (position + minted) ∧ InI128 (c.borrowed + minted) ∧
      c' = { c with borrowed := c.borrowed + minted } ∧ position' = position + minted := by
  unfold Borrow.mintDebt requirePositiveAmount Cache.requireReserves at h
  simp only [Fallible.bind_ok_iff, Fallible.require_ok_iff, Ray.checkedAdd_ok_iff,
    Cache.mintDebt_ok_iff, Fallible.pure_ok_iff, Prod.mk.injEq] at h
  obtain ⟨-, h1, -, h2, _, -, minted, hm, -, h3, _, ⟨hp, rfl⟩, _, ⟨hb, rfl⟩, _, -, rfl, rfl⟩ := h
  exact ⟨minted, h1, h2, hm, h3, hp, hb, rfl, rfl⟩

theorem Borrow.accounting_ok {o : Borrow.Outcome}
    (h : Borrow.accounting stored timestamp action = .ok o) :
    ∃ c minted, syncedMarket stored timestamp action.hubAsset = .ok c ∧
      0 < action.amount ∧ 0 ≤ action.position.scaledAmount ∧ action.amount ≤ c.cash ∧
      c.calculateScaledBorrow action.amount = .ok minted ∧ 0 < minted ∧
      InI128 (action.position.scaledAmount + minted) ∧ InI128 (c.borrowed + minted) ∧
      o.cache = { c with borrowed := c.borrowed + minted, cash := c.cash - action.amount } ∧
      o.mutation = o.cache.positionMutation (action.position.scaledAmount + minted)
        action.amount := by
  unfold Borrow.accounting at h
  obtain ⟨⟨c, position⟩, hl, h⟩ := Fallible.bind_ok h
  obtain ⟨-, h2, hc, rfl⟩ := loadLeg_ok hl
  obtain ⟨⟨c1, p1⟩, hm, h⟩ := Fallible.bind_ok h
  obtain ⟨minted, h3, h4, hmint, h5, hp, hb, rfl, rfl⟩ := Borrow.mintDebt_ok hm
  simp only [Fallible.bind_ok_iff, Cache.debitCash_ok_iff, Fallible.pure_ok_iff] at h
  obtain ⟨_, ⟨-, -, -, rfl⟩, rfl⟩ := h
  exact ⟨c, minted, hc, h3, h2, h4, hmint, h5, hp, hb, rfl, rfl⟩

theorem Withdraw.resolveCloseOrPartial_ok {c : Cache} {amount position burned gross : Int}
    (h : Withdraw.resolveCloseOrPartial c amount position = .ok (burned, gross)) :
    c.resolveWithdrawal amount position = .ok (burned, gross) ∧ (gross = 0 ∨ 0 < burned) := by
  unfold Withdraw.resolveCloseOrPartial at h
  obtain ⟨⟨b, g⟩, hr, h⟩ := Fallible.bind_ok h
  simp only [Fallible.bind_ok_iff, Fallible.require_ok_iff, Fallible.pure_ok_iff,
    Prod.mk.injEq] at h
  obtain ⟨-, h1, rfl, rfl⟩ := h
  exact ⟨hr, h1⟩

/-- Withholding books shares for the fee and pays the rest. -/
theorem Withdraw.withholdLiquidationFee_ok {c : Cache} {gross fee net : Int} {liq : Bool}
    (h : Withdraw.withholdLiquidationFee c gross liq fee = .ok (c', net)) :
    ((liq = false ∨ fee = 0) ∧ c' = c ∧ net = gross) ∨
      (liq = true ∧ fee ≤ gross ∧ net = gross - fee ∧
        ∃ feeRay, Ray.fromAsset fee c.params.assetDecimals = .ok feeRay ∧
          Interest.addProtocolRevenue c feeRay = .ok c') := by
  unfold Withdraw.withholdLiquidationFee at h
  split at h
  · rename_i hcase
    simp only [Fallible.pure_ok_iff, Prod.mk.injEq] at h
    refine .inl ⟨?_, h.1.symm, h.2.symm⟩
    rcases hcase with hl | hf
    · exact .inl (by simpa using hl)
    · exact .inr hf
  · rename_i hcase
    push Not at hcase
    simp only [Fallible.bind_ok_iff, Fallible.require_ok_iff, Fallible.orThrow_ok_iff,
      I128.checkedSub_some, Fallible.pure_ok_iff, Prod.mk.injEq] at h
    obtain ⟨-, h1, feeRay, hf, c1, hc, _, ⟨-, rfl⟩, rfl, rfl⟩ := h
    exact .inr ⟨hcase.1, h1, rfl, feeRay, hf, hc⟩

theorem Withdraw.gateAndDebit_ok {c : Cache} {net : Int} {skip : Bool}
    (h : Withdraw.gateAndDebit c net skip = .ok c') :
    0 ≤ net ∧ net ≤ c.cash ∧ Guards.requireSupplyForDebt c = .ok () ∧
      c' = { c with cash := c.cash - net } := by
  unfold Withdraw.gateAndDebit Cache.requireReserves at h
  simp only [Fallible.bind_ok_iff, Fallible.require_ok_iff] at h
  obtain ⟨-, -, h⟩ := h
  split at h <;>
    simp only [Fallible.bind_ok_iff, Cache.debitCash_ok_iff] at h
  · obtain ⟨_, -, _, hg, h1, h2, -, rfl⟩ := h
    exact ⟨h1, h2, hg, rfl⟩
  · obtain ⟨_, hg, h1, h2, -, rfl⟩ := h
    exact ⟨h1, h2, hg, rfl⟩

theorem Withdraw.accounting_ok {liq : Bool} {entry : PoolWithdrawEntry} {o : Withdraw.Outcome}
    (h : Withdraw.accounting stored timestamp liq entry = .ok o) :
    ∃ c burned gross c1, syncedMarket stored timestamp entry.action.hubAsset = .ok c ∧
      0 ≤ entry.protocolFee ∧ 0 ≤ entry.action.amount ∧
      0 ≤ entry.action.position.scaledAmount ∧
      c.resolveWithdrawal entry.action.amount entry.action.position.scaledAmount =
        .ok (burned, gross) ∧
      (gross = 0 ∨ 0 < burned) ∧ 0 ≤ burned ∧ burned ≤ entry.action.position.scaledAmount ∧
      burned ≤ c.supplied ∧ c.revenue ≤ c.supplied - burned ∧
      Withdraw.withholdLiquidationFee { c with supplied := c.supplied - burned } gross liq
        entry.protocolFee = .ok (c1, o.netTransfer) ∧
      0 ≤ o.netTransfer ∧ o.netTransfer ≤ c1.cash ∧
      o.cache = { c1 with cash := c1.cash - o.netTransfer } ∧
      o.mutation = o.cache.positionMutation (entry.action.position.scaledAmount - burned)
        gross := by
  unfold Withdraw.accounting requireNonnegAmount at h
  obtain ⟨_, hfee, h⟩ := Fallible.bind_ok h
  rw [Fallible.require_ok_iff] at hfee
  obtain ⟨⟨c, position⟩, hl, h⟩ := Fallible.bind_ok h
  obtain ⟨h1, h2, hc, rfl⟩ := loadLeg_ok hl
  obtain ⟨⟨burned, gross⟩, hr, h⟩ := Fallible.bind_ok h
  obtain ⟨hres, hround⟩ := Withdraw.resolveCloseOrPartial_ok hr
  unfold Withdraw.burnPosition at h
  simp only [Fallible.bind_ok_iff, Cache.burnSupply_ok_iff, Ray.checkedSub_ok_iff,
    Fallible.pure_ok_iff] at h
  obtain ⟨_, ⟨_, ⟨hb0, hbs, hrev, rfl⟩, _, ⟨-, -, hbp, rfl⟩, rfl⟩, ⟨c1, net⟩, hw, c2, hg, rfl⟩ := h
  obtain ⟨hn0, hnc, -, rfl⟩ := Withdraw.gateAndDebit_ok hg
  exact ⟨c, burned, gross, c1, hc, hfee, h1, h2, hres, hround, hb0, hbp, hbs, hrev, hw, hn0, hnc,
    rfl, rfl⟩

theorem Repay.accounting_ok {o : Repay.Outcome}
    (h : Repay.accounting stored timestamp action = .ok o) :
    ∃ c burned, syncedMarket stored timestamp action.hubAsset = .ok c ∧
      0 ≤ action.amount ∧ 0 ≤ action.position.scaledAmount ∧
      c.resolveRepay action.amount action.position.scaledAmount = .ok (burned, o.overpayment) ∧
      (action.amount - o.overpayment = 0 ∨ 0 < burned) ∧ 0 ≤ burned ∧
      burned ≤ action.position.scaledAmount ∧ burned ≤ c.borrowed ∧
      0 ≤ action.amount - o.overpayment ∧
      o.cache = { c with
        borrowed := c.borrowed - burned, cash := c.cash + (action.amount - o.overpayment) } ∧
      o.mutation = o.cache.positionMutation (action.position.scaledAmount - burned)
        (action.amount - o.overpayment) := by
  unfold Repay.accounting at h
  obtain ⟨⟨c, position⟩, hl, h⟩ := Fallible.bind_ok h
  obtain ⟨h1, h2, hc, rfl⟩ := loadLeg_ok hl
  obtain ⟨⟨burned, overpaid⟩, hr, h⟩ := Fallible.bind_ok h
  simp only [Fallible.bind_ok_iff, Fallible.orThrow_ok_iff, I128.checkedSub_some,
    Fallible.require_ok_iff, Ray.checkedSub_ok_iff, Cache.burnDebt_ok_iff,
    Cache.creditCash_ok_iff, Fallible.pure_ok_iff] at h
  obtain ⟨_, ⟨-, rfl⟩, -, hround, _, ⟨-, hb0, hbp, rfl⟩, _, ⟨-, hbb, rfl⟩, _, ⟨hn, -, rfl⟩,
    rfl⟩ := h
  exact ⟨c, burned, hc, h1, h2, hr, hround, hb0, hbp, hbb, hn, rfl, rfl⟩

theorem NetSettle.apply_ok {entry : PoolNetSettleEntry} {result : PoolNetSettleResult}
    (h : NetSettle.apply stored timestamp entry = .ok (c', result)) :
    ∃ c burnedSupply burnedDebt, syncedMarket stored timestamp entry.hubAsset = .ok c ∧
      0 ≤ entry.amount ∧ 0 ≤ entry.supplyPosition.scaledAmount ∧
      0 ≤ entry.debtPosition.scaledAmount ∧
      c.resolveNetSettle entry.amount entry.supplyPosition.scaledAmount
        entry.debtPosition.scaledAmount = .ok (burnedSupply, burnedDebt, result.settledAmount) ∧
      0 ≤ burnedSupply ∧ burnedSupply ≤ c.supplied ∧ c.revenue ≤ c.supplied - burnedSupply ∧
      0 ≤ burnedDebt ∧ burnedDebt ≤ c.borrowed ∧
      burnedSupply ≤ entry.supplyPosition.scaledAmount ∧
      burnedDebt ≤ entry.debtPosition.scaledAmount ∧
      c' = { c with
        supplied := c.supplied - burnedSupply, borrowed := c.borrowed - burnedDebt } ∧
      result.supplyPosition.scaledAmount = entry.supplyPosition.scaledAmount - burnedSupply ∧
      result.debtPosition.scaledAmount = entry.debtPosition.scaledAmount - burnedDebt ∧
      result.marketIndex = c'.marketIndex := by
  unfold NetSettle.apply requireNonnegAmount at h
  simp only [Fallible.bind_ok_iff, Fallible.require_ok_iff] at h
  obtain ⟨-, h1, -, h2, -, h3, c, hc, ⟨bs, bd, settled⟩, hr, h⟩ := h
  simp only [Cache.burnSupply_ok_iff, Cache.burnDebt_ok_iff, Ray.checkedSub_ok_iff,
    Fallible.pure_ok_iff, Prod.mk.injEq] at h
  obtain ⟨-, -, _, ⟨hs0, hss, hrev, rfl⟩, _, ⟨hd0, hdd, rfl⟩, -, -, _, ⟨-, -, hsp, rfl⟩, _,
    ⟨-, -, hdp, rfl⟩, rfl, rfl⟩ := h
  exact ⟨c, bs, bd, hc, h1, h2, h3, hr, hs0, hss, hrev, hd0, hdd, hsp, hdp, rfl, rfl, rfl, rfl⟩

theorem Strategy.accounting_ok {chargeFee : Bool} {o : Strategy.Outcome}
    (h : Strategy.accounting stored timestamp action chargeFee = .ok o) :
    ∃ c minted feeRay c1, syncedMarket stored timestamp action.hubAsset = .ok c ∧
      0 < action.amount ∧ 0 ≤ action.position.scaledAmount ∧ action.amount ≤ c.cash ∧
      Strategy.computeFee c action.amount chargeFee = .ok o.fee ∧
      c.calculateScaledBorrow action.amount = .ok minted ∧ 0 < minted ∧
      InI128 (action.position.scaledAmount + minted) ∧ InI128 (c.borrowed + minted) ∧
      Ray.fromAsset o.fee c.params.assetDecimals = .ok feeRay ∧
      Interest.addProtocolRevenue { c with borrowed := c.borrowed + minted } feeRay = .ok c1 ∧
      0 ≤ action.amount - o.fee ∧
      o.cache = { c1 with cash := c1.cash - (action.amount - o.fee) } ∧
      o.mutation = o.cache.strategyMutation (action.position.scaledAmount + minted)
        action.amount (action.amount - o.fee) := by
  unfold Strategy.accounting requireNonnegAmount at h
  simp only [Fallible.bind_ok_iff, Fallible.require_ok_iff] at h
  obtain ⟨-, -, -, h2, c, hc, fee, hfee, ⟨cm, pm⟩, hm, h⟩ := h
  obtain ⟨minted, h3, h4, hmint, h5, hp, hb, rfl, rfl⟩ := Borrow.mintDebt_ok hm
  simp only [Fallible.orThrow_ok_iff, I128.checkedSub_some, Cache.debitCash_ok_iff,
    Fallible.pure_ok_iff] at h
  obtain ⟨feeRay, hf, c1, hc1, _, ⟨-, rfl⟩, _, ⟨hs, -, -, rfl⟩, rfl⟩ := h
  exact ⟨c, minted, feeRay, c1, hc, h3, h2, h4, hfee, hmint, h5, hp, hb, hf, hc1, hs, rfl, rfl⟩

theorem Flash.prepare_ok {hubAsset : HubAssetKey} {amount : Int} {c : Cache}
    (h : Flash.prepare stored timestamp hubAsset amount = .ok c) :
    0 < amount ∧ syncedMarket stored timestamp hubAsset = .ok c ∧
      c.params.isFlashloanable = true ∧ amount ≤ c.cash := by
  unfold Flash.prepare requirePositiveAmount Cache.requireReserves at h
  simp only [Fallible.bind_ok_iff, Fallible.require_ok_iff, Fallible.pure_ok_iff] at h
  obtain ⟨-, h1, c, hc, -, h2, -, h3, rfl⟩ := h
  exact ⟨h1, hc, h2, h3⟩

theorem Flash.bookFee_ok {c : Cache} {fee : Int} (h : Flash.bookFee c fee = .ok c') :
    ∃ feeRay c1, Ray.fromAsset fee c.params.assetDecimals = .ok feeRay ∧
      Interest.addProtocolRevenue c feeRay = .ok c1 ∧ 0 ≤ fee ∧
      c' = { c1 with cash := c1.cash + fee } := by
  unfold Flash.bookFee at h
  simp only [Fallible.bind_ok_iff, Cache.creditCash_ok_iff] at h
  obtain ⟨feeRay, hf, c1, hc, h0, -, rfl⟩ := h
  exact ⟨feeRay, c1, hf, hc, h0, rfl⟩

theorem Flash.accounting_ok {hubAsset : HubAssetKey} {amount pre : Int} {t : Flash.Terms}
    (h : Flash.accounting stored timestamp hubAsset amount pre = .ok (c', t)) :
    ∃ c, Flash.prepare stored timestamp hubAsset amount = .ok c ∧
      Flash.terms amount c.params.flashloanFee pre = .ok t ∧ Flash.bookFee c t.fee = .ok c' := by
  unfold Flash.accounting at h
  simp only [Fallible.bind_ok_iff, Fallible.pure_ok_iff, Prod.mk.injEq] at h
  obtain ⟨c, hc, t, ht, c1, hb, rfl, rfl⟩ := h
  exact ⟨c, hc, ht, hb⟩

theorem Revenue.accounting_ok {hubAsset : HubAssetKey} {o : Revenue.Outcome}
    (h : Revenue.accounting stored timestamp hubAsset = .ok o) :
    ∃ c c1, syncedMarket stored timestamp hubAsset = .ok c ∧
      c.burnClaimableRevenue = .ok (c1, o.actualAmount) ∧
      0 ≤ o.actualAmount ∧ o.actualAmount ≤ c1.cash ∧
      o.cache = { c1 with cash := c1.cash - o.actualAmount } := by
  unfold Revenue.accounting at h
  simp only [Fallible.bind_ok_iff] at h
  obtain ⟨c, hc, ⟨c1, net⟩, hb, h⟩ := h
  simp only [Cache.debitCash_ok_iff, Fallible.pure_ok_iff] at h
  obtain ⟨_, -, _, -, _, ⟨h0, h1, -, rfl⟩, rfl⟩ := h
  exact ⟨c, c1, hc, hb, h0, h1, rfl⟩

theorem Recapitalize.accounting_ok {hubAsset : HubAssetKey} {amount : Int}
    {o : Recapitalize.Outcome}
    (h : Recapitalize.accounting stored timestamp hubAsset amount = .ok o) :
    ∃ c shortfall, syncedMarket stored timestamp hubAsset = .ok c ∧ 0 ≤ amount ∧
      Guards.backingShortfall c = .ok shortfall ∧ o.actualAmount = min amount shortfall ∧
      o.refund = amount - o.actualAmount ∧ 0 ≤ o.actualAmount ∧
      o.cache = { c with cash := c.cash + o.actualAmount } := by
  unfold Recapitalize.accounting requireNonnegAmount at h
  simp only [Fallible.bind_ok_iff, Fallible.require_ok_iff, Fallible.orThrow_ok_iff,
    I128.checkedSub_some, Cache.creditCash_ok_iff, Fallible.pure_ok_iff] at h
  obtain ⟨-, h1, c, hc, s, hs, _, ⟨-, rfl⟩, _, ⟨h2, -, rfl⟩, rfl⟩ := h
  exact ⟨c, s, hc, h1, hs, rfl, rfl, h2, rfl⟩

theorem Seize.apply_ok {entry : PoolSeizeEntry} (h : Seize.apply stored timestamp entry = .ok c') :
    ∃ c, syncedMarket stored timestamp entry.hubAsset = .ok c ∧ 0 ≤ entry.position.scaledAmount ∧
      ((entry.side = .borrow ∧ entry.position.scaledAmount ≤ c.borrowed ∧
          ∃ badDebt c1, c.unscaleBorrowCeilRay entry.position.scaledAmount = .ok badDebt ∧
            Interest.applyBadDebtToSupplyIndex c badDebt = .ok c1 ∧
            c' = { c1 with borrowed := c.borrowed - entry.position.scaledAmount }) ∨
        (entry.side = .deposit ∧ c.revenue + entry.position.scaledAmount ≤ c.supplied ∧
          c' = { c with revenue := c.revenue + entry.position.scaledAmount })) := by
  unfold Seize.apply requireNonnegAmount at h
  simp only [Fallible.bind_ok_iff, Fallible.require_ok_iff] at h
  obtain ⟨-, h1, c, hc, h⟩ := h
  refine ⟨c, hc, h1, ?_⟩
  split at h
  · rename_i hside
    simp only [Fallible.bind_ok_iff, Cache.burnDebt_ok_iff] at h
    obtain ⟨badDebt, hbad, c1, hc1, -, hle, rfl⟩ := h
    have hb : c1.borrowed = c.borrowed := by
      rcases Interest.applyBadDebtToSupplyIndex_ok hc1 with ⟨-, rfl⟩ | ⟨index, -, rfl⟩ <;> rfl
    rw [hb] at hle
    exact .inl ⟨hside, hle, badDebt, c1, hbad, hc1, by rw [hb]⟩
  · rename_i hside
    obtain ⟨-, h2, rfl⟩ := Cache.absorbSupplyAsRevenue_ok_iff.mp h
    exact .inr ⟨hside, h2, rfl⟩

theorem MarketOps.create_ok {params : MarketParams} {m : PoolSyncData}
    (h : MarketOps.create stored timestamp params = .ok m) :
    params.Verified ∧ stored = none ∧ ∃ now, nowMs timestamp = .ok now ∧
      m = { params, state := { supplied := 0, borrowed := 0, revenue := 0, borrowIndex := ray,
                               supplyIndex := ray, lastTimestamp := now, cash := 0 } } := by
  unfold MarketOps.create at h
  simp only [Fallible.bind_ok_iff, MarketParams.verify_ok_iff, Fallible.require_ok_iff,
    Fallible.pure_ok_iff] at h
  obtain ⟨-, hv, -, hn, now, hnow, rfl⟩ := h
  exact ⟨hv, hn, now, hnow, rfl⟩

theorem MarketOps.replaceRateModel_ok {hubAsset : HubAssetKey} {model : InterestRateModel}
    {m : PoolSyncData} (h : MarketOps.replaceRateModel stored timestamp hubAsset model = .ok m) :
    ∃ c, syncedMarket stored timestamp hubAsset = .ok c ∧ m.params.Verified ∧
      m = { c.commit with params := { c.params with toInterestRateModel := model } } := by
  unfold MarketOps.replaceRateModel at h
  simp only [Fallible.bind_ok_iff, MarketParams.verify_ok_iff, Fallible.pure_ok_iff] at h
  obtain ⟨c, hc, -, hv, rfl⟩ := h
  exact ⟨c, hc, hv, rfl⟩

/-- A synced market was stored, and is the loaded cache after accrual to the ledger's time. -/
theorem Ops.syncedMarket_ok {hubAsset : HubAssetKey} {c : Cache}
    (h : syncedMarket stored timestamp hubAsset = .ok c) :
    ∃ m now, stored = some m ∧ nowMs timestamp = .ok now ∧
      Interest.globalSync (Cache.ofMarket hubAsset m now) = .ok c := by
  unfold syncedMarket Cache.load at h
  simp only [Fallible.bind_ok_iff, Fallible.orThrow_ok_iff, Fallible.pure_ok_iff] at h
  obtain ⟨_, ⟨m, rfl, now, hn, rfl⟩, hc⟩ := h
  exact ⟨m, now, rfl, hn, hc⟩

end

end Lending
