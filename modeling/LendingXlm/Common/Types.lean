import LendingXlm.Common.Math
import Mathlib.Data.Prod.Lex

/-!
# Market types

`common/src/types/pool.rs`: the interest-rate model with its checks, the market parameters and
state, and the requests and results of the pool's operations. The source keeps a wire form
(`…Raw`) and a typed form of most of them with the same fields; one structure stands for both.
Event payloads (`MarketStateSnapshot`) are left out: nothing reads them back.
-/

namespace Lending

/-- A contract or account address. -/
abbrev Address := Nat

/-- A market: an asset listed on a hub. -/
structure HubAssetKey where
  hubId : Nat
  asset : Address
  deriving DecidableEq, Repr

/-- Host maps compare structures field by field in the order of the field names, so `asset`
comes first. -/
instance : LinearOrder HubAssetKey :=
  LinearOrder.lift' (fun k => toLex (k.asset, k.hubId)) fun a b h => by
    cases a
    cases b
    simp_all

/-! ## Parameters -/

structure InterestRateModel where
  maxBorrowRate : Int
  baseBorrowRate : Int
  slope1 : Int
  slope2 : Int
  slope3 : Int
  midUtilization : Int
  optimalUtilization : Int
  maxUtilization : Int
  reserveFactor : Nat
  isFlashloanable : Bool
  flashloanFee : Nat
  deriving DecidableEq, Repr

structure MarketParams extends InterestRateModel where
  assetId : Address
  assetDecimals : Nat
  deriving DecidableEq, Repr

def InterestRateModel.verify (m : InterestRateModel) : Result Unit := do
  require (0 ≤ m.baseBorrowRate) .baseRateNegative
  if m.slope1 < m.baseBorrowRate ∨ m.slope2 < m.slope1 ∨ m.slope3 < m.slope2 ∨
      m.maxBorrowRate < m.slope3 then
    throw .slopeNonMonotonic
  require (m.baseBorrowRate < m.maxBorrowRate) .maxRateBelowBase
  require (m.maxBorrowRate ≤ maxBorrowRateRay) .maxBorrowRateTooHigh
  require (0 < m.midUtilization) .invalidUtilRange
  require (m.midUtilization < m.optimalUtilization) .invalidUtilRange
  require (m.optimalUtilization < ray) .optUtilTooHigh
  if m.maxUtilization < m.optimalUtilization ∨ m.maxUtilization > ray then
    throw .invalidUtilRange
  require ((m.reserveFactor : Int) < bps) .invalidReserveFactor
  require ((m.flashloanFee : Int) ≤ maxFlashloanFeeBps) .invalidBorrowParams

def MarketParams.verify (p : MarketParams) : Result Unit := do
  require (p.assetDecimals ≤ wadDecimals) .assetDecimalsTooHigh
  require (¬ p.isFlashloanable ∨ p.assetDecimals ≥ minBorrowableAssetDecimals)
    .invalidBorrowParams
  p.toInterestRateModel.verify

/-- What a rate model that passes `verify` satisfies. -/
structure InterestRateModel.Verified (m : InterestRateModel) : Prop where
  base_nonneg : 0 ≤ m.baseBorrowRate
  base_le_slope1 : m.baseBorrowRate ≤ m.slope1
  slope1_le_slope2 : m.slope1 ≤ m.slope2
  slope2_le_slope3 : m.slope2 ≤ m.slope3
  slope3_le_max : m.slope3 ≤ m.maxBorrowRate
  base_lt_max : m.baseBorrowRate < m.maxBorrowRate
  max_le : m.maxBorrowRate ≤ maxBorrowRateRay
  mid_pos : 0 < m.midUtilization
  mid_lt_optimal : m.midUtilization < m.optimalUtilization
  optimal_lt_ray : m.optimalUtilization < ray
  optimal_le_maxUtil : m.optimalUtilization ≤ m.maxUtilization
  maxUtil_le_ray : m.maxUtilization ≤ ray
  reserveFactor_lt : (m.reserveFactor : Int) < bps
  flashloanFee_le : (m.flashloanFee : Int) ≤ maxFlashloanFeeBps

structure MarketParams.Verified (p : MarketParams) : Prop extends
    InterestRateModel.Verified p.toInterestRateModel where
  decimals_le : p.assetDecimals ≤ wadDecimals
  flashloanable : p.isFlashloanable = true → minBorrowableAssetDecimals ≤ p.assetDecimals

theorem InterestRateModel.verify_ok_iff {m : InterestRateModel} {u : Unit} :
    m.verify = .ok u ↔ m.Verified := by
  unfold InterestRateModel.verify
  constructor
  · intro h
    simp only [Fallible.bind_ok_iff, Fallible.require_ok_iff] at h
    obtain ⟨-, hbase, h⟩ := h
    split at h
    · simp at h
    rename_i hslopes
    simp only [Fallible.bind_ok_iff, Fallible.require_ok_iff] at h
    obtain ⟨-, hmax, -, hcap, -, hmid, -, hopt, -, hray, h⟩ := h
    split at h
    · simp at h
    rename_i hutil
    simp only [Fallible.bind_ok_iff, Fallible.require_ok_iff] at h
    obtain ⟨-, hres, hfee⟩ := h
    push Not at hslopes hutil
    exact ⟨hbase, hslopes.1, hslopes.2.1, hslopes.2.2.1, hslopes.2.2.2, hmax, hcap, hmid, hopt,
      hray, hutil.1, hutil.2, hres, hfee⟩
  · intro h
    have h1 : ¬ (m.slope1 < m.baseBorrowRate ∨ m.slope2 < m.slope1 ∨ m.slope3 < m.slope2 ∨
        m.maxBorrowRate < m.slope3) := by
      have := h.base_le_slope1; have := h.slope1_le_slope2
      have := h.slope2_le_slope3; have := h.slope3_le_max
      omega
    have h2 : ¬ (m.maxUtilization < m.optimalUtilization ∨ m.maxUtilization > ray) := by
      have := h.optimal_le_maxUtil; have := h.maxUtil_le_ray
      omega
    simp [h1, h2, require, h.base_nonneg, h.base_lt_max, h.max_le, h.mid_pos, h.mid_lt_optimal,
      h.optimal_lt_ray, h.reserveFactor_lt, h.flashloanFee_le]

theorem MarketParams.verify_ok_iff {p : MarketParams} {u : Unit} :
    p.verify = .ok u ↔ p.Verified := by
  unfold MarketParams.verify
  simp only [Fallible.bind_ok_iff, Fallible.require_ok_iff, InterestRateModel.verify_ok_iff,
    exists_const]
  constructor
  · rintro ⟨hdec, hflash, hmodel⟩
    exact ⟨hmodel, hdec, fun h => hflash.resolve_left (by simp [h])⟩
  · intro h
    refine ⟨h.decimals_le, ?_, h.toVerified⟩
    by_cases hf : p.isFlashloanable = true
    · exact .inr (h.flashloanable hf)
    · exact .inl hf

/-! ## State and positions -/

structure PoolState where
  supplied : Int
  borrowed : Int
  revenue : Int
  borrowIndex : Int
  supplyIndex : Int
  lastTimestamp : Nat
  cash : Int
  deriving DecidableEq, Repr

structure MarketIndex where
  borrowIndex : Int
  supplyIndex : Int
  deriving DecidableEq, Repr

structure PoolSyncData where
  params : MarketParams
  state : PoolState
  deriving DecidableEq, Repr

structure ScaledPosition where
  scaledAmount : Int
  deriving DecidableEq, Repr

inductive AccountPositionType where
  | deposit | borrow
  deriving DecidableEq, Repr

/-! ## Requests and results -/

structure PoolAction where
  position : ScaledPosition
  amount : Int
  hubAsset : HubAssetKey
  deriving DecidableEq, Repr

structure PoolWithdrawEntry where
  action : PoolAction
  protocolFee : Int
  deriving DecidableEq, Repr

structure PoolSeizeEntry where
  side : AccountPositionType
  position : ScaledPosition
  hubAsset : HubAssetKey
  deriving DecidableEq, Repr

structure PoolNetSettleEntry where
  supplyPosition : ScaledPosition
  debtPosition : ScaledPosition
  amount : Int
  hubAsset : HubAssetKey
  deriving DecidableEq, Repr

structure PoolPositionMutation where
  position : ScaledPosition
  marketIndex : MarketIndex
  actualAmount : Int
  assetDecimals : Nat
  deriving DecidableEq, Repr

structure PoolStrategyMutation where
  position : ScaledPosition
  marketIndex : MarketIndex
  actualAmount : Int
  amountReceived : Int
  assetDecimals : Nat
  deriving DecidableEq, Repr

def PoolStrategyMutation.toPositionMutation (m : PoolStrategyMutation) : PoolPositionMutation where
  position := m.position
  marketIndex := m.marketIndex
  actualAmount := m.actualAmount
  assetDecimals := m.assetDecimals

structure PoolNetSettleResult where
  supplyPosition : ScaledPosition
  debtPosition : ScaledPosition
  marketIndex : MarketIndex
  settledAmount : Int
  deriving DecidableEq, Repr

end Lending
