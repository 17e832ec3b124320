import LendingXlm.Common.Rates
import LendingXlm.Lib.SortedMap

/-!
# Controller types

`common/src/types/controller.rs`, with the parts of `pool.rs`, `oracle.rs` and `shared.rs` the
controller uses, and the controller's constants. Basis points and counters are the source's
`u32` and `u64`, kept as naturals; shares, indexes and money are its `i128`.
-/

namespace Lending

/-! ## Constants -/

def defaultMinBorrowCollateralUsdWad : Int := 5 * wad
def badDebtUsdThreshold : Int := defaultMinBorrowCollateralUsdWad
def thresholdUpdateMinHfRaw : Int := 1_050_000_000_000_000_000
def maxLiquidationTargetHfWad : Int := 10 * wad
def defaultLiquidationTargetHfWad : Int := 1_100_000_000_000_000_000
def defaultHfForMaxBonusWad : Int := 800_000_000_000_000_000
def defaultLiquidationBonusFactorBps : Nat := 10_000
def withdrawAllSentinel : Int := i128Max
def blendWithdrawAllAmount : Int := 1_000_000_000_000_000_000_000_000_000_000
def maxDelegates : Nat := 16

/-- One more than the largest `u32`. -/
def u32Bound : Nat := 4_294_967_296

/-! ## Prices -/

structure PriceFeed where
  price : Int
  assetDecimals : Nat
  timestamp : Nat
  deriving DecidableEq, Repr

def PriceFeed.usdValueWad (feed : PriceFeed) (tokenAmount : Int) : Result Int := do
  Wad.mul (← Wad.fromToken tokenAmount feed.assetDecimals) feed.price

/-! ## Configuration -/

structure AssetConfig where
  loanToValue : Nat
  liquidationThreshold : Nat
  liquidationBonus : Nat
  liquidationFees : Nat
  isCollateralizable : Bool
  isBorrowable : Bool
  deriving DecidableEq, Repr

structure SpokeAssetConfig extends AssetConfig where
  paused : Bool
  frozen : Bool
  noSeize : Bool
  supplyCap : Int
  borrowCap : Int
  deriving DecidableEq, Repr

structure SpokeConfig where
  isDeprecated : Bool
  liquidationTargetHfWad : Int
  hfForMaxBonusWad : Int
  liquidationBonusFactorBps : Nat
  deriving DecidableEq, Repr

structure HubConfig where
  isActive : Bool
  deriving DecidableEq, Repr

structure PositionLimits where
  maxBorrowPositions : Nat
  maxSupplyPositions : Nat
  deriving DecidableEq, Repr

/-- Scaled supply and borrow of one market within a spoke. -/
structure SpokeUsage where
  suppliedScaledRay : Int := 0
  borrowedScaledRay : Int := 0
  deriving DecidableEq, Repr

/-- A market listed in a spoke. -/
structure SpokeAssetKey where
  spokeId : Nat
  hubAsset : HubAssetKey
  deriving DecidableEq, Repr

instance : LinearOrder SpokeAssetKey :=
  LinearOrder.lift' (fun k => toLex (k.spokeId, k.hubAsset)) fun a b h => by
    cases a
    cases b
    simp_all

/-! ## Accounts -/

inductive PositionMode where
  | normal | multiply | long | short
  deriving DecidableEq, Repr

structure AccountMeta where
  spokeId : Nat
  mode : PositionMode
  deriving DecidableEq, Repr

/-- A supply position with the risk parameters stamped on it. -/
structure AccountPosition where
  scaledAmount : Int
  liquidationThreshold : Nat
  liquidationBonus : Nat
  loanToValue : Nat
  liquidationFees : Nat
  deriving DecidableEq, Repr

structure DebtPosition where
  scaledAmount : Int
  deriving DecidableEq, Repr

structure DelegateGrant where
  grantedBy : Address
  delegates : List Address
  deriving DecidableEq, Repr

structure Account where
  owner : Address
  spokeId : Nat
  mode : PositionMode
  supplyPositions : SortedMap HubAssetKey AccountPosition
  borrowPositions : SortedMap HubAssetKey DebtPosition
  deriving DecidableEq, Repr

namespace Account

/-- The stored position, or an empty one stamped from `config`. -/
def getOrCreateSupplyPosition (a : Account) (hubAsset : HubAssetKey) (config : AssetConfig) :
    AccountPosition :=
  (a.supplyPositions.get? hubAsset).getD
    { scaledAmount := Ray.zero
      liquidationThreshold := config.liquidationThreshold
      liquidationBonus := config.liquidationBonus
      loanToValue := config.loanToValue
      liquidationFees := config.liquidationFees }

def getOrCreateDebtPosition (a : Account) (hubAsset : HubAssetKey) : DebtPosition :=
  (a.borrowPositions.get? hubAsset).getD { scaledAmount := Ray.zero }

def isEmpty (a : Account) : Bool := a.supplyPositions.isEmpty && a.borrowPositions.isEmpty

def debtFree (a : Account) : Bool := a.borrowPositions.isEmpty

/-- Every position of the account holds shares. -/
structure Positive (account : Account) : Prop where
  supply : ∀ {hubAsset position}, account.supplyPositions.get? hubAsset = some position →
    0 < position.scaledAmount
  debt : ∀ {hubAsset position}, account.borrowPositions.get? hubAsset = some position →
    0 < position.scaledAmount

end Account

/-! ## Payments and liquidations -/

/-- An amount of a market's asset. -/
abbrev HubPayment := HubAssetKey × Int

structure PaymentTuple where
  asset : Address
  amount : Int
  deriving DecidableEq, Repr

/-- How a liquidator takes the seized collateral: paid out, or credited as shares to an account
(`0` for a new one). -/
inductive SeizeMode where
  | transfer
  | credit (id : Nat)
  deriving DecidableEq, Repr

/-- One seized collateral, in asset units (`amount`, `protocolFee`) for a transfer and in shares
(`scaledAmount`, `bonusScaled`, `liquidationFees`) for a credit. -/
structure SeizeEntry where
  hubAsset : HubAssetKey
  amount : Int
  protocolFee : Int
  scaledAmount : Int
  bonusScaled : Int
  liquidationFees : Nat
  feed : PriceFeed
  marketIndex : MarketIndex
  deriving DecidableEq, Repr

/-- One repaid debt, with its value and the price and indexes it was valued at. -/
structure RepayEntry where
  hubAsset : HubAssetKey
  amount : Int
  usdWad : Int
  feed : PriceFeed
  marketIndex : MarketIndex
  deriving DecidableEq, Repr

end Lending
