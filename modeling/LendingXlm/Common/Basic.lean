import LendingXlm.Lib.Fallible
import Mathlib.Order.Basic
import Mathlib.Tactic.Linarith
import Mathlib.Tactic.NormNum

/-!
# Errors, constants and machine integers

The contract errors of `common/src/errors.rs` that a modelled function can raise, the
constants of `common/src/constants`, and the source's `i128` as the integers between
`i128Min` and `i128Max`: an arithmetic step that could leave them is written with a
`checked` or `saturating` operation, as in the source.
-/

namespace Lending

export Fallible (require orThrow)

/-! ## Errors -/

/-- The errors raised by the modelled functions, in the order of the source's enums
`GenericError`, `CollateralError`, `OracleError`, `SpokeError`, `FlashLoanError` and
`StrategyError`, then those of the pause switch. `foreignTrap` is a trap inside a contract that
is not part of the repository (a token, a swap router, a flash-loan receiver). -/
inductive Error where
  | assetAlreadySupported | assetsAreTheSame | accountNotInMarket | amountMustBePositive
  | invalidPayments | invalidAsset | wrongToken | accountNotFound | accountModeMismatch
  | aggregatorNotSet | poolNotInitialized | ownerNotSet | mathOverflow | internalError
  | invalidPositionLimits | positionLimitsNotSet | blendPoolNotApproved | hubNotActive
  | notAuthorized | registryCapReached | borrowRoundsToZeroShares | withdrawRoundsToZeroShares
  | netSettleRoundsToZeroShares | supplyRoundsToZeroShares | repayRoundsToZeroShares
  | positionNftNotSet | divisionByZero
  | insufficientCollateral | healthFactorTooHigh | healthFactorTooLow | notCollateral
  | assetNotBorrowable | positionLimitExceeded | invalidPositionMode | insufficientLiquidity
  | invalidLiqThreshold | cannotCleanBadDebt | withdrawLessThanFee | invalidBorrowParams
  | invalidUtilRange | optUtilTooHigh | invalidReserveFactor | debtPositionNotFound
  | collateralPositionNotFound | cannotCloseWithRemainingDebt | poolInsolvent
  | minBorrowCollateralNotMet | utilizationAboveMax | baseRateNegative | slopeNonMonotonic
  | maxRateBelowBase | maxBorrowRateTooHigh | assetDecimalsTooHigh
  | selfLiquidationNotAllowed | invalidLiquidationCurve
  | invalidPrice | oracleNotConfigured | noAccumulator
  | spokeNotFound | spokeDeprecated | assetNotInSpoke | assetAlreadyInSpoke | spokeAssetInUse
  | spokeMismatch | spokeSupplyCapReached | spokeBorrowCapReached | spokeAssetPaused
  | spokeAssetFrozen | spokeAssetFlagRelaxation | spokeAssetSeizureHalted
  | spokeAssetFlagsUnchanged | spokeFlagsEpochMismatch
  | flashLoanOngoing | flashloanNotEnabled | invalidFlashloanRepay | strategyFeeExceeds
  | invalidFlashloanReceiver
  | convertStepsRequired | routerOverspend | noSwapOutput | collateralRequired
  | collateralMinimumNotMet | flashPositionClosed
  | enforcedPause | expectedPause
  | foreignTrap
  deriving DecidableEq, Repr

/-- A contract computation: a value, or the error the transaction reverts with. -/
abbrev Result := Except Error

/-! ## Constants -/

/-- `RAY`: one unit at 27 decimals. -/
def ray : Int := 1_000_000_000_000_000_000_000_000_000

/-- `WAD`: one unit at 18 decimals. -/
def wad : Int := 1_000_000_000_000_000_000

/-- `BPS`: the basis-point denominator. -/
def bps : Int := 10_000

def rayDecimals : Nat := 27
def wadDecimals : Nat := 18
def minBorrowableAssetDecimals : Nat := 3
def minWholeUnitCollateral : Int := 2
def millisecondsPerYear : Nat := 31_556_926_000
def msPerSecond : Nat := 1_000
def maxFlashloanFeeBps : Int := 500
def positionLimitMax : Nat := 5
def supplyIndexFloorRaw : Int := ray / 1_000
def maxBorrowRateRay : Int := 2 * ray
def liquidationBufferBps : Int := 200
def maxBorrowIndexRay : Int := 1_000_000_000_000_000_000_000_000_000_000_000_000
def maxSupplyIndexRay : Int := maxBorrowIndexRay

theorem ray_pos : 0 < ray := by decide

theorem wad_pos : 0 < wad := by decide

theorem bps_pos : 0 < bps := by decide

theorem supplyIndexFloorRaw_pos : 0 < supplyIndexFloorRaw := by decide

theorem supplyIndexFloorRaw_lt_ray : supplyIndexFloorRaw < ray := by decide

theorem ray_le_maxBorrowIndexRay : ray ≤ maxBorrowIndexRay := by decide

/-! ## `i128` -/

def i128Max : Int := 170141183460469231731687303715884105727
def i128Min : Int := -170141183460469231731687303715884105728

/-- `x` is representable as an `i128`. -/
def InI128 (x : Int) : Prop := i128Min ≤ x ∧ x ≤ i128Max

instance : DecidablePred InI128 := fun _ => inferInstanceAs (Decidable (_ ∧ _))

namespace I128

def checkedAdd (a b : Int) : Option Int := if InI128 (a + b) then some (a + b) else none

def checkedSub (a b : Int) : Option Int := if InI128 (a - b) then some (a - b) else none

def checkedMul (a b : Int) : Option Int := if InI128 (a * b) then some (a * b) else none

/-- `checked_div`: truncates towards zero; `None` for a zero divisor or an overflowing
quotient. -/
def checkedDiv (a b : Int) : Option Int :=
  if b = 0 then none else if InI128 (a.tdiv b) then some (a.tdiv b) else none

def checkedPow (b : Int) (n : Nat) : Option Int := if InI128 (b ^ n) then some (b ^ n) else none

def saturatingSub (a b : Int) : Int := max i128Min (min i128Max (a - b))

end I128

@[simp] theorem I128.checkedAdd_some {a b c : Int} :
    I128.checkedAdd a b = some c ↔ InI128 (a + b) ∧ a + b = c := by
  simp [I128.checkedAdd]

@[simp] theorem I128.checkedSub_some {a b c : Int} :
    I128.checkedSub a b = some c ↔ InI128 (a - b) ∧ a - b = c := by
  simp [I128.checkedSub]

@[simp] theorem I128.checkedMul_some {a b c : Int} :
    I128.checkedMul a b = some c ↔ InI128 (a * b) ∧ a * b = c := by
  simp [I128.checkedMul]

theorem inI128_of_nonneg {x : Int} (h0 : 0 ≤ x) (h1 : x ≤ i128Max) : InI128 x :=
  ⟨le_trans (by decide) h0, h1⟩

/-! ## `u32` and `u64`

Unsigned quantities are naturals: a subtraction that the source saturates is the natural one, and
the other saturating operations stop at the bounds below. -/

def u32Max : Nat := 4_294_967_295
def u64Max : Nat := 18_446_744_073_709_551_615

namespace U64

def saturatingAdd (a b : Nat) : Nat := min u64Max (a + b)

def saturatingMul (a b : Nat) : Nat := min u64Max (a * b)

end U64

namespace U32

def saturatingAdd (a b : Nat) : Nat := min u32Max (a + b)

def saturatingMul (a b : Nat) : Nat := min u32Max (a * b)

end U32

/-! ## `common/src/validation.rs` -/

def requirePositiveAmount (amount : Int) : Result Unit :=
  require (0 < amount) .amountMustBePositive

def requireNonnegAmount (amount : Int) : Result Unit :=
  require (0 ≤ amount) .amountMustBePositive

def expectInvariant {α : Type} (opt : Option α) : Result α :=
  orThrow opt .internalError

def requireNonEmptyPayments {α : Type} (payments : List α) : Result Unit :=
  require (payments ≠ []) .invalidPayments

end Lending
