import LendingXlm.Common.Types

/-!
# Programs of the swap router

`errors.rs`, `constants.rs`, `types.rs` and `program.rs` of the swap aggregator. A strategy is a
packed program over a registry of addresses and a registry of amounts; `Program.decode` checks
every index before anything runs. The XDR decoding of the payload is the host's, so a payload is
already a `StrategyPayload` here.
-/

namespace Lending.SwapAggregator

/-! ## `errors.rs` -/

/-- The router's errors. `generic` is an error of the shared libraries; `hostTrap` is a failed call
into a token or a venue, or an index outside a vector. -/
inductive RouterError where
  | emptyBatch | invalidAmount | brokenTokenChain | slippageExceeded | zeroOutput
  | integerOverflow | zeroSplitPpm | splitPpmMismatch | invalidRouteXdr | feeTooHigh
  | referralNotFound | sameToken | lpTokenMismatch | minSharesNotMet | minAmountsNotMet
  | excessiveResidual | internalInvariant
  | generic (e : Error)
  | hostTrap
  deriving DecidableEq, Repr

/-- Computations of the shared libraries. -/
instance : MonadLift Result (Except RouterError) where
  monadLift x := x.mapError .generic

/-! ## `constants.rs` -/

def ppmDenominator : Int := 1_000_000
def residualDustFloor : Int := 1_000
def residualPpm : Int := 1_000_000
def feeCap : Nat := 1_000

def residualAllowance (credited : Int) : Int := max (credited.tdiv residualPpm) residualDustFloor

/-! ## `math.rs` -/

def checkedAdd (lhs rhs : Int) : Except RouterError Int :=
  orThrow (I128.checkedAdd lhs rhs) .integerOverflow

def checkedMul (lhs rhs : Int) : Except RouterError Int :=
  orThrow (I128.checkedMul lhs rhs) .integerOverflow

/-! ## `types.rs` -/

inductive SwapVenue where
  | soroswap | aquarius | phoenix | sushi | cometDex | curve
  deriving DecidableEq, Repr

structure SwapHop where
  pool : Address
  tokenIn : Address
  tokenOut : Address
  venue : SwapVenue
  deriving DecidableEq, Repr

structure StrategyPayload where
  amounts : List Int
  assets : List Address
  ops : List UInt8
  deriving DecidableEq, Repr

structure ReferralConfig where
  owner : Address
  feeBps : Nat
  active : Bool
  deriving DecidableEq, Repr

/-! ## `program.rs` -/

def version : Nat := 1
def headerLen : Nat := 10
def opLen : Nat := 5
def weightLen : Nat := 3

/-- Byte offsets within the header. -/
def headVersion : Nat := 0
def headTokenIn : Nat := 1
def headTokenOut : Nat := 2
def headMinOut : Nat := 3
def headReferral : Nat := 4
def headOpCount : Nat := 8
def headWeightCount : Nat := 9

/-- Byte offsets within one instruction record. -/
def fieldOpcode : Nat := 0
def fieldMode : Nat := 1
def fieldPool : Nat := 2
def fieldTokenIn : Nat := 3
def fieldTokenOut : Nat := 4

def maxOps : Nat := 48
def maxWeights : Nat := 32
def maxProgramBytes : Nat := headerLen + opLen * maxOps + weightLen * maxWeights
def modeAll : Nat := 0
def modePrev : Nat := 1
def modeFixedBase : Nat := 2
def modePpmBase : Nat := 128
def maxAssets : Nat := 256
def maxAmounts : Nat := modePpmBase - modeFixedBase

inductive Opcode where
  | swap (venue : SwapVenue)
  | burn
  | mint
  deriving DecidableEq, Repr

def Opcode.fromU8 : Nat → Option Opcode
  | 0 => some (.swap .soroswap)
  | 1 => some (.swap .aquarius)
  | 2 => some (.swap .phoenix)
  | 3 => some (.swap .sushi)
  | 4 => some (.swap .cometDex)
  | 5 => some .burn
  | 6 => some .mint
  | 7 => some (.swap .curve)
  | _ => none

inductive Mode where
  | all
  | prev
  | fixed (idx : Nat)
  | ppm (idx : Nat)
  deriving DecidableEq, Repr

def Mode.fromU8 (value : Nat) : Mode :=
  if value = modeAll then .all
  else if value = modePrev then .prev
  else if modePpmBase ≤ value then .ppm (value - modePpmBase)
  else .fixed (value - modeFixedBase)

structure Op where
  opcode : Opcode
  mode : Mode
  idxA : Nat
  idxB : Nat
  idxC : Nat
  deriving DecidableEq, Repr

/-- A program over its bytes, which read as zero past their end. -/
structure Program where
  buf : List UInt8
  opCount : Nat
  weightsAt : Nat
  tokenIn : Nat
  tokenOut : Nat
  minOut : Nat
  referralId : Nat
  deriving DecidableEq, Repr

def byteAt (buf : List UInt8) (i : Nat) : Nat := (buf.getD i 0).toNat

namespace Program

/-- A field of instruction `i`. -/
def raw (p : Program) (i field : Nat) : Nat := byteAt p.buf (headerLen + opLen * i + field)

def op (p : Program) (i : Nat) : Except RouterError Op := do
  let opcode ← orThrow (Opcode.fromU8 (p.raw i fieldOpcode)) .invalidRouteXdr
  return ⟨opcode, .fromU8 (p.raw i fieldMode), p.raw i fieldPool, p.raw i fieldTokenIn,
    p.raw i fieldTokenOut⟩

/-- Split weight `i`, in parts per million. -/
def weight (p : Program) (i : Nat) : Nat :=
  let i := p.weightsAt + weightLen * i
  byteAt p.buf i * 2 ^ 16 + byteAt p.buf (i + 1) * 2 ^ 8 + byteAt p.buf (i + 2)

/-- Both indices name the same token. -/
def sameToken (assets : List Address) (a b : Nat) : Bool :=
  decide (a = b) || decide (assets[a]? = assets[b]?)

/-- The index of the single output of the instruction before `i`. -/
def produced (p : Program) (i : Nat) : Except RouterError Nat :=
  match Opcode.fromU8 (p.raw (i - 1) fieldOpcode) with
  | some (.swap _) => pure (p.raw (i - 1) fieldTokenOut)
  | some .mint => pure (p.raw (i - 1) fieldTokenIn)
  | _ => throw .brokenTokenChain

/-- The checks of `validate` on the amount of an instruction that continues the one before. -/
def validatePrev (p : Program) (i idxB : Nat) : Except RouterError Unit := do
  require (i ≠ 0) .brokenTokenChain
  let output ← p.produced i
  require (idxB = output) .brokenTokenChain

/-- The checks of `validate` on the table index in a mode. -/
def validateMode (mode : Mode) (amountsLen weightCount : Nat) : Except RouterError Unit :=
  match mode with
  | .fixed idx => require (idx < amountsLen) .invalidRouteXdr
  | .ppm idx => require (idx < weightCount) .invalidRouteXdr
  | .all | .prev => pure ()

/-- The checks of `validate` on the operands of an instruction. -/
def validateOperands (assets : List Address) (amountsLen : Nat) (op : Op) :
    Except RouterError Unit := do
  require (op.idxA < assets.length ∧ op.idxB < assets.length) .invalidRouteXdr
  match op.opcode with
  | .swap _ =>
    require (op.idxC < assets.length) .invalidRouteXdr
    require (sameToken assets op.idxB op.idxC = false) .sameToken
  | .burn | .mint =>
    require (op.mode = .all) .invalidRouteXdr
    require (op.idxC < amountsLen) .invalidRouteXdr

/-- The checks of `validate` on instruction `i`. -/
def validateOp (p : Program) (assets : List Address) (amountsLen weightCount i : Nat) :
    Except RouterError Unit := do
  let op ← p.op i
  if op.mode = .prev then p.validatePrev i op.idxB
  validateMode op.mode amountsLen weightCount
  validateOperands assets amountsLen op

def validate (p : Program) (assets : List Address) (amountsLen weightCount : Nat) :
    Except RouterError Unit := do
  (List.range p.opCount).forM (p.validateOp assets amountsLen weightCount)
  (List.range weightCount).forM fun i => do
    require (p.weight i ≠ 0) .zeroSplitPpm
    require ((p.weight i : Int) ≤ ppmDenominator) .splitPpmMismatch

def decode (ops : List UInt8) (assets : List Address) (amountsLen : Nat) :
    Except RouterError Program := do
  require (assets.length ≠ 0 ∧ assets.length ≤ maxAssets ∧ amountsLen ≤ maxAmounts)
    .invalidRouteXdr
  require (headerLen ≤ ops.length ∧ ops.length ≤ maxProgramBytes) .invalidRouteXdr
  require (byteAt ops headVersion = version) .invalidRouteXdr
  let opCount := byteAt ops headOpCount
  let weightCount := byteAt ops headWeightCount
  require (opCount ≠ 0 ∧ opCount ≤ maxOps ∧ weightCount ≤ maxWeights) .emptyBatch
  let weightsAt := headerLen + opLen * opCount
  require (ops.length = weightsAt + weightLen * weightCount) .invalidRouteXdr
  let tokenIn := byteAt ops headTokenIn
  let tokenOut := byteAt ops headTokenOut
  let minOut := byteAt ops headMinOut
  require (tokenIn < assets.length ∧ tokenOut < assets.length ∧ minOut < amountsLen)
    .invalidRouteXdr
  require (sameToken assets tokenIn tokenOut = false) .sameToken
  let referralId := byteAt ops headReferral * 2 ^ 24 + byteAt ops (headReferral + 1) * 2 ^ 16 +
    byteAt ops (headReferral + 2) * 2 ^ 8 + byteAt ops (headReferral + 3)
  let program := ⟨ops, opCount, weightsAt, tokenIn, tokenOut, minOut, referralId⟩
  program.validate assets amountsLen weightCount
  return program

end Program

end Lending.SwapAggregator
