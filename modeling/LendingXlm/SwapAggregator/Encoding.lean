import LendingXlm.Lib.Records
import LendingXlm.SwapAggregator.Program
import Mathlib.Tactic.IntervalCases

/-!
# The program encoding

`encode` of `program.rs` writes a header, the instructions and the weights; `Program::decode`
reads them back. `Source.Valid` says what a well-formed program is in its own terms.

* `Source.read_program`, `Source.program_read`: writing and reading are inverse;
* `decode_iff`: decoding accepts the encodings of valid sources and nothing else;
* `decode_program`, `decode_source`: on those it is the inverse of encoding.
-/

namespace Lending.SwapAggregator

open Records

/-! ## `encode` -/

/-- The four bytes of `u32::to_be_bytes`. -/
def toBeBytes (x : UInt32) : List UInt8 :=
  [UInt8.ofNat (x.toNat / 2 ^ 24), UInt8.ofNat (x.toNat / 2 ^ 16), UInt8.ofNat (x.toNat / 2 ^ 8),
    UInt8.ofNat x.toNat]

structure RawOp where
  opcode : UInt8
  mode : UInt8
  idxA : UInt8
  idxB : UInt8
  idxC : UInt8
  deriving DecidableEq, Repr

def RawOp.bytes (op : RawOp) : List UInt8 := [op.opcode, op.mode, op.idxA, op.idxB, op.idxC]

theorem RawOp.length_bytes (op : RawOp) : op.bytes.length = opLen := rfl

/-- The last three bytes of a weight. -/
def weightBytes (weight : UInt32) : List UInt8 := (toBeBytes weight).drop 1

theorem length_weightBytes (weight : UInt32) : (weightBytes weight).length = weightLen := rfl

/-- The arguments of `encode::program`. -/
structure Source where
  tokenIn : UInt8
  tokenOut : UInt8
  minOut : UInt8
  referralId : UInt32
  ops : List RawOp
  weights : List UInt32
  deriving DecidableEq, Repr

namespace Source

def header (src : Source) : List UInt8 :=
  [UInt8.ofNat version, src.tokenIn, src.tokenOut, src.minOut] ++ toBeBytes src.referralId ++
    [UInt8.ofNat src.ops.length, UInt8.ofNat src.weights.length]

/-- `encode::program`. -/
def program (src : Source) : List UInt8 :=
  src.header ++ (pack RawOp.bytes src.ops ++ pack weightBytes src.weights)

/-! ## Reading -/

def readOp (bytes : List UInt8) (i : Nat) : RawOp where
  opcode := bytes.getD (headerLen + opLen * i + fieldOpcode) 0
  mode := bytes.getD (headerLen + opLen * i + fieldMode) 0
  idxA := bytes.getD (headerLen + opLen * i + fieldPool) 0
  idxB := bytes.getD (headerLen + opLen * i + fieldTokenIn) 0
  idxC := bytes.getD (headerLen + opLen * i + fieldTokenOut) 0

def readWeight (bytes : List UInt8) (pos : Nat) : UInt32 :=
  UInt32.ofNat (byteAt bytes pos * 2 ^ 16 + byteAt bytes (pos + 1) * 2 ^ 8 + byteAt bytes (pos + 2))

/-- What the bytes say, whether or not they are a program. -/
def read (bytes : List UInt8) : Source where
  tokenIn := bytes.getD headTokenIn 0
  tokenOut := bytes.getD headTokenOut 0
  minOut := bytes.getD headMinOut 0
  referralId := UInt32.ofNat (byteAt bytes headReferral * 2 ^ 24 +
    byteAt bytes (headReferral + 1) * 2 ^ 16 + byteAt bytes (headReferral + 2) * 2 ^ 8 +
    byteAt bytes (headReferral + 3))
  ops := (List.range (byteAt bytes headOpCount)).map (readOp bytes)
  weights := (List.range (byteAt bytes headWeightCount)).map fun i =>
    readWeight bytes (headerLen + opLen * byteAt bytes headOpCount + weightLen * i)

/-! ## Offsets -/

variable {src : Source}

theorem length_header (src : Source) : src.header.length = headerLen := rfl

theorem length_program (src : Source) :
    src.program.length = headerLen + opLen * src.ops.length + weightLen * src.weights.length := by
  rw [program, List.length_append, List.length_append, length_header,
    length_pack RawOp.length_bytes, length_pack length_weightBytes]
  exact (Nat.add_assoc _ _ _).symm

theorem program_header {k : Nat} (hk : k < headerLen) :
    src.program.getD k 0 = src.header.getD k 0 :=
  List.getD_append _ _ _ _ (by rw [length_header]; exact hk)

theorem program_op {i j : Nat} {op : RawOp} (hi : src.ops[i]? = some op) (hj : j < opLen) :
    src.program.getD (headerLen + opLen * i + j) 0 = op.bytes.getD j 0 := by
  rw [program, Nat.add_assoc, ← length_header src, getD_append_add]
  exact getD_pack RawOp.length_bytes hi hj

theorem program_weight {i j : Nat} {weight : UInt32} (hi : src.weights[i]? = some weight)
    (hj : j < weightLen) :
    src.program.getD (headerLen + opLen * src.ops.length + weightLen * i + j) 0 =
      (weightBytes weight).getD j 0 := by
  have hlen : (pack RawOp.bytes src.ops).length = opLen * src.ops.length :=
    length_pack RawOp.length_bytes
  rw [program, Nat.add_assoc, Nat.add_assoc, ← length_header src, getD_append_add, ← hlen,
    getD_append_add]
  rw [← List.append_nil (pack weightBytes src.weights)]
  exact getD_pack length_weightBytes hi hj

/-! ## Writing and reading are inverse -/

theorem byteAt_lt (bytes : List UInt8) (k : Nat) : byteAt bytes k < 256 :=
  (bytes.getD k 0).toNat_lt

/-- The counts and weights that fit the fields of the encoding. -/
structure Fits (src : Source) : Prop where
  ops : src.ops.length < 256
  weights : src.weights.length < 256
  weight : ∀ weight ∈ src.weights, weight.toNat < 2 ^ 24

theorem byteAt_opCount (h : src.Fits) : byteAt src.program headOpCount = src.ops.length := by
  rw [byteAt, program_header (by decide)]
  exact (UInt8.toNat_ofNat').trans (Nat.mod_eq_of_lt h.ops)

theorem byteAt_weightCount (h : src.Fits) :
    byteAt src.program headWeightCount = src.weights.length := by
  rw [byteAt, program_header (by decide)]
  exact (UInt8.toNat_ofNat').trans (Nat.mod_eq_of_lt h.weights)

theorem readOp_program {i : Nat} {op : RawOp} (hi : src.ops[i]? = some op) :
    readOp src.program i = op := by
  unfold readOp
  rw [program_op hi (by decide), program_op hi (by decide), program_op hi (by decide),
    program_op hi (by decide), program_op hi (by decide)]
  rfl

theorem readWeight_program (h : src.Fits) {i : Nat} {weight : UInt32}
    (hi : src.weights[i]? = some weight) :
    readWeight src.program (headerLen + opLen * src.ops.length + weightLen * i) = weight := by
  have hlt := h.weight weight (List.mem_of_getElem? hi)
  unfold readWeight byteAt
  have h0 := program_weight (j := 0) hi (by decide)
  rw [Nat.add_zero] at h0
  rw [h0, program_weight hi (by decide), program_weight hi (by decide)]
  refine UInt32.toNat_inj.mp ?_
  simp only [weightBytes, toBeBytes, List.drop_succ_cons, List.drop_zero, List.getD_cons_zero,
    List.getD_cons_succ, UInt8.toNat_ofNat', UInt32.toNat_ofNat']
  omega

theorem read_program (h : src.Fits) : read src.program = src := by
  have hops : (List.range src.ops.length).map (readOp src.program) = src.ops := by
    refine List.ext_getElem (by simp) fun i h₁ h₂ => ?_
    rw [List.getElem_map, List.getElem_range]
    exact readOp_program (List.getElem?_eq_getElem h₂)
  have hweights : (List.range src.weights.length).map (fun i =>
      readWeight src.program (headerLen + opLen * src.ops.length + weightLen * i)) =
        src.weights := by
    refine List.ext_getElem (by simp) fun i h₁ h₂ => ?_
    rw [List.getElem_map, List.getElem_range]
    exact readWeight_program h (List.getElem?_eq_getElem h₂)
  have hreferral : UInt32.ofNat (byteAt src.program headReferral * 2 ^ 24 +
      byteAt src.program (headReferral + 1) * 2 ^ 16 +
      byteAt src.program (headReferral + 2) * 2 ^ 8 + byteAt src.program (headReferral + 3)) =
        src.referralId := by
    have hlt := src.referralId.toNat_lt
    simp only [byteAt, program_header (show headReferral < headerLen by decide),
      program_header (show headReferral + 1 < headerLen by decide),
      program_header (show headReferral + 2 < headerLen by decide),
      program_header (show headReferral + 3 < headerLen by decide)]
    refine UInt32.toNat_inj.mp ?_
    simp only [header, toBeBytes, headReferral, List.cons_append, List.nil_append,
      List.getD_cons_succ, List.getD_cons_zero, UInt8.toNat_ofNat', UInt32.toNat_ofNat']
    omega
  unfold read
  rw [byteAt_opCount h, byteAt_weightCount h, hops, hweights, hreferral,
    program_header (by decide), program_header (by decide), program_header (by decide)]
  rfl

variable {bytes : List UInt8}

theorem readOp_bytes (bytes : List UInt8) (i : Nat) {j : Nat} (hj : j < opLen) :
    (readOp bytes i).bytes.getD j 0 = bytes.getD (headerLen + opLen * i + j) 0 := by
  unfold opLen at hj
  interval_cases j <;> rfl

theorem read_ops_iff {i : Nat} {op : RawOp} :
    (read bytes).ops[i]? = some op ↔ i < byteAt bytes headOpCount ∧ readOp bytes i = op := by
  by_cases hi : i < byteAt bytes headOpCount
  · simp [read, hi]
  · simp [read, hi]

@[simp] theorem length_read_ops : (read bytes).ops.length = byteAt bytes headOpCount := by
  simp [read]

@[simp] theorem length_read_weights :
    (read bytes).weights.length = byteAt bytes headWeightCount := by
  simp [read]

theorem readWeight_bytes (bytes : List UInt8) (pos : Nat) {j : Nat} (hj : j < weightLen) :
    (weightBytes (readWeight bytes pos)).getD j 0 = bytes.getD (pos + j) 0 := by
  have h0 := byteAt_lt bytes pos
  have h1 := byteAt_lt bytes (pos + 1)
  have h2 := byteAt_lt bytes (pos + 2)
  refine UInt8.toNat_inj.mp ?_
  unfold weightLen at hj
  interval_cases j
  all_goals
    simp only [readWeight, weightBytes, toBeBytes, List.drop_succ_cons, List.drop_zero,
      List.getD_cons_zero, List.getD_cons_succ, UInt8.toNat_ofNat', UInt32.toNat_ofNat',
      Nat.add_zero]
    change _ = byteAt bytes _
    omega

theorem read_header (hversion : byteAt bytes headVersion = version) {k : Nat}
    (hk : k < headerLen) : (read bytes).header.getD k 0 = bytes.getD k 0 := by
  have h0 := byteAt_lt bytes headReferral
  have h1 := byteAt_lt bytes (headReferral + 1)
  have h2 := byteAt_lt bytes (headReferral + 2)
  have h3 := byteAt_lt bytes (headReferral + 3)
  have hops := byteAt_lt bytes headOpCount
  have hweights := byteAt_lt bytes headWeightCount
  refine UInt8.toNat_inj.mp ?_
  change _ = byteAt bytes k
  unfold headerLen at hk
  interval_cases k
  all_goals
    simp only [header, read, toBeBytes, List.cons_append, List.nil_append, List.getD_cons_zero,
      List.getD_cons_succ, UInt8.toNat_ofNat', UInt32.toNat_ofNat', List.length_map,
      List.length_range]
    first
    | rfl
    | simp only [headReferral, headOpCount, headWeightCount, headVersion, version,
        Nat.reduceAdd] at *
      omega

/-- Bytes of the version and of the length their counts ask for are the encoding of what they
say. -/
theorem program_read (hversion : byteAt bytes headVersion = version)
    (hlen : bytes.length = headerLen + opLen * byteAt bytes headOpCount +
      weightLen * byteAt bytes headWeightCount) : (read bytes).program = bytes := by
  have hcount : (read bytes).program.length = bytes.length := by
    rw [length_program, length_read_ops, length_read_weights, hlen]
  refine ext_getD (d := 0) hcount fun k hk => ?_
  rw [hcount, hlen] at hk
  rcases Nat.lt_or_ge k headerLen with hheader | hheader
  · rw [program_header hheader, read_header hversion hheader]
  rcases Nat.lt_or_ge k (headerLen + opLen * byteAt bytes headOpCount) with hop | hop
  · -- symbol `j` of instruction `i`
    obtain ⟨i, j, hj, rfl⟩ : ∃ i j, j < opLen ∧ k = headerLen + opLen * i + j := by
      refine ⟨(k - headerLen) / opLen, (k - headerLen) % opLen, Nat.mod_lt _ (by decide), ?_⟩
      have := Nat.div_add_mod (k - headerLen) opLen
      omega
    have hi : i < byteAt bytes headOpCount := by
      unfold opLen at hop hj
      omega
    have hget : (read bytes).ops[i]? = some (readOp bytes i) := read_ops_iff.mpr ⟨hi, rfl⟩
    rw [program_op hget hj, readOp_bytes bytes i hj]
  · -- byte `j` of weight `i`
    obtain ⟨i, j, hj, rfl⟩ : ∃ i j, j < weightLen ∧
        k = headerLen + opLen * byteAt bytes headOpCount + weightLen * i + j := by
      refine ⟨(k - (headerLen + opLen * byteAt bytes headOpCount)) / weightLen,
        (k - (headerLen + opLen * byteAt bytes headOpCount)) % weightLen,
        Nat.mod_lt _ (by decide), ?_⟩
      have := Nat.div_add_mod (k - (headerLen + opLen * byteAt bytes headOpCount)) weightLen
      omega
    have hi : i < byteAt bytes headWeightCount := by
      unfold weightLen at hk hj
      omega
    have hget : (read bytes).weights[i]? =
        some (readWeight bytes (headerLen + opLen * byteAt bytes headOpCount + weightLen * i)) := by
      simp [read, hi]
    have hprogram := program_weight hget hj
    rw [length_read_ops] at hprogram
    rw [hprogram, readWeight_bytes bytes _ hj]

end Source

/-! ## Valid programs -/

/-- The index of the single output of an instruction. -/
def RawOp.output (op : RawOp) : Option UInt8 :=
  match Opcode.fromU8 op.opcode.toNat with
  | some (.swap _) => some op.idxC
  | some .mint => some op.idxB
  | _ => none

/-- The operands an opcode asks for beyond the pool and the first token. -/
def RawOp.Operands (op : RawOp) (assets : List Address) (amountsLen : Nat) : Opcode → Prop
  | .swap _ => op.idxC.toNat < assets.length ∧ assets[op.idxB.toNat]? ≠ assets[op.idxC.toNat]?
  | .burn | .mint => Mode.fromU8 op.mode.toNat = .all ∧ op.idxC.toNat < amountsLen

namespace Source

/-- How instruction `i` may size its input: `prev` only by the single output of the one before. -/
def ModeAdmitted (src : Source) (amountsLen i : Nat) (op : RawOp) : Mode → Prop
  | .all => True
  | .prev => ∃ j before, i = j + 1 ∧ src.ops[j]? = some before ∧ before.output = some op.idxB
  | .fixed idx => idx < amountsLen
  | .ppm idx => idx < src.weights.length

structure Admitted (src : Source) (assets : List Address) (amountsLen i : Nat) (op : RawOp) :
    Prop where
  operands : ∃ code, Opcode.fromU8 op.opcode.toNat = some code ∧
    op.Operands assets amountsLen code
  mode : src.ModeAdmitted amountsLen i op (.fromU8 op.mode.toNat)
  pool : op.idxA.toNat < assets.length
  token : op.idxB.toNat < assets.length

/-- The programs over a registry of addresses and one of amounts. -/
structure Valid (src : Source) (assets : List Address) (amountsLen : Nat) : Prop where
  registry : assets.length ≠ 0 ∧ assets.length ≤ maxAssets
  amounts : amountsLen ≤ maxAmounts
  ops : src.ops.length ≠ 0 ∧ src.ops.length ≤ maxOps
  weights : src.weights.length ≤ maxWeights
  tokenIn : src.tokenIn.toNat < assets.length
  tokenOut : src.tokenOut.toNat < assets.length
  minOut : src.minOut.toNat < amountsLen
  distinct : assets[src.tokenIn.toNat]? ≠ assets[src.tokenOut.toNat]?
  admitted : ∀ i op, src.ops[i]? = some op → src.Admitted assets amountsLen i op
  weight : ∀ weight ∈ src.weights, weight.toNat ≠ 0 ∧ (weight.toNat : Int) ≤ ppmDenominator

theorem Valid.fits {src : Source} {assets : List Address} {amountsLen : Nat}
    (h : src.Valid assets amountsLen) : src.Fits where
  ops := lt_of_le_of_lt h.ops.2 (by decide)
  weights := lt_of_le_of_lt h.weights (by decide)
  weight w hw := by
    have := (h.weight w hw).2
    unfold ppmDenominator at this
    omega

end Source

/-! ## Decoding -/

namespace Program

variable {bytes : List UInt8} {assets : List Address} {amountsLen i : Nat} {p : Program}

/-- The program `decode` makes of bytes it accepts. -/
def parse (bytes : List UInt8) : Program where
  buf := bytes
  opCount := byteAt bytes headOpCount
  weightsAt := headerLen + opLen * byteAt bytes headOpCount
  tokenIn := byteAt bytes headTokenIn
  tokenOut := byteAt bytes headTokenOut
  minOut := byteAt bytes headMinOut
  referralId := byteAt bytes headReferral * 2 ^ 24 + byteAt bytes (headReferral + 1) * 2 ^ 16 +
    byteAt bytes (headReferral + 2) * 2 ^ 8 + byteAt bytes (headReferral + 3)

theorem sameToken_false {a b : Nat} : sameToken assets a b = false ↔ assets[a]? ≠ assets[b]? := by
  unfold sameToken
  rw [Bool.or_eq_false_iff, decide_eq_false_iff_not, decide_eq_false_iff_not, and_iff_right_iff_imp]
  rintro h rfl
  exact h rfl

theorem parse_weight (bytes : List UInt8) (i : Nat) :
    (parse bytes).weight i = (Source.readWeight bytes
      (headerLen + opLen * byteAt bytes headOpCount + weightLen * i)).toNat := by
  have h0 := Source.byteAt_lt bytes (headerLen + opLen * byteAt bytes headOpCount + weightLen * i)
  have h1 :=
    Source.byteAt_lt bytes (headerLen + opLen * byteAt bytes headOpCount + weightLen * i + 1)
  have h2 :=
    Source.byteAt_lt bytes (headerLen + opLen * byteAt bytes headOpCount + weightLen * i + 2)
  rw [Source.readWeight, UInt32.toNat_ofNat', Nat.mod_eq_of_lt (by omega)]
  rfl

theorem op_parse (bytes : List UInt8) (i : Nat) {op : Op} :
    (parse bytes).op i = .ok op ↔ ∃ code,
      Opcode.fromU8 (Source.readOp bytes i).opcode.toNat = some code ∧
        op = ⟨code, .fromU8 (Source.readOp bytes i).mode.toNat,
          (Source.readOp bytes i).idxA.toNat, (Source.readOp bytes i).idxB.toNat,
          (Source.readOp bytes i).idxC.toNat⟩ := by
  unfold Program.op
  simp only [Fallible.bind_ok_iff, Fallible.orThrow_ok_iff, Fallible.pure_ok_iff]
  constructor
  · rintro ⟨code, hcode, rfl⟩
    exact ⟨code, hcode, rfl⟩
  · rintro ⟨code, hcode, rfl⟩
    exact ⟨code, hcode, rfl⟩

/-- The instruction before names its output as this one's input. -/
theorem validatePrev_parse (hi : i < byteAt bytes headOpCount) {idxB : UInt8} :
    (parse bytes).validatePrev i idxB.toNat = .ok () ↔
      ∃ j before, i = j + 1 ∧ (Source.read bytes).ops[j]? = some before ∧
        before.output = some idxB := by
  unfold validatePrev
  simp only [Fallible.bind_ok_iff, Fallible.require_ok_iff, exists_const]
  cases i with
  | zero => simp
  | succ j =>
    have hget : (Source.read bytes).ops[j]? = some (Source.readOp bytes j) :=
      Source.read_ops_iff.mpr ⟨by omega, rfl⟩
    have hproduced : (parse bytes).produced (j + 1) =
        orThrow ((Source.readOp bytes j).output.map UInt8.toNat) .brokenTokenChain := by
      unfold produced RawOp.output
      change (match Opcode.fromU8 (Source.readOp bytes j).opcode.toNat with
        | some (.swap _) => _
        | some .mint => _
        | _ => _) = _
      split <;> simp_all <;> rfl
    rw [hproduced]
    simp only [Fallible.orThrow_ok_iff, Option.map_eq_some_iff]
    constructor
    · rintro ⟨-, _, ⟨out, hout, rfl⟩, heq⟩
      exact ⟨j, _, rfl, hget, by rw [hout, UInt8.toNat_inj.mp heq]⟩
    · rintro ⟨k, before, hk, hbefore, hout⟩
      obtain rfl : j = k := by omega
      rw [hget, Option.some.injEq] at hbefore
      subst hbefore
      exact ⟨by omega, _, ⟨_, hout, rfl⟩, rfl⟩

theorem validateMode_ok {mode : Mode} {weightCount : Nat} :
    validateMode mode amountsLen weightCount = .ok () ↔
      (∀ idx, mode = .fixed idx → idx < amountsLen) ∧
        ∀ idx, mode = .ppm idx → idx < weightCount := by
  cases mode with
  | all => simp [validateMode]
  | prev => simp [validateMode]
  | fixed idx => simp [validateMode]
  | ppm idx => simp [validateMode]

/-- The mode of an instruction against the one before and the tables. -/
theorem modeAdmitted_iff (hi : i < byteAt bytes headOpCount) (amountsLen : Nat) (op : RawOp) :
    (Source.read bytes).ModeAdmitted amountsLen i op (.fromU8 op.mode.toNat) ↔
      (Mode.fromU8 op.mode.toNat = .prev → (parse bytes).validatePrev i op.idxB.toNat = .ok ()) ∧
        validateMode (.fromU8 op.mode.toNat) amountsLen (byteAt bytes headWeightCount) =
          .ok () := by
  rw [validatePrev_parse hi, validateMode_ok]
  cases Mode.fromU8 op.mode.toNat with
  | all => simp [Source.ModeAdmitted]
  | prev => simp [Source.ModeAdmitted]
  | fixed idx => simp [Source.ModeAdmitted]
  | ppm idx => simp [Source.ModeAdmitted]

theorem validateOperands_ok {op : RawOp} {code : Opcode} :
    validateOperands assets amountsLen ⟨code, .fromU8 op.mode.toNat, op.idxA.toNat, op.idxB.toNat,
        op.idxC.toNat⟩ = .ok () ↔
      (op.idxA.toNat < assets.length ∧ op.idxB.toNat < assets.length) ∧
        op.Operands assets amountsLen code := by
  unfold validateOperands
  simp only [Fallible.bind_ok_iff, Fallible.require_ok_iff, exists_const]
  cases code with
  | swap venue => simp [RawOp.Operands, sameToken_false]
  | burn => simp [RawOp.Operands]
  | mint => simp [RawOp.Operands]

theorem validateOp_parse (hi : i < byteAt bytes headOpCount) :
    (parse bytes).validateOp assets amountsLen (byteAt bytes headWeightCount) i = .ok () ↔
      (Source.read bytes).Admitted assets amountsLen i (Source.readOp bytes i) := by
  have hmode := modeAdmitted_iff hi amountsLen (Source.readOp bytes i)
  unfold validateOp
  simp only [Fallible.bind_ok_iff, op_parse]
  constructor
  · rintro ⟨op, ⟨code, hcode, rfl⟩, h⟩
    dsimp only at h
    have hchecks : (Mode.fromU8 (Source.readOp bytes i).mode.toNat = .prev →
        (parse bytes).validatePrev i (Source.readOp bytes i).idxB.toNat = .ok ()) ∧
        validateMode (.fromU8 (Source.readOp bytes i).mode.toNat) amountsLen
          (byteAt bytes headWeightCount) = .ok () ∧
        validateOperands assets amountsLen ⟨code, .fromU8 (Source.readOp bytes i).mode.toNat,
          (Source.readOp bytes i).idxA.toNat, (Source.readOp bytes i).idxB.toNat,
          (Source.readOp bytes i).idxC.toNat⟩ = .ok () := by
      split at h
      · obtain ⟨_, hprev, h⟩ := Fallible.bind_ok h
        obtain ⟨_, hm, ho⟩ := Fallible.bind_ok h
        exact ⟨fun _ => hprev, hm, ho⟩
      · rename_i hprev
        obtain ⟨_, hm, ho⟩ := Fallible.bind_ok h
        exact ⟨fun h => absurd h hprev, hm, ho⟩
    obtain ⟨hprev, hm, ho⟩ := hchecks
    obtain ⟨⟨ha, hb⟩, hoperands⟩ := validateOperands_ok.mp ho
    exact ⟨⟨code, hcode, hoperands⟩, hmode.mpr ⟨hprev, hm⟩, ha, hb⟩
  · rintro ⟨⟨code, hcode, hoperands⟩, hadmitted, ha, hb⟩
    obtain ⟨hprev, hm⟩ := hmode.mp hadmitted
    have ho := validateOperands_ok.mpr ⟨⟨ha, hb⟩, hoperands⟩
    refine ⟨_, ⟨code, hcode, rfl⟩, ?_⟩
    dsimp only
    split
    · rename_i hmode
      rw [hprev hmode, Fallible.ok_bind, hm, Fallible.ok_bind, ho]
    · rw [hm, Fallible.ok_bind, ho]

theorem validate_parse :
    (parse bytes).validate assets amountsLen (byteAt bytes headWeightCount) = .ok () ↔
      (∀ i op, (Source.read bytes).ops[i]? = some op →
        (Source.read bytes).Admitted assets amountsLen i op) ∧
        ∀ weight ∈ (Source.read bytes).weights,
          weight.toNat ≠ 0 ∧ (weight.toNat : Int) ≤ ppmDenominator := by
  unfold validate
  simp only [Fallible.bind_ok_iff, Unique.exists_iff, PUnit.default_eq_unit,
    Fallible.forM_ok_iff, Fallible.require_ok_iff, List.mem_range]
  refine and_congr ?_ ?_
  · constructor
    · intro h i op hop
      obtain ⟨hi, rfl⟩ := Source.read_ops_iff.mp hop
      exact (validateOp_parse hi).mp (h i hi)
    · intro h i hi
      exact (validateOp_parse hi).mpr (h i _ (Source.read_ops_iff.mpr ⟨hi, rfl⟩))
  · simp only [Source.read, List.mem_map, List.mem_range]
    constructor
    · rintro h _ ⟨i, hi, rfl⟩
      have := h i hi
      rwa [parse_weight] at this
    · intro h i hi
      rw [parse_weight]
      exact h _ ⟨i, hi, rfl⟩

/-- What `decode` checks before the instructions. -/
theorem decode_parse : decode bytes assets amountsLen = .ok p ↔
    (assets.length ≠ 0 ∧ assets.length ≤ maxAssets ∧ amountsLen ≤ maxAmounts) ∧
      (headerLen ≤ bytes.length ∧ bytes.length ≤ maxProgramBytes) ∧
      byteAt bytes headVersion = version ∧
      (byteAt bytes headOpCount ≠ 0 ∧ byteAt bytes headOpCount ≤ maxOps ∧
        byteAt bytes headWeightCount ≤ maxWeights) ∧
      bytes.length = headerLen + opLen * byteAt bytes headOpCount +
        weightLen * byteAt bytes headWeightCount ∧
      (byteAt bytes headTokenIn < assets.length ∧ byteAt bytes headTokenOut < assets.length ∧
        byteAt bytes headMinOut < amountsLen) ∧
      assets[byteAt bytes headTokenIn]? ≠ assets[byteAt bytes headTokenOut]? ∧
      (parse bytes).validate assets amountsLen (byteAt bytes headWeightCount) = .ok () ∧
      parse bytes = p := by
  unfold decode
  simp only [Fallible.bind_ok_iff, Unique.exists_iff, PUnit.default_eq_unit,
    Fallible.require_ok_iff, Fallible.pure_ok_iff, sameToken_false]
  rfl

end Program

open Source Program in
/-- **The grammar.** Decoding accepts the encodings of valid programs and nothing else. -/
theorem decode_iff {bytes : List UInt8} {assets : List Address} {amountsLen : Nat} {p : Program} :
    Program.decode bytes assets amountsLen = .ok p ↔
      (∃ src : Source, src.Valid assets amountsLen ∧ src.program = bytes) ∧ parse bytes = p := by
  rw [decode_parse]
  constructor
  · rintro ⟨⟨ha, hb, hc⟩, -, hversion, ⟨hops, hopsMax, hweights⟩, hlen, ⟨hin, hout, hmin⟩,
      hdistinct, hvalidate, rfl⟩
    obtain ⟨hadmitted, hweight⟩ := validate_parse.mp hvalidate
    refine ⟨⟨Source.read bytes, ?_, program_read hversion hlen⟩, rfl⟩
    refine ⟨⟨ha, hb⟩, hc, ?_, ?_, hin, hout, hmin, hdistinct, hadmitted, hweight⟩
    · rw [length_read_ops]
      exact ⟨hops, hopsMax⟩
    · rw [length_read_weights]
      exact hweights
  · rintro ⟨⟨src, hvalid, rfl⟩, rfl⟩
    have hread := read_program hvalid.fits
    have hops := byteAt_opCount hvalid.fits
    have hweights := byteAt_weightCount hvalid.fits
    have hlen := length_program src
    have hin : byteAt src.program headTokenIn = src.tokenIn.toNat :=
      congrArg (fun src => src.tokenIn.toNat) hread
    have hout : byteAt src.program headTokenOut = src.tokenOut.toNat :=
      congrArg (fun src => src.tokenOut.toNat) hread
    have hmin : byteAt src.program headMinOut = src.minOut.toNat :=
      congrArg (fun src => src.minOut.toNat) hread
    have hmax : src.program.length ≤ maxProgramBytes := by
      have h1 := hvalid.ops.2
      have h2 := hvalid.weights
      rw [hlen]
      unfold maxProgramBytes
      exact Nat.add_le_add (Nat.add_le_add_left (Nat.mul_le_mul_left _ h1) _)
        (Nat.mul_le_mul_left _ h2)
    refine ⟨⟨hvalid.registry.1, hvalid.registry.2, hvalid.amounts⟩, ⟨?_, hmax⟩, rfl, ?_, ?_, ?_, ?_,
      ?_, rfl⟩
    · rw [hlen, Nat.add_assoc]
      exact Nat.le_add_right _ _
    · rw [hops, hweights]
      exact ⟨hvalid.ops.1, hvalid.ops.2, hvalid.weights⟩
    · rw [hops, hweights, hlen]
    · rw [hin, hout, hmin]
      exact ⟨hvalid.tokenIn, hvalid.tokenOut, hvalid.minOut⟩
    · rw [hin, hout]
      exact hvalid.distinct
    · rw [validate_parse, hread]
      exact ⟨hvalid.admitted, hvalid.weight⟩

/-! ## Mutually inverse -/

/-- The program in memory. -/
def Source.decoded (src : Source) : Program where
  buf := src.program
  opCount := src.ops.length
  weightsAt := headerLen + opLen * src.ops.length
  tokenIn := src.tokenIn.toNat
  tokenOut := src.tokenOut.toNat
  minOut := src.minOut.toNat
  referralId := src.referralId.toNat

/-- What a program in memory was encoded from. -/
def Program.source (p : Program) : Source := Source.read p.buf

open Source Program in
theorem parse_program {src : Source} (h : src.Fits) : parse src.program = src.decoded := by
  have hread := read_program h
  have hin : byteAt src.program headTokenIn = src.tokenIn.toNat :=
    congrArg (fun src => src.tokenIn.toNat) hread
  have hout : byteAt src.program headTokenOut = src.tokenOut.toNat :=
    congrArg (fun src => src.tokenOut.toNat) hread
  have hmin : byteAt src.program headMinOut = src.minOut.toNat :=
    congrArg (fun src => src.minOut.toNat) hread
  have h0 := byteAt_lt src.program headReferral
  have h1 := byteAt_lt src.program (headReferral + 1)
  have h2 := byteAt_lt src.program (headReferral + 2)
  have h3 := byteAt_lt src.program (headReferral + 3)
  have hreferral : byteAt src.program headReferral * 2 ^ 24 +
      byteAt src.program (headReferral + 1) * 2 ^ 16 +
      byteAt src.program (headReferral + 2) * 2 ^ 8 + byteAt src.program (headReferral + 3) =
        src.referralId.toNat := by
    have hfield := congrArg (fun src => src.referralId.toNat) hread
    dsimp only [Source.read] at hfield
    rw [← hfield, UInt32.toNat_ofNat', Nat.mod_eq_of_lt (by omega)]
  unfold parse decoded
  rw [byteAt_opCount h, hin, hout, hmin, hreferral]

section Inverse

variable {bytes : List UInt8} {assets : List Address} {amountsLen : Nat} {p : Program}
  {src : Source}

/-- Decoding an encoding gives back what was encoded. -/
theorem decode_program (h : src.Valid assets amountsLen) :
    Program.decode src.program assets amountsLen = .ok src.decoded ∧ src.decoded.source = src :=
  ⟨decode_iff.mpr ⟨⟨src, h, rfl⟩, parse_program h.fits⟩, Source.read_program h.fits⟩

/-- What was decoded encodes to the bytes it came from. -/
theorem decode_source (h : Program.decode bytes assets amountsLen = .ok p) :
    p.source.Valid assets amountsLen ∧ p.source.program = bytes ∧ p.source.decoded = p := by
  obtain ⟨⟨src, hvalid, rfl⟩, rfl⟩ := decode_iff.mp h
  have hsource : (Program.parse src.program).source = src := Source.read_program hvalid.fits
  rw [hsource]
  exact ⟨hvalid, rfl, (parse_program hvalid.fits).symm⟩

/-- Instruction `i` of a decoded program, checked. -/
theorem decode_op (h : Program.decode bytes assets amountsLen = .ok p) {i : Nat}
    (hi : i < p.opCount) : ∃ raw code, p.source.ops[i]? = some raw ∧
      Opcode.fromU8 raw.opcode.toNat = some code ∧ p.source.Admitted assets amountsLen i raw ∧
      raw.Operands assets amountsLen code ∧
      p.op i = .ok ⟨code, .fromU8 raw.mode.toNat, raw.idxA.toNat, raw.idxB.toNat,
        raw.idxC.toNat⟩ := by
  obtain ⟨hvalid, -, -⟩ := decode_source h
  obtain ⟨-, rfl⟩ := decode_iff.mp h
  have hget : (Source.read bytes).ops[i]? = some (Source.readOp bytes i) :=
    Source.read_ops_iff.mpr ⟨hi, rfl⟩
  have hadmitted := hvalid.admitted i _ hget
  obtain ⟨code, hcode, hoperands⟩ := hadmitted.operands
  exact ⟨_, code, hget, hcode, hadmitted, hoperands,
    (Program.op_parse bytes i).mpr ⟨code, hcode, rfl⟩⟩

end Inverse

end Lending.SwapAggregator
