/-
# Proofs.Isa.Codec -- each layout gives its fields back

A layout joins its fields, so as a number a word is a sum of shifted fields
(`toNat_append_eq`), and every field is read off by one quotient and one remainder.  The
theorems `fields_ofR` .. `fields_ofJ` say what a word built under a layout decodes to
under the format of that layout, for all fields.

An immediate comes back as it went in, except for bit 0 of a branch or jump offset,
which no word stores: an odd offset comes back one smaller.
-/
import Rv32Stimulus.Isa.Fields

namespace Rv32Stimulus

set_option autoImplicit false

namespace Word

theorem toNat_append_eq {m n : Nat} (high : BitVec m) (low : BitVec n) :
    (high ++ low).toNat = high.toNat <<< n + low.toNat := by
  rw [BitVec.toNat_append, ← Nat.shiftLeft_add_eq_or_of_lt low.isLt]

/-! ## Immediates whose bits are gathered from several places -/

theorem gather_store (imm : BitVec 12) : imm.extractLsb' 5 7 ++ imm.extractLsb' 0 5 = imm := by
  apply BitVec.eq_of_toNat_eq
  rw [toNat_append_eq, BitVec.extractLsb'_toNat, BitVec.extractLsb'_toNat]
  have := imm.isLt
  omega

theorem gather_branch (imm : BitVec 13) :
    (imm.extractLsb' 12 1 ++ imm.extractLsb' 11 1 ++ imm.extractLsb' 5 6 ++
      imm.extractLsb' 1 4 ++ 0#1 : BitVec 13).toInt = imm.toInt - imm.toInt % 2 := by
  have gathered : (imm.extractLsb' 12 1 ++ imm.extractLsb' 11 1 ++ imm.extractLsb' 5 6 ++
      imm.extractLsb' 1 4 ++ 0#1 : BitVec 13).toNat = imm.toNat / 2 * 2 := by
    rw [toNat_append_eq, toNat_append_eq, toNat_append_eq, toNat_append_eq]
    simp only [BitVec.extractLsb'_toNat, BitVec.toNat_ofNat]
    have := imm.isLt
    omega
  simp only [BitVec.toInt_eq_toNat_cond, gathered]
  split <;> split <;> omega

theorem gather_jump (imm : BitVec 21) :
    (imm.extractLsb' 20 1 ++ imm.extractLsb' 12 8 ++ imm.extractLsb' 11 1 ++
      imm.extractLsb' 1 10 ++ 0#1 : BitVec 21).toInt = imm.toInt - imm.toInt % 2 := by
  have gathered : (imm.extractLsb' 20 1 ++ imm.extractLsb' 12 8 ++ imm.extractLsb' 11 1 ++
      imm.extractLsb' 1 10 ++ 0#1 : BitVec 21).toNat = imm.toNat / 2 * 2 := by
    rw [toNat_append_eq, toNat_append_eq, toNat_append_eq, toNat_append_eq]
    simp only [BitVec.extractLsb'_toNat, BitVec.toNat_ofNat]
    have := imm.isLt
    omega
  simp only [BitVec.toInt_eq_toNat_cond, gathered]
  split <;> split <;> omega

/-! ## Layouts with registers on both sides -/

section Registers

variable (funct7 : BitVec 7) (rs2 rs1 : BitVec 5) (funct3 : BitVec 3) (rd : BitVec 5)
  (opcode : BitVec 7)

theorem fields_ofR (kind : ImmediateKind) :
    (ofR funct7 rs2 rs1 funct3 rd opcode).fields .r kind =
      { opcode, funct3 := some funct3, funct7 := some funct7, rd := some rd, rs1 := some rs1
        rs2 := some rs2 } := by
  have number : (ofR funct7 rs2 rs1 funct3 rd opcode).toNat =
      ((((funct7.toNat <<< 5 + rs2.toNat) <<< 5 + rs1.toNat) <<< 3 + funct3.toNat) <<< 5
        + rd.toNat) <<< 7 + opcode.toNat := by
    unfold ofR
    rw [toNat_append_eq, toNat_append_eq, toNat_append_eq, toNat_append_eq, toNat_append_eq]
  have := funct7.isLt
  have := rs2.isLt
  have := rs1.isLt
  have := funct3.isLt
  have := rd.isLt
  have := opcode.isLt
  simp only [fields, Word.opcode, Word.funct3, Word.funct7, Word.rd, Word.rs1, Word.rs2,
    Fields.mk.injEq, Option.some.injEq, ← BitVec.toNat_inj, BitVec.extractLsb'_toNat, number]
  refine ⟨?_, ?_, ?_, ?_, ?_, ?_, trivial, trivial⟩ <;> omega

/-- A shift is a register-register word with its amount in the place of `rs2`. -/
theorem fields_ofI_shift (shamt : BitVec 5) :
    (ofI (funct7 ++ shamt) rs1 funct3 rd opcode).fields .i .shift =
      { opcode, funct3 := some funct3, funct7 := some funct7, rd := some rd, rs1 := some rs1
        shamt := some shamt } := by
  have parts := fields_ofR funct7 shamt rs1 funct3 rd opcode .shift
  simp only [fields, Fields.mk.injEq, Option.some.injEq] at parts ⊢
  obtain ⟨atOpcode, atFunct3, atFunct7, atRd, atRs1, atShamt, -, -⟩ := parts
  exact ⟨atOpcode, atFunct3, atFunct7, atRd, atRs1, trivial, trivial, atShamt⟩

theorem fields_ofI (imm : BitVec 12) {kind : ImmediateKind} (plain : kind ≠ .shift) :
    (ofI imm rs1 funct3 rd opcode).fields .i kind =
      { opcode, funct3 := some funct3, rd := some rd, rs1 := some rs1, imm := some imm.toInt } := by
  have number : (ofI imm rs1 funct3 rd opcode).toNat =
      (((imm.toNat <<< 5 + rs1.toNat) <<< 3 + funct3.toNat) <<< 5 + rd.toNat) <<< 7
        + opcode.toNat := by
    unfold ofI
    rw [toNat_append_eq, toNat_append_eq, toNat_append_eq, toNat_append_eq]
  have := imm.isLt
  have := rs1.isLt
  have := funct3.isLt
  have := rd.isLt
  have := opcode.isLt
  have atImm : (ofI imm rs1 funct3 rd opcode).immI = imm := by
    apply BitVec.eq_of_toNat_eq
    rw [immI, BitVec.extractLsb'_toNat, number]
    omega
  cases kind with
  | shift => exact absurd rfl plain
  | none | plain =>
      simp only [fields, Word.opcode, Word.funct3, Word.rd, Word.rs1, atImm,
        Fields.mk.injEq, Option.some.injEq, ← BitVec.toNat_inj, BitVec.extractLsb'_toNat, number]
      refine ⟨?_, ?_, trivial, ?_, ?_, trivial, trivial, trivial⟩ <;> omega

/-- A store is a register-register word with its immediate in the places of `funct7` and `rd`. -/
theorem fields_ofS (imm : BitVec 12) (kind : ImmediateKind) :
    (ofS imm rs2 rs1 funct3 opcode).fields .s kind =
      { opcode, funct3 := some funct3, rs1 := some rs1, rs2 := some rs2, imm := some imm.toInt } := by
  have parts := fields_ofR (imm.extractLsb' 5 7) rs2 rs1 funct3 (imm.extractLsb' 0 5) opcode kind
  simp only [fields, Fields.mk.injEq, Option.some.injEq] at parts
  obtain ⟨atOpcode, atFunct3, high, low, atRs1, atRs2, -, -⟩ := parts
  have atImm : (ofS imm rs2 rs1 funct3 opcode).immS = imm :=
    calc (ofS imm rs2 rs1 funct3 opcode).immS
      _ = imm.extractLsb' 5 7 ++ imm.extractLsb' 0 5 := congr (congrArg (· ++ ·) high) low
      _ = imm := gather_store imm
  simp only [fields, atImm, Fields.mk.injEq, Option.some.injEq]
  exact ⟨atOpcode, atFunct3, trivial, trivial, atRs1, atRs2, trivial, trivial⟩

theorem fields_ofB (imm : BitVec 13) (kind : ImmediateKind) :
    (ofB imm rs2 rs1 funct3 opcode).fields .b kind =
      { opcode, funct3 := some funct3, rs1 := some rs1, rs2 := some rs2
        imm := some (imm.toInt - imm.toInt % 2) } := by
  have number : (ofB imm rs2 rs1 funct3 opcode).toNat =
      (((((((imm.extractLsb' 12 1).toNat <<< 6 + (imm.extractLsb' 5 6).toNat) <<< 5 + rs2.toNat)
        <<< 5 + rs1.toNat) <<< 3 + funct3.toNat) <<< 4 + (imm.extractLsb' 1 4).toNat) <<< 1
        + (imm.extractLsb' 11 1).toNat) <<< 7 + opcode.toNat := by
    unfold ofB
    rw [toNat_append_eq, toNat_append_eq, toNat_append_eq, toNat_append_eq, toNat_append_eq,
      toNat_append_eq, toNat_append_eq]
  have := (imm.extractLsb' 12 1).isLt
  have := (imm.extractLsb' 5 6).isLt
  have := (imm.extractLsb' 1 4).isLt
  have := (imm.extractLsb' 11 1).isLt
  have := rs2.isLt
  have := rs1.isLt
  have := funct3.isLt
  have := opcode.isLt
  have pieces : (ofB imm rs2 rs1 funct3 opcode).extractLsb' 31 1 = imm.extractLsb' 12 1 ∧
      (ofB imm rs2 rs1 funct3 opcode).extractLsb' 7 1 = imm.extractLsb' 11 1 ∧
      (ofB imm rs2 rs1 funct3 opcode).extractLsb' 25 6 = imm.extractLsb' 5 6 ∧
      (ofB imm rs2 rs1 funct3 opcode).extractLsb' 8 4 = imm.extractLsb' 1 4 := by
    refine ⟨?_, ?_, ?_, ?_⟩ <;>
      (apply BitVec.eq_of_toNat_eq; rw [BitVec.extractLsb'_toNat, number]; omega)
  have atImm : (ofB imm rs2 rs1 funct3 opcode).immB.toInt = imm.toInt - imm.toInt % 2 := by
    rw [immB, pieces.1, pieces.2.1, pieces.2.2.1, pieces.2.2.2]
    exact gather_branch imm
  simp only [fields, atImm, Word.opcode, Word.funct3, Word.rs1, Word.rs2,
    Fields.mk.injEq, Option.some.injEq, ← BitVec.toNat_inj, BitVec.extractLsb'_toNat 0,
    BitVec.extractLsb'_toNat 12, BitVec.extractLsb'_toNat 15, BitVec.extractLsb'_toNat 20, number]
  refine ⟨?_, ?_, trivial, trivial, ?_, ?_, trivial, trivial⟩ <;> omega

end Registers

/-! ## Layouts with a wide immediate -/

section Upper

variable (rd : BitVec 5) (opcode : BitVec 7) (kind : ImmediateKind)

theorem fields_ofU (imm : BitVec 20) :
    (ofU imm rd opcode).fields .u kind =
      { opcode, rd := some rd, imm := some (imm.toNat : Int) } := by
  have number : (ofU imm rd opcode).toNat = (imm.toNat <<< 5 + rd.toNat) <<< 7 + opcode.toNat := by
    unfold ofU
    rw [toNat_append_eq, toNat_append_eq]
  have := imm.isLt
  have := rd.isLt
  have := opcode.isLt
  have atImm : (ofU imm rd opcode).immU = imm := by
    apply BitVec.eq_of_toNat_eq
    rw [immU, BitVec.extractLsb'_toNat, number]
    omega
  simp only [fields, atImm, Word.opcode, Word.rd, Fields.mk.injEq, Option.some.injEq,
    ← BitVec.toNat_inj, BitVec.extractLsb'_toNat, number]
  refine ⟨?_, trivial, trivial, ?_, trivial, trivial, trivial, trivial⟩ <;> omega

theorem fields_ofJ (imm : BitVec 21) :
    (ofJ imm rd opcode).fields .j kind =
      { opcode, rd := some rd, imm := some (imm.toInt - imm.toInt % 2) } := by
  have number : (ofJ imm rd opcode).toNat =
      (((((imm.extractLsb' 20 1).toNat <<< 10 + (imm.extractLsb' 1 10).toNat) <<< 1
        + (imm.extractLsb' 11 1).toNat) <<< 8 + (imm.extractLsb' 12 8).toNat) <<< 5
        + rd.toNat) <<< 7 + opcode.toNat := by
    unfold ofJ
    rw [toNat_append_eq, toNat_append_eq, toNat_append_eq, toNat_append_eq, toNat_append_eq]
  have := (imm.extractLsb' 20 1).isLt
  have := (imm.extractLsb' 1 10).isLt
  have := (imm.extractLsb' 11 1).isLt
  have := (imm.extractLsb' 12 8).isLt
  have := rd.isLt
  have := opcode.isLt
  have pieces : (ofJ imm rd opcode).extractLsb' 31 1 = imm.extractLsb' 20 1 ∧
      (ofJ imm rd opcode).extractLsb' 12 8 = imm.extractLsb' 12 8 ∧
      (ofJ imm rd opcode).extractLsb' 20 1 = imm.extractLsb' 11 1 ∧
      (ofJ imm rd opcode).extractLsb' 21 10 = imm.extractLsb' 1 10 := by
    refine ⟨?_, ?_, ?_, ?_⟩ <;>
      (apply BitVec.eq_of_toNat_eq; rw [BitVec.extractLsb'_toNat, number]; omega)
  have atImm : (ofJ imm rd opcode).immJ.toInt = imm.toInt - imm.toInt % 2 := by
    rw [immJ, pieces.1, pieces.2.1, pieces.2.2.1, pieces.2.2.2]
    exact gather_jump imm
  simp only [fields, atImm, Word.opcode, Word.rd, Fields.mk.injEq, Option.some.injEq,
    ← BitVec.toNat_inj, BitVec.extractLsb'_toNat 0, BitVec.extractLsb'_toNat 7, number]
  refine ⟨?_, trivial, trivial, ?_, trivial, trivial, trivial, trivial⟩ <;> omega

end Upper

end Word

end Rv32Stimulus
