/-
# Proofs.Instruction.Decoding -- what is read back from an encoded instruction

Encoding accepts every operand value and cuts it to the width of its field.  `Instruction.keptImm?`
is what is left of the immediate in plain arithmetic: the signed value of its low bits, without
bit 0 in a branch or jump, and the unsigned value for an upper immediate.  `Instruction.Reads`
says the same of every other field: the remainder of the stored value.

`Instruction.decode_encode`: an instruction with all its operands has a word, the word is
read as just that, and no other word is.  So what does not fit into a field is dropped, and never
reaches another field.
-/
import Rv32Stimulus.Proofs.Instruction.Encoding
import Rv32Stimulus.Proofs.Isa.Cover

namespace Rv32Stimulus

set_option autoImplicit false

namespace Instruction

/-- The immediate that is left in the word, if its format has one: a system call by name has its own,
any other what the field keeps of the stored value, 0 if there is none. -/
def keptImm? (inst : Instruction) : Option Int :=
  let stored := (inst.imm.getD 0).toInt
  match inst.record.format, inst.record.kind with
  | .r, _ | .i, .shift | .unsupported, _ => none
  | .i, _ =>
      if inst.record.isCalled "ECALL" then some 0
      else if inst.record.isCalled "EBREAK" then some 1
      else some (stored.bmod 0x1000)
  | .s, _ => some (stored.bmod 0x1000)
  | .b, _ => some (evenPart (stored.bmod 0x2000))
  | .u, _ => some (stored % 0x100000)
  | .j, _ => some (evenPart (stored.bmod 0x200000))

/-- The fields hold the stored values, absent ones as 0, each reduced to the width of its field. -/
structure Reads (inst : Instruction) (fields : Fields) : Prop where
  opcode : fields.opcode.toNat = inst.record.opcode.toNat % 0x80
  funct3 : fields.funct3.map (·.toNat) =
    if inst.record.hasFunct3 then some ((inst.record.funct3.getD 0).toNat % 0x8) else none
  funct7 : fields.funct7.map (·.toNat) =
    if inst.record.hasFunct7 then some ((inst.record.funct7.getD 0).toNat % 0x80) else none
  rd : fields.rd.map (·.toNat) =
    if inst.record.has .rd then some ((inst.rd.getD 0).toNat % 0x20) else none
  rs1 : fields.rs1.map (·.toNat) =
    if inst.record.has .rs1 then some ((inst.rs1.getD 0).toNat % 0x20) else none
  rs2 : fields.rs2.map (·.toNat) =
    if inst.record.has .rs2 then some ((inst.rs2.getD 0).toNat % 0x20) else none
  shamt : fields.shamt.map (·.toNat) =
    if inst.record.has .shamt then some ((inst.shamt.getD 0).toNat % 0x20) else none
  imm : fields.imm = inst.keptImm?

variable {inst : Instruction} {fields other : Fields}

/-- The fields that an instruction reads as are settled by it. -/
theorem Reads.eq (reads : inst.Reads fields) (otherReads : inst.Reads other) : fields = other := by
  have injective {width : Nat} : Function.Injective (fun bits : BitVec width => bits.toNat) :=
    fun _ _ => BitVec.eq_of_toNat_eq
  apply Fields.eq_of_agree
  intro part
  cases part with
  | opcode => exact BitVec.eq_of_toNat_eq (reads.opcode.trans otherReads.opcode.symm)
  | rd => exact Option.map_injective injective (reads.rd.trans otherReads.rd.symm)
  | funct3 => exact Option.map_injective injective (reads.funct3.trans otherReads.funct3.symm)
  | rs1 => exact Option.map_injective injective (reads.rs1.trans otherReads.rs1.symm)
  | rs2 => exact Option.map_injective injective (reads.rs2.trans otherReads.rs2.symm)
  | funct7 => exact Option.map_injective injective (reads.funct7.trans otherReads.funct7.symm)
  | shamt => exact Option.map_injective injective (reads.shamt.trans otherReads.shamt.symm)
  | imm => exact reads.imm.trans otherReads.imm.symm

/-! ## The immediate -/

theorem toNat_immField_eq (inst : Instruction) :
    ((inst.immField 20).toNat : Int) = (inst.imm.getD 0).toInt % 0x100000 := by
  have bound := (inst.imm.getD 0).toBitVec.isLt
  have signed := BitVec.toInt_eq_toNat_cond (inst.imm.getD 0).toBitVec
  rw [Int32.toInt_toBitVec] at signed
  unfold immField
  rw [BitVec.toNat_setWidth]
  split at signed <;> omega

theorem carriedImm?_eq_keptImm? (inst : Instruction) : inst.carriedImm? = inst.keptImm? := by
  have twelve : (inst.immField 12).toInt = (inst.imm.getD 0).toInt.bmod 0x1000 :=
    inst.toInt_immField_eq (by decide)
  unfold carriedImm? keptImm?
  dsimp only
  cases inst.record.format with
  | r | unsupported => rfl
  | i =>
      have plain : some (inst.systemImmediate?.getD (inst.immField 12)).toInt =
          if inst.record.isCalled "ECALL" then some 0
          else if inst.record.isCalled "EBREAK" then some 1
          else some ((inst.imm.getD 0).toInt.bmod 0x1000) := by
        unfold systemImmediate?
        by_cases call : inst.record.isCalled "ECALL"
        · rw [if_pos call, if_pos call]
          rfl
        · by_cases stop : inst.record.isCalled "EBREAK"
          · rw [if_neg call, if_neg call, if_pos stop, if_pos stop]
            rfl
          · rw [if_neg call, if_neg call, if_neg stop, if_neg stop]
            exact congrArg some twelve
      cases inst.record.kind with
      | shift => rfl
      | none | plain => exact plain
  | s => exact congrArg some twelve
  | b => exact congrArg (fun offset => some (evenPart offset)) (inst.toInt_immField_eq (by decide))
  | u => exact congrArg some inst.toNat_immField_eq
  | j => exact congrArg (fun offset => some (evenPart offset)) (inst.toInt_immField_eq (by decide))

/-! ## The whole word -/

theorem map_toNat_setWidth (room : Bool) {n : Nat} (width : Nat) (value : BitVec n) :
    (if room then some (value.setWidth width) else none).map (·.toNat) =
      if room then some (value.toNat % 1 <<< width) else none := by
  cases room with
  | true =>
      rw [Nat.one_shiftLeft]
      exact congrArg some (BitVec.toNat_setWidth ..)
  | false => rfl

theorem reads_carried (supported : inst.record.format ≠ .unsupported) :
    inst.Reads inst.carried where
  opcode := by
    rw [carried, if_neg supported]
    exact BitVec.toNat_setWidth ..
  funct3 := map_toNat_setWidth ..
  funct7 := map_toNat_setWidth ..
  rd := map_toNat_setWidth ..
  rs1 := map_toNat_setWidth ..
  rs2 := map_toNat_setWidth ..
  shamt := map_toNat_setWidth ..
  imm := inst.carriedImm?_eq_keptImm?

/-- The word of an instruction with all its operands is the one word that reads as the instruction,
each field reduced to its width. -/
theorem decode_encode (inst : Instruction) (supported : inst.record.format ≠ .unsupported)
    (present : inst.missingRole? = none) :
    ∃ word, inst.encode = .ok word ∧
      inst.Reads (word.fields inst.record.format inst.record.kind) ∧
      ∀ other : Word, inst.Reads (other.fields inst.record.format inst.record.kind) →
        other = word := by
  have reads : inst.Reads (inst.pack.fields inst.record.format inst.record.kind) := by
    rw [fields_pack]
    exact reads_carried supported
  refine ⟨inst.pack, encode_eq_ok_iff.2 ⟨present, rfl⟩, reads, ?_⟩
  intro other otherReads
  exact Word.eq_of_fields_eq supported (otherReads.eq reads)

/-- A branch none of whose operands fits its field. -/
def wildBranch : Instruction where
  record :=
    { mnemonic := "BNE", format := .b, category := .branch, opcode := 0xffffff63
      funct3 := some 0x19, pattern := [.rs1, .rs2, .label] }
  rs1 := some 255
  rs2 := some 64
  imm := some 0x7fffffff

/-- Of the branch are left the opcode, the function field, `x31`, `x0` and the offset -2. -/
theorem decode_encode_wildBranch :
    wildBranch.record.format ≠ .unsupported ∧ wildBranch.missingRole? = none ∧
      ∃ word, wildBranch.encode = .ok word ∧
        word.fields .b .plain =
          { opcode := 0x63, funct3 := some 1, rs1 := some 31, rs2 := some 0, imm := some (-2) } := by
  have supported : wildBranch.record.format ≠ .unsupported := by decide
  have present : wildBranch.missingRole? = none := by decide
  obtain ⟨word, encoded, reads, -⟩ := decode_encode wildBranch supported present
  refine ⟨supported, present, word, encoded, reads.eq ?_⟩
  constructor <;> decide

end Instruction

end Rv32Stimulus
