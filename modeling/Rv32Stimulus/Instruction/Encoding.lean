/-
# Instruction.Encoding -- the machine word of an instruction

`encode` packs the operands under the record's format, each cut to the width of its
field; an operand the pattern does not ask for and that is absent counts as zero.
It fails only if an operand of the pattern is missing.

In the I format a shift takes its amount, `ECALL` and `EBREAK` (in any ASCII case)
take the immediates 0 and 1 whatever is stored, and everything else its immediate.
An unsupported format yields a no-operation.
-/
import Rv32Stimulus.Instruction.Basic

namespace Rv32Stimulus

set_option autoImplicit false

/-- An operand that the pattern asks for was never filled in. -/
structure MissingOperand where
  mnemonic : String
  role : Role
  deriving DecidableEq, Repr

def MissingOperand.message (missing : MissingOperand) : String :=
  missing.mnemonic ++ ": operand " ++ missing.role.title ++
    " required by the operand pattern is not populated"

namespace Record

def opcodeField (record : Record) : BitVec 7 := record.opcode.toBitVec.setWidth 7

def funct3Field (record : Record) : BitVec 3 := (record.funct3.getD 0).toBitVec.setWidth 3

def funct7Field (record : Record) : BitVec 7 := (record.funct7.getD 0).toBitVec.setWidth 7

end Record

namespace Instruction

/-- A register number or shift amount cut to five bits. -/
def lowFive (value : Option UInt8) : BitVec 5 := (value.getD 0).toBitVec.setWidth 5

/-- The immediate cut to `width` bits. -/
def immField (inst : Instruction) (width : Nat) : BitVec width :=
  (inst.imm.getD 0).toBitVec.setWidth width

/-- The immediate that makes a system call out of the I layout, by name. -/
def systemImmediate? (inst : Instruction) : Option (BitVec 12) :=
  if inst.record.isCalled "ECALL" then some 0
  else if inst.record.isCalled "EBREAK" then some 1
  else none

/-- What stands in the immediate field of an I-format word. -/
def upperField (inst : Instruction) : BitVec 12 :=
  match inst.record.kind with
  | .shift => inst.record.funct7Field ++ lowFive inst.shamt
  | _ => inst.systemImmediate?.getD (inst.immField 12)

/-- The word of `inst`, absent operands counted as zero. -/
def pack (inst : Instruction) : Word :=
  let record := inst.record
  match record.format with
  | .r => .ofR record.funct7Field (lowFive inst.rs2) (lowFive inst.rs1) record.funct3Field
      (lowFive inst.rd) record.opcodeField
  | .i => .ofI inst.upperField (lowFive inst.rs1) record.funct3Field (lowFive inst.rd)
      record.opcodeField
  | .s => .ofS (inst.immField 12) (lowFive inst.rs2) (lowFive inst.rs1) record.funct3Field
      record.opcodeField
  | .b => .ofB (inst.immField 13) (lowFive inst.rs2) (lowFive inst.rs1) record.funct3Field
      record.opcodeField
  | .u => .ofU (inst.immField 20) (lowFive inst.rd) record.opcodeField
  | .j => .ofJ (inst.immField 21) (lowFive inst.rd) record.opcodeField
  | .unsupported => .nop

def encode (inst : Instruction) : Except MissingOperand Word :=
  match inst.missingRole? with
  | some role => .error ⟨inst.record.mnemonic, role⟩
  | none => .ok inst.pack

theorem encode_eq_ok_iff {inst : Instruction} {word : Word} :
    inst.encode = .ok word ↔ inst.missingRole? = none ∧ inst.pack = word := by
  unfold encode
  cases inst.missingRole? <;> simp

example : nop.encode.toOption = some 0x13#32 := by decide +kernel

end Instruction

end Rv32Stimulus
