/-
# Instruction.Basic -- one instruction of a program

An instruction starts with its record alone.  Synthesis fills the operands its
pattern names, the hazard injector replaces registers, resolution adds the label
and the displacement, and at the end the word and the text are set.  An operand
that was never filled is `none`.

`missingRole?` is the first role of the pattern whose operand is not there; a
label needs its displacement, a memory operand both base and offset, and an
unsupported role is never there.
-/
import Rv32Stimulus.Isa.Record
import Rv32Stimulus.Isa.Word

namespace Rv32Stimulus

set_option autoImplicit false

/-- One instruction, as far as it is made. -/
structure Instruction where
  record : Record
  rd : Option UInt8 := none
  rs1 : Option UInt8 := none
  rs2 : Option UInt8 := none
  /-- Arithmetic value, byte offset or upper-immediate bits. -/
  imm : Option Int32 := none
  shamt : Option UInt8 := none
  /-- Position of the instruction a branch or jump lands on. -/
  target : Option Nat := none
  label : Option String := none
  word : Word := 0
  text : String := ""
  deriving DecidableEq, Repr

namespace Instruction

/-- `addi x0, x0, 0`. -/
def nop : Instruction := { record := .addi, rd := some 0, rs1 := some 0, imm := some 0 }

def isLoad (inst : Instruction) : Bool := inst.record.category == .load

/-- Whether the operand of `role` is there. -/
def supplies (inst : Instruction) : Role → Bool
  | .rd => inst.rd.isSome
  | .rs1 => inst.rs1.isSome
  | .rs2 => inst.rs2.isSome
  | .imm => inst.imm.isSome
  | .imm20 => inst.imm.isSome
  | .shamt => inst.shamt.isSome
  | .label => inst.imm.isSome
  | .memory => inst.imm.isSome && inst.rs1.isSome
  | .predSucc => inst.imm.isSome
  | .unsupported => false

def missingRole? (inst : Instruction) : Option Role :=
  inst.record.pattern.find? fun role => !inst.supplies role

/-- The text once there is one, and what is known of the instruction before. -/
def describe (inst : Instruction) : String :=
  if inst.text.isEmpty then
    inst.record.mnemonic ++ " (format=" ++ inst.record.format.name ++ ")"
  else inst.text

example : nop.missingRole? = none := by decide
example : ({ record := .addi, rd := some 3 } : Instruction).missingRole? = some .rs1 := by decide

end Instruction

end Rv32Stimulus
