/-
# Instruction.Assembly -- the assembly text of an instruction

The mnemonic in lower case, then the operands in pattern order, separated by commas.
`ecall`, `ebreak`, `fence` and `fence.i` are written without operands, and an
unsupported role writes nothing.  A label operand is the label of the instruction,
else the name its target has in the label table, else `L_?`.
-/
import Rv32Stimulus.Instruction.Basic
import Rv32Stimulus.Ordered.Table
import Rv32Stimulus.Text.Digits

namespace Rv32Stimulus

set_option autoImplicit false

/-- Label names by position. -/
abbrev LabelTable := Table Nat String

namespace Instruction

/-- What stands for a target that has no name. -/
def unnamedLabel : String := "L_?"

def bareMnemonics : List String := ["ecall", "ebreak", "fence", "fence.i"]

def registerText (register : Option UInt8) : String :=
  "x" ++ toString (register.getD 0).toNat

def immText (inst : Instruction) : String := toString (inst.imm.getD 0).toInt

def labelText (inst : Instruction) (labels : LabelTable) : String :=
  (inst.label.or (inst.target.bind labels.find?)).getD unnamedLabel

/-- The operand of one role; `none` if the role is not written. -/
def operandText (inst : Instruction) (labels : LabelTable) : Role → Option String
  | .rd => some (registerText inst.rd)
  | .rs1 => some (registerText inst.rs1)
  | .rs2 => some (registerText inst.rs2)
  | .imm => some inst.immText
  | .shamt => some (toString (inst.shamt.getD 0).toNat)
  | .imm20 => some ("0x" ++ Text.hex (inst.imm.getD 0).toBitVec.toNat)
  | .label => some (inst.labelText labels)
  | .memory => some (inst.immText ++ "(" ++ registerText inst.rs1 ++ ")")
  | .predSucc => some "iorw, iorw"
  | .unsupported => none

def assembly (inst : Instruction) (labels : LabelTable) : String :=
  let mnemonic := inst.record.mnemonic.toLower
  if bareMnemonics.contains mnemonic then mnemonic
  else
    match inst.record.pattern.filterMap (inst.operandText labels) with
    | [] => mnemonic
    | operands => mnemonic ++ " " ++ ", ".intercalate operands

example : nop.assembly ∅ = "addi x0, x0, 0" := by decide +kernel

end Instruction

end Rv32Stimulus
