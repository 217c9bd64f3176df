/-
# Isa.Fields -- the operand fields a word carries under a given format

`Word.fields` takes a word apart as far as its format implies: the opcode always,
and of the rest exactly the fields that the format has.  For shift immediates the
amount is in `shamt` and there is no immediate; an upper immediate is the 20 bits
as an unsigned number; every other immediate is signed.
-/
import Rv32Stimulus.Isa.Word
import Rv32Stimulus.Isa.Record

namespace Rv32Stimulus

set_option autoImplicit false

/-- What a word of a known format says; a field the format lacks is `none`. -/
structure Fields where
  opcode : BitVec 7
  funct3 : Option (BitVec 3) := none
  funct7 : Option (BitVec 7) := none
  rd : Option (BitVec 5) := none
  rs1 : Option (BitVec 5) := none
  rs2 : Option (BitVec 5) := none
  imm : Option Int := none
  shamt : Option (BitVec 5) := none
  deriving DecidableEq, Repr

/-- The fields of `word` when read under `format`; `kind` matters to the I format only. -/
def Word.fields (word : Word) (format : Format) (kind : ImmediateKind) : Fields :=
  match format, kind with
  | .r, _ =>
      { opcode := word.opcode, funct3 := some word.funct3, funct7 := some word.funct7
        rd := some word.rd, rs1 := some word.rs1, rs2 := some word.rs2 }
  | .i, .shift =>
      { opcode := word.opcode, funct3 := some word.funct3, funct7 := some word.funct7
        rd := some word.rd, rs1 := some word.rs1, shamt := some word.shamt }
  | .i, _ =>
      { opcode := word.opcode, funct3 := some word.funct3
        rd := some word.rd, rs1 := some word.rs1, imm := some word.immI.toInt }
  | .s, _ =>
      { opcode := word.opcode, funct3 := some word.funct3
        rs1 := some word.rs1, rs2 := some word.rs2, imm := some word.immS.toInt }
  | .b, _ =>
      { opcode := word.opcode, funct3 := some word.funct3
        rs1 := some word.rs1, rs2 := some word.rs2, imm := some word.immB.toInt }
  | .u, _ =>
      { opcode := word.opcode, rd := some word.rd, imm := some word.immU.toNat }
  | .j, _ =>
      { opcode := word.opcode, rd := some word.rd, imm := some word.immJ.toInt }
  | .unsupported, _ => { opcode := word.opcode }

example : (Word.fields 0x40315093#32 .i .shift).shamt = some 3 := by decide
example : (Word.fields 0xfe112e23#32 .s .plain).imm = some (-4) := by decide

end Rv32Stimulus
