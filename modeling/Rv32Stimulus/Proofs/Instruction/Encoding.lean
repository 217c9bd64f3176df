/-
# Proofs.Instruction.Encoding -- what the word of an instruction says

`Instruction.carried` lists what a word tells of the instruction it packs, under the
instruction's own format; `fields_pack` proves it for all operands, in range or not.  An
operand in range is carried unchanged: a small register number (`toNat_lowFive`), and
an immediate that the signed field holds (`toInt_immField`).
-/
import Rv32Stimulus.Instruction.Encoding
import Rv32Stimulus.Proofs.Isa.Codec
import Rv32Stimulus.Proofs.Isa.Coherent

namespace Rv32Stimulus

set_option autoImplicit false

/-! ## The whole word -/

/-- A branch offset without the bit that no word stores. -/
def evenPart (offset : Int) : Int := offset - offset % 2

theorem evenPart_of_even {offset : Int} (even : offset % 2 = 0) : evenPart offset = offset := by
  unfold evenPart
  omega

namespace Instruction

/-- The immediate that the word of the instruction carries, if its format has one. -/
def carriedImm? (inst : Instruction) : Option Int :=
  match inst.record.format, inst.record.kind with
  | .r, _ | .i, .shift | .unsupported, _ => none
  | .i, _ => some (inst.systemImmediate?.getD (inst.immField 12)).toInt
  | .s, _ => some (inst.immField 12).toInt
  | .b, _ => some (evenPart (inst.immField 13).toInt)
  | .u, _ => some (inst.immField 20).toNat
  | .j, _ => some (evenPart (inst.immField 21).toInt)

/-- What the word of the instruction decodes to under its own format. -/
def carried (inst : Instruction) : Fields :=
  let record := inst.record
  { opcode := if record.format = .unsupported then Word.nop.opcode else record.opcodeField
    funct3 := if record.hasFunct3 then some record.funct3Field else none
    funct7 := if record.hasFunct7 then some record.funct7Field else none
    rd := if record.has .rd then some (lowFive inst.rd) else none
    rs1 := if record.has .rs1 then some (lowFive inst.rs1) else none
    rs2 := if record.has .rs2 then some (lowFive inst.rs2) else none
    imm := inst.carriedImm?
    shamt := if record.has .shamt then some (lowFive inst.shamt) else none }

theorem fields_pack (inst : Instruction) :
    inst.pack.fields inst.record.format inst.record.kind = inst.carried := by
  unfold pack carried carriedImm? Record.has Record.hasFunct3 Record.hasFunct7
  dsimp only
  cases inst.record.format with
  | r => exact Word.fields_ofR ..
  | i =>
      cases kind : inst.record.kind with
      | shift =>
          rw [show inst.upperField = inst.record.funct7Field ++ lowFive inst.shamt by
            rw [upperField, kind]]
          exact Word.fields_ofI_shift ..
      | none | plain =>
          rw [show inst.upperField = inst.systemImmediate?.getD (inst.immField 12) by
            rw [upperField, kind]]
          exact Word.fields_ofI _ _ _ _ _ nofun
  | s => exact Word.fields_ofS ..
  | b => exact Word.fields_ofB ..
  | u => exact Word.fields_ofU ..
  | j => exact Word.fields_ofJ ..
  | unsupported => rfl

/-! ## Operands in range -/

theorem toNat_lowFive {value : Option UInt8} {number : UInt8} (present : value = some number)
    (small : number.toNat < 32) : (lowFive value).toNat = number.toNat := by
  subst present
  exact Nat.mod_eq_of_lt small

end Instruction

/-- Cutting a number to a narrower field leaves its low bits. -/
theorem Word.toInt_setWidth_eq {n width : Nat} {value : BitVec n} (narrower : width ≤ n) :
    (value.setWidth width).toInt = value.toInt.bmod (1 <<< width) :=
  calc (value.setWidth width).toInt
    _ = (value.toNat : Int).bmod (2 ^ width) := BitVec.toInt_setWidth value
    _ = ((value.toNat : Int).bmod (2 ^ n)).bmod (2 ^ width) :=
        (Int.bmod_bmod_of_dvd (Nat.pow_dvd_pow 2 narrower)).symm
    _ = value.toInt.bmod (1 <<< width) := by rw [BitVec.toInt_eq_toNat_bmod, Nat.one_shiftLeft]

/-- Cutting a number to a field that holds it leaves it as it is. -/
theorem Word.toInt_setWidth_of_fits {n width : Nat} {value : BitVec n} (narrower : width ≤ n)
    (low : -((1 <<< width : Nat) : Int) ≤ value.toInt * 2)
    (high : value.toInt * 2 < ((1 <<< width : Nat) : Int)) :
    (value.setWidth width).toInt = value.toInt :=
  (toInt_setWidth_eq narrower).trans (Int.bmod_eq_of_le_mul_two low high)

namespace Instruction

theorem toInt_immField_eq (inst : Instruction) {width : Nat} (narrower : width ≤ 32) :
    (inst.immField width).toInt = (inst.imm.getD 0).toInt.bmod (1 <<< width) := by
  unfold immField
  exact Word.toInt_setWidth_eq narrower

variable {inst : Instruction} {value : Int32}

theorem toInt_immField {width : Nat} (present : inst.imm = some value) (narrower : width ≤ 32)
    (low : -((1 <<< width : Nat) : Int) ≤ value.toInt * 2)
    (high : value.toInt * 2 < ((1 <<< width : Nat) : Int)) :
    (inst.immField width).toInt = value.toInt := by
  unfold immField
  rw [present]
  exact Word.toInt_setWidth_of_fits narrower low high

theorem toNat_immField_upper (present : inst.imm = some value) (low : 0 ≤ value.toInt)
    (high : value.toInt < 0x100000) : ((inst.immField 20).toNat : Int) = value.toInt := by
  have sign : value.toInt = (value.toBitVec.toNat : Int) := by
    have bound := value.toBitVec.isLt
    have signed := BitVec.toInt_eq_toNat_cond value.toBitVec
    rw [Int32.toInt_toBitVec] at signed
    split at signed <;> omega
  unfold immField
  rw [present, sign]
  have small : value.toBitVec.toNat < 2 ^ 20 := by omega
  exact congrArg Int.ofNat (Nat.mod_eq_of_lt small)

@[simp] theorem immField_none {width : Nat} (absent : inst.imm = none) : inst.immField width = 0 := by
  unfold immField
  rw [absent]
  exact BitVec.setWidth_zero ..

end Instruction

end Rv32Stimulus
