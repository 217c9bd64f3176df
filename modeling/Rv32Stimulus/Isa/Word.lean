/-
# Isa.Word -- the 32-bit instruction word and its six layouts

A word is laid out as a concatenation of fields, most significant first.  Each
layout function takes every field at its exact width, so nothing can spill into
a neighbour:

    R   funct7 | rs2 | rs1 | funct3 | rd | opcode
    I   imm[11:0]    | rs1 | funct3 | rd | opcode
    S   imm[11:5] | rs2 | rs1 | funct3 | imm[4:0] | opcode
    B   imm[12] | imm[10:5] | rs2 | rs1 | funct3 | imm[4:1] | imm[11] | opcode
    U   imm[19:0]                       | rd | opcode
    J   imm[20] | imm[10:1] | imm[11] | imm[19:12] | rd | opcode

`opcode`, `rd`, `funct3`, `rs1`, `rs2` and `funct7` read a field where every
layout that has it keeps it.  `immI`, `immS`, `immB`, `immU` and `immJ` gather the
scattered bits of an immediate; the branch and jump immediates are byte offsets,
so their bit 0 is not stored and reads as zero.
-/

namespace Rv32Stimulus

set_option autoImplicit false

/-- One instruction as the machine fetches it. -/
abbrev Word := BitVec 32

namespace Word

/-! ## Layouts -/

/-- Register-register layout. -/
def ofR (funct7 : BitVec 7) (rs2 rs1 : BitVec 5) (funct3 : BitVec 3) (rd : BitVec 5)
    (opcode : BitVec 7) : Word :=
  funct7 ++ rs2 ++ rs1 ++ funct3 ++ rd ++ opcode

/-- Immediate layout: a 12-bit immediate above `rs1`. -/
def ofI (imm : BitVec 12) (rs1 : BitVec 5) (funct3 : BitVec 3) (rd : BitVec 5)
    (opcode : BitVec 7) : Word :=
  imm ++ rs1 ++ funct3 ++ rd ++ opcode

/-- Store layout: the immediate is split around the registers. -/
def ofS (imm : BitVec 12) (rs2 rs1 : BitVec 5) (funct3 : BitVec 3) (opcode : BitVec 7) : Word :=
  imm.extractLsb' 5 7 ++ rs2 ++ rs1 ++ funct3 ++ imm.extractLsb' 0 5 ++ opcode

/-- Branch layout: a 13-bit byte offset whose bit 0 is not stored. -/
def ofB (imm : BitVec 13) (rs2 rs1 : BitVec 5) (funct3 : BitVec 3) (opcode : BitVec 7) : Word :=
  imm.extractLsb' 12 1 ++ imm.extractLsb' 5 6 ++ rs2 ++ rs1 ++ funct3 ++
    imm.extractLsb' 1 4 ++ imm.extractLsb' 11 1 ++ opcode

/-- Upper-immediate layout. -/
def ofU (imm : BitVec 20) (rd : BitVec 5) (opcode : BitVec 7) : Word :=
  imm ++ rd ++ opcode

/-- Jump layout: a 21-bit byte offset whose bit 0 is not stored. -/
def ofJ (imm : BitVec 21) (rd : BitVec 5) (opcode : BitVec 7) : Word :=
  imm.extractLsb' 20 1 ++ imm.extractLsb' 1 10 ++ imm.extractLsb' 11 1 ++
    imm.extractLsb' 12 8 ++ rd ++ opcode

/-! ## Fields -/

def opcode (word : Word) : BitVec 7 := word.extractLsb' 0 7

def rd (word : Word) : BitVec 5 := word.extractLsb' 7 5

def funct3 (word : Word) : BitVec 3 := word.extractLsb' 12 3

def rs1 (word : Word) : BitVec 5 := word.extractLsb' 15 5

def rs2 (word : Word) : BitVec 5 := word.extractLsb' 20 5

def funct7 (word : Word) : BitVec 7 := word.extractLsb' 25 7

/-- The shift amount sits where `rs2` does. -/
def shamt (word : Word) : BitVec 5 := word.rs2

def immI (word : Word) : BitVec 12 := word.extractLsb' 20 12

def immS (word : Word) : BitVec 12 := word.extractLsb' 25 7 ++ word.extractLsb' 7 5

def immB (word : Word) : BitVec 13 :=
  word.extractLsb' 31 1 ++ word.extractLsb' 7 1 ++ word.extractLsb' 25 6 ++
    word.extractLsb' 8 4 ++ 0#1

def immU (word : Word) : BitVec 20 := word.extractLsb' 12 20

def immJ (word : Word) : BitVec 21 :=
  word.extractLsb' 31 1 ++ word.extractLsb' 12 8 ++ word.extractLsb' 20 1 ++
    word.extractLsb' 21 10 ++ 0#1

/-! ## Signed reading -/

/-- The low `width` bits of `value` as a two's-complement number. -/
def signExtend (value : Word) (width : Nat) : Int := (value.setWidth width).toInt

/-! ## Known words -/

/-- `addi x0, x0, 0`. -/
def nop : Word := 0x13#32

example : nop = ofI 0 0 0 0 0x13 := by decide
example : ofR 0 2 1 0 3 0x33 = 0x002081b3#32 := by decide
example : ofB (BitVec.ofInt 13 (-8)) 2 1 0 0x63 = 0xfe208ce3#32 := by decide
example : ofJ (BitVec.ofInt 21 (-4)) 0 0x6f = 0xffdff06f#32 := by decide
example : (immB 0xfe208ce3#32).toInt = -8 := by decide
example : (immJ 0x001000ef#32).toInt = 2048 := by decide

end Word

end Rv32Stimulus
