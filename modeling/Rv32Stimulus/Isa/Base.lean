/-
# Isa.Base -- the built-in RV32I catalog

The complete base instruction set, with `FENCE.I` and the pseudo-instruction `NOP`,
grouped by the layout of the word.  The order of the records is the order in which
draws number them within a category.
-/
import Rv32Stimulus.Isa.Catalog

namespace Rv32Stimulus

set_option autoImplicit false

namespace Base

/-! ## Major opcodes -/

def load : UInt32 := 0x03
def miscMem : UInt32 := 0x0f
def opImm : UInt32 := 0x13
def auipc : UInt32 := 0x17
def store : UInt32 := 0x23
def op : UInt32 := 0x33
def lui : UInt32 := 0x37
def branch : UInt32 := 0x63
def jalr : UInt32 := 0x67
def jal : UInt32 := 0x6f
def system : UInt32 := 0x73

/-! ## One builder per shape of instruction -/

def registers (mnemonic : String) (category : Category) (funct3 funct7 : UInt32) : Record :=
  { mnemonic, format := .r, category, opcode := op, funct3 := some funct3, funct7 := some funct7
    pattern := [.rd, .rs1, .rs2], kind := .none }

def immediate (mnemonic : String) (category : Category) (funct3 : UInt32) : Record :=
  { mnemonic, format := .i, category, opcode := opImm, funct3 := some funct3
    pattern := [.rd, .rs1, .imm] }

def shift (mnemonic : String) (funct3 funct7 : UInt32) : Record :=
  { mnemonic, format := .i, category := .alu, opcode := opImm, funct3 := some funct3
    funct7 := some funct7, pattern := [.rd, .rs1, .shamt], kind := .shift }

def loads (mnemonic : String) (funct3 : UInt32) : Record :=
  { mnemonic, format := .i, category := .load, opcode := load, funct3 := some funct3
    pattern := [.rd, .memory] }

def stores (mnemonic : String) (funct3 : UInt32) : Record :=
  { mnemonic, format := .s, category := .store, opcode := store, funct3 := some funct3
    pattern := [.rs2, .memory] }

def branches (mnemonic : String) (funct3 : UInt32) : Record :=
  { mnemonic, format := .b, category := .branch, opcode := branch, funct3 := some funct3
    pattern := [.rs1, .rs2, .label] }

def uppers (mnemonic : String) (opcode : UInt32) : Record :=
  { mnemonic, format := .u, category := .upper, opcode, pattern := [.rd, .imm20] }

def systems (mnemonic : String) (opcode funct3 : UInt32) (pattern : List Role) : Record :=
  { mnemonic, format := .i, category := .system, opcode, funct3 := some funct3, pattern
    kind := .none }

def records : List Record :=
  [ registers "ADD" .alu 0b000 0x00,
    registers "SUB" .alu 0b000 0x20,
    registers "SLL" .alu 0b001 0x00,
    registers "XOR" .alu 0b100 0x00,
    registers "SRL" .alu 0b101 0x00,
    registers "SRA" .alu 0b101 0x20,
    registers "OR" .alu 0b110 0x00,
    registers "AND" .alu 0b111 0x00,
    registers "SLT" .compare 0b010 0x00,
    registers "SLTU" .compare 0b011 0x00,
    immediate "ADDI" .alu 0b000,
    immediate "XORI" .alu 0b100,
    immediate "ORI" .alu 0b110,
    immediate "ANDI" .alu 0b111,
    shift "SLLI" 0b001 0x00,
    shift "SRLI" 0b101 0x00,
    shift "SRAI" 0b101 0x20,
    immediate "SLTI" .compare 0b010,
    immediate "SLTIU" .compare 0b011,
    loads "LB" 0b000,
    loads "LH" 0b001,
    loads "LW" 0b010,
    loads "LBU" 0b100,
    loads "LHU" 0b101,
    stores "SB" 0b000,
    stores "SH" 0b001,
    stores "SW" 0b010,
    branches "BEQ" 0b000,
    branches "BNE" 0b001,
    branches "BLT" 0b100,
    branches "BGE" 0b101,
    branches "BLTU" 0b110,
    branches "BGEU" 0b111,
    { mnemonic := "JAL", format := .j, category := .jump, opcode := jal, pattern := [.rd, .label] },
    { mnemonic := "JALR", format := .i, category := .jump, opcode := jalr, funct3 := some 0b000
      pattern := [.rd, .rs1, .imm] },
    uppers "LUI" lui,
    uppers "AUIPC" auipc,
    systems "FENCE" miscMem 0b000 [.predSucc],
    systems "FENCE.I" miscMem 0b001 [],
    systems "ECALL" system 0b000 [],
    systems "EBREAK" system 0b000 [],
    { mnemonic := "NOP", format := .i, category := .pseudo, opcode := opImm, funct3 := some 0b000
      pattern := [], kind := .none } ]

end Base

/-- The RV32I base instruction set. -/
def Catalog.rv32i : Catalog := ⟨Base.records⟩

example : Catalog.rv32i.records.length = 42 := by decide

end Rv32Stimulus
