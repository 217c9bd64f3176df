/-
# Isa.Record -- the static description of one mnemonic

A `Record` says everything about a mnemonic that does not depend on its operands:
format, functional category, the fixed opcode and function fields, the ordered
pattern of operand roles in its assembly syntax, and how its immediate field is
used.

Role, format and immediate-kind names outside the known ones are accepted and
become `unsupported`, `unsupported` and `plain`; a category must be known.
-/
import Rv32Stimulus.Isa.Format

namespace Rv32Stimulus

set_option autoImplicit false

/-- What one operand slot of the assembly syntax holds. -/
inductive Role where
  | rd
  | rs1
  | rs2
  /-- Signed 12-bit immediate. -/
  | imm
  /-- Upper 20 bits. -/
  | imm20
  /-- Shift amount. -/
  | shamt
  /-- Branch or jump target. -/
  | label
  /-- `offset(base)`: an immediate and `rs1` together. -/
  | memory
  /-- Predecessor and successor sets of a fence. -/
  | predSucc
  /-- A role no operand can be made for. -/
  | unsupported
  deriving DecidableEq, Repr

namespace Role

/-- The role a catalog document names; the case matters. -/
def ofName : String → Role
  | "rd" => rd
  | "rs1" => rs1
  | "rs2" => rs2
  | "imm" => imm
  | "imm20" => imm20
  | "shamt" => shamt
  | "label" => label
  | "imm(rs1)" => memory
  | "offset(rs1)" => memory
  | "pred_succ" => predSucc
  | _ => unsupported

/-- How messages call the role. -/
def title : Role → String
  | rd => "Rd"
  | rs1 => "Rs1"
  | rs2 => "Rs2"
  | imm => "Imm"
  | imm20 => "Imm20"
  | shamt => "Shamt"
  | label => "Label"
  | memory => "MemoryOffset"
  | predSucc => "PredSucc"
  | unsupported => "Unsupported"

end Role

/-- Functional group of an instruction, as weighted by a profile. -/
inductive Category where
  | alu
  | compare
  | load
  | store
  | branch
  | jump
  | upper
  | system
  | pseudo
  deriving DecidableEq, Repr

namespace Category

def all : List Category :=
  [alu, compare, load, store, branch, jump, upper, system, pseudo]

def name : Category → String
  | alu => "alu"
  | compare => "compare"
  | load => "load"
  | store => "store"
  | branch => "branch"
  | jump => "jump"
  | upper => "upper"
  | system => "system"
  | pseudo => "pseudo"

/-- The category of that name; the case matters. -/
def ofName? (name : String) : Option Category :=
  all.find? (·.name == name)

theorem ofName?_name (category : Category) : ofName? category.name = some category := by
  cases category <;> rfl

/-- The place of a category among all of them. -/
def rank : Category → Nat
  | alu => 0
  | compare => 1
  | load => 2
  | store => 3
  | branch => 4
  | jump => 5
  | upper => 6
  | system => 7
  | pseudo => 8

instance : LT Category := ⟨fun one other => one.rank < other.rank⟩

instance : DecidableLT Category := fun one other =>
  inferInstanceAs (Decidable (one.rank < other.rank))

instance : Trans (α := Category) (· < ·) (· < ·) (· < ·) := ⟨Nat.lt_trans⟩

end Category

/-- How the immediate field of an I-format word is used. -/
inductive ImmediateKind where
  /-- A 5-bit shift amount below `funct7`. -/
  | shift
  | none
  | plain
  deriving DecidableEq, Repr

namespace ImmediateKind

/-- The kind a catalog document names; the case matters. -/
def ofName : String → ImmediateKind
  | "shamt5" => shift
  | "none" => none
  | _ => plain

def title : ImmediateKind → String
  | shift => "Shamt5"
  | none => "None"
  | plain => "Plain"

end ImmediateKind

/-- The static description of one mnemonic. -/
structure Record where
  mnemonic : String
  format : Format
  category : Category
  opcode : UInt32
  funct3 : Option UInt32 := none
  funct7 : Option UInt32 := none
  pattern : List Role
  kind : ImmediateKind := .plain
  deriving DecidableEq, Repr

namespace Record

/-- Whether the record is called `name`, whatever the ASCII case of either. -/
def isCalled (record : Record) (name : String) : Bool :=
  record.mnemonic.toUpper == name.toUpper

def hasRole (record : Record) (role : Role) : Bool := record.pattern.contains role

/-- `addi rd, rs1, imm`, which stands in where a catalog has nothing to offer. -/
def addi : Record where
  mnemonic := "ADDI"
  format := .i
  category := .alu
  opcode := 0x13
  funct3 := some 0
  pattern := [.rd, .rs1, .imm]

end Record

end Rv32Stimulus
