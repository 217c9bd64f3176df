/-
# Isa.Format -- instruction formats and the displacements they can carry

The format of an instruction says how its operands are laid out in the word.  A
format name that RV32I does not define is `unsupported`: such a record is kept,
and its instructions are emitted as no-operations.

`admits` is the displacement window of a format.  Branches and jumps reach a
bounded distance both ways and need an even displacement; the other formats with
an immediate take whatever the immediate can hold; a format without immediate
takes anything.
-/

namespace Rv32Stimulus

set_option autoImplicit false

inductive Format where
  /-- Register-register operations. -/
  | r
  /-- Immediates, loads, register jumps, system calls and fences. -/
  | i
  /-- Stores. -/
  | s
  /-- Conditional branches. -/
  | b
  /-- Upper immediates. -/
  | u
  /-- Jumps. -/
  | j
  /-- Anything RV32I does not define. -/
  | unsupported
  deriving DecidableEq, Repr

namespace Format

/-- The format a catalog document names; the case matters. -/
def ofName : String → Format
  | "R" => r
  | "I" => i
  | "S" => s
  | "B" => b
  | "U" => u
  | "J" => j
  | _ => unsupported

def name : Format → String
  | r => "R"
  | i => "I"
  | s => "S"
  | b => "B"
  | u => "U"
  | j => "J"
  | unsupported => "Unsupported"

def description : Format → String
  | r => "R-type (register-register)"
  | i => "I-type (immediate/load)"
  | s => "S-type (store)"
  | b => "B-type (branch)"
  | u => "U-type (upper immediate)"
  | j => "J-type (jump)"
  | unsupported => "unsupported"

/-- Bytes a program-counter-relative displacement must stay below in magnitude. -/
def reach? : Format → Option Nat
  | b => some 0x1000
  | j => some 0x100000
  | _ => none

/-- Least and greatest immediate the word can hold. -/
def immediateRange? : Format → Option (Int × Int)
  | i => some (-2048, 2047)
  | s => some (-2048, 2047)
  | b => some (-4096, 4094)
  | u => some (0, 0xfffff)
  | j => some (-0x100000, 0xffffe)
  | r => none
  | unsupported => none

/-- Whether `displacement` may be stored as the target displacement of this format. -/
def admits (format : Format) (displacement : Int) : Bool :=
  match format.reach?, format.immediateRange? with
  | some reach, _ => displacement.natAbs < reach && displacement % 2 == 0
  | none, some (low, high) => low ≤ displacement && displacement ≤ high
  | none, none => true

theorem ofName_name (format : Format) : ofName format.name = format := by
  cases format <;> rfl

example : b.admits (-4096) = false := by decide
example : b.admits 4094 = true := by decide
example : i.admits 2048 = false := by decide

end Format

end Rv32Stimulus
