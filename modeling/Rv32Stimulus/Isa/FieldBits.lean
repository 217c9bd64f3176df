/-
# Isa.FieldBits -- opcode and function fields as documents write them

A field is a number below `2 ^ 32`, or a text in hexadecimal: blanks at either end do not
count, one `0x` or `0X` may come first, then perhaps a plus sign, then at least one
digit.  A text of blanks alone is an absent field.
-/
import Rv32Stimulus.Json.Read
import Rv32Stimulus.Text.Blank

namespace Rv32Stimulus

set_option autoImplicit false

open Json (Reader Problem)

namespace FieldBits

/-- The characters after one hexadecimal mark. -/
def afterMark : List Char → List Char
  | '0' :: 'x' :: rest => rest
  | '0' :: 'X' :: rest => rest
  | chars => chars

def afterPlus : List Char → List Char
  | '+' :: rest => rest
  | chars => chars

/-- What a text says: an absent field, a value, or (outer `none`) nothing. -/
def ofText? (content : String) : Option (Option UInt32) :=
  match Text.trim content.toList with
  | [] => some none
  | chars =>
      match Text.value? 16 (afterPlus (afterMark chars)) with
      | some value => if value ≤ 0xffffffff then some (some (UInt32.ofNat value)) else none
      | none => none

/-- How deep arrays and objects may be nested in the place of a field. -/
def depthLimit : Nat := 126

/-- A number or a text; anything else is no field. -/
def read (tree : Json) : Except Problem (Option UInt32) :=
  if !tree.isReadable depthLimit then .error .notJson
  else
    match tree with
    | .number numeral =>
        match Json.measure numeral with
        | .integer value =>
            if 0 ≤ value ∧ value ≤ 0xffffffff then .ok (some (UInt32.ofNat value.toNat))
            else .error .noFieldBits
        | _ => .error .noFieldBits
    | .string (some content) =>
        match ofText? content with
        | some bits => .ok bits
        | none => .error (.invalidFieldBits content)
    | _ => .error .noFieldBits

/-- A field that must be there. -/
def readRequired : Reader UInt32 := fun tree => do
  match ← read tree with
  | some bits => .ok bits
  | none => .error .emptyOpcode

/-- A field that may be absent; `null` is absent too. -/
def readOptional : Reader (Option UInt32)
  | .null => .ok none
  | tree => read tree

example : ofText? " 0X+13 " = some (some 0x13) := by decide +kernel
example : ofText? "0x0x13" = none := by decide +kernel
example : ofText? "\t" = some none := by decide +kernel

end FieldBits

end Rv32Stimulus
