/-
# Json.Read -- readers of values

A `Reader α` takes a tree and gives an `α` or the first problem.  Readers of numbers
distinguish whole numerals within 64 bits, which are integers, from all others, which
are doubles; the numeral `-0` is a double.  A numeral out of range cannot be read.

`document` reads a whole text: one value, with nothing but blanks after it.
-/
import Rv32Stimulus.Json.Problem
import Rv32Stimulus.Json.Scan

namespace Rv32Stimulus.Json

set_option autoImplicit false

open Decimal (Numeral)

abbrev Reader (α : Type) := Json → Except Problem α

/-- What a numeral is to a reader. -/
inductive Measure where
  | integer (value : Int)
  | float (value : Float)
  | outOfRange

def measure (numeral : Numeral) : Measure :=
  let signed : Int := if numeral.negative then -numeral.whole else numeral.whole
  if numeral.isWhole && !(numeral.negative && numeral.whole == 0) &&
      (-0x8000000000000000 ≤ signed && signed ≤ 0xffffffffffffffff) then .integer signed
  else
    let value := numeral.toFloat
    if value.isInf then .outOfRange else .float value

/-- The problem of finding `tree` where something of another type is expected. -/
def mismatch (expected : String) : Json → Problem
  | .null => .invalidType .null expected
  | .bool value => .invalidType (.bool value) expected
  | .number numeral =>
      match measure numeral with
      | .integer value => .invalidType (.integer value) expected
      | .float value => .invalidType (.float value) expected
      | .outOfRange => .notJson
  | .string (some content) => .invalidType (.string content) expected
  | .string none => .notJson
  | .array _ => .invalidType .sequence expected
  | .object _ => .invalidType .map expected
  | .broken => .notJson

/-! ## Scalars -/

/-- An integer from `low` to `high`. -/
def readInteger (expected : String) (low high : Int) : Reader Int
  | .number numeral =>
      match measure numeral with
      | .integer value =>
          if low ≤ value ∧ value ≤ high then .ok value
          else .error (.invalidValue (.integer value) expected)
      | _ => .error (mismatch expected (.number numeral))
  | tree => .error (mismatch expected tree)

def readInt32 : Reader Int32 := fun tree =>
  Int32.ofInt <$> readInteger "i32" (-0x80000000) 0x7fffffff tree

def readUInt32 : Reader UInt32 := fun tree =>
  (UInt32.ofNat ·.toNat) <$> readInteger "u32" 0 0xffffffff tree

def readUInt64 : Reader UInt64 := fun tree =>
  (UInt64.ofNat ·.toNat) <$> readInteger "u64" 0 0xffffffffffffffff tree

/-- A count, which is below `2 ^ 64`. -/
def readCount : Reader Nat := fun tree =>
  (·.toNat) <$> readInteger "usize" 0 0xffffffffffffffff tree

def readFloat : Reader Float
  | .number numeral =>
      let value := numeral.toFloat
      if value.isInf then .error .notJson else .ok value
  | tree => .error (mismatch "f64" tree)

def readBool : Reader Bool
  | .bool value => .ok value
  | tree => .error (mismatch "a boolean" tree)

/-- A text, called `expected` in problems. -/
def readTextAs (expected : String) : Reader String
  | .string (some content) => .ok content
  | tree => .error (mismatch expected tree)

def readText : Reader String := readTextAs "a string"

/-! ## Compounds -/

/-- `null` is none. -/
def readOption {α : Type} (reader : Reader α) : Reader (Option α)
  | .null => .ok none
  | tree => some <$> reader tree

def readList {α : Type} (reader : Reader α) : Reader (List α)
  | .array items => items.mapM reader
  | tree => .error (mismatch "a sequence" tree)

/-- The members of an object in order, values read by `reader`; a name may come again. -/
def readMembers {α : Type} (reader : Reader α) : List (Json × Json) → Except Problem (List (String × α))
  | [] => .ok []
  | (name, value) :: rest => do
      let name ← match name with
        | .string (some name) => .ok name
        | _ => .error .notJson
      let value ← reader value
      let rest ← readMembers reader rest
      .ok ((name, value) :: rest)

def readMap {α : Type} (reader : Reader α) : Reader (List (String × α))
  | .object members => readMembers reader members
  | tree => .error (mismatch "a map" tree)

/-- A name out of a closed set: a text, or an object whose only member is that name with `null`.
`choose` gives the meaning of the name. -/
def readVariant {α : Type} (choose : String → Except Problem α) : Reader α
  | .string (some name) => choose name
  | .object ((name, value) :: rest) => do
      let name ← readTextAs "variant identifier" name
      let meaning ← choose name
      match value with
      | .null => if rest.isEmpty then .ok meaning else .error .notJson
      | value => .error (mismatch "unit" value)
  | _ => .error .notJson

/-! ## Documents -/

/-- Read a whole text. -/
def document {α : Type} (reader : Reader α) (content : String) : Except Problem α := do
  let (tree, rest) := scan content.toList
  let result ← reader tree
  if (skipBlanks rest).isEmpty then .ok result else .error .notJson

end Rv32Stimulus.Json
