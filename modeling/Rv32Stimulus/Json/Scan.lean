/-
# Json.Scan -- from a text to its tree

`scan` reads one value from the front of a text and gives the rest.  It never fails:
what is not JSON becomes `Json.broken`.  The recursion is bounded by `fuel`; every
step but one takes a character, so twice the length of the text is enough.
-/
import Rv32Stimulus.Json.Tree

namespace Rv32Stimulus.Json

set_option autoImplicit false

open Decimal (Numeral)

/-- The characters that may stand between tokens. -/
def isBlank (char : Char) : Bool :=
  char == ' ' || char == '\n' || char == '\t' || char == '\r'

def skipBlanks (chars : List Char) : List Char := chars.dropWhile isBlank

/-- The rest of `chars` after the letters of `word`. -/
def afterWord? : List Char → List Char → Option (List Char)
  | [], chars => some chars
  | letter :: word, char :: chars => if char = letter then afterWord? word chars else none
  | _ :: _, [] => none

/-! ## Numerals -/

/-- The digits at the front, and the rest. -/
def digitRun : List Char → List (Fin 10) × List Char
  | [] => ([], [])
  | char :: chars =>
      if char.isDigit then
        let (digits, rest) := digitRun chars
        (Fin.ofNat 10 (char.toNat - '0'.toNat) :: digits, rest)
      else ([], char :: chars)

/-- A whole part: a lone zero, or digits that do not start with zero. -/
def wholePart? (chars : List Char) : Option (Nat × List Char) :=
  match digitRun chars with
  | ([], _) => none
  | (first :: more, rest) =>
      if first.val == 0 && !more.isEmpty then none else some (Decimal.Layout.wholeOf (first :: more), rest)

/-- A point with at least one digit, or nothing. -/
def fractionPart? : List Char → Option (List (Fin 10) × List Char)
  | '.' :: chars =>
      match digitRun chars with
      | ([], _) => none
      | (digits, rest) => some (digits, rest)
  | chars => some ([], chars)

/-- The digits of an exponent. -/
def exponentDigits? (negative : Bool) (chars : List Char) : Option (Option Int × List Char) :=
  match digitRun chars with
  | ([], _) => none
  | (digits, rest) =>
      let value : Int := Decimal.Layout.wholeOf digits
      some (some (if negative then -value else value), rest)

/-- `e` or `E`, a sign, and at least one digit, or nothing. -/
def exponentPart? : List Char → Option (Option Int × List Char)
  | char :: chars =>
      if char = 'e' ∨ char = 'E' then
        match chars with
        | '-' :: chars => exponentDigits? true chars
        | '+' :: chars => exponentDigits? false chars
        | chars => exponentDigits? false chars
      else some (none, char :: chars)
  | [] => some (none, [])

def unsigned? (negative : Bool) (chars : List Char) : Option (Numeral × List Char) := do
  let (whole, chars) ← wholePart? chars
  let (fraction, chars) ← fractionPart? chars
  let (exponent, chars) ← exponentPart? chars
  some (⟨negative, whole, fraction, exponent⟩, chars)

def numeral? : List Char → Option (Numeral × List Char)
  | '-' :: chars => unsigned? true chars
  | chars => unsigned? false chars

/-! ## Texts -/

/-- What one piece of a quoted text stands for: a character or half of a surrogate pair. -/
inductive Piece where
  | char (value : Char)
  | high (half : Nat)
  | low (half : Nat)
  deriving DecidableEq

/-- The piece that a four-digit escape stands for. -/
def Piece.ofUnit (unit : Nat) : Piece :=
  if 0xd800 ≤ unit ∧ unit < 0xdc00 then .high (unit - 0xd800)
  else if 0xdc00 ≤ unit ∧ unit < 0xe000 then .low (unit - 0xdc00)
  else .char (Char.ofNat unit)

/-- The character after a backslash, except `u`. -/
def escape? : Char → Option Char
  | '"' => some '"'
  | '\\' => some '\\'
  | '/' => some '/'
  | 'b' => some '\x08'
  | 'f' => some '\x0c'
  | 'n' => some '\n'
  | 'r' => some '\r'
  | 't' => some '\t'
  | _ => none

/-- Four hexadecimal digits at the front. -/
def unit? : List Char → Option (Nat × List Char)
  | a :: b :: c :: d :: chars => (Text.value? 16 [a, b, c, d]).map (·, chars)
  | _ => none

/-- The pieces up to the closing quote, and the rest after it. -/
def pieces? : Nat → List Char → Option (List Piece × List Char)
  | 0, _ => none
  | fuel + 1, chars =>
      match chars with
      | [] => none
      | '"' :: rest => some ([], rest)
      | '\\' :: 'u' :: rest => do
          let (unit, rest) ← unit? rest
          let (pieces, rest) ← pieces? fuel rest
          some (.ofUnit unit :: pieces, rest)
      | '\\' :: escaped :: rest => do
          let char ← escape? escaped
          let (pieces, rest) ← pieces? fuel rest
          some (.char char :: pieces, rest)
      | char :: rest =>
          if char = '\\' ∨ char.toNat < 0x20 then none
          else do
            let (pieces, rest) ← pieces? fuel rest
            some (.char char :: pieces, rest)

/-- The characters of the pieces; none if half of a pair stands alone. -/
def join? : List Piece → Option (List Char)
  | [] => some []
  | .char char :: rest => (join? rest).map (char :: ·)
  | .high first :: .low second :: rest =>
      (join? rest).map (Char.ofNat (0x10000 + first * 0x400 + second) :: ·)
  | .high _ :: _ => none
  | .low _ :: _ => none

/-- A quoted text whose opening quote has been taken. -/
def quoted? (fuel : Nat) (chars : List Char) : Option (Json × List Char) :=
  (pieces? fuel chars).map fun (pieces, rest) =>
    (.string ((join? pieces).map String.ofList), rest)

/-! ## Values -/

/-- A value that starts with a letter. -/
def word? (chars : List Char) : Option (Json × List Char) :=
  match afterWord? "null".toList chars with
  | some rest => some (.null, rest)
  | none =>
      match afterWord? "true".toList chars with
      | some rest => some (.bool true, rest)
      | none => (afterWord? "false".toList chars).map (.bool false, ·)

mutual

/-- One value, and the rest of the text. -/
def value : Nat → List Char → Json × List Char
  | 0, chars => (.broken, chars)
  | fuel + 1, chars =>
      match skipBlanks chars with
      | [] => (.broken, [])
      | '[' :: rest =>
          match skipBlanks rest with
          | ']' :: rest => (.array [], rest)
          | rest =>
              let (items, rest) := items fuel rest
              (.array items, rest)
      | '\x7b' :: rest =>
          match skipBlanks rest with
          | '\x7d' :: rest => (.object [], rest)
          | rest =>
              let (members, rest) := members fuel rest
              (.object members, rest)
      | '"' :: rest => (quoted? fuel rest).getD (.broken, rest)
      | char :: rest =>
          if char = '-' ∨ char.isDigit then
            ((numeral? (char :: rest)).map fun (numeral, rest) => (.number numeral, rest)).getD
              (.broken, rest)
          else (word? (char :: rest)).getD (.broken, rest)

/-- The items of an array, at least one, through the closing bracket. -/
def items : Nat → List Char → List Json × List Char
  | 0, chars => ([.broken], chars)
  | fuel + 1, chars =>
      let (item, rest) := value fuel chars
      match skipBlanks rest with
      | ',' :: rest =>
          let (more, rest) := items fuel rest
          (item :: more, rest)
      | ']' :: rest => ([item], rest)
      | rest => ([item, .broken], rest)

/-- The members of an object, at least one, through the closing brace. -/
def members : Nat → List Char → List (Json × Json) × List Char
  | 0, chars => ([(.broken, .broken)], chars)
  | fuel + 1, chars =>
      let (name, rest) := value fuel chars
      match name, skipBlanks rest with
      | .string _, ':' :: rest =>
          let (content, rest) := value fuel rest
          match skipBlanks rest with
          | ',' :: rest =>
              let (more, rest) := members fuel rest
              ((name, content) :: more, rest)
          | '\x7d' :: rest => ([(name, content)], rest)
          | rest => ([(name, content), (.broken, .broken)], rest)
      | _, rest => ([(name, .broken)], rest)

end

/-- The tree of the value at the front of a text, and the rest. -/
def scan (chars : List Char) : Json × List Char := value (2 * chars.length + 2) chars

end Rv32Stimulus.Json
