/-
# Decimal.Numeral -- decimal numbers as they are written

A numeral is a sign, a whole part, fraction digits and perhaps an exponent.  `text`
writes it.

A `Layout` says how a double is written: where positional notation is used and
whether a whole number shows `.0`.  `Layout.plain` never uses an exponent and shows
no `.0`; it is the form of numbers in messages.  `Layout.json` is the form of numbers in
documents.  Both write the shortest digits that round to the double.
-/
import Rv32Stimulus.Decimal.Shortest
import Rv32Stimulus.Text.Digits

namespace Rv32Stimulus.Decimal

set_option autoImplicit false

/-- A written decimal number; no fraction digits means no point. -/
structure Numeral where
  negative : Bool
  whole : Nat
  fraction : List (Fin 10) := []
  exponent : Option Int := none
  deriving DecidableEq, Repr

namespace Numeral

/-- A whole number. -/
def ofInt (value : Int) : Numeral := ⟨value < 0, value.natAbs, [], none⟩

/-- Written without point and exponent. -/
def isWhole (numeral : Numeral) : Bool := numeral.fraction.isEmpty && numeral.exponent.isNone

/-- All digits as one number. -/
def mantissa (numeral : Numeral) : Nat :=
  numeral.fraction.foldl (fun total digit => 10 * total + digit.val) numeral.whole

/-- The power of ten that `mantissa` counts. -/
def scale (numeral : Numeral) : Int := numeral.exponent.getD 0 - numeral.fraction.length

def fractionText (fraction : List (Fin 10)) : List Char :=
  match fraction with
  | [] => []
  | digits => '.' :: digits.map fun digit => Text.digit digit.val

def exponentText : Option Int → List Char
  | none => []
  | some exponent => 'e' :: (toString exponent).toList

def chars (numeral : Numeral) : List Char :=
  (if numeral.negative then ['-'] else []) ++ Text.digits 10 numeral.whole ++
    fractionText numeral.fraction ++ exponentText numeral.exponent

def text (numeral : Numeral) : String := String.ofList numeral.chars

end Numeral

/-! ## Layouts of doubles -/

/-- How a double is written. -/
structure Layout where
  /-- Whether a number whose decimal point stands after that many digits is written without exponent. -/
  positional : Int → Bool
  /-- Whether a whole number ends in `.0`. -/
  showsPoint : Bool

namespace Layout

/-- Never an exponent, no `.0`. -/
def plain : Layout := ⟨fun _ => true, false⟩

/-- An exponent from `1e16` up and below `1e-5`, and `.0` on whole numbers. -/
def json : Layout := ⟨fun point => -5 < point && point ≤ 16, true⟩

/-- The decimal digits of a number, most significant first. -/
def digitsOf (value : Nat) : List (Fin 10) :=
  (Text.digits 10 value).map fun char => Fin.ofNat 10 (char.toNat - '0'.toNat)

def wholeOf (digits : List (Fin 10)) : Nat :=
  digits.foldl (fun total digit => 10 * total + digit.val) 0

/-- The fraction of a number without one. -/
def emptyFraction (layout : Layout) : List (Fin 10) := if layout.showsPoint then [0] else []

/-- A positive decimal in this layout. -/
def numeral (layout : Layout) (negative : Bool) (value : Scaled) : Numeral :=
  let digits := digitsOf value.digits
  let point := value.exponent + digits.length
  if layout.positional point then
    if 0 ≤ value.exponent then
      ⟨negative, value.digits * Nat.pow 10 value.exponent.toNat, layout.emptyFraction, none⟩
    else if 0 < point then
      ⟨negative, wholeOf (digits.take point.toNat), digits.drop point.toNat, none⟩
    else ⟨negative, 0, List.replicate (-point).toNat 0 ++ digits, none⟩
  else ⟨negative, wholeOf (digits.take 1), digits.drop 1, some (point - 1)⟩

/-- A finite double in this layout; `none` for the others. -/
def ofFloat? (layout : Layout) (value : Float) : Option Numeral :=
  match magnitude value with
  | .finite binary =>
      if binary.mantissa = 0 then some ⟨isNegative value, 0, layout.emptyFraction, none⟩
      else some (layout.numeral (isNegative value) (shortest binary))
  | _ => none

end Layout

/-- A double in a message. -/
def messageText (value : Float) : String :=
  match Layout.plain.ofFloat? value with
  | some numeral => numeral.text
  | none =>
      match magnitude value with
      | .notANumber => "NaN"
      | _ => if isNegative value then "-inf" else "inf"

end Rv32Stimulus.Decimal
