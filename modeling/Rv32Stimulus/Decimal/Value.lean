/-
# Decimal.Value -- the doubles that numerals are read as

A numeral is read as the product or the quotient of two doubles.  One stands for its
digits, as far as they make a number of 64 bits (`taken`), the other is a power of ten.
Both are rounded, and so is the result: it is the nearest double if both are exact and
there is one step, and may be a neighbour of it if not.

A numeral whose result is infinite is out of range.  So is one whose exponent is positive
and needs more than 31 bits, unless its digits are all zero.
-/
import Rv32Stimulus.Decimal.Numeral

namespace Rv32Stimulus.Decimal.Numeral

set_option autoImplicit false

/-! ## The digits that count -/

/-- The number `taken` with one digit behind it, if it stays within 64 bits. -/
def push? (taken : Nat) (digit : Fin 10) : Option Nat :=
  let longer := 10 * taken + digit.val
  if longer < 0x10000000000000000 then some longer else none

/-- Digits before the point.  The first that does not fit and all after it only count as places. -/
def takeWhole (taken : Nat) : List (Fin 10) → Scaled
  | [] => ⟨taken, 0⟩
  | digit :: rest =>
      match push? taken digit with
      | some longer => takeWhole longer rest
      | none => ⟨taken, (digit :: rest).length⟩

/-- Digits behind the point.  The first that does not fit and all after it are left out. -/
def takeFraction (taken : Scaled) : List (Fin 10) → Scaled
  | [] => taken
  | digit :: rest =>
      match push? taken.digits digit with
      | some longer => takeFraction ⟨longer, taken.exponent - 1⟩ rest
      | none => taken

/-- What counts of the digits, before the exponent is looked at. -/
def taken (numeral : Numeral) : Scaled :=
  takeFraction (takeWhole 0 (Layout.digitsOf numeral.whole)) numeral.fraction

/-! ## Powers of ten -/

/-- The exponent of the greatest power of ten below infinity. -/
def greatestPower : Nat := 308

def powerOfTen (power : Nat) : Float := .ofScientific 1 false power

/-- Divide by the greatest power so many times, as long as something is left. -/
def reduce : Nat → Float → Float
  | 0, value => value
  | times + 1, value =>
      if value == 0.0 then value else reduce times (value / powerOfTen greatestPower)

def infinity : Float := .ofBits 0x7ff0000000000000

/-- The product or quotient for `digits · 10 ^ exponent`. -/
def ofScaled (decimal : Scaled) : Float :=
  let value := decimal.digits.toUInt64.toFloat
  let places := decimal.exponent.natAbs
  if 0 ≤ decimal.exponent then
    if places ≤ greatestPower then value * powerOfTen places
    else if value == 0.0 then value
    else infinity
  else
    let times := (places - 1) / greatestPower
    reduce times value / powerOfTen (places - times * greatestPower)

/-! ## Numerals -/

/-- The greatest exponent that is counted. -/
def greatestExponent : Nat := 0x7fffffff

/-- The double that a numeral without its sign is read as. -/
def absolute (numeral : Numeral) : Float :=
  let taken := numeral.taken
  let exponent := numeral.exponent.getD 0
  if exponent.natAbs ≤ greatestExponent then
    ofScaled ⟨taken.digits, taken.exponent + exponent⟩
  else if taken.digits = 0 ∨ exponent < 0 then 0.0
  else infinity

/-- The double that a numeral is read as; infinite if it is out of range. -/
def toFloat (numeral : Numeral) : Float :=
  if numeral.negative then -numeral.absolute else numeral.absolute

-- The digits need 54 bits and are rounded before the division; the nearest double ends in 3.
example : toFloat ⟨false, 0, [9, 4, 5, 2, 7, 0, 6, 9, 5, 5, 5, 3, 9, 2, 2, 3], none⟩ =
    0.9452706955539224 := by decide +kernel

-- The nearest double is the greatest one, but the digits are rounded up before the product is made.
example : toFloat ⟨false, 179769313486231570000000000000000000000, [], some 270⟩ = infinity := by
  decide +kernel

end Rv32Stimulus.Decimal.Numeral
