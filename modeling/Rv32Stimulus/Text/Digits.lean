/-
# Text.Digits -- numbers written in a positional base

`digits` writes a number in a base up to sixteen with the digits `0`-`9`, `a`-`f`
and no leading zero; `padded` fills it up with zeros on the left to a fixed width.
`value?` reads such digits back, in either letter case.
-/

namespace Rv32Stimulus.Text

set_option autoImplicit false

/-- The digit for a value below sixteen. -/
def digit (value : Nat) : Char :=
  if value < 10 then Char.ofNat ('0'.toNat + value) else Char.ofNat ('a'.toNat + (value - 10))

/-- What a hexadecimal digit of either case stands for. -/
def digitValue? (char : Char) : Option Nat :=
  if '0' ≤ char ∧ char ≤ '9' then some (char.toNat - '0'.toNat)
  else if 'a' ≤ char ∧ char ≤ 'f' then some (char.toNat - 'a'.toNat + 10)
  else if 'A' ≤ char ∧ char ≤ 'F' then some (char.toNat - 'A'.toNat + 10)
  else none

/-- The last `width` digits of `value`, most significant first. -/
def lastDigits (base : Nat) : Nat → Nat → List Char
  | 0, _ => []
  | width + 1, value => lastDigits base width (value / base) ++ [digit (value % base)]

/-- How many digits `value` needs; zero needs one. `fuel` bounds the count. -/
def digitCount (base : Nat) : Nat → Nat → Nat
  | 0, _ => 1
  | fuel + 1, value => if value < base then 1 else digitCount base fuel (value / base) + 1

/-- `value` in `base` without leading zeros. -/
def digits (base value : Nat) : List Char :=
  lastDigits base (digitCount base value value) value

/-- Lower-case hexadecimal without leading zeros. -/
def hex (value : Nat) : String := String.ofList (digits 16 value)

/-- Exactly eight lower-case hexadecimal digits. -/
def hexWord (word : BitVec 32) : String := String.ofList (lastDigits 16 8 word.toNat)

/-- Exactly thirty-two binary digits. -/
def binaryWord (word : BitVec 32) : String := String.ofList (lastDigits 2 32 word.toNat)

/-- The number that a non-empty run of digits below `base` stands for. -/
def value? (base : Nat) (chars : List Char) : Option Nat :=
  if chars.isEmpty then none
  else chars.foldlM (fun total char => do
    let value ← digitValue? char
    if value < base then some (base * total + value) else none) 0

example : hex 0 = "0" := by decide +kernel
example : hex 0xc8 = "c8" := by decide +kernel
example : hexWord 0x13#32 = "00000013" := by decide +kernel
example : value? 16 "fF".toList = some 255 := by decide +kernel

end Rv32Stimulus.Text
