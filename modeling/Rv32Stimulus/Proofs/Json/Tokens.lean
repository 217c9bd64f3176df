/-
# Proofs.Json.Tokens -- numerals and texts are scanned back

A numeral and a quoted text are each taken off the front of a longer text, so the statements carry what
follows.  Behind a numeral must not come what could belong to it (`Ends`); a text ends with its own
quote, and each of its characters is read back from its escape (`pieces?_escapedChar`).
-/
import Mathlib.Data.List.DropRight
import Mathlib.Tactic.IntervalCases
import Rv32Stimulus.Json.Pretty
import Rv32Stimulus.Json.Read
import Rv32Stimulus.Proofs.Decimal.Digits

namespace Rv32Stimulus.Json

set_option autoImplicit false

open Decimal (Numeral)
open Decimal.Layout (digitChar digitsOf)

variable {rest : List Char}

/-! ## Numerals -/

/-- What comes does not go on with digits. -/
def Undigited (rest : List Char) : Prop := ∀ char ∈ rest.head?, char.isDigit = false

/-- What comes could not belong to a numeral in front of it. -/
structure Ends (rest : List Char) : Prop where
  undigited : Undigited rest
  point : '.' ∉ rest.head?
  exponent : 'e' ∉ rest.head? ∧ 'E' ∉ rest.head?

theorem ends_nil : Ends [] := ⟨nofun, nofun, nofun, nofun⟩

theorem isDigit_digitChar : ∀ digit : Fin 10, (digitChar digit).isDigit = true := by decide

theorem digit_of_digitChar : ∀ digit : Fin 10,
    Fin.ofNat 10 ((digitChar digit).toNat - '0'.toNat) = digit := by decide

theorem digitRun_of_isDigit {char : Char} (isDigit : char.isDigit = true) (rest : List Char) :
    digitRun (char :: rest) =
      (Fin.ofNat 10 (char.toNat - '0'.toNat) :: (digitRun rest).1, (digitRun rest).2) :=
  if_pos isDigit

theorem digitRun_of_not_isDigit {char : Char} (stop : ¬char.isDigit = true) (rest : List Char) :
    digitRun (char :: rest) = ([], char :: rest) :=
  if_neg stop

theorem digitRun_of_undigited (undigited : Undigited rest) : digitRun rest = ([], rest) := by
  cases rest with
  | nil => rfl
  | cons char rest => exact digitRun_of_not_isDigit (by simp [undigited char rfl]) rest

theorem digitRun_map (digits : List (Fin 10)) (undigited : Undigited rest) :
    digitRun (digits.map digitChar ++ rest) = (digits, rest) := by
  induction digits with
  | nil => exact digitRun_of_undigited undigited
  | cons digit digits ih =>
      rw [List.map_cons, List.cons_append, digitRun_of_isDigit (isDigit_digitChar digit), ih,
        digit_of_digitChar]

theorem wholePart?_digits (whole : Nat) (undigited : Undigited rest) :
    wholePart? (Text.digits 10 whole ++ rest) = some (whole, rest) := by
  have run : digitRun (Text.digits 10 whole ++ rest) = (digitsOf whole, rest) := by
    rw [Decimal.Layout.digits_ten_eq_map, digitRun_map _ undigited]
  have same := Decimal.Layout.wholeOf_digitsOf whole
  rw [wholePart?, run]
  rcases Nat.eq_zero_or_pos whole with rfl | positive
  · rfl
  · obtain ⟨first, more, split, nonzero⟩ := Decimal.Layout.exists_digitsOf_eq positive
    have leading : (first.val == 0) = false :=
      beq_eq_false_iff_ne.2 fun zero => nonzero (Fin.ext zero)
    rw [split] at same ⊢
    simp [leading, same]

theorem fractionPart?_fractionText (fraction : List (Fin 10)) (undigited : Undigited rest)
    (point : '.' ∉ rest.head?) :
    fractionPart? (Numeral.fractionText fraction ++ rest) = some (fraction, rest) := by
  cases fraction with
  | nil =>
      rw [Numeral.fractionText, List.nil_append]
      unfold fractionPart?
      split
      · exact absurd rfl point
      · rfl
  | cons digit digits =>
      have run := digitRun_map (digit :: digits) undigited
      have text : Numeral.fractionText (digit :: digits) ++ rest =
          '.' :: ((digit :: digits).map digitChar ++ rest) := rfl
      rw [text, fractionPart?, run]

theorem exponentDigits?_digits (negative : Bool) (magnitude : Nat) (undigited : Undigited rest) :
    exponentDigits? negative (Text.digits 10 magnitude ++ rest) =
      some (some (if negative then -(magnitude : Int) else magnitude), rest) := by
  have run : digitRun (Text.digits 10 magnitude ++ rest) = (digitsOf magnitude, rest) := by
    rw [Decimal.Layout.digits_ten_eq_map, digitRun_map _ undigited]
  have same := Decimal.Layout.wholeOf_digitsOf magnitude
  rw [exponentDigits?, run]
  cases split : digitsOf magnitude with
  | nil => exact absurd split (Decimal.Layout.digitsOf_ne_nil magnitude)
  | cons first more =>
      rw [split] at same
      simp [same]

theorem undigited_exponentText (exponent : Option Int) (undigited : Undigited rest) :
    Undigited (Numeral.exponentText exponent ++ rest) := by
  cases exponent with
  | none => exact undigited
  | some exponent =>
      intro char member
      obtain rfl := Option.some.inj member
      rfl

theorem point_exponentText (exponent : Option Int) (point : '.' ∉ rest.head?) :
    '.' ∉ (Numeral.exponentText exponent ++ rest).head? := by
  cases exponent with
  | none => exact point
  | some exponent =>
      intro member
      cases Option.some.inj member

theorem toList_toString_int (value : Int) :
    (toString value).toList = (if value < 0 then ['-'] else []) ++ Text.digits 10 value.natAbs := by
  rw [Int.toString_eq_repr, Int.repr_eq_if, Text.digits_ten]
  by_cases negative : value < 0
  · have magnitude : (-value).toNat = value.natAbs := by omega
    rw [if_neg (by omega), if_pos negative, magnitude, String.toList_append]
    rfl
  · have magnitude : value.toNat = value.natAbs := by omega
    rw [if_pos (by omega), if_neg negative, magnitude]
    rfl

/-- Digits begin with a digit. -/
theorem exists_digits_eq (value : Nat) :
    ∃ (first : Fin 10) (more : List Char), Text.digits 10 value = digitChar first :: more := by
  rw [Decimal.Layout.digits_ten_eq_map]
  cases split : digitsOf value with
  | nil => exact absurd split (Decimal.Layout.digitsOf_ne_nil value)
  | cons first more => exact ⟨first, _, rfl⟩

theorem digitChar_ne_sign : ∀ digit : Fin 10, digitChar digit ≠ '-' ∧ digitChar digit ≠ '+' := by
  decide

theorem exponentPart?_exponentText (exponent : Option Int) (ends : Ends rest) :
    exponentPart? (Numeral.exponentText exponent ++ rest) = some (exponent, rest) := by
  cases exponent with
  | none =>
      rw [Numeral.exponentText, List.nil_append]
      cases rest with
      | nil => rfl
      | cons char rest =>
          have small : char ≠ 'e' := fun same => ends.exponent.1 (same ▸ rfl)
          have capital : char ≠ 'E' := fun same => ends.exponent.2 (same ▸ rfl)
          simp [exponentPart?, small, capital]
  | some exponent =>
      have digits (negative : Bool) := exponentDigits?_digits negative exponent.natAbs ends.undigited
      rw [Numeral.exponentText, toList_toString_int]
      by_cases negative : exponent < 0
      · have same : -(exponent.natAbs : Int) = exponent := by omega
        rw [if_pos negative]
        exact (digits true).trans (by rw [if_pos rfl, same])
      · have same : (exponent.natAbs : Int) = exponent := by omega
        have unmarked : exponentPart? ('e' :: (Text.digits 10 exponent.natAbs ++ rest)) =
            exponentDigits? false (Text.digits 10 exponent.natAbs ++ rest) := by
          obtain ⟨first, more, split⟩ := exists_digits_eq exponent.natAbs
          obtain ⟨minus, plus⟩ := digitChar_ne_sign first
          simp [split, exponentPart?, minus, plus]
        rw [if_neg negative]
        exact unmarked.trans ((digits false).trans (by rw [if_neg Bool.false_ne_true, same]))

theorem undigited_fractionText (fraction : List (Fin 10)) (undigited : Undigited rest) :
    Undigited (Numeral.fractionText fraction ++ rest) := by
  cases fraction with
  | nil => exact undigited
  | cons digit digits =>
      intro char member
      obtain rfl := Option.some.inj member
      rfl

theorem unsigned?_chars (numeral : Numeral) (ends : Ends rest) :
    unsigned? numeral.negative (Text.digits 10 numeral.whole ++
      (Numeral.fractionText numeral.fraction ++ (Numeral.exponentText numeral.exponent ++ rest))) =
        some (numeral, rest) := by
  have undigited := undigited_exponentText numeral.exponent ends.undigited
  have whole := wholePart?_digits numeral.whole (undigited_fractionText numeral.fraction undigited)
  have fraction := fractionPart?_fractionText numeral.fraction undigited
    (point_exponentText numeral.exponent ends.point)
  have exponent := exponentPart?_exponentText numeral.exponent ends
  simp [unsigned?, whole, fraction, exponent]

/-- A numeral is read back, and ends where it was written to its end. -/
theorem numeral?_chars (numeral : Numeral) (ends : Ends rest) :
    numeral? (numeral.chars ++ rest) = some (numeral, rest) := by
  have unsigned := unsigned?_chars numeral ends
  rw [Numeral.chars]
  simp only [List.append_assoc]
  cases negative : numeral.negative with
  | true =>
      rw [negative] at unsigned
      exact unsigned
  | false =>
      rw [negative] at unsigned
      obtain ⟨first, more, split⟩ := exists_digits_eq numeral.whole
      obtain ⟨minus, -⟩ := digitChar_ne_sign first
      rw [if_neg Bool.false_ne_true, List.nil_append]
      simpa [split, numeral?, minus] using unsigned

/-! ## Texts -/

theorem unit?_lastDigits {unit : Nat} (small : unit < 0x10000) :
    unit? (Text.lastDigits 16 4 unit ++ rest) = some (unit, rest) := by
  have four : Text.lastDigits 16 4 unit =
      [Text.digit (unit / 16 / 16 / 16 % 16), Text.digit (unit / 16 / 16 % 16),
        Text.digit (unit / 16 % 16), Text.digit (unit % 16)] := rfl
  have read : Text.value? 16 (Text.lastDigits 16 4 unit) = some unit :=
    Text.value?_lastDigits (by decide) (by decide) (by decide) small
  rw [four] at read ⊢
  simp [unit?, read]

/-- The piece of a character in front of what is left. -/
def withChar (char : Char) (found : List Piece × List Char) : List Piece × List Char :=
  (.char char :: found.1, found.2)

theorem pieces?_escapedChar (fuel : Nat) (char : Char) :
    pieces? (fuel + 1) (escapedChar char ++ rest) = (pieces? fuel rest).map (withChar char) := by
  unfold escapedChar
  split
  case h_8 _ quote backslash _ _ _ _ _ =>
    split
    · rename_i control
      have unit := @unit?_lastDigits rest char.toNat (by omega)
      have piece : Piece.ofUnit char.toNat = .char char := by
        rw [Piece.ofUnit, if_neg (by omega), if_neg (by omega), Char.ofNat_toNat]
      have step : pieces? (fuel + 1) (unitEscape char ++ rest) =
          (unit? (Text.lastDigits 16 4 char.toNat ++ rest)).bind fun read =>
            (pieces? fuel read.2).bind fun found => some (.ofUnit read.1 :: found.1, found.2) := rfl
      rw [step, unit, Option.bind_some, piece]
      cases pieces? fuel rest <;> rfl
    · rename_i ordinary
      have step : pieces? (fuel + 1) (char :: rest) =
          (pieces? fuel rest).bind fun found => some (.char char :: found.1, found.2) := by
        rw [pieces?, if_neg (not_or.2 ⟨backslash, ordinary⟩)]
        · rfl
        · exact quote
        · exact fun _ same => absurd same backslash
        · exact fun _ _ same => absurd same backslash
      rw [List.singleton_append, step]
      cases pieces? fuel rest <;> rfl
  all_goals cases found : pieces? fuel rest <;> simp [pieces?, escape?, withChar, found]

theorem join?_map_char (chars : List Char) : join? (chars.map .char) = some chars := by
  induction chars with
  | nil => rfl
  | cons char chars ih => rw [List.map_cons, join?, ih, Option.map_some]

theorem pieces?_flatMap {chars : List Char} {fuel : Nat} (enough : chars.length < fuel) :
    pieces? fuel (chars.flatMap escapedChar ++ '"' :: rest) = some (chars.map .char, rest) := by
  induction chars generalizing fuel with
  | nil =>
      obtain ⟨fuel, rfl⟩ := Nat.exists_eq_succ_of_ne_zero (Nat.ne_of_gt enough)
      rfl
  | cons char chars ih =>
      obtain ⟨fuel, rfl⟩ := Nat.exists_eq_succ_of_ne_zero (Nat.ne_of_gt (Nat.zero_lt_of_lt enough))
      rw [List.flatMap_cons, List.append_assoc, pieces?_escapedChar,
        ih (Nat.lt_of_succ_lt_succ enough)]
      rfl

theorem quoted?_quotedText {content : String} {fuel : Nat} (enough : content.toList.length < fuel) :
    quoted? fuel (content.toList.flatMap escapedChar ++ '"' :: rest) = some (text content, rest) := by
  have joined : (join? (content.toList.map .char)).map String.ofList = some content := by
    rw [join?_map_char, Option.map_some, String.ofList_toList]
  rw [quoted?, pieces?_flatMap enough, Option.map_some]
  change some (Json.string ((join? (content.toList.map .char)).map String.ofList), rest) = _
  rw [joined]
  rfl

end Rv32Stimulus.Json
