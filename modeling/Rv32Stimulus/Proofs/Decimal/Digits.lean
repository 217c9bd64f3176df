/-
# Proofs.Decimal.Digits -- the decimal digits of a number

`digitsOf` splits off the last digit (`digitsOf_of_le`), so facts about digits are shown by
induction on how often that is possible (`digits_induction`): the digits make the number
(`wholeOf_digitsOf`), and the first of them is not zero (`exists_digitsOf_eq`).
-/
import Mathlib.Data.List.Induction
import Mathlib.Tactic.Ring
import Rv32Stimulus.Decimal.Numeral
import Rv32Stimulus.Proofs.Text.Reading

namespace Rv32Stimulus.Decimal.Layout

set_option autoImplicit false

/-- The character of a digit. -/
def digitChar (digit : Fin 10) : Char := Text.digit digit.val

theorem ofNat_digit : ∀ value < 10,
    Fin.ofNat 10 ((Text.digit value).toNat - '0'.toNat) = Fin.ofNat 10 value := by
  decide

theorem digits_ten_eq_toDigits (value : Nat) : Text.digits 10 value = Nat.toDigits 10 value :=
  Text.lastDigits_ten (Nat.le_refl value)

theorem digitsOf_of_lt {value : Nat} (small : value < 10) : digitsOf value = [Fin.ofNat 10 value] := by
  rw [digitsOf, digits_ten_eq_toDigits, Nat.toDigits_of_lt_base small, ← Text.digit_eq_digitChar _ small,
    List.map_singleton, ofNat_digit value small]

theorem digitsOf_of_le {value : Nat} (great : 10 ≤ value) :
    digitsOf value = digitsOf (value / 10) ++ [Fin.ofNat 10 (value % 10)] := by
  have below : value % 10 < 10 := Nat.mod_lt _ (by decide)
  rw [digitsOf, digitsOf, digits_ten_eq_toDigits, digits_ten_eq_toDigits,
    Nat.toDigits_of_base_le (by decide) great, ← Text.digit_eq_digitChar _ below, List.map_append,
    List.map_singleton, ofNat_digit _ below]

/-- What holds of single digits and stays true with one more digit holds of all numbers. -/
theorem digits_induction {motive : Nat → Prop} (single : ∀ value < 10, motive value)
    (more : ∀ value, 10 ≤ value → motive (value / 10) → motive value) (value : Nat) : motive value := by
  induction value using Nat.strongRecOn with
  | ind value ih =>
      rcases Nat.lt_or_ge value 10 with small | great
      · exact single value small
      · exact more value great (ih (value / 10) (by omega))

theorem digits_ten_eq_map (value : Nat) : Text.digits 10 value = (digitsOf value).map digitChar := by
  induction value using digits_induction with
  | single value small =>
      rw [digitsOf_of_lt small, digits_ten_eq_toDigits, Nat.toDigits_of_lt_base small,
        ← Text.digit_eq_digitChar _ small]
      simp [digitChar, Nat.mod_eq_of_lt small]
  | more value great ih =>
      have below : value % 10 < 10 := Nat.mod_lt _ (by decide)
      rw [digitsOf_of_le great, List.map_append, ← ih, digits_ten_eq_toDigits, digits_ten_eq_toDigits,
        Nat.toDigits_of_base_le (by decide) great, ← Text.digit_eq_digitChar _ below]
      simp [digitChar]

theorem digitsOf_ne_nil (value : Nat) : digitsOf value ≠ [] := by
  rw [digitsOf, ne_eq, List.map_eq_nil_iff, Text.digits]
  apply List.ne_nil_of_length_pos
  rw [Text.length_lastDigits]
  exact Text.digitCount_pos 10 value value

/-! ## The number of digits -/

theorem wholeOf_append (left right : List (Fin 10)) :
    wholeOf (left ++ right) = wholeOf left * 10 ^ right.length + wholeOf right := by
  induction right using List.reverseRecOn with
  | nil => simp [wholeOf]
  | append_singleton right digit ih =>
      have last (digits : List (Fin 10)) :
          wholeOf (digits ++ [digit]) = 10 * wholeOf digits + digit.val := by
        rw [wholeOf, List.foldl_append]
        rfl
      rw [← List.append_assoc, last, last, ih, List.length_append, List.length_singleton, Nat.pow_succ]
      ring

theorem wholeOf_digitsOf (value : Nat) : wholeOf (digitsOf value) = value := by
  induction value using digits_induction with
  | single value small =>
      rw [digitsOf_of_lt small]
      simp [wholeOf, Nat.mod_eq_of_lt small]
  | more value great ih =>
      rw [digitsOf_of_le great, wholeOf_append, ih]
      simp [wholeOf]
      omega

/-- Only the digits of zero start with zero. -/
theorem exists_digitsOf_eq {value : Nat} (positive : 0 < value) :
    ∃ first more, digitsOf value = first :: more ∧ first ≠ 0 := by
  induction value using digits_induction with
  | single value small =>
      refine ⟨_, _, digitsOf_of_lt small, fun zero => ?_⟩
      have same : value % 10 = 0 := congrArg Fin.val zero
      omega
  | more value great ih =>
      obtain ⟨first, more, split, nonzero⟩ := ih (by omega)
      exact ⟨first, more ++ [Fin.ofNat 10 (value % 10)], by rw [digitsOf_of_le great, split]; rfl, nonzero⟩

end Rv32Stimulus.Decimal.Layout
