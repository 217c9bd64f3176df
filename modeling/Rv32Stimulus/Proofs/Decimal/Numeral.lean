/-
# Proofs.Decimal.Numeral -- what numerals are worth

A numeral is worth its digits times a power of ten.  However a decimal is laid out, its numeral is
worth this decimal (`Layout.numeral_value`).
-/
import Mathlib.Algebra.Order.Field.Rat
import Mathlib.Tactic.FieldSimp
import Rv32Stimulus.Decimal.Numeral
import Rv32Stimulus.Proofs.Decimal.Digits

namespace Rv32Stimulus.Decimal.Layout

set_option autoImplicit false

theorem mantissa_eq (numeral : Numeral) :
    numeral.mantissa =
      numeral.whole * 10 ^ numeral.fraction.length + wholeOf numeral.fraction := by
  have joined : numeral.mantissa = wholeOf (digitsOf numeral.whole ++ numeral.fraction) := by
    rw [wholeOf, List.foldl_append]
    exact congrArg (numeral.fraction.foldl _) (wholeOf_digitsOf numeral.whole).symm
  rw [joined, wholeOf_append, wholeOf_digitsOf]

theorem wholeOf_replicate_zero (count : Nat) : wholeOf (List.replicate count 0) = 0 := by
  induction count with
  | zero => rfl
  | succ count ih => exact ih

theorem wholeOf_emptyFraction (layout : Layout) : wholeOf layout.emptyFraction = 0 := by
  rw [emptyFraction]
  split <;> rfl

variable (layout : Layout) (negative : Bool) (decimal : Scaled)

theorem negative_numeral : (layout.numeral negative decimal).negative = negative := by
  simp only [numeral]
  split
  · split
    · rfl
    · split <;> rfl
  · rfl

/-- However it is laid out, a numeral is worth the decimal that it was made of. -/
theorem numeral_value :
    ((layout.numeral negative decimal).mantissa : ℚ) * 10 ^ (layout.numeral negative decimal).scale =
      decimal.digits * 10 ^ decimal.exponent := by
  have some_ : 0 < (digitsOf decimal.digits).length := List.length_pos_iff.2 (digitsOf_ne_nil _)
  have split (count : Nat) : wholeOf ((digitsOf decimal.digits).take count) *
      10 ^ ((digitsOf decimal.digits).drop count).length +
      wholeOf ((digitsOf decimal.digits).drop count) = decimal.digits := by
    rw [← wholeOf_append, List.take_append_drop, wholeOf_digitsOf]
  -- Only a number that ends before the point gets digits that it did not have.
  have same (numeral : Numeral) (mantissa : numeral.mantissa = decimal.digits)
      (scale : numeral.scale = decimal.exponent) :
      (numeral.mantissa : ℚ) * 10 ^ numeral.scale = decimal.digits * 10 ^ decimal.exponent := by
    rw [mantissa, scale]
  simp only [numeral]
  split
  · split
    · rename_i whole
      obtain ⟨power, exponent⟩ := Int.eq_ofNat_of_zero_le whole
      have power_eq : Nat.pow 10 (power : Int).toNat = 10 ^ power := rfl
      rw [mantissa_eq, Numeral.scale, wholeOf_emptyFraction, exponent]
      rw [power_eq, Option.getD_none, zero_sub, zpow_neg, zpow_natCast, zpow_natCast]
      push_cast
      field_simp
      ring
    · split
      · apply same
        · rw [mantissa_eq]
          exact split _
        · simp only [Numeral.scale, Option.getD_none, List.length_drop]
          omega
      · apply same
        · rw [mantissa_eq]
          dsimp only
          rw [wholeOf_append, wholeOf_replicate_zero, wholeOf_digitsOf]
          omega
        · simp only [Numeral.scale, Option.getD_none, List.length_append, List.length_replicate]
          omega
  · apply same
    · rw [mantissa_eq]
      exact split 1
    · simp only [Numeral.scale, Option.getD_some, List.length_drop]
      omega

end Rv32Stimulus.Decimal.Layout
