/-
# Proofs.Decimal.Value -- which numerals are read as the nearest double

As long as the digits make a number of 64 bits, all of them are taken (`taken_of_fits`).  If they make
one of 53 bits and the power of ten is at most the twenty-second, both are doubles (`IsExact`), and only
their product or quotient is rounded: the numeral is read as the nearest double (`worth_ofScaled`).  So a
finite double whose numeral is such a one is read back, its sign included (`Layout.toFloat_ofFloat?`).
-/
import Rv32Stimulus.Decimal.Value
import Rv32Stimulus.Proofs.Binary64.Bits
import Rv32Stimulus.Proofs.Decimal.Numeral
import Rv32Stimulus.Proofs.Decimal.Shortest

namespace Rv32Stimulus.Decimal

set_option autoImplicit false

open Binary64
open Float.Model Float.Model.UnpackedFloat

namespace Numeral

/-! ## Digits -/

variable {digits : List (Fin 10)} {taken : Nat}

/-- The number `taken` with all the digits behind it. -/
def extended (taken : Nat) (digits : List (Fin 10)) : Nat :=
  digits.foldl (fun total digit => 10 * total + digit.val) taken

theorem push?_of_fits {digit : Fin 10} (fits : 10 * taken + digit.val < 2 ^ 64) :
    push? taken digit = some (10 * taken + digit.val) := if_pos fits

/-- With every digit the number gets greater or stays the same. -/
theorem le_extended (taken : Nat) (digits : List (Fin 10)) : taken ≤ extended taken digits := by
  induction digits generalizing taken with
  | nil => exact Nat.le_refl taken
  | cons digit rest ih =>
      calc taken ≤ 10 * taken + digit.val := by omega
        _ ≤ extended (10 * taken + digit.val) rest := ih (10 * taken + digit.val)

theorem takeWhole_of_fits (fits : extended taken digits < 2 ^ 64) :
    takeWhole taken digits = ⟨extended taken digits, 0⟩ := by
  induction digits generalizing taken with
  | nil => rfl
  | cons digit rest ih =>
      rw [takeWhole, push?_of_fits ((le_extended _ rest).trans_lt fits)]
      exact ih fits

theorem takeFraction_of_fits {exponent : Int} (fits : extended taken digits < 2 ^ 64) :
    takeFraction ⟨taken, exponent⟩ digits = ⟨extended taken digits, exponent - digits.length⟩ := by
  induction digits generalizing taken exponent with
  | nil => simp [takeFraction, extended]
  | cons digit rest ih =>
      have places : exponent - 1 - rest.length = exponent - (digit :: rest).length := by
        rw [List.length_cons]
        omega
      rw [takeFraction, push?_of_fits ((le_extended _ rest).trans_lt fits), ← places]
      exact ih fits

/-- Digits that make a number of 64 bits are all taken. -/
theorem taken_of_fits {numeral : Numeral} (fits : numeral.mantissa < 2 ^ 64) :
    numeral.taken = ⟨numeral.mantissa, -numeral.fraction.length⟩ := by
  have whole : extended 0 (Layout.digitsOf numeral.whole) = numeral.whole :=
    Layout.wholeOf_digitsOf numeral.whole
  have first : numeral.whole < 2 ^ 64 := (le_extended _ numeral.fraction).trans_lt fits
  rw [Numeral.taken, takeWhole_of_fits (by rwa [whole]), whole, takeFraction_of_fits fits, zero_sub]
  rfl

/-- The digits and the power of ten are doubles, and the exponent is one that is counted. -/
structure IsExact (numeral : Numeral) : Prop where
  digits : numeral.mantissa < 2 ^ 53
  power : numeral.scale.natAbs ≤ 22
  exponent : (numeral.exponent.getD 0).natAbs ≤ greatestExponent

instance (numeral : Numeral) : Decidable numeral.IsExact :=
  decidable_of_iff (numeral.mantissa < 2 ^ 53 ∧ numeral.scale.natAbs ≤ 22 ∧
    (numeral.exponent.getD 0).natAbs ≤ greatestExponent)
    ⟨fun ⟨digits, power, exponent⟩ => ⟨digits, power, exponent⟩,
      fun exact => ⟨exact.digits, exact.power, exact.exponent⟩⟩

theorem IsExact.absolute_eq {numeral : Numeral} (exact : numeral.IsExact) :
    numeral.absolute = ofScaled ⟨numeral.mantissa, numeral.scale⟩ := by
  have scale : -(numeral.fraction.length : Int) + numeral.exponent.getD 0 = numeral.scale := by
    rw [Numeral.scale]
    omega
  rw [absolute, taken_of_fits (exact.digits.trans (by decide)), if_pos exact.exponent, scale]

/-! ## Powers of ten -/

/-- Whether the number is this power of ten. -/
def isPowerOfTen (number : UnpackedFloat) (power : Nat) : Bool :=
  match number with
  | .finite .positive mantissa exponent _ =>
      mantissa * 2 ^ exponent.toNat == 10 ^ power * 2 ^ (-exponent).toNat
  | _ => false

theorem isPowerOfTen_powerOfTen : ∀ power : Fin 23,
    isPowerOfTen (powerOfTen power).toModel.unpack power = true := by
  decide +kernel

/-- Up to the twenty-second the powers of ten are doubles. -/
theorem worth_powerOfTen {power : Nat} (small : power ≤ 22) : Worth (powerOfTen power) (10 ^ power) := by
  have isPower : isPowerOfTen (powerOfTen power).toModel.unpack power = true :=
    isPowerOfTen_powerOfTen ⟨power, Nat.lt_succ_of_le small⟩
  unfold isPowerOfTen at isPower
  split at isPower
  · rename_i mantissa exponent positive unpacked
    have canonical := (canonical_of_unpack unpacked).1
    have same : (mantissa : ℚ) * 2 ^ exponent = 10 ^ power := by
      rw [zpow_eq_div (by norm_num), ← mul_div_assoc, div_eq_iff (by positivity)]
      exact_mod_cast beq_iff_eq.1 isPower
    rw [← same]
    exact .of_unpack canonical unpacked
  · cases isPower

/-! ## Product and quotient -/

section Scaled

variable {digits : Nat} {exponent : Int}

theorem ofScaled_of_nonneg (notNegative : 0 ≤ exponent) (small : exponent.natAbs ≤ greatestPower) :
    ofScaled ⟨digits, exponent⟩ = digits.toUInt64.toFloat * powerOfTen exponent.natAbs := by
  simp only [ofScaled, if_pos notNegative, if_pos small]

/-- One quotient is enough. -/
theorem ofScaled_of_neg (negative : exponent < 0) (small : exponent.natAbs ≤ greatestPower) :
    ofScaled ⟨digits, exponent⟩ = digits.toUInt64.toFloat / powerOfTen exponent.natAbs := by
  rw [greatestPower] at small
  have once : (exponent.natAbs - 1) / greatestPower = 0 := by
    rw [greatestPower]
    omega
  simp only [ofScaled, if_neg (not_le.2 negative), once, reduce, Nat.zero_mul, Nat.sub_zero]

theorem worth_digits (fits : digits < 2 ^ 53) : Worth digits.toUInt64.toFloat digits := by
  have same : digits.toUInt64.toNat = digits := Nat.mod_eq_of_lt (fits.trans (by decide))
  have worth := @worth_toFloat digits.toUInt64 (by rwa [same])
  rwa [same] at worth

/-- A decimal made of two doubles is read as the nearest double. -/
theorem worth_ofScaled {value : Binary} (canonical : Canonical value.mantissa value.exponent)
    (inside : value.exponent < 972) (around : Around value (digits * 10 ^ exponent))
    (fits : digits < 2 ^ 53) (small : exponent.natAbs ≤ 22) :
    Worth (ofScaled ⟨digits, exponent⟩) (value.mantissa * 2 ^ value.exponent) := by
  have finite : (value.mantissa : ℚ) * 2 ^ value.exponent < 2 ^ 1024 := by
    rw [← two_pow_1024]
    exact lt_two_zpow canonical.fits inside
  have inRange : exponent.natAbs ≤ greatestPower := small.trans (by decide)
  have whole := worth_digits fits
  have power := worth_powerOfTen small
  rcases lt_or_ge exponent 0 with negative | notNegative
  · rw [ofScaled_of_neg negative inRange]
    rw [Int.eq_neg_natAbs_of_nonpos negative.le, zpow_neg, zpow_natCast, ← div_eq_mul_inv] at around
    exact .of_denotes (around.denotes_div canonical whole power) finite
  · rw [ofScaled_of_nonneg notNegative inRange]
    rw [Int.eq_natAbs_of_nonneg notNegative, zpow_natCast] at around
    exact .of_denotes (around.denotes_mul canonical whole power) finite

end Scaled

/-- A whole number of at most 53 bits is in range. -/
theorem isInf_toFloat_ofInt {value : Nat} (small : value < 2 ^ 53) :
    (ofInt value).toFloat.isInf = false := by
  have exact : (ofInt value).IsExact := ⟨small, Nat.zero_le 22, Nat.zero_le greatestExponent⟩
  have read : (ofInt value).absolute = value.toUInt64.toFloat * powerOfTen 0 :=
    exact.absolute_eq.trans (ofScaled_of_nonneg le_rfl (Nat.zero_le greatestPower))
  have bounded : (value : ℚ) * 10 ^ 0 ≤ (1 : Nat) * 2 ^ (53 : Int) := by
    rw [pow_zero, mul_one, Nat.cast_one, one_mul]
    exact_mod_cast small.le
  obtain ⟨result, worth, -⟩ := ((worth_digits small).mul (worth_powerOfTen (Nat.zero_le 22))).worth_le
    (by decide) (by decide) (by decide) bounded
  have positive : (ofInt value).negative = false := by
    simp [ofInt]
  rw [toFloat, positive, read]
  exact worth.isInf_eq_false

/-! ## Sign -/

/-- The sign is put on after reading. -/
theorem toFloat_of_absolute {numeral : Numeral} {value : Binary}
    (unpacked : numeral.absolute.toModel.unpack = signed .positive value) :
    numeral.toFloat =
      .ofModel (.pack (signed (if numeral.negative then .negative else .positive) value)) := by
  rw [toFloat]
  cases numeral.negative with
  | false =>
      have finite : numeral.absolute.isFinite = true := by
        change numeral.absolute.toModel.unpack.isFinite = true
        rw [unpacked, signed]
        split <;> rfl
      rw [if_neg Bool.false_ne_true, if_neg Bool.false_ne_true, ← unpacked, ofModel_pack_unpack finite]
  | true =>
      have negated : (signed .positive value).neg = signed .negative value := by
        rw [signed, signed]
        split <;> rfl
      rw [if_pos rfl, if_pos rfl, ← negated, ← unpacked]
      rfl

end Numeral

/-! ## Layouts -/

namespace Layout

theorem absolute_zero (layout : Layout) (negative : Bool) :
    (Numeral.mk negative 0 layout.emptyFraction none).absolute = 0.0 := by
  rw [emptyFraction]
  cases layout.showsPoint <;> cases negative <;> decide +kernel

/-- A finite double is read back from a numeral with few digits and a small power of ten. -/
theorem toFloat_ofFloat? {layout : Layout} {number : Float} (finite : number.isFinite = true)
    (exact : ∀ numeral ∈ layout.ofFloat? number, numeral.IsExact) :
    ∃ numeral, layout.ofFloat? number = some numeral ∧ numeral.toFloat = number := by
  obtain ⟨value, magnitude, unpacked⟩ := unpack_eq_signed finite
  have packed := ofModel_pack_unpack finite
  rw [unpacked, signOf] at packed
  rw [ofFloat?, magnitude] at exact ⊢
  dsimp only at exact ⊢
  by_cases zero : value.mantissa = 0
  · rw [if_pos zero]
    refine ⟨_, rfl, ?_⟩
    refine (@Numeral.toFloat_of_absolute _ value ?_).trans packed
    rw [absolute_zero, signed, dif_pos zero]
    rfl
  · rw [if_neg zero] at exact ⊢
    refine ⟨_, rfl, ?_⟩
    have exact := exact _ rfl
    rw [signed, dif_neg zero] at unpacked
    obtain ⟨canonical, inside⟩ := canonical_of_unpack unpacked
    have around := around_shortest canonical inside
    rw [← numeral_value layout (isNegative number)] at around
    have worth := Numeral.worth_ofScaled canonical inside around exact.digits exact.power
    have read := @Numeral.toFloat_of_absolute _ value <| by
      rw [exact.absolute_eq, signed, dif_neg zero]
      exact Denotes.eq_finite worth canonical rfl
    rw [read, negative_numeral, packed]

end Layout

end Rv32Stimulus.Decimal
