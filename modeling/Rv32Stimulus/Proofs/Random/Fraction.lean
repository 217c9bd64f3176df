/-
# Proofs.Random.Fraction -- drawn fractions stay below one

A unit draw divides a word of 53 bits by `2 ^ 53` and is below one (`unit_lt_one`), so a chance of one
always hits.  The fraction of a weighted draw takes 52 bits, as the mantissa of a number
between one and two, and is at most `1 - 2 ^ -52` (`worth_fraction`).
-/
import Rv32Stimulus.Proofs.Binary64.Packing
import Rv32Stimulus.Proofs.Random.Outcome

namespace Rv32Stimulus.Random

set_option autoImplicit false

open Rv32Stimulus.Binary64

namespace Source

theorem unit_lt_one (source : Source) : source.unit.1 < 1.0 := by
  have short : (source.next64.1 >>> 11).toNat ≤ 2 ^ 53 - 1 := by
    have word := source.next64.1.toNat_lt
    rw [UInt64.toNat_shiftRight, Nat.shiftRight_eq_div_pow]
    change _ / 2 ^ 11 ≤ _
    omega
  have whole : ((source.next64.1 >>> 11).toNat : ℚ) ≤ ((2 ^ 53 - 1 : Nat) : ℚ) * 2 ^ (0 : Int) := by
    rw [zpow_zero, mul_one]
    exact_mod_cast short
  obtain ⟨counted, worth, counted_le⟩ := (rounds_toFloat (source.next64.1 >>> 11)).worth_le
    (by decide) (by decide) (by decide) whole
  have divided : counted / 2 ^ 53 ≤ ((2 ^ 53 - 1 : Nat) : ℚ) * 2 ^ (-53 : Int) := by
    rw [zpow_neg, ← div_eq_mul_inv]
    rw [zpow_zero, mul_one] at counted_le
    exact div_le_div_of_nonneg_right counted_le (by positivity)
  obtain ⟨value, worthUnit, value_le⟩ := (worth.div worth_two_pow_53 (by norm_num)).worth_le
    (by decide) (by decide) (by decide) divided
  have below : value < 1 := value_le.trans_lt (by norm_num)
  exact (worthUnit.lt_iff worth_one).2 below

/-- A chance of one always hits. -/
theorem chance_one (source : Source) : (source.chance 1.0).1 = true :=
  decide_eq_true source.unit_lt_one

theorem toNat_shiftRight_twelve_lt (word : UInt64) : (word >>> 12).toNat < 2 ^ 52 := by
  have := word.toNat_lt
  rw [UInt64.toNat_shiftRight, Nat.shiftRight_eq_div_pow]
  change _ / 2 ^ 12 < _
  omega

/-- The bits of a fraction make a number of `[1, 2)`. -/
theorem fraction_bits (word : UInt64) :
    ((0x3ff0000000000000 : UInt64) ||| (word >>> 12)).toBitVec =
      Float.Model.UnpackedFloat.packComponents .binary64 .positive
        (BitVec.ofNat 11 1023) (BitVec.ofNat 52 (2 ^ 52 + (word >>> 12).toNat)) := by
  have short := toNat_shiftRight_twelve_lt word
  apply BitVec.eq_of_toNat_eq
  change ((0x3ff0000000000000 : UInt64) ||| (word >>> 12)).toNat =
    (0#1 ++ BitVec.ofNat 11 1023 ++ BitVec.ofNat 52 (2 ^ 52 + (word >>> 12).toNat)).toNat
  rw [UInt64.toNat_or, BitVec.toNat_append, BitVec.toNat_ofNat, Nat.add_mod_left, Nat.mod_eq_of_lt short]
  rfl

theorem worth_fraction (source : Source) :
    ∃ value, Worth source.fraction.1 value ∧ value ≤ ((2 ^ 52 - 1 : Nat) : ℚ) * 2 ^ (-52 : Int) := by
  obtain ⟨rest, short, isRest⟩ :
      ∃ rest : Nat, rest < 2 ^ 52 ∧ rest = (source.next64.1 >>> 12).toNat :=
    ⟨_, toNat_shiftRight_twelve_lt _, rfl⟩
  have canonical : Canonical (2 ^ 52 + rest) (-52) :=
    ⟨by omega, by omega, by decide, .inl (by omega)⟩
  have unpacked : Float.Model.UnpackedFloat.unpack .binary64
      ((0x3ff0000000000000 : UInt64) ||| (source.next64.1 >>> 12)).toBitVec =
        .finite .positive (2 ^ 52 + rest) (-52) canonical.positive := by
    rw [fraction_bits, ← isRest]
    exact unpack_normal canonical (by omega) (by decide)
  have worth : Worth (.ofBits ((0x3ff0000000000000 : UInt64) ||| (source.next64.1 >>> 12)))
      ((2 ^ 52 + rest : Nat) * 2 ^ (-52 : Int)) := by
    apply Worth.ofBits
    rw [unpacked]
    exact .finite canonical
  have split : ((2 ^ 52 + rest : Nat) : ℚ) * 2 ^ (-52 : Int) = 1 + rest * 2 ^ (-52 : Int) := by
    rw [Nat.cast_add, add_mul]
    norm_num
  rw [split] at worth
  have scale := two_zpow_pos (-52)
  have atLeast : (1 : ℚ) ≤ 1 + rest * 2 ^ (-52 : Int) :=
    le_add_of_nonneg_right (mul_nonneg (Nat.cast_nonneg _) scale.le)
  have within : 1 + (rest : ℚ) * 2 ^ (-52 : Int) - 1 ≤ ((2 ^ 52 - 1 : Nat) : ℚ) * 2 ^ (-52 : Int) := by
    rw [add_sub_cancel_left]
    exact mul_le_mul_of_nonneg_right (by exact_mod_cast Nat.le_pred_of_lt short) scale.le
  exact (worth.sub worth_one atLeast).worth_le (by decide) (by decide) (by decide) within

end Source

end Rv32Stimulus.Random
