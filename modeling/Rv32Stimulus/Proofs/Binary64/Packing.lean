/-
# Proofs.Binary64.Packing -- floats as packed numbers

Packing a canonical number and unpacking it again gives it back, unless it is too great and becomes
infinite (`Denotes.unpack_pack`).  So a float that is not negative is worth a number of the
format or infinite (`worth_of_nonneg`), floats compare as what they are worth, and each operation
rounds the exact result (`Rounds`): faithfully, or to infinity where nothing in range is above.
-/
import Mathlib
import Rv32Stimulus.Proofs.Binary64.Arithmetic

namespace Rv32Stimulus.Binary64

set_option autoImplicit false

open Float.Model Float.Model.UnpackedFloat

variable {number other : UnpackedFloat} {left right value : ℚ} {sign : Sign}

/-! ## Packing -/

section Packing

variable {format : Float.Model.Format}

theorem finite_eq {mantissa twin : Nat} {exponent height : Int} {positive : 0 < mantissa}
    {second : 0 < twin} (same : mantissa = twin) (level : exponent = height) :
    UnpackedFloat.finite sign mantissa exponent positive = .finite sign twin height second := by
  subst same level
  rfl

theorem toNat_pos_of_ne_zero {width : Nat} {mantissa : BitVec width} (nonzero : ¬mantissa = 0#_) :
    0 < mantissa.toNat := by
  refine Nat.pos_of_ne_zero ?_
  intro zero
  exact nonzero (BitVec.eq_of_toNat_eq zero)

theorem toNat_one_append_pos {width : Nat} (mantissa : BitVec width) :
    0 < (1#1 ++ mantissa).toNat := by
  simp

/-- Unpacking, field by field. -/
theorem unpack_packComponents (exponent : BitVec format.exponentBits)
    (mantissa : BitVec format.mantissaBitsWithoutImplicit) :
    UnpackedFloat.unpack format (packComponents format sign exponent mantissa) =
      if exponent = -1#_ then
        if mantissa = 0#_ then .infinity sign else .notANumber
      else if exponent = 0#_ then
        if empty : mantissa = 0#_ then .zero sign
        else .finite sign mantissa.toNat
          ((exponent.toNat : Int) - (format.exponentBias + format.mantissaBitsWithoutImplicit) + 1)
          (toNat_pos_of_ne_zero empty)
      else .finite sign (1#1 ++ mantissa).toNat
        ((exponent.toNat : Int) - (format.exponentBias + format.mantissaBitsWithoutImplicit))
        (toNat_one_append_pos mantissa) := by
  unfold UnpackedFloat.unpack
  simp only [unpackMantissa_packComponents, unpackExponent_packComponents, unpackSign_packComponents,
    Sign.ofBitVec_toBitVec]

end Packing

theorem toNat_lead (field : BitVec 52) : (1#1 ++ field).toNat = 2 ^ 52 + field.toNat := by
  rw [BitVec.toNat_append, ← Nat.shiftLeft_add_eq_or_of_lt field.isLt]
  rfl

/-- The leading bit is not packed. -/
theorem toNat_leading {mantissa : Nat} (fits : mantissa < 2 ^ 53) (full : 2 ^ 52 ≤ mantissa) :
    (1#1 ++ BitVec.ofNat 52 mantissa).toNat = mantissa := by
  rw [toNat_lead, BitVec.toNat_ofNat]
  omega

theorem unpack_normal {mantissa : Nat} {exponent : Int} (canonical : Canonical mantissa exponent)
    (full : 2 ^ 52 ≤ mantissa) (inside : (exponent + 1075).toNat + 1 < 2048) :
    UnpackedFloat.unpack .binary64 (packComponents .binary64 sign
        (BitVec.ofNat 11 (exponent + 1075).toNat) (BitVec.ofNat 52 mantissa)) =
      .finite sign mantissa exponent canonical.positive := by
  have least := canonical.least
  have packed : (BitVec.ofNat 11 (exponent + 1075).toNat).toNat = (exponent + 1075).toNat := by
    rw [BitVec.toNat_ofNat, Nat.mod_eq_of_lt (by omega)]
  rw [unpack_packComponents, if_neg, if_neg]
  · refine finite_eq (toNat_leading canonical.fits full) ?_
    rw [packed]
    change ((exponent + 1075).toNat : Int) - (1023 + 52) = exponent
    omega
  · intro zero
    have same : (exponent + 1075).toNat = 0 := packed.symm.trans (congrArg BitVec.toNat zero)
    omega
  · intro ones
    have same : (exponent + 1075).toNat = 2047 := packed.symm.trans (congrArg BitVec.toNat ones)
    omega

theorem unpack_subnormal {mantissa : Nat} (positive : 0 < mantissa) (short : mantissa < 2 ^ 52) :
    UnpackedFloat.unpack .binary64
        (packComponents .binary64 sign 0#11 (BitVec.ofNat 52 mantissa)) =
      .finite sign mantissa (-1074) positive := by
  have packed : (BitVec.ofNat 52 mantissa).toNat = mantissa := by
    rw [BitVec.toNat_ofNat, Nat.mod_eq_of_lt short]
  have some_ : BitVec.ofNat 52 mantissa ≠ 0#52 := by
    intro zero
    have same : mantissa = 0 := packed.symm.trans (congrArg BitVec.toNat zero)
    omega
  rw [unpack_packComponents, if_neg (by decide), if_pos rfl, dif_neg some_]
  exact finite_eq packed rfl

/-- The bits of a normal number. -/
theorem pack_normal {mantissa : Nat} {exponent : Int} (canonical : Canonical mantissa exponent)
    (full : 2 ^ 52 ≤ mantissa) (inside : exponent < 972) :
    UnpackedFloat.pack .binary64 (.finite sign mantissa exponent canonical.positive) =
      packComponents .binary64 sign (BitVec.ofNat 11 (exponent + 1075).toNat)
        (BitVec.ofNat 52 mantissa) := by
  have least := canonical.least
  have biased : (exponent + Float.Model.Format.binary64.exponentBias +
      Float.Model.Format.binary64.mantissaBitsWithoutImplicit).toNat = (exponent + 1075).toNat := by
    change (exponent + 1023 + 52).toNat = _
    omega
  have within : ¬2 ^ Float.Model.Format.binary64.exponentBits ≤ (exponent + 1075).toNat + 1 := by
    change ¬2048 ≤ _
    omega
  have bits : mantissa.log2 + 1 = Float.Model.Format.binary64.mantissaBits := by
    have nonzero := Nat.ne_of_gt canonical.positive
    have reaches := (Nat.le_log2 nonzero).2 full
    have short := (Nat.log2_lt nonzero).2 canonical.fits
    change mantissa.log2 + 1 = 53
    omega
  unfold UnpackedFloat.pack
  dsimp only
  rw [biased, if_neg within, if_pos bits]

/-- The bits of a subnormal number. -/
theorem pack_subnormal {mantissa : Nat} (positive : 0 < mantissa) (short : mantissa < 2 ^ 52) :
    UnpackedFloat.pack .binary64 (.finite sign mantissa (-1074) positive) =
      packComponents .binary64 sign 0#11 (BitVec.ofNat 52 mantissa) := by
  have bits : mantissa.log2 + 1 ≠ Float.Model.Format.binary64.mantissaBits := by
    have less := (Nat.log2_lt (Nat.ne_of_gt positive)).2 short
    change mantissa.log2 + 1 ≠ 53
    omega
  unfold UnpackedFloat.pack
  dsimp only
  rw [if_neg (by decide), if_neg bits]

/-- What is too great becomes infinite. -/
theorem pack_great {mantissa : Nat} {exponent : Int} (positive : 0 < mantissa)
    (great : 972 ≤ exponent) :
    UnpackedFloat.pack .binary64 (.finite sign mantissa exponent positive) =
      packedInfinity .binary64 sign := by
  have outside : 2 ^ Float.Model.Format.binary64.exponentBits ≤
      (exponent + Float.Model.Format.binary64.exponentBias +
        Float.Model.Format.binary64.mantissaBitsWithoutImplicit).toNat + 1 := by
    change 2048 ≤ (exponent + 1023 + 52).toNat + 1
    omega
  unfold UnpackedFloat.pack
  dsimp only
  rw [if_pos outside]

theorem Canonical.unpack_pack {mantissa : Nat} {exponent : Int}
    (canonical : Canonical mantissa exponent) (inside : exponent < 972) :
    UnpackedFloat.unpack .binary64
        (UnpackedFloat.pack .binary64 (.finite sign mantissa exponent canonical.positive)) =
      .finite sign mantissa exponent canonical.positive := by
  rcases Nat.lt_or_ge mantissa (2 ^ 52) with short | full
  · obtain rfl : exponent = -1074 := canonical.full.resolve_left (Nat.not_le_of_lt short)
    rw [pack_subnormal canonical.positive short]
    exact unpack_subnormal canonical.positive short
  · rw [pack_normal canonical full inside]
    exact unpack_normal canonical full (by omega)

/-- The least power of two that is too great for the format. -/
theorem two_pow_1024 : (2 : ℚ) ^ 52 * 2 ^ (972 : Int) = 2 ^ 1024 := by
  rw [← zpow_natCast, ← zpow_natCast, ← zpow_add₀ (by norm_num)]
  rfl

/-- What is packed is unpacked again, unless it is too great. -/
theorem Denotes.unpack_pack (denotes : Denotes number value) :
    (value < 2 ^ 1024 ∧
      UnpackedFloat.unpack .binary64 (UnpackedFloat.pack .binary64 number) = number) ∨
    (2 ^ 1024 ≤ value ∧
      UnpackedFloat.unpack .binary64 (UnpackedFloat.pack .binary64 number) = .infinity .positive) := by
  cases denotes with
  | zero sign => cases sign <;> exact .inl ⟨by positivity, rfl⟩
  | @finite mantissa exponent canonical =>
      rcases lt_or_ge exponent 972 with inside | great
      · refine .inl ⟨?_, canonical.unpack_pack inside⟩
        rw [← two_pow_1024]
        exact lt_two_zpow canonical.fits inside
      · right
        have full : 2 ^ 52 ≤ mantissa := canonical.full.resolve_right (by omega)
        refine ⟨?_, ?_⟩
        · rw [← two_pow_1024]
          exact mul_le_mul (by exact_mod_cast full) (zpow_le_zpow_right₀ (by norm_num) great)
            (two_zpow_pos _).le (Nat.cast_nonneg _)
        · rw [pack_great canonical.positive great]
          rfl

/-! ## Unpacking -/

section Unpacking

variable {bits : BitVec Float.Model.Format.binary64.numBits}

/-- The exponent field says what the bits are: something that is not finite, zero or a subnormal
number, or a normal number. -/
theorem unpack_cases (bits : BitVec Float.Model.Format.binary64.numBits) :
    (unpackExponent bits = -1#_ ∧ (UnpackedFloat.unpack .binary64 bits).isFinite = false) ∨
    (unpackExponent bits = 0#_ ∧ unpackMantissa bits = 0#_ ∧
      UnpackedFloat.unpack .binary64 bits = .zero (Sign.ofBitVec (unpackSign bits))) ∨
    (∃ positive, unpackExponent bits = 0#_ ∧
      UnpackedFloat.unpack .binary64 bits = .finite (Sign.ofBitVec (unpackSign bits))
        (unpackMantissa bits).toNat (-1074) positive) ∨
    (unpackExponent bits ≠ -1#_ ∧ unpackExponent bits ≠ 0#_ ∧
      UnpackedFloat.unpack .binary64 bits = .finite (Sign.ofBitVec (unpackSign bits))
        (1#1 ++ unpackMantissa bits).toNat ((unpackExponent bits).toNat - 1075)
        (toNat_one_append_pos _)) := by
  unfold UnpackedFloat.unpack
  dsimp only
  by_cases ones : unpackExponent bits = -1#_
  · rw [if_pos ones]
    refine .inl ⟨ones, ?_⟩
    split <;> rfl
  rw [if_neg ones]
  by_cases zero : unpackExponent bits = 0#_
  · rw [if_pos zero]
    by_cases empty : unpackMantissa bits = 0#_
    · rw [dif_pos empty]
      exact .inr (.inl ⟨zero, empty, rfl⟩)
    · rw [dif_neg empty]
      refine .inr (.inr (.inl ⟨toNat_pos_of_ne_zero empty, zero, finite_eq rfl ?_⟩))
      rw [zero]
      rfl
  · rw [if_neg zero]
    exact .inr (.inr (.inr ⟨ones, zero, rfl⟩))

/-- Every number comes out of its bits in canonical form. -/
theorem canonical_of_unpack {mantissa : Nat} {exponent : Int} {positive : 0 < mantissa}
    (unpacked : UnpackedFloat.unpack .binary64 bits = .finite sign mantissa exponent positive) :
    Canonical mantissa exponent ∧ exponent < 972 := by
  have short : (unpackMantissa bits).toNat < 2 ^ 52 := (unpackMantissa bits).isLt
  obtain ⟨-, special⟩ | ⟨-, -, zero⟩ | ⟨_, -, subnormal⟩ | ⟨notOnes, notZero, normal⟩ :=
    unpack_cases bits
  · rw [unpacked] at special
    cases special
  · rw [unpacked] at zero
    cases zero
  · rw [unpacked] at subnormal
    obtain ⟨-, rfl, rfl⟩ := UnpackedFloat.finite.inj subnormal
    exact ⟨⟨positive, short.trans (by decide), by decide, .inr rfl⟩, by decide⟩
  · rw [unpacked] at normal
    obtain ⟨-, rfl, rfl⟩ := UnpackedFloat.finite.inj normal
    have low : (unpackExponent bits).toNat ≠ 0 := fun same => notZero (BitVec.eq_of_toNat_eq same)
    have high : (unpackExponent bits).toNat ≠ 2047 := fun same => notOnes (BitVec.eq_of_toNat_eq same)
    have below : (unpackExponent bits).toNat < 2048 := BitVec.isLt _
    have lead := toNat_lead (unpackMantissa bits)
    exact ⟨⟨positive, by omega, by omega, .inl (by omega)⟩, by omega⟩

end Unpacking

theorem Denotes.lt_of_unpack {bits : BitVec Float.Model.Format.binary64.numBits}
    (denotes : Denotes (UnpackedFloat.unpack .binary64 bits) value) : value < 2 ^ 1024 := by
  generalize unpacked : UnpackedFloat.unpack .binary64 bits = number at denotes
  cases denotes with
  | zero => positivity
  | finite canonical =>
      rw [← two_pow_1024]
      exact lt_two_zpow canonical.fits (canonical_of_unpack unpacked).2

/-! ## Floats -/

/-- The float is finite and not negative, and it is worth `value`. -/
def Worth (number : Float) (value : ℚ) : Prop := Denotes number.toModel.unpack value

/-- The float is above every number. -/
def IsInfinity (number : Float) : Prop := number.toModel.unpack = .infinity .positive

/-- The float is `exact` rounded: faithfully, or to infinity where only what is too great is
above. -/
def Rounds (exact : ℚ) (number : Float) : Prop :=
  Faithful exact number.toModel.unpack ∨
    IsInfinity number ∧ ∀ bound, Representable bound → exact ≤ bound → 2 ^ 1024 ≤ bound

section Floats

variable {one other : Float} {exact : ℚ}

theorem le_iff_compare :
    one ≤ other ↔ (one.toModel.unpack.compare other.toModel.unpack).any (·.isLE) = true :=
  decide_eq_true_iff

theorem lt_iff_compare :
    one < other ↔ one.toModel.unpack.compare other.toModel.unpack = some .lt :=
  decide_eq_true_iff.trans beq_iff_eq

theorem Worth.le_iff (first : Worth one left) (second : Worth other right) :
    one ≤ other ↔ left ≤ right := by
  rw [le_iff_compare, first.compare_eq second, Option.any_some, Ordering.isLE_iff_ne_gt]
  exact compare_le_iff_le

theorem Worth.lt_iff (first : Worth one left) (second : Worth other right) :
    one < other ↔ left < right := by
  rw [lt_iff_compare, first.compare_eq second, Option.some.injEq, compare_lt_iff_lt]

theorem Worth.isInf_eq_false (worth : Worth one left) : one.isInf = false := by
  change one.toModel.unpack.isInf = false
  unfold Worth at worth
  generalize one.toModel.unpack = number at worth
  cases worth <;> rfl

theorem Worth.isNaN_eq_false (worth : Worth one left) : one.isNaN = false := by
  change one.toModel.unpack.isNaN = false
  unfold Worth at worth
  generalize one.toModel.unpack = number at worth
  cases worth <;> rfl

/-- Whatever is at least zero has a worth or is infinite. -/
theorem worth_of_nonneg (nonneg : 0.0 ≤ one) : (∃ value, Worth one value) ∨ IsInfinity one := by
  rw [le_iff_compare] at nonneg
  unfold Worth IsInfinity
  cases unpacked : one.toModel.unpack with
  | notANumber => rw [unpacked] at nonneg; cases nonneg
  | infinity sign =>
      cases sign with
      | negative => rw [unpacked] at nonneg; cases nonneg
      | positive => exact .inr rfl
  | zero sign => exact .inl ⟨0, .zero sign⟩
  | finite sign mantissa exponent positive =>
      cases sign with
      | negative => rw [unpacked] at nonneg; cases nonneg
      | positive => exact .inl ⟨_, .finite (canonical_of_unpack unpacked).1⟩

theorem Rounds.of_faithful (faithful : Faithful exact number) :
    Rounds exact (.ofModel (.pack number)) := by
  obtain ⟨value, denotes, bounded⟩ := faithful
  rcases denotes.unpack_pack with ⟨-, same⟩ | ⟨great, infinite⟩
  · refine .inl ⟨value, ?_, bounded⟩
    change Denotes (UnpackedFloat.unpack .binary64 (UnpackedFloat.pack .binary64 number)) value
    rw [same]
    exact denotes
  · refine .inr ⟨infinite, ?_⟩
    intro bound representable below
    exact great.trans ((bounded bound representable).1 below)

/-- What is in range is packed without loss. -/
theorem Worth.of_denotes (denotes : Denotes number value) (small : value < 2 ^ 1024) :
    Worth (.ofModel (.pack number)) value := by
  rcases denotes.unpack_pack with ⟨-, same⟩ | ⟨great, -⟩
  · change Denotes (UnpackedFloat.unpack .binary64 (UnpackedFloat.pack .binary64 number)) value
    rw [same]
    exact denotes
  · exact absurd small (not_lt.2 great)

theorem Worth.ofBits {bits : UInt64}
    (denotes : Denotes (UnpackedFloat.unpack .binary64 bits.toBitVec) value) :
    Worth (.ofBits bits) value := .of_denotes denotes denotes.lt_of_unpack

theorem Worth.add (first : Worth one left) (second : Worth other right) :
    Rounds (left + right) (one + other) := .of_faithful (faithful_add first second)

theorem Worth.sub (first : Worth one left) (second : Worth other right) (ordered : right ≤ left) :
    Rounds (left - right) (one - other) := .of_faithful (faithful_sub first second ordered)

theorem Worth.mul (first : Worth one left) (second : Worth other right) :
    Rounds (left * right) (one * other) := .of_faithful (faithful_mul first second)

theorem Worth.div (first : Worth one left) (second : Worth other right) (positive : 0 < right) :
    Rounds (left / right) (one / other) := .of_faithful (faithful_div first second positive)

theorem rounds_toFloat (word : UInt64) : Rounds word.toNat word.toFloat := by
  have faithful := faithful_normalize word.toNat 0 .positive
  rw [zpow_zero, mul_one] at faithful
  exact .of_faithful faithful

/-- A word that fits into the mantissa is not rounded. -/
theorem worth_toFloat {word : UInt64} (fits : word.toNat < 2 ^ 53) : Worth word.toFloat word.toNat := by
  have representable : Representable (word.toNat : ℚ) := ⟨word.toNat, 0, fits, by decide, by simp⟩
  rcases rounds_toFloat word with faithful | ⟨-, great⟩
  · exact faithful.denotes representable
  · refine absurd (great _ representable le_rfl) (not_le.2 ?_)
    calc (word.toNat : ℚ) < 2 ^ 53 := by exact_mod_cast fits
      _ ≤ 2 ^ 1024 := pow_le_pow_right₀ (by norm_num) (by decide)

/-- A result below a number of the format is not above it after rounding, and not infinite. -/
theorem Rounds.worth_le (rounds : Rounds exact one) {mantissa : Nat} {exponent : Int}
    (fits : mantissa < 2 ^ 53) (least : -1074 ≤ exponent) (inside : exponent < 972)
    (below : exact ≤ mantissa * 2 ^ exponent) :
    ∃ value, Worth one value ∧ value ≤ mantissa * 2 ^ exponent := by
  have representable : Representable ((mantissa : ℚ) * 2 ^ exponent) :=
    ⟨mantissa, exponent, fits, least, rfl⟩
  rcases rounds with ⟨value, denotes, bounded⟩ | ⟨-, great⟩
  · exact ⟨value, denotes, (bounded _ representable).1 below⟩
  · have small : (mantissa : ℚ) * 2 ^ exponent < 2 ^ 1024 := by
      rw [← two_pow_1024]
      exact lt_two_zpow fits inside
    exact absurd (great _ representable below) (not_le.2 small)

end Floats

/-! ## Some numbers -/

theorem Worth.of_unpack {number : Float} {mantissa : Nat} {exponent : Int}
    (canonical : Canonical mantissa exponent)
    (unpacked : number.toModel.unpack = .finite .positive mantissa exponent canonical.positive) :
    Worth number (mantissa * 2 ^ exponent) := by
  rw [Worth, unpacked]
  exact .finite canonical

theorem worth_zero : Worth 0.0 0 := .zero .positive

theorem worth_one : Worth 1.0 1 := by
  have canonical : Canonical (2 ^ 52) (-52) := ⟨by decide, by decide, by decide, .inl le_rfl⟩
  have worth : Worth 1.0 _ := .of_unpack canonical rfl
  have same : ((2 ^ 52 : Nat) : ℚ) * 2 ^ (-52 : Int) = 1 := by norm_num
  rwa [same] at worth

theorem worth_two_pow_53 : Worth 9007199254740992.0 (2 ^ 53) := by
  have canonical : Canonical (2 ^ 52) 1 := ⟨by decide, by decide, by decide, .inl le_rfl⟩
  have worth : Worth 9007199254740992.0 _ := .of_unpack canonical rfl
  have same : ((2 ^ 52 : Nat) : ℚ) * 2 ^ (1 : Int) = 2 ^ 53 := by norm_num
  rwa [same] at worth

end Rv32Stimulus.Binary64
