/-
# Proofs.Binary64.Bits -- a finite double and its bits

The sign, the exponent and the mantissa of a double are the parts of its bits, so packing what was
unpacked gives the same bits (`pack_unpack`).  The parts that are written as a decimal are the same ones
(`unpack_eq_signed`): a finite double is determined by its sign and its magnitude.
-/
import Rv32Stimulus.Decimal.Shortest
import Rv32Stimulus.Proofs.Binary64.Packing

namespace Rv32Stimulus.Binary64

set_option autoImplicit false

open Decimal (Binary magnitude isNegative)
open Float.Model Float.Model.UnpackedFloat

variable {bits : BitVec Float.Model.Format.binary64.numBits}

/-! ## Parts -/

theorem toNat_unpackMantissa (bits : BitVec Float.Model.Format.binary64.numBits) :
    (unpackMantissa bits).toNat = bits.toNat % 2 ^ 52 := by
  simp [unpackMantissa]

theorem toNat_unpackExponent (bits : BitVec Float.Model.Format.binary64.numBits) :
    (unpackExponent bits).toNat = bits.toNat / 2 ^ 52 % 2 ^ 11 := by
  simp [unpackExponent, Nat.shiftRight_eq_div_pow]

theorem toNat_unpackSign (bits : BitVec Float.Model.Format.binary64.numBits) :
    (unpackSign bits).toNat = bits.toNat / 2 ^ 63 % 2 := by
  simp [unpackSign, Nat.shiftRight_eq_div_pow]

theorem packComponents_unpack (bits : BitVec Float.Model.Format.binary64.numBits) :
    packComponents .binary64 (Sign.ofBitVec (unpackSign bits)) (unpackExponent bits)
      (unpackMantissa bits) = bits := by
  have sign (bit : BitVec 1) : (Sign.ofBitVec bit).toBitVec = bit := by
    revert bit
    decide
  rw [packComponents, sign]
  unfold unpackSign unpackExponent unpackMantissa
  ext i inside
  grind

theorem ofNat_lead (field : BitVec 52) : BitVec.ofNat 52 (1#1 ++ field).toNat = field := by
  have short := field.isLt
  apply BitVec.eq_of_toNat_eq
  rw [toNat_lead, BitVec.toNat_ofNat]
  omega

/-- Packing a finite number gives the bits that it was unpacked from. -/
theorem pack_unpack (finite : (UnpackedFloat.unpack .binary64 bits).isFinite = true) :
    UnpackedFloat.pack .binary64 (UnpackedFloat.unpack .binary64 bits) = bits := by
  have parts := packComponents_unpack bits
  have whole {width : Nat} (field : BitVec width) : BitVec.ofNat width field.toNat = field := by
    simp
  obtain ⟨-, special⟩ | ⟨exponent, empty, zero⟩ | ⟨positive, exponent, subnormal⟩ | ⟨-, -, normal⟩ :=
    unpack_cases bits
  · rw [special] at finite
    cases finite
  · rw [exponent, empty] at parts
    rw [zero]
    exact parts
  · rw [exponent] at parts
    rw [subnormal, pack_subnormal positive (unpackMantissa bits).isLt, whole]
    exact parts
  · obtain ⟨canonical, inside⟩ := canonical_of_unpack normal
    have full : 2 ^ 52 ≤ (1#1 ++ unpackMantissa bits).toNat := by
      rw [toNat_lead]
      omega
    have biased : ((unpackExponent bits).toNat - 1075 + 1075 : Int).toNat =
      (unpackExponent bits).toNat := by omega
    rw [normal, pack_normal canonical full inside, biased, ofNat_lead, whole]
    exact parts

/-! ## Sign and magnitude -/

/-- A finite number with its sign. -/
def signed (sign : Sign) (value : Binary) : UnpackedFloat :=
  if zero : value.mantissa = 0 then .zero sign
  else .finite sign value.mantissa value.exponent (Nat.pos_of_ne_zero zero)

def signOf (number : Float) : Sign := if isNegative number then .negative else .positive

def bitsOf (number : Float) : BitVec Float.Model.Format.binary64.numBits :=
  number.toModel.toBits.toBitVec

variable {number : Float} {value : Binary}

theorem signOf_eq (number : Float) : signOf number = Sign.ofBitVec (unpackSign (bitsOf number)) := by
  have bit := toNat_unpackSign (bitsOf number)
  have bound : (bitsOf number).toNat < 2 ^ 64 := (bitsOf number).isLt
  have negative : isNegative number = decide (0x8000000000000000 ≤ (bitsOf number).toNat) := rfl
  rw [signOf, negative, Sign.ofBitVec]
  by_cases great : 0x8000000000000000 ≤ (bitsOf number).toNat
  · have one : unpackSign (bitsOf number) ≠ 0#1 := by
      intro same
      rw [same] at bit
      change 0 = _ at bit
      omega
    simp [great, one]
  · have zero : unpackSign (bitsOf number) = 0#1 := by
      apply BitVec.eq_of_toNat_eq
      rw [bit]
      change _ = 0
      omega
    simp [great, zero]

/-- The magnitude is read off the same fields. -/
theorem magnitude_eq (number : Float) :
    magnitude number =
      if (unpackExponent (bitsOf number)).toNat = 2047 then
        if (unpackMantissa (bitsOf number)).toNat = 0 then .infinite else .notANumber
      else if (unpackExponent (bitsOf number)).toNat = 0 then
        .finite ⟨(unpackMantissa (bitsOf number)).toNat, -1074⟩
      else .finite ⟨2 ^ 52 + (unpackMantissa (bitsOf number)).toNat,
        -1074 + ((unpackExponent (bitsOf number)).toNat - 1 : Nat)⟩ := by
  have biased : (bitsOf number).toNat % 0x8000000000000000 / Decimal.leastNormal =
      (unpackExponent (bitsOf number)).toNat := by
    rw [toNat_unpackExponent, Decimal.leastNormal]
    omega
  have fraction : (bitsOf number).toNat % 0x8000000000000000 % Decimal.leastNormal =
      (unpackMantissa (bitsOf number)).toNat := by
    rw [toNat_unpackMantissa, Decimal.leastNormal]
    omega
  rw [← biased, ← fraction]
  rfl

theorem unpack_eq_signed (finite : number.isFinite = true) :
    ∃ value, magnitude number = .finite value ∧
      number.toModel.unpack = signed (signOf number) value := by
  change (UnpackedFloat.unpack .binary64 (bitsOf number)).isFinite = true at finite
  change ∃ value, _ ∧ UnpackedFloat.unpack .binary64 (bitsOf number) = _
  rw [magnitude_eq, signOf_eq]
  obtain ⟨-, special⟩ | ⟨exponent, empty, zero⟩ | ⟨positive, exponent, subnormal⟩ |
    ⟨notOnes, notZero, normal⟩ := unpack_cases (bitsOf number)
  · rw [special] at finite
    cases finite
  · refine ⟨⟨0, -1074⟩, ?_, ?_⟩
    · rw [exponent, empty]
      rfl
    · rw [zero]
      rfl
  · refine ⟨⟨(unpackMantissa (bitsOf number)).toNat, -1074⟩, ?_, ?_⟩
    · rw [exponent]
      rfl
    · rw [subnormal, signed, dif_neg (Nat.ne_of_gt positive)]
  · have low : (unpackExponent (bitsOf number)).toNat ≠ 0 :=
      fun same => notZero (BitVec.eq_of_toNat_eq same)
    have high : (unpackExponent (bitsOf number)).toNat ≠ 2047 :=
      fun same => notOnes (BitVec.eq_of_toNat_eq same)
    refine ⟨_, by rw [if_neg high, if_neg low], ?_⟩
    rw [normal, signed, dif_neg (by simp)]
    exact finite_eq (toNat_lead _) (by dsimp only; omega)

theorem model_eq {one other : Float.Model} (same : one.toBits = other.toBits) : one = other := by
  cases one
  cases other
  cases same
  rfl

/-- A finite double is packed from what it unpacks to. -/
theorem ofModel_pack_unpack (finite : number.isFinite = true) :
    Float.ofModel (.pack number.toModel.unpack) = number := by
  have same : UnpackedFloat.pack .binary64 (UnpackedFloat.unpack .binary64 (bitsOf number)) =
    bitsOf number := pack_unpack finite
  have bits : (Float.Model.pack number.toModel.unpack).toBits = number.toModel.toBits := by
    change UInt64.ofBitVec (UnpackedFloat.pack .binary64 (UnpackedFloat.unpack .binary64
      (bitsOf number))) = _
    rw [same]
    rfl
  exact congrArg Float.ofModel (model_eq bits)

end Rv32Stimulus.Binary64
