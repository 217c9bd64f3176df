/-
# Proofs.Binary64.Rounding -- rounded numbers stay on their side of representable ones

A finite number of the format is a whole mantissa times a power of two.  It is kept in canonical
form, so that comparing exponents and then mantissas compares numbers (`Denotes.compare_eq`).

Rounding cuts a number down to a whole mantissa, keeping in two bits what was cut off (`Truncates`),
and then goes to the nearer neighbour (`Truncates.nearest`).  So the result never crosses a number that
the format has (`Faithful`), and sums, products and quotients keep every representable bound of the
exact value.
-/
import Mathlib.Algebra.Order.Field.Rat
import Mathlib.Algebra.Order.Field.Power
import Mathlib.Tactic.FieldSimp
import Mathlib.Tactic.Linarith
import Mathlib.Tactic.Positivity
import Mathlib.Tactic.Ring

namespace Rv32Stimulus.Binary64

set_option autoImplicit false

open Float.Model Float.Model.UnpackedFloat

/-! ## Numbers of the format -/

/-- A mantissa and an exponent as the format keeps them. -/
structure Canonical (mantissa : Nat) (exponent : Int) : Prop where
  positive : 0 < mantissa
  fits : mantissa < 2 ^ 53
  least : -1074 ≤ exponent
  full : 2 ^ 52 ≤ mantissa ∨ exponent = -1074

/-- The number is finite and not negative, and it is worth `value`. -/
inductive Denotes : UnpackedFloat → ℚ → Prop
  | zero (sign : Sign) : Denotes (.zero sign) 0
  | finite {mantissa : Nat} {exponent : Int} (canonical : Canonical mantissa exponent) :
      Denotes (.finite .positive mantissa exponent canonical.positive) (mantissa * 2 ^ exponent)

/-- Values that the format has, those too great for it included. -/
def Representable (value : ℚ) : Prop :=
  ∃ (mantissa : Nat) (exponent : Int), mantissa < 2 ^ 53 ∧ -1074 ≤ exponent ∧
    value = mantissa * 2 ^ exponent

/-- `number` is worth a value that lies on the same side of everything representable as `exact`. -/
def Faithful (exact : ℚ) (number : UnpackedFloat) : Prop :=
  ∃ value, Denotes number value ∧ ∀ bound, Representable bound →
    (exact ≤ bound → value ≤ bound) ∧ (bound ≤ exact → bound ≤ value)

theorem two_zpow_pos (exponent : Int) : (0 : ℚ) < 2 ^ exponent := zpow_pos (by norm_num) exponent

/-- A higher power of two as a multiple of a lower one. -/
theorem two_zpow_eq {low high : Int} (ordered : low ≤ high) :
    (2 : ℚ) ^ high = ((2 ^ (high - low).toNat : Nat) : ℚ) * 2 ^ low := by
  push_cast
  rw [← zpow_natCast, ← zpow_add₀ (by norm_num)]
  congr 1
  omega

/-- A mantissa that fits is worth less than a full one with a greater exponent. -/
theorem lt_two_zpow {mantissa : Nat} {low high : Int} (fits : mantissa < 2 ^ 53)
    (ordered : low < high) : (mantissa : ℚ) * 2 ^ low < 2 ^ 52 * 2 ^ high := by
  have doubled : 2 ^ 1 ≤ 2 ^ (high - low).toNat := Nat.pow_le_pow_right (by decide) (by omega)
  rw [two_zpow_eq (le_of_lt ordered), ← mul_assoc]
  apply mul_lt_mul_of_pos_right _ (two_zpow_pos low)
  norm_cast
  calc mantissa < 2 ^ 52 * 2 ^ 1 := fits
    _ ≤ 2 ^ 52 * 2 ^ (high - low).toNat := Nat.mul_le_mul_left _ doubled

variable {number other : UnpackedFloat} {value bound exact : ℚ} {mantissa : Nat} {exponent : Int}

theorem Denotes.representable (denotes : Denotes number value) : Representable value := by
  cases denotes with
  | zero => exact ⟨0, 0, by norm_num, by norm_num, by simp⟩
  | finite canonical => exact ⟨_, _, canonical.fits, canonical.least, rfl⟩

theorem Denotes.nonneg (denotes : Denotes number value) : 0 ≤ value := by
  cases denotes with
  | zero => exact le_refl 0
  | finite canonical => positivity

theorem Denotes.faithful (denotes : Denotes number value) : Faithful value number :=
  ⟨value, denotes, fun _ _ => ⟨id, id⟩⟩

/-- What is representable is not rounded. -/
theorem Faithful.denotes (faithful : Faithful exact number) (representable : Representable exact) :
    Denotes number exact := by
  obtain ⟨value, denotes, bounded⟩ := faithful
  obtain ⟨below, above⟩ := bounded exact representable
  rwa [le_antisymm (below le_rfl) (above le_rfl)] at denotes

/-! ## Order -/

namespace Canonical

variable {low high : Nat} {down up : Int}

theorem value_pos (canonical : Canonical mantissa exponent) :
    (0 : ℚ) < mantissa * 2 ^ exponent :=
  mul_pos (Nat.cast_pos.2 canonical.positive) (two_zpow_pos exponent)

/-- The smaller of two exponents belongs to the smaller number. -/
theorem lt_of_exponent_lt (first : Canonical low down) (second : Canonical high up)
    (ordered : down < up) : (low : ℚ) * 2 ^ down < high * 2 ^ up := by
  have full : 2 ^ 52 ≤ high := second.full.resolve_right (by have := first.least; omega)
  calc (low : ℚ) * 2 ^ down < 2 ^ 52 * 2 ^ up := lt_two_zpow first.fits ordered
    _ ≤ high * 2 ^ up := mul_le_mul_of_nonneg_right (by exact_mod_cast full) (two_zpow_pos up).le

theorem compare_value (first : Canonical low down) (second : Canonical high up) :
    compare ((low : ℚ) * 2 ^ down) (high * 2 ^ up) = (compare down up).then (compare low high) := by
  rcases lt_trichotomy down up with below | rfl | above
  · rw [compare_lt_iff_lt.2 below, compare_lt_iff_lt.2 (first.lt_of_exponent_lt second below)]
    rfl
  · have scaled {one two : Nat} (ordered : one < two) : (one : ℚ) * 2 ^ down < two * 2 ^ down :=
      mul_lt_mul_of_pos_right (Nat.cast_lt.2 ordered) (two_zpow_pos down)
    rw [compare_eq_iff_eq.2 rfl, Ordering.eq_then]
    rcases lt_trichotomy low high with below | rfl | above
    · rw [compare_lt_iff_lt.2 below, compare_lt_iff_lt.2 (scaled below)]
    · rw [compare_eq_iff_eq.2 rfl, compare_eq_iff_eq.2 rfl]
    · rw [compare_gt_iff_gt.2 above, compare_gt_iff_gt.2 (scaled above)]
  · rw [compare_gt_iff_gt.2 above, compare_gt_iff_gt.2 (second.lt_of_exponent_lt first above)]
    rfl

end Canonical

/-- Numbers compare as what they are worth. -/
theorem Denotes.compare_eq {left right : ℚ} (one : Denotes number left) (two : Denotes other right) :
    number.compare other = some (compare left right) := by
  cases one with
  | zero =>
      cases two with
      | zero => rw [compare_eq_iff_eq.2 rfl]; rfl
      | finite canonical => rw [compare_lt_iff_lt.2 canonical.value_pos]; rfl
  | finite canonical =>
      cases two with
      | zero => rw [compare_gt_iff_gt.2 canonical.value_pos]; rfl
      | finite second => rw [canonical.compare_value second]; rfl

/-- The canonical form of a number is the only one. -/
theorem Denotes.eq_finite (denotes : Denotes number value) (canonical : Canonical mantissa exponent)
    (same : value = mantissa * 2 ^ exponent) :
    number = .finite .positive mantissa exponent canonical.positive := by
  cases denotes with
  | zero => exact absurd same canonical.value_pos.ne
  | finite first =>
      have equal := first.compare_value canonical
      rw [compare_eq_iff_eq.2 same, eq_comm, Ordering.then_eq_eq] at equal
      obtain rfl := compare_eq_iff_eq.1 equal.1
      obtain rfl := compare_eq_iff_eq.1 equal.2
      rfl

/-! ## Cutting down to a whole number -/

/-- How many halves a mantissa and its first bit are. -/
def halves (extended : ExtendedMantissa) : Nat := 2 * extended.mantissa + extended.roundBit.toNat

/-- `extended` is `value` cut down to a whole number of halves; its last bit is clear if nothing was
cut off. -/
structure Truncates (extended : ExtendedMantissa) (value : ℚ) : Prop where
  lower : halves extended ≤ 2 * value
  upper : 2 * value < halves extended + 1
  clear : extended.stickyBit = false ↔ 2 * value = halves extended

namespace Truncates

variable {extended : ExtendedMantissa}

theorem ofExact (mantissa : Nat) :
    Truncates (.ofMantissaAndAccuracy mantissa .exact) (mantissa : ℚ) := by
  constructor <;> simp [halves, ExtendedMantissa.ofMantissaAndAccuracy]

/-- Where something is cut off, it is compared with one half. -/
theorem ofInexact (above : (mantissa : ℚ) < value) (below : value < mantissa + 1) :
    Truncates (.ofMantissaAndAccuracy mantissa (.inexact (compare (2 * value) (2 * mantissa + 1))))
      value := by
  rcases lt_trichotomy (2 * value) (2 * mantissa + 1) with less | same | greater
  · rw [compare_lt_iff_lt.2 less]
    constructor <;> simp [halves, ExtendedMantissa.ofMantissaAndAccuracy] <;> linarith
  · rw [compare_eq_iff_eq.2 same]
    constructor <;> simp [halves, ExtendedMantissa.ofMantissaAndAccuracy, same]
  · rw [compare_gt_iff_gt.2 greater]
    constructor <;> simp [halves, ExtendedMantissa.ofMantissaAndAccuracy] <;> linarith

theorem mantissa_le (truncates : Truncates extended value) : extended.mantissa ≤ value := by
  have split : (halves extended : ℚ) = 2 * extended.mantissa + extended.roundBit.toNat := by
    simp [halves]
  have lower := truncates.lower
  have bit : (0 : ℚ) ≤ extended.roundBit.toNat := Nat.cast_nonneg _
  linarith

theorem lt_mantissa_add_one (truncates : Truncates extended value) :
    value < extended.mantissa + 1 := by
  have split : (halves extended : ℚ) = 2 * extended.mantissa + extended.roundBit.toNat := by
    simp [halves]
  have upper := truncates.upper
  have bit : (extended.roundBit.toNat : ℚ) ≤ 1 := by exact_mod_cast Bool.toNat_le _
  linarith

/-- Both bits are clear if the mantissa is all there is. -/
theorem clear_iff (truncates : Truncates extended value) :
    (extended.roundBit || extended.stickyBit) = false ↔ value = extended.mantissa := by
  obtain ⟨lower, upper, clear⟩ := truncates
  cases round : extended.roundBit with
  | false =>
      have split : (halves extended : ℚ) = 2 * extended.mantissa := by simp [halves, round]
      rw [Bool.false_or, clear, split, mul_right_inj' two_ne_zero]
  | true =>
      have split : (halves extended : ℚ) = 2 * extended.mantissa + 1 := by simp [halves, round]
      rw [Bool.true_or]
      refine ⟨nofun, fun same => ?_⟩
      linarith

theorem shiftRightOne (truncates : Truncates extended value) :
    Truncates extended.shiftRightOne (value / 2) := by
  have moved : halves extended.shiftRightOne = extended.mantissa := by
    rcases Nat.mod_two_eq_zero_or_one extended.mantissa with even | odd
    · simp only [halves, ExtendedMantissa.shiftRightOne, even]
      exact Nat.mul_div_cancel' (Nat.dvd_of_mod_eq_zero even)
    · simp only [halves, ExtendedMantissa.shiftRightOne, odd]
      exact Nat.two_mul_div_two_add_one_of_odd (Nat.odd_iff.2 odd)
  have whole : 2 * (value / 2) = value := by ring
  refine ⟨?_, ?_, ?_⟩ <;> rw [moved, whole]
  · exact truncates.mantissa_le
  · exact truncates.lt_mantissa_add_one
  · exact truncates.clear_iff

theorem shiftRight (truncates : Truncates extended value) (count : Nat) :
    Truncates (extended >>> count) (value / 2 ^ count) := by
  induction count with
  | zero =>
      rw [pow_zero, div_one]
      exact truncates
  | succ count ih =>
      rw [pow_succ, ← div_div]
      exact ih.shiftRightOne

/-- An odd number of halves is rounded up or down to a whole number, to an even one if nothing else
was cut off. -/
theorem roundedMantissa_cases (extended : ExtendedMantissa) :
    2 * extended.roundedMantissa = halves extended ∨
      (2 * extended.roundedMantissa = halves extended + 1 ∧
        (extended.stickyBit = false → extended.roundedMantissa % 2 = 0)) ∨
      (2 * extended.roundedMantissa + 1 = halves extended ∧
        extended.stickyBit = false ∧ extended.roundedMantissa % 2 = 0) := by
  obtain ⟨mantissa, round, sticky⟩ := extended
  cases round <;> cases sticky <;>
    simp [halves, ExtendedMantissa.roundedMantissa, ExtendedMantissa.accuracy,
      Accuracy.roundToNearestEven] <;> omega

/-- Rounding goes to the nearest whole number, and from the middle to an even one. -/
theorem nearest (truncates : Truncates extended value) :
    2 * (extended.roundedMantissa : ℚ) ≤ 2 * value + 1 ∧
      2 * value ≤ 2 * extended.roundedMantissa + 1 ∧
      (2 * (extended.roundedMantissa : ℚ) = 2 * value + 1 ∨
        2 * value = 2 * extended.roundedMantissa + 1 → extended.roundedMantissa % 2 = 0) := by
  obtain ⟨lower, upper, clear⟩ := truncates
  obtain stays | ⟨up, even⟩ | ⟨down, nothing, even⟩ := roundedMantissa_cases extended
  · have same : (halves extended : ℚ) = 2 * extended.roundedMantissa := by exact_mod_cast stays.symm
    refine ⟨by linarith, by linarith, ?_⟩
    rintro (tie | tie) <;> linarith
  · have same : (halves extended : ℚ) = 2 * extended.roundedMantissa - 1 :=
      eq_sub_of_add_eq (by exact_mod_cast up.symm)
    refine ⟨by linarith, by linarith, ?_⟩
    rintro (tie | tie)
    · exact even (clear.2 (by linarith))
    · linarith
  · have same : (halves extended : ℚ) = 2 * extended.roundedMantissa + 1 := by
      exact_mod_cast down.symm
    have middle := clear.1 nothing
    exact ⟨by linarith, by linarith, fun _ => even⟩

/-- What is close to a whole number is rounded to it. -/
theorem roundedMantissa_eq (truncates : Truncates extended value) {whole : Nat}
    (lower : 2 * whole ≤ 2 * value + 1) (upper : 2 * value ≤ 2 * whole + 1)
    (odd : whole % 2 = 1 → 2 * whole < 2 * value + 1 ∧ 2 * value < 2 * whole + 1) :
    extended.roundedMantissa = whole := by
  obtain ⟨down, up, even⟩ := truncates.nearest
  have above : extended.roundedMantissa ≤ whole + 1 := by
    have : (extended.roundedMantissa : ℚ) ≤ whole + 1 := by linarith
    exact_mod_cast this
  have below : whole ≤ extended.roundedMantissa + 1 := by
    have : (whole : ℚ) ≤ extended.roundedMantissa + 1 := by linarith
    exact_mod_cast this
  -- A neighbour would be as close, and then it would be the even one of the two.
  rcases Nat.lt_trichotomy extended.roundedMantissa whole with less | same | greater
  · obtain rfl : whole = extended.roundedMantissa + 1 := by omega
    push_cast at *
    have isEven := even (.inr (by linarith))
    have := odd (by omega)
    linarith
  · exact same
  · have next : extended.roundedMantissa = whole + 1 := by omega
    rw [next] at down up even
    push_cast at *
    have isEven := even (.inl (by linarith))
    have := odd (by omega)
    linarith

/-- A whole number is not crossed by rounding to a whole number. -/
theorem roundedMantissa (truncates : Truncates extended value) (whole : Nat) :
    (value ≤ whole → extended.roundedMantissa ≤ whole) ∧
      ((whole : ℚ) ≤ value → whole ≤ extended.roundedMantissa) := by
  obtain ⟨down, up, -⟩ := truncates.nearest
  constructor
  · intro below
    have : (extended.roundedMantissa : ℚ) < whole + 1 := by linarith
    exact Nat.le_of_lt_succ (by exact_mod_cast this)
  · intro above
    have : (whole : ℚ) < extended.roundedMantissa + 1 := by linarith
    exact Nat.le_of_lt_succ (by exact_mod_cast this)

end Truncates

/-! ## Rounding -/

theorem targetExponent_binary64 (total : Int) :
    Float.Model.Format.binary64.targetExponent total = max (total - 53) (-1074) := rfl

/-- The exponent of the format for what has the most significant bit there. -/
theorem targetExponent_eq (mantissa : Nat) (exponent : Int) :
    Float.Model.Format.binary64.targetExponent (totalExponent mantissa exponent) =
      max (mantissa.log2 + exponent - 52) (-1074) := by
  rw [targetExponent_binary64, totalExponent]
  omega

/-- A rounded mantissa has at most one bit too many, and that bit is zero. -/
theorem shiftToTargetExponent_rounded {rounded : Nat} (limit : rounded ≤ 2 ^ 53)
    (least : -1074 ≤ exponent) (full : 2 ^ 52 ≤ rounded ∨ exponent = -1074) :
    ∃ (extended : ExtendedMantissa) (height : Int),
      shiftToTargetExponent .binary64 rounded exponent .exact = (extended, height) ∧
      (extended.mantissa : ℚ) * 2 ^ height = rounded * 2 ^ exponent ∧
      (extended.mantissa ≠ 0 → Canonical extended.mantissa height) := by
  unfold shiftToTargetExponent
  rw [targetExponent_eq]
  rcases Nat.lt_or_eq_of_le limit with fits | rfl
  · have short : rounded.log2 ≤ 52 := by
      rcases Nat.eq_zero_or_pos rounded with rfl | positive
      · decide
      · exact Nat.le_of_lt_succ ((Nat.log2_lt (by omega)).2 fits)
    have stays : (max ((rounded.log2 : Int) + exponent - 52) (-1074) - exponent).toNat = 0 := by omega
    refine ⟨⟨rounded, false, false⟩, exponent, ?_, rfl, ?_⟩
    · simp only [shiftToExponent, stays]
      exact Prod.ext rfl (Int.add_zero _)
    · intro nonzero
      exact ⟨Nat.pos_of_ne_zero nonzero, fits, least, full⟩
  · have moves : (max (((2 ^ 53 : Nat).log2 : Int) + exponent - 52) (-1074) - exponent).toNat = 1 := by
      rw [Nat.log2_two_pow]
      omega
    refine ⟨⟨2 ^ 52, false, false⟩, exponent + 1, ?_, ?_, ?_⟩
    · simp only [shiftToExponent, moves]
      rfl
    · rw [two_zpow_eq (Int.le_add_one le_rfl), ← mul_assoc]
      have one : (exponent + 1 - exponent).toNat = 1 := by omega
      rw [one]
      norm_num
    · intro _
      exact ⟨by decide, by decide, by omega, .inl le_rfl⟩

/-- Rounding at the exponent of the format crosses nothing representable: what has a smaller exponent
is too small to be reached. -/
theorem Truncates.faithful {extended : ExtendedMantissa} (truncates : Truncates extended value)
    (full : 2 ^ 52 ≤ value ∨ exponent = -1074)
    (denotes : Denotes number (extended.roundedMantissa * 2 ^ exponent)) :
    Faithful (value * 2 ^ exponent) number := by
  refine ⟨_, denotes, ?_⟩
  rintro _ ⟨mantissa, height, fits, high, rfl⟩
  have scale := two_zpow_pos exponent
  rcases lt_or_ge height exponent with below | above
  · have normal : 2 ^ 52 ≤ value := full.resolve_right (by omega)
    have reached : 2 ^ 52 ≤ extended.roundedMantissa :=
      (truncates.roundedMantissa (2 ^ 52)).2 (by exact_mod_cast normal)
    have small : (mantissa : ℚ) * 2 ^ height < 2 ^ 52 * 2 ^ exponent := lt_two_zpow fits below
    constructor
    · intro within
      have : (2 : ℚ) ^ 52 * 2 ^ exponent ≤ value * 2 ^ exponent :=
        mul_le_mul_of_nonneg_right normal scale.le
      linarith
    · intro _
      have : (2 : ℚ) ^ 52 * 2 ^ exponent ≤ extended.roundedMantissa * 2 ^ exponent :=
        mul_le_mul_of_nonneg_right (by exact_mod_cast reached) scale.le
      linarith
  · obtain ⟨down, up⟩ := truncates.roundedMantissa (mantissa * 2 ^ (height - exponent).toNat)
    rw [two_zpow_eq above, ← mul_assoc, ← Nat.cast_mul, mul_le_mul_iff_left₀ scale,
      mul_le_mul_iff_left₀ scale, mul_le_mul_iff_left₀ scale, mul_le_mul_iff_left₀ scale,
      Nat.cast_le, Nat.cast_le]
    exact ⟨down, up⟩

theorem mantissa_ofMantissaAndAccuracy (mantissa : Nat) (accuracy : Accuracy) :
    (ExtendedMantissa.ofMantissaAndAccuracy mantissa accuracy).mantissa = mantissa := by
  cases accuracy with
  | exact => rfl
  | inexact side => cases side <;> rfl

/-- In units of the target exponent a number has at most 53 bits, and no fewer unless the exponent
is the least of the format. -/
theorem scaled_bounds {shift : Nat} (lower : mantissa ≤ value) (upper : value < mantissa + 1)
    (target : max ((mantissa.log2 : Int) + exponent - 52) (-1074) = exponent + shift) :
    value / 2 ^ shift ≤ ((2 ^ 53 : Nat) : ℚ) ∧
      (2 ^ 52 ≤ value / 2 ^ shift ∨ exponent + shift = -1074) := by
  have power : (0 : ℚ) < 2 ^ shift := by positivity
  constructor
  · have short : mantissa + 1 ≤ 2 ^ 53 * 2 ^ shift := by
      rw [← Nat.pow_add]
      exact Nat.lt_log2_self.trans_le (Nat.pow_le_pow_right (by decide) (by omega))
    have : (mantissa : ℚ) + 1 ≤ ((2 ^ 53 : Nat) : ℚ) * 2 ^ shift := by exact_mod_cast short
    rw [div_le_iff₀ power]
    linarith
  · by_cases lowest : exponent + shift = -1074
    · exact .inr lowest
    · have normal : mantissa.log2 = 52 + shift := by omega
      have nonzero : mantissa ≠ 0 := by
        rintro rfl
        rw [Nat.log2_zero] at normal
        omega
      have long : 2 ^ 52 * 2 ^ shift ≤ mantissa := by
        rw [← Nat.pow_add, ← normal]
        exact Nat.log2_self_le nonzero
      have : (2 : ℚ) ^ 52 * 2 ^ shift ≤ mantissa := by exact_mod_cast long
      refine .inl ((le_div_iff₀ power).2 ?_)
      linarith

/-- `number` is `exact` with its mantissa rounded once: nothing was cut off before the last bit that the
format has. -/
inductive Rounded : ℚ → UnpackedFloat → Prop
  | intro {mantissa : Nat} {exponent : Int} {accuracy : Accuracy} {value : ℚ}
      (truncates : Truncates (.ofMantissaAndAccuracy mantissa accuracy) value)
      (room : exponent ≤
        Float.Model.Format.binary64.targetExponent (totalExponent mantissa exponent)) :
      Rounded (value * 2 ^ exponent) (roundWithAccuracy .binary64 .positive mantissa exponent accuracy)

/-- The number is taken to the exponent of the format, and its mantissa is rounded there. -/
theorem Rounded.denotes (rounded : Rounded exact number) :
    ∃ (extended : ExtendedMantissa) (scaled : ℚ) (height : Int), Truncates extended scaled ∧
      exact = scaled * 2 ^ height ∧ scaled ≤ ((2 ^ 53 : Nat) : ℚ) ∧
      -1074 ≤ height ∧ (2 ^ 52 ≤ scaled ∨ height = -1074) ∧
      Denotes number (extended.roundedMantissa * 2 ^ height) := by
  obtain @⟨mantissa, exponent, accuracy, value, truncates, room⟩ := rounded
  obtain ⟨shift, moved⟩ : ∃ shift : Nat,
      Float.Model.Format.binary64.targetExponent (totalExponent mantissa exponent) = exponent + shift :=
    ⟨(Float.Model.Format.binary64.targetExponent (totalExponent mantissa exponent) - exponent).toNat,
      by omega⟩
  have target := moved
  rw [targetExponent_eq] at target
  have lower := truncates.mantissa_le
  have upper := truncates.lt_mantissa_add_one
  rw [mantissa_ofMantissaAndAccuracy] at lower upper
  obtain ⟨small, full⟩ := scaled_bounds lower upper target
  have least : -1074 ≤ exponent + shift := by omega
  have scaled := truncates.shiftRight shift
  have worth : value * 2 ^ exponent = value / 2 ^ shift * 2 ^ (exponent + shift) := by
    rw [zpow_add₀ (by norm_num), zpow_natCast]
    field_simp
  refine ⟨_, _, _, scaled, worth, small, least, full, ?_⟩
  have first : shiftToTargetExponent .binary64 mantissa exponent accuracy =
      (ExtendedMantissa.ofMantissaAndAccuracy mantissa accuracy >>> shift, exponent + shift) := by
    have back : (exponent + shift - exponent).toNat = shift := by omega
    rw [shiftToTargetExponent, moved, shiftToExponent, back]
  obtain ⟨extended, height, second, same, canonical⟩ := shiftToTargetExponent_rounded
    ((scaled.roundedMantissa _).1 small) least
    (full.imp_left fun normal => (scaled.roundedMantissa _).2 (by exact_mod_cast normal))
  rw [← same]
  unfold roundWithAccuracy
  rw [first]
  dsimp only
  rw [second]
  dsimp only
  by_cases vanishes : extended.mantissa = 0
  · rw [dif_pos vanishes, vanishes, Nat.cast_zero, zero_mul]
    exact .zero _
  · rw [dif_neg vanishes]
    exact .finite (canonical vanishes)

theorem Rounded.faithful (rounded : Rounded exact number) : Faithful exact number := by
  obtain ⟨extended, scaled, height, truncates, worth, -, -, full, denotes⟩ := rounded.denotes
  rw [worth]
  exact truncates.faithful full denotes

/-- A lower exponent for the same number. -/
theorem decreaseExponent_value (mantissa : Nat) {low high : Int} (ordered : low ≤ high) :
    ((decreaseExponent mantissa high low).1 : ℚ) * 2 ^ low = mantissa * 2 ^ high := by
  simp only [decreaseExponent, Nat.shiftLeft_eq]
  rw [two_zpow_eq ordered, ← mul_assoc, Nat.cast_mul]

theorem log2_add_le_log2_shiftLeft (positive : 0 < mantissa) (shift : Nat) :
    mantissa.log2 + shift ≤ (mantissa <<< shift).log2 := by
  rw [Nat.shiftLeft_eq, Nat.le_log2 (Nat.ne_of_gt (Nat.mul_pos positive (Nat.two_pow_pos shift))),
    Nat.pow_add]
  exact Nat.mul_le_mul_right _ (Nat.log2_self_le (by omega))

theorem faithful_round (positive : 0 < mantissa) :
    Faithful (mantissa * 2 ^ exponent) (UnpackedFloat.round .binary64 .positive mantissa exponent) := by
  obtain ⟨shift, lowered, room⟩ : ∃ shift : Nat,
      decreaseExponent mantissa exponent
          (Float.Model.Format.binary64.targetExponent (totalExponent mantissa exponent)) =
        (mantissa <<< shift, exponent - shift) ∧
      exponent - shift ≤
        Float.Model.Format.binary64.targetExponent
          (totalExponent (mantissa <<< shift) (exponent - shift)) := by
    refine ⟨_, rfl, ?_⟩
    have longer := log2_add_le_log2_shiftLeft positive
      (exponent - Float.Model.Format.binary64.targetExponent (totalExponent mantissa exponent)).toNat
    rw [targetExponent_eq] at longer ⊢
    rw [targetExponent_eq]
    omega
  have worth : (mantissa : ℚ) * 2 ^ exponent =
      ((mantissa <<< shift : Nat) : ℚ) * 2 ^ (exponent - shift) := by
    rw [two_zpow_eq (show exponent - shift ≤ exponent by omega), Nat.shiftLeft_eq, ← mul_assoc,
      ← Nat.cast_mul]
    congr
    omega
  unfold UnpackedFloat.round
  dsimp only
  rw [lowered, worth]
  exact (Rounded.intro (.ofExact _) room).faithful

theorem faithful_normalize (whole : Nat) (exponent : Int) (sign : Sign) :
    Faithful (whole * 2 ^ exponent) (UnpackedFloat.normalize .binary64 whole exponent sign) := by
  rcases Nat.eq_zero_or_pos whole with rfl | positive
  · rw [Nat.cast_zero, zero_mul]
    exact (Denotes.zero sign).faithful
  · have above : compare (whole : Int) 0 = .gt := compare_gt_iff_gt.2 (by exact_mod_cast positive)
    unfold UnpackedFloat.normalize
    rw [above]
    exact faithful_round positive

end Rv32Stimulus.Binary64
