/-
# Proofs.Binary64.Arithmetic -- sums, differences, products and quotients

Each operation on numbers that are finite and not negative rounds the exact result faithfully.  Sums
and differences are exact before they are rounded, and so are products; a quotient is cut off where
the format has no more bits, and its remainder says how (`truncates_div`).
-/
import Rv32Stimulus.Proofs.Binary64.Rounding

namespace Rv32Stimulus.Binary64

set_option autoImplicit false

open Float.Model Float.Model.UnpackedFloat

variable {number other : UnpackedFloat} {left right value : ℚ}

theorem faithful_add (one : Denotes number left) (two : Denotes other right) :
    Faithful (left + right) (add .binary64 number other) := by
  cases one with
  | zero sign =>
      rw [zero_add]
      cases two with
      | zero twin => cases sign <;> cases twin <;> exact (Denotes.zero _).faithful
      | finite canonical => exact (Denotes.finite canonical).faithful
  | @finite mantissa exponent canonical =>
      cases two with
      | zero =>
          rw [add_zero]
          exact (Denotes.finite canonical).faithful
      | @finite twin height second =>
          have worth : (mantissa : ℚ) * 2 ^ exponent + twin * 2 ^ height =
              ((decreaseExponent mantissa exponent (min exponent height)).1 +
                (decreaseExponent twin height (min exponent height)).1 : Nat) *
                2 ^ min exponent height := by
            rw [Nat.cast_add, add_mul, decreaseExponent_value mantissa (min_le_left _ _),
              decreaseExponent_value twin (min_le_right _ _)]
          rw [worth]
          exact faithful_normalize _ _ _

theorem faithful_sub (one : Denotes number left) (two : Denotes other right)
    (ordered : right ≤ left) : Faithful (left - right) (sub .binary64 number other) := by
  cases one with
  | zero sign =>
      cases two with
      | zero twin =>
          rw [sub_zero]
          cases sign <;> cases twin <;> exact (Denotes.zero _).faithful
      | finite canonical => exact absurd ordered (not_le.2 canonical.value_pos)
  | @finite mantissa exponent canonical =>
      cases two with
      | zero =>
          rw [sub_zero]
          exact (Denotes.finite canonical).faithful
      | @finite twin height second =>
          have first := decreaseExponent_value mantissa (min_le_left exponent height)
          have last := decreaseExponent_value twin (min_le_right exponent height)
          rw [← first, ← last] at ordered ⊢
          have within := Nat.cast_le.1
            ((mul_le_mul_iff_left₀ (two_zpow_pos (min exponent height))).1 ordered)
          rw [← sub_mul, ← Nat.cast_sub within]
          change Faithful _ (UnpackedFloat.normalize .binary64
            (((decreaseExponent mantissa exponent (min exponent height)).1 : Int) -
              ((decreaseExponent twin height (min exponent height)).1 : Int)) _ _)
          rw [← Int.ofNat_sub within]
          exact faithful_normalize _ _ _

/-- A product is exact before it is rounded. -/
theorem rounded_mul {mantissa twin : Nat} {exponent height : Int} {positive : 0 < mantissa}
    {second : 0 < twin} (full : 2 ^ 52 ≤ mantissa * twin ∨ exponent + height ≤ -1074) :
    Rounded (mantissa * 2 ^ exponent * (twin * 2 ^ height))
      (mul .binary64 (.finite .positive mantissa exponent positive)
        (.finite .positive twin height second)) := by
  have worth : (mantissa : ℚ) * 2 ^ exponent * (twin * 2 ^ height) =
      ((mantissa * twin : Nat) : ℚ) * 2 ^ (exponent + height) := by
    rw [zpow_add₀ (by norm_num), Nat.cast_mul]
    ring
  rw [worth]
  refine .intro (.ofExact _) ?_
  rw [targetExponent_eq]
  rcases full with full | lowest
  · have long := (Nat.le_log2 (Nat.ne_of_gt (Nat.mul_pos positive second))).2 full
    omega
  · omega

theorem Canonical.rounded_mul {mantissa twin : Nat} {exponent height : Int}
    (first : Canonical mantissa exponent) (second : Canonical twin height) :
    Rounded (mantissa * 2 ^ exponent * (twin * 2 ^ height))
      (mul .binary64 (.finite .positive mantissa exponent first.positive)
        (.finite .positive twin height second.positive)) := by
  apply Binary64.rounded_mul
  rcases first.full with full | lowest
  · exact .inl (full.trans (Nat.le_mul_of_pos_right _ second.positive))
  · rcases second.full with full | deepest
    · exact .inl (full.trans (Nat.le_mul_of_pos_left _ first.positive))
    · exact .inr (by omega)

theorem faithful_mul (one : Denotes number left) (two : Denotes other right) :
    Faithful (left * right) (mul .binary64 number other) := by
  cases one with
  | zero sign =>
      rw [zero_mul]
      cases two with
      | zero => exact (Denotes.zero _).faithful
      | finite canonical => exact (Denotes.zero _).faithful
  | finite canonical =>
      cases two with
      | zero =>
          rw [mul_zero]
          exact (Denotes.zero _).faithful
      | finite second => exact (canonical.rounded_mul second).faithful

/-- A quotient is its whole part and what the remainder adds. -/
theorem quotient_eq {dividend divisor : Nat} (positive : 0 < divisor) :
    (dividend : ℚ) / divisor =
      (dividend / divisor : Nat) + ((dividend % divisor : Nat) : ℚ) / divisor := by
  have nonzero : (divisor : ℚ) ≠ 0 := Nat.cast_ne_zero.2 (Nat.ne_of_gt positive)
  have parts : (dividend : ℚ) = divisor * (dividend / divisor : Nat) + (dividend % divisor : Nat) := by
    exact_mod_cast (Nat.div_add_mod dividend divisor).symm
  rw [div_eq_iff nonzero, add_mul, div_mul_cancel₀ _ nonzero, mul_comm, ← parts]

/-- The remainder is compared with half of the divisor as the quotient with the middle. -/
theorem compare_remainder {dividend divisor : Nat} (positive : 0 < divisor) :
    compare (2 * (dividend % divisor)) divisor =
      compare (2 * ((dividend : ℚ) / divisor)) (2 * (dividend / divisor : Nat) + 1) := by
  have scale : (0 : ℚ) < divisor := Nat.cast_pos.2 positive
  have distance : 2 * ((dividend : ℚ) / divisor) - (2 * (dividend / divisor : Nat) + 1) =
      ((2 * (dividend % divisor) : Nat) - divisor) / divisor := by
    rw [quotient_eq positive, Nat.cast_mul, Nat.cast_ofNat, sub_div, div_self scale.ne',
      mul_div_assoc]
    ring
  rcases Nat.lt_trichotomy (2 * (dividend % divisor)) divisor with below | same | above
  · have less : ((2 * (dividend % divisor) : Nat) : ℚ) - divisor < 0 :=
      sub_neg.2 (Nat.cast_lt.2 below)
    rw [compare_lt_iff_lt.2 below, compare_lt_iff_lt.2]
    exact sub_neg.1 (distance ▸ div_neg_of_neg_of_pos less scale)
  · have zero : ((2 * (dividend % divisor) : Nat) : ℚ) - divisor = 0 :=
      sub_eq_zero.2 (congrArg _ same)
    rw [compare_eq_iff_eq.2 same, compare_eq_iff_eq.2]
    rw [← sub_eq_zero, distance, zero, zero_div]
  · have greater : (0 : ℚ) < ((2 * (dividend % divisor) : Nat) : ℚ) - divisor :=
      sub_pos.2 (Nat.cast_lt.2 above)
    rw [compare_gt_iff_gt.2 above, compare_gt_iff_gt.2]
    exact sub_pos.1 (distance ▸ div_pos greater scale)

/-- A remainder says how far the quotient was cut off. -/
theorem truncates_div {dividend divisor : Nat} (positive : 0 < divisor) :
    Truncates (.ofMantissaAndAccuracy (dividend / divisor)
      (accuracyOfFraction (dividend % divisor) divisor)) ((dividend : ℚ) / divisor) := by
  have scale : (0 : ℚ) < divisor := Nat.cast_pos.2 positive
  unfold accuracyOfFraction
  split
  · rename_i whole
    rw [quotient_eq positive, whole, Nat.cast_zero, zero_div, add_zero]
    exact .ofExact _
  · rename_i remains
    have some_ : (0 : ℚ) < (dividend % divisor : Nat) := Nat.cast_pos.2 (Nat.pos_of_ne_zero remains)
    have less : ((dividend % divisor : Nat) : ℚ) < divisor := Nat.cast_lt.2 (Nat.mod_lt _ positive)
    rw [compare_remainder positive]
    apply Truncates.ofInexact
    · rw [quotient_eq positive]
      exact lt_add_of_pos_right _ (div_pos some_ scale)
    · rw [quotient_eq positive]
      exact add_lt_add_right ((div_lt_one scale).2 less) _

theorem log2_le_log2_div (dividend : Nat) {divisor : Nat} (positive : 0 < divisor) :
    dividend.log2 ≤ (dividend / divisor).log2 + divisor.log2 + 1 := by
  rcases Nat.eq_zero_or_pos dividend with rfl | nonzero
  · rw [Nat.log2_zero]
    omega
  apply Nat.le_of_lt_succ
  rw [Nat.succ_eq_add_one, Nat.log2_lt (by omega)]
  calc dividend < divisor * (dividend / divisor + 1) := Nat.lt_mul_div_succ dividend positive
    _ ≤ 2 ^ (divisor.log2 + 1) * 2 ^ ((dividend / divisor).log2 + 1) :=
        Nat.mul_le_mul (Nat.le_of_lt Nat.lt_log2_self) Nat.lt_log2_self
    _ = 2 ^ ((dividend / divisor).log2 + divisor.log2 + 1 + 1) := by
        rw [← Nat.pow_add]
        congr 1
        omega

/-- A quotient is taken low enough to leave all bits of the format. -/
theorem divCore_eq (mantissa divisor : Nat) (exponent height : Int) :
    ∃ (shift : Nat) (low : Int),
      divCore .binary64 mantissa exponent divisor height =
        (mantissa <<< shift / divisor, low, accuracyOfFraction (mantissa <<< shift % divisor) divisor) ∧
      exponent - height = low + shift ∧
      low ≤ max ((mantissa.log2 + exponent) - (divisor.log2 + height) - 53) (-1074) := by
  refine ⟨_, _, rfl, ?_, ?_⟩
  · omega
  · simp only [targetExponent_binary64, totalExponent]
    omega

theorem rounded_div {mantissa divisor : Nat} {exponent height : Int} {positive : 0 < mantissa}
    {second : 0 < divisor} :
    Rounded (mantissa * 2 ^ exponent / (divisor * 2 ^ height))
      (UnpackedFloat.div .binary64 (.finite .positive mantissa exponent positive)
        (.finite .positive divisor height second)) := by
  obtain ⟨shift, low, core, moved, early⟩ := divCore_eq mantissa divisor exponent height
  have worth : (mantissa : ℚ) * 2 ^ exponent / (divisor * 2 ^ height) =
      ((mantissa <<< shift : Nat) : ℚ) / divisor * 2 ^ low := by
    have power : (2 : ℚ) ^ exponent = 2 ^ height * 2 ^ low * 2 ^ shift := by
      rw [← zpow_natCast, ← zpow_add₀ (by norm_num), ← zpow_add₀ (by norm_num)]
      congr 1
      omega
    have nonzero : (divisor : ℚ) ≠ 0 := Nat.cast_ne_zero.2 (Nat.ne_of_gt second)
    rw [power, Nat.shiftLeft_eq, Nat.cast_mul, Nat.cast_pow, Nat.cast_ofNat]
    field_simp
  change Rounded _ (match divCore .binary64 mantissa exponent divisor height with
    | (quotient, low, accuracy) => roundWithAccuracy .binary64 .positive quotient low accuracy)
  rw [core, worth]
  refine .intro (truncates_div second) ?_
  have longer := log2_add_le_log2_shiftLeft positive shift
  have quotient := log2_le_log2_div (mantissa <<< shift) second
  rw [targetExponent_eq]
  omega

theorem faithful_div (one : Denotes number left) (two : Denotes other right) (positive : 0 < right) :
    Faithful (left / right) (UnpackedFloat.div .binary64 number other) := by
  cases two with
  | zero => exact absurd positive (lt_irrefl 0)
  | finite second =>
      cases one with
      | zero =>
          rw [zero_div]
          exact (Denotes.zero _).faithful
      | finite canonical => exact rounded_div.faithful

end Rv32Stimulus.Binary64
