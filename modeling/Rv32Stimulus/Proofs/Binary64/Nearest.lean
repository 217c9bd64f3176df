/-
# Proofs.Binary64.Nearest -- what is close to a double is rounded to it

A double is the nearest one to everything `Around` it: to what is no farther than half-way to its
neighbours, and to the middle itself if its mantissa is even.  Whatever is rounded once from there
comes out as that double (`Around.denotes`).
-/
import Rv32Stimulus.Decimal.Shortest
import Rv32Stimulus.Proofs.Binary64.Arithmetic

namespace Rv32Stimulus.Binary64

set_option autoImplicit false

open Decimal (Binary)
open Float.Model Float.Model.UnpackedFloat

/-- The exact numbers of which `value` is the nearest double: those of its interval, without the ends
if its mantissa is odd. -/
structure Around (value : Binary) (exact : ℚ) : Prop where
  lower : value.low * 2 ^ value.quarterExponent ≤ exact
  upper : exact ≤ value.high * 2 ^ value.quarterExponent
  inside : value.mantissa % 2 = 1 → value.low * 2 ^ value.quarterExponent < exact ∧
    exact < value.high * 2 ^ value.quarterExponent

theorem quarter_eq (value : Binary) :
    (2 : ℚ) ^ value.exponent = 4 * 2 ^ value.quarterExponent := by
  have four : (4 : ℚ) = 2 ^ (2 : Int) := by norm_num
  rw [four, ← zpow_add₀ (by norm_num), Binary.quarterExponent]
  congr 1
  omega

/-- The interval reaches no farther than half a unit below the double. -/
theorem centre_le_low (value : Binary) : 4 * value.mantissa ≤ value.low + 2 := by
  rw [Binary.low]
  split <;> omega

theorem low_of_boundary {value : Binary} (boundary : value.mantissa = 2 ^ 52)
    (above : -1074 < value.exponent) : value.low = 2 ^ 54 - 1 := by
  have least : value.mantissa = Decimal.leastNormal ∧ Decimal.leastExponent < value.exponent :=
    ⟨boundary, above⟩
  rw [Binary.low, if_pos least, boundary]
  rfl

namespace Around

variable {value : Binary} {exact scaled : ℚ} {extended : ExtendedMantissa} {height : Int}
  {number : UnpackedFloat}

/-- The interval in quarters, for a number of units of the double. -/
theorem quarters (around : Around value (scaled * 2 ^ value.exponent)) :
    value.low ≤ 4 * scaled ∧ 4 * scaled ≤ 4 * value.mantissa + 2 ∧
      (value.mantissa % 2 = 1 → value.low < 4 * scaled ∧ 4 * scaled < 4 * value.mantissa + 2) := by
  have unit := two_zpow_pos value.quarterExponent
  have rescaled : scaled * 2 ^ value.exponent = 4 * scaled * 2 ^ value.quarterExponent := by
    rw [quarter_eq]
    ring
  have high : (value.high : ℚ) = 4 * value.mantissa + 2 := by simp [Binary.high]
  obtain ⟨lower, upper, inside⟩ := around
  rw [rescaled, high] at upper
  rw [rescaled] at lower
  rw [rescaled, high] at inside
  refine ⟨le_of_mul_le_mul_right lower unit, le_of_mul_le_mul_right upper unit, fun odd => ?_⟩
  exact ⟨lt_of_mul_lt_mul_right (inside odd).1 unit.le, lt_of_mul_lt_mul_right (inside odd).2 unit.le⟩

/-- At the exponent of the double. -/
theorem rounded_same (around : Around value (scaled * 2 ^ value.exponent))
    (truncates : Truncates extended scaled) : extended.roundedMantissa = value.mantissa := by
  obtain ⟨lower, upper, inside⟩ := around.quarters
  have low : 4 * (value.mantissa : ℚ) ≤ value.low + 2 := by exact_mod_cast centre_le_low value
  refine truncates.roundedMantissa_eq (by linarith) (by linarith) fun odd => ?_
  obtain ⟨above, below⟩ := inside odd
  exact ⟨by linarith, by linarith⟩

/-- Above the exponent of the double there is nothing of its interval. -/
theorem not_lt_height (around : Around value (scaled * 2 ^ height))
    (canonical : Canonical value.mantissa value.exponent)
    (full : 2 ^ 52 ≤ scaled ∨ height = -1074) : ¬value.exponent < height := by
  intro above
  have least := canonical.least
  have normal : 2 ^ 52 ≤ scaled := full.resolve_right (by omega)
  rw [two_zpow_eq above.le, ← mul_assoc] at around
  obtain ⟨-, upper, -⟩ := around.quarters
  have doubled : (2 : ℚ) ≤ ((2 ^ (height - value.exponent).toNat : Nat) : ℚ) := by
    exact_mod_cast Nat.le_self_pow (by omega) 2
  have fits : (value.mantissa : ℚ) + 1 ≤ 2 ^ 53 := by exact_mod_cast canonical.fits
  have product : (2 : ℚ) ^ 52 * 2 ≤ scaled * ((2 ^ (height - value.exponent).toNat : Nat) : ℚ) :=
    mul_le_mul normal doubled (by norm_num) (by linarith)
  linarith

/-- The lower end of the interval, for a number of units below the exponent of the double. -/
theorem low_mul_le (around : Around value (scaled * 2 ^ height)) {steps : Nat}
    (apart : value.exponent = height + 1 + steps) : (value.low : ℚ) * 2 ^ steps ≤ 2 * scaled := by
  have power : (2 : ℚ) ^ value.exponent = 2 ^ height * (2 * 2 ^ steps) := by
    rw [apart, zpow_add₀ (by norm_num), zpow_add₀ (by norm_num), zpow_one, zpow_natCast, mul_assoc]
  have rescaled : scaled * 2 ^ height = scaled / (2 * 2 ^ steps) * 2 ^ value.exponent := by
    rw [power]
    field_simp
  rw [rescaled] at around
  obtain ⟨lower, -, -⟩ := around.quarters
  have scale : (0 : ℚ) < 2 ^ steps := by positivity
  calc (value.low : ℚ) * 2 ^ steps ≤ 4 * (scaled / (2 * 2 ^ steps)) * 2 ^ steps :=
        mul_le_mul_of_nonneg_right lower scale.le
    _ = 2 * scaled := by field_simp; ring

/-- Below the exponent of the double there is only the end of the interval of a power of two, and it
is rounded up to the power. -/
theorem rounded_lower (around : Around value (scaled * 2 ^ height))
    (canonical : Canonical value.mantissa value.exponent) (least : -1074 ≤ height)
    (small : scaled ≤ ((2 ^ 53 : Nat) : ℚ)) (below : height < value.exponent)
    (truncates : Truncates extended scaled) :
    value.mantissa = 2 ^ 52 ∧ value.exponent = height + 1 ∧ extended.roundedMantissa = 2 ^ 53 := by
  obtain ⟨steps, apart⟩ : ∃ steps : Nat, value.exponent = height + 1 + steps :=
    ⟨(value.exponent - (height + 1)).toNat, by omega⟩
  have reach := around.low_mul_le apart
  push_cast at small
  have limit : value.low * 2 ^ steps ≤ 2 ^ 54 := by
    have : (value.low : ℚ) * 2 ^ steps ≤ 2 ^ 54 := by linarith
    exact_mod_cast this
  have first : value.low ≤ value.low * 2 ^ steps := Nat.le_mul_of_pos_right _ (Nat.two_pow_pos steps)
  have boundary : value.mantissa = 2 ^ 52 := by
    have full : 2 ^ 52 ≤ value.mantissa := canonical.full.resolve_right (by omega)
    have near := centre_le_low value
    omega
  have low := low_of_boundary boundary (by omega)
  obtain rfl : steps = 0 := by
    by_contra some_
    have doubled := Nat.mul_le_mul_left value.low (Nat.le_self_pow some_ 2)
    omega
  refine ⟨boundary, by omega, ?_⟩
  rw [low, pow_zero, mul_one] at reach
  push_cast at reach
  apply truncates.roundedMantissa_eq
  · push_cast
    linarith
  · push_cast
    linarith
  · exact fun odd => absurd odd (by decide)

/-- Whatever is rounded once from the interval of a double is that double. -/
theorem denotes (around : Around value exact) (canonical : Canonical value.mantissa value.exponent)
    (rounded : Rounded exact number) : Denotes number (value.mantissa * 2 ^ value.exponent) := by
  obtain ⟨extended, scaled, height, truncates, rfl, small, least, full, denotes⟩ := rounded.denotes
  rcases lt_trichotomy height value.exponent with below | rfl | above
  · obtain ⟨boundary, next, up⟩ := around.rounded_lower canonical least small below truncates
    have same : ((2 ^ 53 : Nat) : ℚ) * 2 ^ height = (2 ^ 52 : Nat) * 2 ^ value.exponent := by
      rw [next, zpow_add₀ (by norm_num), zpow_one]
      push_cast
      ring
    rwa [up, same, ← boundary] at denotes
  · rwa [around.rounded_same truncates] at denotes
  · exact absurd above (around.not_lt_height canonical full)

/-! ## Products and quotients -/

theorem pos (around : Around value exact) (positive : 0 < value.mantissa) : 0 < exact := by
  have low : 0 < value.low := by
    have := centre_le_low value
    omega
  exact (mul_pos (Nat.cast_pos.2 low) (two_zpow_pos _)).trans_le around.lower

variable {other : UnpackedFloat} {left right : ℚ}

theorem denotes_mul (around : Around value (left * right))
    (canonical : Canonical value.mantissa value.exponent)
    (one : Denotes number left) (two : Denotes other right) :
    Denotes (UnpackedFloat.mul .binary64 number other) (value.mantissa * 2 ^ value.exponent) := by
  have positive := around.pos canonical.positive
  cases one with
  | zero => simp at positive
  | finite first =>
      cases two with
      | zero => simp at positive
      | finite second => exact around.denotes canonical (first.rounded_mul second)

theorem denotes_div (around : Around value (left / right))
    (canonical : Canonical value.mantissa value.exponent)
    (one : Denotes number left) (two : Denotes other right) :
    Denotes (UnpackedFloat.div .binary64 number other) (value.mantissa * 2 ^ value.exponent) := by
  have positive := around.pos canonical.positive
  cases one with
  | zero => simp at positive
  | finite first =>
      cases two with
      | zero => simp at positive
      | finite second => exact around.denotes canonical rounded_div

end Around

end Rv32Stimulus.Binary64
