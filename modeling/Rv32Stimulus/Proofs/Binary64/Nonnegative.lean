/-
# Proofs.Binary64.Nonnegative -- sums of floats that are not negative

Such a float is worth a number or is infinity.  A sum of two is one again (`add_nonneg`) and is not
below either (`Worth.le_add`); adding zero changes nothing (`Worth.add_nothing`).
-/
import Rv32Stimulus.Proofs.Binary64.Packing

namespace Rv32Stimulus.Binary64

set_option autoImplicit false

variable {one other chosen : Float} {left right value : ℚ}

theorem Worth.nonneg (worth : Worth one value) : 0.0 ≤ one :=
  (worth_zero.le_iff worth).2 (Denotes.nonneg worth)

theorem IsInfinity.nonneg (infinite : IsInfinity one) : 0.0 ≤ one := by
  rw [le_iff_compare, infinite]
  rfl

/-- Nothing finite is above infinity. -/
theorem IsInfinity.not_le (infinite : IsInfinity one) (worth : Worth chosen value) :
    ¬one ≤ chosen := by
  rw [le_iff_compare, infinite]
  unfold Worth at worth
  generalize chosen.toModel.unpack = number at worth
  cases worth <;> simp [Float.Model.UnpackedFloat.compare]

/-- What is above a number is not negative. -/
theorem nonneg_of_le (worth : Worth chosen value) (above : chosen ≤ one) : 0.0 ≤ one := by
  rw [le_iff_compare] at above ⊢
  unfold Worth at worth
  generalize chosen.toModel.unpack = number at worth above
  cases unpacked : one.toModel.unpack with
  | notANumber => rw [unpacked] at above; cases worth <;> cases above
  | zero => rfl
  | infinity sign =>
      cases sign with
      | negative => rw [unpacked] at above; cases worth <;> cases above
      | positive => rfl
  | finite sign mantissa exponent positive =>
      cases sign with
      | negative => rw [unpacked] at above; cases worth <;> cases above
      | positive => rfl

theorem worth_of_le (nonneg : 0.0 ≤ one) (worth : Worth chosen value) (below : one ≤ chosen) :
    ∃ less, Worth one less ∧ less ≤ value := by
  rcases worth_of_nonneg nonneg with ⟨less, worthOne⟩ | infinite
  · exact ⟨less, worthOne, (worthOne.le_iff worth).1 below⟩
  · exact absurd below (infinite.not_le worth)

theorem worth_zero_of_not_pos (nonneg : 0.0 ≤ one) (notPos : ¬0.0 < one) : Worth one 0 := by
  rcases worth_of_nonneg nonneg with ⟨value, worth⟩ | infinite
  · rw [worth_zero.lt_iff worth, not_lt] at notPos
    rwa [le_antisymm notPos (Denotes.nonneg worth)] at worth
  · refine absurd ?_ notPos
    rw [lt_iff_compare, infinite]
    rfl

theorem isInfinity_add (infinite : Float.Model.UnpackedFloat.add .binary64 one.toModel.unpack
    other.toModel.unpack = .infinity .positive) : IsInfinity (one + other) := by
  change Float.Model.UnpackedFloat.unpack .binary64 (Float.Model.UnpackedFloat.pack .binary64
    (Float.Model.UnpackedFloat.add .binary64 one.toModel.unpack other.toModel.unpack)) = _
  rw [infinite]
  rfl

theorem IsInfinity.add (infinite : IsInfinity one) (nonneg : 0.0 ≤ other) :
    IsInfinity (one + other) := by
  apply isInfinity_add
  rw [infinite]
  rcases worth_of_nonneg nonneg with ⟨value, worth⟩ | second
  · unfold Worth at worth
    generalize other.toModel.unpack = number at worth
    cases worth <;> rfl
  · rw [second]
    rfl

theorem Worth.add_infinity (worth : Worth one value) (infinite : IsInfinity other) :
    IsInfinity (one + other) := by
  apply isInfinity_add
  rw [infinite]
  unfold Worth at worth
  generalize one.toModel.unpack = number at worth
  cases worth <;> rfl

/-- Adding what is not negative never goes down. -/
theorem Worth.le_add (worth : Worth one left) (nonneg : 0.0 ≤ other) :
    (∃ sum, Worth (one + other) sum ∧ left ≤ sum) ∨ IsInfinity (one + other) := by
  rcases worth_of_nonneg nonneg with ⟨right, second⟩ | infinite
  · rcases worth.add second with ⟨sum, denotes, bounded⟩ | ⟨infinite, -⟩
    · refine .inl ⟨sum, denotes, (bounded left (Denotes.representable worth)).2 ?_⟩
      exact le_add_of_nonneg_right (Denotes.nonneg second)
    · exact .inr infinite
  · exact .inr (worth.add_infinity infinite)

theorem add_nonneg (nonneg : 0.0 ≤ one) (second : 0.0 ≤ other) : 0.0 ≤ one + other := by
  rcases worth_of_nonneg nonneg with ⟨value, worth⟩ | infinite
  · rcases worth.le_add second with ⟨sum, worthSum, -⟩ | infinite
    · exact worthSum.nonneg
    · exact infinite.nonneg
  · exact (infinite.add second).nonneg

/-- A sum that got above `chosen` stays above. -/
theorem not_add_le (nonneg : 0.0 ≤ one) (second : 0.0 ≤ other) (worth : Worth chosen value)
    (above : ¬one ≤ chosen) : ¬one + other ≤ chosen := by
  rcases worth_of_nonneg nonneg with ⟨left, worthOne⟩ | infinite
  · rcases worthOne.le_add second with ⟨sum, worthSum, grows⟩ | infinite
    · rw [worthOne.le_iff worth, not_le] at above
      rw [worthSum.le_iff worth, not_le]
      exact above.trans_le grows
    · exact infinite.not_le worth
  · exact (infinite.add second).not_le worth

/-- Adding nothing changes nothing. -/
theorem Worth.add_nothing (worth : Worth one left) (second : Worth other 0) :
    Worth (one + other) left := by
  rcases worth.add second with faithful | ⟨-, great⟩
  · rw [add_zero] at faithful
    exact faithful.denotes (Denotes.representable worth)
  · have tooGreat := great left (Denotes.representable worth) (by rw [add_zero])
    exact absurd (Denotes.lt_of_unpack worth) (not_lt.2 tooGreat)

end Rv32Stimulus.Binary64
