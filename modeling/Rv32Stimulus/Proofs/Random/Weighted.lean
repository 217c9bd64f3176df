/-
# Proofs.Random.Weighted -- when a weighted draw fails

A weighted draw has one way to fail, and the weights alone decide it: all of them are at
least zero and their sum, added from the left, is infinite (`overflows`).  It then
fails from every source (`fails_weighted`); otherwise it succeeds from every source
(`succeeds_weighted`), and gives no index exactly if the weights are `degenerate`
(`ensures_weighted_none`).  All of this is read off `weighted_cases`, which says once what the draw can do.

Finite weights may well overflow: the sum of two finite numbers can be infinite.
-/
import Rv32Stimulus.Proofs.Random.Outcome

namespace Rv32Stimulus.Random

set_option autoImplicit false

/-- The weights added from the left; nothing if there are none. -/
def total? (weights : List Float) : Option Float := (Source.runningSums weights).getLast?

/-- Whether the weights are all at least zero and add up to infinity. -/
def overflows (weights : List Float) : Bool :=
  weights.all (0.0 ≤ ·) && (total? weights).any Float.isInf

/-- Whether no index can be drawn by the weights: there are none, some is not at least zero, or they
add up to zero. -/
def degenerate (weights : List Float) : Bool :=
  match total? weights with
  | none => true
  | some total => !weights.all (0.0 ≤ ·) || total == 0.0

/-! ## Infinity and zero -/

theorem unpack_zero : (0.0 : Float).toModel.unpack = .zero .positive := rfl

theorem beq_zero_of_isInf {value : Float} (infinite : value.isInf = true) :
    (value == 0.0) = false := by
  change Float.Model.UnpackedFloat.beq value.toModel.unpack (0.0 : Float).toModel.unpack = false
  change value.toModel.unpack.isInf = true at infinite
  rw [unpack_zero]
  cases unpacked : value.toModel.unpack with
  | infinity sign => cases sign <;> rfl
  | notANumber => rw [unpacked] at infinite; cases infinite
  | zero sign => rw [unpacked] at infinite; cases infinite
  | finite sign mantissa exponent positive => rw [unpacked] at infinite; cases infinite

/-! ## Running sums -/

theorem length_runningSums_go (sum : Float) (weights : List Float) :
    (Source.runningSums.go sum weights).length = weights.length + 1 := by
  induction weights generalizing sum with
  | nil => rfl
  | cons weight rest ih => simp only [Source.runningSums.go, List.length_cons, ih]

/-! ## The draw -/

namespace Draw

/-- What a weighted draw does: nothing, fail, or give the number of running sums that a part of the
total has reached. -/
theorem weighted_cases (weights : List Float) (source : Source) :
    (degenerate weights = true ∧ overflows weights = false ∧
      weighted weights source = .ok (none, source)) ∨
    (degenerate weights = false ∧ overflows weights = true ∧
      weighted weights source = .error .infiniteTotal) ∨
    (degenerate weights = false ∧ overflows weights = false ∧
      ∃ total, total? weights = some total ∧ (∀ weight ∈ weights, 0.0 ≤ weight) ∧
        total.isInf = false ∧
        weighted weights source = .ok (some ((Source.runningSums weights).dropLast.countP
          (· ≤ source.fraction.1 * total)), source.fraction.2)) := by
  change (_ ∧ _ ∧ source.weighted weights = _) ∨ (_ ∧ _ ∧ source.weighted weights = _) ∨
    (_ ∧ _ ∧ ∃ total, _ ∧ _ ∧ _ ∧ source.weighted weights = _)
  unfold Source.weighted degenerate overflows total?
  dsimp only
  cases (Source.runningSums weights).getLast? with
  | none => simp
  | some total =>
      dsimp only [Option.any]
      cases nonnegative : weights.all (0.0 ≤ ·) with
      | false => exact .inl ⟨rfl, rfl, rfl⟩
      | true =>
          cases infinite : total.isInf with
          | true =>
              rw [beq_zero_of_isInf infinite]
              exact .inr (.inl ⟨rfl, rfl, by simp⟩)
          | false =>
              cases isZero : total == 0.0 with
              | true => exact .inl ⟨rfl, rfl, rfl⟩
              | false =>
                  exact .inr (.inr ⟨rfl, rfl, total, rfl, by simpa using nonnegative, infinite,
                    by simp⟩)

theorem fails_weighted {weights : List Float} (infinite : overflows weights = true) :
    Fails (weighted weights) := by
  intro source
  rcases weighted_cases weights source with ⟨-, finite, -⟩ | ⟨-, -, failed⟩ | ⟨-, finite, -⟩
  · rw [infinite] at finite
    cases finite
  · exact failed
  · rw [infinite] at finite
    cases finite

theorem succeeds_weighted {weights : List Float} (finite : overflows weights = false) :
    Succeeds (weighted weights) := by
  intro source
  rcases weighted_cases weights source with
    ⟨-, -, given⟩ | ⟨-, infinite, -⟩ | ⟨-, -, total, -, -, -, given⟩
  · exact ⟨_, _, given⟩
  · rw [finite] at infinite
    cases infinite
  · exact ⟨_, _, given⟩

/-- Nothing is drawn exactly from degenerate weights. -/
theorem ensures_weighted_none (weights : List Float) :
    Ensures (weighted weights) fun index? => index? = none ↔ degenerate weights = true := by
  intro source index? rest given
  rcases weighted_cases weights source with
    ⟨isDegenerate, -, same⟩ | ⟨-, -, same⟩ | ⟨usable, -, total, -, -, -, same⟩ <;> rw [given] at same
  · cases same
    simp [isDegenerate]
  · cases same
  · cases same
    simp [usable]

/-- Where an index comes from: the running sums that a part of the total has reached. -/
theorem weighted_eq_some {weights : List Float} {source rest : Source} {index : Nat}
    (given : weighted weights source = .ok (some index, rest)) :
    ∃ total, total? weights = some total ∧ (∀ weight ∈ weights, 0.0 ≤ weight) ∧
      total.isInf = false ∧
      index = (Source.runningSums weights).dropLast.countP (· ≤ source.fraction.1 * total) := by
  rcases weighted_cases weights source with
    ⟨-, -, same⟩ | ⟨-, -, same⟩ | ⟨-, -, total, last, nonnegative, finite, same⟩ <;>
    rw [given] at same
  · cases same
  · cases same
  · cases same
    exact ⟨total, last, nonnegative, finite, rfl⟩

end Draw

end Rv32Stimulus.Random
