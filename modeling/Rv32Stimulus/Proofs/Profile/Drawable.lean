/-
# Proofs.Profile.Drawable -- the weights a profile draws by

A profile draws by four lists of weights: those of its classes, and the buckets of arithmetic
immediates, memory offsets and branch distances.  It is drawable if none of the four
overflows.
-/
import Rv32Stimulus.Profile.Basic
import Rv32Stimulus.Proofs.Random.Weighted

namespace Rv32Stimulus

set_option autoImplicit false

open Rv32Stimulus.Random

def ArithmeticProfile.weights (profile : ArithmeticProfile) : List Float :=
  [profile.small, profile.boundary, profile.medium, profile.specialPattern, profile.randomFull]

def MemoryProfile.weights (profile : MemoryProfile) : List Float :=
  [profile.nearZero, profile.smallRange, profile.midRange, profile.farRange]

def BranchProfile.weights (profile : BranchProfile) : List Float :=
  [profile.near, profile.mid, profile.far]

/-- The lists of weights that some draw chooses an index of. -/
def Profile.weightLists (profile : Profile) : List (List Float) :=
  [ profile.weights.values, profile.immediates.arithmetic.weights,
    profile.immediates.memory.weights, profile.branches.weights ]

/-- No list of weights is at least zero throughout with an infinite sum. -/
def Profile.Drawable (profile : Profile) : Prop :=
  ∀ weights ∈ profile.weightLists, overflows weights = false

instance (profile : Profile) : Decidable profile.Drawable :=
  inferInstanceAs (Decidable (∀ weights ∈ profile.weightLists, overflows weights = false))

theorem Profile.exists_overflows {profile : Profile} (undrawable : ¬profile.Drawable) :
    ∃ weights ∈ profile.weightLists, overflows weights = true := by
  simpa [Drawable] using undrawable

namespace Profile.Drawable

variable {profile : Profile}

theorem classes (drawable : profile.Drawable) : overflows profile.weights.values = false :=
  drawable _ (by simp [weightLists])

theorem arithmetic (drawable : profile.Drawable) :
    overflows profile.immediates.arithmetic.weights = false :=
  drawable _ (by simp [weightLists])

theorem memory (drawable : profile.Drawable) :
    overflows profile.immediates.memory.weights = false :=
  drawable _ (by simp [weightLists])

theorem branches (drawable : profile.Drawable) : overflows profile.branches.weights = false :=
  drawable _ (by simp [weightLists])

end Profile.Drawable

end Rv32Stimulus
