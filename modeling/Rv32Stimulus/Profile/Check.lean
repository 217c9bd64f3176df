/-
# Profile.Check -- which profiles are sound

`check` asks that the weight table is not empty, that every weight is finite and at least
zero, and that every probability is in `[0, 1]`.  It reports the first fault: the
empty table, then the weights of the table by name, then the bucket weights of
arithmetic immediates, memory offsets and branch distances, then the probabilities.
-/
import Rv32Stimulus.Profile.Basic
import Rv32Stimulus.Decimal.Numeral

namespace Rv32Stimulus

set_option autoImplicit false

/-- Why a profile is not sound. -/
inductive ProfileError where
  | noWeights
  | invalidWeight (key : String) (value : Float)
  | invalidProbability (key : String) (value : Float)
  deriving DecidableEq

def ProfileError.message : ProfileError → String
  | noWeights => "Category weight table is empty"
  | invalidWeight key value =>
      "Weight `" ++ key ++ "` must be a finite non-negative number, got " ++
        Decimal.messageText value
  | invalidProbability key value =>
      "Probability `" ++ key ++ "` must be within [0, 1], got " ++ Decimal.messageText value

/-- A weight may be any finite number that is at least zero. -/
def isWeight (value : Float) : Bool := value.isFinite && 0.0 ≤ value

def isProbability (value : Float) : Bool := 0.0 ≤ value && value ≤ 1.0

namespace Profile

/-- The weights outside the table, by the names that messages use. -/
def bucketWeights (profile : Profile) : List (String × Float) :=
  let arithmetic := profile.immediates.arithmetic
  let memory := profile.immediates.memory
  let branches := profile.branches
  [ ("immediates.arith.small", arithmetic.small),
    ("immediates.arith.boundary", arithmetic.boundary),
    ("immediates.arith.medium", arithmetic.medium),
    ("immediates.arith.random_full", arithmetic.randomFull),
    ("immediates.arith.special_pattern", arithmetic.specialPattern),
    ("immediates.memory_offset.near_zero", memory.nearZero),
    ("immediates.memory_offset.small_range", memory.smallRange),
    ("immediates.memory_offset.mid_range", memory.midRange),
    ("immediates.memory_offset.far_range", memory.farRange),
    ("branch_offsets.near", branches.near),
    ("branch_offsets.mid", branches.mid),
    ("branch_offsets.far", branches.far) ]

/-- The probabilities, by the names that messages use. -/
def probabilities (profile : Profile) : List (String × Float) :=
  [ ("immediates.upper20.symbolic_fraction", profile.immediates.upper.symbolicFraction),
    ("hazards.raw_dependency_prob", profile.hazards.rawDependency),
    ("hazards.waw_repeat_prob", profile.hazards.wawRepeat),
    ("hazards.load_use_prob", profile.hazards.loadUse),
    ("register_policy.sp_usage_fraction_in_memory_ops", profile.registers.stackBase),
    ("register_policy.ra_usage_fraction_in_jal", profile.registers.linkInJump) ]

/-- The first fault of the profile. -/
def fault? (profile : Profile) : Option ProfileError :=
  if profile.weights.isEmpty then some .noWeights
  else
    match (profile.weights.entries ++ profile.bucketWeights).find? fun entry => !isWeight entry.2 with
    | some (key, value) => some (.invalidWeight key value)
    | none =>
        match profile.probabilities.find? fun entry => !isProbability entry.2 with
        | some (key, value) => some (.invalidProbability key value)
        | none => none

def check (profile : Profile) : Except ProfileError Unit :=
  match profile.fault? with
  | some fault => .error fault
  | none => .ok ()

end Profile

end Rv32Stimulus
