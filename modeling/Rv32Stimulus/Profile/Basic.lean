/-
# Profile.Basic -- what a generated program should look like

A profile weighs the classes of instructions and describes how operands, branch
distances and pipeline hazards are drawn.  Weights are relative likelihoods;
probabilities lie in `[0, 1]` in a checked profile (`Profile.check`).
-/
import Rv32Stimulus.Ordered.Table

namespace Rv32Stimulus

set_option autoImplicit false

/-- Weights by name. -/
abbrev WeightTable := Table String Float

/-- Bucket weights and value lists of 12-bit immediates. -/
structure ArithmeticProfile where
  small : Float
  boundary : Float
  medium : Float
  randomFull : Float
  specialPattern : Float
  boundaryValues : List Int32
  specialValues : List Int32
  deriving DecidableEq

/-- The memory offsets from `low` on, below `high`. -/
structure Window where
  low : Int32
  high : Int32
  deriving DecidableEq

/-- Bucket weights and windows of load and store offsets. -/
structure MemoryProfile where
  nearZero : Float
  smallRange : Float
  midRange : Float
  farRange : Float
  small : Window
  mid : Window
  far : Window
  deriving DecidableEq

/-- Upper immediates: how often they come from a list of addresses. -/
structure UpperProfile where
  symbolicFraction : Float
  symbolicBases : List UInt64
  deriving DecidableEq

structure ImmediateProfile where
  arithmetic : ArithmeticProfile
  memory : MemoryProfile
  upper : UpperProfile
  deriving DecidableEq

/-- Bucket weights and byte caps of branch and jump distances. -/
structure BranchProfile where
  near : Float
  mid : Float
  far : Float
  nearMaxBytes : UInt32
  midMaxBytes : UInt32
  farMaxBytes : UInt32
  allowBackward : Bool
  deriving DecidableEq

/-- Probabilities of the pipeline hazards. -/
structure HazardProfile where
  rawDependency : Float
  wawRepeat : Float
  loadUse : Float
  deriving DecidableEq

/-- Preferences for two registers: the stack pointer as a base, the link register in jumps. -/
structure RegisterProfile where
  stackBase : Float
  linkInJump : Float
  deriving DecidableEq

structure Profile where
  weights : WeightTable
  immediates : ImmediateProfile
  branches : BranchProfile
  hazards : HazardProfile
  registers : RegisterProfile
  /-- Most branches and jumps to an earlier position. -/
  maxBackward : UInt32
  deriving DecidableEq

namespace Profile

/-- The stock profile. -/
def standard : Profile where
  weights := .ofList
    [("alu_logic", 0.45), ("load", 0.12), ("store", 0.10), ("branch", 0.12), ("jump", 0.05),
     ("upper", 0.06), ("pseudo_nop", 0.04), ("fence", 0.03), ("ecall_ebreak", 0.03)]
  immediates :=
    { arithmetic :=
        { small := 0.2, boundary := 0.15, medium := 0.3, randomFull := 0.25, specialPattern := 0.1
          boundaryValues := [-2048, -2047, -1, 0, 1, 2046, 2047]
          specialValues := [0x555, -0x556, 0x0ff, -0x100, 0x333, 0x7f0] }
      memory :=
        { nearZero := 0.3, smallRange := 0.4, midRange := 0.2, farRange := 0.1
          small := ⟨4, 64⟩, mid := ⟨64, 256⟩, far := ⟨256, 2048⟩ }
      upper :=
        { symbolicFraction := 0.3
          symbolicBases := [0x80000000, 0x10000000, 0x20000000, 0x00010000, 0xfffff000] } }
  branches :=
    { near := 0.6, mid := 0.3, far := 0.1, nearMaxBytes := 64, midMaxBytes := 512
      farMaxBytes := 2048, allowBackward := true }
  hazards := { rawDependency := 0.3, wawRepeat := 0.1, loadUse := 0.2 }
  registers := { stackBase := 0.5, linkInJump := 0.7 }
  maxBackward := 4

end Profile

end Rv32Stimulus
