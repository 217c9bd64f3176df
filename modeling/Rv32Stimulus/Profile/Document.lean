/-
# Profile.Document -- profiles as documents

`Profile.read` reads a profile from a tree, `Profile.ofText` reads and checks a whole
document, and `Profile.toJson` writes the tree of a profile.  Every field must be
there except the lower ends of the memory windows and the permission to branch backward.
-/
import Rv32Stimulus.Profile.Check
import Rv32Stimulus.Json.Shape

namespace Rv32Stimulus

set_option autoImplicit false

open Json (Reader Problem Shape)

/-- A table of weights; the last value of a repeated name counts. -/
def WeightTable.read : Reader WeightTable := fun tree =>
  Table.ofList <$> Json.readMap Json.readFloat tree

def WeightTable.toJson (table : WeightTable) : Json :=
  Json.fields (table.entries.map fun (name, weight) => (name, Json.float weight))

namespace ArithmeticProfile

def shape : Shape ArithmeticProfile :=
  Shape.of mk
    <*> .field "small" Json.readFloat
    <*> .field "boundary" Json.readFloat
    <*> .field "medium" Json.readFloat
    <*> .field "random_full" Json.readFloat
    <*> .field "special_pattern" Json.readFloat
    <*> .field "boundary_values" (Json.readList Json.readInt32)
    <*> .field "special_values" (Json.readList Json.readInt32)

def toJson (profile : ArithmeticProfile) : Json :=
  Json.fields
    [ ("small", Json.float profile.small),
      ("boundary", Json.float profile.boundary),
      ("medium", Json.float profile.medium),
      ("random_full", Json.float profile.randomFull),
      ("special_pattern", Json.float profile.specialPattern),
      ("boundary_values", .array (profile.boundaryValues.map fun value => Json.int value.toInt)),
      ("special_values", .array (profile.specialValues.map fun value => Json.int value.toInt)) ]

end ArithmeticProfile

namespace MemoryProfile

/-- The windows are written by their ends. -/
def ofEnds (nearZero smallRange midRange farRange : Float)
    (smallLow smallHigh midLow midHigh farLow farHigh : Int32) : MemoryProfile :=
  { nearZero, smallRange, midRange, farRange
    small := ⟨smallLow, smallHigh⟩, mid := ⟨midLow, midHigh⟩, far := ⟨farLow, farHigh⟩ }

def shape : Shape MemoryProfile :=
  Shape.of ofEnds
    <*> .field "near_zero" Json.readFloat
    <*> .field "small_range" Json.readFloat
    <*> .field "mid_range" Json.readFloat
    <*> .field "far_range" Json.readFloat
    <*> .fieldOr 4 "small_range_min" Json.readInt32
    <*> .field "small_range_max" Json.readInt32
    <*> .fieldOr 64 "mid_range_min" Json.readInt32
    <*> .field "mid_range_max" Json.readInt32
    <*> .fieldOr 256 "far_range_min" Json.readInt32
    <*> .field "far_range_max" Json.readInt32

def toJson (profile : MemoryProfile) : Json :=
  Json.fields
    [ ("near_zero", Json.float profile.nearZero),
      ("small_range", Json.float profile.smallRange),
      ("mid_range", Json.float profile.midRange),
      ("far_range", Json.float profile.farRange),
      ("small_range_min", Json.int profile.small.low.toInt),
      ("small_range_max", Json.int profile.small.high.toInt),
      ("mid_range_min", Json.int profile.mid.low.toInt),
      ("mid_range_max", Json.int profile.mid.high.toInt),
      ("far_range_min", Json.int profile.far.low.toInt),
      ("far_range_max", Json.int profile.far.high.toInt) ]

end MemoryProfile

namespace UpperProfile

def shape : Shape UpperProfile :=
  Shape.of mk
    <*> .field "symbolic_fraction" Json.readFloat
    <*> .field "symbolic_bases" (Json.readList Json.readUInt64)

def toJson (profile : UpperProfile) : Json :=
  Json.fields
    [ ("symbolic_fraction", Json.float profile.symbolicFraction),
      ("symbolic_bases", .array (profile.symbolicBases.map fun base => Json.int base.toNat)) ]

end UpperProfile

namespace ImmediateProfile

def shape : Shape ImmediateProfile :=
  Shape.of mk
    <*> .field "arith" (ArithmeticProfile.shape.reader "struct ArithImmediates")
    <*> .field "memory_offset" (MemoryProfile.shape.reader "struct MemoryOffsets")
    <*> .field "upper20" (UpperProfile.shape.reader "struct UpperImmediates")

def toJson (profile : ImmediateProfile) : Json :=
  Json.fields
    [ ("arith", profile.arithmetic.toJson),
      ("memory_offset", profile.memory.toJson),
      ("upper20", profile.upper.toJson) ]

end ImmediateProfile

namespace BranchProfile

def shape : Shape BranchProfile :=
  Shape.of mk
    <*> .field "near" Json.readFloat
    <*> .field "mid" Json.readFloat
    <*> .field "far" Json.readFloat
    <*> .field "near_max_bytes" Json.readUInt32
    <*> .field "mid_max_bytes" Json.readUInt32
    <*> .field "far_max_bytes" Json.readUInt32
    <*> .fieldOr true "allow_backward" Json.readBool

def toJson (profile : BranchProfile) : Json :=
  Json.fields
    [ ("near", Json.float profile.near),
      ("mid", Json.float profile.mid),
      ("far", Json.float profile.far),
      ("near_max_bytes", Json.int profile.nearMaxBytes.toNat),
      ("mid_max_bytes", Json.int profile.midMaxBytes.toNat),
      ("far_max_bytes", Json.int profile.farMaxBytes.toNat),
      ("allow_backward", .bool profile.allowBackward) ]

end BranchProfile

namespace HazardProfile

def shape : Shape HazardProfile :=
  Shape.of mk
    <*> .field "raw_dependency_prob" Json.readFloat
    <*> .field "waw_repeat_prob" Json.readFloat
    <*> .field "load_use_prob" Json.readFloat

def toJson (profile : HazardProfile) : Json :=
  Json.fields
    [ ("raw_dependency_prob", Json.float profile.rawDependency),
      ("waw_repeat_prob", Json.float profile.wawRepeat),
      ("load_use_prob", Json.float profile.loadUse) ]

end HazardProfile

namespace RegisterProfile

def shape : Shape RegisterProfile :=
  Shape.of mk
    <*> .field "sp_usage_fraction_in_memory_ops" Json.readFloat
    <*> .field "ra_usage_fraction_in_jal" Json.readFloat

def toJson (profile : RegisterProfile) : Json :=
  Json.fields
    [ ("sp_usage_fraction_in_memory_ops", Json.float profile.stackBase),
      ("ra_usage_fraction_in_jal", Json.float profile.linkInJump) ]

end RegisterProfile

/-- Why a text is no sound profile. -/
inductive ProfileTextError where
  | malformed (problem : Problem)
  | rejected (fault : ProfileError)
  deriving DecidableEq

def ProfileTextError.message? : ProfileTextError → Option String
  | malformed problem => problem.message?.map ("Malformed configuration document: " ++ ·)
  | rejected fault => some fault.message

namespace Profile

/-- The limit on backward branches, which documents keep in a structure of its own. -/
def loopShape : Shape UInt32 := .field "max_backward_depth" Json.readUInt32

def shape : Shape Profile :=
  Shape.of mk
    <*> .field "weights" WeightTable.read
    <*> .field "immediates" (ImmediateProfile.shape.reader "struct ImmediateConfig")
    <*> .field "branch_offsets" (BranchProfile.shape.reader "struct BranchOffsets")
    <*> .field "hazards" (HazardProfile.shape.reader "struct HazardConfig")
    <*> .field "register_policy" (RegisterProfile.shape.reader "struct RegisterPolicy")
    <*> .field "loops" (loopShape.reader "struct LoopConfig")

def read : Reader Profile := shape.reader "struct GenerationConfig"

def toJson (profile : Profile) : Json :=
  Json.fields
    [ ("weights", profile.weights.toJson),
      ("immediates", profile.immediates.toJson),
      ("branch_offsets", profile.branches.toJson),
      ("hazards", profile.hazards.toJson),
      ("register_policy", profile.registers.toJson),
      ("loops", Json.fields [("max_backward_depth", Json.int profile.maxBackward.toNat)]) ]

/-- The sound profile that a text describes. -/
def ofText (content : String) : Except ProfileTextError Profile :=
  match Json.document read content with
  | .error problem => .error (.malformed problem)
  | .ok profile =>
      match profile.check with
      | .error fault => .error (.rejected fault)
      | .ok () => .ok profile

end Profile

end Rv32Stimulus
