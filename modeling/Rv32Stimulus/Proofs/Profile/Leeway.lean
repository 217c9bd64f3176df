/-
# Proofs.Profile.Leeway -- other documents of the same profile

Every structure of a profile allows its members in any order and members that it does not know, at
each of the three levels.  Beyond that the lower ends of the memory windows and the permission
to branch backward may be left out where they have their default, and the weights may come
in another order.

The weights are all members of their object, so nothing can come in there; and since the last of two
weights with one name counts, their order is free only where no name comes twice.
-/
import Rv32Stimulus.Profile.Document
import Rv32Stimulus.Proofs.Json.Leeway
import Rv32Stimulus.Proofs.Ordered.Table

namespace Rv32Stimulus

set_option autoImplicit false

open Json (Keeps Leeway Thorough)
open Json.Shape (Lenient)

namespace WeightTable

/-- One step from a table of weights to another. -/
inductive Rewrites : Json → Json → Prop
  /-- The weights come in another order, and no name comes twice. -/
  | permute {members others : List (String × Json)} (distinct : (members.map (·.1)).Nodup)
      (perm : members.Perm others) : Rewrites (.fields members) (.fields others)

theorem read_thorough : Thorough read := Thorough.readFloat.readMap.map _

theorem read_keeps : Keeps Rewrites read := by
  rintro _ _ table ⟨distinct, perm⟩ loaded
  rename_i members others
  obtain ⟨pairs, given, made⟩ := Json.map_eq_ok.1 loaded
  have listed := Json.readMap_fields_eq_ok_iff.1 given
  obtain ⟨permuted, relisted, same⟩ := List.perm_comp_forall₂ perm.symm listed
  have names : pairs.map (·.1) = members.map (·.1) := by
    rw [← List.forall₂_eq_eq_eq, List.forall₂_map_left_iff, List.forall₂_map_right_iff]
    exact listed.flip.imp fun _ _ alike => alike.1.symm
  refine Json.map_eq_ok.2 ⟨permuted, Json.readMap_fields_eq_ok_iff.2 relisted, ?_⟩
  rw [← made]
  exact (Table.ofList_eq_of_perm (names ▸ distinct) same.symm).symm

end WeightTable

namespace ArithmeticProfile

theorem lenient : ∃ value, Lenient shape value [] :=
  ⟨_, Lenient.of mk
    |>.seq (.field _ .readFloat) (by decide)
    |>.seq (.field _ .readFloat) (by decide)
    |>.seq (.field _ .readFloat) (by decide)
    |>.seq (.field _ .readFloat) (by decide)
    |>.seq (.field _ .readFloat) (by decide)
    |>.seq (.field _ Thorough.readInt32.readList) (by decide)
    |>.seq (.field _ Thorough.readInt32.readList) (by decide)⟩

end ArithmeticProfile

namespace MemoryProfile

/-- The lower ends of the windows may be left out where they have their default. -/
def leeways : List Leeway :=
  [ { name := "small_range_min", omissible := (· = .int 4) },
    { name := "mid_range_min", omissible := (· = .int 64) },
    { name := "far_range_min", omissible := (· = .int 256) } ]

theorem lenient : ∃ value, Lenient shape value leeways :=
  ⟨_, Lenient.of ofEnds
    |>.seq (.field _ .readFloat) (by decide)
    |>.seq (.field _ .readFloat) (by decide)
    |>.seq (.field _ .readFloat) (by decide)
    |>.seq (.field _ .readFloat) (by decide)
    |>.seq (.fieldOr _ .readInt32 (by rintro _ rfl; rfl)) (by decide)
    |>.seq (.field _ .readInt32) (by decide)
    |>.seq (.fieldOr _ .readInt32 (by rintro _ rfl; rfl)) (by decide)
    |>.seq (.field _ .readInt32) (by decide)
    |>.seq (.fieldOr _ .readInt32 (by rintro _ rfl; rfl)) (by decide)
    |>.seq (.field _ .readInt32) (by decide)⟩

end MemoryProfile

namespace UpperProfile

theorem lenient : ∃ value, Lenient shape value [] :=
  ⟨_, Lenient.of mk
    |>.seq (.field _ .readFloat) (by decide)
    |>.seq (.field _ Thorough.readUInt64.readList) (by decide)⟩

end UpperProfile

namespace ImmediateProfile

def leeways : List Leeway :=
  [ { name := "arith", rewrites := Json.Rewrites ArithmeticProfile.shape [] },
    { name := "memory_offset", rewrites := Json.Rewrites MemoryProfile.shape MemoryProfile.leeways },
    { name := "upper20", rewrites := Json.Rewrites UpperProfile.shape [] } ]

theorem lenient : ∃ value, Lenient shape value leeways := by
  obtain ⟨_, arithmetic⟩ := ArithmeticProfile.lenient
  obtain ⟨_, memory⟩ := MemoryProfile.lenient
  obtain ⟨_, upper⟩ := UpperProfile.lenient
  exact ⟨_, Lenient.of mk
    |>.seq (arithmetic.inside _ _) (by decide)
    |>.seq (memory.inside _ _) (by decide)
    |>.seq (upper.inside _ _) (by decide)⟩

end ImmediateProfile

namespace BranchProfile

/-- Branching backward is permitted where nothing is said. -/
def leeways : List Leeway :=
  [{ name := "allow_backward", omissible := (· = .bool true) }]

theorem lenient : ∃ value, Lenient shape value leeways :=
  ⟨_, Lenient.of mk
    |>.seq (.field _ .readFloat) (by decide)
    |>.seq (.field _ .readFloat) (by decide)
    |>.seq (.field _ .readFloat) (by decide)
    |>.seq (.field _ .readUInt32) (by decide)
    |>.seq (.field _ .readUInt32) (by decide)
    |>.seq (.field _ .readUInt32) (by decide)
    |>.seq (.fieldOr _ .readBool (by rintro _ rfl; rfl)) (by decide)⟩

end BranchProfile

namespace HazardProfile

theorem lenient : ∃ value, Lenient shape value [] :=
  ⟨_, Lenient.of mk
    |>.seq (.field _ .readFloat) (by decide)
    |>.seq (.field _ .readFloat) (by decide)
    |>.seq (.field _ .readFloat) (by decide)⟩

end HazardProfile

namespace RegisterProfile

theorem lenient : ∃ value, Lenient shape value [] :=
  ⟨_, Lenient.of mk
    |>.seq (.field _ .readFloat) (by decide)
    |>.seq (.field _ .readFloat) (by decide)⟩

end RegisterProfile

namespace Profile

def leeways : List Leeway :=
  [ { name := "weights", rewrites := WeightTable.Rewrites },
    { name := "immediates", rewrites := Json.Rewrites ImmediateProfile.shape ImmediateProfile.leeways },
    { name := "branch_offsets", rewrites := Json.Rewrites BranchProfile.shape BranchProfile.leeways },
    { name := "hazards", rewrites := Json.Rewrites HazardProfile.shape [] },
    { name := "register_policy", rewrites := Json.Rewrites RegisterProfile.shape [] },
    { name := "loops", rewrites := Json.Rewrites loopShape [] } ]

theorem lenient : ∃ value, Lenient shape value leeways := by
  have loops : Lenient loopShape _ [] := .field "max_backward_depth" .readUInt32
  obtain ⟨_, immediates⟩ := ImmediateProfile.lenient
  obtain ⟨_, branches⟩ := BranchProfile.lenient
  obtain ⟨_, hazards⟩ := HazardProfile.lenient
  obtain ⟨_, registers⟩ := RegisterProfile.lenient
  exact ⟨_, Lenient.of mk
    |>.seq (.nested _ WeightTable.read_thorough WeightTable.read_keeps) (by decide)
    |>.seq (immediates.inside _ _) (by decide)
    |>.seq (branches.inside _ _) (by decide)
    |>.seq (hazards.inside _ _) (by decide)
    |>.seq (registers.inside _ _) (by decide)
    |>.seq (loops.inside _ _) (by decide)⟩

/-- One step from a document to another for the same profile. -/
abbrev Rewrites : Json → Json → Prop := Json.Rewrites shape leeways

theorem read_thorough : Thorough read := by
  obtain ⟨_, lenient⟩ := lenient
  exact lenient.reader_thorough _

theorem read_keeps : Keeps Rewrites read := by
  obtain ⟨_, lenient⟩ := lenient
  exact lenient.reader_keeps _

theorem ofText_eq_ok_iff {content : String} {profile : Profile} :
    ofText content = .ok profile ↔ Json.document read content = .ok profile ∧ profile.check = .ok () := by
  rw [ofText]
  cases Json.document read content with
  | error problem => simp
  | ok loaded =>
      dsimp only
      constructor
      · intro accepted
        split at accepted
        · cases accepted
        · rename_i sound
          obtain rfl := Except.ok.inj accepted
          exact ⟨rfl, sound⟩
      · rintro ⟨same, sound⟩
        obtain rfl := Except.ok.inj same
        rw [sound]

end Profile

end Rv32Stimulus
