/-
# Proofs.Profile.Check -- what a checked profile holds

A check goes through the `places` of a profile in their order and stops at the first that is not
sound.  No float of a profile is left out: what `floats` takes from the structures of a profile,
field by field, are the values of the places (`floats_eq`).  So each float of a checked
profile is a number that is not negative.

The names that faults give values outside the table are their paths in the document
(`bucketWeights_at`, `probabilities_at`).
-/
import Rv32Stimulus.Profile.Document
import Rv32Stimulus.Proofs.Binary64.Nonnegative
import Rv32Stimulus.Proofs.Text.Utf8

namespace Rv32Stimulus

set_option autoImplicit false

open Binary64 (Worth)

/-! ## Paths in documents -/

namespace Json

/-- The first member of that name. -/
def member? (tree : Json) (name : String) : Option Json :=
  match tree with
  | .object members => members.findSome? fun member =>
      match member with
      | (.string (some other), value) => if other = name then some value else none
      | _ => none
  | _ => none

/-- What stands at a path of names. -/
def at? (tree : Json) (path : List String) : Option Json := path.foldlM member? tree

end Json

namespace Profile

def bucketPaths : List (List String) :=
  [ ["immediates", "arith", "small"], ["immediates", "arith", "boundary"],
    ["immediates", "arith", "medium"], ["immediates", "arith", "random_full"],
    ["immediates", "arith", "special_pattern"], ["immediates", "memory_offset", "near_zero"],
    ["immediates", "memory_offset", "small_range"], ["immediates", "memory_offset", "mid_range"],
    ["immediates", "memory_offset", "far_range"], ["branch_offsets", "near"],
    ["branch_offsets", "mid"], ["branch_offsets", "far"] ]

def probabilityPaths : List (List String) :=
  [ ["immediates", "upper20", "symbolic_fraction"], ["hazards", "raw_dependency_prob"],
    ["hazards", "waw_repeat_prob"], ["hazards", "load_use_prob"],
    ["register_policy", "sp_usage_fraction_in_memory_ops"],
    ["register_policy", "ra_usage_fraction_in_jal"] ]

/-- Each bucket weight is called by its path in the document of the profile. -/
theorem bucketWeights_at (profile : Profile) :
    (profile.bucketWeights.map fun entry => (entry.1, some (Json.float entry.2))) =
      bucketPaths.map fun path => (".".intercalate path, profile.toJson.at? path) := rfl

theorem probabilities_at (profile : Profile) :
    (profile.probabilities.map fun entry => (entry.1, some (Json.float entry.2))) =
      probabilityPaths.map fun path => (".".intercalate path, profile.toJson.at? path) := rfl

end Profile

/-! ## Sound values -/

/-- A value that is checked, by the name that faults give it. -/
inductive Place where
  | weight (key : String) (value : Float)
  | probability (key : String) (value : Float)

namespace Place

def value : Place → Float
  | weight _ value => value
  | probability _ value => value

/-- The value is what it is to be: a finite number that is at least zero, or one in `[0, 1]`. -/
def Sound : Place → Prop
  | weight _ value => value.isFinite = true ∧ 0.0 ≤ value
  | probability _ value => 0.0 ≤ value ∧ value ≤ 1.0

instance : DecidablePred Sound
  | weight _ value => inferInstanceAs (Decidable (value.isFinite = true ∧ 0.0 ≤ value))
  | probability _ value => inferInstanceAs (Decidable (0.0 ≤ value ∧ value ≤ 1.0))

/-- The fault of a place that is not sound. -/
def fault : Place → ProfileError
  | weight key value => .invalidWeight key value
  | probability key value => .invalidProbability key value

variable {place : Place}

theorem decide_sound_weight (key : String) (value : Float) :
    decide (weight key value).Sound = isWeight value := by
  rw [Bool.eq_iff_iff, decide_eq_true_iff, isWeight, Bool.and_eq_true, decide_eq_true_iff, Sound]

theorem decide_sound_probability (key : String) (value : Float) :
    decide (probability key value).Sound = isProbability value := by
  rw [Bool.eq_iff_iff, decide_eq_true_iff, isProbability, Bool.and_eq_true, decide_eq_true_iff,
    decide_eq_true_iff, Sound]

/-- A sound value is a number that is not negative. -/
theorem worth_of_sound (sound : place.Sound) : ∃ number, Worth place.value number := by
  cases place with
  | weight key value =>
      obtain ⟨finite, nonneg⟩ := sound
      rcases Binary64.worth_of_nonneg nonneg with worth | infinite
      · exact worth
      · change value.toModel.unpack.isFinite = true at finite
        rw [infinite] at finite
        cases finite
  | probability key value =>
      obtain ⟨nonneg, below⟩ := sound
      obtain ⟨number, worth, -⟩ := Binary64.worth_of_le nonneg Binary64.worth_one below
      exact ⟨number, worth⟩

theorem not_sound_of_isNaN (notNumber : place.value.isNaN = true) : ¬place.Sound := by
  intro sound
  obtain ⟨number, worth⟩ := worth_of_sound sound
  rw [worth.isNaN_eq_false] at notNumber
  cases notNumber

theorem not_sound_of_isInf (infinite : place.value.isInf = true) : ¬place.Sound := by
  intro sound
  obtain ⟨number, worth⟩ := worth_of_sound sound
  rw [worth.isInf_eq_false] at infinite
  cases infinite

theorem sound_of_negative_zero (zero : place.value = -0.0) : place.Sound := by
  cases place with
  | weight key value =>
      obtain rfl : value = -0.0 := zero
      exact ⟨rfl, by decide⟩
  | probability key value =>
      obtain rfl : value = -0.0 := zero
      exact ⟨by decide, by decide⟩

end Place

namespace Profile

/-- All places of a profile in the order of the check. -/
def places (profile : Profile) : List Place :=
  (profile.weights.entries.map fun entry => Place.weight entry.1 entry.2) ++
  [ Place.weight "immediates.arith.small" profile.immediates.arithmetic.small,
    Place.weight "immediates.arith.boundary" profile.immediates.arithmetic.boundary,
    Place.weight "immediates.arith.medium" profile.immediates.arithmetic.medium,
    Place.weight "immediates.arith.random_full" profile.immediates.arithmetic.randomFull,
    Place.weight "immediates.arith.special_pattern" profile.immediates.arithmetic.specialPattern,
    Place.weight "immediates.memory_offset.near_zero" profile.immediates.memory.nearZero,
    Place.weight "immediates.memory_offset.small_range" profile.immediates.memory.smallRange,
    Place.weight "immediates.memory_offset.mid_range" profile.immediates.memory.midRange,
    Place.weight "immediates.memory_offset.far_range" profile.immediates.memory.farRange,
    Place.weight "branch_offsets.near" profile.branches.near,
    Place.weight "branch_offsets.mid" profile.branches.mid,
    Place.weight "branch_offsets.far" profile.branches.far,
    Place.probability "immediates.upper20.symbolic_fraction" profile.immediates.upper.symbolicFraction,
    Place.probability "hazards.raw_dependency_prob" profile.hazards.rawDependency,
    Place.probability "hazards.waw_repeat_prob" profile.hazards.wawRepeat,
    Place.probability "hazards.load_use_prob" profile.hazards.loadUse,
    Place.probability "register_policy.sp_usage_fraction_in_memory_ops" profile.registers.stackBase,
    Place.probability "register_policy.ra_usage_fraction_in_jal" profile.registers.linkInJump ]

theorem places_eq (profile : Profile) :
    profile.places =
      ((profile.weights.entries ++ profile.bucketWeights).map fun entry => .weight entry.1 entry.2) ++
        profile.probabilities.map fun entry => .probability entry.1 entry.2 := by
  rw [places, List.map_append, List.append_assoc]
  rfl

/-- Every float of a profile: the fields that are left out hold none. -/
def floats : Profile → List Float
  | { weights
      immediates :=
        { arithmetic :=
            { small, boundary, medium, randomFull, specialPattern
              boundaryValues := (_ : List Int32), specialValues := (_ : List Int32) }
          memory :=
            { nearZero, smallRange, midRange, farRange
              small := ⟨(_ : Int32), (_ : Int32)⟩, mid := ⟨(_ : Int32), (_ : Int32)⟩
              far := ⟨(_ : Int32), (_ : Int32)⟩ }
          upper := { symbolicFraction, symbolicBases := (_ : List UInt64) } }
      branches :=
        { near, mid, far, nearMaxBytes := (_ : UInt32), midMaxBytes := (_ : UInt32)
          farMaxBytes := (_ : UInt32), allowBackward := (_ : Bool) }
      hazards := { rawDependency, wawRepeat, loadUse }
      registers := { stackBase, linkInJump }
      maxBackward := (_ : UInt32) } =>
      weights.entries.map (·.2) ++
        [ small, boundary, medium, randomFull, specialPattern, nearZero, smallRange, midRange,
          farRange, near, mid, far, symbolicFraction, rawDependency, wawRepeat, loadUse, stackBase,
          linkInJump ]

theorem floats_eq (profile : Profile) : profile.floats = profile.places.map Place.value := by
  rw [places, List.map_append, List.map_map]
  rfl

/-! ## The first fault -/

theorem find?_weights (entries : List (String × Float)) :
    (entries.map fun entry => Place.weight entry.1 entry.2).find? (fun place => !decide place.Sound) =
      (entries.find? fun entry => !isWeight entry.2).map fun entry => .weight entry.1 entry.2 := by
  have same : (fun place : Place => !decide place.Sound) ∘ (fun entry => .weight entry.1 entry.2) =
      fun entry : String × Float => !isWeight entry.2 := by
    funext entry
    exact congrArg (!·) (Place.decide_sound_weight entry.1 entry.2)
  rw [List.find?_map, same]

theorem find?_probabilities (entries : List (String × Float)) :
    (entries.map fun entry => Place.probability entry.1 entry.2).find?
        (fun place => !decide place.Sound) =
      (entries.find? fun entry => !isProbability entry.2).map
        fun entry => .probability entry.1 entry.2 := by
  have same : (fun place : Place => !decide place.Sound) ∘
      (fun entry => .probability entry.1 entry.2) =
        fun entry : String × Float => !isProbability entry.2 := by
    funext entry
    exact congrArg (!·) (Place.decide_sound_probability entry.1 entry.2)
  rw [List.find?_map, same]

theorem fault?_eq (profile : Profile) :
    profile.fault? = if profile.weights.entries = [] then some .noWeights
      else (profile.places.find? fun place => !decide place.Sound).map Place.fault := by
  rw [places_eq, List.find?_append, find?_weights, find?_probabilities, fault?]
  by_cases empty : profile.weights.entries = []
  · simp [empty, Table.isEmpty]
  · simp only [Table.isEmpty, List.isEmpty_iff, empty, if_false]
    cases (profile.weights.entries ++ profile.bucketWeights).find? fun entry => !isWeight entry.2 with
    | some entry => rfl
    | none => cases profile.probabilities.find? fun entry => !isProbability entry.2 <;> rfl

/-- The fault is the one of the first place that is not sound. -/
theorem check_eq_error_iff {profile : Profile} {fault : ProfileError} :
    profile.check = .error fault ↔
      profile.weights.entries = [] ∧ fault = .noWeights ∨
      profile.weights.entries ≠ [] ∧ ∃ before place after, profile.places = before ++ place :: after ∧
        (∀ earlier ∈ before, earlier.Sound) ∧ ¬place.Sound ∧ fault = place.fault := by
  have faults : profile.check = .error fault ↔ profile.fault? = some fault := by
    rw [check]
    cases profile.fault? <;> simp
  rw [faults, fault?_eq]
  by_cases empty : profile.weights.entries = []
  · simp [empty, eq_comm]
  · rw [if_neg empty, Option.map_eq_some_iff]
    simp only [List.find?_eq_some_iff_append, empty, false_and, false_or, ne_eq, not_false_eq_true,
      true_and]
    constructor
    · rintro ⟨place, ⟨unsound, before, after, split, sound⟩, rfl⟩
      exact ⟨before, place, after, split, by simpa using sound, by simpa using unsound, rfl⟩
    · rintro ⟨before, place, after, split, sound, unsound, rfl⟩
      exact ⟨place, ⟨by simpa using unsound, before, after, split, by simpa using sound⟩, rfl⟩

theorem check_ok_iff_sound {profile : Profile} :
    profile.check = .ok () ↔ profile.weights.entries ≠ [] ∧ ∀ place ∈ profile.places, place.Sound := by
  have faultless : profile.check = .ok () ↔ profile.fault? = none := by
    rw [check]
    cases profile.fault? <;> simp
  rw [faultless, fault?_eq]
  by_cases empty : profile.weights.entries = []
  · simp [empty]
  · simp [empty]

/-- The weights of the table are in the order of the bytes of their names. -/
theorem bytes_sorted (profile : Profile) :
    (profile.weights.entries.map fun entry => Text.bytes entry.1).Pairwise (· < ·) :=
  List.pairwise_map.2 (profile.weights.sorted.imp Text.bytes_lt)

/-- A check passes exactly if there are weights and all places are sound, and then no float of the
profile is anything but a number from zero on.  Otherwise it names the first place that is not sound:
weights of the table by the bytes of their names, then the fields in their order. -/
theorem check_covers_every_float (profile : Profile) :
    (profile.check = .ok () ↔
      profile.weights.entries ≠ [] ∧ ∀ place ∈ profile.places, place.Sound) ∧
    (profile.check = .ok () → ∀ value ∈ profile.floats,
      value.isNaN = false ∧ value.isInf = false ∧ ¬value < 0.0 ∧
        ∃ number : ℚ, 0 ≤ number ∧ Worth value number) ∧
    (∀ fault, profile.check = .error fault ↔
      profile.weights.entries = [] ∧ fault = .noWeights ∨
      profile.weights.entries ≠ [] ∧ ∃ before place after, profile.places = before ++ place :: after ∧
        (∀ earlier ∈ before, earlier.Sound) ∧ ¬place.Sound ∧ fault = place.fault) ∧
    (profile.weights.entries.map fun entry => Text.bytes entry.1).Pairwise (· < ·) ∧
    ∀ place : Place, (place.value.isNaN = true ∨ place.value.isInf = true → ¬place.Sound) ∧
      (place.value = -0.0 → place.Sound) := by
  refine ⟨check_ok_iff_sound, ?_, fun fault => check_eq_error_iff, bytes_sorted profile, ?_⟩
  · intro checked value member
    rw [floats_eq] at member
    obtain ⟨place, isPlace, rfl⟩ := List.mem_map.1 member
    obtain ⟨number, worth⟩ := Place.worth_of_sound ((check_ok_iff_sound.1 checked).2 place isPlace)
    have nonneg : 0 ≤ number := Binary64.Denotes.nonneg worth
    refine ⟨worth.isNaN_eq_false, worth.isInf_eq_false, ?_, number, nonneg, worth⟩
    rw [worth.lt_iff Binary64.worth_zero]
    exact not_lt.2 nonneg
  · intro place
    refine ⟨?_, Place.sound_of_negative_zero⟩
    rintro (notNumber | infinite)
    · exact Place.not_sound_of_isNaN notNumber
    · exact Place.not_sound_of_isInf infinite

theorem check_covers_every_float_standard :
    ∀ value ∈ standard.floats, value.isNaN = false ∧ value.isInf = false ∧ ¬value < 0.0 ∧
      ∃ number : ℚ, 0 ≤ number ∧ Worth value number :=
  (check_covers_every_float standard).2.1 (by decide +kernel)

/-- Of two bad weights and a bad probability the weight with the lesser bytes is named. -/
example : { standard with
      weights := .ofList [("é", -1.0), ("z", 0.0 / 0.0)], hazards := ⟨2.0, 0.0, 0.0⟩ }.check =
    .error (.invalidWeight "z" (0.0 / 0.0)) := by decide +kernel

end Profile

end Rv32Stimulus
