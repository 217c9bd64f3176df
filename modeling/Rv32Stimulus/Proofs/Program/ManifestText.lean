/-
# Proofs.Program.ManifestText -- manifests are read back

The document of a manifest is scanned back to its tree, and the tree gives every field what was
written for it.  Three members may be left out: without the time or a counter the manifest has
none, or zero, in this place, and everything else is as it was (`ofText_without`).

Of the weights this has to be assumed, since not every double is read back from its text.  Weights
with few digits and small powers of ten are (`ofText_text`).
-/
import Rv32Stimulus.Program.Manifest
import Rv32Stimulus.Proofs.Json.Read
import Rv32Stimulus.Proofs.Json.Scan
import Rv32Stimulus.Proofs.Json.Shape
import Rv32Stimulus.Proofs.Ordered.Table

namespace Rv32Stimulus

set_option autoImplicit false

open Json (Problem)
open Json.Shape (ByName Finder required optional required_lookup optional_lookup optional_lookup_none)

/-! ## Weights -/

namespace WeightTable

/-- Every weight is read back from what is written for it. -/
def ReadsBack (table : WeightTable) : Prop :=
  ∀ weight ∈ table.values, Json.readFloat (Json.float weight) = .ok weight

theorem read_toJson {table : WeightTable} (back : table.ReadsBack) : read table.toJson = .ok table := by
  have members : Json.readMap Json.readFloat table.toJson = .ok table.entries :=
    Json.readMap_fields fun entry member => back entry.2 (List.mem_map_of_mem member)
  rw [read, members]
  exact congrArg Except.ok table.ofList_entries

end WeightTable

namespace Json

/-- An object without the members of these names. -/
def without (absent : List String) : Json → Json
  | .object members => .object (members.filter fun member =>
      match member.1 with
      | .string (some name) => !absent.contains name
      | _ => true)
  | tree => tree

theorem without_fields (absent : List String) (members : List (String × Json)) :
    (fields members).without absent =
      fields (members.filter fun member => !absent.contains member.1) := by
  rw [fields, fields, without, List.filter_map]
  rfl

theorem lookup_filter (keep : String → Bool) (members : List (String × Json)) (name : String) :
    (members.filter fun member => keep member.1).lookup name =
      if keep name then members.lookup name else none := by
  induction members with
  | nil => simp
  | cons member rest ih =>
      obtain ⟨other, tree⟩ := member
      by_cases same : name = other
      · subst same
        cases kept : keep name <;> simp [kept, ih]
      · have different : (name == other) = false := beq_eq_false_iff_ne.2 same
        cases kept : keep other <;> simp [kept, ih, List.lookup_cons, different]

end Json

namespace Manifest

/-- What the trees under the names of the fields make together. -/
def ofNames (find : Finder) : Except Problem Manifest :=
  .ok Manifest.mk
    <*> required "generator" Json.readText find
    <*> required "version" Json.readText find
    <*> optional none "timestamp" (Json.readOption Json.readText) find
    <*> required "seed" Json.readUInt64 find
    <*> required "length" Json.readCount find
    <*> required "weights" WeightTable.read find
    <*> required "backward_branches" Json.readUInt32 find
    <*> optional 0 "offset_fallbacks" Json.readCount find
    <*> optional 0 "nop_substitutions" Json.readCount find

theorem byName : ByName shape ofNames :=
  ByName.of Manifest.mk
    |>.seq (.field _ _) (by decide)
    |>.seq (.field _ _) (by decide)
    |>.seq (.fieldOr _ _ _) (by decide)
    |>.seq (.field _ _) (by decide)
    |>.seq (.field _ _) (by decide)
    |>.seq (.field _ _) (by decide)
    |>.seq (.field _ _) (by decide)
    |>.seq (.fieldOr _ _ _) (by decide)
    |>.seq (.fieldOr _ _ _) (by decide)

/-! ## Members -/

/-- The members of the document. -/
def members (manifest : Manifest) : List (String × Json) :=
  [("generator", Json.text manifest.generator), ("version", Json.text manifest.version)] ++
  manifest.timestamp.toList.map (fun time => ("timestamp", Json.text time)) ++
  [ ("seed", Json.int manifest.seed.toNat),
    ("length", Json.int manifest.length),
    ("weights", manifest.weights.toJson),
    ("backward_branches", Json.int manifest.backwardBranches.toNat),
    ("offset_fallbacks", Json.int manifest.offsetFallbacks),
    ("nop_substitutions", Json.int manifest.nopSubstitutions) ]

theorem toJson_fields (manifest : Manifest) : manifest.toJson = Json.fields manifest.members := rfl

/-- The names of the members that a document may be without. -/
def optionalNames : List String := ["timestamp", "offset_fallbacks", "nop_substitutions"]

/-- The manifest without what these members say. -/
def without (manifest : Manifest) (absent : List String) : Manifest :=
  { manifest with
    timestamp := if "timestamp" ∈ absent then none else manifest.timestamp
    offsetFallbacks := if "offset_fallbacks" ∈ absent then 0 else manifest.offsetFallbacks
    nopSubstitutions := if "nop_substitutions" ∈ absent then 0 else manifest.nopSubstitutions }

variable {manifest : Manifest} {absent : List String}

/-- The members are in the order of the fields, and the time may be missing. -/
theorem sublist_names (manifest : Manifest) : (manifest.members.map (·.1)).Sublist shape.names := by
  have all : shape.names = ["generator", "version", "timestamp", "seed", "length", "weights",
    "backward_branches", "offset_fallbacks", "nop_substitutions"] := rfl
  rw [all]
  cases known : manifest.timestamp with
  | none =>
      have names : manifest.members.map (·.1) = ["generator", "version", "seed", "length", "weights",
        "backward_branches", "offset_fallbacks", "nop_substitutions"] := by simp [members, known]
      rw [names]
      decide
  | some time =>
      have names : manifest.members.map (·.1) = ["generator", "version", "timestamp", "seed", "length",
        "weights", "backward_branches", "offset_fallbacks", "nop_substitutions"] := by
        simp [members, known]
      rw [names]

/-- The members that are left in a document. -/
def remaining (manifest : Manifest) (absent : List String) : List (String × Json) :=
  manifest.members.filter fun member => !absent.contains member.1

theorem remaining_sublist (manifest : Manifest) (absent : List String) :
    ((manifest.remaining absent).map (·.1)).Sublist shape.names :=
  (List.filter_sublist.map _).trans manifest.sublist_names

theorem lookup_remaining {name : String} {tree : Json} (member : (name, tree) ∈ manifest.members)
    (kept : name ∉ absent) : (manifest.remaining absent).lookup name = some tree := by
  have distinct : (manifest.members.map (·.1)).Nodup := manifest.sublist_names.nodup (by decide)
  rw [remaining, Json.lookup_filter fun name => !absent.contains name]
  simp [kept, Json.Shape.lookup_of_mem distinct member]

theorem lookup_remaining_absent {name : String} (dropped : name ∈ absent) :
    (manifest.remaining absent).lookup name = none := by
  rw [remaining, Json.lookup_filter fun name => !absent.contains name]
  simp [dropped]

theorem lookup_remaining_timestamp (unknown : manifest.timestamp = none) :
    (manifest.remaining absent).lookup "timestamp" = none := by
  rw [remaining, Json.lookup_filter fun name => !absent.contains name]
  simp [members, unknown, List.lookup_cons]

/-! ## Reading -/

/-- What a program can have: lengths and counts within 64 bits, and finite weights. -/
structure Storable (manifest : Manifest) : Prop where
  length : manifest.length < 2 ^ 64
  offsetFallbacks : manifest.offsetFallbacks < 2 ^ 64
  nopSubstitutions : manifest.nopSubstitutions < 2 ^ 64
  weights : ∀ weight ∈ manifest.weights.values, weight.isFinite = true

theorem optional_timestamp :
    optional none "timestamp" (Json.readOption Json.readText) ((manifest.remaining absent).lookup ·) =
      .ok (manifest.without absent).timestamp := by
  by_cases dropped : "timestamp" ∈ absent
  · rw [optional_lookup_none (lookup_remaining_absent dropped)]
    simp [without, dropped]
  · cases known : manifest.timestamp with
    | none =>
        rw [optional_lookup_none (lookup_remaining_timestamp known)]
        simp [without, known]
    | some time =>
        have member : ("timestamp", Json.text time) ∈ manifest.members := by
          simp [members, known]
        rw [optional_lookup (lookup_remaining member dropped)]
        simp [without, dropped, known]
        rfl

/-- A counter that is left out is zero. -/
theorem optional_counter {name : String} {value : Nat} (within : value < 2 ^ 64)
    (member : (name, Json.int value) ∈ manifest.members) :
    optional 0 name Json.readCount ((manifest.remaining absent).lookup ·) =
      .ok (if name ∈ absent then 0 else value) := by
  by_cases dropped : name ∈ absent
  · rw [optional_lookup_none (lookup_remaining_absent dropped), if_pos dropped]
  · rw [optional_lookup (lookup_remaining member dropped), if_neg dropped,
      Json.readCount_int within]

theorem ofNames_remaining (storable : Storable manifest) (back : manifest.weights.ReadsBack)
    (optional_ : ∀ name ∈ absent, name ∈ optionalNames) :
    ofNames ((manifest.remaining absent).lookup ·) = .ok (manifest.without absent) := by
  have mandatory {α : Type} (name : String) (reader : Json.Reader α) (tree : Json)
      (member : (name, tree) ∈ manifest.members) (isMandatory : name ∉ optionalNames) :
      required name reader ((manifest.remaining absent).lookup ·) = reader tree :=
    required_lookup (lookup_remaining member fun dropped => isMandatory (optional_ name dropped))
  rw [ofNames,
    mandatory "generator" Json.readText (Json.text manifest.generator) (by simp [members]) (by decide),
    mandatory "version" Json.readText (Json.text manifest.version) (by simp [members]) (by decide),
    optional_timestamp,
    mandatory "seed" Json.readUInt64 (Json.int manifest.seed.toNat) (by simp [members]) (by decide),
    mandatory "length" Json.readCount (Json.int manifest.length) (by simp [members]) (by decide),
    mandatory "weights" WeightTable.read manifest.weights.toJson (by simp [members]) (by decide),
    mandatory "backward_branches" Json.readUInt32 (Json.int manifest.backwardBranches.toNat)
      (by simp [members]) (by decide),
    @optional_counter _ _ "offset_fallbacks" _ storable.offsetFallbacks (by simp [members]),
    @optional_counter _ _ "nop_substitutions" _ storable.nopSubstitutions (by simp [members]),
    Json.readUInt64_int, Json.readCount_int storable.length, WeightTable.read_toJson back,
    Json.readUInt32_int]
  rfl

theorem read_without (storable : Storable manifest) (back : manifest.weights.ReadsBack)
    (optional_ : ∀ name ∈ absent, name ∈ optionalNames) :
    read (manifest.toJson.without absent) = .ok (manifest.without absent) := by
  have sublist := manifest.remaining_sublist absent
  rw [toJson_fields, Json.without_fields]
  exact byName.reader_distinct "struct Manifest" (sublist.nodup (by decide))
    (fun member isMember => sublist.subset (List.mem_map_of_mem isMember))
    (ofNames_remaining storable back optional_)

/-! ## Texts -/

theorem writable_float (value : Float) : Json.Writable (Json.float value) := by
  rw [Json.float]
  split
  · exact .number _
  · exact .null

theorem writable_members (manifest : Manifest) : ∀ member ∈ manifest.members, Json.Writable member.2 := by
  have weights : Json.Writable manifest.weights.toJson := by
    refine .fields fun member isMember => ?_
    obtain ⟨entry, -, rfl⟩ := List.mem_map.1 isMember
    exact writable_float entry.2
  intro member isMember
  simp only [members, List.mem_append, List.mem_cons, List.mem_map, List.not_mem_nil, or_false] at isMember
  rcases isMember with ((rfl | rfl) | ⟨time, -, rfl⟩) | rfl | rfl | rfl | rfl | rfl | rfl
  · exact .text _
  · exact .text _
  · exact .text _
  · exact .number _
  · exact .number _
  · exact weights
  · exact .number _
  · exact .number _
  · exact .number _

theorem writable_without (manifest : Manifest) (absent : List String) :
    Json.Writable (manifest.toJson.without absent) := by
  rw [toJson_fields, Json.without_fields]
  exact .fields fun member isMember => manifest.writable_members member (List.mem_of_mem_filter isMember)

/-- A manifest is read back from its text, and without some of the members that may be missing it
is read as the manifest that does not have them. -/
theorem ofText_without (storable : Storable manifest) (back : manifest.weights.ReadsBack)
    (optional_ : ∀ name ∈ absent, name ∈ optionalNames) :
    ofText (manifest.toJson.without absent).pretty = .ok (manifest.without absent) := by
  rw [ofText, Json.document_pretty _ (manifest.writable_without absent)]
  exact read_without storable back optional_

/-- The whole text gives the manifest that it was written for. -/
theorem ofText_text_of_back (storable : Storable manifest) (back : manifest.weights.ReadsBack) :
    ofText manifest.text = .ok manifest := by
  have whole : manifest.toJson.without [] = manifest.toJson := by
    rw [toJson_fields, Json.without_fields]
    simp
  have read := @ofText_without manifest [] storable back (by simp)
  rw [whole] at read
  rw [text, read]
  simp [without]

/-- Of weights with few digits and small powers of ten nothing has to be assumed. -/
theorem ofText_text (storable : Storable manifest)
    (exact : ∀ weight ∈ manifest.weights.values,
      ∀ numeral ∈ Decimal.Layout.json.ofFloat? weight, numeral.IsExact) :
    ofText manifest.text = .ok manifest :=
  ofText_text_of_back storable fun weight member =>
    Json.readFloat_float (storable.weights weight member) (exact weight member)

-- The weights of the standard profile are of this kind.
example : ∀ weight ∈ Profile.standard.weights.values,
    ∀ numeral ∈ Decimal.Layout.json.ofFloat? weight, numeral.IsExact := by
  decide +kernel

/-- If every finite weight is read back from what is printed for it, a manifest is read back from the
text that is written for it.  Without the time or a counter the document gives the manifest that has
none, or zero, there and is the same everywhere else. -/
theorem text_reads_back (manifest : Manifest) (storable : Storable manifest)
    (printed : ∀ weight ∈ manifest.weights.values, weight.isFinite = true →
      Json.readFloat (Json.float weight) = .ok weight) :
    ofText manifest.text = .ok manifest ∧
      ∀ absent : List String, (∀ name ∈ absent, name ∈ optionalNames) →
        ofText (manifest.toJson.without absent).pretty = .ok { manifest with
          timestamp := if "timestamp" ∈ absent then none else manifest.timestamp
          offsetFallbacks := if "offset_fallbacks" ∈ absent then 0 else manifest.offsetFallbacks
          nopSubstitutions := if "nop_substitutions" ∈ absent then 0 else manifest.nopSubstitutions } := by
  have back : manifest.weights.ReadsBack :=
    fun weight member => printed weight member (storable.weights weight member)
  exact ⟨ofText_text_of_back storable back, fun absent optional_ => ofText_without storable back optional_⟩

/-- A manifest whose texts need escapes and whose seed is the greatest there is. -/
def escaped : Manifest where
  generator := "tab\tquote\"line\n"
  version := "\u0001é😀\\"
  timestamp := some ""
  seed := 0xffffffffffffffff
  length := 0xffffffffffffffff
  weights := .ofList [("", 0.1), ("\"", -0.0), ("ALU", 1e300)]
  backwardBranches := 0xffffffff
  offsetFallbacks := 9007199254740993
  nopSubstitutions := 0

theorem storable_escaped : Storable escaped where
  length := by decide
  offsetFallbacks := by decide
  nopSubstitutions := by decide
  weights := by decide +kernel

theorem text_reads_back_escaped :
    (∀ weight ∈ escaped.weights.values, weight.isFinite = true →
      Json.readFloat (Json.float weight) = .ok weight) ∧
    ofText escaped.text = .ok escaped ∧
      ofText (escaped.toJson.without ["timestamp", "offset_fallbacks"]).pretty =
        .ok { escaped with timestamp := none, offsetFallbacks := 0 } :=
  have printed : ∀ weight ∈ escaped.weights.values, weight.isFinite = true →
      Json.readFloat (Json.float weight) = .ok weight := by decide +kernel
  have reads := text_reads_back escaped storable_escaped printed
  ⟨printed, reads.1, reads.2 ["timestamp", "offset_fallbacks"] (by decide)⟩

end Manifest

end Rv32Stimulus
