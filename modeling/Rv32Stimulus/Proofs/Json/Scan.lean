/-
# Proofs.Json.Scan -- reading what was written

Every tree that can be written is spelled by its indented text (`Writable.spells_prettyChars`), so the
text is read as the tree is (`document_pretty`).  Arrays and objects are by induction on what
stands behind their first item.
-/
import Rv32Stimulus.Proofs.Json.Grammar
import Rv32Stimulus.Proofs.Json.Pretty

namespace Rv32Stimulus.Json

set_option autoImplicit false

open Decimal (Numeral)

/-- Trees that stand for a JSON value. -/
inductive Writable : Json → Prop
  | null : Writable .null
  | bool (value : Bool) : Writable (.bool value)
  | number (value : Numeral) : Writable (.number value)
  | text (content : String) : Writable (.text content)
  | array {items : List Json} (each : ∀ item ∈ items, Writable item) : Writable (.array items)
  | fields {members : List (String × Json)} (each : ∀ member ∈ members, Writable member.2) :
      Writable (.fields members)

attribute [simp] Writable.null Writable.bool Writable.number Writable.text

variable {tree : Json}

theorem Writable.of_mem_object {entries : List (Json × Json)} (writable : Writable (.object entries)) :
    ∀ entry ∈ entries, Writable entry.2 := by
  generalize same : Json.object entries = tree at writable
  cases writable with
  | fields each =>
      obtain rfl := Json.object.inj same
      intro entry isEntry
      obtain ⟨member, isMember, rfl⟩ := List.mem_map.1 isEntry
      exact each member isMember
  | _ => cases same

@[simp] theorem writable_int (value : Int) : Writable (int value) := .number _

@[simp] theorem writable_fields_iff {members : List (String × Json)} :
    Writable (fields members) ↔ ∀ member ∈ members, Writable member.2 :=
  ⟨fun writable _ isMember => writable.of_mem_object _ (List.mem_map_of_mem isMember), .fields⟩

@[simp] theorem writable_array_iff {items : List Json} :
    Writable (.array items) ↔ ∀ item ∈ items, Writable item := by
  refine ⟨fun writable => ?_, .array⟩
  cases writable with
  | array each => exact each

/-! ## Tokens -/

theorem gap_lineAt (depth : Nat) : Gap (lineAt depth) := by
  intro char member
  rcases List.mem_cons.1 member with rfl | member
  · rfl
  · obtain rfl := List.eq_of_mem_replicate member
    rfl

theorem spells_chars (numeral : Numeral) : Spells numeral.chars (.value (.number numeral)) := by
  have read := numeral?_chars numeral ends_nil
  rw [List.append_nil] at read
  exact .number read

theorem length_le_length_flatMap (chars : List Char) :
    chars.length ≤ (chars.flatMap escapedChar).length := by
  have some_ (char : Char) : 0 < (escapedChar char).length := by
    unfold escapedChar
    split
    case h_8 =>
      split
      · exact Nat.zero_lt_succ _
      · exact Nat.zero_lt_succ _
    all_goals exact Nat.zero_lt_succ _
  induction chars with
  | nil => exact Nat.le_refl 0
  | cons char chars ih =>
      have first := some_ char
      rw [List.flatMap_cons, List.length_append, List.length_cons]
      omega

theorem spells_quotedText (content : String) :
    Spells (quotedText content) (.value (text content)) := by
  have long := length_le_length_flatMap content.toList
  have read := @quoted?_quotedText [] content (content.toList.flatMap escapedChar ++ ['"']).length
    (by rw [List.length_append, List.length_singleton]; omega)
  exact .string read

/-! ## Arrays -/

theorem prettyItems_singleton (depth : Nat) (item : Json) :
    prettyItems depth [item] = lineAt depth ++ prettyChars depth item := by
  rw [prettyItems]

theorem prettyItems_cons (depth : Nat) (item next : Json) (more : List Json) :
    prettyItems depth (item :: next :: more) =
      lineAt depth ++ (prettyChars depth item ++ ',' :: prettyItems depth (next :: more)) := by
  rw [prettyItems, List.append_assoc]
  exact nofun

theorem spells_prettyItems {depth : Nat} {item : Json} {more : List Json}
    (each : ∀ one ∈ item :: more, Spells (prettyChars depth one) (.value one)) :
    Spells (prettyItems depth (item :: more)) (.items (item :: more)) := by
  induction more generalizing item with
  | nil =>
      rw [prettyItems_singleton]
      exact .item ((each item List.mem_cons_self).lead (gap_lineAt depth))
  | cons next more ih =>
      obtain ⟨first, later⟩ := List.forall_mem_cons.1 each
      rw [prettyItems_cons]
      exact (Spells.items first (ih later)).lead (gap_lineAt depth)

theorem spells_array {depth : Nat} {items : List Json}
    (each : ∀ item ∈ items, Spells (prettyChars (depth + 1) item) (.value item)) :
    Spells (prettyChars depth (.array items)) (.value (.array items)) := by
  cases items with
  | nil =>
      rw [prettyChars]
      exact .emptyArray gap_nil
  | cons item more =>
      rw [prettyChars]
      exact .array ((spells_prettyItems each).trail (gap_lineAt depth))

/-! ## Objects -/

/-- The characters of a member. -/
def prettyMember (depth : Nat) (member : String × Json) : List Char :=
  lineAt depth ++ (quotedText member.1 ++ ':' :: ' ' :: prettyChars depth member.2)

theorem prettyMembers_singleton (depth : Nat) (member : String × Json) :
    prettyMembers depth (memberTrees [member]) = prettyMember depth member := by
  simp [memberTrees, prettyMembers, prettyChars_text, prettyMember]

theorem prettyMembers_more (depth : Nat) (member next : String × Json) (more : List (String × Json)) :
    prettyMembers depth (memberTrees (member :: next :: more)) =
      prettyMember depth member ++ ',' :: prettyMembers depth (memberTrees (next :: more)) := by
  simp [memberTrees, prettyMembers, prettyChars_text, prettyMember]

theorem spells_prettyMembers {depth : Nat} {member : String × Json} {more : List (String × Json)}
    (each : ∀ one ∈ member :: more, Spells (prettyChars depth one.2) (.value one.2)) :
    Spells (prettyMembers depth (memberTrees (member :: more)))
      (.members (memberTrees (member :: more))) := by
  have space : Gap [' '] := by
    intro char member
    obtain rfl := List.mem_singleton.1 member
    rfl
  induction more generalizing member with
  | nil =>
      rw [prettyMembers_singleton]
      have valued := (each member List.mem_cons_self).lead space
      exact (Spells.member (spells_quotedText member.1) valued).lead (gap_lineAt depth)
  | cons next more ih =>
      obtain ⟨first, later⟩ := List.forall_mem_cons.1 each
      have spelled :=
        Spells.members (spells_quotedText member.1) (first.lead space) (ih later)
      rw [prettyMembers_more, prettyMember, List.append_assoc, List.append_assoc]
      exact spelled.lead (gap_lineAt depth)

theorem spells_fields {depth : Nat} {members : List (String × Json)}
    (each : ∀ member ∈ members, Spells (prettyChars (depth + 1) member.2) (.value member.2)) :
    Spells (prettyChars depth (.fields members)) (.value (.fields members)) := by
  cases members with
  | nil =>
      rw [fields, List.map_nil, prettyChars]
      exact .emptyObject gap_nil
  | cons member more =>
      rw [fields, List.map_cons, prettyChars]
      exact .object ((spells_prettyMembers each).trail (gap_lineAt depth))

/-! ## Documents -/

/-- The text of a tree spells it. -/
theorem Writable.spells_prettyChars (writable : Writable tree) (depth : Nat) :
    Spells (prettyChars depth tree) (.value tree) := by
  induction writable generalizing depth with
  | null =>
      rw [prettyChars]
      exact .null
  | bool value =>
      rw [prettyChars]
      exact .bool value
  | number value =>
      rw [prettyChars]
      exact spells_chars value
  | text content =>
      rw [prettyChars_text]
      exact spells_quotedText content
  | array _ ih => exact spells_array fun item member => ih item member (depth + 1)
  | fields _ ih => exact spells_fields fun member stands => ih member stands (depth + 1)

theorem Writable.spells_pretty (writable : Writable tree) :
    Spells tree.pretty.toList (.value tree) := by
  rw [pretty, String.toList_ofList]
  exact writable.spells_prettyChars 0

/-- Reading what was written is reading the tree. -/
theorem document_pretty {α : Type} (reader : Reader α) (writable : Writable tree) :
    document reader tree.pretty = reader tree :=
  writable.spells_pretty.document_eq

end Rv32Stimulus.Json
