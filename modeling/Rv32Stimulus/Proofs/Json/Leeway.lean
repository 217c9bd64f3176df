/-
# Proofs.Json.Leeway -- other documents of the same structure

A structure that is written as an object may be written otherwise: `Rewrites` lists the steps.  The
members change places, members that the structure does not know come in or change their values, and
each field has a `Leeway` of its own, which rewrites its value or leaves it out.

A reader keeps its result along the steps (`Keeps`) if the fields do.  `Lenient` is this condition field
by field; it is put together the way the shape is, and the structures inside a structure
come in by the leeway of their field.

Reading the text of a document needs one thing more.  A reader is `Thorough` if it accepts only what
is JSON to its end; then the text spells a tree, and all texts of all rewritings of the tree
are read alike (`Keeps.document`).
-/
import Mathlib.Data.List.Perm.Basic
import Mathlib.Logic.Relation
import Rv32Stimulus.Proofs.Json.Grammar
import Rv32Stimulus.Proofs.Json.Read
import Rv32Stimulus.Proofs.Json.Shape

namespace Rv32Stimulus.Json

set_option autoImplicit false

variable {α : Type}

/-! ## Readers -/

/-- The reader accepts complete trees only. -/
def Thorough (reader : Reader α) : Prop :=
  ∀ tree result, reader tree = .ok result → tree.isComplete = true

/-- What the reader accepts it accepts after rewriting, with the same result. -/
def Keeps (rewrites : Json → Json → Prop) (reader : Reader α) : Prop :=
  ∀ tree other result, rewrites tree other → reader tree = .ok result → reader other = .ok result

theorem Keeps.many {rewrites : Json → Json → Prop} {reader : Reader α}
    (keeps : Keeps rewrites reader) : Keeps (Relation.ReflTransGen rewrites) reader := by
  intro tree other result steps read
  induction steps with
  | refl => exact read
  | tail _ step ih => exact keeps _ _ _ step ih

/-- All texts of all rewritings of a document are read alike. -/
theorem Keeps.document {rewrites : Json → Json → Prop} {reader : Reader α} {content : String}
    {result : α} (keeps : Keeps rewrites reader) (thorough : Thorough reader)
    (read : document reader content = .ok result) :
    (∃ tree, Spells content.toList (.value tree)) ∧
      ∀ (tree other : Json) (text : String), Spells content.toList (.value tree) →
        Relation.ReflTransGen rewrites tree other → Spells text.toList (.value other) →
          Json.document reader text = .ok result := by
  constructor
  · obtain ⟨tree, spelled, -⟩ := exists_spells_of_document (fun tree => thorough tree result) read
    exact ⟨tree, spelled⟩
  · intro tree other text spelled steps respelled
    rw [spelled.document_eq] at read
    rw [respelled.document_eq]
    exact keeps.many tree other result steps read

/-! ## Thorough readers -/

theorem areComplete_iff {items : List Json} :
    areComplete items = true ↔ ∀ item ∈ items, item.isComplete = true := by
  induction items with
  | nil => simp [areComplete]
  | cons item items ih => rw [areComplete, Bool.and_eq_true, ih, List.forall_mem_cons]

theorem membersComplete_iff {members : List (String × Json)} :
    membersComplete (memberTrees members) = true ↔ ∀ member ∈ members, member.2.isComplete = true := by
  induction members with
  | nil => simp [memberTrees, membersComplete]
  | cons member rest ih =>
      have step : membersComplete (memberTrees (member :: rest)) =
          (member.2.isComplete && membersComplete (memberTrees rest)) := rfl
      rw [step, Bool.and_eq_true, ih, List.forall_mem_cons]

namespace Thorough

variable {reader : Reader α}

/-- No array and no object is accepted, nor what is no JSON. -/
theorem of_scalar (broken : ∀ result, reader .broken ≠ .ok result)
    (array : ∀ items result, reader (.array items) ≠ .ok result)
    (object : ∀ members result, reader (.object members) ≠ .ok result) : Thorough reader := by
  intro tree result read
  cases tree with
  | broken => exact absurd read (broken result)
  | array items => exact absurd read (array items result)
  | object members => exact absurd read (object members result)
  | _ => rfl

theorem map {β : Type} (thorough : Thorough reader) (f : α → β) :
    Thorough fun tree => f <$> reader tree := by
  intro tree result read
  obtain ⟨value, given, -⟩ := map_eq_ok.1 read
  exact thorough tree value given

theorem readInteger (expected : String) (low high : Int) :
    Thorough (Json.readInteger expected low high) := .of_scalar nofun nofun nofun

theorem readInt32 : Thorough Json.readInt32 := (readInteger _ _ _).map _

theorem readUInt32 : Thorough Json.readUInt32 := (readInteger _ _ _).map _

theorem readUInt64 : Thorough Json.readUInt64 := (readInteger _ _ _).map _

theorem readFloat : Thorough Json.readFloat := .of_scalar nofun nofun nofun

theorem readBool : Thorough Json.readBool := .of_scalar nofun nofun nofun

theorem readTextAs (expected : String) : Thorough (Json.readTextAs expected) :=
  .of_scalar nofun nofun nofun

theorem readText : Thorough Json.readText := readTextAs _

theorem readList (thorough : Thorough reader) : Thorough (Json.readList reader) := by
  intro tree results read
  cases tree with
  | array items =>
      change items.mapM reader = .ok results at read
      rw [isComplete]
      induction items generalizing results with
      | nil => rfl
      | cons item items ih =>
          rw [List.mapM_cons] at read
          obtain ⟨result, first, read⟩ := bind_eq_ok.1 read
          obtain ⟨others, later, -⟩ := bind_eq_ok.1 read
          rw [areComplete, thorough item result first, ih others later]
          rfl
  | _ => cases read

theorem readMap (thorough : Thorough reader) : Thorough (Json.readMap reader) := by
  intro tree pairs read
  cases tree with
  | object entries =>
      change readMembers reader entries = .ok pairs at read
      rw [isComplete]
      induction entries generalizing pairs with
      | nil => rfl
      | cons entry entries ih =>
          obtain ⟨name, value⟩ := entry
          cases name with
          | string content =>
              cases content with
              | some content =>
                  obtain ⟨result, first, read⟩ := bind_eq_ok.1 read
                  obtain ⟨others, later, -⟩ := bind_eq_ok.1 read
                  rw [membersComplete, thorough value result first, ih others later]
                  rfl
              | none => cases read
          | _ => cases read
  | _ => cases read

theorem readVariant (choose : String → Except Problem α) : Thorough (Json.readVariant choose) := by
  intro tree result read
  cases tree with
  | object entries =>
      cases entries with
      | nil => cases read
      | cons entry rest =>
          obtain ⟨name, value⟩ := entry
          obtain ⟨content, named, read⟩ := bind_eq_ok.1 read
          obtain ⟨meaning, -, read⟩ := bind_eq_ok.1 read
          have complete := readTextAs _ name content named
          split at read
          · split at read
            · rename_i alone
              rw [List.isEmpty_iff.1 alone, isComplete, membersComplete, complete]
              rfl
            · cases read
          · cases read
  | array => cases read
  | broken => cases read
  | _ => rfl

end Thorough

/-! ## Lists and maps -/

/-- One item of an array is replaced. -/
inductive Itemwise (rewrites : Json → Json → Prop) : Json → Json → Prop
  | item {before after : List Json} {tree other : Json} (step : rewrites tree other) :
      Itemwise rewrites (.array (before ++ tree :: after)) (.array (before ++ other :: after))

theorem Keeps.list {rewrites : Json → Json → Prop} {reader : Reader α} (keeps : Keeps rewrites reader) :
    Keeps (Itemwise rewrites) (readList reader) := by
  rintro _ _ results ⟨step⟩ read
  rename_i before after tree other
  have steps (item : Json) : readList reader (.array (before ++ item :: after)) =
      (before.mapM reader).bind fun front => (reader item).bind fun result =>
        (after.mapM reader).bind fun back => .ok (front ++ result :: back) := by
    change (before ++ item :: after).mapM reader = _
    simp only [List.mapM_append, List.mapM_cons, bind_assoc, pure_bind]
    rfl
  rw [steps] at read ⊢
  obtain ⟨front, first, read⟩ := bind_eq_ok.1 read
  obtain ⟨result, given, read⟩ := bind_eq_ok.1 read
  rw [first, Except.bind, keeps tree other result step given]
  exact read

/-- The pairs of a map are the members that were read. -/
theorem readMap_fields_eq_ok_iff {reader : Reader α} {members : List (String × Json)}
    {pairs : List (String × α)} : readMap reader (fields members) = .ok pairs ↔
      List.Forall₂ (fun member pair => member.1 = pair.1 ∧ reader member.2 = .ok pair.2)
        members pairs := by
  change readMembers reader (memberTrees members) = .ok pairs ↔ _
  induction members generalizing pairs with
  | nil =>
      rw [List.forall₂_nil_left_iff]
      exact ⟨fun read => (Except.ok.inj read).symm, fun same => same ▸ rfl⟩
  | cons member rest ih =>
      change readMembers reader ((text member.1, member.2) :: memberTrees rest) = .ok pairs ↔ _
      rw [readMembers_text, List.forall₂_cons_left_iff]
      constructor
      · intro read
        obtain ⟨value, first, read⟩ := bind_eq_ok.1 read
        obtain ⟨others, later, read⟩ := bind_eq_ok.1 read
        exact ⟨_, others, ⟨rfl, first⟩, ih.1 later, (Except.ok.inj read).symm⟩
      · rintro ⟨⟨name, value⟩, others, ⟨rfl, first⟩, later, rfl⟩
        rw [first, Except.bind, ih.2 later]
        rfl

/-! ## Members of objects -/

namespace Shape

section Members

variable {shape : Shape α} {members others early late : List (String × Json)} {name : String}
  {tree : Json}

theorem Admits.lookup_eq_some_iff (admits : shape.Admits members) (declared : name ∈ shape.names) :
    members.lookup name = some tree ↔ (name, tree) ∈ members := by
  induction members with
  | nil => simp
  | cons member rest ih =>
      obtain ⟨-, apart, later⟩ := admits_cons.1 admits
      obtain ⟨first, value⟩ := member
      by_cases same : name = first
      · subst same
        have elsewhere : (name, tree) ∉ rest := fun isMember => apart _ isMember declared rfl
        simp [elsewhere, eq_comm]
      · have skipped : (name == first) = false := by simpa using same
        rw [List.lookup_cons, skipped, List.mem_cons]
        simp [ih later, same]

/-- The order of the members does not matter to declared names. -/
theorem Admits.lookup_eq_of_perm (admits : shape.Admits members) (perm : members.Perm others)
    (declared : name ∈ shape.names) : members.lookup name = others.lookup name := by
  refine Option.ext fun tree => ?_
  rw [admits.lookup_eq_some_iff declared,
    (admits_of_perm perm admits).lookup_eq_some_iff declared, perm.mem_iff]

theorem accepts_iff_of_unknown (unknown : name ∉ shape.names) :
    shape.Accepts (name, tree) ↔ tree.isComplete = true := by
  rw [Accepts, lookup_fields_eq_none unknown]

/-- One more member that the structure does not know needs only to be complete. -/
theorem admits_insert_unknown (unknown : name ∉ shape.names) :
    shape.Admits (early ++ (name, tree) :: late) ↔
      tree.isComplete = true ∧ shape.Admits (early ++ late) := by
  rw [admits_middle, admits_cons, accepts_iff_of_unknown unknown]
  exact ⟨fun ⟨complete, _, admits⟩ => ⟨complete, admits⟩,
    fun ⟨complete, admits⟩ => ⟨complete, fun _ _ declared => absurd declared unknown, admits⟩⟩

/-- Declared names are found where they were before. -/
theorem lookup_insert_unknown {declared : String} (unknown : name ∉ shape.names)
    (isName : declared ∈ shape.names) :
    (early ++ (name, tree) :: late).lookup declared = (early ++ late).lookup declared := by
  have skipped : (declared == name) = false := by
    rw [beq_eq_false_iff_ne]
    rintro rfl
    exact unknown isName
  rw [List.lookup_append, List.lookup_append, List.lookup_cons, skipped]

theorem lookup_eq_none_of_apart (apart : ∀ member ∈ members, member.1 ≠ name) :
    members.lookup name = none := by
  rw [List.lookup_eq_none_iff]
  intro member isMember
  simpa using (apart member isMember).symm

end Members

end Shape

/-! ## Rewriting -/

/-- What may be done to the value of a field. -/
structure Leeway where
  name : String
  /-- The value may be replaced by the other. -/
  rewrites : Json → Json → Prop := fun _ _ => False
  /-- The value may be left out, or put where there is none. -/
  omissible : Json → Prop := fun _ => False

/-- One step from an object to another for the same structure. -/
inductive Rewrites (shape : Shape α) (leeways : List Leeway) : Json → Json → Prop
  /-- The members come in another order. -/
  | permute {members others : List (String × Json)} (perm : members.Perm others) :
      Rewrites shape leeways (fields members) (fields others)
  /-- A member comes in that the structure does not know. -/
  | insert {early late : List (String × Json)} {name : String} {tree : Json}
      (unknown : name ∉ shape.names) (complete : tree.isComplete = true) :
      Rewrites shape leeways (fields (early ++ late)) (fields (early ++ (name, tree) :: late))
  /-- Such a member has another value. -/
  | exchange {early late : List (String × Json)} {name : String} {tree other : Json}
      (unknown : name ∉ shape.names) (complete : other.isComplete = true) :
      Rewrites shape leeways (fields (early ++ (name, tree) :: late))
        (fields (early ++ (name, other) :: late))
  | remove {early late : List (String × Json)} {leeway : Leeway} {tree : Json}
      (isLeeway : leeway ∈ leeways) (omissible : leeway.omissible tree) :
      Rewrites shape leeways (fields (early ++ (leeway.name, tree) :: late)) (fields (early ++ late))
  | add {early late : List (String × Json)} {leeway : Leeway} {tree : Json}
      (isLeeway : leeway ∈ leeways) (omissible : leeway.omissible tree)
      (missing : ∀ member ∈ early ++ late, member.1 ≠ leeway.name) :
      Rewrites shape leeways (fields (early ++ late)) (fields (early ++ (leeway.name, tree) :: late))
  | within {early late : List (String × Json)} {leeway : Leeway} {tree other : Json}
      (isLeeway : leeway ∈ leeways) (rewrites : leeway.rewrites tree other) :
      Rewrites shape leeways (fields (early ++ (leeway.name, tree) :: late))
        (fields (early ++ (leeway.name, other) :: late))

namespace Shape

open Function (update)

/-- The fields of the structure, which is `value` of them, allow all that the leeways allow. -/
structure Lenient (shape : Shape α) (value : Finder → Except Problem α) (leeways : List Leeway) : Prop
    extends ByName shape value where
  distinct : shape.names.Nodup
  thorough : ∀ field ∈ shape.fields, ∀ tree, field.2 tree = .ok () → tree.isComplete = true
  declared : ∀ leeway ∈ leeways, leeway.name ∈ shape.names
  rewritten : ∀ leeway ∈ leeways, ∀ find tree other result, leeway.rewrites tree other →
    value (update find leeway.name (some tree)) = .ok result →
      value (update find leeway.name (some other)) = .ok result
  omitted : ∀ leeway ∈ leeways, ∀ find tree, leeway.omissible tree →
    value (update find leeway.name (some tree)) = value (update find leeway.name none)

/-- Only what stands under declared names matters. -/
theorem ByName.update_of_unknown {shape : Shape α} {value : Finder → Except Problem α}
    (byName : ByName shape value) {name : String} (unknown : name ∉ shape.names) (find : Finder)
    (tree? : Option Json) : value (update find name tree?) = value find :=
  byName.depends _ _ fun other isName => by
    have different : other ≠ name := fun same => unknown (same ▸ isName)
    exact Function.update_of_ne different ..

namespace Lenient

theorem of (result : α) : Lenient (Shape.of result) (fun _ => .ok result) [] where
  toByName := .of result
  distinct := .nil
  thorough := nofun
  declared := nofun
  rewritten := nofun
  omitted := nofun

section Slot

variable {shape : Shape α} {absent : Except Problem α} {name : String} {reader : Reader α}

theorem discard_eq_ok {ε : Type} {first : Except ε α} :
    discard first = .ok () ↔ ∃ result, first = .ok result := by
  cases first <;> simp [discard, Functor.discard, Functor.mapConst, Except.map]

/-- A shape with one field and its leeway. -/
theorem of_slot (byName : ByName shape (slot absent name reader))
    (fields : shape.fields = [(name, fun tree => discard (reader tree))]) (thorough : Thorough reader)
    (rewrites : Json → Json → Prop) (keeps : Keeps rewrites reader)
    (omissible : Json → Prop) (default : ∀ tree, omissible tree → reader tree = absent) :
    Lenient shape (slot absent name reader) [{ name, rewrites, omissible }] where
  toByName := byName
  distinct := by simp [names, fields]
  thorough := by
    rw [fields]
    intro field isField tree checked
    obtain rfl := List.mem_singleton.1 isField
    obtain ⟨result, read⟩ := discard_eq_ok.1 checked
    exact thorough tree result read
  declared leeway isLeeway := by
    obtain rfl := List.mem_singleton.1 isLeeway
    simp [names, fields]
  rewritten leeway isLeeway find tree other result allowed read := by
    obtain rfl := List.mem_singleton.1 isLeeway
    rw [slot_update_self] at read ⊢
    exact keeps tree other result allowed read
  omitted leeway isLeeway find tree allowed := by
    obtain rfl := List.mem_singleton.1 isLeeway
    rw [slot_update_self, default tree allowed]
    simp [slot]

/-- Leeway that is not taken. -/
theorem none {value : Finder → Except Problem α} {leeways : List Leeway}
    (lenient : Lenient shape value leeways) : Lenient shape value [] :=
  { lenient with declared := nofun, rewritten := nofun, omitted := nofun }

/-- A field that is written as it is. -/
theorem field (name : String) (thorough : Thorough reader) :
    Lenient (Shape.field name reader) (required name reader) [] :=
  (of_slot (.field name reader) rfl thorough (fun _ _ => False) nofun (fun _ => False) nofun).none

/-- A field whose value is rewritten. -/
theorem nested (name : String) (thorough : Thorough reader) {rewrites : Json → Json → Prop}
    (keeps : Keeps rewrites reader) :
    Lenient (Shape.field name reader) (required name reader) [{ name, rewrites }] :=
  of_slot (.field name reader) rfl thorough rewrites keeps _ nofun

/-- A field whose default may be written or not. -/
theorem fieldOr {default : α} (name : String) (thorough : Thorough reader) {omissible : Json → Prop}
    (read : ∀ tree, omissible tree → reader tree = .ok default) :
    Lenient (Shape.fieldOr default name reader) (optional default name reader)
      [{ name, omissible }] :=
  of_slot (.fieldOr default name reader) rfl thorough _ nofun omissible read

end Slot

section Seq

variable {β : Type} {left : Shape (α → β)} {right : Shape α} {make : Finder → Except Problem (α → β)}
  {value : Finder → Except Problem α} {early late : List Leeway}

/-- The leeways of the fields of two shapes, which have different names. -/
theorem seq (first : Lenient left make early) (second : Lenient right value late)
    (fresh : ∀ name ∈ right.names, name ∉ left.names) :
    Lenient (left <*> right) (fun find => make find <*> value find) (early ++ late) where
  toByName := first.toByName.seq second.toByName fresh
  distinct := by
    rw [names_seq]
    exact List.nodup_append.2 ⟨first.distinct, second.distinct,
      fun _ isLeft _ isRight same => fresh _ isRight (same ▸ isLeft)⟩
  thorough field isField := by
    rcases List.mem_append.1 isField with isField | isField
    · exact first.thorough field isField
    · exact second.thorough field isField
  declared leeway isLeeway := by
    rw [names_seq, List.mem_append]
    exact (List.mem_append.1 isLeeway).imp (first.declared leeway) (second.declared leeway)
  rewritten leeway isLeeway find tree other result allowed read := by
    obtain ⟨made, last, making, taking, same⟩ := seq_eq_ok.1 read
    rcases List.mem_append.1 isLeeway with isLeeway | isLeeway
    · have elsewhere : leeway.name ∉ right.names := fun isName =>
        fresh _ isName (first.declared leeway isLeeway)
      have kept := first.rewritten leeway isLeeway find tree other made allowed making
      rw [second.update_of_unknown elsewhere] at taking
      exact seq_eq_ok.2 ⟨made, last, kept, (second.update_of_unknown elsewhere ..).trans taking, same⟩
    · have elsewhere : leeway.name ∉ left.names := fresh _ (second.declared leeway isLeeway)
      have kept := second.rewritten leeway isLeeway find tree other last allowed taking
      rw [first.update_of_unknown elsewhere] at making
      exact seq_eq_ok.2 ⟨made, last, (first.update_of_unknown elsewhere ..).trans making, kept, same⟩
  omitted leeway isLeeway find tree allowed := by
    rcases List.mem_append.1 isLeeway with isLeeway | isLeeway
    · have elsewhere : leeway.name ∉ right.names := fun isName =>
        fresh _ isName (first.declared leeway isLeeway)
      simp only [first.omitted leeway isLeeway find tree allowed, second.update_of_unknown elsewhere]
    · have elsewhere : leeway.name ∉ left.names := fresh _ (second.declared leeway isLeeway)
      simp only [second.omitted leeway isLeeway find tree allowed, first.update_of_unknown elsewhere]

end Seq

section Reading

variable {shape : Shape α} {value : Finder → Except Problem α} {leeways : List Leeway}

theorem reader_keeps (lenient : Lenient shape value leeways) (title : String) :
    Keeps (Rewrites shape leeways) (shape.reader title) := by
  intro tree other result step read
  cases step with
  | permute perm =>
      obtain ⟨admits, valued⟩ := (lenient.reader_fields title).1 read
      refine (lenient.reader_fields title).2 ⟨admits_of_perm perm admits, ?_⟩
      rw [← valued]
      exact lenient.depends _ _ fun name isName => (admits.lookup_eq_of_perm perm isName).symm
  | insert unknown complete =>
      obtain ⟨admits, valued⟩ := (lenient.reader_fields title).1 read
      refine (lenient.reader_fields title).2
        ⟨(admits_insert_unknown unknown).2 ⟨complete, admits⟩, ?_⟩
      rw [← valued]
      exact lenient.depends _ _ fun name isName => lookup_insert_unknown unknown isName
  | exchange unknown complete =>
      obtain ⟨admits, valued⟩ := (lenient.reader_fields title).1 read
      refine (lenient.reader_fields title).2
        ⟨(admits_insert_unknown unknown).2 ⟨complete, ((admits_insert_unknown unknown).1 admits).2⟩, ?_⟩
      rw [← valued]
      exact lenient.depends _ _ fun name isName =>
        (lookup_insert_unknown unknown isName).trans (lookup_insert_unknown unknown isName).symm
  | remove isLeeway omissible =>
      obtain ⟨⟨admits, apart⟩, valued⟩ :=
        (lenient.reader_insert title (lenient.declared _ isLeeway)).1 read
      refine (lenient.reader_fields title).2 ⟨admits, ?_⟩
      rwa [lenient.omitted _ isLeeway _ _ omissible,
        Function.update_eq_self_iff.2 (lookup_eq_none_of_apart apart).symm] at valued
  | add isLeeway omissible missing =>
      obtain ⟨admits, valued⟩ := (lenient.reader_fields title).1 read
      refine (lenient.reader_insert title (lenient.declared _ isLeeway)).2 ⟨⟨admits, missing⟩, ?_⟩
      rwa [lenient.omitted _ isLeeway _ _ omissible,
        Function.update_eq_self_iff.2 (lookup_eq_none_of_apart missing).symm]
  | within isLeeway rewrites =>
      obtain ⟨inOrder, valued⟩ := (lenient.reader_insert title (lenient.declared _ isLeeway)).1 read
      exact (lenient.reader_insert title (lenient.declared _ isLeeway)).2
        ⟨inOrder, lenient.rewritten _ isLeeway _ _ _ _ rewrites valued⟩

theorem isComplete_of_field (lenient : Lenient shape value leeways) {name : String} {tree : Json}
    {check : Json → Except Problem Unit} (isField : shape.fields.lookup name = some check)
    (checked : check tree = .ok ()) : tree.isComplete = true := by
  obtain ⟨before, after, split_, -⟩ := List.lookup_eq_some_iff.1 isField
  exact lenient.thorough (name, check) (by simp [split_]) tree checked

/-- Structures in either form are read to their end. -/
theorem reader_thorough (lenient : Lenient shape value leeways) (title : String) :
    Thorough (shape.reader title) := by
  intro tree result read
  cases tree with
  | object given =>
      obtain ⟨members, rfl, admits, -⟩ := (lenient.reader_object title).1 read
      rw [isComplete, membersComplete_iff]
      intro member isMember
      have accepted := admits.values member isMember
      rw [Accepts] at accepted
      split at accepted
      · rename_i check isField
        exact lenient.isComplete_of_field isField accepted
      · exact accepted
  | array items =>
      obtain ⟨short, valued⟩ := (lenient.reader_array title).1 read
      rw [isComplete, areComplete_iff]
      intro item isItem
      obtain ⟨index, within, rfl⟩ := List.mem_iff_getElem.1 isItem
      -- The item stands for the field with its index.
      have isName : shape.names[index] ∈ shape.names := List.getElem_mem _
      have found : shape.itemOf items shape.names[index] = some items[index] := by
        rw [itemOf, lenient.distinct.idxOf_getElem, List.getElem?_eq_getElem within]
      cases isField : shape.fields.lookup shape.names[index] with
      | some check =>
          exact lenient.isComplete_of_field isField
            (lenient.checks _ _ _ _ _ valued found isField)
      | none => exact absurd isName (not_mem_names isField)
  | broken => cases read
  | _ => rfl

/-- A field that is a structure. -/
theorem inside (lenient : Lenient shape value leeways) (name title : String) :
    Lenient (Shape.field name (shape.reader title)) (required name (shape.reader title))
      [{ name, rewrites := Rewrites shape leeways }] :=
  .nested name (lenient.reader_thorough title) (lenient.reader_keeps title)

end Reading

end Lenient

end Shape

end Rv32Stimulus.Json
