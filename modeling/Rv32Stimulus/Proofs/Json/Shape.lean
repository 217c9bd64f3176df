/-
# Proofs.Json.Shape -- structures by the names of their fields

A structure is what the values of its fields make of it, however it is written.  `ByName` gives that
as a function of the field names: which tree stands under a name is all that reading looks
at, whether the fields are members of an object or items of an array (`reader_fields`,
`reader_array`).  Each field is added by `ByName.field` or `ByName.fieldOr`, so the function
of a shape is put together the way the shape is.

For an object this needs that the members are in order (`Admits`): values can be read or passed over,
and no declared name comes twice.

A document with one field left open is a `Frame`.  What it reads as depends on the
tree in that place only through the field (`ByName.reader_around`).
-/
import Mathlib.Data.List.Basic
import Mathlib.Logic.Function.Basic
import Rv32Stimulus.Json.Shape
import Rv32Stimulus.Proofs.Json.Pretty

namespace Rv32Stimulus.Json

set_option autoImplicit false

/-! ## Results -/

theorem seq_eq_ok {ε α β : Type} {first : Except ε (α → β)} {second : Except ε α} {result : β} :
    first <*> second = .ok result ↔
      ∃ make value, first = .ok make ∧ second = .ok value ∧ make value = result := by
  cases first with
  | error problem => simp [Seq.seq, Except.bind]
  | ok make => cases second <;> simp [Seq.seq, Except.bind, Except.map]

theorem map_eq_ok {ε α β : Type} {f : α → β} {first : Except ε α} {result : β} :
    f <$> first = .ok result ↔ ∃ value, first = .ok value ∧ f value = result := by
  cases first <;> simp [Functor.map, Except.map]

theorem bind_eq_ok {ε α β : Type} {first : Except ε α} {next : α → Except ε β} {result : β} :
    first.bind next = .ok result ↔ ∃ value, first = .ok value ∧ next value = .ok result := by
  cases first <;> simp [Except.bind]

namespace Shape

variable {α β : Type}

/-! ## Fields by name -/

/-- The tree that stands under each name. -/
abbrev Finder := String → Option Json

/-- A field that is `absent` where nothing stands under its name. -/
def slot (absent : Except Problem α) (name : String) (reader : Reader α) (find : Finder) :
    Except Problem α :=
  match find name with
  | some tree => reader tree
  | none => absent

/-- A field that must be there. -/
abbrev required (name : String) (reader : Reader α) : Finder → Except Problem α :=
  slot (.error (.missingField name)) name reader

/-- A field that is `default` where it is absent. -/
abbrev optional (default : α) (name : String) (reader : Reader α) : Finder → Except Problem α :=
  slot (.ok default) name reader

section Slot

variable {absent : Except Problem α} {name : String} {reader : Reader α} {find : Finder}

theorem required_lookup {members : List (String × Json)} {tree : Json}
    (found : members.lookup name = some tree) :
    required name reader (members.lookup ·) = reader tree := by
  simp [slot, found]

theorem optional_lookup {members : List (String × Json)} {default : α} {tree : Json}
    (found : members.lookup name = some tree) :
    optional default name reader (members.lookup ·) = reader tree := by
  simp [slot, found]

theorem optional_lookup_none {members : List (String × Json)} {default : α}
    (missing : members.lookup name = none) :
    optional default name reader (members.lookup ·) = .ok default := by
  simp [slot, missing]

@[simp] theorem slot_update_self (tree : Json) :
    slot absent name reader (Function.update find name (some tree)) = reader tree := by
  simp [slot]

@[simp] theorem slot_update_of_ne {other : String} (different : name ≠ other) (tree? : Option Json) :
    slot absent name reader (Function.update find other tree?) = slot absent name reader find := by
  simp [slot, different]

end Slot

/-- The declared names in their order. -/
def names (shape : Shape α) : List String := shape.fields.map (·.1)

/-- Which tree stands for a field in an array of all fields. -/
def itemOf (shape : Shape α) (items : List Json) : Finder := fun name =>
  items[shape.names.idxOf name]?

/-- The shape makes of its fields what `value` makes of the trees under their names. -/
structure ByName (shape : Shape α) (value : Finder → Except Problem α) : Prop where
  named : ∀ members, shape.take (.named members) =
    (value (members.lookup ·)).map fun result => (result, .named members)
  positional : ∀ expected index items result after,
    shape.take (.positional expected index items) = .ok (result, after) ↔
      after = .positional expected (index + shape.names.length) (items.drop shape.names.length) ∧
        value (shape.itemOf items) = .ok result
  depends : ∀ find other, (∀ name ∈ shape.names, find name = other name) → value find = value other
  checks : ∀ find result name tree check, value find = .ok result → find name = some tree →
    shape.fields.lookup name = some check → check tree = .ok ()

theorem names_seq (left : Shape (α → β)) (right : Shape α) :
    (left <*> right).names = left.names ++ right.names := List.map_append

theorem lookup_fields_eq_none {shape : Shape α} {name : String} (undeclared : name ∉ shape.names) :
    shape.fields.lookup name = none := by
  rw [List.lookup_eq_none_iff]
  intro field member
  simp only [bne_iff_ne, ne_eq]
  rintro rfl
  exact undeclared (List.mem_map_of_mem member)

theorem not_mem_names {shape : Shape α} {name : String}
    (missing : shape.fields.lookup name = none) : name ∉ shape.names := by
  intro isName
  obtain ⟨field, member, rfl⟩ := List.mem_map.1 isName
  have differs := List.lookup_eq_none_iff.1 missing field member
  simp at differs

theorem seq_take_eq_ok {left : Shape (α → β)} {right : Shape α} {source after : Source} {result : β} :
    (left <*> right).take source = .ok (result, after) ↔
      ∃ make middle value, left.take source = .ok (make, middle) ∧
        right.take middle = .ok (value, after) ∧ make value = result := by
  have steps : (left <*> right).take source = (left.take source).bind fun taken =>
      (right.take taken.2).bind fun next => .ok (taken.1 next.1, next.2) := rfl
  rw [steps]
  cases first : left.take source with
  | error problem => simp [Except.bind]
  | ok taken =>
      obtain ⟨make, middle⟩ := taken
      cases second : right.take middle with
      | error problem => simp [Except.bind, second]
      | ok next =>
          obtain ⟨value, last⟩ := next
          simp [Except.bind, second, and_comm]

namespace ByName

theorem of (result : α) : ByName (Shape.of result) fun _ => .ok result where
  named _ := rfl
  positional expected index items given after := by
    simp [Shape.of, names, and_comm, eq_comm]
  depends _ _ _ := rfl
  checks _ _ _ _ _ _ _ declared := by cases declared

section Slot

variable {shape : Shape α} {absent : Except Problem α} {name : String} {reader : Reader α}

/-- A shape with one field. -/
theorem of_slot {absentAt : String → Nat → Except Problem α}
    (fields : shape.fields = [(name, fun tree => discard (reader tree))])
    (named : ∀ members, shape.take (.named members) =
      match members.lookup name with
      | some tree => (reader tree).bind fun result => .ok (result, .named members)
      | none => absent.map fun result => (result, .named members))
    (positional : ∀ expected index items, shape.take (.positional expected index items) =
      next reader (absentAt expected index) expected index items)
    (alike : ∀ expected index result, absentAt expected index = .ok result ↔ absent = .ok result) :
    ByName shape (slot absent name reader) where
  named members := by
    rw [named, slot]
    split
    · rename_i tree _
      cases reader tree <;> rfl
    · rfl
  positional expected index items result after := by
    have first : shape.itemOf items name = items[0]? := by simp [itemOf, names, fields]
    rw [positional, slot, first]
    cases items with
    | nil =>
        have same := alike expected index result
        cases missing : absentAt expected index with
        | error problem =>
            have never := same.not.1 (by simp [missing])
            simp [next, never, bind, Except.bind]
        | ok default =>
            simp [next, missing, names, fields, bind, Except.bind, ← same, and_comm, eq_comm]
    | cons item rest =>
        cases read : reader item <;>
          simp [next, read, names, fields, bind, Except.bind, and_comm, eq_comm]
  depends find other same := by
    rw [slot, slot, same name (by simp [names, fields])]
  checks find result other tree check taken found declared := by
    rw [fields, List.lookup_cons] at declared
    split at declared
    · rename_i same
      obtain rfl := eq_of_beq same
      obtain rfl := Option.some.inj declared
      have read : reader tree = .ok result := by simpa [slot, found] using taken
      change discard (reader tree) = .ok ()
      rw [read]
      rfl
    · cases declared

theorem field (name : String) (reader : Reader α) :
    ByName (Shape.field name reader) (required name reader) :=
  of_slot rfl (fun _ => rfl) (fun _ _ _ => rfl) (by simp)

theorem fieldOr (default : α) (name : String) (reader : Reader α) :
    ByName (Shape.fieldOr default name reader) (optional default name reader) :=
  of_slot rfl (fun _ => rfl) (fun _ _ _ => rfl) (by simp)

end Slot

section Seq

variable {left : Shape (α → β)} {right : Shape α} {make : Finder → Except Problem (α → β)}
  {value : Finder → Except Problem α}

theorem itemOf_seq_left {items : List Json} {name : String} (declared : name ∈ left.names) :
    (left <*> right).itemOf items name = left.itemOf items name := by
  rw [itemOf, itemOf, names_seq, List.idxOf_append_of_mem declared]

theorem itemOf_seq_right {items : List Json} {name : String} (fresh : name ∉ left.names) :
    (left <*> right).itemOf items name = right.itemOf (items.drop left.names.length) name := by
  rw [itemOf, itemOf, names_seq, List.idxOf_append_of_notMem fresh, List.getElem?_drop]

/-- A shape with the fields of two shapes, which have different names. -/
theorem seq (first : ByName left make) (second : ByName right value)
    (fresh : ∀ name ∈ right.names, name ∉ left.names) :
    ByName (left <*> right) fun find => make find <*> value find where
  named members := by
    have steps : (left <*> right).take (.named members) =
        (left.take (.named members)).bind fun taken =>
          (right.take taken.2).bind fun next => .ok (taken.1 next.1, next.2) := rfl
    rw [steps, first.named]
    cases make (members.lookup ·) with
    | error problem => rfl
    | ok made =>
        change (right.take (.named members)).bind _ = _
        rw [second.named]
        cases value (members.lookup ·) <;> rfl
  positional expected index items result after := by
    have front : make ((left <*> right).itemOf items) = make (left.itemOf items) :=
      first.depends _ _ fun name declared => itemOf_seq_left declared
    have back : value ((left <*> right).itemOf items) =
        value (right.itemOf (items.drop left.names.length)) :=
      second.depends _ _ fun name declared => itemOf_seq_right (fresh name declared)
    rw [seq_take_eq_ok, seq_eq_ok, front, back, names_seq, List.length_append, ← List.drop_drop,
      ← Nat.add_assoc]
    constructor
    · rintro ⟨made, middle, taken, begun, finished, same⟩
      obtain ⟨rfl, making⟩ := (first.positional _ _ _ _ _).1 begun
      obtain ⟨rfl, taking⟩ := (second.positional _ _ _ _ _).1 finished
      exact ⟨rfl, made, taken, making, taking, same⟩
    · rintro ⟨rfl, made, taken, making, taking, same⟩
      exact ⟨made, _, taken, (first.positional _ _ _ _ _).2 ⟨rfl, making⟩,
        (second.positional _ _ _ _ _).2 ⟨rfl, taking⟩, same⟩
  depends find other same := by
    rw [names_seq] at same
    rw [first.depends find other fun name declared => same name (List.mem_append_left _ declared),
      second.depends find other fun name declared => same name (List.mem_append_right _ declared)]
  checks find result name tree check taken found declared := by
    obtain ⟨made, last, making, taking, -⟩ := seq_eq_ok.1 taken
    have fields : (left <*> right).fields = left.fields ++ right.fields := rfl
    rw [fields, List.lookup_append] at declared
    cases early : left.fields.lookup name with
    | some check =>
        rw [early] at declared
        obtain rfl := Option.some.inj declared
        exact first.checks find made name tree check making found early
    | none =>
        rw [early] at declared
        exact second.checks find last name tree check taking found declared

end Seq

end ByName

/-! ## Members of objects -/

section Members

variable {shape : Shape α} {members : List (String × Json)}

/-- The value of a declared member can be read, and the value of another can be passed over. -/
def Accepts (shape : Shape α) (member : String × Json) : Prop :=
  match shape.fields.lookup member.1 with
  | some check => check member.2 = .ok ()
  | none => member.2.isComplete = true

/-- All values are accepted, and no declared name comes again. -/
structure Admits (shape : Shape α) (members : List (String × Json)) : Prop where
  values : ∀ member ∈ members, shape.Accepts member
  once : members.Pairwise fun one other => one.1 ∈ shape.names → one.1 ≠ other.1

theorem admits_cons {member : String × Json} :
    shape.Admits (member :: members) ↔ shape.Accepts member ∧
      (∀ other ∈ members, member.1 ∈ shape.names → member.1 ≠ other.1) ∧ shape.Admits members := by
  constructor
  · rintro ⟨values, once⟩
    obtain ⟨first, later⟩ := List.forall_mem_cons.1 values
    obtain ⟨apart, rest⟩ := List.pairwise_cons.1 once
    exact ⟨first, apart, later, rest⟩
  · rintro ⟨first, apart, later, rest⟩
    exact ⟨List.forall_mem_cons.2 ⟨first, later⟩, List.pairwise_cons.2 ⟨apart, rest⟩⟩

/-- The members are in order behind members with the names in `seen`. -/
def AdmitsAfter (shape : Shape α) (seen : List String) (members : List (String × Json)) : Prop :=
  shape.Admits members ∧ ∀ member ∈ members, member.1 ∈ shape.names → member.1 ∉ seen

theorem admitsAfter_cons {seen : List String} {member : String × Json} :
    shape.AdmitsAfter seen (member :: members) ↔ shape.Accepts member ∧
      if member.1 ∈ shape.names then
        member.1 ∉ seen ∧ shape.AdmitsAfter (member.1 :: seen) members
      else shape.AdmitsAfter seen members := by
  rw [AdmitsAfter, admits_cons, List.forall_mem_cons]
  by_cases declared : member.1 ∈ shape.names
  · rw [if_pos declared]
    constructor
    · rintro ⟨⟨accepted, different, admits⟩, unseen, apart⟩
      refine ⟨accepted, unseen declared, admits, fun other isMember isName => ?_⟩
      rw [List.mem_cons, not_or]
      exact ⟨(different other isMember declared).symm, apart other isMember isName⟩
    · rintro ⟨accepted, unseen, admits, apart⟩
      refine ⟨⟨accepted, ?_, admits⟩, fun _ => unseen, fun other isMember isName early => ?_⟩
      · intro other isMember _ same
        exact apart other isMember (same ▸ declared) (same ▸ List.mem_cons_self)
      · exact apart other isMember isName (List.mem_cons_of_mem _ early)
  · rw [if_neg declared]
    constructor
    · rintro ⟨⟨accepted, -, admits⟩, -, apart⟩
      exact ⟨accepted, admits, apart⟩
    · rintro ⟨accepted, admits, apart⟩
      exact ⟨⟨accepted, fun _ _ isName => absurd isName declared, admits⟩,
        fun isName => absurd isName declared, apart⟩

theorem members_text_eq_ok {seen : List String} {name : String} {value : Json}
    {rest : List (Json × Json)} :
    shape.members seen ((text name, value) :: rest) = .ok members ↔
      ∃ others, members = (name, value) :: others ∧ shape.Accepts (name, value) ∧
        if name ∈ shape.names then name ∉ seen ∧ shape.members (name :: seen) rest = .ok others
        else shape.members seen rest = .ok others := by
  have step : shape.members seen ((text name, value) :: rest) =
      match shape.fields.lookup name with
      | some check =>
          if seen.contains name then .error (.duplicateField name)
          else (check value).bind fun _ => (shape.members (name :: seen) rest).bind fun others =>
            .ok ((name, value) :: others)
      | none =>
          if value.isComplete then (shape.members seen rest).bind fun others =>
            .ok ((name, value) :: others)
          else .error .notJson := rfl
  rw [step, Accepts]
  cases declared : shape.fields.lookup name with
  | some check =>
      have isName : name ∈ shape.names := by
        by_contra undeclared
        rw [lookup_fields_eq_none undeclared] at declared
        cases declared
      dsimp only
      by_cases again : name ∈ seen
      · simp [again, isName]
      · cases read : check value with
        | error problem => simp [again, Except.bind, isName]
        | ok _ =>
            cases shape.members (name :: seen) rest <;> simp [again, Except.bind, isName, eq_comm]
  | none =>
      have notName : name ∉ shape.names := not_mem_names declared
      dsimp only
      by_cases complete : value.isComplete = true
      · cases shape.members seen rest <;> simp [complete, Except.bind, notName, eq_comm]
      · simp [complete]

/-- A name that is no text stops the reading. -/
theorem members_of_not_text {seen : List String} {name value : Json} {rest : List (Json × Json)}
    (nameless : ∀ content, name ≠ text content) :
    shape.members seen ((name, value) :: rest) = .error .notJson := by
  cases name with
  | string content =>
      cases content with
      | some content => exact absurd rfl (nameless content)
      | none => rfl
  | _ => rfl

theorem cons_eq_memberTrees {name : String} {value : Json} {rest : List (Json × Json)} :
    (text name, value) :: rest = memberTrees members ↔
      ∃ others, members = (name, value) :: others ∧ rest = memberTrees others := by
  constructor
  · intro same
    cases members with
    | nil => cases same
    | cons member others =>
        obtain ⟨first, later⟩ := List.cons.inj same
        obtain ⟨rfl, rfl⟩ : name = member.1 ∧ value = member.2 := by
          simpa [text] using first
        exact ⟨others, rfl, later⟩
  · rintro ⟨others, rfl, rfl⟩
    rfl

/-- An object is read member by member if its members are in order. -/
theorem members_eq_ok_iff {seen : List String} {given : List (Json × Json)} :
    shape.members seen given = .ok members ↔
      given = memberTrees members ∧ shape.AdmitsAfter seen members := by
  induction given generalizing seen members with
  | nil =>
      have nothing : shape.members seen [] = .ok [] := rfl
      rw [nothing]
      constructor
      · intro same
        obtain rfl := Except.ok.inj same
        exact ⟨rfl, ⟨by simp, .nil⟩, by simp⟩
      · rintro ⟨same, -⟩
        rw [List.map_eq_nil_iff.1 same.symm]
  | cons entry rest ih =>
      obtain ⟨name, value⟩ := entry
      by_cases named : ∃ content, name = text content
      · obtain ⟨name, rfl⟩ := named
        rw [members_text_eq_ok, cons_eq_memberTrees]
        constructor
        · rintro ⟨others, rfl, accepted, later⟩
          rw [admitsAfter_cons]
          by_cases declared : name ∈ shape.names
          · rw [if_pos declared, ih] at later
            obtain ⟨unseen, split, admits⟩ := later
            exact ⟨⟨others, rfl, split⟩, accepted, by rw [if_pos declared]; exact ⟨unseen, admits⟩⟩
          · rw [if_neg declared, ih] at later
            obtain ⟨split, admits⟩ := later
            exact ⟨⟨others, rfl, split⟩, accepted, by rw [if_neg declared]; exact admits⟩
        · rintro ⟨⟨others, rfl, split⟩, admits⟩
          obtain ⟨accepted, later⟩ := admitsAfter_cons.1 admits
          refine ⟨others, rfl, accepted, ?_⟩
          by_cases declared : name ∈ shape.names
          · rw [if_pos declared] at later ⊢
            exact ⟨later.1, ih.2 ⟨split, later.2⟩⟩
          · rw [if_neg declared] at later ⊢
            exact ih.2 ⟨split, later⟩
      · have nameless : ∀ content, name ≠ text content := fun content same => named ⟨content, same⟩
        rw [members_of_not_text nameless]
        constructor
        · intro impossible
          cases impossible
        · rintro ⟨same, -⟩
          cases members with
          | nil => cases same
          | cons member others =>
              exact absurd (congrArg Prod.fst (List.cons.inj same).1) (nameless member.1)

/-- The order of the members does not matter. -/
theorem admits_of_perm {others : List (String × Json)} (perm : members.Perm others)
    (admits : shape.Admits members) : shape.Admits others where
  values member isMember := admits.values member (perm.mem_iff.2 isMember)
  once := perm.pairwise admits.once fun apart isName same => apart (same ▸ isName) same.symm

theorem admits_middle {early late : List (String × Json)} {member : String × Json} :
    shape.Admits (early ++ member :: late) ↔ shape.Admits (member :: (early ++ late)) :=
  ⟨admits_of_perm List.perm_middle, admits_of_perm List.perm_middle.symm⟩

/-- One more member with a declared name needs that no other member has the name. -/
theorem admits_insert {early late : List (String × Json)} {name : String} {tree : Json}
    (declared : name ∈ shape.names) :
    shape.Admits (early ++ (name, tree) :: late) ↔ shape.Accepts (name, tree) ∧
      shape.Admits (early ++ late) ∧ ∀ member ∈ early ++ late, member.1 ≠ name := by
  rw [admits_middle, admits_cons]
  constructor
  · rintro ⟨accepted, apart, admits⟩
    exact ⟨accepted, admits, fun member isMember => (apart member isMember declared).symm⟩
  · rintro ⟨accepted, admits, apart⟩
    exact ⟨accepted, fun member isMember _ => (apart member isMember).symm, admits⟩

theorem lookup_of_mem {name : String} {tree : Json} (distinct : (members.map (·.1)).Nodup)
    (member : (name, tree) ∈ members) : members.lookup name = some tree := by
  induction members with
  | nil => cases member
  | cons first rest ih =>
      obtain ⟨fresh, distinctRest⟩ := List.nodup_cons.1 distinct
      rcases List.mem_cons.1 member with rfl | later
      · simp
      · have other : (name == first.1) = false := by
          rw [beq_eq_false_iff_ne]
          rintro rfl
          exact fresh (List.mem_map.2 ⟨(first.1, tree), later, rfl⟩)
        rw [List.lookup_cons, other]
        exact ih distinctRest later

end Members

/-! ## Reading -/

section Reading

variable {shape : Shape α} {value : Finder → Except Problem α} {result : α}

theorem ByName.reader_object (byName : ByName shape value) (title : String)
    {given : List (Json × Json)} :
    shape.reader title (.object given) = .ok result ↔ ∃ members,
      given = memberTrees members ∧ shape.Admits members ∧ value (members.lookup ·) = .ok result := by
  have steps : shape.reader title (.object given) = (shape.members [] given).bind fun members =>
      (shape.take (.named members)).bind fun taken => .ok taken.1 := rfl
  have taking (members : List (String × Json)) :
      ((shape.take (.named members)).bind fun taken => .ok taken.1) = value (members.lookup ·) := by
    rw [byName.named]
    cases value (members.lookup ·) <;> rfl
  simp only [steps, taking]
  constructor
  · intro read
    cases checked : shape.members [] given with
    | error problem => rw [checked] at read; cases read
    | ok members =>
        rw [checked] at read
        obtain ⟨split, admits, -⟩ := members_eq_ok_iff.1 checked
        exact ⟨members, split, admits, read⟩
  · rintro ⟨members, split, admits, read⟩
    have checked : shape.members [] given = .ok members :=
      members_eq_ok_iff.2 ⟨split, admits, fun _ _ _ => List.not_mem_nil⟩
    rw [checked]
    exact read

theorem ByName.reader_fields (byName : ByName shape value) (title : String)
    {members : List (String × Json)} :
    shape.reader title (Json.fields members) = .ok result ↔
      shape.Admits members ∧ value (members.lookup ·) = .ok result := by
  have injective : Function.Injective fun member : String × Json => (text member.1, member.2) := by
    rintro ⟨name, tree⟩ ⟨other, another⟩ same
    simpa [text] using same
  refine (byName.reader_object title).trans ⟨?_, fun read => ⟨members, rfl, read⟩⟩
  rintro ⟨others, split, read⟩
  rwa [List.map_injective_iff.2 injective split]

/-- An object of declared fields that make a structure is in order if no name comes twice. -/
theorem ByName.admits (byName : ByName shape value) {members : List (String × Json)}
    (distinct : (members.map (·.1)).Nodup) (declared : ∀ member ∈ members, member.1 ∈ shape.names)
    (valued : value (members.lookup ·) = .ok result) : shape.Admits members where
  values member isMember := by
    rw [Accepts]
    split
    · rename_i check isField
      exact byName.checks _ _ _ _ _ valued (lookup_of_mem distinct isMember) isField
    · rename_i missing
      exact absurd (declared member isMember) (not_mem_names missing)
  once := by
    refine (List.pairwise_map.1 distinct).imp fun different _ => ?_
    exact different

/-- Such an object is read as the structure. -/
theorem ByName.reader_distinct (byName : ByName shape value) (title : String)
    {members : List (String × Json)} (distinct : (members.map (·.1)).Nodup)
    (declared : ∀ member ∈ members, member.1 ∈ shape.names)
    (valued : value (members.lookup ·) = .ok result) :
    shape.reader title (Json.fields members) = .ok result :=
  (byName.reader_fields title).2 ⟨byName.admits distinct declared valued, valued⟩

theorem reader_array_eq (shape : Shape α) (title : String) (items : List Json) :
    shape.reader title (.array items) =
      (shape.take (.positional (shape.expected title) 0 items)).bind fun taken =>
        match taken with
        | (value, .positional _ _ []) => .ok value
        | _ => .error .notJson := rfl

theorem ByName.reader_array (byName : ByName shape value) (title : String) {items : List Json} :
    shape.reader title (.array items) = .ok result ↔
      items.length ≤ shape.names.length ∧ value (shape.itemOf items) = .ok result := by
  rw [reader_array_eq]
  constructor
  · intro read
    cases taken : shape.take (.positional (shape.expected title) 0 items) with
    | error problem => rw [taken] at read; cases read
    | ok taken' =>
        obtain ⟨given, after⟩ := taken'
        obtain ⟨rfl, valued⟩ := (byName.positional _ _ _ _ _).1 taken
        rw [taken] at read
        cases rest : items.drop shape.names.length with
        | nil =>
            rw [rest] at read
            obtain rfl := Except.ok.inj read
            exact ⟨List.drop_eq_nil_iff.1 rest, valued⟩
        | cons item others => rw [rest] at read; cases read
  · rintro ⟨short, valued⟩
    rw [(byName.positional _ _ _ _ _).2 ⟨rfl, valued⟩, List.drop_eq_nil_of_le short]
    rfl

end Reading

/-! ## Documents around one field -/

/-- The document of a structure around one of its fields: the other members of an object, or the
other items of an array. -/
inductive Frame where
  | member (before after : List (Json × Json))
  | item (before after : List Json)

namespace Frame

/-- The document with this tree for the field. -/
def around (frame : Frame) (name : String) (tree : Json) : Json :=
  match frame with
  | member before after => .object (before ++ (text name, tree) :: after)
  | item before after => .array (before ++ tree :: after)

/-- The open place is the one of the field. -/
def Fits (frame : Frame) (shape : Shape α) (name : String) : Prop :=
  match frame with
  | member _ _ => True
  | item before _ => shape.names.idxOf name = before.length

end Frame

section Around

variable {shape : Shape α} {value : Finder → Except Problem α}

theorem lookup_insert {early late : List (String × Json)} {name : String} {tree : Json}
    (apart : ∀ member ∈ early ++ late, member.1 ≠ name) :
    ((early ++ (name, tree) :: late).lookup ·) =
      Function.update ((early ++ late).lookup ·) name (some tree) := by
  funext other
  by_cases same : other = name
  · subst same
    have missing : early.lookup other = none := by
      rw [List.lookup_eq_none_iff]
      intro member isMember
      simpa using (apart member (List.mem_append_left _ isMember)).symm
    simp [List.lookup_append, missing]
  · have skipped : (other == name) = false := by simpa using same
    simp [List.lookup_append, List.lookup_cons, skipped, same]

theorem itemOf_insert {before after : List Json} {name : String} {tree : Json}
    (place : shape.names.idxOf name = before.length) {other : String}
    (declared : other ∈ shape.names) :
    shape.itemOf (before ++ tree :: after) other =
      Function.update (shape.itemOf (before ++ .null :: after)) name (some tree) other := by
  by_cases same : other = name
  · subst same
    simp [itemOf, place]
  · have elsewhere : shape.names.idxOf other ≠ before.length := by
      intro there
      rw [← place] at there
      exact same ((List.idxOf_inj declared).1 there)
    rw [Function.update_of_ne same]
    simp only [itemOf, List.getElem?_append, List.getElem?_cons]
    have positive (late : ¬ shape.names.idxOf other < before.length) :
        shape.names.idxOf other - before.length ≠ 0 := by omega
    split <;> simp [*]

/-- An object with one more declared member is read if the member is the only one of its name. -/
theorem ByName.reader_insert (byName : ByName shape value) (title : String) {name : String}
    (declared : name ∈ shape.names) {early late : List (String × Json)} {tree : Json} {result : α} :
    shape.reader title (Json.fields (early ++ (name, tree) :: late)) = .ok result ↔
      (shape.Admits (early ++ late) ∧ ∀ member ∈ early ++ late, member.1 ≠ name) ∧
        value (Function.update ((early ++ late).lookup ·) name (some tree)) = .ok result := by
  rw [byName.reader_fields, admits_insert declared]
  constructor
  · rintro ⟨⟨-, admits, apart⟩, valued⟩
    exact ⟨⟨admits, apart⟩, lookup_insert apart ▸ valued⟩
  · rintro ⟨⟨admits, apart⟩, valued⟩
    refine ⟨⟨?_, admits, apart⟩, lookup_insert apart ▸ valued⟩
    rw [Accepts]
    split
    · rename_i check isField
      exact byName.checks _ _ _ _ _ valued (Function.update_self ..) isField
    · rename_i missing
      exact absurd declared (not_mem_names missing)

/-- What a document reads as depends on the tree of one field only through that field. -/
theorem ByName.reader_around (byName : ByName shape value) (title : String) {name : String}
    (declared : name ∈ shape.names) {frame : Frame} (fits : frame.Fits shape name) :
    ∃ (rest : Prop) (find : Finder), ∀ tree result,
      shape.reader title (frame.around name tree) = .ok result ↔
        rest ∧ value (Function.update find name (some tree)) = .ok result := by
  cases frame with
  | member before after =>
      by_cases split : ∃ early late, before = memberTrees early ∧ after = memberTrees late
      · obtain ⟨early, late, rfl, rfl⟩ := split
        refine ⟨shape.Admits (early ++ late) ∧ ∀ member ∈ early ++ late, member.1 ≠ name,
          ((early ++ late).lookup ·), fun tree result => ?_⟩
        have around : Frame.around (.member (memberTrees early) (memberTrees late)) name tree =
            Json.fields (early ++ (name, tree) :: late) := by
          simp [Frame.around, Json.fields, memberTrees]
        rw [around, byName.reader_insert title declared]
      · refine ⟨False, fun _ => none, fun tree result => ⟨fun read => ?_, fun read => read.1.elim⟩⟩
        obtain ⟨members, given, -⟩ := (byName.reader_object title).1 read
        obtain ⟨early, late, rfl, isEarly, isLate⟩ := List.append_eq_map_iff.1 given
        obtain ⟨member, others, rfl, -, isOthers⟩ := List.map_eq_cons_iff.1 isLate
        exact absurd ⟨early, others, isEarly.symm, isOthers.symm⟩ split
  | item before after =>
      refine ⟨(before ++ Json.null :: after).length ≤ shape.names.length,
        shape.itemOf (before ++ .null :: after), fun tree result => ?_⟩
      have same : value (shape.itemOf (before ++ tree :: after)) =
          value (Function.update (shape.itemOf (before ++ .null :: after)) name (some tree)) :=
        byName.depends _ _ fun other isName => itemOf_insert fits isName
      rw [Frame.around, byName.reader_array, same]
      simp

end Around

end Shape

end Rv32Stimulus.Json
