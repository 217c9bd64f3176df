/-
# Proofs.Ordered.Table -- looking up what was put in

`find?_insert`: after an insertion the key has the new value and every other key what it had
before.  A table built from keys whose values follow from the keys holds exactly those
keys (`find?_ofList_map`), no matter how often and in which order they come, and the entries of a
table make it again (`ofList_entries`).

Keys are listed once (`nodup_keys`), so an entry is what a look-up finds (`mem_entries_iff`).  Where
the keys are numbers, looking them up one after the other lists the entries (`filter_lt_succ`).
-/
import Mathlib.Data.List.Nodup
import Rv32Stimulus.Ordered.Table

namespace Rv32Stimulus.Table

set_option autoImplicit false

variable {κ ν : Type} [LT κ] [Std.Irrefl (α := κ) (· < ·)]

/-! ## Entries -/

theorem nodup_keys (table : Table κ ν) : table.keys.Nodup := by
  refine List.pairwise_map.2 (table.sorted.imp ?_)
  rintro left right below same
  exact Std.Irrefl.irrefl (r := (· < ·)) _ (same ▸ below)

variable [DecidableEq κ]

theorem mem_entries_iff {table : Table κ ν} {key : κ} {value : ν} :
    (key, value) ∈ table.entries ↔ table.find? key = some value := by
  unfold find?
  constructor
  · intro member
    cases found : table.entries.find? fun entry => entry.1 = key with
    | none =>
        have other := List.find?_eq_none.1 found _ member
        simp at other
    | some entry =>
        have isKey : entry.1 = key := by simpa using List.find?_some found
        have same : entry = (key, value) :=
          List.inj_on_of_nodup_map table.nodup_keys (List.mem_of_find?_eq_some found) member isKey
        rw [same]
        rfl
  · intro found
    obtain ⟨entry, atKey, rfl⟩ := Option.map_eq_some_iff.1 found
    have isKey : entry.1 = key := by simpa using List.find?_some atKey
    rw [← isKey]
    exact List.mem_of_find?_eq_some atKey

/-! ## Insertion -/

variable [DecidableLT κ] [Std.Trichotomous (α := κ) (· < ·)]

theorem find?_insertEntry (key other : κ) (value : ν) (entries : List (κ × ν)) :
    ((insertEntry key value entries).find? fun entry => entry.1 = other).map (·.2) =
      if key = other then some value
      else (entries.find? fun entry => entry.1 = other).map (·.2) := by
  induction entries with
  | nil =>
      rw [insertEntry, List.find?_cons]
      split <;> simp_all
  | cons head rest ih =>
      rw [insertEntry]
      split
      · rw [List.find?_cons]
        split <;> simp_all
      · split
        · rename_i above
          by_cases same : head.1 = other
          · have different : key ≠ other := by
              rintro rfl
              exact Std.Irrefl.irrefl (r := (· < ·)) _ (same ▸ above)
            simp [same, different]
          · rw [List.find?_cons_of_neg (by simpa using same), ih,
              List.find?_cons_of_neg (by simpa using same)]
        · rename_i below above
          have same : head.1 = key := Std.Trichotomous.trichotomous _ _ above below
          rw [List.find?_cons, List.find?_cons, same]
          by_cases isKey : key = other <;> simp [isKey]

variable [Trans (α := κ) (· < ·) (· < ·) (· < ·)]

theorem find?_insert (table : Table κ ν) (key other : κ) (value : ν) :
    (table.insert key value).find? other = if key = other then some value else table.find? other :=
  find?_insertEntry key other value table.entries

theorem find?_foldl_insert (name : κ → ν) (keys : List κ) (table : Table κ ν) (other : κ) :
    ((keys.map fun key => (key, name key)).foldl
      (fun table (key, value) => table.insert key value) table).find? other =
      if other ∈ keys then some (name other) else table.find? other := by
  induction keys generalizing table with
  | nil => simp
  | cons key rest ih =>
      rw [List.map_cons, List.foldl_cons, ih, find?_insert]
      by_cases later : other ∈ rest
      · simp [later]
      · by_cases same : key = other
        · simp [same]
        · simp [later, same, Ne.symm same]

/-- A table of keys with the values that belong to them. -/
theorem find?_ofList_map (name : κ → ν) (keys : List κ) (other : κ) :
    (ofList (keys.map fun key => (key, name key))).find? other =
      if other ∈ keys then some (name other) else none :=
  find?_foldl_insert name keys empty other

omit [DecidableLT κ] [Std.Trichotomous (α := κ) (· < ·)] in
/-- A table is what it finds. -/
theorem ext_find? {left right : Table κ ν} (same : ∀ key, left.find? key = right.find? key) :
    left = right := by
  have perm : left.entries.Perm right.entries := by
    refine (List.perm_ext_iff_of_nodup left.nodup_keys.of_map right.nodup_keys.of_map).2 ?_
    rintro ⟨key, value⟩
    rw [mem_entries_iff, mem_entries_iff, same]
  refine ext (perm.eq_of_pairwise ?_ left.sorted right.sorted)
  intro one other _ _ below above
  exact absurd (Trans.trans below above) (Std.Irrefl.irrefl (r := (· < ·)) _)

theorem insert_comm (table : Table κ ν) {key other : κ} (different : key ≠ other) (one two : ν) :
    (table.insert key one).insert other two = (table.insert other two).insert key one := by
  refine ext_find? fun each => ?_
  simp only [find?_insert]
  by_cases isKey : key = each
  · subst isKey
    simp [different.symm]
  · simp [isKey]

/-- Pairs with different keys make the same table in every order. -/
theorem ofList_eq_of_perm {pairs others : List (κ × ν)} (distinct : (pairs.map (·.1)).Nodup)
    (perm : pairs.Perm others) : ofList pairs = ofList others := by
  refine perm.foldl_eq' ?_ empty
  intro one isOne two isTwo table
  by_cases same : one.1 = two.1
  · rw [List.inj_on_of_nodup_map distinct isOne isTwo same]
  · exact table.insert_comm same one.2 two.2

omit [DecidableEq κ] [Std.Trichotomous (α := κ) (· < ·)] in
/-- An entry whose key is above all others goes to the end. -/
theorem insertEntry_last {key : κ} {value : ν} {entries : List (κ × ν)}
    (below : ∀ entry ∈ entries, entry.1 < key) :
    insertEntry key value entries = entries ++ [(key, value)] := by
  induction entries with
  | nil => rfl
  | cons entry rest ih =>
      obtain ⟨first, later⟩ := List.forall_mem_cons.1 below
      have notAbove : ¬key < entry.1 := fun above =>
        Std.Irrefl.irrefl (r := (· < ·)) _ (Trans.trans above first)
      rw [insertEntry, if_neg notAbove, if_pos first, ih later, List.cons_append]

omit [DecidableEq κ] [Std.Trichotomous (α := κ) (· < ·)] in
theorem foldl_insert_entries {entries : List (κ × ν)} (table : Table κ ν)
    (sorted : (table.entries ++ entries).Pairwise fun left right => left.1 < right.1) :
    (entries.foldl (fun table (key, value) => table.insert key value) table).entries =
      table.entries ++ entries := by
  induction entries generalizing table with
  | nil => simp
  | cons entry rest ih =>
      have below : ∀ other ∈ table.entries, other.1 < entry.1 := fun other member =>
        (List.pairwise_append.1 sorted).2.2 other member entry List.mem_cons_self
      have inserted : (table.insert entry.1 entry.2).entries = table.entries ++ [entry] :=
        insertEntry_last below
      rw [List.foldl_cons, ih, inserted, List.append_assoc, List.singleton_append]
      rwa [inserted, List.append_assoc, List.singleton_append]

omit [DecidableEq κ] [Std.Trichotomous (α := κ) (· < ·)] in
/-- A table is made again from its entries. -/
theorem ofList_entries (table : Table κ ν) : ofList table.entries = table :=
  ext (foldl_insert_entries empty table.sorted)

/-! ## Keys that are numbers -/

section Numbers

variable {ν : Type} {bound : Nat}

theorem filter_lt_eq_nil {entries : List (Nat × ν)} (beyond : ∀ entry ∈ entries, bound ≤ entry.1) :
    entries.filter (·.1 < bound) = [] :=
  List.filter_eq_nil_iff.2 fun entry member => by simpa using beyond entry member

/-- With one more key below the bound come the entries that a look-up of that key finds. -/
theorem filter_lt_succ (table : Table Nat ν) (bound : Nat) :
    table.entries.filter (·.1 < bound + 1) =
      table.entries.filter (·.1 < bound) ++
        ((table.find? bound).map fun value => (bound, value)).toList := by
  obtain ⟨entries, sorted⟩ := table
  unfold find?
  dsimp only
  induction entries with
  | nil => rfl
  | cons entry rest ih =>
      obtain ⟨first, later⟩ := List.pairwise_cons.1 sorted
      rcases Nat.lt_trichotomy entry.1 bound with below | rfl | beyond
      · have kept : entry.1 < bound + 1 := Nat.lt_succ_of_lt below
        have other : ¬entry.1 = bound := Nat.ne_of_lt below
        simp only [List.filter_cons, List.find?_cons, kept, below, other, decide_true, decide_false,
          ↓reduceIte, ih later, List.cons_append]
      · have after : rest.filter (·.1 < entry.1 + 1) = [] :=
          filter_lt_eq_nil fun next member => Nat.succ_le_of_lt (first next member)
        have before : rest.filter (·.1 < entry.1) = [] :=
          filter_lt_eq_nil fun next member => Nat.le_of_lt (first next member)
        have kept : entry.1 < entry.1 + 1 := Nat.lt_succ_self _
        have notBelow : ¬entry.1 < entry.1 := Nat.lt_irrefl _
        simp only [List.filter_cons, List.find?_cons, kept, notBelow, decide_true, decide_false,
          ↓reduceIte, after, before]
        rfl
      · have passes (next : Nat × ν) (member : next ∈ entry :: rest) : bound + 1 ≤ next.1 := by
          rcases List.mem_cons.1 member with rfl | member
          · exact beyond
          · exact Nat.lt_trans beyond (first next member)
        have missing : (entry :: rest).find? (fun next => decide (next.1 = bound)) = none :=
          List.find?_eq_none.2 fun next member => by
            simpa using Nat.ne_of_gt (passes next member)
        rw [filter_lt_eq_nil passes,
          filter_lt_eq_nil fun next member => Nat.le_of_lt (passes next member), missing]
        rfl

end Numbers

end Rv32Stimulus.Table
