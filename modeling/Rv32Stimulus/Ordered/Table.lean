/-
# Ordered.Table -- finite tables listed by increasing key

A `Table` is the list of its entries with strictly increasing keys, so two tables
with the same entries are equal and every listing of one comes out in key order.
Text keys compare by code points, which is also the order of their UTF-8 bytes.

`insert` keeps the order (`insertEntry_sorted`) and replaces the value of a key that
is already there; `find?` looks a key up.
-/

namespace Rv32Stimulus

set_option autoImplicit false

variable {κ ν : Type}

/-- Entries with strictly increasing keys. -/
structure Table (κ ν : Type) [LT κ] where
  entries : List (κ × ν)
  sorted : entries.Pairwise fun left right => left.1 < right.1

namespace Table

/-! ## Insertion into a sorted list -/

/-- Put `value` under `key`, in place of what was there. -/
def insertEntry [LT κ] [DecidableLT κ] (key : κ) (value : ν) : List (κ × ν) → List (κ × ν)
  | [] => [(key, value)]
  | entry :: rest =>
      if key < entry.1 then (key, value) :: entry :: rest
      else if entry.1 < key then entry :: insertEntry key value rest
      else (entry.1, value) :: rest

theorem mem_insertEntry [LT κ] [DecidableLT κ] {key : κ} {value : ν} {entries : List (κ × ν)}
    {entry : κ × ν} (member : entry ∈ insertEntry key value entries) :
    entry.1 = key ∨ ∃ old ∈ entries, old.1 = entry.1 := by
  induction entries with
  | nil => simp_all [insertEntry]
  | cons head rest ih =>
      simp only [insertEntry] at member
      split at member
      · rcases List.mem_cons.1 member with rfl | member
        · exact .inl rfl
        · exact .inr ⟨entry, member, rfl⟩
      · split at member
        · rcases List.mem_cons.1 member with rfl | member
          · exact .inr ⟨entry, by simp, rfl⟩
          · rcases ih member with same | ⟨old, oldMember, same⟩
            · exact .inl same
            · exact .inr ⟨old, List.mem_cons_of_mem _ oldMember, same⟩
        · rcases List.mem_cons.1 member with rfl | member
          · exact .inr ⟨head, by simp, rfl⟩
          · exact .inr ⟨entry, List.mem_cons_of_mem _ member, rfl⟩

theorem insertEntry_sorted [LT κ] [DecidableLT κ] [Trans (α := κ) (· < ·) (· < ·) (· < ·)]
    (key : κ) (value : ν) {entries : List (κ × ν)}
    (sorted : entries.Pairwise fun left right => left.1 < right.1) :
    (insertEntry key value entries).Pairwise fun left right => left.1 < right.1 := by
  induction entries with
  | nil => simp [insertEntry]
  | cons head rest ih =>
      obtain ⟨first, later⟩ := List.pairwise_cons.1 sorted
      simp only [insertEntry]
      split
      · rename_i below
        refine List.pairwise_cons.2 ⟨fun entry member => ?_, sorted⟩
        rcases List.mem_cons.1 member with rfl | member
        · exact below
        · exact Trans.trans below (first entry member)
      · split
        · rename_i above
          refine List.pairwise_cons.2 ⟨fun entry member => ?_, ih later⟩
          rcases mem_insertEntry member with same | ⟨old, oldMember, same⟩
          · rw [same]; exact above
          · rw [← same]; exact first old oldMember
        · exact List.pairwise_cons.2 ⟨first, later⟩

/-! ## Tables -/

variable [LT κ]

def empty : Table κ ν := ⟨[], .nil⟩

instance : EmptyCollection (Table κ ν) := ⟨empty⟩

instance : Inhabited (Table κ ν) := ⟨empty⟩

@[ext] theorem ext {left right : Table κ ν} (same : left.entries = right.entries) :
    left = right := by
  cases left; cases right; simp_all

instance [DecidableEq κ] [DecidableEq ν] : DecidableEq (Table κ ν) := fun left right =>
  decidable_of_iff (left.entries = right.entries) ⟨ext, fun same => same ▸ rfl⟩

def size (table : Table κ ν) : Nat := table.entries.length

def isEmpty (table : Table κ ν) : Bool := table.entries.isEmpty

def keys (table : Table κ ν) : List κ := table.entries.map (·.1)

def values (table : Table κ ν) : List ν := table.entries.map (·.2)

def find? [DecidableEq κ] (table : Table κ ν) (key : κ) : Option ν :=
  (table.entries.find? fun entry => entry.1 = key).map (·.2)

variable [DecidableLT κ] [Trans (α := κ) (· < ·) (· < ·) (· < ·)]

/-- Put `value` under `key`, in place of what was there. -/
def insert (table : Table κ ν) (key : κ) (value : ν) : Table κ ν :=
  ⟨insertEntry key value table.entries, insertEntry_sorted key value table.sorted⟩

/-- The table of a list of pairs; the last pair of a key counts. -/
def ofList (pairs : List (κ × ν)) : Table κ ν :=
  pairs.foldl (fun table (key, value) => table.insert key value) empty

end Table

/-- Text is ordered by code points. -/
instance Table.textTrans : Trans (α := String) (· < ·) (· < ·) (· < ·) := ⟨String.lt_trans⟩

example : ((∅ : Table Nat String).insert 3 "c" |>.insert 1 "a" |>.insert 3 "d").entries =
    [(1, "a"), (3, "d")] := by decide

end Rv32Stimulus
