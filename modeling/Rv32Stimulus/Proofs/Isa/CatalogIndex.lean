/-
# Proofs.Isa.CatalogIndex -- the index of a catalog says what its list of records says

The three parts of an index are kept in step by `CatalogIndex.add`.  `Agrees` is the invariant:
every known position lies within the entries, a name finds the last entry of that name, and the
group of a category is the entries of that category, in their order.  One more record
preserves it (`Agrees.add`), so the index of every list has it (`agrees_ofRecords`).

The lookups of a catalog are thereby those of its list of records (`Catalog.find?_eq`,
`Catalog.inCategory_eq`), whatever names the records have.
-/
import Rv32Stimulus.Isa.Catalog
import Rv32Stimulus.Proofs.Ordered.Table

namespace Rv32Stimulus

set_option autoImplicit false

/-! ## Categories as keys -/

namespace Category

theorem rank_injective {one other : Category} (same : one.rank = other.rank) : one = other := by
  cases one <;> cases other <;> first | rfl | cases same

instance : Std.Irrefl (α := Category) (· < ·) := ⟨fun category => Nat.lt_irrefl category.rank⟩

instance : Std.Trichotomous (α := Category) (· < ·) :=
  ⟨fun _ _ below above =>
    rank_injective (Nat.le_antisymm (Nat.not_lt.1 above) (Nat.not_lt.1 below))⟩

end Category

theorem Record.isCalled_iff {record : Record} {name : String} :
    record.isCalled name = true ↔ record.mnemonic.toUpper = name.toUpper :=
  beq_iff_eq

/-! ## One more record -/

namespace CatalogIndex

/-- Every lookup gives what the list of entries gives. -/
structure Agrees (index : CatalogIndex) : Prop where
  within : ∀ name position, index.positions.find? name = some position →
    position < index.entries.length
  find? : ∀ name, index.find? name = index.entries.reverse.find? (·.isCalled name)
  inCategory : ∀ category,
    index.inCategory category = index.entries.filter (·.category == category)

theorem agrees_empty : Agrees {} where
  within name position found := by cases found
  find? name := rfl
  inCategory category := rfl

theorem find?_positions_add (index : CatalogIndex) (record : Record) (name : String) :
    (index.add record).positions.find? name =
      if record.mnemonic.toUpper = name then some index.entries.length
      else index.positions.find? name :=
  Table.find?_insert ..

theorem inCategory_add (index : CatalogIndex) (record : Record) (category : Category) :
    (index.add record).inCategory category =
      if record.category = category then index.inCategory category ++ [record]
      else index.inCategory category := by
  rw [CatalogIndex.inCategory, add, Table.find?_insert]
  by_cases same : record.category = category
  · simp [same]
  · simp [same, CatalogIndex.inCategory]

/-- The new record is found under its name, all other names as before. -/
theorem find?_add {index : CatalogIndex} (agrees : index.Agrees) (record : Record)
    (name : String) :
    (index.add record).find? name =
      if record.isCalled name then some record else index.find? name := by
  rw [CatalogIndex.find?, find?_positions_add]
  by_cases called : record.mnemonic.toUpper = name.toUpper
  · simp [called, Record.isCalled_iff.2 called, add]
  · have notCalled : record.isCalled name = false := by simpa [Record.isCalled] using called
    rw [if_neg called, notCalled, CatalogIndex.find?]
    cases found : index.positions.find? name.toUpper with
    | none => rfl
    | some position =>
        -- an old position still means the same entry
        simpa [add] using List.getElem?_append_left (agrees.within _ _ found)

theorem Agrees.add {index : CatalogIndex} (agrees : index.Agrees) (record : Record) :
    (index.add record).Agrees where
  within name position found := by
    have longer : (index.add record).entries.length = index.entries.length + 1 := by
      simp [CatalogIndex.add]
    rw [find?_positions_add] at found
    split at found
    · cases found
      omega
    · have := agrees.within name position found
      omega
  find? name := by
    have reversed : (index.add record).entries.reverse = record :: index.entries.reverse := by
      simp [CatalogIndex.add]
    rw [find?_add agrees, reversed, List.find?_cons, agrees.find?]
    cases record.isCalled name <;> rfl
  inCategory category := by
    have longer : (index.add record).entries = index.entries ++ [record] := rfl
    rw [inCategory_add, longer, List.filter_append, agrees.inCategory]
    by_cases same : record.category = category <;> simp [same]

/-! ## A list of records -/

theorem agrees_foldl_add {index : CatalogIndex} (agrees : index.Agrees) (records : List Record) :
    (records.foldl add index).Agrees := by
  induction records generalizing index with
  | nil => exact agrees
  | cons record rest ih => exact ih (agrees.add record)

theorem entries_foldl_add (index : CatalogIndex) (records : List Record) :
    (records.foldl add index).entries = index.entries ++ records := by
  induction records generalizing index with
  | nil => simp
  | cons record rest ih => rw [List.foldl_cons, ih, add, List.append_assoc, List.singleton_append]

theorem agrees_ofRecords (records : List Record) : (ofRecords records).Agrees :=
  agrees_foldl_add agrees_empty records

theorem entries_ofRecords (records : List Record) : (ofRecords records).entries = records :=
  entries_foldl_add {} records

end CatalogIndex

/-! ## Catalogs -/

namespace Catalog

theorem find?_eq (catalog : Catalog) (name : String) :
    catalog.find? name = catalog.records.reverse.find? (·.isCalled name) := by
  rw [find?, index, (CatalogIndex.agrees_ofRecords _).find?, CatalogIndex.entries_ofRecords]

theorem mem_and_isCalled_of_find? {catalog : Catalog} {name : String} {record : Record}
    (found : catalog.find? name = some record) :
    record ∈ catalog.records ∧ record.mnemonic.toUpper = name.toUpper := by
  rw [find?_eq] at found
  have called : record.isCalled name = true :=
    List.find?_some (p := fun other : Record => other.isCalled name) found
  exact ⟨List.mem_reverse.1 (List.mem_of_find?_eq_some found), Record.isCalled_iff.1 called⟩

theorem find?_eq_none {catalog : Catalog} {name : String} :
    catalog.find? name = none ↔
      ∀ record ∈ catalog.records, record.mnemonic.toUpper ≠ name.toUpper := by
  simp only [find?_eq, List.find?_eq_none, List.mem_reverse, Record.isCalled_iff, ne_eq]

theorem inCategory_eq (catalog : Catalog) (category : Category) :
    catalog.inCategory category = catalog.records.filter (·.category == category) := by
  rw [inCategory, index, (CatalogIndex.agrees_ofRecords _).inCategory,
    CatalogIndex.entries_ofRecords]

theorem mem_inCategory {catalog : Catalog} {category : Category} {record : Record} :
    record ∈ catalog.inCategory category ↔
      record ∈ catalog.records ∧ record.category = category := by
  rw [inCategory_eq, List.mem_filter, beq_iff_eq]

end Catalog

end Rv32Stimulus
