/-
# Proofs.Isa.Acceptance -- which lists of records are catalogs, and what such a catalog is

A list is accepted exactly if its records fit their fields and differ in their upper-cased
mnemonics (`Acceptable`).  Any other list is rejected for its first offending record
(`Rejects`): for a field that is too wide if there is one, the opcode first, and for a name seen
before only if there is none.  Both checks go along the list in one pass, and `fault?_run` says
what the rest of the pass does after an acceptable start.  No list has two verdicts
(`Rejects.not_acceptable`, `Rejects.unique`).

`Catalog.Represents` says what the catalog of an accepted list gives in each of its lookups, and
`Catalog.accepts_exactly_and_represents` is the whole contract.
-/
import Mathlib.Data.List.Nodup
import Rv32Stimulus.Proofs.Isa.Catalog
import Rv32Stimulus.Proofs.Isa.CatalogIndex

namespace Rv32Stimulus

set_option autoImplicit false

/-! ## The pass over a list -/

namespace Catalog

/-- Each record fits its fields and no two have the same name, ASCII case ignored. -/
structure Acceptable (records : List Record) : Prop where
  fits : ∀ record ∈ records, record.Fits
  distinct : records.Pairwise fun record other =>
    record.mnemonic.toUpper ≠ other.mnemonic.toUpper

/-- `record`, coming after `before`, is reported as `fault`. -/
def Offends (before : List Record) (record : Record) (fault : CatalogError) : Prop :=
  record.TooWide fault ∨
    record.Fits ∧ (∃ other ∈ before, other.mnemonic.toUpper = record.mnemonic.toUpper) ∧
      fault = .duplicateMnemonic record.mnemonic

/-- `fault` is that of the first record that makes the list unacceptable. -/
def Rejects (records : List Record) (fault : CatalogError) : Prop :=
  ∃ before record after, records = before ++ record :: after ∧ Acceptable before ∧
    Offends before record fault

theorem acceptable_concat {before : List Record} {record : Record} :
    Acceptable (before ++ [record]) ↔
      Acceptable before ∧ record.Fits ∧
        ∀ other ∈ before, other.mnemonic.toUpper ≠ record.mnemonic.toUpper := by
  constructor
  · rintro ⟨fits, distinct⟩
    obtain ⟨distinctBefore, -, fresh⟩ := List.pairwise_append.1 distinct
    exact ⟨⟨fun other member => fits other (by simp [member]), distinctBefore⟩,
      fits record (by simp), fun other member => fresh other member record (by simp)⟩
  · rintro ⟨⟨fits, distinct⟩, narrow, fresh⟩
    refine ⟨?_, List.pairwise_append.2 ⟨distinct, by simp, ?_⟩⟩
    · simpa [or_imp, forall_and, narrow] using fits
    · simpa using fresh

theorem Acceptable.of_prefix {records before : List Record} (acceptable : Acceptable records)
    (start : before <+: records) : Acceptable before where
  fits record member := acceptable.fits record (start.subset member)
  distinct := acceptable.distinct.sublist start.sublist

theorem Offends.not_acceptable {before : List Record} {record : Record} {fault : CatalogError}
    (offends : Offends before record fault) : ¬Acceptable (before ++ [record]) := by
  intro acceptable
  obtain ⟨-, fits, fresh⟩ := acceptable_concat.1 acceptable
  rcases offends with wide | ⟨-, ⟨other, member, same⟩, -⟩
  · exact wide.not_fits fits
  · exact fresh other member same

/-- The names in `seen` are those of the records in `before`, upper-cased. -/
def Knows (seen : List String) (before : List Record) : Prop :=
  ∀ name, name ∈ seen ↔ ∃ other ∈ before, other.mnemonic.toUpper = name

theorem Knows.cons {seen : List String} {before : List Record} (knows : Knows seen before)
    (record : Record) : Knows (record.mnemonic.toUpper :: seen) (before ++ [record]) := by
  intro name
  rw [List.mem_cons, knows name]
  simp only [List.mem_append, List.mem_singleton]
  constructor
  · rintro (rfl | ⟨other, member, named⟩)
    · exact ⟨record, .inr rfl, rfl⟩
    · exact ⟨other, .inl member, named⟩
  · rintro ⟨other, member | rfl, named⟩
    · exact .inr ⟨other, member, named⟩
    · exact .inl named.symm

/-- The rest of the pass, after an acceptable start. -/
theorem fault?_run {seen : List String} {before : List Record} (records : List Record)
    (acceptable : Acceptable before) (knows : Knows seen before) :
    match fault? seen records with
    | none => Acceptable (before ++ records)
    | some fault => Rejects (before ++ records) fault := by
  induction records generalizing seen before with
  | nil => simpa [fault?] using acceptable
  | cons record rest ih =>
      rw [fault?]
      cases width : record.widthFault? with
      | some fault =>
          exact ⟨before, record, rest, rfl, acceptable, .inl (Record.widthFault?_eq_some.1 width)⟩
      | none =>
          have fits := Record.widthFault?_eq_none.1 width
          by_cases repeated : record.mnemonic.toUpper ∈ seen
          · rw [List.contains_iff_mem.2 repeated]
            exact ⟨before, record, rest, rfl, acceptable, .inr ⟨fits, (knows _).1 repeated, rfl⟩⟩
          · have fresh : seen.contains record.mnemonic.toUpper = false := by simpa using repeated
            have longer : Acceptable (before ++ [record]) := by
              refine acceptable_concat.2 ⟨acceptable, fits, ?_⟩
              intro other member same
              exact repeated ((knows _).2 ⟨other, member, same⟩)
            rw [fresh, List.append_cons]
            exact ih longer (knows.cons record)

theorem acceptable_nil : Acceptable [] := ⟨by simp, .nil⟩

/-- The pass over a whole list. -/
theorem ofRecords_run (records : List Record) :
    match ofRecords records with
    | .ok catalog => catalog.records = records ∧ Acceptable records
    | .error fault => Rejects records fault := by
  have fresh : Knows [] [] := by simp [Knows]
  have run := fault?_run records acceptable_nil fresh
  rw [ofRecords]
  cases found : fault? [] records with
  | none => exact ⟨rfl, by simpa [found] using run⟩
  | some fault => simpa [found] using run

/-! ## Exactly one verdict -/

theorem Rejects.not_acceptable {records : List Record} {fault : CatalogError}
    (rejects : Rejects records fault) : ¬Acceptable records := by
  obtain ⟨before, record, after, rfl, -, offends⟩ := rejects
  intro acceptable
  refine offends.not_acceptable (acceptable.of_prefix ?_)
  exact ⟨after, by simp⟩

theorem Offends.unique {before : List Record} {record : Record} {fault other : CatalogError}
    (offends : Offends before record fault) (again : Offends before record other) :
    fault = other := by
  rcases offends with wide | ⟨fits, -, rfl⟩ <;> rcases again with wide' | ⟨fits', -, rfl⟩
  · exact Option.some.inj
      ((Record.widthFault?_eq_some.2 wide).symm.trans (Record.widthFault?_eq_some.2 wide'))
  · exact absurd fits' wide.not_fits
  · exact absurd fits wide'.not_fits
  · rfl

/-- The first offence is not after the end of an acceptable start. -/
theorem Offends.length_le {before before' after after' : List Record} {record record' : Record}
    {fault : CatalogError} (offends : Offends before record fault)
    (acceptable : Acceptable before')
    (same : before ++ record :: after = before' ++ record' :: after') :
    before'.length ≤ before.length := by
  by_contra longer
  have upTo : before ++ [record] <+: before' ++ record' :: after' := ⟨after, by simp [← same]⟩
  have within : before ++ [record] <+: before' := by
    refine List.prefix_of_prefix_length_le upTo (List.prefix_append _ _) ?_
    simp only [List.length_append, List.length_singleton]
    omega
  exact offends.not_acceptable (acceptable.of_prefix within)

theorem Rejects.unique {records : List Record} {fault other : CatalogError}
    (rejects : Rejects records fault) (again : Rejects records other) : fault = other := by
  obtain ⟨before, record, after, rfl, acceptable, offends⟩ := rejects
  obtain ⟨before', record', after', same, acceptable', offends'⟩ := again
  have long : before'.length ≤ before.length := offends.length_le acceptable' same
  have short : before.length ≤ before'.length := offends'.length_le acceptable same.symm
  obtain ⟨rfl, rest⟩ := List.append_inj same (Nat.le_antisymm short long)
  obtain ⟨rfl, -⟩ := List.cons.inj rest
  exact offends.unique offends'

theorem ofRecords_ok_iff {records : List Record} :
    (∃ catalog, ofRecords records = .ok catalog) ↔ Acceptable records := by
  have run := ofRecords_run records
  cases verdict : ofRecords records with
  | ok catalog =>
      have accepted : catalog.records = records ∧ Acceptable records := by
        simpa [verdict] using run
      simpa using accepted.2
  | error fault =>
      have rejects : Rejects records fault := by simpa [verdict] using run
      simpa using rejects.not_acceptable

theorem ofRecords_error_iff {records : List Record} {fault : CatalogError} :
    ofRecords records = .error fault ↔ Rejects records fault := by
  have run := ofRecords_run records
  constructor
  · intro verdict
    simpa [verdict] using run
  · intro rejects
    cases verdict : ofRecords records with
    | ok catalog => exact absurd (ofRecords_ok_iff.1 ⟨catalog, verdict⟩) rejects.not_acceptable
    | error other =>
        have rejected : Rejects records other := by simpa [verdict] using run
        rw [rejects.unique rejected]

/-! ## The catalog of an accepted list -/

/-- What each way of looking into the catalog gives, in terms of the records it was made of. -/
structure Represents (catalog : Catalog) (records : List Record) : Prop where
  records_eq : catalog.records = records
  /-- Iteration goes over the entries of the index. -/
  entries_eq : catalog.index.entries = records
  /-- A name finds the one record of that name. -/
  find?_eq_some : ∀ name record, catalog.find? name = some record ↔
    (record ∈ records ∧ record.mnemonic.toUpper = name.toUpper) ∧
      ∀ other ∈ records, other.mnemonic.toUpper = name.toUpper → other = record
  find?_eq_none : ∀ name, catalog.find? name = none ↔
    ∀ record ∈ records, record.mnemonic.toUpper ≠ name.toUpper
  /-- A category has its records in the order of the list. -/
  inCategory_eq : ∀ category,
    catalog.inCategory category = records.filter fun record => record.category = category
  inCategory_unique : ∀ record ∈ records, ∃! category, record ∈ catalog.inCategory category
  fallback_of_some : ∀ record, catalog.find? "ADDI" = some record → catalog.fallback = record
  fallback_of_none : catalog.find? "ADDI" = none → catalog.fallback = .addi

theorem Acceptable.eq_of_same_name {records : List Record} (acceptable : Acceptable records)
    {record other : Record} (member : record ∈ records) (otherMember : other ∈ records)
    (same : record.mnemonic.toUpper = other.mnemonic.toUpper) : record = other :=
  List.inj_on_of_nodup_map (List.pairwise_map.2 acceptable.distinct) member otherMember same

theorem represents {catalog : Catalog} (acceptable : Acceptable catalog.records) :
    catalog.Represents catalog.records where
  records_eq := rfl
  entries_eq := CatalogIndex.entries_ofRecords _
  find?_eq_some name record := by
    constructor
    · intro found
      obtain ⟨member, called⟩ := mem_and_isCalled_of_find? found
      refine ⟨⟨member, called⟩, ?_⟩
      intro other otherMember otherCalled
      exact acceptable.eq_of_same_name otherMember member (otherCalled.trans called.symm)
    · rintro ⟨⟨member, called⟩, unique⟩
      cases found : catalog.find? name with
      | none => exact absurd called (Catalog.find?_eq_none.1 found record member)
      | some other =>
          obtain ⟨otherMember, otherCalled⟩ := mem_and_isCalled_of_find? found
          rw [unique other otherMember otherCalled]
  find?_eq_none name := Catalog.find?_eq_none
  inCategory_eq category := by
    rw [Catalog.inCategory_eq]
    rfl
  inCategory_unique record member := by
    refine ⟨record.category, mem_inCategory.2 ⟨member, rfl⟩, ?_⟩
    intro category within
    exact (mem_inCategory.1 within).2.symm
  fallback_of_some record found := by rw [fallback, found, Option.getD_some]
  fallback_of_none missing := by rw [fallback, missing, Option.getD_none]

/-- A list of records is accepted exactly if its records fit their fields and differ in their
names, and is rejected for its first offence otherwise.  The catalog of an accepted list
represents it. -/
theorem accepts_exactly_and_represents (records : List Record) :
    ((∃ catalog, ofRecords records = .ok catalog) ↔ Acceptable records) ∧
      (∀ fault, ofRecords records = .error fault ↔ Rejects records fault) ∧
      ∀ catalog, ofRecords records = .ok catalog → catalog.Represents records := by
  refine ⟨ofRecords_ok_iff, fun fault => ofRecords_error_iff, ?_⟩
  intro catalog accepted
  obtain rfl := (records_of_ofRecords accepted).1
  exact represents (ofRecords_ok_iff.1 ⟨catalog, accepted⟩)

/-- The built-in catalog. -/
theorem accepts_exactly_and_represents_rv32i :
    ofRecords Base.records = .ok rv32i ∧ rv32i.Represents Base.records :=
  ⟨ofRecords_rv32i, (accepts_exactly_and_represents Base.records).2.2 rv32i ofRecords_rv32i⟩

/-- Of a record that is both too wide and there before, the width is reported. -/
example : ofRecords [.addi, { Record.addi with mnemonic := "addi", opcode := 0x80 }] =
    .error (.fieldWidth "addi" "opcode" 0x80 7) := by decide +kernel

end Catalog

end Rv32Stimulus
