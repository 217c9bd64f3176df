/-
# Proofs.Program.Provenance -- where the records of a program come from

A record is drawn in three steps, and each leaves its mark.  The class has a positive weight in
the table, or stands in because the weights are degenerate (`WeightTable.Asks`).  The
category is one of those of the class.  The record is one of the catalog's of that category, or its
fallback because there is none (`Catalog.Serves`).

Filling operands and patching hazards keep the record, so every instruction of a run has one
that its weight table asks for (`Generator.records_are_asked_for`).  The one thing taken on
trust is that a weighted draw gives the index of a positive weight, which holds of every
table whose total is not extremely small (`picksPositive_of_normal`).
-/
import Rv32Stimulus.Isa.Base
import Rv32Stimulus.Proofs.Program.Refusal
import Rv32Stimulus.Proofs.Random.PositivePick

namespace Rv32Stimulus

set_option autoImplicit false

open Rv32Stimulus.Random

/-! ## The class -/

theorem WeightClass.categories_ne_nil (weightClass : String) :
    WeightClass.categories weightClass ≠ [] := by
  unfold WeightClass.categories
  split <;> simp

namespace WeightTable

/-- The table asks for its classes of positive weight, or for the one that stands in if no class
can be drawn by the weights. -/
def Asks (table : WeightTable) (weightClass : String) : Prop :=
  if degenerate table.values then weightClass = WeightClass.standIn
  else ∃ weight, (weightClass, weight) ∈ table.entries ∧ 0.0 < weight

/-- The drawn index points at the same entry in the list of classes and in that of weights. -/
theorem classAt_some {table : WeightTable} {index : Nat} {weight : Float}
    (found : table.values[index]? = some weight) :
    (table.classAt (some index), weight) ∈ table.entries := by
  rw [Table.values, List.getElem?_map, Option.map_eq_some_iff] at found
  obtain ⟨⟨weightClass, _⟩, entry, rfl⟩ := found
  have named : table.classAt (some index) = weightClass := by
    simp [classAt, Table.keys, entry]
  rw [named]
  exact List.mem_of_getElem? entry

theorem ensures_chooseClass {table : WeightTable} (picks : PicksPositive table.values) :
    table.chooseClass.Ensures table.Asks := by
  refine ((Draw.ensures_weighted_none table.values).and picks).bind ?_
  rintro index? ⟨missing, positive⟩
  refine .pure ?_
  unfold Asks
  cases index? with
  | none =>
      rw [if_pos (missing.1 rfl)]
      rfl
  | some index =>
      have usable : ¬degenerate table.values = true := by
        intro isDegenerate
        cases missing.2 isDegenerate
      obtain ⟨weight, found, isPositive⟩ := positive index rfl
      rw [if_neg usable]
      exact ⟨weight, classAt_some found, isPositive⟩

end WeightTable

/-! ## The record -/

namespace Catalog

/-- For a class the catalog has its records of the categories of the class, and its fallback if
one of these categories has no record. -/
def Serves (catalog : Catalog) (weightClass : String) (record : Record) : Prop :=
  (record ∈ catalog.records ∧ record.category ∈ WeightClass.categories weightClass) ∨
    (record = catalog.fallback ∧ ∃ category ∈ WeightClass.categories weightClass,
      ∀ other ∈ catalog.records, other.category ≠ category)

theorem ensures_chooseIn_serves (catalog : Catalog) {weightClass : String} {category : Category}
    (within : category ∈ WeightClass.categories weightClass) :
    (catalog.chooseIn category).Ensures (catalog.Serves weightClass) := by
  refine (catalog.ensures_chooseIn category).mono ?_
  rintro record (member | ⟨isFallback, empty⟩)
  · obtain ⟨listed, rfl⟩ := mem_inCategory.1 member
    exact .inl ⟨listed, within⟩
  · refine .inr ⟨isFallback, category, within, ?_⟩
    intro other listed same
    have member := mem_inCategory.2 ⟨listed, same⟩
    rw [empty] at member
    cases member

/-- Some class that the table asks for is one that the catalog serves with the record. -/
def Answers (catalog : Catalog) (table : WeightTable) (record : Record) : Prop :=
  ∃ weightClass, table.Asks weightClass ∧ catalog.Serves weightClass record

theorem ensures_chooseRecord_answers (catalog : Catalog) {table : WeightTable}
    (picks : PicksPositive table.values) :
    (catalog.chooseRecord table).Ensures (catalog.Answers table) := by
  refine (WeightTable.ensures_chooseClass picks).bind ?_
  intro weightClass asked
  refine (Draw.ensures_pick _).bind ?_
  rintro category? ⟨picked, missing⟩
  cases category? with
  | none => exact absurd (missing rfl) (WeightClass.categories_ne_nil weightClass)
  | some category =>
      refine (catalog.ensures_chooseIn_serves (picked category rfl)).mono ?_
      intro record serves
      exact ⟨weightClass, asked, serves⟩

end Catalog

/-! ## Runs -/

section Records

variable {catalog : Catalog} {profile : Profile} {holds : Record → Prop}

/-- Filling the pattern keeps the record. -/
theorem ensures_synthesize_record
    (chosen : (catalog.chooseRecord profile.weights).Ensures holds) (site : Site)
    (backward : UInt32) :
    (synthesize catalog profile site backward).Ensures fun draft => holds draft.inst.record := by
  refine chosen.bind ?_
  intro record isChosen
  refine Draft.ensures_of_kept ?_ isChosen record.pattern
  intro draft role next fills soFar
  rw [fills.record_eq]
  exact soFar

namespace Run

/-- A step adds one record, as it was chosen. -/
theorem ensures_step_records (chosen : (catalog.chooseRecord profile.weights).Ensures holds)
    (length : Nat) (run : Run) (index : Nat) :
    (step catalog profile length run index).Ensures fun next =>
      ∃ record, next.records = run.records ++ [record] ∧ holds record := by
  refine (ensures_synthesize_record chosen _ _).bind ?_
  intro draft isChosen
  refine (Draw.Ensures.trivial _).bind ?_
  intro injection _
  refine .pure ?_
  exact ⟨draft.inst.record, by simp [records], isChosen⟩

theorem ensures_ofLength_records (chosen : (catalog.chooseRecord profile.weights).Ensures holds)
    (length : Nat) :
    (ofLength catalog profile length).Ensures fun run => ∀ record ∈ run.records, holds record := by
  refine ensures_of_kept (by simp [records]) ?_
  intro index run soFar
  refine (ensures_step_records chosen length run index).mono ?_
  rintro next ⟨record, grown, isChosen⟩
  rw [grown]
  simpa [or_imp, forall_and] using ⟨soFar, isChosen⟩

end Run

end Records

/-! ## Programs -/

theorem Program.Assembles.map_record {run : Run} {program : Program}
    (assembles : program.Assembles run) :
    program.instructions.map (·.record) = run.sequence.map (·.record) := by
  rw [assembles.instructions]
  apply List.ext_getElem?
  intro position
  simp [Function.comp_def]

namespace Generator

/-- Every instruction that is drawn has a record that the weight table asks for and the catalog
serves: one of a category of the class, or the fallback because one of these categories has none.
A program has the records of its run. -/
theorem records_are_asked_for (generator : Generator) (length : Nat)
    (picks : PicksPositive generator.profile.weights.values) :
    (generator.profile.Drawable → ∃ run source,
      Run.ofLength generator.catalog generator.profile length generator.source = .ok (run, source)) ∧
    ∀ run source,
      Run.ofLength generator.catalog generator.profile length generator.source = .ok (run, source) →
      run.records.length = length ∧
      (∀ record ∈ run.records, ∃ weightClass, generator.profile.weights.Asks weightClass ∧
        generator.catalog.Serves weightClass record) ∧
      ∃ outcome, generator.generate length = .ok (outcome, { generator with source }) ∧
        ∀ program, outcome = .ok program →
          program.instructions.map (·.record) = run.records := by
  refine ⟨fun drawable => Run.succeeds_ofLength _ drawable length _, ?_⟩
  intro run source drawn
  obtain ⟨count, keeps⟩ := Run.ensures_recorded _ _ _ drawn
  have answered := Run.ensures_ofLength_records
    (generator.catalog.ensures_chooseRecord_answers picks) length drawn
  refine ⟨count, answered, generator.assemble run, ?_, ?_⟩
  · exact generate_eq_ok_iff.2 ⟨run, source, drawn, rfl, rfl⟩
  · intro program assembled
    rw [(assembles assembled).map_record, keeps]

/-- A generator of sums and stores: loads have no weight, and there is no comparison to go with the
sums, nor an `ADDI`. -/
def ofSumsAndStores (seed : UInt64) : Generator :=
  .ofSeed ⟨[Base.registers "ADD" .alu 0 0, Base.stores "SW" 2, Base.loads "LW" 2]⟩
    { Profile.standard with
      weights := .ofList [("alu_logic", 1.0), ("load", 0.0), ("store", 2.0)] } seed

/-- The built-in `ADDI` in the place of a comparison, two stores and a sum. -/
theorem records_are_asked_for_sums_and_stores :
    PicksPositive (ofSumsAndStores 2).profile.weights.values ∧
      ∃ run source, Run.ofLength (ofSumsAndStores 2).catalog (ofSumsAndStores 2).profile 4
          (ofSumsAndStores 2).source = .ok (run, source) ∧
        run.records.map (·.mnemonic) = ["ADDI", "SW", "SW", "ADD"] ∧
        ∀ record ∈ run.records, ∃ weightClass,
          (ofSumsAndStores 2).profile.weights.Asks weightClass ∧
            (ofSumsAndStores 2).catalog.Serves weightClass record := by
  have picks : PicksPositive (ofSumsAndStores 2).profile.weights.values := by
    refine picksPositive_of_normal ?_
    intro total added
    have known : total? (ofSumsAndStores 2).profile.weights.values = some 3.0 := by decide +kernel
    obtain rfl := Option.some.inj (added.symm.trans known)
    decide +kernel
  have observed : (ofSumsAndStores 2).observe 4 (fun program =>
      program.instructions.map (·.record.mnemonic)) = some ["ADDI", "SW", "SW", "ADD"] := by
    decide +kernel
  obtain ⟨program, after, given, seen⟩ := exists_of_observe observed
  obtain ⟨draws, asked⟩ := (ofSumsAndStores 2).records_are_asked_for 4 picks
  obtain ⟨run, source, drawn⟩ := draws (by decide +kernel)
  obtain ⟨count, answered, outcome, same, keeps⟩ := asked run source drawn
  obtain ⟨isOutcome, -⟩ := Prod.mk.inj (Except.ok.inj (same.symm.trans given))
  have kept := keeps program isOutcome
  refine ⟨picks, run, source, drawn, ?_, answered⟩
  rw [← kept, List.map_map]
  exact seen

end Generator

end Rv32Stimulus
