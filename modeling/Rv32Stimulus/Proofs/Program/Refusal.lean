/-
# Proofs.Program.Refusal -- which drawn sequences are refused

Synthesis fills every role but the unsupported one, resolution gives a label its displacement,
and a patch never takes an operand away.  So the only role that can be missing from a completed
instruction is the unsupported one (`Instruction.Drawn.faultAt?_completed`), in whatever order
and how often its pattern names the others, and under whatever format.

`Generator.refuses_exactly_unsupported`: a drawn sequence is refused exactly if one of its
records has an unsupported role, the error names the first of these, and the source
stands where the draws of the whole sequence leave it.
-/
import Rv32Stimulus.Proofs.Program.Failure
import Rv32Stimulus.Proofs.Program.Words

namespace Rv32Stimulus

set_option autoImplicit false

open Rv32Stimulus.Random

/-! ## One instruction -/

namespace Record

/-- The error that the record leads to at `index`, if it has an unsupported role. -/
def refusalAt? (record : Record) (index : Nat) : Option GenerateError :=
  if .unsupported ∈ record.pattern then some (.unencodable index ⟨record.mnemonic, .unsupported⟩)
  else none

theorem refusalAt?_eq_none_iff {record : Record} {index : Nat} :
    record.refusalAt? index = none ↔ .unsupported ∉ record.pattern := by
  simp [refusalAt?]

end Record

namespace Instruction

variable {catalog : Catalog} {site : Site} {inst : Instruction}

/-- Whatever the pattern asks for is there in the end, unless it is unsupported. -/
theorem Drawn.supplies_completed (drawn : inst.Drawn catalog site) (labels : LabelTable)
    (position : Nat) {role : Role} (member : role ∈ inst.record.pattern)
    (supported : role ≠ .unsupported) : (inst.completed labels position).supplies role = true := by
  have imm (takes : role.takesImmediate) : (inst.completed labels position).imm.isSome :=
    (drawn.isSome_completed_imm labels position).2 ⟨role, member, takes⟩
  cases role with
  | rd => simpa [supplies] using drawn.populated.rd.2 member
  | rs1 => simpa [supplies] using drawn.populated.rs1.2 (.inl member)
  | rs2 => simpa [supplies] using drawn.populated.rs2.2 member
  | shamt => simpa [supplies] using drawn.populated.shamt.2 member
  | memory =>
      have base : (inst.completed labels position).rs1.isSome := by
        simpa using drawn.populated.rs1.2 (.inr member)
      exact Bool.and_eq_true_iff.2 ⟨imm rfl, base⟩
  | imm | imm20 | label | predSucc => exact imm rfl
  | unsupported => exact absurd rfl supported

theorem Drawn.faultAt?_completed (drawn : inst.Drawn catalog site) (labels : LabelTable)
    (position : Nat) :
    (inst.completed labels position).faultAt? position = inst.record.refusalAt? position := by
  unfold faultAt? Record.refusalAt?
  rw [completed_record]
  cases found : (inst.completed labels position).missingRole? with
  | none =>
      have supported : .unsupported ∉ inst.record.pattern := by
        intro member
        rw [← completed_record inst labels position] at member
        exact absurd rfl (List.find?_eq_none.1 found .unsupported member)
      rw [if_neg supported]
      rfl
  | some role =>
      have member := List.mem_of_find?_eq_some found
      have missing := List.find?_some found
      rw [completed_record] at member
      have unsupported : role = .unsupported := by
        by_cases same : role = .unsupported
        · exact same
        · rw [drawn.supplies_completed labels position member same] at missing
          cases missing
      subst unsupported
      rw [if_pos member]
      rfl

end Instruction

/-! ## Runs -/

namespace Run

/-- The records that were drawn, in program order. -/
def records (run : Run) : List Record := (run.emitted.map (·.drawn.record)).reverse

/-- A run up to `index`, whose instructions have the records that were drawn for them. -/
structure Recorded (index : Nat) (run : Run) : Prop where
  count : run.records.length = index
  keeps : run.sequence.map (·.record) = run.records

theorem ensures_recorded (catalog : Catalog) (profile : Profile) (length : Nat) :
    (ofLength catalog profile length).Ensures (Recorded length) := by
  have start : Recorded 0 {} := ⟨rfl, rfl⟩
  refine ensures_ofLength start ?_
  rintro index run inside ⟨count, keeps⟩
  refine (ensures_step catalog profile run inside).mono ?_
  rintro next ⟨emission, extends_⟩
  have record : emission.inst.record = emission.drawn.record := extends_.patched.record_eq
  have grown : next.records = run.records ++ [emission.drawn.record] := by
    simp [records, extends_.emitted]
  refine ⟨?_, ?_⟩
  · simp [grown, count]
  · simp [grown, extends_.sequence_eq, keeps, record]

end Run

/-! ## Sequences -/

/-- The error of the first record with an unsupported role. -/
def firstRefusal? (records : List Record) : Option GenerateError :=
  records.zipIdx.findSome? fun entry => entry.1.refusalAt? entry.2

theorem forall_refusalAt?_eq_none_iff {records : List Record} :
    (∀ entry ∈ records.zipIdx, entry.1.refusalAt? entry.2 = none) ↔
      ∀ record ∈ records, .unsupported ∉ record.pattern := by
  constructor
  · intro supported record member
    obtain ⟨index, found⟩ := List.mem_iff_getElem?.1 member
    have entry : (record, index) ∈ records.zipIdx := List.mem_zipIdx_iff_getElem?.2 found
    exact Record.refusalAt?_eq_none_iff.1 (supported _ entry)
  · rintro supported ⟨record, index⟩ entry
    have found : records[index]? = some record := List.mem_zipIdx_iff_getElem?.1 entry
    exact Record.refusalAt?_eq_none_iff.2 (supported record (List.mem_of_getElem? found))

theorem firstRefusal?_eq_none_iff {records : List Record} :
    firstRefusal? records = none ↔ ∀ record ∈ records, .unsupported ∉ record.pattern := by
  rw [firstRefusal?, List.findSome?_eq_none_iff]
  exact forall_refusalAt?_eq_none_iff

theorem firstRefusal?_eq_some_iff {records : List Record} {fault : GenerateError} :
    firstRefusal? records = some fault ↔
      ∃ before record after, records = before ++ record :: after ∧
        (∀ earlier ∈ before, .unsupported ∉ earlier.pattern) ∧ .unsupported ∈ record.pattern ∧
        fault = .unencodable before.length ⟨record.mnemonic, .unsupported⟩ := by
  rw [firstRefusal?, List.findSome?_eq_some_iff]
  constructor
  · rintro ⟨entries, entry, rest, split, refused, early⟩
    obtain ⟨before, later, rfl, rfl, tail⟩ := List.zipIdx_eq_append_iff.1 split
    obtain ⟨record, after, rfl, rfl, -⟩ := List.zipIdx_eq_cons_iff.1 tail.symm
    have supported := forall_refusalAt?_eq_none_iff.1 early
    by_cases unsupported : .unsupported ∈ record.pattern
    · simp only [Record.refusalAt?, if_pos unsupported, Nat.zero_add, Option.some.injEq] at refused
      exact ⟨before, record, after, rfl, supported, unsupported, refused.symm⟩
    · simp [Record.refusalAt?, unsupported] at refused
  · rintro ⟨before, record, after, rfl, supported, unsupported, rfl⟩
    refine ⟨before.zipIdx, (record, before.length), after.zipIdx (before.length + 1), ?_, ?_, ?_⟩
    · rw [List.zipIdx_append, List.zipIdx_cons, Nat.zero_add]
    · rw [Record.refusalAt?, if_pos unsupported]
    · exact forall_refusalAt?_eq_none_iff.2 supported

namespace Generator

variable {generator : Generator} {run : Run} {length : Nat}

theorem firstFault?_program_eq (sound : run.Sound generator.catalog length length) :
    firstFault? (generator.program run).instructions =
      firstRefusal? (run.sequence.map (·.record)) := by
  have faults : (run.sequence.mapIdx fun position inst =>
        (inst.completed (labelTable run.sequence) position).faultAt? position) =
      (run.sequence.map (·.record)).mapIdx fun position record => record.refusalAt? position := by
    apply List.ext_getElem?
    intro position
    rw [List.getElem?_mapIdx, List.getElem?_mapIdx, List.getElem?_map, Option.map_map]
    cases found : run.sequence[position]? with
    | none => rfl
    | some inst =>
        exact congrArg some ((sound.drawn position inst found).faultAt?_completed _ position)
  rw [firstFault?_eq_mapIdx, program]
  dsimp only
  rw [List.mapIdx_mapIdx]
  refine (congrArg (List.findSome? id) faults).trans ?_
  rw [List.mapIdx_eq_zipIdx_map, List.findSome?_map]
  rfl

/-- A drawn sequence is refused exactly if one of its records has an unsupported role, and the error is
that of the first of these.  Refused or not, the generator is the same but for its source, which
stands where the draws of the whole sequence leave it. -/
theorem refuses_exactly_unsupported (generator : Generator) (length : Nat) :
    (generator.profile.Drawable → ∃ run source,
      Run.ofLength generator.catalog generator.profile length generator.source = .ok (run, source)) ∧
    ∀ run source,
      Run.ofLength generator.catalog generator.profile length generator.source = .ok (run, source) →
      run.records.length = length ∧
      ∃ outcome, generator.generate length = .ok (outcome, { generator with source }) ∧
        ((∃ fault, outcome = .error fault) ↔
          ∃ record ∈ run.records, .unsupported ∈ record.pattern) ∧
        ∀ fault, outcome = .error fault ↔
          ∃ before record after, run.records = before ++ record :: after ∧
            (∀ earlier ∈ before, .unsupported ∉ earlier.pattern) ∧
            .unsupported ∈ record.pattern ∧
            fault = .unencodable before.length ⟨record.mnemonic, .unsupported⟩ := by
  refine ⟨fun drawable => Run.succeeds_ofLength _ drawable length _, ?_⟩
  intro run source drawn
  have sound := Run.ensures_sound _ _ _ drawn
  obtain ⟨count, keeps⟩ := Run.ensures_recorded _ _ _ drawn
  have faults : firstFault? (generator.program run).instructions = firstRefusal? run.records := by
    rw [firstFault?_program_eq sound, keeps]
  have refused (fault : GenerateError) :
      generator.assemble run = .error fault ↔ firstRefusal? run.records = some fault := by
    rw [assemble_eq, faults]
    cases firstRefusal? run.records <;> simp
  have given := generate_eq_ok_iff.2 ⟨run, source, drawn, rfl, rfl⟩
  refine ⟨count, generator.assemble run, given, ?_, ?_⟩
  · constructor
    · rintro ⟨fault, isFault⟩
      obtain ⟨before, record, after, split, -, unsupported, -⟩ :=
        firstRefusal?_eq_some_iff.1 ((refused fault).1 isFault)
      exact ⟨record, by simp [split], unsupported⟩
    · rintro ⟨record, member, unsupported⟩
      cases first : firstRefusal? run.records with
      | some fault => exact ⟨fault, (refused fault).2 first⟩
      | none => exact absurd unsupported (firstRefusal?_eq_none_iff.1 first record member)
  · intro fault
    rw [refused, firstRefusal?_eq_some_iff]

/-- The error of a call, if it ends in one. -/
def refusal? (generator : Generator) (length : Nat) : Option GenerateError :=
  match generator.generate length with
  | .ok (.error fault, _) => some fault
  | _ => none

/-- A generator that also draws vector loads, whose second operand nothing can fill. -/
def ofVectorLoads (seed : UInt64) : Generator :=
  .ofSeed
    ⟨[.addi, { mnemonic := "VLE", format := .unsupported, category := .load, opcode := 0x07
               pattern := [.rd, .unsupported, .memory] }]⟩
    { Profile.standard with weights := .ofList [("alu_logic", 1.0), ("load", 1.0)] } seed

/-- Two sums, then a vector load, then one more instruction that is still drawn. -/
theorem refuses_exactly_unsupported_vector_load :
    (ofVectorLoads 3).profile.Drawable ∧
      ∃ run source before record after,
        Run.ofLength (ofVectorLoads 3).catalog (ofVectorLoads 3).profile 4
          (ofVectorLoads 3).source = .ok (run, source) ∧
        (ofVectorLoads 3).generate 4 =
          .ok (.error (.unencodable 2 ⟨"VLE", .unsupported⟩), { ofVectorLoads 3 with source }) ∧
        run.records = before ++ record :: after ∧ before.length = 2 ∧ after.length = 1 ∧
        record.mnemonic = "VLE" := by
  have drawable : (ofVectorLoads 3).profile.Drawable := by decide +kernel
  have observed : (ofVectorLoads 3).refusal? 4 = some (.unencodable 2 ⟨"VLE", .unsupported⟩) := by
    decide +kernel
  obtain ⟨draws, refuses⟩ := (ofVectorLoads 3).refuses_exactly_unsupported 4
  obtain ⟨run, source, drawn⟩ := draws drawable
  obtain ⟨count, outcome, given, -, first⟩ := refuses run source drawn
  unfold refusal? at observed
  rw [given] at observed
  cases outcome with
  | ok program => cases observed
  | error fault =>
      obtain rfl := Option.some.inj observed
      obtain ⟨before, record, after, split, -, -, same⟩ := (first _).1 rfl
      obtain ⟨index, missing⟩ := GenerateError.unencodable.inj same
      obtain ⟨mnemonic, -⟩ := MissingOperand.mk.inj missing
      have rest : after.length = 1 := by
        rw [split, List.length_append, List.length_cons] at count
        omega
      exact ⟨drawable, run, source, before, record, after, drawn, given, split, index.symm, rest,
        mnemonic.symm⟩

end Generator

end Rv32Stimulus
