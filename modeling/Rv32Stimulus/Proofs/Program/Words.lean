/-
# Proofs.Program.Words -- the words of a program say what its instructions hold

For catalogs whose records are laid out like those of the base set, a generator whose profile is
drawable always gives a program, and every word of it is faithful (`generate_faithful`).  The
operands go through four passes on the way: synthesis and injection leave them drawn
(`Run.Sound`), resolution settles them (`Instruction.Drawn.settled`), and packing is faithful on
what is settled (`Instruction.Settled.faithful`).
-/
import Rv32Stimulus.Proofs.Instruction.Faithful
import Rv32Stimulus.Proofs.Program.Finish

namespace Rv32Stimulus

set_option autoImplicit false

/-! ## Records whose words can be trusted -/

namespace Record

/-- The record suits its format, its fields fit their widths, and a system call has no operands. -/
structure Regular (record : Record) : Prop where
  coherent : record.Coherent
  narrow : record.Narrow
  bare : record.BareSystem

theorem regular_addi : addi.Regular where
  coherent := followsBase_addi.coherent
  narrow := narrow_addi
  bare called := absurd called (by decide +kernel)

end Record

/-- An accepted catalog of records laid out like those of the base set offers regular records
only, its stand-in for `ADDI` included. -/
theorem Catalog.regular_of_ofRecords {catalog : Catalog} {records : List Record}
    (accepted : ofRecords records = .ok catalog)
    (follows : ∀ record ∈ records, record.FollowsBase)
    (bare : ∀ record ∈ records, record.BareSystem) {record : Record}
    (offered : catalog.Offers record) : record.Regular := by
  obtain ⟨rfl, narrow⟩ := records_of_ofRecords accepted
  apply offered.induction Record.Regular Record.regular_addi
  intro record member
  exact ⟨(follows record member).coherent, narrow record member, bare record member⟩

/-! ## Resolution settles what was drawn -/

theorem Role.takesImmediate_iff {role : Role} :
    role.takesImmediate ↔ role = .label ∨ role.setsImmediate := by
  cases role <;> simp [takesImmediate, setsImmediate]

theorem Role.Admits.setsImmediate {role : Role} {value : Int32} (admits : role.Admits value) :
    role.setsImmediate := by
  cases role <;> first | rfl | exact admits.elim

namespace Instruction

variable {catalog : Catalog} {site : Site} {inst : Instruction}

theorem Drawn.isSome_completed_imm (drawn : inst.Drawn catalog site) (labels : LabelTable)
    (position : Nat) :
    (inst.completed labels position).imm.isSome ↔
      ∃ role ∈ inst.record.pattern, role.takesImmediate := by
  rw [completed_imm, Option.isSome_or, Option.isSome_map, Bool.or_eq_true,
    drawn.populated.target, drawn.populated.imm]
  constructor
  · rintro (member | ⟨role, member, sets⟩)
    · exact ⟨.label, member, rfl⟩
    · exact ⟨role, member, Role.takesImmediate_iff.2 (.inr sets)⟩
  · rintro ⟨role, member, takes⟩
    rcases Role.takesImmediate_iff.1 takes with rfl | sets
    · exact .inl member
    · exact .inr ⟨role, member, sets⟩

/-- The immediate in place is the one that its only owner allows. -/
theorem Drawn.allows_completed_imm (drawn : inst.Drawn catalog site)
    (coherent : inst.record.Coherent) {labels : LabelTable} {position : Nat} {value : Int32}
    (present : (inst.completed labels position).imm = some value) {role : Role}
    (member : role ∈ inst.record.pattern) (takes : role.takesImmediate) :
    role.Allows inst.record.format value := by
  rw [completed_imm] at present
  cases aimed : inst.target with
  | some target =>
      have isLabel : .label ∈ inst.record.pattern :=
        drawn.populated.target.1 (by rw [aimed]; rfl)
      obtain rfl := coherent.owner member isLabel takes rfl
      have relative : inst.record.format.IsRelative := of_decide_eq_true (coherent.room _ member)
      rw [aimed] at present
      obtain rfl := Option.some.inj present
      change 4 ∣ (Int32.ofInt _).toInt ∧ inst.record.format.admits (Int32.ofInt _).toInt = true
      rw [toInt_ofInt_offset relative]
      exact ⟨Int.dvd_of_emod_eq_zero (Format.offset_mod _ _ _), Format.admits_offset relative _ _⟩
  | none =>
      rw [aimed] at present
      obtain ⟨owner, ownerMember, admits⟩ := drawn.fits.imm value present
      have ownerTakes := Role.takesImmediate_iff.2 (.inr admits.setsImmediate)
      obtain rfl := coherent.owner ownerMember member ownerTakes takes
      cases owner with
      | label => exact admits.elim
      | _ => exact admits

theorem Drawn.settled (drawn : inst.Drawn catalog site) (coherent : inst.record.Coherent)
    (labels : LabelTable) (position : Nat) : (inst.completed labels position).Settled where
  rd := by simpa using drawn.populated.rd
  rs1 := by simpa using drawn.populated.rs1
  rs2 := by simpa using drawn.populated.rs2
  shamt := by simpa using drawn.populated.shamt
  imm := by
    rw [completed_record]
    exact drawn.isSome_completed_imm labels position
  rd_lt := by simpa using drawn.fits.rd
  rs1_lt := by simpa using drawn.fits.rs1
  rs2_lt := by simpa using drawn.fits.rs2
  shamt_lt := by simpa using drawn.fits.shamt
  allowed value present role := by
    rw [completed_record]
    exact drawn.allows_completed_imm coherent present

/-- Between drawing and writing nothing gets lost: the word says what the instruction holds. -/
theorem Drawn.faithful (drawn : inst.Drawn catalog site) (regular : inst.record.Regular)
    (labels : LabelTable) (position : Nat) :
    (inst.completed labels position).Faithful
      ((inst.completed labels position).word.fields inst.record.format inst.record.kind) := by
  have settled := drawn.settled regular.coherent labels position
  rw [fields_completed]
  rw [← completed_record inst labels position] at regular
  exact settled.faithful regular.coherent regular.narrow regular.bare

end Instruction

/-! ## Every program -/

namespace Run

variable {catalog : Catalog} {length : Nat} {run : Run}

theorem Sound.complete (sound : run.Sound catalog length length)
    (regular : ∀ record, catalog.Offers record → record.Regular) :
    ∀ inst ∈ resolve (run.sequence.map Instruction.withLabel), inst.missingRole? = none := by
  intro inst member
  obtain ⟨position, found⟩ := List.getElem?_of_mem member
  rw [resolve, List.getElem?_mapIdx, List.getElem?_map, Option.map_map,
    Option.map_eq_some_iff] at found
  obtain ⟨drawn, inRun, rfl⟩ := found
  have atPosition := sound.drawn position drawn inRun
  have coherent := (regular drawn.record atPosition.offered).coherent
  exact (atPosition.settled coherent ∅ position).missingRole?_eq_none (by simpa using coherent)

end Run

/-- Every instruction of a program is in range and its word is faithful. -/
theorem Program.Assembles.faithful {catalog : Catalog} {length : Nat} {run : Run}
    {program : Program} (assembles : program.Assembles run)
    (sound : run.Sound catalog length length)
    (regular : ∀ record, catalog.Offers record → record.Regular) {inst : Instruction}
    (member : inst ∈ program.instructions) :
    inst.InRange ∧ inst.Faithful (inst.word.fields inst.record.format inst.record.kind) := by
  obtain ⟨position, found⟩ := List.getElem?_of_mem member
  obtain ⟨drawn, inRun, rfl⟩ := assembles.getElem? found
  have atPosition := sound.drawn position drawn inRun
  have fits := regular drawn.record atPosition.offered
  rw [Instruction.completed_record]
  constructor
  · exact (atPosition.settled fits.coherent _ position).inRange
  · exact atPosition.faithful fits _ position

namespace Generator

variable {generator : Generator} {records : List Record}

/-- A generator over records laid out like those of the base set always gives a program of the
length asked for, with every operand in range and every word faithful. -/
theorem generate_faithful (accepted : Catalog.ofRecords records = .ok generator.catalog)
    (follows : ∀ record ∈ records, record.FollowsBase)
    (bare : ∀ record ∈ records, record.isCalled "ECALL" ∨ record.isCalled "EBREAK" →
      record.pattern = [])
    (drawable : generator.profile.Drawable) (length : Nat) :
    ∃ program after, generator.generate length = .ok (.ok program, after) ∧
      program.instructions.length = length ∧
      ∀ inst ∈ program.instructions, inst.InRange ∧
        inst.Faithful (inst.word.fields inst.record.format inst.record.kind) := by
  have regular (record : Record) (offered : generator.catalog.Offers record) : record.Regular :=
    Catalog.regular_of_ofRecords accepted follows bare offered
  obtain ⟨run, source, drawn, sound⟩ :=
    (Run.succeeds_ofLength generator.catalog drawable length).gives
      (Run.ensures_sound generator.catalog generator.profile length) generator.source
  obtain ⟨program, assembled⟩ := generator.assemble_of_complete (sound.complete regular)
  have given := generate_eq_ok_iff.2 ⟨run, source, drawn, assembled, rfl⟩
  have assembles := assembles assembled
  refine ⟨program, { generator with source }, given, assembles.length_instructions sound, ?_⟩
  intro inst member
  exact assembles.faithful sound regular member

/-- The stock generator. -/
theorem generate_faithful_standard :
    ∃ program after, (Generator.ofSeed .rv32i .standard 7).generate 100 = .ok (.ok program, after) ∧
      program.instructions.length = 100 ∧
      ∀ inst ∈ program.instructions, inst.InRange ∧
        inst.Faithful (inst.word.fields inst.record.format inst.record.kind) := by
  have bare : ∀ record ∈ Base.records, record.isCalled "ECALL" ∨ record.isCalled "EBREAK" →
      record.pattern = [] := by decide +kernel
  exact generate_faithful Catalog.ofRecords_rv32i (by decide) bare (by decide +kernel) 100

end Generator

end Rv32Stimulus
