/-
# Proofs.Program.Shape -- what every instruction of a program looks like

Whatever the records of a catalog ask for, in whatever order and however often, a finished
instruction has exactly the operands of its pattern, registers and shift amounts below 32, the name of
its target for a label, and the word and the text of what it holds (`Instruction.Shaped`).

Synthesis fills the operands and names nothing (`ensures_synthesize_unnamed`), injection never
fills an operand that is not there (`Instruction.Patched.populated`), naming and resolving
look at the target alone, and writing changes no operand.
-/
import Rv32Stimulus.Proofs.Program.Words

namespace Rv32Stimulus

set_option autoImplicit false

open Rv32Stimulus.Random

namespace Instruction

/-- A finished instruction of a program of `length` instructions whose targets are named by
`labels`. -/
structure Shaped (length : Nat) (labels : LabelTable) (inst : Instruction) : Prop where
  rd : inst.rd.isSome ↔ .rd ∈ inst.record.pattern
  rs1 : inst.rs1.isSome ↔ .rs1 ∈ inst.record.pattern ∨ .memory ∈ inst.record.pattern
  rs2 : inst.rs2.isSome ↔ .rs2 ∈ inst.record.pattern
  shamt : inst.shamt.isSome ↔ .shamt ∈ inst.record.pattern
  target : inst.target.isSome ↔ .label ∈ inst.record.pattern
  label : inst.label.isSome ↔ .label ∈ inst.record.pattern
  imm : inst.imm.isSome ↔
    .imm ∈ inst.record.pattern ∨ .imm20 ∈ inst.record.pattern ∨ .memory ∈ inst.record.pattern ∨
      .label ∈ inst.record.pattern ∨ .predSucc ∈ inst.record.pattern
  rd_lt : ∀ register, inst.rd = some register → register.toNat < 32
  rs1_lt : ∀ register, inst.rs1 = some register → register.toNat < 32
  rs2_lt : ∀ register, inst.rs2 = some register → register.toNat < 32
  shamt_lt : ∀ amount, inst.shamt = some amount → amount.toNat < 32
  named : inst.label = inst.target.map labelName
  target_lt : ∀ target, inst.target = some target → target < length
  encodes : inst.encode = .ok inst.word
  text : inst.text =
    if inst.record.format = .unsupported then "nop" else inst.assembly labels
  substituted : inst.record.format = .unsupported → inst.word = 0x13#32

end Instruction

/-! ## Names are given last -/

theorem Draft.Fills.label_eq {profile : Profile} {site : Site} {draft next : Draft} {role : Role}
    (fills : Fills profile site draft role next) : next.inst.label = draft.inst.label := by
  cases fills <;> rfl

theorem ensures_synthesize_unnamed (catalog : Catalog) (profile : Profile) (site : Site)
    (backward : UInt32) :
    (synthesize catalog profile site backward).Ensures fun draft => draft.inst.label = none := by
  refine (Draw.Ensures.trivial _).bind ?_
  intro record _
  refine Draft.ensures_of_kept ?_ ?_ record.pattern
  · intro draft role next fills unnamed
    exact fills.label_eq.trans unnamed
  · rfl

theorem Run.ensures_unnamed (catalog : Catalog) (profile : Profile) (length : Nat) :
    (ofLength catalog profile length).Ensures fun run => ∀ inst ∈ run.sequence, inst.label = none := by
  refine ensures_of_kept (by simp [sequence]) ?_
  intro index run unnamed
  refine (ensures_synthesize_unnamed catalog profile _ run.backward).bind ?_
  intro draft fresh
  refine (run.tracker.ensures_inject profile.hazards run.previous? draft.inst).bind ?_
  intro injection patched
  have still : injection.inst.label = none := by
    rw [patched.frame]
    exact fresh
  refine .pure ?_
  simpa [sequence, Emission.inst, or_imp, forall_and, still] using unnamed

/-! ## Finished instructions -/

namespace Instruction

variable {catalog : Catalog} {site : Site} {inst : Instruction}

theorem label_completed (inst : Instruction) (labels : LabelTable) (position : Nat) :
    (inst.completed labels position).label = (inst.target.map labelName).or inst.label := by
  obtain ⟨record, rd, rs1, rs2, imm, shamt, target, label, word, text⟩ := inst
  cases target <;> rfl

theorem exists_takesImmediate_iff {pattern : List Role} :
    (∃ role ∈ pattern, role.takesImmediate) ↔
      .imm ∈ pattern ∨ .imm20 ∈ pattern ∨ .memory ∈ pattern ∨ .label ∈ pattern ∨
        .predSucc ∈ pattern := by
  constructor
  · rintro ⟨role, member, takes⟩
    cases role <;> simp_all [Role.takesImmediate]
  · rintro (member | member | member | member | member) <;> exact ⟨_, member, rfl⟩

theorem Drawn.shaped_completed (drawn : inst.Drawn catalog site) (unnamed : inst.label = none)
    {labels : LabelTable} {position : Nat}
    (complete : (inst.completed labels position).missingRole? = none) :
    (inst.completed labels position).Shaped site.length labels where
  rd := by simpa using drawn.populated.rd
  rs1 := by simpa using drawn.populated.rs1
  rs2 := by simpa using drawn.populated.rs2
  shamt := by simpa using drawn.populated.shamt
  target := by simpa using drawn.populated.target
  label := by simpa [label_completed, unnamed] using drawn.populated.target
  imm := by
    rw [completed_record, ← exists_takesImmediate_iff]
    exact drawn.isSome_completed_imm labels position
  rd_lt := by simpa using drawn.fits.rd
  rs1_lt := by simpa using drawn.fits.rs1
  rs2_lt := by simpa using drawn.fits.rs2
  shamt_lt := by simpa using drawn.fits.shamt
  named := by simp [label_completed, unnamed]
  target_lt target aimed := by
    rw [completed_target] at aimed
    exact (drawn.lands target aimed).1
  encodes := encode_eq_ok_iff.2 ⟨complete, rfl⟩
  text := by
    rw [completed_record]
    split
    · rename_i unsupported
      rw [← completed_record inst labels position] at unsupported
      exact if_pos unsupported
    · rename_i supported
      exact completed_text _ _ _ supported
  substituted unsupported := by
    rw [completed_word, pack, unsupported]
    rfl

end Instruction

/-! ## Programs -/

theorem Program.Assembles.missingRole?_eq_none {run : Run} {program : Program}
    (assembles : program.Assembles run) {inst : Instruction} (member : inst ∈ program.instructions) :
    inst.missingRole? = none := by
  rw [assembles.instructions, ← map_written_resolve] at member
  obtain ⟨resolved, inSequence, rfl⟩ := List.mem_map.1 member
  exact assembles.complete resolved inSequence

theorem Program.Assembles.shaped {catalog : Catalog} {length : Nat} {run : Run} {program : Program}
    (assembles : program.Assembles run) (sound : run.Sound catalog length length)
    (unnamed : ∀ inst ∈ run.sequence, inst.label = none) {inst : Instruction}
    (member : inst ∈ program.instructions) : inst.Shaped length program.labels := by
  have complete := assembles.missingRole?_eq_none member
  obtain ⟨position, found⟩ := List.getElem?_of_mem member
  obtain ⟨fresh, inRun, rfl⟩ := assembles.getElem? found
  rw [assembles.labels]
  exact (sound.drawn position fresh inRun).shaped_completed
    (unnamed fresh (List.mem_of_getElem? inRun)) complete

namespace Generator

variable {generator after : Generator} {program : Program} {length : Nat}

/-- Every instruction of a generated program has the operands of its pattern and no others, in range,
with the word and the text that belong to them; the manifest counts those that had to be written as
no-operations. -/
theorem instructions_shaped (given : generator.generate length = .ok (.ok program, after)) :
    (∀ inst ∈ program.instructions, inst.Shaped length program.labels) ∧
      program.manifest.nopSubstitutions =
        (program.instructions.filter (·.record.format = .unsupported)).length := by
  obtain ⟨run, source, drawn, assembled, -⟩ := generate_eq_ok_iff.1 given
  have sound := Run.ensures_sound _ _ _ drawn
  have unnamed := Run.ensures_unnamed _ _ _ drawn
  have assembles := assembles assembled
  constructor
  · exact fun inst member => assembles.shaped sound unnamed member
  · obtain rfl := eq_program assembled
    rw [← List.countP_eq_length_filter]
    rfl

/-- A generator of branches that no word can hold, with a role for everything and the label twice. -/
def ofVectorBranches (seed : UInt64) : Generator :=
  .ofSeed
    ⟨[.addi, { mnemonic := "VBR", format := .unsupported, category := .branch, opcode := 0x57
               pattern := [.label, .rs2, .memory, .shamt, .rd, .label, .imm20] }]⟩
    { Profile.standard with weights := .ofList [("alu_logic", 1.0), ("branch", 1.0)] } seed

/-- A sum, a vector branch back to it, and one more sum. -/
theorem instructions_shaped_vector_branch :
    ∃ program after inst, (ofVectorBranches 2).generate 3 = .ok (.ok program, after) ∧
      program.instructions[1]? = some inst ∧ inst.record.mnemonic = "VBR" ∧ inst.target = some 0 ∧
      inst.Shaped 3 program.labels ∧
      (program.instructions.filter (·.record.format = .unsupported)).length = 1 ∧
      program.manifest.nopSubstitutions = 1 := by
  have observed : (ofVectorBranches 2).observe 3 (fun program =>
      (program.instructions[1]?.map fun inst => (inst.record.mnemonic, inst.target),
        (program.instructions.filter (·.record.format = .unsupported)).length)) =
      some (some ("VBR", some 0), 1) := by decide +kernel
  obtain ⟨program, after, given, seen⟩ := exists_of_observe observed
  obtain ⟨atOne, substitutes⟩ := Prod.mk.inj seen
  obtain ⟨inst, found, is⟩ := Option.map_eq_some_iff.1 atOne
  obtain ⟨mnemonic, target⟩ := Prod.mk.inj is
  obtain ⟨shaped, counted⟩ := instructions_shaped given
  exact ⟨program, after, inst, given, found, mnemonic, target,
    shaped inst (List.mem_of_getElem? found), substitutes, counted.trans substitutes⟩

end Generator

end Rv32Stimulus
