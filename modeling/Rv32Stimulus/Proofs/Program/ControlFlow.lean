/-
# Proofs.Program.ControlFlow -- where the branches and jumps of a program go

`control_stays_inside`: whatever the byte caps of the profile, the displacement in the word of a
branch or jump leads to a position of the program.  This covers the displacement
that stands in for one out of reach: the last instruction targets itself, which is in
reach, so an instruction that needs the substitute has a successor.

`text_agrees_with_words`: the name that the text of an instruction mentions is listed once,
directly before the instruction it means, and the word leads there as well, except for
as many instructions as the manifest counts.  Text, listing and words are made apart
from each other; what they share is the target.
-/
import Rv32Stimulus.Isa.Base
import Rv32Stimulus.Proofs.Control.Passes
import Rv32Stimulus.Proofs.Instruction.Assembly
import Rv32Stimulus.Proofs.Program.Finish
import Rv32Stimulus.Proofs.Program.Listing

namespace Rv32Stimulus

set_option autoImplicit false

/-- A generator of nothing but conditional branches. -/
def Generator.ofBranches (seed : UInt64) : Generator :=
  .ofSeed .rv32i { Profile.standard with weights := .ofList [("branch", 1.0)] } seed

/-! ## Words -/

namespace Generator

variable {generator after : Generator} {program : Program} {length position : Nat}
  {inst : Instruction}

/-- A branch or jump of a generated program, as its word says it, leads to a position of the
program. -/
theorem control_stays_inside (given : generator.generate length = .ok (.ok program, after))
    (found : program.instructions[position]? = some inst) (aimed : inst.target.isSome)
    (relative : inst.record.format = .b ∨ inst.record.format = .j) :
    ∃ offset : Int,
      (inst.word.fields inst.record.format inst.record.kind).imm = some offset ∧
      4 ∣ offset ∧ 0 ≤ position + offset / 4 ∧ position + offset / 4 < length := by
  obtain ⟨run, sound, assembles⟩ := generated given
  obtain ⟨drawn, inRun, rfl⟩ := assembles.getElem? found
  rw [Instruction.completed_target] at aimed
  rw [Instruction.completed_record] at relative ⊢
  obtain ⟨target, aimed⟩ := Option.isSome_iff_exists.1 aimed
  obtain ⟨inside, last⟩ := (sound.drawn position drawn inRun).lands target aimed
  have before : position < length := by
    rw [← sound.length_sequence]
    exact (List.getElem?_eq_some_iff.1 inRun).1
  refine ⟨drawn.record.format.offset position target, ?_, ?_, ?_⟩
  · exact Instruction.fields_completed_imm _ _ relative aimed
  · exact Int.dvd_of_emod_eq_zero (Format.offset_mod _ _ _)
  · exact Format.offset_inside relative before inside last

/-- The first of two branches. -/
theorem control_stays_inside_branch :
    ∃ program after inst, (ofBranches 7).generate 2 = .ok (.ok program, after) ∧
      program.instructions[0]? = some inst ∧ inst.target = some 1 ∧
      ∃ offset : Int,
        (inst.word.fields inst.record.format inst.record.kind).imm = some offset ∧
        4 ∣ offset ∧ 0 ≤ offset / 4 ∧ offset / 4 < 2 := by
  have observed : (ofBranches 7).observe 2 (fun program =>
      program.instructions[0]?.map fun inst => (inst.target, inst.record.format)) =
        some (some (some 1, .b)) := by decide +kernel
  obtain ⟨program, after, given, seen⟩ := exists_of_observe observed
  obtain ⟨inst, found, shape⟩ := Option.map_eq_some_iff.1 seen
  obtain ⟨aimed, format⟩ := Prod.mk.inj shape
  obtain ⟨offset, carried, aligned, inside⟩ :=
    control_stays_inside given found (by rw [aimed]; rfl) (.inl format)
  exact ⟨program, after, inst, given, found, aimed, offset, carried, aligned, by simpa using inside⟩

end Generator

/-! ## Text -/

namespace Program

/-- The assembly listing names `position` on exactly one line, which stands directly before the
instruction at `position`. -/
def NamesOnce (program : Program) (position : Nat) : Prop :=
  program.assembly.count (Listing.labelLine (labelName position)) = 1 ∧
    ∃ before landing after, program.instructions[position]? = some landing ∧
      program.assembly = before ++ Listing.labelLine (labelName position) ::
        Listing.instructionLine landing :: after ∧
      before.filter (!Listing.isLabelLine ·) =
        (program.instructions.take position).map Listing.instructionLine

end Program

namespace Instruction

/-- Whether the instruction at `position` has a label role, but a word that does not lead to
`goal`. -/
def misses (inst : Instruction) (position goal : Nat) : Bool :=
  inst.record.hasRole .label &&
    (inst.word.fields inst.record.format inst.record.kind).imm != some (displacement position goal)

end Instruction

/-- A record with a label role is a branch or a jump, and its text has operands. -/
def Record.MentionsTarget (record : Record) : Prop :=
  .label ∈ record.pattern →
    record.format.IsRelative ∧ record.mnemonic.toLower ∉ Instruction.bareMnemonics

/-- The target of the instruction at `position`. -/
def Run.goal (run : Run) (position : Nat) : Nat := (run.sequence[position]?.bind (·.target)).getD 0

namespace Instruction

variable {catalog : Catalog} {site : Site} {inst : Instruction}

theorem Drawn.misses_completed (drawn : inst.Drawn catalog site)
    (mentions : inst.record.MentionsTarget) (labels : LabelTable) (position : Nat) :
    (inst.completed labels position).misses position (inst.target.getD 0) =
      inst.withLabel.isOutOfReach position := by
  unfold misses isOutOfReach Record.hasRole
  rw [completed_record, withLabel_target, withLabel_record]
  cases aimed : inst.target with
  | none =>
      have unnamed : .label ∉ inst.record.pattern := fun member => by
        have present := drawn.populated.target.2 member
        rw [aimed] at present
        cases present
      simp [unnamed]
  | some target =>
      have member : .label ∈ inst.record.pattern := drawn.populated.target.1 (by rw [aimed]; rfl)
      have carried := fields_completed_imm labels position (mentions member).1 aimed
      have reached : inst.record.format.offset position target = displacement position target ↔
          inst.record.format.admits (displacement position target) = true :=
        Format.offset_eq_displacement_iff (mentions member).1
      rw [carried, List.contains_iff_mem.2 member, Bool.true_and]
      cases admitted : inst.record.format.admits (displacement position target) with
      | true => simp [reached.2 admitted, admitted]
      | false =>
          have differs := mt reached.1 (by simp [admitted])
          simp [differs, admitted]

end Instruction

namespace Program.Assembles

variable {catalog : Catalog} {length : Nat} {run : Run} {program : Program}

theorem namesOnce (assembles : program.Assembles run) {position : Nat} {drawn : Instruction}
    {target : Nat} (inRun : run.sequence[position]? = some drawn) (aimed : drawn.target = some target)
    (inside : target < program.instructions.length) : program.NamesOnce target := by
  have proper : Listing.Proper program.labels := assembles.labels ▸ Listing.proper_labelTable _
  have named : program.labels.find? target = some (labelName target) := by
    rw [assembles.labels, find?_labelTable, if_pos ⟨drawn, List.mem_of_getElem? inRun, aimed⟩]
  have found := List.getElem?_eq_getElem inside
  refine ⟨Listing.count_labelLine proper found named, ?_⟩
  refine ⟨Listing.assembly (program.instructions.take target) program.labels,
    program.instructions[target],
    Listing.linesFrom program.labels (target + 1) (program.instructions.drop (target + 1)),
    found, ?_, Listing.filter_assembly _ _⟩
  unfold assembly
  rw [Listing.assembly_eq_append program.labels found, Listing.linesAt_of_named named,
    List.append_assoc]
  rfl

/-- A label role is written as the name of the target. -/
theorem written (assembles : program.Assembles run) (sound : run.Sound catalog length length)
    (mentions : ∀ record, catalog.Offers record → record.MentionsTarget) {position : Nat}
    {inst : Instruction} (found : program.instructions[position]? = some inst)
    (member : .label ∈ inst.record.pattern) :
    run.goal position < length ∧ inst.WritesLabel program.labels (labelName (run.goal position)) ∧
      program.NamesOnce (run.goal position) := by
  obtain ⟨drawn, inRun, rfl⟩ := assembles.getElem? found
  rw [Instruction.completed_record] at member
  have atPosition := sound.drawn position drawn inRun
  obtain ⟨relative, named⟩ := mentions drawn.record atPosition.offered member
  obtain ⟨target, aimed⟩ := Option.isSome_iff_exists.1 (atPosition.populated.target.2 member)
  have goal : run.goal position = target := by simp [Run.goal, inRun, aimed]
  have inside := (atPosition.lands target aimed).1
  have supported : drawn.record.format ≠ .unsupported := by
    rcases relative with format | format <;> simp [format]
  rw [goal]
  refine ⟨inside, ?_, ?_⟩
  · apply Instruction.writesLabel_of_assembly
    · rw [assembles.labels]
      exact Instruction.completed_text _ _ _ supported
    · simpa using named
    · simpa using member
    · exact Instruction.completed_label _ _ aimed
  · apply assembles.namesOnce inRun aimed
    rw [assembles.length_instructions sound]
    exact inside

/-- The words that lead elsewhere are those whose target was out of reach. -/
theorem countP_misses (assembles : program.Assembles run) (sound : run.Sound catalog length length)
    (mentions : ∀ record, catalog.Offers record → record.MentionsTarget) :
    program.instructions.zipIdx.countP
      (fun (inst, position) => inst.misses position (run.goal position)) =
        program.manifest.offsetFallbacks := by
  rw [assembles.offsetFallbacks, assembles.instructions, outOfReach, zipIdx_mapIdx, List.zipIdx_map,
    List.countP_map, List.countP_map]
  apply List.countP_congr
  rintro ⟨drawn, position⟩ member
  have inRun : run.sequence[position]? = some drawn := List.mem_zipIdx_iff_getElem?.1 member
  have atPosition := sound.drawn position drawn inRun
  have goal : run.goal position = drawn.target.getD 0 := by simp [Run.goal, inRun]
  have same := atPosition.misses_completed (mentions drawn.record atPosition.offered)
    (labelTable run.sequence) position
  simp [goal, same]

end Program.Assembles

namespace Generator

variable {generator after : Generator} {program : Program} {length : Nat}

/-- Every label role is written as the name of a position of the program, the listing names that
position once, and the words lead elsewhere exactly as often as the manifest says. -/
theorem text_agrees_with_words (given : generator.generate length = .ok (.ok program, after))
    (labelled : ∀ record ∈ generator.catalog.records, .label ∈ record.pattern →
      (record.format = .b ∨ record.format = .j) ∧
        record.mnemonic.toLower ∉ Instruction.bareMnemonics) :
    ∃ goal : Nat → Nat,
      (∀ position inst, program.instructions[position]? = some inst →
        .label ∈ inst.record.pattern →
          goal position < length ∧
          inst.WritesLabel program.labels (labelName (goal position)) ∧
          program.NamesOnce (goal position)) ∧
      program.instructions.zipIdx.countP (fun (inst, position) => inst.misses position (goal position)) =
        program.manifest.offsetFallbacks := by
  obtain ⟨run, sound, assembles⟩ := generated given
  have mentions (record : Record) (offered : generator.catalog.Offers record) :
      record.MentionsTarget :=
    offered.induction Record.MentionsTarget (by unfold Record.MentionsTarget; decide) labelled
  refine ⟨run.goal, ?_, ?_⟩
  · intro position inst found member
    exact assembles.written sound mentions found member
  · exact assembles.countP_misses sound mentions

/-- The first of two branches. -/
theorem text_agrees_with_words_branch :
    ∃ program after inst, (ofBranches 7).generate 2 = .ok (.ok program, after) ∧
      program.instructions[0]? = some inst ∧ .label ∈ inst.record.pattern ∧
      ∃ goal : Nat → Nat,
        (goal 0 < 2 ∧ inst.WritesLabel program.labels (labelName (goal 0)) ∧
          program.NamesOnce (goal 0)) ∧
        program.instructions.zipIdx.countP
          (fun (inst, position) => inst.misses position (goal position)) =
            program.manifest.offsetFallbacks := by
  have observed : (ofBranches 7).observe 2 (fun program =>
      program.instructions[0]?.map fun inst => inst.record.pattern) =
        some (some [.rs1, .rs2, .label]) := by decide +kernel
  have labelled : ∀ record ∈ (ofBranches 7).catalog.records, .label ∈ record.pattern →
      (record.format = .b ∨ record.format = .j) ∧
        record.mnemonic.toLower ∉ Instruction.bareMnemonics := by decide +kernel
  obtain ⟨program, after, given, seen⟩ := exists_of_observe observed
  obtain ⟨inst, found, pattern⟩ := Option.map_eq_some_iff.1 seen
  have member : .label ∈ inst.record.pattern := by rw [pattern]; decide
  obtain ⟨goal, written, counted⟩ := text_agrees_with_words given labelled
  exact ⟨program, after, inst, given, found, member, goal, written 0 inst found member, counted⟩

end Generator

end Rv32Stimulus
