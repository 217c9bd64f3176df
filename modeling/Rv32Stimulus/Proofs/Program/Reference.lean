/-
# Proofs.Program.Reference -- which label lines some text refers to

Names are given to all targets before it is known how the instructions that have them are
written.  So the label lines of a listing are those of the targets (`labelLine_mem_assembly_iff`), but
the name of a target is written only by instructions whose records show their
operands (`Record.ShowsOperands`): not by those that stand as no-operations for lack of a
format, nor by those whose mnemonic is written bare (`exists_writesLabel_iff`).

`label_line_referenced_iff` puts the two together.  A label line that nothing refers to
exists (`label_line_without_reference`), but not where every record with a label role
shows its operands.
-/
import Rv32Stimulus.Proofs.Instruction.Assembly
import Rv32Stimulus.Proofs.Program.ControlFlow
import Rv32Stimulus.Proofs.Program.Listing
import Rv32Stimulus.Proofs.Program.Shape

namespace Rv32Stimulus

set_option autoImplicit false

/-- The text of an instruction of the record has its operands. -/
def Record.ShowsOperands (record : Record) : Prop :=
  record.format ≠ .unsupported ∧ record.mnemonic.toLower ∉ Instruction.bareMnemonics

instance (record : Record) : Decidable record.ShowsOperands :=
  inferInstanceAs (Decidable (_ ∧ _))

/-! ## Texts -/

theorem Instruction.Shaped.writesLabel_iff {length : Nat} {labels : LabelTable} {inst : Instruction}
    (shaped : inst.Shaped length labels) {position : Nat} :
    inst.WritesLabel labels (labelName position) ↔
      inst.target = some position ∧ inst.record.ShowsOperands := by
  by_cases unsupported : inst.record.format = .unsupported
  · -- The text is that of a no-operation, which has no operands at all.
    have text : inst.text = "nop" := by rw [shaped.text, if_pos unsupported]
    constructor
    · intro writes
      have blank := writes.blank_mem
      rw [text] at blank
      exact absurd blank (by decide)
    · rintro ⟨-, supported, -⟩
      exact absurd unsupported supported
  · have text : inst.text = inst.assembly labels := by rw [shaped.text, if_neg unsupported]
    cases aimed : inst.target with
    | none =>
        have unnamed : .label ∉ inst.record.pattern := by
          rw [← shaped.target, aimed]
          exact Bool.false_ne_true
        constructor
        · rintro ⟨before, after, split, -⟩
          exact absurd (by simp [split]) unnamed
        · rintro ⟨impossible, -⟩
          cases impossible
    | some target =>
        have member : .label ∈ inst.record.pattern := shaped.target.1 (by rw [aimed]; rfl)
        have labelled : inst.label = some (labelName target) := by rw [shaped.named, aimed]; rfl
        rw [Instruction.writesLabel_iff text labelled, Option.some.injEq]
        constructor
        · rintro ⟨named, -, same⟩
          exact ⟨(labelName_injective same).symm, unsupported, named⟩
        · rintro ⟨rfl, -, named⟩
          exact ⟨named, member, rfl⟩

/-! ## Lines -/

namespace Listing

variable {labels : LabelTable} {sequence : List Instruction}

/-- The label lines of a listing are those of the positions that the table names. -/
theorem mem_assembly_iff_of_isLabelLine {line : String} (isLabel : isLabelLine line = true) :
    line ∈ assembly sequence labels ↔
      ∃ position < sequence.length, ∃ name, labels.find? position = some name ∧ line = labelLine name := by
  have notInstruction (inst : Instruction) : line ≠ instructionLine inst := by
    rintro rfl
    rw [isLabelLine_instructionLine] at isLabel
    cases isLabel
  have atPosition (inst : Instruction) (position : Nat) : line ∈ linesAt labels inst position ↔
      ∃ name, labels.find? position = some name ∧ line = labelLine name := by
    unfold linesAt
    cases labels.find? position <;> simp [notInstruction]
  unfold assembly
  rw [List.mem_flatMap]
  constructor
  · rintro ⟨⟨inst, position⟩, entry, member⟩
    have found : sequence[position]? = some inst := List.mem_zipIdx_iff_getElem?.1 entry
    exact ⟨position, (List.getElem?_eq_some_iff.1 found).1, (atPosition inst position).1 member⟩
  · rintro ⟨position, inside, named⟩
    have entry : (sequence[position], position) ∈ sequence.zipIdx :=
      List.mem_zipIdx_iff_getElem?.2 (List.getElem?_eq_getElem inside)
    exact ⟨_, entry, (atPosition _ position).2 named⟩

end Listing

/-! ## Programs -/

namespace Program.Assembles

variable {catalog : Catalog} {length : Nat} {run : Run} {program : Program}

theorem find?_labels (assembles : program.Assembles run) (position : Nat) :
    program.labels.find? position =
      if ∃ inst ∈ program.instructions, inst.target = some position then some (labelName position)
      else none := by
  have targets : (∃ inst ∈ program.instructions, inst.target = some position) ↔
      ∃ inst ∈ run.sequence, inst.target = some position := by
    rw [assembles.instructions]
    constructor
    · rintro ⟨_, member, aimed⟩
      obtain ⟨index, inside, rfl⟩ := List.mem_mapIdx.1 member
      exact ⟨_, List.getElem_mem inside, by simpa using aimed⟩
    · rintro ⟨inst, member, aimed⟩
      obtain ⟨index, inside, rfl⟩ := List.getElem_of_mem member
      exact ⟨_, List.mem_mapIdx.2 ⟨index, inside, rfl⟩, by simpa using aimed⟩
  rw [assembles.labels, find?_labelTable]
  simp only [targets]

/-- A line of the listing is a label line if and only if it is the one of a target. -/
theorem labelLine_mem_assembly_iff (assembles : program.Assembles run)
    (shaped : ∀ inst ∈ program.instructions, inst.Shaped length program.labels)
    (size : program.instructions.length = length) {line : String}
    (isLabel : Listing.isLabelLine line = true) :
    line ∈ program.assembly ↔ ∃ position, line = Listing.labelLine (labelName position) ∧
      ∃ inst ∈ program.instructions, inst.target = some position := by
  unfold assembly
  rw [Listing.mem_assembly_iff_of_isLabelLine isLabel]
  constructor
  · rintro ⟨position, -, name, named, rfl⟩
    rw [assembles.find?_labels] at named
    split at named
    · obtain rfl := Option.some.inj named
      exact ⟨position, rfl, ‹_›⟩
    · cases named
  · rintro ⟨position, rfl, inst, member, aimed⟩
    refine ⟨position, ?_, labelName position, ?_, rfl⟩
    · rw [size]
      exact (shaped inst member).target_lt position aimed
    · rw [assembles.find?_labels, if_pos ⟨inst, member, aimed⟩]

end Program.Assembles

namespace Generator

variable {generator after : Generator} {program : Program} {length : Nat}

/-- The label lines of a generated listing are those of the targets of its instructions, and a text
refers to one exactly if some instruction with that target shows its operands. -/
theorem label_line_referenced_iff (given : generator.generate length = .ok (.ok program, after)) :
    (∀ line, Listing.isLabelLine line = true →
      (line ∈ program.assembly ↔ ∃ position, line = Listing.labelLine (labelName position) ∧
        ∃ inst ∈ program.instructions, inst.target = some position)) ∧
    (∀ position,
      (∃ inst ∈ program.instructions, inst.WritesLabel program.labels (labelName position)) ↔
        ∃ inst ∈ program.instructions, inst.target = some position ∧
          inst.record.format ≠ .unsupported ∧
          inst.record.mnemonic.toLower ∉ Instruction.bareMnemonics) := by
  obtain ⟨run, source, drawn, assembled, -⟩ := generate_eq_ok_iff.1 given
  have assembles := assembles assembled
  have sound := Run.ensures_sound _ _ _ drawn
  have shaped (inst : Instruction) (member : inst ∈ program.instructions) :
      inst.Shaped length program.labels :=
    assembles.shaped sound (Run.ensures_unnamed _ _ _ drawn) member
  constructor
  · intro line isLabel
    exact assembles.labelLine_mem_assembly_iff shaped (assembles.length_instructions sound) isLabel
  · intro position
    constructor
    · rintro ⟨inst, member, writes⟩
      exact ⟨inst, member, (shaped inst member).writesLabel_iff.1 writes⟩
    · rintro ⟨inst, member, shows⟩
      exact ⟨inst, member, (shaped inst member).writesLabel_iff.2 shows⟩

/-- The first of two branches goes to the second, so a text refers to the second's label line. -/
theorem label_line_referenced_iff_branches :
    ∃ program after, (ofBranches 7).generate 2 = .ok (.ok program, after) ∧
      Listing.labelLine (labelName 1) ∈ program.assembly ∧
      ∃ inst ∈ program.instructions, inst.WritesLabel program.labels (labelName 1) := by
  have observed : (ofBranches 7).observe 2 (fun program =>
      program.instructions[0]?.map fun inst => (inst.target, decide inst.record.ShowsOperands)) =
        some (some (some 1, true)) := by decide +kernel
  obtain ⟨program, after, given, seen⟩ := exists_of_observe observed
  obtain ⟨inst, found, shape⟩ := Option.map_eq_some_iff.1 seen
  obtain ⟨aimed, shows⟩ := Prod.mk.inj shape
  have member := List.mem_of_getElem? found
  obtain ⟨lines, references⟩ := label_line_referenced_iff given
  exact ⟨program, after, given,
    (lines _ (Listing.isLabelLine_labelLine _)).2 ⟨1, rfl, inst, member, aimed⟩,
    (references 1).2 ⟨inst, member, aimed, of_decide_eq_true shows⟩⟩

/-- A generator of nothing but branches that no word can hold. -/
def ofUnwritableBranches : Generator :=
  .ofSeed
    ⟨[{ mnemonic := "VBR", format := .unsupported, category := .branch, opcode := 0x57
        pattern := [.label] }]⟩
    { Profile.standard with weights := .ofList [("branch", 1.0)] } 1

/-- A branch to itself that stands as a no-operation has a label line, but no text refers to it. -/
theorem label_line_without_reference :
    ¬∀ (generator : Generator) (records : List Record) (length : Nat) (program : Program)
      (after : Generator), Catalog.ofRecords records = .ok generator.catalog →
        generator.generate length = .ok (.ok program, after) →
        ∀ position, Listing.labelLine (labelName position) ∈ program.assembly →
          ∃ inst ∈ program.instructions, inst.WritesLabel program.labels (labelName position) := by
  intro referenced
  have accepted : Catalog.ofRecords ofUnwritableBranches.catalog.records =
      .ok ofUnwritableBranches.catalog := by rfl
  have observed : ofUnwritableBranches.observe 1 (fun program =>
      (decide (Listing.labelLine (labelName 0) ∈ program.assembly),
        program.instructions.all fun inst => inst.text == "nop")) = some (true, true) := by
    decide +kernel
  obtain ⟨program, after, given, seen⟩ := exists_of_observe observed
  obtain ⟨listed, texts⟩ := Prod.mk.inj seen
  obtain ⟨inst, member, writes⟩ := referenced ofUnwritableBranches _ 1 program after accepted given 0
    (of_decide_eq_true listed)
  have text : inst.text = "nop" := by simpa using List.all_eq_true.1 texts inst member
  have blank := writes.blank_mem
  rw [text] at blank
  exact absurd blank (by decide)

end Generator

end Rv32Stimulus
