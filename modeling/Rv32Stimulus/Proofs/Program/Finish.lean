/-
# Proofs.Program.Finish -- how a drawn run becomes a program

Naming, resolving and writing each look at one instruction and its position, so a program
holds, position by position, what `Instruction.completed` makes of the drawn
instruction (`Program.Assembles`).  A run determines its program (`Generator.program`), whether or
not that can be given out.  It can unless some instruction lacks an operand of its
pattern, and then the first of these is the error (`Generator.assemble_eq`).

`Generator.generated` opens a call: a program that comes out of it is assembled from a
sound run.
-/
import Rv32Stimulus.Proofs.Control.Displacement
import Rv32Stimulus.Proofs.Program.Run

namespace Rv32Stimulus

set_option autoImplicit false

open Rv32Stimulus.Random

namespace Instruction

/-! ## One instruction -/

/-- The instruction with its word and its text. -/
def written (inst : Instruction) (labels : LabelTable) : Instruction :=
  { inst with
    word := inst.pack
    text := if inst.record.format = .unsupported then substituteText else inst.assembly labels }

/-- What becomes of the instruction drawn for `position`. -/
def completed (inst : Instruction) (labels : LabelTable) (position : Nat) : Instruction :=
  (inst.withLabel.resolvedAt position).written labels

section Completed

variable (inst : Instruction) (labels : LabelTable) (position : Nat)

/-- Only the immediate, the label, the word and the text are set. -/
theorem completed_frame :
    inst.completed labels position =
      { inst with
        imm := (inst.completed labels position).imm
        label := (inst.completed labels position).label
        word := (inst.completed labels position).word
        text := (inst.completed labels position).text } := by
  obtain ⟨record, rd, rs1, rs2, imm, shamt, target, label, word, text⟩ := inst
  cases target <;> rfl

@[simp] theorem completed_record : (inst.completed labels position).record = inst.record := by
  rw [completed_frame]

@[simp] theorem completed_rd : (inst.completed labels position).rd = inst.rd := by
  rw [completed_frame]

@[simp] theorem completed_rs1 : (inst.completed labels position).rs1 = inst.rs1 := by
  rw [completed_frame]

@[simp] theorem completed_rs2 : (inst.completed labels position).rs2 = inst.rs2 := by
  rw [completed_frame]

@[simp] theorem completed_shamt : (inst.completed labels position).shamt = inst.shamt := by
  rw [completed_frame]

@[simp] theorem completed_target : (inst.completed labels position).target = inst.target := by
  rw [completed_frame]

@[simp] theorem completed_imm : (inst.completed labels position).imm =
    (inst.target.map fun target => .ofInt (inst.record.format.offset position target)).or
      inst.imm := by
  obtain ⟨record, rd, rs1, rs2, imm, shamt, target, label, word, text⟩ := inst
  cases target <;> rfl

theorem completed_label {inst : Instruction} {target : Nat} (aimed : inst.target = some target) :
    (inst.completed labels position).label = some (labelName target) := by
  obtain ⟨record, rd, rs1, rs2, imm, shamt, aim, label, word, text⟩ := inst
  obtain rfl : aim = some target := aimed
  rfl

/-- The text does not depend on the word, nor on the text before. -/
theorem completed_text (supported : inst.record.format ≠ .unsupported) :
    (inst.completed labels position).text = (inst.completed labels position).assembly labels := by
  rw [← completed_record inst labels position] at supported
  exact if_neg supported

/-- Neither the word nor the text is packed. -/
theorem completed_word :
    (inst.completed labels position).word = (inst.completed labels position).pack := rfl

/-- The word of a completed instruction, read under its own format. -/
theorem fields_completed :
    (inst.completed labels position).word.fields inst.record.format inst.record.kind =
      (inst.completed labels position).carried := by
  rw [completed_word, ← completed_record inst labels position]
  exact fields_pack _

/-- The displacement that a branch or jump is resolved to is the one its word carries. -/
theorem fields_completed_imm {inst : Instruction} {target : Nat}
    (relative : inst.record.format.IsRelative) (aimed : inst.target = some target) :
    ((inst.completed labels position).word.fields inst.record.format inst.record.kind).imm =
      some (inst.record.format.offset position target) := by
  have exact_ := toInt_ofInt_offset relative position target
  rw [fields_completed, ← exact_]
  apply carried_imm_of_admits
  · simpa using relative
  · simp [aimed]
  · rw [completed_record, exact_]
    exact Format.admits_offset relative position target

end Completed

/-! ## Missing operands -/

/-- What is wrong with the instruction at `index`: the first role whose operand is missing. -/
def faultAt? (inst : Instruction) (index : Nat) : Option GenerateError :=
  inst.missingRole?.map fun role => .unencodable index ⟨inst.record.mnemonic, role⟩

theorem finishAt_eq (inst : Instruction) (labels : LabelTable) (index : Nat) :
    inst.finishAt labels index = match inst.faultAt? index with
      | some fault => .error fault
      | none => .ok (inst.written labels) := by
  unfold finishAt finish encode faultAt?
  cases inst.missingRole? <;> rfl

end Instruction

/-- The fault of the first instruction that has one. -/
def firstFault? (sequence : List Instruction) : Option GenerateError :=
  sequence.zipIdx.findSome? fun (inst, index) => inst.faultAt? index

theorem firstFault?_eq_mapIdx (sequence : List Instruction) :
    firstFault? sequence =
      (sequence.mapIdx fun index inst => inst.faultAt? index).findSome? id := by
  rw [List.mapIdx_eq_zipIdx_map, List.findSome?_map]
  rfl

theorem finishAll_eq (sequence : List Instruction) (labels : LabelTable) :
    finishAll sequence labels = match firstFault? sequence with
      | some fault => .error fault
      | none => .ok (sequence.map (·.written labels)) := by
  suffices fromIndex : ∀ index,
      ((sequence.zipIdx index).mapM fun entry => entry.1.finishAt labels entry.2) =
        match (sequence.zipIdx index).findSome? fun entry => entry.1.faultAt? entry.2 with
        | some fault => .error fault
        | none => .ok (sequence.map (·.written labels)) from fromIndex 0
  induction sequence with
  | nil =>
      intro index
      rfl
  | cons inst rest ih =>
      intro index
      rw [List.zipIdx_cons, List.mapM_cons, List.findSome?_cons]
      dsimp only
      rw [inst.finishAt_eq, ih]
      cases inst.faultAt? index with
      | some fault => rfl
      | none =>
          dsimp only
          cases (rest.zipIdx (index + 1)).findSome? fun entry => entry.1.faultAt? entry.2 <;> rfl

theorem firstFault?_eq_none_iff {sequence : List Instruction} :
    firstFault? sequence = none ↔ ∀ inst ∈ sequence, inst.missingRole? = none := by
  unfold firstFault?
  rw [List.findSome?_eq_none_iff]
  constructor
  · intro faultless inst member
    obtain ⟨index, found⟩ := List.mem_iff_getElem?.1 member
    have entry : (inst, index) ∈ sequence.zipIdx := List.mem_zipIdx_iff_getElem?.2 found
    exact Option.map_eq_none_iff.1 (faultless _ entry)
  · rintro complete ⟨inst, index⟩ entry
    have found : sequence[index]? = some inst := List.mem_zipIdx_iff_getElem?.1 entry
    exact Option.map_eq_none_iff.2 (complete inst (List.mem_of_getElem? found))

/-! ## Programs -/

/-- A program that is made of a run. -/
structure Program.Assembles (run : Run) (program : Program) : Prop where
  complete : ∀ inst ∈ resolve (run.sequence.map Instruction.withLabel), inst.missingRole? = none
  instructions : program.instructions = run.sequence.mapIdx fun position inst =>
    inst.completed (labelTable run.sequence) position
  labels : program.labels = labelTable run.sequence
  backwardBranches : program.manifest.backwardBranches = run.backward
  offsetFallbacks : program.manifest.offsetFallbacks =
    outOfReach (run.sequence.map Instruction.withLabel)

theorem map_written_resolve (sequence : List Instruction) (labels : LabelTable) :
    (resolve (sequence.map Instruction.withLabel)).map (·.written labels) =
      sequence.mapIdx fun position inst => inst.completed labels position := by
  apply List.ext_getElem?
  intro position
  simp only [resolve, List.getElem?_map, List.getElem?_mapIdx, Option.map_map]
  rfl

/-- What a generated program looks like; nothing if there is none. -/
def Generator.observe {α : Type} (generator : Generator) (length : Nat) (view : Program → α) :
    Option α :=
  (generator.generate length).toOption.bind fun (outcome, _) => outcome.toOption.map view

namespace Generator

/-- The program that a run stands for. -/
def program (generator : Generator) (run : Run) : Program :=
  let labels := labelTable run.sequence
  let instructions := run.sequence.mapIdx fun position inst => inst.completed labels position
  { instructions, labels
    manifest :=
      { generator := Manifest.generatorName, version := Manifest.generatorVersion
        timestamp := none, seed := generator.seed, length := run.emitted.length
        weights := generator.profile.weights, backwardBranches := run.backward
        offsetFallbacks := outOfReach (run.sequence.map Instruction.withLabel)
        nopSubstitutions := instructions.countP (·.record.format == .unsupported) } }

theorem firstFault?_program (generator : Generator) (run : Run) :
    firstFault? (generator.program run).instructions =
      firstFault? (resolve (run.sequence.map Instruction.withLabel)) := by
  have instructions : (generator.program run).instructions =
      (resolve (run.sequence.map Instruction.withLabel)).map (·.written (labelTable run.sequence)) :=
    (map_written_resolve _ _).symm
  -- Neither the word nor the text is an operand.
  rw [instructions, firstFault?, firstFault?, List.zipIdx_map, List.findSome?_map]
  rfl

theorem assemble_eq (generator : Generator) (run : Run) :
    generator.assemble run = match firstFault? (generator.program run).instructions with
      | some fault => .error fault
      | none => .ok (generator.program run) := by
  rw [firstFault?_program]
  unfold assemble
  dsimp only
  rw [finishAll_eq]
  cases firstFault? (resolve (run.sequence.map Instruction.withLabel)) with
  | some fault => rfl
  | none =>
      dsimp only
      rw [map_written_resolve]
      rfl

variable {generator after : Generator} {run : Run} {program : Program} {length : Nat}

theorem assembles (assembled : generator.assemble run = .ok program) : program.Assembles run := by
  rw [assemble_eq, firstFault?_program] at assembled
  cases faults : firstFault? (resolve (run.sequence.map Instruction.withLabel)) with
  | some fault => rw [faults] at assembled; cases assembled
  | none =>
      rw [faults] at assembled
      obtain rfl := Except.ok.inj assembled
      exact ⟨firstFault?_eq_none_iff.1 faults, rfl, rfl, rfl, rfl⟩

/-- A run can only become the program that it stands for. -/
theorem eq_program (assembled : generator.assemble run = .ok program) :
    program = generator.program run := by
  rw [assemble_eq] at assembled
  split at assembled
  · cases assembled
  · exact (Except.ok.inj assembled).symm

/-- Nothing but a missing operand keeps a run from being a program. -/
theorem assemble_of_complete (generator : Generator)
    (complete : ∀ inst ∈ resolve (run.sequence.map Instruction.withLabel), inst.missingRole? = none) :
    ∃ program, generator.assemble run = .ok program := by
  rw [assemble_eq, firstFault?_program, firstFault?_eq_none_iff.2 complete]
  exact ⟨_, rfl⟩

theorem generate_eq_ok_iff {outcome : Except GenerateError Program} :
    generator.generate length = .ok (outcome, after) ↔
      ∃ run source,
        Run.ofLength generator.catalog generator.profile length generator.source = .ok (run, source) ∧
        generator.assemble run = outcome ∧ { generator with source } = after := by
  unfold generate
  cases drawn : Run.ofLength generator.catalog generator.profile length generator.source with
  | error fault => simp [bind, Except.bind]
  | ok result =>
      obtain ⟨run, source⟩ := result
      change Except.ok (generator.assemble run, _) = _ ↔ _
      simp only [Except.ok.injEq, Prod.mk.injEq]
      constructor
      · rintro ⟨same, moved⟩
        exact ⟨run, source, ⟨rfl, rfl⟩, same, moved⟩
      · rintro ⟨_, _, ⟨rfl, rfl⟩, same, moved⟩
        exact ⟨same, moved⟩

/-- A program that is generated is made of a sound run. -/
theorem generated (given : generator.generate length = .ok (.ok program, after)) :
    ∃ run : Run, run.Sound generator.catalog length length ∧ program.Assembles run := by
  obtain ⟨run, source, drawn, assembled, -⟩ := generate_eq_ok_iff.1 given
  exact ⟨run, Run.ensures_sound _ _ _ drawn, assembles assembled⟩

theorem exists_of_observe {α : Type} {view : Program → α} {seen : α}
    (observed : generator.observe length view = some seen) :
    ∃ program after, generator.generate length = .ok (.ok program, after) ∧ view program = seen := by
  unfold observe at observed
  cases given : generator.generate length with
  | error fault => rw [given] at observed; cases observed
  | ok result =>
      obtain ⟨outcome, after⟩ := result
      rw [given] at observed
      cases outcome with
      | error fault => cases observed
      | ok program => exact ⟨program, after, rfl, Option.some.inj observed⟩

end Generator

namespace Program.Assembles

variable {catalog : Catalog} {length : Nat} {run : Run} {program : Program}

theorem length_instructions (assembles : program.Assembles run)
    (sound : run.Sound catalog length length) : program.instructions.length = length := by
  rw [assembles.instructions, List.length_mapIdx, sound.length_sequence]

/-- The drawn instruction behind an instruction of the program. -/
theorem getElem? (assembles : program.Assembles run) {position : Nat} {inst : Instruction}
    (found : program.instructions[position]? = some inst) :
    ∃ drawn, run.sequence[position]? = some drawn ∧
      drawn.completed (labelTable run.sequence) position = inst := by
  rw [assembles.instructions, List.getElem?_mapIdx, Option.map_eq_some_iff] at found
  exact found

end Program.Assembles

end Rv32Stimulus
