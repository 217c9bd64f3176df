/-
# Proofs.Program.HazardReach -- hazard probabilities reach the registers and nothing else

How many coins an injection throws depends on whether there is a predecessor and on whether that
is a load, never on the probabilities nor on what the coins say (`Tracker.lockstep_throwCoins`).
The patches that follow only point registers elsewhere (`Instruction.Patched`).  So the runs
of two generators that differ in their hazards alone take the same words and make the same
instructions but for the numbers of registers (`Instruction.SameButRegisters`).

`Generator.hazards_reach_registers_only` says what this means for finished programs
(`Program.RegistersApart`): the same labels, the same manifest, and instructions that differ in the
numbers of registers, in the bits of the word that hold them, and in the text that names them.
-/
import Rv32Stimulus.Proofs.Control.Passes
import Rv32Stimulus.Proofs.Program.Lockstep

namespace Rv32Stimulus

set_option autoImplicit false

open Rv32Stimulus.Random
open Draw (Lockstep)

namespace Instruction

variable {inst twin one other : Instruction}

/-! ## Drawn instructions -/

/-- The same instruction but for the numbers of the registers it has. -/
structure SameButRegisters (inst twin : Instruction) : Prop where
  frame : twin = { inst with rd := twin.rd, rs1 := twin.rs1, rs2 := twin.rs2 }
  rd : twin.rd.isSome = inst.rd.isSome
  rs1 : twin.rs1.isSome = inst.rs1.isSome
  rs2 : twin.rs2.isSome = inst.rs2.isSome

namespace SameButRegisters

theorem refl (inst : Instruction) : inst.SameButRegisters inst := ⟨rfl, rfl, rfl, rfl⟩

theorem record_eq (same : inst.SameButRegisters twin) : twin.record = inst.record := by
  rw [same.frame]

theorem target_eq (same : inst.SameButRegisters twin) : twin.target = inst.target := by
  rw [same.frame]

theorem resembles (same : inst.SameButRegisters twin) : inst.Resembles twin where
  mnemonic := by rw [same.frame]
  pattern := by rw [same.frame]
  rd := same.rd.symm
  rs1 := same.rs1.symm
  rs2 := same.rs2.symm
  imm := by rw [same.frame]
  shamt := by rw [same.frame]
  target := same.target_eq.symm

/-- Whatever patches are made on either side, from whatever registers. -/
theorem patched {source : UInt8 → Prop} {origin : UInt8 → Prop} (same : inst.SameButRegisters twin)
    (patch : inst.Patched source one) (mirror : twin.Patched origin other) :
    one.SameButRegisters other where
  frame := by rw [mirror.frame, same.frame, patch.frame]
  rd := by rw [mirror.rd.isSome_eq, same.rd, patch.rd.isSome_eq]
  rs1 := by rw [mirror.rs1.isSome_eq, same.rs1, patch.rs1.isSome_eq]
  rs2 := by rw [mirror.rs2.isSome_eq, same.rs2, patch.rs2.isSome_eq]

end SameButRegisters

end Instruction

/-! ## Finished instructions -/

/-- Whether the bit of a word lies in a register field of the record's format. -/
def Record.ShowsRegister (record : Record) (bit : Nat) : Prop :=
  record.has .rd ∧ 7 ≤ bit ∧ bit < 12 ∨ record.has .rs1 ∧ 15 ≤ bit ∧ bit < 20 ∨
    record.has .rs2 ∧ 20 ≤ bit ∧ bit < 25

namespace Instruction

variable {inst twin : Instruction}

/-- Two finished instructions that differ in the numbers of their registers, in the bits of the word
that hold these, and in the text as far as it names them. -/
structure RegistersApart (labels : LabelTable) (inst twin : Instruction) : Prop where
  record : twin.record = inst.record
  imm : twin.imm = inst.imm
  shamt : twin.shamt = inst.shamt
  target : twin.target = inst.target
  label : twin.label = inst.label
  rd : twin.rd.isSome = inst.rd.isSome
  rs1 : twin.rs1.isSome = inst.rs1.isSome
  rs2 : twin.rs2.isSome = inst.rs2.isSome
  word : ∀ bit, ¬inst.record.ShowsRegister bit → twin.word.getLsbD bit = inst.word.getLsbD bit
  /-- The one text is the other written with different registers. -/
  text : twin.text =
    (({ inst with rd := twin.rd, rs1 := twin.rs1, rs2 := twin.rs2 } : Instruction).written labels).text

/-- Outside the register fields a word does not depend on registers. -/
theorem getLsbD_pack_registers {bit : Nat} (hidden : ¬inst.record.ShowsRegister bit)
    (rd rs1 rs2 : Option UInt8) :
    ({ inst with rd, rs1, rs2 } : Instruction).pack.getLsbD bit = inst.pack.getLsbD bit := by
  have imm (width : Nat) :
      ({ inst with rd, rs1, rs2 } : Instruction).immField width = inst.immField width := rfl
  have upper : ({ inst with rd, rs1, rs2 } : Instruction).upperField = inst.upperField := rfl
  unfold Record.ShowsRegister Record.has at hidden
  unfold pack
  dsimp only at hidden ⊢
  cases format : inst.record.format with
  | unsupported => rfl
  | r | i | s | b | u | j =>
      rw [format] at hidden
      simp only [imm, upper, Word.ofR, Word.ofI, Word.ofS, Word.ofB, Word.ofU, Word.ofJ,
        BitVec.getLsbD_append]
      grind

/-- Naming and resolving do not look at registers, and writing comes last. -/
theorem completed_registers (inst : Instruction) (rd rs1 rs2 : Option UInt8) (labels : LabelTable)
    (position : Nat) :
    ({ inst with rd, rs1, rs2 } : Instruction).completed labels position =
      ({ inst.completed labels position with rd, rs1, rs2 } : Instruction).written labels := by
  obtain ⟨record, _, _, _, imm, shamt, target, label, word, text⟩ := inst
  cases target <;> rfl

theorem SameButRegisters.registersApart (same : inst.SameButRegisters twin) (labels : LabelTable)
    (position : Nat) :
    (inst.completed labels position).RegistersApart labels (twin.completed labels position) := by
  have rewritten : twin.completed labels position =
      ({ inst.completed labels position with
        rd := twin.rd, rs1 := twin.rs1, rs2 := twin.rs2 } : Instruction).written labels := by
    conv_lhs => rw [same.frame]
    exact inst.completed_registers ..
  constructor
  case word =>
    intro bit hidden
    rw [rewritten]
    exact getLsbD_pack_registers hidden ..
  case text =>
    rw [rewritten]
    rfl
  all_goals simp [rewritten, written, same.rd, same.rs1, same.rs2]

end Instruction

/-! ## Coins and patches -/

namespace Tracker

theorem lockstep_throwCoins {tracker mirror : Tracker}
    (loads : tracker.lastWasLoad = mirror.lastWasLoad) (profile other : HazardProfile) :
    Lockstep (tracker.throwCoins profile) (mirror.throwCoins other) fun _ _ => True := by
  refine (Draw.lockstep_chance _ _).bind ?_
  intro raw _ _
  refine (Draw.lockstep_chance _ _).bind ?_
  intro waw _ _
  refine .ite (by rw [loads]) ?_ ?_
  · intro _
    exact (Draw.lockstep_chance _ _).bind fun _ _ _ => .pure trivial
  · intro _
    exact .pure trivial

theorem lockstep_inject {previous? mirror? : Option Instruction} {inst twin : Instruction}
    (before : Option.Rel Instruction.SameButRegisters previous? mirror?)
    (same : inst.SameButRegisters twin) (profile other : HazardProfile) :
    Lockstep ((following previous?).inject profile previous? inst)
      ((following mirror?).inject other mirror? twin)
      fun injection mirrored => injection.inst.SameButRegisters mirrored.inst := by
  cases before with
  | none => exact .pure same
  | @some previous mirror related =>
      have loads : (following (some previous)).lastWasLoad = (following (some mirror)).lastWasLoad := by
        change previous.isLoad = mirror.isLoad
        rw [Instruction.isLoad, Instruction.isLoad, related.record_eq]
      refine (lockstep_throwCoins loads profile other).bind ?_
      intro coins others _
      exact .pure (same.patched (patched_patch _ coins previous inst)
        (patched_patch _ others mirror twin))

end Tracker

/-! ## Programs -/

/-- Two programs that differ in the registers of their instructions only. -/
structure Program.RegistersApart (program twin : Program) : Prop where
  instructions : List.Forall₂ (Instruction.RegistersApart program.labels)
    program.instructions twin.instructions
  labels : twin.labels = program.labels
  manifest : twin.manifest = program.manifest

theorem outOfReach_eq {sequence other : List Instruction}
    (related : List.Forall₂ Instruction.SameButRegisters sequence other) :
    outOfReach sequence = outOfReach other := by
  have asCount (sequence : List Instruction) : outOfReach sequence =
      (sequence.mapIdx fun position inst => inst.isOutOfReach position).countP id := by
    rw [List.mapIdx_eq_zipIdx_map, List.countP_map]
    rfl
  rw [asCount, asCount]
  refine congrArg (List.countP id) (mapIdx_eq_of_forall₂ related ?_)
  intro position inst twin same
  simp only [Instruction.isOutOfReach, same.target_eq, same.record_eq]

namespace Generator

/-- The generator with other hazard probabilities. -/
def withHazards (generator : Generator) (hazards : HazardProfile) : Generator :=
  { generator with profile := { generator.profile with hazards } }

variable (generator : Generator) (hazards : HazardProfile)

theorem inStep_withHazards (length count : Nat) :
    Setting.InStep Instruction.SameButRegisters (generator.setting length)
      ((generator.withHazards hazards).setting length) count where
  draws index inside backward := by
    refine (Lockstep.refl _).mono ?_
    rintro draft _ rfl
    exact ⟨.refl _, rfl⟩
  patches _ _ _ _ before same := Tracker.lockstep_inject before same _ _

theorem registersApart_program {run twin : Run}
    (paired : run.Paired Instruction.SameButRegisters twin) :
    (generator.program run).RegistersApart ((generator.withHazards hazards).program twin) := by
  have labels : labelTable run.sequence = labelTable twin.sequence :=
    paired.labelTable_eq fun _ _ same => same.target_eq.symm
  have finished : List.Forall₂ (Instruction.RegistersApart (generator.program run).labels)
      (generator.program run).instructions
      ((generator.withHazards hazards).program twin).instructions := by
    unfold program
    dsimp only
    rw [← labels]
    apply forall₂_mapIdx paired.sequence
    intro position inst other same
    exact same.registersApart _ position
  have lengths : run.emitted.length = twin.emitted.length := by
    simpa using paired.instructions.length_eq
  have fallbacks := outOfReach_eq paired.sequence
  have formats : (generator.program run).instructions.map (·.record) =
      ((generator.withHazards hazards).program twin).instructions.map (·.record) :=
    map_eq_of_forall₂ finished fun _ _ apart => apart.record.symm
  have substitutions :
      (generator.program run).instructions.countP (·.record.format == .unsupported) =
        ((generator.withHazards hazards).program twin).instructions.countP
          (·.record.format == .unsupported) := by
    simpa only [List.countP_map, Function.comp_def] using
      congrArg (List.countP fun record => record.format == .unsupported) formats
  refine ⟨finished, labels.symm, ?_⟩
  unfold program at substitutions ⊢
  dsimp only at substitutions ⊢
  rw [← substitutions, ← lengths, outOfReach_withLabel, outOfReach_withLabel, ← fallbacks,
    ← paired.backward]
  rfl

/-- Generators that differ in their hazard probabilities alone end alike, with sources in the same
place, and their programs differ in nothing but registers and what shows them. -/
theorem hazards_reach_registers_only (length : Nat) :
    EndAlike Program.RegistersApart (generator.generate length)
      ((generator.withHazards hazards).generate length) := by
  have source : generator.source = (generator.withHazards hazards).source := rfl
  apply EndAlike.of_inStep source (generator.inStep_withHazards hazards length length)
  · intro inst other same
    exact same.resembles
  · intro run twin paired
    exact generator.registersApart_program hazards paired

end Generator

end Rv32Stimulus
