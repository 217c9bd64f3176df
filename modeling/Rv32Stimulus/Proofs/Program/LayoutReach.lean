/-
# Proofs.Program.LayoutReach -- what becomes of a word does not touch the draws

The outline of a record is its mnemonic, its category and its pattern.  Nothing else of a record
has a say in what is drawn: two catalogs with the same outlines, position by position, make
generators whose runs take the same words, and whose instructions differ in their records
only (`Instruction.Recast`).  Patches commute with a change of record (`Tracker.patch_recast`).

`Generator.layouts_leave_draws_alone` says what this means for finished programs
(`Program.LayoutsApart`): whatever format, opcode, function fields and immediate kind say, all
operands are the same but for displacements, which follow the reach of the format.
-/
import Rv32Stimulus.Isa.Base
import Rv32Stimulus.Proofs.Isa.Catalog
import Rv32Stimulus.Proofs.Program.Lockstep

namespace Rv32Stimulus

set_option autoImplicit false

open Rv32Stimulus.Random
open Draw (Lockstep)

/-! ## Records and catalogs -/

/-- What of a record has a say in the draws. -/
def Record.outline (record : Record) : String × Category × List Role :=
  (record.mnemonic, record.category, record.pattern)

namespace Catalog

variable {catalog twin : Catalog}

theorem map_outline_inCategory
    (outlines : catalog.records.map Record.outline = twin.records.map Record.outline)
    (category : Category) :
    (catalog.inCategory category).map Record.outline =
      (twin.inCategory category).map Record.outline := by
  have filtered (records : List Record) :
      (records.filter (·.category == category)).map Record.outline =
        (records.map Record.outline).filter (·.2.1 == category) := by
    rw [List.filter_map]
    rfl
  rw [inCategory_eq, inCategory_eq, filtered, filtered, outlines]

theorem outline_fallback
    (outlines : catalog.records.map Record.outline = twin.records.map Record.outline) :
    catalog.fallback.outline = twin.fallback.outline := by
  have found (records : List Record) :
      (records.reverse.find? (·.isCalled "ADDI")).map Record.outline =
        (records.map Record.outline).reverse.find? (·.1.toUpper == "ADDI".toUpper) := by
    rw [← List.map_reverse, List.find?_map]
    rfl
  have same :
      (catalog.find? "ADDI").map Record.outline = (twin.find? "ADDI").map Record.outline := by
    rw [find?_eq, find?_eq, found, found, outlines]
  rw [fallback, fallback, ← Option.getD_map Record.outline, ← Option.getD_map Record.outline, same]

theorem lockstep_chooseRecord
    (outlines : catalog.records.map Record.outline = twin.records.map Record.outline)
    (weights : WeightTable) :
    Lockstep (catalog.chooseRecord weights) (twin.chooseRecord weights)
      fun record other => record.outline = other.outline := by
  refine (Lockstep.refl _).bind ?_
  rintro weightClass _ rfl
  refine (Lockstep.refl _).bind ?_
  rintro category _ rfl
  refine (Draw.lockstep_pick (map_outline_inCategory outlines _)).bind ?_
  intro record? other? picked
  refine .pure ?_
  rw [← Option.getD_map Record.outline, ← Option.getD_map Record.outline, picked,
    outline_fallback outlines]

end Catalog

/-! ## Instructions -/

namespace Instruction

/-- The instruction with another record. -/
def recast (inst : Instruction) (record : Record) : Instruction := { inst with record }

/-- The same instruction but for what its record says beyond the outline. -/
structure Recast (inst twin : Instruction) : Prop where
  frame : twin = inst.recast twin.record
  outline : inst.record.outline = twin.record.outline

variable {inst twin : Instruction}

namespace Recast

theorem mnemonic (same : inst.Recast twin) : inst.record.mnemonic = twin.record.mnemonic :=
  congrArg (·.1) same.outline

theorem category (same : inst.Recast twin) : inst.record.category = twin.record.category :=
  congrArg (·.2.1) same.outline

theorem pattern (same : inst.Recast twin) : inst.record.pattern = twin.record.pattern :=
  congrArg (·.2.2) same.outline

theorem resembles (same : inst.Recast twin) : inst.Resembles twin where
  mnemonic := same.mnemonic
  pattern := same.pattern
  rd := by rw [same.frame]; rfl
  rs1 := by rw [same.frame]; rfl
  rs2 := by rw [same.frame]; rfl
  imm := by rw [same.frame]; rfl
  shamt := by rw [same.frame]; rfl
  target := by rw [same.frame]; rfl

end Recast

/-! ## Patches -/

theorem readAfterWrite?_recast (inst previous : Instruction) (record other : Record) :
    (inst.recast record).readAfterWrite? (previous.recast other) =
      (inst.readAfterWrite? previous).map (·.recast record) := by
  unfold readAfterWrite? recast
  dsimp only
  cases previous.rd with
  | none => rfl
  | some rd =>
      dsimp only
      split
      · rfl
      · split
        · rfl
        · split <;> rfl

theorem writeAfterWrite?_recast (inst previous : Instruction) (record other : Record) :
    (inst.recast record).writeAfterWrite? (previous.recast other) =
      (inst.writeAfterWrite? previous).map (·.recast record) := by
  unfold writeAfterWrite? recast
  dsimp only
  cases previous.rd with
  | none => rfl
  | some written => cases inst.rd <;> rfl

theorem useLoaded?_recast (inst : Instruction) (record : Record) (loaded : Option UInt8) :
    (inst.recast record).useLoaded? loaded = (inst.useLoaded? loaded).map (·.recast record) := by
  unfold useLoaded? recast
  dsimp only
  cases loaded with
  | none => rfl
  | some register => cases inst.rs1 <;> rfl

theorem patchedIf_recast {inst : Instruction} {record : Record} {coin : Bool}
    {patch? twin? : Instruction → Option Instruction}
    (commutes : twin? (inst.recast record) = (patch? inst).map (·.recast record)) :
    ((inst.recast record).patchedIf coin twin?).1 =
      ((inst.patchedIf coin patch?).1).recast record := by
  unfold patchedIf
  rw [commutes]
  cases coin with
  | false => rfl
  | true => cases patch? inst <;> rfl

end Instruction

namespace Tracker

theorem patch_recast (tracker : Tracker) (coins : Hazards) (previous inst : Instruction)
    (record other : Record) :
    (tracker.patch coins (previous.recast other) (inst.recast record)).inst =
      (tracker.patch coins previous inst).inst.recast record := by
  have raw (inst : Instruction) :
      ((inst.recast record).patchedIf coins.raw (·.readAfterWrite? (previous.recast other))).1 =
        (inst.patchedIf coins.raw (·.readAfterWrite? previous)).1.recast record :=
    Instruction.patchedIf_recast (Instruction.readAfterWrite?_recast ..)
  have waw (inst : Instruction) :
      ((inst.recast record).patchedIf coins.waw (·.writeAfterWrite? (previous.recast other))).1 =
        (inst.patchedIf coins.waw (·.writeAfterWrite? previous)).1.recast record :=
    Instruction.patchedIf_recast (Instruction.writeAfterWrite?_recast ..)
  have loadUse (inst : Instruction) :
      ((inst.recast record).patchedIf coins.loadUse (·.useLoaded? tracker.lastRd)).1 =
        (inst.patchedIf coins.loadUse (·.useLoaded? tracker.lastRd)).1.recast record :=
    Instruction.patchedIf_recast (Instruction.useLoaded?_recast ..)
  unfold patch
  dsimp only
  rw [raw, waw, loadUse]

/-- A patch gives a register another number, never the instruction another record. -/
theorem record_patch (tracker : Tracker) (coins : Hazards) (previous inst : Instruction) :
    (tracker.patch coins previous inst).inst.record = inst.record :=
  (tracker.patched_patch coins previous inst).record_eq

theorem lockstep_inject_recast {previous? mirror? : Option Instruction} {inst twin : Instruction}
    (before : Option.Rel Instruction.Recast previous? mirror?) (same : inst.Recast twin)
    (profile : HazardProfile) :
    Lockstep ((following previous?).inject profile previous? inst)
      ((following mirror?).inject profile mirror? twin)
      fun injection mirrored => injection.inst.Recast mirrored.inst := by
  cases before with
  | none => exact .pure same
  | @some previous mirror related =>
      have tracker : following (some mirror) = following (some previous) := by
        change after mirror = after previous
        rw [after, after, Instruction.isLoad, Instruction.isLoad, related.category, related.frame]
        rfl
      rw [tracker]
      refine (Lockstep.refl _).bind ?_
      rintro coins _ rfl
      refine .pure ⟨?_, ?_⟩
      · rw [record_patch, ← patch_recast _ _ _ _ _ mirror.record, ← same.frame, ← related.frame]
      · rw [record_patch, record_patch]
        exact same.outline

end Tracker

/-! ## Fresh instructions -/

namespace Draft

/-- Drafts of recast instructions, with the same count of backward targets. -/
def Recast (draft twin : Draft) : Prop := draft.inst.Recast twin.inst ∧ draft.backward = twin.backward

theorem lockstep_fill (profile : Profile) (site : Site) {draft twin : Draft}
    (same : draft.Recast twin) (role : Role) :
    Lockstep (draft.fill profile site role) (twin.fill profile site role) Recast := by
  obtain ⟨inst, backward⟩ := draft
  obtain ⟨other, count⟩ := twin
  obtain ⟨⟨frame, outline⟩, rfl⟩ : inst.Recast other ∧ backward = count := same
  have called : inst.record.isCalled "JAL" = other.record.isCalled "JAL" :=
    congrArg (fun name : String => name.toUpper == "JAL".toUpper) (congrArg (·.1) outline)
  generalize other.record = record at frame outline called
  subst frame
  cases role with
  | rd =>
      have destination : (⟨inst, backward⟩ : Draft).destination profile =
          (⟨inst.recast record, backward⟩ : Draft).destination profile := by
        unfold destination
        rw [called]
        rfl
      have draws : Lockstep ((⟨inst, backward⟩ : Draft).destination profile)
          ((⟨inst.recast record, backward⟩ : Draft).destination profile) Eq := by
        rw [← destination]
        exact .refl _
      refine draws.bind ?_
      rintro register _ rfl
      exact .pure ⟨⟨rfl, outline⟩, rfl⟩
  | memory =>
      refine (Lockstep.refl _).bind ?_
      rintro base _ rfl
      refine (Lockstep.refl _).bind ?_
      rintro offset _ rfl
      exact .pure ⟨⟨rfl, outline⟩, rfl⟩
  | predSucc | unsupported => exact .pure ⟨⟨rfl, outline⟩, rfl⟩
  | rs1 | rs2 | imm | shamt | imm20 | label =>
      refine (Lockstep.refl _).bind ?_
      rintro value _ rfl
      exact .pure ⟨⟨rfl, outline⟩, rfl⟩

end Draft

theorem lockstep_synthesize {catalog twin : Catalog}
    (outlines : catalog.records.map Record.outline = twin.records.map Record.outline)
    (profile : Profile) (site : Site) (backward : UInt32) :
    Lockstep (synthesize catalog profile site backward) (synthesize twin profile site backward)
      Draft.Recast := by
  refine (Catalog.lockstep_chooseRecord outlines profile.weights).bind ?_
  intro record other outline
  have pattern : record.pattern = other.pattern := congrArg (·.2.2) outline
  rw [pattern]
  have start : Draft.Recast ⟨{ record }, backward⟩ ⟨{ record := other }, backward⟩ :=
    ⟨⟨rfl, outline⟩, rfl⟩
  refine .foldlM other.pattern start ?_
  intro role _ draft mirror same
  exact Draft.lockstep_fill profile site same role

/-! ## Finished instructions -/

namespace Instruction

/-- Two finished instructions with the same operands under the same mnemonic; displacements, which
depend on the format, and whatever is made of a record may differ. -/
structure LayoutsApart (inst twin : Instruction) : Prop where
  mnemonic : inst.record.mnemonic = twin.record.mnemonic
  rd : inst.rd = twin.rd
  rs1 : inst.rs1 = twin.rs1
  rs2 : inst.rs2 = twin.rs2
  shamt : inst.shamt = twin.shamt
  target : inst.target = twin.target
  label : inst.label = twin.label
  imm : inst.target = none → inst.imm = twin.imm

/-- Naming does not look at the record. -/
theorem completed_label_recast (inst : Instruction) (record : Record) (labels : LabelTable)
    (position : Nat) :
    (inst.completed labels position).label =
      ((inst.recast record).completed labels position).label := by
  obtain ⟨_, rd, rs1, rs2, imm, shamt, target, label, word, text⟩ := inst
  cases target <;> rfl

theorem Recast.layoutsApart {inst twin : Instruction} (same : inst.Recast twin)
    (labels : LabelTable) (position : Nat) :
    (inst.completed labels position).LayoutsApart (twin.completed labels position) where
  mnemonic := by simpa using same.mnemonic
  rd := by rw [same.frame]; simp [recast]
  rs1 := by rw [same.frame]; simp [recast]
  rs2 := by rw [same.frame]; simp [recast]
  shamt := by rw [same.frame]; simp [recast]
  target := by rw [same.frame]; simp [recast]
  label := by
    rw [same.frame]
    exact inst.completed_label_recast ..
  imm := by
    intro aimless
    rw [completed_target] at aimless
    rw [same.frame]
    simp [recast, aimless]

end Instruction

/-! ## Programs -/

/-- Two programs of the same instructions, laid out differently. -/
structure Program.LayoutsApart (program twin : Program) : Prop where
  instructions :
    List.Forall₂ Instruction.LayoutsApart program.instructions twin.instructions
  labels : program.labels = twin.labels
  backwardBranches : program.manifest.backwardBranches = twin.manifest.backwardBranches

namespace Generator

/-- The generator with another catalog. -/
def withCatalog (generator : Generator) (catalog : Catalog) : Generator := { generator with catalog }

variable {generator : Generator} {catalog : Catalog}

theorem inStep_withCatalog
    (outlines : generator.catalog.records.map Record.outline = catalog.records.map Record.outline)
    (length count : Nat) :
    Setting.InStep Instruction.Recast (generator.setting length)
      ((generator.withCatalog catalog).setting length) count where
  draws _ _ backward := lockstep_synthesize outlines _ _ backward
  patches _ _ _ _ before same := Tracker.lockstep_inject_recast before same _

theorem layoutsApart_program {run twin : Run} (paired : run.Paired Instruction.Recast twin) :
    (generator.program run).LayoutsApart ((generator.withCatalog catalog).program twin) := by
  have labels : labelTable run.sequence = labelTable twin.sequence :=
    paired.labelTable_eq fun _ _ same => same.resembles.target
  refine ⟨?_, labels, paired.backward⟩
  unfold program
  dsimp only
  rw [← labels]
  apply forall₂_mapIdx paired.sequence
  intro position inst other same
  exact same.layoutsApart _ position

/-- Generators whose catalogs have the same outlines in the same order end alike, with sources in
the same place, and their programs have the same operands. -/
theorem layouts_leave_draws_alone
    (outlines : generator.catalog.records.map Record.outline = catalog.records.map Record.outline)
    (length : Nat) :
    EndAlike Program.LayoutsApart (generator.generate length)
      ((generator.withCatalog catalog).generate length) := by
  have source : generator.source = (generator.withCatalog catalog).source := rfl
  apply EndAlike.of_inStep source (inStep_withCatalog outlines length length)
  · intro inst other same
    exact same.resembles
  · intro run twin paired
    exact layoutsApart_program paired

end Generator

/-- The record as a register-register operation of opcode zero. -/
def Record.flattened (record : Record) : Record :=
  { record with format := .r, opcode := 0, funct3 := none, funct7 := none, kind := .none }

def Catalog.flattened : Catalog := ⟨Base.records.map .flattened⟩

namespace Generator

/-- The built-in catalog with all layouts lost. -/
theorem layouts_leave_draws_alone_flattened :
    Catalog.ofRecords Base.records = .ok .rv32i ∧
      Catalog.ofRecords (Base.records.map .flattened) = .ok .flattened ∧
      Catalog.rv32i.records.map Record.outline = Catalog.flattened.records.map Record.outline ∧
      EndAlike Program.LayoutsApart ((ofSeed .rv32i .standard 7).generate 40)
        ((ofSeed .flattened .standard 7).generate 40) := by
  have accepted : Catalog.ofRecords (Base.records.map .flattened) = .ok .flattened :=
    Catalog.ofRecords_of_fault? (by decide +kernel)
  have outlines :
      Catalog.rv32i.records.map Record.outline = Catalog.flattened.records.map Record.outline := by
    decide +kernel
  exact ⟨Catalog.ofRecords_rv32i, accepted, outlines, layouts_leave_draws_alone outlines 40⟩

end Generator

end Rv32Stimulus
