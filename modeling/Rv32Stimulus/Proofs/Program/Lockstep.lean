/-
# Proofs.Program.Lockstep -- two generators side by side

Two runs are paired by a relation on instructions if it holds position by position and if they
have branched backward equally often (`Run.Paired`).  Paired runs stay paired as long as fresh
instructions come out related and patches keep them so (`Setting.InStep`); the two runs then
take the same words (`Setting.InStep.upTo`).  The two settings may differ in everything, the length of
the program included.

From two runs that keep pace follow two calls that end alike (`Generator.EndAlike.of_inStep`): what
remains to be shown is that the relation keeps missing operands (`Instruction.Resembles`
does) and what it makes of the finished programs.
-/
import Mathlib.Data.List.Forall2
import Rv32Stimulus.Proofs.Program.Finish
import Rv32Stimulus.Proofs.Random.Lockstep

namespace Rv32Stimulus

set_option autoImplicit false

open Rv32Stimulus.Random
open Draw (Lockstep)

/-! ## Lists in pairs -/

section Pairs

variable {α β γ δ : Type} {rel : α → β → Prop} {items : List α} {others : List β}

theorem forall₂_mapIdx {after : γ → δ → Prop} {change : Nat → α → γ} {twin : Nat → β → δ}
    (related : List.Forall₂ rel items others)
    (each : ∀ index item other, rel item other → after (change index item) (twin index other)) :
    List.Forall₂ after (items.mapIdx change) (others.mapIdx twin) := by
  induction related generalizing change twin with
  | nil => exact .nil
  | cons first _ ih =>
      rw [List.mapIdx_cons, List.mapIdx_cons]
      refine .cons (each 0 _ _ first) (ih ?_)
      intro index
      exact each (index + 1)

theorem mapIdx_eq_of_forall₂ {change : Nat → α → γ} {twin : Nat → β → γ}
    (related : List.Forall₂ rel items others)
    (each : ∀ index item other, rel item other → change index item = twin index other) :
    items.mapIdx change = others.mapIdx twin := by
  rw [← List.forall₂_eq_eq_eq]
  exact forall₂_mapIdx related each

theorem map_eq_of_forall₂ {view : α → γ} {twin : β → γ} (related : List.Forall₂ rel items others)
    (each : ∀ item other, rel item other → view item = twin other) :
    items.map view = others.map twin := by
  rw [← List.forall₂_eq_eq_eq]
  exact List.rel_map (fun item other => each item other) related

theorem head?_of_forall₂ (related : List.Forall₂ rel items others) :
    Option.Rel rel items.head? others.head? := by
  cases related with
  | nil => exact .none
  | cons first _ => exact .some first

end Pairs

/-! ## Runs -/

namespace Tracker

/-- What is tracked after an instruction, or before the first. -/
def following (previous? : Option Instruction) : Tracker := (previous?.map after).getD {}

end Tracker

/-- What a run depends on, its source apart. -/
structure Setting where
  catalog : Catalog
  profile : Profile
  length : Nat

namespace Setting

/-- The first `count` instructions. -/
def upTo (setting : Setting) (count : Nat) : Draw Run :=
  (List.range count).foldlM (Run.step setting.catalog setting.profile setting.length) {}

end Setting

/-- Instructions related position by position, the same count of backward targets, and trackers that
follow the last instruction. -/
structure Run.Paired (rel : Instruction → Instruction → Prop) (run twin : Run) : Prop where
  instructions :
    List.Forall₂ rel (run.emitted.map Emission.inst) (twin.emitted.map Emission.inst)
  backward : run.backward = twin.backward
  tracker : run.tracker = .following run.previous?
  twinTracker : twin.tracker = .following twin.previous?

namespace Run.Paired

variable {rel : Instruction → Instruction → Prop} {run twin : Run}

theorem nil (rel : Instruction → Instruction → Prop) : Paired rel {} {} := ⟨.nil, rfl, rfl, rfl⟩

theorem previous? (paired : Paired rel run twin) : Option.Rel rel run.previous? twin.previous? := by
  unfold Run.previous?
  rw [← List.head?_map, ← List.head?_map]
  exact head?_of_forall₂ paired.instructions

theorem sequence (paired : Paired rel run twin) : List.Forall₂ rel run.sequence twin.sequence :=
  List.rel_reverse paired.instructions

theorem snoc (paired : Paired rel run twin) {emission other : Emission} {backward : UInt32}
    (related : rel emission.inst other.inst) :
    Paired rel ⟨emission :: run.emitted, backward, .after emission.inst⟩
      ⟨other :: twin.emitted, backward, .after other.inst⟩ :=
  ⟨.cons related paired.instructions, rfl, rfl, rfl⟩

end Run.Paired

namespace Setting

/-- Over the first `count` positions both settings draw related instructions from the same words,
and patch them so that they stay related. -/
structure InStep (rel : Instruction → Instruction → Prop) (left right : Setting) (count : Nat) :
    Prop where
  draws : ∀ index < count, ∀ backward,
    Lockstep (synthesize left.catalog left.profile ⟨index, left.length⟩ backward)
      (synthesize right.catalog right.profile ⟨index, right.length⟩ backward)
      fun draft twin => rel draft.inst twin.inst ∧ draft.backward = twin.backward
  patches : ∀ previous? twinPrevious? inst twin, Option.Rel rel previous? twinPrevious? →
    rel inst twin →
    Lockstep ((Tracker.following previous?).inject left.profile.hazards previous? inst)
      ((Tracker.following twinPrevious?).inject right.profile.hazards twinPrevious? twin)
      fun injection other => rel injection.inst other.inst

namespace InStep

variable {rel : Instruction → Instruction → Prop} {left right : Setting} {count : Nat}
  {run twin : Run}

theorem step (inStep : InStep rel left right count) (paired : run.Paired rel twin) {index : Nat}
    (inside : index < count) :
    Lockstep (run.step left.catalog left.profile left.length index)
      (twin.step right.catalog right.profile right.length index) (Run.Paired rel) := by
  unfold Run.step
  rw [paired.backward, paired.tracker, paired.twinTracker]
  refine (inStep.draws index inside twin.backward).bind ?_
  rintro draft other ⟨related, same⟩
  refine (inStep.patches _ _ _ _ paired.previous? related).bind ?_
  intro injection mirror patched
  refine .pure ?_
  rw [same]
  exact paired.snoc patched

theorem upTo (inStep : InStep rel left right count) :
    Lockstep (left.upTo count) (right.upTo count) (Run.Paired rel) := by
  refine .foldlM (List.range count) (.nil rel) ?_
  intro index member run twin paired
  exact inStep.step paired (List.mem_range.1 member)

end InStep

end Setting

/-! ## Missing operands -/

namespace Instruction

/-- The same operands are there, under the same name, pattern and target. -/
structure Resembles (inst twin : Instruction) : Prop where
  mnemonic : inst.record.mnemonic = twin.record.mnemonic
  pattern : inst.record.pattern = twin.record.pattern
  rd : inst.rd.isSome = twin.rd.isSome
  rs1 : inst.rs1.isSome = twin.rs1.isSome
  rs2 : inst.rs2.isSome = twin.rs2.isSome
  imm : inst.imm.isSome = twin.imm.isSome
  shamt : inst.shamt.isSome = twin.shamt.isSome
  target : inst.target = twin.target

theorem Resembles.faultAt?_completed {inst twin : Instruction} (resembles : inst.Resembles twin)
    (labels : LabelTable) (position : Nat) :
    (inst.completed labels position).faultAt? position =
      (twin.completed labels position).faultAt? position := by
  have supplies : (inst.completed labels position).supplies =
      (twin.completed labels position).supplies := by
    funext role
    cases role <;>
      simp [Instruction.supplies, resembles.rd, resembles.rs1, resembles.rs2, resembles.imm,
        resembles.shamt, resembles.target]
  unfold faultAt? missingRole?
  rw [supplies, completed_record, completed_record, resembles.mnemonic, resembles.pattern]

end Instruction

namespace Run.Paired

variable {rel : Instruction → Instruction → Prop} {run twin : Run}

theorem labelTable_eq (paired : Paired rel run twin)
    (targets : ∀ inst other, rel inst other → inst.target = other.target) :
    labelTable run.sequence = labelTable twin.sequence := by
  have ofTargets (sequence : List Instruction) : labelTable sequence =
      .ofList (((sequence.map (·.target)).filterMap id).map fun target =>
        (target, labelName target)) := by
    rw [List.filterMap_map]
    rfl
  rw [ofTargets, ofTargets, map_eq_of_forall₂ paired.sequence targets]

theorem firstFault?_eq (paired : Paired rel run twin)
    (resembles : ∀ inst other, rel inst other → inst.Resembles other) (left right : Generator) :
    firstFault? (left.program run).instructions = firstFault? (right.program twin).instructions := by
  have labels := paired.labelTable_eq fun inst other related => (resembles inst other related).target
  have faults : (run.sequence.mapIdx fun position inst =>
        (inst.completed (labelTable run.sequence) position).faultAt? position) =
      twin.sequence.mapIdx fun position inst =>
        (inst.completed (labelTable twin.sequence) position).faultAt? position := by
    rw [labels]
    apply mapIdx_eq_of_forall₂ paired.sequence
    intro position inst other related
    exact (resembles inst other related).faultAt?_completed _ position
  rw [firstFault?_eq_mapIdx, firstFault?_eq_mapIdx, Generator.program, Generator.program]
  dsimp only
  rw [List.mapIdx_mapIdx, List.mapIdx_mapIdx]
  exact congrArg (List.findSome? id) faults

end Run.Paired

/-! ## Generators -/

namespace Generator

/-- Two calls that end alike: both without a draw, both with the same error, or both with a
program, the two related by `rel`; afterwards the sources stand in the same place. -/
inductive EndAlike (rel : Program → Program → Prop) :
    Except DrawError (Except GenerateError Program × Generator) →
      Except DrawError (Except GenerateError Program × Generator) → Prop
  | undrawn (fault : DrawError) : EndAlike rel (.error fault) (.error fault)
  | refused (fault : GenerateError) {left right : Generator} (source : left.source = right.source) :
      EndAlike rel (.ok (.error fault, left)) (.ok (.error fault, right))
  | made {program twin : Program} {left right : Generator} (source : left.source = right.source)
      (related : rel program twin) :
      EndAlike rel (.ok (.ok program, left)) (.ok (.ok twin, right))

def setting (generator : Generator) (length : Nat) : Setting :=
  ⟨generator.catalog, generator.profile, length⟩

theorem EndAlike.of_inStep {left right : Generator} {length : Nat}
    {rel : Instruction → Instruction → Prop} {after : Program → Program → Prop}
    (source : left.source = right.source)
    (inStep : Setting.InStep rel (left.setting length) (right.setting length) length)
    (resembles : ∀ inst other, rel inst other → inst.Resembles other)
    (programs : ∀ run twin, run.Paired rel twin → after (left.program run) (right.program twin)) :
    EndAlike after (left.generate length) (right.generate length) := by
  have runs : Draw.Alike (Run.Paired rel)
      (Run.ofLength left.catalog left.profile length left.source)
      (Run.ofLength right.catalog right.profile length left.source) := inStep.upTo left.source
  unfold generate
  rw [← source]
  generalize Run.ofLength left.catalog left.profile length left.source = one,
    Run.ofLength right.catalog right.profile length left.source = other at runs
  cases runs with
  | fails fault => exact .undrawn fault
  | @gives run twin rest paired =>
      change EndAlike after (.ok (left.assemble run, { left with source := rest }))
        (.ok (right.assemble twin, { right with source := rest }))
      rw [assemble_eq, assemble_eq, paired.firstFault?_eq resembles left right]
      cases firstFault? (right.program twin).instructions with
      | some fault => exact .refused fault rfl
      | none => exact .made rfl (programs run twin paired)

end Generator

end Rv32Stimulus
