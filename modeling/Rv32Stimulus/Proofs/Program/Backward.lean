/-
# Proofs.Program.Backward -- the count of backward branches

A run counts every target that it draws before the position it is at, and goes backward only
while the count is below the cap of the profile.  `Profile.Accounts` relates that count to the targets
that are there to be seen: they are never more than were counted, and as many if no
pattern names a label twice, for a second target replaces the first, which stays counted.

The relation holds of the empty run and is kept by a choice (`Chooses.accounts`), by a role
(`Draft.Accounts.fill`) and by a step of the run (`Run.ensures_accounted`).  Since the
count stays at or below the cap, it never wraps around.
-/
import Rv32Stimulus.Proofs.Program.ControlFlow

namespace Rv32Stimulus

set_option autoImplicit false

open Rv32Stimulus.Random

/-! ## Targets to be seen -/

/-- Whether the instruction, standing at `position`, has a target before it. -/
def Instruction.goesBack (inst : Instruction) (position : Nat) : Bool :=
  inst.target.any (· < position)

/-- How many instructions have a target before them. -/
def backwardTargets (sequence : List Instruction) : Nat :=
  sequence.zipIdx.countP fun (inst, position) => inst.goesBack position

theorem backwardTargets_snoc (sequence : List Instruction) (inst : Instruction) :
    backwardTargets (sequence ++ [inst]) =
      backwardTargets sequence + (inst.goesBack sequence.length).toNat := by
  have asNumber (goes : Bool) : (if goes = true then 1 else 0) = goes.toNat := by
    cases goes <;> rfl
  unfold backwardTargets
  rw [List.zipIdx_append, List.countP_append, Nat.zero_add, List.zipIdx_singleton,
    List.countP_singleton, asNumber]

/-! ## Targets that were counted -/

namespace Profile

/-- What a count says about the `seen` backward targets of the instructions so far; `single` says
that none of them drew two targets. -/
structure Accounts (profile : Profile) (single : Prop) (seen : Nat) (count : UInt32) : Prop where
  lower : seen ≤ count.toNat
  exact : single → seen = count.toNat
  capped : count ≤ profile.maxBackward
  forward : profile.branches.allowBackward = false → count = 0

variable {profile : Profile} {single less : Prop} {seen fewer : Nat} {count : UInt32}

theorem accounts_zero (profile : Profile) (single : Prop) : profile.Accounts single 0 0 where
  lower := Nat.zero_le _
  exact _ := rfl
  capped := UInt32.le_iff_toNat_le.2 (Nat.zero_le _)
  forward _ := rfl

/-- Targets may disappear from sight. -/
theorem Accounts.forget (accounts : profile.Accounts single seen count) (fewer_le : fewer ≤ seen)
    (same : less → single ∧ fewer = seen) : profile.Accounts less fewer count where
  lower := Nat.le_trans fewer_le accounts.lower
  exact holds := (same holds).2.trans (accounts.exact (same holds).1)
  capped := accounts.capped
  forward := accounts.forward

/-- One more target, where there may be one more. -/
theorem Accounts.charge {index : Nat} (accounts : profile.Accounts single seen count)
    (allowed : profile.mayGoBackward count index = true) :
    profile.Accounts single (seen + 1) (count + 1) := by
  obtain ⟨open_, below, charged⟩ := charge_of_mayGoBackward allowed
  have room := UInt32.lt_iff_toNat_lt.1 below
  obtain ⟨lower, exact_, capped, forward⟩ := accounts
  refine ⟨?_, ?_, ?_, ?_⟩
  · omega
  · intro holds
    rw [charged, exact_ holds]
  · rw [UInt32.le_iff_toNat_le]
    omega
  · intro closed
    rw [open_] at closed
    cases closed

theorem Chooses.accounts {index length : Nat} {choice : TargetChoice}
    (chosen : profile.Chooses count index length choice)
    (accounts : profile.Accounts single seen count) :
    profile.Accounts single (seen + (decide (choice.target < index)).toNat) choice.backward := by
  cases chosen with
  | last | stay =>
      rw [decide_eq_false (Nat.lt_irrefl index)]
      exact accounts
  | back bucket distance inner allowed positive room =>
      have before : index - distance < index := by omega
      rw [decide_eq_true before]
      exact accounts.charge allowed
  | ahead bucket distance inner positive room =>
      have notBefore : ¬index + distance < index := by omega
      rw [decide_eq_false notBefore]
      exact accounts

end Profile

/-! ## Drafts -/

namespace Draft

/-- The accounts of a draft at `index` with the roles `taken` filled, where the instructions before have
`seen` backward targets; a target is there only if some role called for it. -/
structure Accounts (profile : Profile) (single : Prop) (seen index : Nat) (taken : List Role)
    (draft : Draft) : Prop where
  counted : profile.Accounts (single ∧ taken.count .label ≤ 1)
    (seen + (draft.inst.goesBack index).toNat) draft.backward
  aimless : .label ∉ taken → draft.inst.target = none

variable {profile : Profile} {single : Prop} {seen : Nat} {site : Site} {taken : List Role}
  {draft next : Draft} {role : Role}

theorem Accounts.fill (accounts : draft.Accounts profile single seen site.index taken)
    (fills : Fills profile site draft role next) :
    next.Accounts profile single seen site.index (taken ++ [role]) := by
  obtain ⟨counted, aimless⟩ := accounts
  cases fills with
  | label choice chosen =>
      -- The new target takes the place of one before; that is none if this is the first label.
      refine ⟨chosen.accounts (counted.forget (Nat.le_add_right _ _) ?_), by simp⟩
      rintro ⟨alone, once⟩
      rw [List.count_append, List.count_singleton_self] at once
      have first : .label ∉ taken := List.count_eq_zero.1 (by omega)
      have unaimed : draft.inst.goesBack site.index = false := by
        unfold Instruction.goesBack
        rw [aimless first]
        rfl
      rw [unaimed]
      exact ⟨⟨alone, by omega⟩, rfl⟩
  | _ =>
      refine ⟨?_, by simpa using aimless⟩
      simpa [Instruction.goesBack] using counted

end Draft

/-- No record on offer names a label twice. -/
def Catalog.LabelsOnce (catalog : Catalog) : Prop :=
  ∀ record, catalog.Offers record → record.pattern.count .label ≤ 1

theorem ensures_synthesize_accounts {catalog : Catalog} {profile : Profile} {site : Site}
    {seen : Nat} {backward : UInt32} (accounts : profile.Accounts catalog.LabelsOnce seen backward) :
    (synthesize catalog profile site backward).Ensures fun draft =>
      profile.Accounts catalog.LabelsOnce (seen + (draft.inst.goesBack site.index).toNat)
        draft.backward := by
  refine (catalog.ensures_chooseRecord profile.weights).bind ?_
  intro record offered
  have start :
      Draft.Accounts profile catalog.LabelsOnce seen site.index [] ⟨{ record }, backward⟩ := by
    refine ⟨accounts.forget (Nat.le_refl _) ?_, fun _ => rfl⟩
    rintro ⟨once, -⟩
    exact ⟨once, rfl⟩
  have filled : (record.pattern.foldlM (Draft.fill profile site) ⟨{ record }, backward⟩).Ensures
      (Draft.Accounts profile catalog.LabelsOnce seen site.index record.pattern) := by
    refine .foldlM (Draft.Accounts profile catalog.LabelsOnce seen site.index) start ?_
    intro taken role later draft _ before
    exact (draft.ensures_fill profile site role).mono fun _ fills => before.fill fills
  refine filled.mono ?_
  intro draft made
  refine made.counted.forget (Nat.le_refl _) ?_
  intro once
  exact ⟨⟨once, once record offered⟩, rfl⟩

/-! ## Runs -/

namespace Run

/-- The accounts of a run up to `index`. -/
structure Accounted (catalog : Catalog) (profile : Profile) (index : Nat) (run : Run) : Prop where
  length : run.sequence.length = index
  counted : profile.Accounts catalog.LabelsOnce (backwardTargets run.sequence) run.backward

theorem ensures_accounted (catalog : Catalog) (profile : Profile) (length : Nat) :
    (ofLength catalog profile length).Ensures (Accounted catalog profile length) := by
  have start : Accounted catalog profile 0 {} := ⟨rfl, profile.accounts_zero _⟩
  refine ensures_ofLength start ?_
  rintro index run - ⟨rfl, counted⟩
  refine (ensures_synthesize_accounts counted).bind ?_
  intro draft drafted
  refine (run.tracker.ensures_inject profile.hazards run.previous? draft.inst).bind ?_
  intro injection patched
  have sequence (backward : UInt32) (tracker : Tracker) :
      (⟨⟨draft.inst, injection⟩ :: run.emitted, backward, tracker⟩ : Run).sequence =
        run.sequence ++ [injection.inst] := by
    simp [Run.sequence, Emission.inst]
  refine .pure ⟨?_, ?_⟩
  · rw [sequence, List.length_append, List.length_singleton]
  · rw [sequence, backwardTargets_snoc, Instruction.goesBack, patched.target_eq]
    exact drafted

end Run

/-! ## Programs -/

theorem Program.Assembles.backwardTargets_eq {program : Program} {run : Run}
    (assembles : program.Assembles run) :
    backwardTargets program.instructions = backwardTargets run.sequence := by
  unfold backwardTargets
  rw [assembles.instructions, zipIdx_mapIdx, List.countP_map]
  simp only [Function.comp_def, Instruction.goesBack, Instruction.completed_target]

namespace Generator

variable {generator after : Generator} {program : Program} {length : Nat}

/-- The manifest counts the backward targets of a generated program, never more than the profile
allows, and none where the profile forbids them.  The count is exact unless some pattern has
several labels; then it may be too high. -/
theorem backward_branches_accounted (given : generator.generate length = .ok (.ok program, after)) :
    backwardTargets program.instructions ≤ program.manifest.backwardBranches.toNat ∧
      program.manifest.backwardBranches ≤ generator.profile.maxBackward ∧
      ((∀ record ∈ generator.catalog.records, record.pattern.count .label ≤ 1) →
        backwardTargets program.instructions = program.manifest.backwardBranches.toNat) ∧
      (generator.profile.branches.allowBackward = false →
        program.manifest.backwardBranches = 0) := by
  obtain ⟨run, source, drawn, assembled, -⟩ := generate_eq_ok_iff.1 given
  have assembles := assembles assembled
  obtain ⟨lower, exact_, capped, forward⟩ := (Run.ensures_accounted _ _ _ drawn).counted
  rw [assembles.backwardTargets_eq, assembles.backwardBranches]
  refine ⟨lower, capped, ?_, forward⟩
  intro once
  apply exact_
  intro record offered
  exact offered.induction (fun record => record.pattern.count .label ≤ 1) (by decide) once

/-- Three branches, the second of them backward. -/
theorem backward_branches_accounted_branches :
    ∃ program after, (ofBranches 1).generate 3 = .ok (.ok program, after) ∧
      program.manifest.backwardBranches = 1 ∧ backwardTargets program.instructions = 1 ∧
      program.manifest.backwardBranches ≤ (ofBranches 1).profile.maxBackward := by
  have observed : (ofBranches 1).observe 3 (·.manifest.backwardBranches) = some 1 := by
    decide +kernel
  have once : ∀ record ∈ (ofBranches 1).catalog.records, record.pattern.count .label ≤ 1 := by
    decide +kernel
  obtain ⟨program, after, given, seen⟩ := exists_of_observe observed
  obtain ⟨-, capped, counted, -⟩ := backward_branches_accounted given
  refine ⟨program, after, given, seen, ?_, capped⟩
  rw [counted once, seen]
  rfl

end Generator

end Rv32Stimulus
