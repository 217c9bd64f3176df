/-
# Proofs.Program.Reach -- caps under which every branch gets where it aims

A cap is given in bytes and rounded down to whole instructions, and a target is at most that many
instructions away, whichever way it lies and whichever bucket was drawn (`Profile.Chooses.near`).  So
its displacement is at most the greatest cap (`BranchProfile.CapsBelow.distance_lt`), and a
cap that stays below the reach of a format, even by a single byte, never leads out of its window.

`Instruction.StaysNear` carries the bound from the choice of a target through synthesis and patching
into a run; `Generator.small_caps_suffice` is what follows for the finished program.
-/
import Rv32Stimulus.Proofs.Program.ControlFlow
import Rv32Stimulus.Proofs.Program.HazardTrace

namespace Rv32Stimulus

set_option autoImplicit false

open Rv32Stimulus.Random

/-! ## Caps and distances -/

/-- Every cap is below so many bytes. -/
def BranchProfile.CapsBelow (profile : BranchProfile) (bytes : Nat) : Prop :=
  profile.nearMaxBytes.toNat < bytes ∧ profile.midMaxBytes.toNat < bytes ∧
    profile.farMaxBytes.toNat < bytes

instance (profile : BranchProfile) (bytes : Nat) : Decidable (profile.CapsBelow bytes) :=
  inferInstanceAs (Decidable (profile.nearMaxBytes.toNat < bytes ∧
    profile.midMaxBytes.toNat < bytes ∧ profile.farMaxBytes.toNat < bytes))

theorem BranchProfile.CapsBelow.distance_lt {profile : BranchProfile} {bytes : Nat}
    (capped : profile.CapsBelow bytes) : wordBytes * profile.greatestDistance < bytes := by
  obtain ⟨near, mid, far⟩ := capped
  unfold greatestDistance wordBytes
  omega

/-- No more positions lie between a branch and its target than a cap allows. -/
theorem Profile.Chooses.near {profile : Profile} {backward : UInt32} {index length : Nat}
    {choice : TargetChoice} (chosen : profile.Chooses backward index length choice) :
    choice.target ≤ index + profile.branches.greatestDistance ∧
      index ≤ choice.target + profile.branches.greatestDistance := by
  have capped := profile.branches.capDistance_le_greatestDistance
  cases chosen with
  | last | stay => dsimp only; omega
  | back bucket distance inner allowed positive room =>
      have within := capped bucket
      dsimp only
      omega
  | ahead bucket distance inner positive room =>
      have within := capped bucket
      dsimp only
      omega

/-! ## Targets of drawn instructions -/

/-- A target is at most `distance` positions away. -/
def Instruction.StaysNear (distance position : Nat) (inst : Instruction) : Prop :=
  ∀ target, inst.target = some target →
    target ≤ position + distance ∧ position ≤ target + distance

theorem ensures_synthesize_near (catalog : Catalog) (profile : Profile) (site : Site)
    (backward : UInt32) :
    (synthesize catalog profile site backward).Ensures fun draft =>
      draft.inst.StaysNear profile.branches.greatestDistance site.index := by
  refine (Draw.Ensures.trivial _).bind ?_
  intro record _
  refine Draft.ensures_of_kept ?_ (by simp [Instruction.StaysNear]) record.pattern
  intro draft role next fills near
  cases fills with
  | label choice chosen =>
      rintro target ⟨⟩
      exact chosen.near
  | _ => exact near

theorem Setting.exists_near {setting : Setting} {source rest : Source} {run : Run}
    (drawn : setting.upTo setting.length source = .ok (run, rest)) {position : Nat}
    (inside : position < setting.length) :
    ∃ inst, run.sequence[position]? = some inst ∧
      inst.StaysNear setting.profile.branches.greatestDistance position := by
  obtain ⟨before, here, emission, emits, found, -⟩ := exists_emits drawn inside
  refine ⟨emission.inst, by simp [Run.sequence_eq_map, found], ?_⟩
  have near := emits.drawn (ensures_synthesize_near _ _ _)
  unfold Instruction.StaysNear at near ⊢
  rwa [emits.patched.target_eq]

namespace Instruction

variable {inst : Instruction} {distance position target : Nat}

/-- A near target is in the window of the format. -/
theorem StaysNear.admits (near : inst.StaysNear distance position) (aimed : inst.target = some target)
    {reach : Nat} (window : inst.record.format.reach? = some reach)
    (wide : wordBytes * distance < reach) :
    inst.record.format.admits (displacement position target) = true := by
  obtain ⟨ahead, behind⟩ := near target aimed
  have bytes : (displacement position target).natAbs ≤ wordBytes * distance := by
    unfold displacement wordBytes
    omega
  have even : displacement position target % 2 = 0 := by
    unfold displacement wordBytes
    omega
  simp only [Format.admits, window, even, BEq.rfl, Bool.and_true]
  exact decide_eq_true (by omega)

end Instruction

/-! ## The finished program -/

/-- If the record names a target, its format has a window, and one wider than `bytes`. -/
def Record.Spans (bytes : Nat) (record : Record) : Prop :=
  .label ∈ record.pattern →
    record.format.IsRelative ∧ ∃ reach, record.format.reach? = some reach ∧ bytes < reach

namespace Generator

variable {generator after : Generator} {program : Program} {run : Run} {source : Source}
  {length : Nat}

/-- The window of a branch is wider than any cap below 4096 bytes, that of a jump than any below
a mebibyte. -/
theorem spans_of_offers
    (labelled : ∀ record ∈ generator.catalog.records, .label ∈ record.pattern →
      record.format = .b ∨ record.format = .j)
    (capped : generator.profile.branches.CapsBelow 0x1000 ∨
      generator.profile.branches.CapsBelow 0x100000 ∧
        ∀ record ∈ generator.catalog.records, .label ∈ record.pattern → record.format = .j)
    {record : Record} (offered : generator.catalog.Offers record) :
    record.Spans (wordBytes * generator.profile.branches.greatestDistance) := by
  refine offered.induction _ (fun member => absurd member (by decide)) ?_
  intro record listed member
  refine ⟨labelled record listed member, ?_⟩
  rcases capped with small | ⟨small, jumps⟩
  · have below := small.distance_lt
    rcases labelled record listed member with format | format
    · exact ⟨0x1000, by rw [format]; rfl, below⟩
    · exact ⟨0x100000, by rw [format]; rfl, by omega⟩
  · exact ⟨0x100000, by rw [jumps record listed member]; rfl, small.distance_lt⟩

/-- Where the window of every record spans the greatest distance, it admits every target of a run. -/
theorem admits_of_spans
    (drawn : Run.ofLength generator.catalog generator.profile length generator.source =
      .ok (run, source))
    (spans : ∀ record, generator.catalog.Offers record →
      record.Spans (wordBytes * generator.profile.branches.greatestDistance))
    {position target : Nat} {inst : Instruction} (found : run.sequence[position]? = some inst)
    (aimed : inst.target = some target) :
    inst.record.format.IsRelative ∧
      inst.record.format.admits (displacement position target) = true := by
  have sound := Run.ensures_sound _ _ _ drawn
  have atPosition := sound.drawn position inst found
  obtain ⟨relative, reach, window, wide⟩ := spans _ atPosition.offered
    (atPosition.populated.target.1 (by rw [aimed]; rfl))
  obtain ⟨inside, -⟩ := List.getElem?_eq_some_iff.1 found
  rw [sound.length_sequence] at inside
  obtain ⟨same, isSame, near⟩ := (generator.setting length).exists_near drawn inside
  obtain rfl := Option.some.inj (found.symm.trans isSame)
  exact ⟨relative, near.admits aimed window wide⟩

/-- With all caps below 4096 bytes, or below a mebibyte where only jumps name a target, nothing is
substituted: the word of every instruction with a label role leads to its target. -/
theorem small_caps_suffice (given : generator.generate length = .ok (.ok program, after))
    (labelled : ∀ record ∈ generator.catalog.records, .label ∈ record.pattern →
      record.format = .b ∨ record.format = .j)
    (capped : generator.profile.branches.CapsBelow 0x1000 ∨
      generator.profile.branches.CapsBelow 0x100000 ∧
        ∀ record ∈ generator.catalog.records, .label ∈ record.pattern → record.format = .j) :
    program.manifest.offsetFallbacks = 0 ∧
      ∀ (position : Nat) (inst : Instruction), program.instructions[position]? = some inst →
        .label ∈ inst.record.pattern →
        ∃ target, inst.target = some target ∧
          (inst.word.fields inst.record.format inst.record.kind).imm =
            some (4 * ((target : Int) - position)) := by
  obtain ⟨run, source, drawn, assembled, -⟩ := generate_eq_ok_iff.1 given
  have sound := Run.ensures_sound _ _ _ drawn
  have assembles := assembles assembled
  have spans (record : Record) (offered : generator.catalog.Offers record) :=
    spans_of_offers labelled capped offered
  constructor
  · rw [assembles.offsetFallbacks, outOfReach, List.zipIdx_map, List.countP_map, List.countP_eq_zero]
    rintro ⟨inst, position⟩ entry
    have found := List.mem_zipIdx_iff_getElem?.1 entry
    simp only [Function.comp_apply, Prod.map, id, Instruction.isOutOfReach,
      Instruction.withLabel_target, Instruction.withLabel_record]
    cases aimed : inst.target with
    | none => simp
    | some target => simp [(admits_of_spans drawn spans found aimed).2]
  · intro position inst found member
    obtain ⟨fresh, inRun, rfl⟩ := assembles.getElem? found
    rw [Instruction.completed_record] at member ⊢
    obtain ⟨target, aimed⟩ := Option.isSome_iff_exists.1
      ((sound.drawn position fresh inRun).populated.target.2 member)
    obtain ⟨relative, admitted⟩ := admits_of_spans drawn spans inRun aimed
    refine ⟨target, by simpa using aimed, ?_⟩
    rw [Instruction.fields_completed_imm _ _ relative aimed,
      (Format.offset_eq_displacement_iff relative).2 admitted]
    rfl

/-- A generator of branches and jumps with the greatest caps that are never too much for a branch. -/
def ofWidestBranches (seed : UInt64) : Generator :=
  .ofSeed .rv32i
    { Profile.standard with
      weights := .ofList [("branch", 1.0), ("jump", 1.0)]
      branches :=
        { Profile.standard.branches with
          nearMaxBytes := 4095, midMaxBytes := 4095, farMaxBytes := 4095 } }
    seed

/-- The third of four instructions is a branch back to the second. -/
theorem small_caps_suffice_back :
    (ofWidestBranches 8).profile.branches.CapsBelow 0x1000 ∧
      ∃ program after inst, (ofWidestBranches 8).generate 4 = .ok (.ok program, after) ∧
        program.instructions[2]? = some inst ∧ inst.record.format = .b ∧ inst.target = some 1 ∧
        program.manifest.offsetFallbacks = 0 ∧
        (inst.word.fields inst.record.format inst.record.kind).imm = some (-4) := by
  have observed : (ofWidestBranches 8).observe 4 (fun program =>
      program.instructions[2]?.map fun inst =>
        (inst.record.format, decide (.label ∈ inst.record.pattern), inst.target)) =
        some (some (.b, true, some 1)) := by decide +kernel
  have labelled : ∀ record ∈ (ofWidestBranches 8).catalog.records, .label ∈ record.pattern →
      record.format = .b ∨ record.format = .j := by decide +kernel
  have capped : (ofWidestBranches 8).profile.branches.CapsBelow 0x1000 := by decide +kernel
  obtain ⟨program, after, given, seen⟩ := exists_of_observe observed
  obtain ⟨inst, found, shape⟩ := Option.map_eq_some_iff.1 seen
  simp only [Prod.mk.injEq, decide_eq_true_eq] at shape
  obtain ⟨format, member, target⟩ := shape
  obtain ⟨none_, leads⟩ := small_caps_suffice given labelled (.inl capped)
  obtain ⟨aim, aimed, carried⟩ := leads 2 inst found member
  obtain rfl := Option.some.inj (aimed.symm.trans target)
  exact ⟨capped, program, after, inst, given, found, format, target, none_, carried⟩

/-- A cap of 4096 bytes is already too much for a branch. -/
example : Format.b.admits (displacement 0 (4096 / wordBytes)) = false := by decide

end Generator

end Rv32Stimulus
