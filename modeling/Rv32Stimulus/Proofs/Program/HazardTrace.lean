/-
# Proofs.Program.HazardTrace -- injected hazards are there in the finished program

Every instruction of a run comes about in one step: it is synthesized, patched, and emitted
(`Setting.Emits`).  When the step begins the tracker follows the instruction before
(`Setting.exists_emits_after`), so what `Tracker.ensures_describes` says of one injection holds of
all of them, with what the run emitted as predecessor and as result.  Finishing sets no register
(`Instruction.completed_rd` and so on), hence the flags describe the finished program as well.

`Generator.hazards_are_real` puts this together, and adds that a chance of one for read-after-write
hazards always hits.
-/
import Rv32Stimulus.Proofs.Pipeline.Flags
import Rv32Stimulus.Proofs.Program.Prefix
import Rv32Stimulus.Proofs.Random.Fraction

namespace Rv32Stimulus

set_option autoImplicit false

open Rv32Stimulus.Random

/-! ## Flags of finished instructions -/

namespace Hazards

variable {made coins : Hazards} {previous drawn inst : Instruction} {labels : LabelTable}
  {position next : Nat}

theorem Describes.completed (describes : made.Describes previous drawn inst) :
    made.Describes (previous.completed labels position) drawn (inst.completed labels next) where
  raw := by simpa [Instruction.Consumes] using describes.raw
  waw := by simpa using describes.waw
  loadUse := by simpa [Instruction.isLoad] using describes.loadUse
  untouched := by simpa using describes.untouched

theorem Honours.completed (honours : coins.Honours previous inst) :
    coins.Honours (previous.completed labels position) (inst.completed labels next) := by
  simpa [Honours, Instruction.ConsumesIfAny] using honours

end Hazards

/-- The coin for a read-after-write hazard is the first draw of an injection. -/
theorem Tracker.inject_coins_raw {tracker : Tracker} {profile : HazardProfile}
    {previous inst : Instruction} {injection : Injection} {source rest : Source}
    (injected : tracker.inject profile (some previous) inst source = .ok (injection, rest)) :
    injection.coins.raw = (source.chance profile.rawDependency).1 := by
  obtain ⟨coins, middle, thrown, patched⟩ := Draw.bind_eq_ok.1 injected
  obtain ⟨rfl, rfl⟩ := Draw.pure_eq_ok.1 patched
  obtain ⟨raw, afterRaw, first, later⟩ := Draw.bind_eq_ok.1 thrown
  obtain ⟨waw, afterWaw, -, later⟩ := Draw.bind_eq_ok.1 later
  have drawn : raw = (source.chance profile.rawDependency).1 :=
    congrArg Prod.fst (Except.ok.inj first).symm
  split at later <;>
    · obtain ⟨loadUse, afterLoadUse, -, last⟩ := Draw.bind_eq_ok.1 later
      obtain ⟨rfl, -⟩ := Draw.pure_eq_ok.1 last
      exact drawn

/-! ## Steps of a run -/

namespace Setting

variable {setting : Setting} {source rest : Source} {run : Run} {index : Nat}

/-- From `source` the first `index` steps lead to `before`; then an instruction is synthesized, which
leaves the source at `here`, and patched. -/
def Emits (setting : Setting) (source : Source) (index : Nat) (before : Run) (here : Source)
    (emission : Emission) : Prop :=
  ∃ middle draft there,
    setting.upTo index source = .ok (before, middle) ∧
    synthesize setting.catalog setting.profile ⟨index, setting.length⟩ before.backward middle =
      .ok (draft, here) ∧
    draft.inst = emission.drawn ∧
    before.tracker.inject setting.profile.hazards before.previous? emission.drawn here =
      .ok (emission.injection, there)

section Emits

variable {before : Run} {here : Source} {emission : Emission}

/-- What synthesis ensures at an index holds of the instruction that was drawn there. -/
theorem Emits.drawn {post : Instruction → Prop}
    (emits : setting.Emits source index before here emission)
    (ensured : ∀ backward, (synthesize setting.catalog setting.profile ⟨index, setting.length⟩
      backward).Ensures fun draft => post draft.inst) : post emission.drawn := by
  obtain ⟨middle, draft, there, -, synthesized, same, -⟩ := emits
  exact same ▸ ensured _ synthesized

/-- Only registers change between synthesis and emission. -/
theorem Emits.patched (emits : setting.Emits source index before here emission) :
    emission.drawn.Patched (before.tracker.Sources before.previous?) emission.inst := by
  obtain ⟨middle, draft, there, -, -, -, injected⟩ := emits
  exact before.tracker.ensures_inject _ _ _ injected

end Emits

/-- One more step. -/
theorem upTo_succ_eq_ok {count : Nat} (drawn : setting.upTo (count + 1) source = .ok (run, rest)) :
    ∃ before here emission, setting.Emits source count before here emission ∧
      run.emitted = emission :: before.emitted ∧ run.tracker = .after emission.inst := by
  unfold upTo at drawn
  rw [List.range_succ, List.foldlM_append] at drawn
  obtain ⟨before, middle, first, last⟩ := Draw.bind_eq_ok.1 drawn
  rw [List.foldlM_cons] at last
  obtain ⟨next, after, stepped, done⟩ := Draw.bind_eq_ok.1 last
  obtain ⟨rfl, -⟩ := Draw.pure_eq_ok.1 done
  obtain ⟨draft, here, synthesized, later⟩ := Draw.bind_eq_ok.1 stepped
  obtain ⟨injection, there, injected, later⟩ := Draw.bind_eq_ok.1 later
  obtain ⟨rfl, -⟩ := Draw.pure_eq_ok.1 later
  exact ⟨before, here, ⟨draft.inst, injection⟩,
    ⟨middle, draft, there, first, synthesized, rfl, injected⟩, rfl, rfl⟩

/-- The tracker follows the instruction emitted last. -/
theorem ensures_follows (setting : Setting) (count : Nat) :
    (setting.upTo count).Ensures fun run => run.tracker = .following run.previous? := by
  intro source run rest drawn
  cases count with
  | zero =>
      obtain ⟨rfl, -⟩ := Draw.pure_eq_ok.1 drawn
      rfl
  | succ count =>
      obtain ⟨before, here, emission, -, emitted, tracker⟩ := upTo_succ_eq_ok drawn
      rw [tracker, Run.previous?, emitted]
      rfl

/-- Every instruction of a run was emitted in the step at its index. -/
theorem exists_emits (drawn : setting.upTo setting.length source = .ok (run, rest))
    (inside : index < setting.length) :
    ∃ before here emission, setting.Emits source index before here emission ∧
      run.emissions[index]? = some emission ∧ before.emissions = run.emissions.take index := by
  obtain ⟨upToHere, _, reached, front⟩ := upTo_emissions (Nat.succ_le_of_lt inside) drawn
  obtain ⟨before, here, emission, emits, emitted, -⟩ := upTo_succ_eq_ok reached
  have grown : upToHere.emissions = before.emissions ++ [emission] := by
    simp [Run.emissions, emitted]
  have counted : before.emissions.length = index := by
    obtain ⟨middle, _, _, first, -⟩ := emits
    obtain ⟨later, count, all⟩ := setting.ensures_adds (List.range index) {} first
    simp [Run.emissions, all, count]
  rw [front] at grown
  refine ⟨before, here, emission, emits, ?_, ?_⟩
  · have found := congrArg (·[index]?) grown
    simpa [counted] using found
  · have earlier := congrArg (List.take index) grown
    rw [List.take_take, Nat.min_eq_left (Nat.le_succ index), List.take_left' counted] at earlier
    exact earlier.symm

/-- When an instruction is emitted, the state of the run is that of its neighbour before. -/
theorem exists_emits_after (drawn : setting.upTo setting.length source = .ok (run, rest))
    (inside : index + 1 < setting.length) :
    ∃ before here first emission, setting.Emits source (index + 1) before here emission ∧
      run.emissions[index]? = some first ∧ run.emissions[index + 1]? = some emission ∧
      before.previous? = some first.inst ∧ before.tracker = .after first.inst := by
  obtain ⟨before, here, emission, emits, found, front⟩ := exists_emits drawn inside
  obtain ⟨first, foundFirst⟩ : ∃ first, run.emissions[index]? = some first := by
    obtain ⟨within, -⟩ := List.getElem?_eq_some_iff.1 found
    exact ⟨_, List.getElem?_eq_getElem (Nat.lt_of_succ_lt within)⟩
  have isPrevious : before.previous? = some first.inst := by
    rw [Run.previous?_eq_getLast?, Run.sequence_eq_map, front, List.getLast?_map,
      List.getLast?_take, if_neg (Nat.succ_ne_zero index), Nat.add_sub_cancel, foundFirst]
    rfl
  obtain ⟨middle, _, _, reached, -⟩ := id emits
  have follows : before.tracker = .after first.inst := by
    rw [setting.ensures_follows _ reached, isPrevious]
    rfl
  exact ⟨before, here, first, emission, emits, foundFirst, found, isPrevious, follows⟩

end Setting

/-! ## The finished program -/

namespace Generator

variable {generator after : Generator} {length : Nat}

/-- The instruction that an emission becomes. -/
theorem getElem?_program (generator : Generator) (run : Run) (position : Nat) :
    (generator.program run).instructions[position]? =
      run.emissions[position]?.map fun emission =>
        emission.inst.completed (labelTable run.sequence) position := by
  change (run.sequence.mapIdx _)[position]? = _
  rw [List.getElem?_mapIdx, Run.sequence_eq_map, List.getElem?_map, Option.map_map]
  rfl

/-- At every step but the first the tracker holds the destination of the finished instruction before
and whether that is a load, and the flags of the injection describe the finished program.  A coin
for a read-after-write hazard decides what is read, whatever the other coins do; with a chance of
one it always falls. -/
theorem hazards_are_real {outcome : Except GenerateError Program}
    (given : generator.generate length = .ok (outcome, after)) :
    ∃ run source,
      Run.ofLength generator.catalog generator.profile length generator.source = .ok (run, source) ∧
      (∀ program, outcome = .ok program → program = generator.program run) ∧
      ∀ index, index + 1 < length → ∃ before here emission previous inst,
        (generator.setting length).Emits generator.source (index + 1) before here emission ∧
        run.emissions[index + 1]? = some emission ∧
        (generator.program run).instructions[index]? = some previous ∧
        (generator.program run).instructions[index + 1]? = some inst ∧
        before.tracker.lastRd = previous.rd ∧ before.tracker.lastWasLoad = previous.isLoad ∧
        emission.injection.made.Describes previous emission.drawn inst ∧
        emission.injection.coins.Honours previous inst ∧
        emission.injection.coins.raw =
          (here.chance generator.profile.hazards.rawDependency).1 ∧
        (generator.profile.hazards.rawDependency = 1.0 → emission.injection.coins.raw = true) := by
  obtain ⟨run, source, drawn, assembled, -⟩ := generate_eq_ok_iff.1 given
  refine ⟨run, source, drawn, fun program made => eq_program (assembled.trans made), ?_⟩
  intro index inside
  obtain ⟨before, here, first, emission, emits, foundFirst, found, isPrevious, follows⟩ :=
    (generator.setting length).exists_emits_after drawn inside
  obtain ⟨_, _, _, -, -, -, injected⟩ := id emits
  rw [follows, isPrevious] at injected
  obtain ⟨describes, honours⟩ := Tracker.ensures_describes _ _ _ injected
  have thrown := Tracker.inject_coins_raw injected
  refine ⟨before, here, emission, first.inst.completed (labelTable run.sequence) index,
    emission.inst.completed (labelTable run.sequence) (index + 1), emits, found, ?_, ?_, ?_, ?_,
    describes.completed, honours.completed, thrown, ?_⟩
  · rw [getElem?_program, foundFirst]
    rfl
  · rw [getElem?_program, found]
    rfl
  · rw [follows, Instruction.completed_rd]
    rfl
  · rw [follows, Instruction.isLoad, Instruction.completed_record]
    rfl
  · intro always
    rw [thrown]
    change (here.chance generator.profile.hazards.rawDependency).1 = true
    rw [always]
    exact here.chance_one

/-- A generator whose instructions always read what the one before writes, and often write there or
use what was loaded. -/
def ofForcedHazards (seed : UInt64) : Generator :=
  .ofSeed .rv32i
    { Profile.standard with
      weights := .ofList [("alu_logic", 1.0), ("load", 1.0), ("store", 1.0)]
      hazards := { rawDependency := 1.0, wawRepeat := 0.5, loadUse := 0.5 } }
    seed

/-- Two loads: the second reads what the first loaded, and the flags say so. -/
theorem hazards_are_real_loads :
    ∃ program after previous inst, (ofForcedHazards 12).generate 3 = .ok (.ok program, after) ∧
      program.instructions[0]? = some previous ∧ program.instructions[1]? = some inst ∧
      previous.isLoad = true ∧ inst.isLoad = true ∧ previous.rd = some 30 ∧ inst.rs1 = some 30 := by
  have observed : (ofForcedHazards 12).observe 3 (fun program =>
      (program.instructions[0]?.map fun inst => (inst.isLoad, inst.rd),
        program.instructions[1]?.map fun inst => (inst.isLoad, inst.rs1.isSome))) =
        some (some (true, some 30), some (true, true)) := by decide +kernel
  obtain ⟨program, after, given, seen⟩ := exists_of_observe observed
  obtain ⟨run, source, -, is, real⟩ := hazards_are_real given
  obtain ⟨before, here, emission, previous, inst, -, -, first, second, -, -, -, honours, -, always⟩ :=
    real 0 (by decide)
  rw [← is program rfl] at first second
  rw [first, second] at seen
  simp only [Option.map_some, Prod.mk.injEq, Option.some.injEq] at seen
  obtain ⟨⟨isLoad, rd⟩, isLoadToo, reads⟩ := seen
  have read := honours (always rfl) 30 rd (by decide)
  exact ⟨program, after, previous, inst, given, first, second, isLoad, isLoadToo, rd, read.1 reads⟩

end Generator

end Rv32Stimulus
