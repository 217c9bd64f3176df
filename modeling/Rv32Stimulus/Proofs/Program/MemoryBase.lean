/-
# Proofs.Program.MemoryBase -- when a memory access has `x0` as its base

Synthesis never takes `x0` as a base, and an access whose pattern has no plain `rs1` role keeps the
base that it was given (`ensures_synthesize_base`).  Of the three patches that may follow, the
read-after-write patch skips `x0`, the write-after-write patch leaves `rs1` alone, and the load-use
patch takes whatever the load before it wrote to (`Tracker.patch_rs1_eq_zero_iff`).

So a base is `x0` exactly where a load to `x0` comes right before and the load-use patch was made;
`Generator.zero_base_iff_used_load` says so of finished programs.  The destination of that load is the
one it has after its own patches, which is what the tracker follows.
-/
import Rv32Stimulus.Proofs.Program.HazardTrace

namespace Rv32Stimulus

set_option autoImplicit false

open Rv32Stimulus.Random

/-! ## Synthesis -/

/-- Only a plain `rs1` role can put `x0` into the first source. -/
theorem Draft.Fills.rs1_ne_zero {profile : Profile} {site : Site} {draft next : Draft} {role : Role}
    (fills : Fills profile site draft role next) (notPlain : role ≠ .rs1)
    (nonzero : draft.inst.rs1 ≠ some 0) : next.inst.rs1 ≠ some 0 := by
  cases fills with
  | rs1 register small => exact absurd rfl notPlain
  | memory base offset positive small fits =>
      rintro ⟨⟩
      exact absurd positive (by decide)
  | _ => exact nonzero

/-- `x0` is the first source only where a plain `rs1` role may have put it. -/
def Instruction.SparesBase (inst : Instruction) : Prop :=
  .rs1 ∉ inst.record.pattern → inst.rs1 ≠ some 0

theorem ensures_synthesize_base (catalog : Catalog) (profile : Profile) (site : Site)
    (backward : UInt32) :
    (synthesize catalog profile site backward).Ensures fun draft => draft.inst.SparesBase := by
  refine ensures_synthesize_of_taken catalog
    (fun taken draft => .rs1 ∉ taken → draft.inst.rs1 ≠ some 0) (by simp) ?_ backward
  intro taken draft role soFar
  refine (draft.ensures_fill profile site role).mono ?_
  intro next fills absent
  simp only [List.mem_append, List.mem_singleton, not_or] at absent
  exact fills.rs1_ne_zero (Ne.symm absent.2) (soFar absent.1)

/-! ## Injection -/

namespace Tracker

variable {tracker : Tracker} {coins : Hazards} {previous inst : Instruction} {injection : Injection}

/-- Only the load-use patch points `rs1` to `x0`. -/
theorem patch_rs1_eq_zero_iff (is : tracker.patch coins previous inst = injection)
    (nonzero : inst.rs1 ≠ some 0) :
    injection.inst.rs1 = some 0 ↔
      injection.made.loadUse = true ∧ tracker.lastRd = some 0 := by
  obtain ⟨first, second, raw, waw, loadUse⟩ := patch_stages is
  have afterRaw : first.rs1 ≠ some 0 := by
    rcases Instruction.patchedIf_cases raw with ⟨-, -, given⟩ | ⟨-, rfl, -⟩
    · obtain ⟨register, -, written, reads | ⟨absent, -⟩⟩ :=
        Instruction.consumes_of_readAfterWrite? given
      · simpa [reads] using written
      · simp [absent]
    · exact nonzero
  have afterWaw : second.rs1 ≠ some 0 := by
    rcases Instruction.patchedIf_cases waw with ⟨-, -, given⟩ | ⟨-, rfl, -⟩
    · obtain ⟨_, -, rfl⟩ := Instruction.eq_of_writeAfterWrite? given
      exact afterRaw
    · exact afterRaw
  rcases Instruction.patchedIf_cases loadUse with ⟨made, -, given⟩ | ⟨kept, same, -⟩
  · obtain ⟨register, loaded, -, same⟩ := Instruction.eq_of_useLoaded? given
    simp [same, made, loaded]
  · simp [same, kept, afterWaw]

/-- The patch is made only after a load, and the tracker holds the destination of that load. -/
theorem patch_after_rs1_eq_zero_iff (thrown : coins.loadUse = true → previous.isLoad = true)
    (is : (after previous).patch coins previous inst = injection) (nonzero : inst.rs1 ≠ some 0) :
    injection.inst.rs1 = some 0 ↔
      previous.isLoad = true ∧ previous.rd = some 0 ∧ injection.made.loadUse = true := by
  have zero : injection.inst.rs1 = some 0 ↔
      injection.made.loadUse = true ∧ previous.rd = some 0 := patch_rs1_eq_zero_iff is nonzero
  rw [zero]
  constructor
  · rintro ⟨made, written⟩
    exact ⟨((describes_patch thrown is).loadUse made).1, written, made⟩
  · rintro ⟨-, written, made⟩
    exact ⟨made, written⟩

theorem ensures_zero_rs1_iff (profile : HazardProfile) (previous? : Option Instruction)
    (nonzero : inst.rs1 ≠ some 0) :
    ((following previous?).inject profile previous? inst).Ensures fun injection =>
      injection.inst.rs1 = some 0 ↔
        ∃ previous, previous? = some previous ∧ previous.isLoad = true ∧ previous.rd = some 0 ∧
          injection.made.loadUse = true := by
  cases previous? with
  | none => exact .pure (by simpa using nonzero)
  | some previous =>
      refine ((after previous).ensures_throwCoins profile).bind ?_
      intro coins thrown
      refine .pure ?_
      simpa [following] using patch_after_rs1_eq_zero_iff thrown rfl nonzero

end Tracker

/-! ## Runs -/

namespace Setting

variable {setting : Setting} {source rest : Source} {run : Run} {position : Nat}

/-- The run before an instruction is emitted ends with the neighbour before it. -/
theorem exists_emits_following (drawn : setting.upTo setting.length source = .ok (run, rest))
    (inside : position < setting.length) :
    ∃ before here emission, setting.Emits source position before here emission ∧
      run.emissions[position]? = some emission ∧
      before.tracker = .following before.previous? ∧
      ∀ previous, before.previous? = some previous ↔
        ∃ index first, position = index + 1 ∧ run.emissions[index]? = some first ∧
          first.inst = previous := by
  cases position with
  | zero =>
      obtain ⟨before, here, emission, emits, found, front⟩ := exists_emits drawn inside
      obtain ⟨_, _, _, reached, -⟩ := id emits
      have alone : before.previous? = none := by
        simp [Run.previous?_eq_getLast?, Run.sequence_eq_map, front]
      exact ⟨before, here, emission, emits, found, setting.ensures_follows _ reached, by simp [alone]⟩
  | succ index =>
      obtain ⟨before, here, first, emission, emits, foundFirst, found, isPrevious, follows⟩ :=
        exists_emits_after drawn inside
      exact ⟨before, here, emission, emits, found, by rw [follows, isPrevious]; rfl,
        by simp [isPrevious, foundFirst]⟩

/-- Without a plain `rs1` role, the first source is `x0` after a load to `x0` that is used. -/
theorem exists_zero_rs1_iff (drawn : setting.upTo setting.length source = .ok (run, rest))
    (inside : position < setting.length) :
    ∃ emission, run.emissions[position]? = some emission ∧
      (.rs1 ∉ emission.inst.record.pattern →
        (emission.inst.rs1 = some 0 ↔ ∃ index first, position = index + 1 ∧
          run.emissions[index]? = some first ∧ first.inst.isLoad = true ∧
          first.inst.rd = some 0 ∧ emission.injection.made.loadUse = true)) := by
  obtain ⟨before, here, emission, emits, found, follows, previous⟩ :=
    exists_emits_following drawn inside
  refine ⟨emission, found, ?_⟩
  intro absent
  rw [emits.patched.record_eq] at absent
  have nonzero := emits.drawn (ensures_synthesize_base _ _ _) absent
  obtain ⟨_, _, _, -, -, -, injected⟩ := emits
  rw [follows] at injected
  have zero := Tracker.ensures_zero_rs1_iff _ _ nonzero injected
  refine zero.trans ?_
  simp only [previous]
  constructor
  · rintro ⟨_, ⟨index, first, rfl, foundFirst, rfl⟩, used⟩
    exact ⟨index, first, rfl, foundFirst, used⟩
  · rintro ⟨index, first, rfl, foundFirst, used⟩
    exact ⟨first.inst, ⟨index, first, rfl, foundFirst, rfl⟩, used⟩

end Setting

/-! ## The finished program -/

namespace Generator

variable {generator after : Generator} {program : Program} {run : Run} {source : Source}
  {length position : Nat} {emission : Emission} {base : UInt8}

/-- What an emission uses is there to see in the finished program. -/
theorem base_eq_zero_iff
    (drawn : Run.ofLength generator.catalog generator.profile length generator.source =
      .ok (run, source))
    (emitted : run.emissions[position]? = some emission) (inside : position < length)
    (absent : .rs1 ∉ emission.inst.record.pattern) (based : emission.inst.rs1 = some base) :
    base = 0 ↔ ∃ index previous emission, position = index + 1 ∧
      (generator.program run).instructions[index]? = some previous ∧ previous.isLoad = true ∧
      previous.rd = some 0 ∧ run.emissions[position]? = some emission ∧
      emission.injection.made.loadUse = true := by
  obtain ⟨same, isSame, zero⟩ := (generator.setting length).exists_zero_rs1_iff drawn inside
  obtain rfl := Option.some.inj (emitted.symm.trans isSame)
  constructor
  · rintro rfl
    obtain ⟨index, first, rfl, foundFirst, loads, written, made⟩ := (zero absent).1 based
    refine ⟨index, first.inst.completed (labelTable run.sequence) index, emission, rfl, ?_, ?_, ?_,
      emitted, made⟩
    · rw [getElem?_program, foundFirst]
      rfl
    · simpa [Instruction.isLoad] using loads
    · simpa using written
  · rintro ⟨index, previous, here, rfl, foundPrevious, loads, written, isHere, made⟩
    rw [getElem?_program] at foundPrevious
    obtain ⟨first, foundFirst, rfl⟩ := Option.map_eq_some_iff.1 foundPrevious
    obtain rfl := Option.some.inj (emitted.symm.trans isHere)
    have isZero : emission.inst.rs1 = some 0 :=
      (zero absent).2 ⟨index, first, rfl, foundFirst, by simpa [Instruction.isLoad] using loads,
        by simpa using written, made⟩
    exact Option.some.inj (based.symm.trans isZero)

/-- The base of a memory access without a plain `rs1` role is `x0` exactly if the instruction before
is a load that, as it came out, writes to `x0`, and the load-use patch was made.  So the first
instruction never has it, nor does an access right after anything but a load. -/
theorem zero_base_iff_used_load (given : generator.generate length = .ok (.ok program, after)) :
    ∃ run source,
      Run.ofLength generator.catalog generator.profile length generator.source = .ok (run, source) ∧
      program = generator.program run ∧
      ∀ (position : Nat) (inst : Instruction), program.instructions[position]? = some inst →
        .memory ∈ inst.record.pattern → .rs1 ∉ inst.record.pattern →
        ∃ base, inst.rs1 = some base ∧
          (base = 0 ↔ ∃ index previous emission, position = index + 1 ∧
            program.instructions[index]? = some previous ∧ previous.isLoad = true ∧
            previous.rd = some 0 ∧ run.emissions[position]? = some emission ∧
            emission.injection.made.loadUse = true) ∧
          (position = 0 → base ≠ 0) ∧
          ∀ index previous, position = index + 1 → program.instructions[index]? = some previous →
            previous.isLoad = false → base ≠ 0 := by
  obtain ⟨run, source, drawn, assembled, -⟩ := generate_eq_ok_iff.1 given
  have sound := Run.ensures_sound _ _ _ drawn
  obtain rfl := eq_program assembled
  refine ⟨run, source, drawn, rfl, ?_⟩
  intro position inst found accesses absent
  rw [getElem?_program] at found
  obtain ⟨emission, emitted, rfl⟩ := Option.map_eq_some_iff.1 found
  simp only [Instruction.completed_record] at accesses absent
  have inRun : run.sequence[position]? = some emission.inst := by
    rw [Run.sequence_eq_map, List.getElem?_map, emitted]
    rfl
  obtain ⟨inside, -⟩ := List.getElem?_eq_some_iff.1 inRun
  rw [sound.length_sequence] at inside
  obtain ⟨base, based⟩ := Option.isSome_iff_exists.1
    ((sound.drawn position _ inRun).populated.rs1.2 (.inr accesses))
  have used := base_eq_zero_iff drawn emitted inside absent based
  refine ⟨base, by simpa using based, used, ?_, ?_⟩
  · intro isFirst isZero
    obtain ⟨index, _, _, next, -⟩ := used.1 isZero
    omega
  · intro index previous next foundPrevious notLoad isZero
    obtain ⟨other, load, _, after, foundLoad, loads, -⟩ := used.1 isZero
    obtain rfl : other = index := by omega
    obtain rfl := Option.some.inj (foundPrevious.symm.trans foundLoad)
    simp [notLoad] at loads

/-- A generator of loads and stores that use whatever was loaded. -/
def ofUsedLoads (seed : UInt64) : Generator :=
  .ofSeed .rv32i
    { Profile.standard with
      weights := .ofList [("load", 1.0), ("store", 1.0)]
      hazards := { rawDependency := 0.0, wawRepeat := 0.0, loadUse := 1.0 } }
    seed

/-- The second of two accesses uses what was loaded to `x0`, so its base is `x0`. -/
theorem zero_base_iff_used_load_pair :
    ∃ program after previous inst, (ofUsedLoads 45).generate 2 = .ok (.ok program, after) ∧
      program.instructions[0]? = some previous ∧ program.instructions[1]? = some inst ∧
      .memory ∈ inst.record.pattern ∧ inst.rs1 = some 0 ∧
      previous.isLoad = true ∧ previous.rd = some 0 := by
  have observed : (ofUsedLoads 45).observe 2 (fun program =>
      program.instructions[1]?.map fun inst =>
        (decide (.memory ∈ inst.record.pattern ∧ .rs1 ∉ inst.record.pattern), inst.rs1)) =
        some (some (true, some 0)) := by decide +kernel
  obtain ⟨program, after, given, seen⟩ := exists_of_observe observed
  obtain ⟨inst, found, shape⟩ := Option.map_eq_some_iff.1 seen
  simp only [Prod.mk.injEq, decide_eq_true_eq] at shape
  obtain ⟨⟨accesses, absent⟩, based⟩ := shape
  obtain ⟨run, source, -, -, bases⟩ := zero_base_iff_used_load given
  obtain ⟨base, same, used, -, -⟩ := bases 1 inst found accesses absent
  obtain rfl := Option.some.inj (based.symm.trans same)
  obtain ⟨index, previous, _, next, foundPrevious, loads, written, -⟩ := used.1 rfl
  obtain rfl : index = 0 := by omega
  exact ⟨program, after, previous, inst, given, foundPrevious, found, accesses, based, loads, written⟩

end Generator

end Rv32Stimulus
