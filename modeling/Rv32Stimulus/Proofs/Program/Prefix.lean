/-
# Proofs.Program.Prefix -- programs of different lengths begin alike

The length of a program reaches its draws in one place: a branch must not skip the end.  From a
position that is further from the end than any branch goes, the end is out of sight
(`Setting.EndOutOfSight`): the room for a target is what the cap leaves, and the clamp to the
last position does nothing (`Profile.chooseTarget_eq_of_room`).  So two runs from the same source
draw the same there, whatever their lengths (`Setting.upTo_eq`), and the earlier
instructions of a run are a run (`Setting.upTo_take`).

Finishing looks at one instruction and its position only: the label table that it is given never
matters for the text, since a target brings its own name (`Instruction.completed_labels`).
-/
import Rv32Stimulus.Isa.Base
import Rv32Stimulus.Proofs.Program.Lockstep

namespace Rv32Stimulus

set_option autoImplicit false

open Rv32Stimulus.Random
open Draw (Lockstep)

/-! ## Targets -/

namespace Profile

/-- In a program of `length` instructions `index` is not the last position, and no cap lets a branch
there skip the end. -/
def HasRoom (profile : Profile) (index length : Nat) : Prop :=
  index + 1 + max profile.branches.greatestDistance 1 ≤ length

variable {profile : Profile} {index short long : Nat}

/-- The length of the program does not matter to a branch that has room. -/
theorem chooseTarget_eq_of_room (room : profile.HasRoom index short)
    (twinRoom : profile.HasRoom index long) (backward : UInt32) :
    profile.chooseTarget backward index short = profile.chooseTarget backward index long := by
  have notLast : ¬short ≤ index + 1 := by unfold HasRoom at room; omega
  have twinNotLast : ¬long ≤ index + 1 := by unfold HasRoom at twinRoom; omega
  apply Lockstep.eq
  unfold chooseTarget
  rw [if_neg notLast, if_neg twinNotLast]
  refine (Lockstep.refl _).bind ?_
  rintro bucket _ rfl
  extract_lets cap behind ahead turn twinAhead twinTurn
  have capped : cap ≤ profile.branches.greatestDistance :=
    profile.branches.capDistance_le_greatestDistance bucket
  have small : cap < 0x40000000 := profile.branches.capDistance_lt bucket
  -- With room on both sides the cap decides, and nothing it allows gets past the end.
  unfold HasRoom at room twinRoom
  have whole : ahead = cap := by omega
  have twinWhole : twinAhead = cap := by omega
  have turned (turnsBack : Bool) : Lockstep (turn turnsBack) (twinTurn turnsBack) Eq := by
    refine .ite Iff.rfl (fun _ => .refl _) fun _ => ?_
    rw [whole, twinWhole]
    refine .ite Iff.rfl (fun _ => .refl _) fun open_ => ?_
    refine (Lockstep.of_ensures (Draw.ensures_between (by omega))).bind ?_
    rintro distance _ ⟨rfl, bounds⟩
    rw [Nat.min_eq_left (by omega), Nat.min_eq_left (by omega)]
    exact .refl _
  refine .ite Iff.rfl (fun _ => ?_) fun _ => turned false
  refine (Lockstep.refl _).bind ?_
  rintro turnsBack _ rfl
  exact turned turnsBack

end Profile

/-! ## Instructions -/

/-- Whatever is drawn at `site`, no branch of it can see the end of the program. -/
def EndOutOfSight (catalog : Catalog) (profile : Profile) (site : Site) : Prop :=
  ∀ record, catalog.Offers record → .label ∈ record.pattern →
    profile.HasRoom site.index site.length

section Unseen

variable {catalog : Catalog} {profile : Profile} {index short long : Nat}

theorem Draft.fill_eq_of_room (draft : Draft) (role : Role)
    (room : role = .label → profile.HasRoom index short ∧ profile.HasRoom index long) :
    draft.fill profile ⟨index, short⟩ role = draft.fill profile ⟨index, long⟩ role := by
  cases role with
  | label =>
      obtain ⟨room, twinRoom⟩ := room rfl
      unfold fill
      dsimp only
      rw [Profile.chooseTarget_eq_of_room room twinRoom]
  | _ => rfl

theorem synthesize_eq_of_unseen (unseen : EndOutOfSight catalog profile ⟨index, short⟩)
    (twinUnseen : EndOutOfSight catalog profile ⟨index, long⟩) (backward : UInt32) :
    synthesize catalog profile ⟨index, short⟩ backward =
      synthesize catalog profile ⟨index, long⟩ backward := by
  apply Lockstep.eq
  refine (Lockstep.of_ensures (catalog.ensures_chooseRecord profile.weights)).bind ?_
  rintro record _ ⟨rfl, offered⟩
  refine .foldlM record.pattern rfl ?_
  rintro role member draft _ rfl
  have room (isLabel : role = .label) :
      profile.HasRoom index short ∧ profile.HasRoom index long := by
    subst isLabel
    exact ⟨unseen record offered member, twinUnseen record offered member⟩
  rw [draft.fill_eq_of_room role room]
  exact .refl _

end Unseen

/-! ## Runs -/

/-- What was emitted, in program order. -/
def Run.emissions (run : Run) : List Emission := run.emitted.reverse

theorem Run.sequence_eq_map (run : Run) : run.sequence = run.emissions.map Emission.inst :=
  List.map_reverse.symm

/-- `run` goes on from `start` with `count` more instructions. -/
def Run.Adds (start : Run) (count : Nat) (run : Run) : Prop :=
  ∃ later : List Emission, later.length = count ∧ run.emitted = later ++ start.emitted

namespace Setting

/-- Two settings draw the same instructions for as long as the end is out of sight in both. -/
theorem upTo_eq {catalog : Catalog} {profile : Profile} {short long count : Nat}
    (unseen : ∀ index < count, EndOutOfSight catalog profile ⟨index, short⟩)
    (twinUnseen : ∀ index < count, EndOutOfSight catalog profile ⟨index, long⟩) :
    (⟨catalog, profile, short⟩ : Setting).upTo count =
      (⟨catalog, profile, long⟩ : Setting).upTo count := by
  apply Lockstep.eq
  refine .foldlM (List.range count) rfl ?_
  rintro index member run _ rfl
  have inside := List.mem_range.1 member
  unfold Run.step
  rw [synthesize_eq_of_unseen (unseen index inside) (twinUnseen index inside)]
  exact .refl _

/-- Every index adds one instruction. -/
theorem ensures_adds (setting : Setting) (indices : List Nat) (start : Run) :
    (indices.foldlM (Run.step setting.catalog setting.profile setting.length) start).Ensures
      (start.Adds indices.length) := by
  refine .foldlM (fun taken => start.Adds taken.length) ⟨[], rfl, rfl⟩ ?_
  rintro taken index - run - ⟨later, count, emitted⟩
  refine (Draw.Ensures.trivial _).bind ?_
  intro draft _
  refine (Draw.Ensures.trivial _).bind ?_
  intro injection _
  refine .pure ⟨⟨draft.inst, injection⟩ :: later, ?_, ?_⟩
  · simp [count]
  · rw [emitted, List.cons_append]

/-- What the first `count` steps of a longer run emit is what a run of `count` steps emits. -/
theorem upTo_emissions {setting : Setting} {count length : Nat} (within : count ≤ length)
    {source rest : Source} {run : Run} (drawn : setting.upTo length source = .ok (run, rest)) :
    ∃ early middle, setting.upTo count source = .ok (early, middle) ∧
      early.emissions = run.emissions.take count := by
  obtain ⟨more, rfl⟩ := Nat.exists_eq_add_of_le within
  unfold upTo at drawn
  rw [List.range_add, List.foldlM_append] at drawn
  obtain ⟨early, middle, first, second⟩ := Draw.bind_eq_ok.1 drawn
  refine ⟨early, middle, first, ?_⟩
  obtain ⟨emitted, counted, all⟩ := setting.ensures_adds _ {} first
  obtain ⟨later, -, grown⟩ := setting.ensures_adds _ early second
  have length : early.emissions.length = count := by
    simpa [Run.emissions, all] using counted
  have front : run.emissions = early.emissions ++ later.reverse := by
    simp [Run.emissions, grown]
  rw [front, List.take_left' length]

/-- The first `count` instructions of a longer run are a run. -/
theorem upTo_take {setting : Setting} {count length : Nat} (within : count ≤ length)
    {source rest : Source} {run : Run} (drawn : setting.upTo length source = .ok (run, rest)) :
    ∃ early middle, setting.upTo count source = .ok (early, middle) ∧
      early.sequence = run.sequence.take count := by
  obtain ⟨early, middle, first, front⟩ := upTo_emissions within drawn
  refine ⟨early, middle, first, ?_⟩
  rw [Run.sequence_eq_map, Run.sequence_eq_map, front, List.map_take]

end Setting

/-! ## Programs -/

namespace Instruction

/-- What a label table says does not matter: a target has its name by then, and without a target
there is nothing to look up. -/
theorem completed_labels (inst : Instruction) (labels others : LabelTable) (position : Nat) :
    inst.completed labels position = inst.completed others position := by
  have sameText : (inst.withLabel.resolvedAt position).labelText labels =
      (inst.withLabel.resolvedAt position).labelText others := by
    obtain ⟨record, rd, rs1, rs2, imm, shamt, target, label, word, text⟩ := inst
    cases target <;> rfl
  have sameOperands : (inst.withLabel.resolvedAt position).operandText labels =
      (inst.withLabel.resolvedAt position).operandText others := by
    funext role
    cases role with
    | label => exact congrArg some sameText
    | _ => rfl
  unfold completed written assembly
  rw [sameOperands]

end Instruction

theorem Program.Assembles.take_eq {program other : Program} {run twin : Run} {count : Nat}
    (assembles : program.Assembles run) (twinAssembles : other.Assembles twin)
    (same : run.sequence.take count = twin.sequence.take count) :
    program.instructions.take count = other.instructions.take count := by
  have ofTake (sequence : List Instruction) (labels : LabelTable) :
      (sequence.mapIdx fun position inst => inst.completed labels position).take count =
        (sequence.take count).mapIdx fun position inst => inst.completed ∅ position := by
    apply List.ext_getElem?
    intro position
    simp only [List.getElem?_take, List.getElem?_mapIdx, Instruction.completed_labels _ labels ∅]
    split <;> rfl
  rw [assembles.instructions, twinAssembles.instructions, ofTake, ofTake, same]

namespace Generator

variable {generator after rest : Generator} {program other : Program} {short long count : Nat}

theorem take_eq_of_unseen (given : generator.generate short = .ok (.ok program, after))
    (longer : generator.generate long = .ok (.ok other, rest)) (within : count ≤ short)
    (ordered : short ≤ long)
    (unseen : ∀ index < count, ∀ length, short ≤ length →
      EndOutOfSight generator.catalog generator.profile ⟨index, length⟩) :
    program.instructions.take count = other.instructions.take count := by
  obtain ⟨run, source, drawn, assembled, -⟩ := generate_eq_ok_iff.1 given
  obtain ⟨twin, twinSource, twinDrawn, twinAssembled, -⟩ := generate_eq_ok_iff.1 longer
  obtain ⟨early, middle, first, front⟩ :=
    (generator.setting short).upTo_take within drawn
  obtain ⟨twinEarly, twinMiddle, twinFirst, twinFront⟩ :=
    (generator.setting long).upTo_take (Nat.le_trans within ordered) twinDrawn
  have same : (generator.setting short).upTo count = (generator.setting long).upTo count :=
    Setting.upTo_eq (fun index inside => unseen index inside short (Nat.le_refl _))
      fun index inside => unseen index inside long ordered
  rw [same, twinFirst] at first
  obtain ⟨rfl, -⟩ := Prod.mk.inj (Except.ok.inj first)
  exact (assembles assembled).take_eq (assembles twinAssembled) (front.symm.trans twinFront)

/-- Two programs of one generator begin alike: up to the greatest distance of a branch before the end
of the shorter one, or all of it if nothing on offer branches. -/
theorem shorter_begins_longer (given : generator.generate short = .ok (.ok program, after))
    (longer : generator.generate long = .ok (.ok other, rest)) (ordered : short ≤ long) :
    (∀ count, count + max generator.profile.branches.greatestDistance 1 ≤ short →
      program.instructions.take count = other.instructions.take count) ∧
    ((∀ record, generator.catalog.Offers record → .label ∉ record.pattern) →
      program.instructions.take short = other.instructions.take short) := by
  refine ⟨?_, ?_⟩
  · intro count room
    refine take_eq_of_unseen given longer (by omega) ordered ?_
    intro index inside length reaches record _ _
    change index + 1 + max generator.profile.branches.greatestDistance 1 ≤ length
    omega
  · intro unlabelled
    refine take_eq_of_unseen given longer (Nat.le_refl _) ordered ?_
    intro index _ length _ record offered member
    exact absurd member (unlabelled record offered)

/-- A generator of branches to a neighbour. -/
def ofShortBranches (seed : UInt64) : Generator :=
  .ofSeed .rv32i
    { Profile.standard with
      weights := .ofList [("branch", 1.0)]
      branches :=
        { Profile.standard.branches with nearMaxBytes := 4, midMaxBytes := 4, farMaxBytes := 4 } }
    seed

/-- The first two of three branches; the third already shows where the program ends. -/
theorem shorter_begins_longer_branches :
    ∃ program after other rest,
      (ofShortBranches 7).generate 3 = .ok (.ok program, after) ∧
      (ofShortBranches 7).generate 4 = .ok (.ok other, rest) ∧
      program.instructions.take 2 = other.instructions.take 2 ∧
      program.instructions.take 3 ≠ other.instructions.take 3 := by
  have observed : (ofShortBranches 7).observe 3 (fun program =>
      (program.instructions.take 3).map (·.target)) =
        some [some 1, some 0, some 2] := by decide +kernel
  have observedLonger : (ofShortBranches 7).observe 4 (fun program =>
      (program.instructions.take 3).map (·.target)) =
        some [some 1, some 0, some 3] := by decide +kernel
  obtain ⟨program, after, given, seen⟩ := exists_of_observe observed
  obtain ⟨other, rest, longer, seenLonger⟩ := exists_of_observe observedLonger
  obtain ⟨begins, -⟩ := shorter_begins_longer given longer (by decide)
  refine ⟨program, after, other, rest, given, longer, begins 2 (by decide), ?_⟩
  intro same
  rw [same, seenLonger] at seen
  exact absurd seen (by decide)

end Generator

end Rv32Stimulus
