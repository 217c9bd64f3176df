/-
# Proofs.Program.Run -- what holds of a run, instruction after instruction

A property of runs that holds at the start and that every step keeps holds of every run
(`ensures_ofLength`, `ensures_of_kept`).  `ensures_step` says what a step does: it emits one instruction, drawn at
its index and then patched, and tracks it.

`Sound` is the invariant: there is an instruction for each index so far, each as it
may be drawn at its index, and the tracker follows the last of them.  The last part is
what keeps patches inside the register file.
-/
import Rv32Stimulus.Program.Generation
import Rv32Stimulus.Proofs.Pipeline.Hazard

namespace Rv32Stimulus

set_option autoImplicit false

open Rv32Stimulus.Random

namespace Run

/-! ## Steps -/

/-- What a step makes of a run: one more instruction, drawn and patched. -/
structure Extends (catalog : Catalog) (site : Site) (run next : Run) (emission : Emission) :
    Prop where
  emitted : next.emitted = emission :: run.emitted
  tracker : next.tracker = .after emission.inst
  drawn : emission.drawn.Drawn catalog site
  patched : emission.drawn.Patched (run.tracker.Sources run.previous?) emission.inst

theorem ensures_step (catalog : Catalog) (profile : Profile) (run : Run) {index length : Nat}
    (inside : index < length) :
    (step catalog profile length run index).Ensures fun next =>
      ∃ emission, run.Extends catalog ⟨index, length⟩ next emission := by
  refine (ensures_synthesize catalog profile inside run.backward).bind ?_
  intro draft drawn
  refine (run.tracker.ensures_inject profile.hazards run.previous? draft.inst).bind ?_
  intro injection patched
  refine .pure ?_
  exact ⟨⟨draft.inst, injection⟩, rfl, rfl, drawn, patched⟩

theorem succeeds_step (catalog : Catalog) {profile : Profile} (drawable : profile.Drawable)
    (length : Nat) (run : Run) (index : Nat) :
    (step catalog profile length run index).Succeeds := by
  refine (succeeds_synthesize catalog drawable _ _).bind ?_
  intro draft
  refine (run.tracker.succeeds_inject profile.hazards run.previous? _).bind ?_
  intro injection
  exact .pure _

/-- The induction over a run: `inv index` speaks of the run before the instruction at `index`. -/
theorem ensures_ofLength {catalog : Catalog} {profile : Profile} {length : Nat}
    {inv : Nat → Run → Prop} (start : inv 0 {})
    (kept : ∀ index run, index < length → inv index run →
      (step catalog profile length run index).Ensures (inv (index + 1))) :
    (ofLength catalog profile length).Ensures (inv length) := by
  have looped : (ofLength catalog profile length).Ensures fun run =>
      inv (List.range length).length run := by
    refine .foldlM (fun taken => inv taken.length) start ?_
    intro taken index later run all reached
    have found : (List.range length)[taken.length]? = some index := by simp [← all]
    obtain ⟨inside, same⟩ := List.getElem?_eq_some_iff.1 found
    rw [List.getElem_range] at same
    rw [List.length_range] at inside
    subst same
    rw [List.length_append, List.length_singleton]
    exact kept _ run inside reached
  simpa only [List.length_range] using looped

/-- The same for a property that does not speak of the index. -/
theorem ensures_of_kept {catalog : Catalog} {profile : Profile} {length : Nat} {inv : Run → Prop}
    (start : inv {})
    (kept : ∀ index run, inv run → (step catalog profile length run index).Ensures inv) :
    (ofLength catalog profile length).Ensures inv :=
  @ensures_ofLength _ _ _ (fun _ => inv) start fun index run _ => kept index run

theorem succeeds_ofLength (catalog : Catalog) {profile : Profile} (drawable : profile.Drawable)
    (length : Nat) : (ofLength catalog profile length).Succeeds :=
  .foldlM (succeeds_step catalog drawable length) _ _

/-- The first of several instructions is enough to fail. -/
theorem fails_ofLength {catalog : Catalog} {profile : Profile} (undrawable : ¬profile.Drawable)
    (thirsty : ∀ record, catalog.Offers record →
      .imm ∈ record.pattern ∧ .memory ∈ record.pattern ∧ .label ∈ record.pattern)
    {length : Nat} (several : 1 < length) : (ofLength catalog profile length).Fails := by
  have first (run : Run) : (step catalog profile length run 0).Fails :=
    (fails_synthesize undrawable thirsty several run.backward).bind _
  exact .foldlM first (List.mem_range.2 (by omega)) {}

/-! ## The invariant -/

variable {catalog : Catalog} {length : Nat} {run next : Run} {site : Site} {emission : Emission}

theorem previous?_eq_getLast? (run : Run) : run.previous? = run.sequence.getLast? := by
  rw [sequence, List.getLast?_reverse, List.head?_map]
  rfl

theorem Extends.sequence_eq (extends_ : run.Extends catalog site next emission) :
    next.sequence = run.sequence ++ [emission.inst] := by
  simp [sequence, extends_.emitted]

/-- A run up to `index`, in a program of `length` instructions. -/
structure Sound (catalog : Catalog) (length : Nat) (index : Nat) (run : Run) : Prop where
  count : run.emitted.length = index
  drawn : ∀ (position : Nat) (inst : Instruction), run.sequence[position]? = some inst →
    inst.Drawn catalog ⟨position, length⟩
  tracker : run.tracker = (run.previous?.map Tracker.after).getD {}

theorem Sound.nil (catalog : Catalog) (length : Nat) : Sound catalog length 0 {} where
  count := rfl
  drawn := by simp [sequence]
  tracker := rfl

theorem Sound.length_sequence {index : Nat} (sound : run.Sound catalog length index) :
    run.sequence.length = index := by
  rw [sequence, List.length_reverse, List.length_map, sound.count]

/-- A patch takes its registers from the instruction before. -/
theorem Sound.sources_lt {index : Nat} (sound : run.Sound catalog length index) {register : UInt8}
    (source : run.tracker.Sources run.previous? register) : register.toNat < 32 := by
  have ofPrevious (previous : Instruction) (isPrevious : run.previous? = some previous)
      (written : previous.rd = some register) : register.toNat < 32 := by
    rw [previous?_eq_getLast?, List.getLast?_eq_getElem?] at isPrevious
    exact (sound.drawn _ previous isPrevious).fits.rd register written
  rcases source with ⟨previous, isPrevious, written⟩ | tracked
  · exact ofPrevious previous isPrevious written
  · rw [sound.tracker] at tracked
    cases isPrevious : run.previous? with
    | none => rw [isPrevious] at tracked; cases tracked
    | some previous =>
        rw [isPrevious] at tracked
        exact ofPrevious previous isPrevious tracked

theorem Sound.step {index : Nat} (sound : run.Sound catalog length index)
    (extends_ : run.Extends catalog ⟨index, length⟩ next emission) :
    next.Sound catalog length (index + 1) where
  count := by rw [extends_.emitted, List.length_cons, sound.count]
  drawn := by
    intro position inst found
    rw [extends_.sequence_eq, List.getElem?_append, sound.length_sequence] at found
    split at found
    · exact sound.drawn position inst found
    · obtain ⟨rfl, rfl⟩ : position = index ∧ emission.inst = inst := by
        rw [List.getElem?_singleton] at found
        split at found
        · exact ⟨by omega, Option.some.inj found⟩
        · cases found
      exact (extends_.patched.mono fun _ => sound.sources_lt).drawn extends_.drawn
  tracker := by
    rw [extends_.tracker, previous?, extends_.emitted]
    rfl

theorem ensures_sound (catalog : Catalog) (profile : Profile) (length : Nat) :
    (ofLength catalog profile length).Ensures (Sound catalog length length) := by
  refine ensures_ofLength (.nil catalog length) ?_
  intro index run inside sound
  refine (ensures_step catalog profile run inside).mono ?_
  rintro next ⟨emission, extends_⟩
  exact sound.step extends_

end Run

end Rv32Stimulus
