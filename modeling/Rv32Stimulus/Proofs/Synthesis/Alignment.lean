/-
# Proofs.Synthesis.Alignment -- which memory offsets are aligned to words

A window of memory offsets is entered in steps of four from its lower end
(`Window.ensures_offset`), so what it gives is as far from a word boundary as that end is; no
check of a profile looks at the ends of windows.  The offset is then clamped to twelve signed
bits, and of their two ends only the lower one is aligned (`four_dvd_clampImmediate`).

`Window.IsAligned` says, of the ends alone, when a window gives nothing but aligned offsets;
`synthesize_offset` follows an offset from its window into the drawn instruction.  A
window that starts off a word boundary is all it takes to leave it: `offset_of_unaligned_window`.
-/
import Rv32Stimulus.Isa.Base
import Rv32Stimulus.Profile.Check
import Rv32Stimulus.Proofs.Synthesis.Draft

namespace Rv32Stimulus

set_option autoImplicit false

open Rv32Stimulus.Random

/-! ## Clamping -/

/-- A clamped value is aligned if it was below all immediates, or is aligned itself and not above
them. -/
theorem four_dvd_clampImmediate {value : Int} :
    4 ∣ (clampImmediate value).toInt ↔
      value < leastImmediate ∨ 4 ∣ value ∧ value ≤ greatestImmediate := by
  rw [toInt_clampImmediate]
  unfold leastImmediate greatestImmediate
  omega

/-! ## Windows -/

namespace Window

/-- The lower end, and the steps of four from it that stay below the upper end. -/
def Holds (window : Window) (offset : Int) : Prop :=
  offset = window.low.toInt ∨
    window.low.toInt ≤ offset ∧ offset < window.high.toInt ∧ 4 ∣ offset - window.low.toInt

/-- The steps count those that stay below the upper end; for a reversed window the quotient is
rounded up, but not above zero. -/
theorem lt_steps_iff {window : Window} {count : Int} (nonneg : 0 ≤ count) :
    count < window.steps ↔ window.low.toInt + 4 * count < window.high.toInt := by
  unfold steps
  rw [Int.tdiv_eq_ediv, Int.sign_eq_one_of_pos (by decide)]
  split <;> omega

/-- Even the widest window has no more than `2 ^ 30` steps. -/
theorem steps_le (window : Window) : window.steps ≤ 0x40000000 := by
  have lower := window.low.minValue_le_toInt
  have upper := window.high.toInt_le
  by_contra more
  have reached : window.low.toInt + 4 * 0x40000000 < window.high.toInt :=
    (lt_steps_iff (by decide)).1 (by omega)
  have span : Int32.maxValue.toInt - Int32.minValue.toInt = 0xffffffff := by decide
  omega

theorem ensures_offset (window : Window) : window.offset.Ensures window.Holds := by
  refine .ite ?_ ?_
  · intro isEmpty
    exact .pure (.inl rfl)
  · intro nonempty
    have few := window.steps_le
    refine (Draw.ensures_between (by omega)).bind fun count bounds => .pure (.inr ?_)
    have inside : count < window.steps := by omega
    exact ⟨by omega, (lt_steps_iff bounds.1).1 inside, by omega⟩

/-- The greatest offset that the window holds. -/
def last (window : Window) : Int := window.low.toInt + 4 * (max 1 window.steps - 1)

/-- From a word boundary, and no further than the greatest immediate; or all below the least. -/
def IsAligned (window : Window) : Prop :=
  4 ∣ window.low.toInt ∧ window.last ≤ greatestImmediate ∨ window.last < leastImmediate

instance (window : Window) : Decidable window.IsAligned := inferInstanceAs (Decidable (_ ∨ _))

theorem holds_last (window : Window) : window.Holds window.last := by
  unfold last
  by_cases more : 0 < window.steps
  · right
    have below : window.low.toInt + 4 * (window.steps - 1) < window.high.toInt :=
      (lt_steps_iff (by omega)).1 (by omega)
    rw [Int.max_eq_right (by omega)]
    exact ⟨by omega, below, by omega⟩
  · left
    omega

theorem Holds.le_last {window : Window} {offset : Int} (holds : window.Holds offset) :
    offset ≤ window.last := by
  unfold last
  obtain rfl | ⟨least, below, count, stepped⟩ := holds
  · omega
  · have inside : count < window.steps := (lt_steps_iff (by omega)).2 (by omega)
    omega

/-- The ends decide about every offset. -/
theorem isAligned_iff {window : Window} :
    window.IsAligned ↔ ∀ offset, window.Holds offset → 4 ∣ (clampImmediate offset).toInt := by
  simp only [four_dvd_clampImmediate]
  constructor
  · rintro (⟨aligned, within⟩ | below) offset holds
    · have bound := holds.le_last
      right
      obtain rfl | ⟨-, -, stepped⟩ := holds <;> omega
    · have bound := holds.le_last
      omega
  · intro each
    -- The first and the last offset are all that matters.
    have first := each _ (.inl rfl)
    have final := each _ window.holds_last
    unfold IsAligned
    have stepped : 4 ∣ window.last - window.low.toInt := ⟨max 1 window.steps - 1, by unfold last; omega⟩
    omega

/-- It starts at a word boundary, but its offsets are clamped to 2047. -/
example : ¬(Window.mk 2048 4096).IsAligned := by decide

end Window

/-! ## Buckets -/

namespace MemoryProfile

/-- Zero, and what the windows hold. -/
def Holds (profile : MemoryProfile) (offset : Int) : Prop :=
  offset = 0 ∨ profile.small.Holds offset ∨ profile.mid.Holds offset ∨ profile.far.Holds offset

theorem ensures_offsetIn (profile : MemoryProfile) (bucket : Option Nat) :
    (profile.offsetIn bucket).Ensures profile.Holds := by
  unfold offsetIn
  split
  · exact profile.small.ensures_offset.mono fun _ holds => .inr (.inl holds)
  · exact profile.mid.ensures_offset.mono fun _ holds => .inr (.inr (.inl holds))
  · exact profile.far.ensures_offset.mono fun _ holds => .inr (.inr (.inr holds))
  · exact .pure (.inl rfl)

theorem ensures_offset_clamped (profile : MemoryProfile) :
    profile.offset.Ensures fun offset => ∃ step, profile.Holds step ∧ offset = clampImmediate step := by
  refine (Draw.Ensures.trivial _).bind ?_
  intro bucket _
  refine (profile.ensures_offsetIn bucket).bind ?_
  intro step holds
  exact .pure ⟨step, holds, rfl⟩

/-- Every window gives nothing but aligned offsets. -/
def IsAligned (profile : MemoryProfile) : Prop :=
  profile.small.IsAligned ∧ profile.mid.IsAligned ∧ profile.far.IsAligned

instance (profile : MemoryProfile) : Decidable profile.IsAligned :=
  inferInstanceAs (Decidable (_ ∧ _ ∧ _))

theorem isAligned_iff {profile : MemoryProfile} :
    profile.IsAligned ↔ ∀ offset, profile.Holds offset → 4 ∣ (clampImmediate offset).toInt := by
  simp only [IsAligned, Window.isAligned_iff]
  constructor
  · rintro ⟨small, mid, far⟩ offset (rfl | holds | holds | holds)
    · decide
    · exact small offset holds
    · exact mid offset holds
    · exact far offset holds
  · intro each
    exact ⟨fun offset holds => each offset (.inr (.inl holds)),
      fun offset holds => each offset (.inr (.inr (.inl holds))),
      fun offset holds => each offset (.inr (.inr (.inr holds)))⟩

end MemoryProfile

/-! ## Drawn instructions -/

/-- The immediate is an offset of the profile, clamped. -/
def Instruction.Steps (profile : MemoryProfile) (inst : Instruction) : Prop :=
  ∃ step, profile.Holds step ∧ inst.imm = some (clampImmediate step)

namespace Draft

/-- Filled last, the memory role decides about the immediate. -/
theorem ensures_fill_memory (profile : Profile) (site : Site) (draft : Draft) :
    (draft.fill profile site .memory).Ensures fun next =>
      next.inst.Steps profile.immediates.memory := by
  refine (Draw.Ensures.trivial _).bind ?_
  intro base _
  refine profile.immediates.memory.ensures_offset_clamped.bind ?_
  rintro offset ⟨step, holds, rfl⟩
  exact .pure ⟨step, holds, rfl⟩

/-- If no role but the memory role sets the immediate, the memory role has set it. -/
def SteppedBy (profile : MemoryProfile) (roles : List Role) (draft : Draft) : Prop :=
  .memory ∈ roles → (∀ role ∈ roles, role.setsImmediate = true → role = .memory) →
    draft.inst.Steps profile

theorem ensures_fill_stepped {profile : Profile} {site : Site} {taken : List Role} {draft : Draft}
    (stepped : draft.SteppedBy profile.immediates.memory taken) (role : Role) :
    (draft.fill profile site role).Ensures
      (SteppedBy profile.immediates.memory (taken ++ [role])) := by
  by_cases isMemory : role = .memory
  · subst isMemory
    exact (draft.ensures_fill_memory profile site).mono fun next steps _ _ => steps
  · refine (draft.ensures_fill profile site role).mono ?_
    intro next fills member alone
    have keeps : role.setsImmediate = false := by
      by_contra sets
      exact isMemory (alone role (by simp) (by simpa using sets))
    have earlier : .memory ∈ taken := by simpa [Ne.symm isMemory] using member
    unfold Instruction.Steps
    rw [fills.imm_eq keeps]
    exact stepped earlier fun other before => alone other (List.mem_append_left _ before)

end Draft

/-- The offset of a drawn access is zero or a step of a window, clamped.  It is aligned exactly if
that step was below all immediates, or is aligned and not above them; from aligned windows, which
`MemoryProfile.isAligned_iff` characterizes, it always is. -/
theorem synthesize_offset {catalog : Catalog} {profile : Profile} {site : Site} {backward : UInt32}
    {source rest : Source} {draft : Draft}
    (given : synthesize catalog profile site backward source = .ok (draft, rest))
    (accesses : .memory ∈ draft.inst.record.pattern)
    (alone : ∀ role ∈ draft.inst.record.pattern, role.setsImmediate = true → role = .memory) :
    ∃ step offset, profile.immediates.memory.Holds step ∧ offset = clampImmediate step ∧
      draft.inst.imm = some offset ∧ -2048 ≤ offset.toInt ∧ offset.toInt ≤ 2047 ∧
      (4 ∣ offset.toInt ↔ step < -2048 ∨ 4 ∣ step ∧ step ≤ 2047) ∧
      (profile.immediates.memory.IsAligned → 4 ∣ offset.toInt) := by
  have stepped := ensures_synthesize_of_taken catalog (Draft.SteppedBy profile.immediates.memory)
    (by simp [Draft.SteppedBy]) (fun _ _ role soFar => Draft.ensures_fill_stepped soFar role)
    backward given
  obtain ⟨step, holds, same⟩ := stepped accesses alone
  obtain ⟨least, greatest⟩ := isImmediate_clampImmediate step
  refine ⟨step, _, holds, rfl, same, least, greatest, four_dvd_clampImmediate, ?_⟩
  intro aligned
  exact MemoryProfile.isAligned_iff.1 aligned step holds

/-- The stock profile, but it asks for loads only. -/
def Profile.loading : Profile := { Profile.standard with weights := .ofList [("load", 1.0)] }

/-- The stock windows start at word boundaries and end in the twelve bits. -/
theorem synthesize_offset_standard :
    Profile.loading.immediates.memory.IsAligned ∧
      ∃ draft rest, synthesize .rv32i Profile.loading ⟨0, 1⟩ 0 (.ofSeed 1) = .ok (draft, rest) ∧
        draft.inst.imm = some 160 ∧ ∃ offset, draft.inst.imm = some offset ∧ 4 ∣ offset.toInt := by
  have aligned : Profile.loading.immediates.memory.IsAligned := by decide +kernel
  have observed : (synthesize .rv32i Profile.loading ⟨0, 1⟩ 0).observe (.ofSeed 1)
      (fun draft => (draft.inst.record.pattern, draft.inst.imm)) =
        some ([.rd, .memory], some 160) := by decide +kernel
  obtain ⟨draft, rest, given, seen⟩ := Draw.exists_of_observe observed
  obtain ⟨pattern, imm⟩ := Prod.mk.inj seen
  obtain ⟨step, offset, -, -, same, -, -, -, multiple⟩ :=
    synthesize_offset given (by rw [pattern]; decide) (by rw [pattern]; decide)
  exact ⟨aligned, draft, rest, given, imm, offset, same, multiple aligned⟩

/-- All offsets from a window that starts off a word boundary, though it has one inside. -/
def Profile.offBoundary : Profile :=
  { Profile.loading with
    immediates :=
      { Profile.loading.immediates with
        memory :=
          { Profile.loading.immediates.memory with
            nearZero := 0.0, smallRange := 1.0, midRange := 0.0, farRange := 0.0
            small := ⟨6, 9⟩ } } }

/-- A checked profile whose loads are all off the word boundaries: the offset is 6, not 8. -/
theorem offset_of_unaligned_window :
    ¬∀ (catalog : Catalog) (records : List Record) (profile : Profile) (site : Site)
      (backward : UInt32) (source rest : Source) (draft : Draft) (offset : Int32),
      Catalog.ofRecords records = .ok catalog → profile.check = .ok () →
        synthesize catalog profile site backward source = .ok (draft, rest) →
        .memory ∈ draft.inst.record.pattern →
        (∀ role ∈ draft.inst.record.pattern, role.setsImmediate = true → role = .memory) →
        draft.inst.imm = some offset →
          4 ∣ offset.toInt ∧ -2048 ≤ offset.toInt ∧ offset.toInt ≤ 2047 := by
  intro aligned
  have accepted : Catalog.ofRecords [Base.loads "LW" 0b010] = .ok ⟨[Base.loads "LW" 0b010]⟩ := by
    rfl
  have checked : Profile.offBoundary.check = .ok () := by decide +kernel
  have observed : (synthesize ⟨[Base.loads "LW" 0b010]⟩ Profile.offBoundary ⟨0, 1⟩ 0).observe
      (.ofSeed 1) (fun draft => (draft.inst.record.pattern, draft.inst.imm)) =
        some ([.rd, .memory], some 6) := by decide +kernel
  obtain ⟨draft, rest, given, seen⟩ := Draw.exists_of_observe observed
  obtain ⟨pattern, imm⟩ := Prod.mk.inj seen
  obtain ⟨multiple, -, -⟩ := aligned _ _ _ _ _ _ _ _ _ accepted checked given
    (by rw [pattern]; decide) (by rw [pattern]; decide) imm
  exact absurd multiple (by decide)

end Rv32Stimulus
