/-
# Proofs.Pipeline.Flags -- what the flags of an injection say about two neighbours

An injection makes up to three patches, and a later one may overwrite an earlier one.  The flags
still describe the instruction as it comes out (`Hazards.Describes`), because the tracker
follows the predecessor: a load-use patch can only repeat the register that a read-after-write
patch chose, and a write-after-write patch leaves the sources alone.

`Tracker.ensures_describes` says so of every injection after a predecessor, and that a coin for a
read-after-write hazard decides what is read, whatever the other coins do.  The proofs go through
an injection patch by patch (`Tracker.patch_stages`), with an inversion lemma for each.
-/
import Rv32Stimulus.Proofs.Pipeline.Hazard

namespace Rv32Stimulus

set_option autoImplicit false

open Rv32Stimulus.Random

namespace Instruction

/-- The register is read: by `rs1`, or by `rs2` where there is no `rs1`. -/
def Consumes (inst : Instruction) (register : UInt8) : Prop :=
  inst.rs1 = some register ∨ inst.rs1 = none ∧ inst.rs2 = some register

/-- The first source register, if the instruction has one, is the register. -/
def ConsumesIfAny (inst : Instruction) (register : UInt8) : Prop :=
  (inst.rs1.isSome → inst.rs1 = some register) ∧
    (inst.rs1 = none → inst.rs2.isSome → inst.rs2 = some register)

end Instruction

namespace Hazards

/-- What the flags tell of an instruction that was synthesized as `drawn` and came out as `inst`,
right after `previous`. -/
structure Describes (made : Hazards) (previous drawn inst : Instruction) : Prop where
  raw : made.raw = true →
    ∃ register, previous.rd = some register ∧ register ≠ 0 ∧ inst.Consumes register
  waw : made.waw = true → ∃ register, previous.rd = some register ∧ inst.rd = some register
  loadUse : made.loadUse = true → previous.isLoad = true ∧
    ∃ register, previous.rd = some register ∧ inst.rs1 = some register
  untouched : made.any = false → inst.rd = drawn.rd ∧ inst.rs1 = drawn.rs1 ∧ inst.rs2 = drawn.rs2

/-- With a coin for a read-after-write hazard `inst` reads what `previous` writes, unless that is
`x0`. -/
def Honours (coins : Hazards) (previous inst : Instruction) : Prop :=
  coins.raw = true → ∀ register, previous.rd = some register → register ≠ 0 →
    inst.ConsumesIfAny register

end Hazards

namespace Instruction

variable {inst previous patched out : Instruction} {register : UInt8} {coin made : Bool}

/-! ## One patch -/

/-- Either the patch was made, or nothing happened. -/
theorem patchedIf_cases {patch? : Instruction → Option Instruction}
    (stage : inst.patchedIf coin patch? = (out, made)) :
    (made = true ∧ coin = true ∧ patch? inst = some out) ∨
      (made = false ∧ out = inst ∧ (coin = true → patch? inst = none)) := by
  cases coin with
  | false => simp_all [patchedIf]
  | true => cases given : patch? inst <;> simp_all [patchedIf]

theorem consumes_of_readAfterWrite? (given : inst.readAfterWrite? previous = some patched) :
    ∃ register, previous.rd = some register ∧ register ≠ 0 ∧ patched.Consumes register := by
  unfold readAfterWrite? at given
  split at given
  · rename_i register written
    by_cases zero : register = 0
    · simp [zero] at given
    · refine ⟨register, written, zero, ?_⟩
      cases first : inst.rs1 <;> cases second : inst.rs2 <;> simp [zero, first, second] at given <;>
        subst given <;> simp [Consumes]
  · cases given

/-- A nonzero destination can be read by any instruction with a source. -/
theorem readAfterWrite?_ne_none (written : previous.rd = some register) (nonzero : register ≠ 0)
    (source : inst.rs1.isSome ∨ inst.rs2.isSome) : inst.readAfterWrite? previous ≠ none := by
  unfold readAfterWrite?
  rw [written]
  cases first : inst.rs1 <;> simp_all

theorem eq_of_writeAfterWrite? (given : inst.writeAfterWrite? previous = some patched) :
    ∃ register, previous.rd = some register ∧ patched = { inst with rd := some register } := by
  unfold writeAfterWrite? at given
  split at given
  · rename_i written _
    exact ⟨_, written, (Option.some.inj given).symm⟩
  · cases given

theorem eq_of_useLoaded? {loaded : Option UInt8} (given : inst.useLoaded? loaded = some patched) :
    ∃ register, loaded = some register ∧ inst.rs1.isSome ∧
      patched = { inst with rs1 := some register } := by
  unfold useLoaded? at given
  split at given
  · rename_i reads
    exact ⟨_, rfl, reads ▸ rfl, (Option.some.inj given).symm⟩
  · cases given

/-! ## Later patches keep what is read -/

theorem Consumes.of_writeAfterWrite? (reads : inst.Consumes register)
    (stage : inst.patchedIf coin (·.writeAfterWrite? previous) = (out, made)) :
    out.Consumes register := by
  rcases patchedIf_cases stage with ⟨-, -, given⟩ | ⟨-, rfl, -⟩
  · obtain ⟨_, -, rfl⟩ := eq_of_writeAfterWrite? given
    exact reads
  · exact reads

/-- What was loaded is what the predecessor writes. -/
theorem Consumes.of_useLoaded? (reads : inst.Consumes register)
    (stage : inst.patchedIf coin (·.useLoaded? (some register)) = (out, made)) :
    out.Consumes register := by
  rcases patchedIf_cases stage with ⟨-, -, given⟩ | ⟨-, rfl, -⟩
  · obtain ⟨_, ⟨⟩, -, rfl⟩ := eq_of_useLoaded? given
    exact .inl rfl
  · exact reads

theorem Consumes.consumesIfAny (reads : inst.Consumes register) : inst.ConsumesIfAny register := by
  rcases reads with first | ⟨absent, second⟩
  · simp [ConsumesIfAny, first]
  · simp [ConsumesIfAny, absent, second]

end Instruction

/-! ## The whole injection -/

namespace Tracker

variable {previous inst : Instruction} {coins : Hazards} {injection : Injection}

/-- The three patches of an injection, one after the other. -/
theorem patch_stages {tracker : Tracker} (is : tracker.patch coins previous inst = injection) :
    ∃ first second,
      inst.patchedIf coins.raw (·.readAfterWrite? previous) = (first, injection.made.raw) ∧
      first.patchedIf coins.waw (·.writeAfterWrite? previous) = (second, injection.made.waw) ∧
      second.patchedIf coins.loadUse (·.useLoaded? tracker.lastRd) =
        (injection.inst, injection.made.loadUse) := by
  subst is
  exact ⟨_, _, rfl, rfl, rfl⟩

theorem describes_patch (thrown : coins.loadUse = true → previous.isLoad = true)
    (is : (after previous).patch coins previous inst = injection) :
    injection.made.Describes previous inst injection.inst := by
  obtain ⟨first, second, raw, waw, loadUse⟩ := patch_stages is
  refine ⟨?_, ?_, ?_, ?_⟩
  · intro made
    rcases Instruction.patchedIf_cases raw with ⟨-, -, given⟩ | ⟨kept, -, -⟩
    · obtain ⟨register, written, nonzero, reads⟩ := Instruction.consumes_of_readAfterWrite? given
      have tracked : (after previous).lastRd = some register := written
      rw [tracked] at loadUse
      exact ⟨register, written, nonzero, (reads.of_writeAfterWrite? waw).of_useLoaded? loadUse⟩
    · rw [made] at kept
      cases kept
  · intro made
    rcases Instruction.patchedIf_cases waw with ⟨-, -, given⟩ | ⟨kept, -, -⟩
    · obtain ⟨register, written, rfl⟩ := Instruction.eq_of_writeAfterWrite? given
      refine ⟨register, written, ?_⟩
      rcases Instruction.patchedIf_cases loadUse with ⟨-, -, given⟩ | ⟨-, same, -⟩
      · obtain ⟨_, -, -, same⟩ := Instruction.eq_of_useLoaded? given
        rw [same]
      · rw [same]
    · rw [made] at kept
      cases kept
  · intro made
    rcases Instruction.patchedIf_cases loadUse with ⟨-, coin, given⟩ | ⟨kept, -, -⟩
    · obtain ⟨register, loaded, -, same⟩ := Instruction.eq_of_useLoaded? given
      exact ⟨thrown coin, register, loaded, by rw [same]⟩
    · rw [made] at kept
      cases kept
  · intro none_
    simp only [Hazards.any, Bool.or_eq_false_iff] at none_
    obtain ⟨⟨noRaw, noWaw⟩, noLoadUse⟩ := none_
    rw [noRaw] at raw
    rw [noWaw] at waw
    rw [noLoadUse] at loadUse
    have keeps {before out : Instruction} {coin : Bool}
        {patch? : Instruction → Option Instruction}
        (stage : before.patchedIf coin patch? = (out, false)) : out = before := by
      simpa using Instruction.patchedIf_cases stage |>.imp_right (·.2.1)
    rw [keeps loadUse, keeps waw, keeps raw]
    exact ⟨rfl, rfl, rfl⟩

theorem honours_patch (is : (after previous).patch coins previous inst = injection) :
    coins.Honours previous injection.inst := by
  intro coin register written nonzero
  obtain ⟨first, second, raw, waw, loadUse⟩ := patch_stages is
  have tracked : (after previous).lastRd = some register := written
  rw [tracked] at loadUse
  by_cases source : inst.rs1.isSome ∨ inst.rs2.isSome
  · rcases Instruction.patchedIf_cases raw with ⟨-, -, given⟩ | ⟨-, -, refused⟩
    · obtain ⟨read, alsoWritten, -, reads⟩ := Instruction.consumes_of_readAfterWrite? given
      obtain rfl : read = register := Option.some.inj (alsoWritten.symm.trans written)
      exact ((reads.of_writeAfterWrite? waw).of_useLoaded? loadUse).consumesIfAny
    · exact absurd (refused coin) (Instruction.readAfterWrite?_ne_none written nonzero source)
  · -- No patch gives a source to an instruction without any.
    have patched := (after previous).patched_patch coins previous inst
    rw [is] at patched
    simp only [← patched.rs1.isSome_eq, ← patched.rs2.isSome_eq, not_or] at source
    exact ⟨fun some1 => absurd some1 source.1, fun _ some2 => absurd some2 source.2⟩

/-! ## Coins -/

/-- The coin for a load-use hazard is thrown only after a load. -/
theorem ensures_throwCoins (tracker : Tracker) (profile : HazardProfile) :
    (tracker.throwCoins profile).Ensures fun coins =>
      coins.loadUse = true → tracker.lastWasLoad = true := by
  refine (Draw.Ensures.trivial _).bind ?_
  intro raw _
  refine (Draw.Ensures.trivial _).bind ?_
  intro waw _
  refine .ite ?_ ?_
  · intro isLoad
    refine (Draw.Ensures.trivial _).bind ?_
    intro loadUse _
    exact .pure fun _ => isLoad
  · intro _
    have unthrown : (pure false : Draw Bool).Ensures (· = false) := .pure rfl
    refine unthrown.bind ?_
    rintro _ rfl
    exact .pure nofun

theorem ensures_describes (profile : HazardProfile) (previous inst : Instruction) :
    ((after previous).inject profile (some previous) inst).Ensures fun injection =>
      injection.made.Describes previous inst injection.inst ∧
        injection.coins.Honours previous injection.inst := by
  refine ((after previous).ensures_throwCoins profile).bind ?_
  intro coins thrown
  exact .pure ⟨describes_patch thrown rfl, honours_patch rfl⟩

end Tracker

end Rv32Stimulus
