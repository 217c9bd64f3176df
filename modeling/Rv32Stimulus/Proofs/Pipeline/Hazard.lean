/-
# Proofs.Pipeline.Hazard -- what a hazard patch can change

Patches only ever point register operands elsewhere.  `Instruction.Patched source` says so:
all other operands stay, no register operand comes or goes, and whatever
is new satisfies `source`.  It is a preorder, so three patches in a row are one, and what
a pattern asks of the operands survives it as long as the sources are registers.
-/
import Rv32Stimulus.Pipeline.Hazard
import Rv32Stimulus.Proofs.Random.Bounds
import Rv32Stimulus.Proofs.Synthesis.Draft

namespace Rv32Stimulus

set_option autoImplicit false

open Rv32Stimulus.Random

/-! ## One operand -/

/-- A register operand before and after a patch: the same, or where there was one, a source. -/
def Repointed (source : UInt8 → Prop) (before after : Option UInt8) : Prop :=
  after = before ∨ before.isSome ∧ ∃ register, after = some register ∧ source register

namespace Repointed

variable {source other : UInt8 → Prop} {before middle after : Option UInt8}

theorem refl (source : UInt8 → Prop) (operand : Option UInt8) : Repointed source operand operand :=
  .inl rfl

theorem isSome_eq (repointed : Repointed source before after) : after.isSome = before.isSome := by
  rcases repointed with rfl | ⟨present, register, rfl, -⟩
  · rfl
  · exact present.symm

theorem trans (first : Repointed source before middle) (second : Repointed source middle after) :
    Repointed source before after := by
  rcases second with rfl | ⟨present, fromSource⟩
  · exact first
  · exact .inr ⟨first.isSome_eq ▸ present, fromSource⟩

theorem mono (repointed : Repointed source before after)
    (implied : ∀ register, source register → other register) : Repointed other before after := by
  rcases repointed with rfl | ⟨present, register, same, fromSource⟩
  · exact .inl rfl
  · exact .inr ⟨present, register, same, implied register fromSource⟩

theorem all (repointed : Repointed source before after)
    (held : ∀ register, before = some register → source register) :
    ∀ register, after = some register → source register := by
  rcases repointed with rfl | ⟨-, register, rfl, fromSource⟩
  · exact held
  · rintro _ ⟨⟩
    exact fromSource

end Repointed

/-! ## One instruction -/

namespace Instruction

/-- `patched` is `inst` with register operands pointed elsewhere. -/
structure Patched (inst : Instruction) (source : UInt8 → Prop) (patched : Instruction) : Prop where
  frame : patched = { inst with rd := patched.rd, rs1 := patched.rs1, rs2 := patched.rs2 }
  rd : Repointed source inst.rd patched.rd
  rs1 : Repointed source inst.rs1 patched.rs1
  rs2 : Repointed source inst.rs2 patched.rs2

namespace Patched

variable {source other : UInt8 → Prop} {inst middle patched : Instruction} {roles : List Role}

theorem refl (inst : Instruction) (source : UInt8 → Prop) : inst.Patched source inst :=
  ⟨rfl, .refl _ _, .refl _ _, .refl _ _⟩

theorem trans (first : inst.Patched source middle) (second : middle.Patched source patched) :
    inst.Patched source patched where
  frame := by rw [second.frame, first.frame]
  rd := first.rd.trans second.rd
  rs1 := first.rs1.trans second.rs1
  rs2 := first.rs2.trans second.rs2

theorem mono (patch : inst.Patched source patched)
    (implied : ∀ register, source register → other register) : inst.Patched other patched :=
  ⟨patch.frame, patch.rd.mono implied, patch.rs1.mono implied, patch.rs2.mono implied⟩

theorem record_eq (patch : inst.Patched source patched) : patched.record = inst.record := by
  rw [patch.frame]

theorem imm_eq (patch : inst.Patched source patched) : patched.imm = inst.imm := by
  rw [patch.frame]

theorem shamt_eq (patch : inst.Patched source patched) : patched.shamt = inst.shamt := by
  rw [patch.frame]

theorem target_eq (patch : inst.Patched source patched) : patched.target = inst.target := by
  rw [patch.frame]

theorem populated (patch : inst.Patched source patched) (before : inst.Populated roles) :
    patched.Populated roles where
  rd := patch.rd.isSome_eq ▸ before.rd
  rs1 := patch.rs1.isSome_eq ▸ before.rs1
  rs2 := patch.rs2.isSome_eq ▸ before.rs2
  imm := patch.imm_eq ▸ before.imm
  shamt := patch.shamt_eq ▸ before.shamt
  target := patch.target_eq ▸ before.target

theorem fits (patch : inst.Patched (·.toNat < 32) patched) (before : inst.Fits roles) :
    patched.Fits roles where
  rd := patch.rd.all before.rd
  rs1 := patch.rs1.all before.rs1
  rs2 := patch.rs2.all before.rs2
  shamt := patch.shamt_eq ▸ before.shamt
  imm := patch.imm_eq ▸ before.imm

theorem drawn {catalog : Catalog} {site : Site} (patch : inst.Patched (·.toNat < 32) patched)
    (before : inst.Drawn catalog site) : patched.Drawn catalog site where
  offered := patch.record_eq ▸ before.offered
  populated := patch.record_eq ▸ patch.populated before.populated
  fits := patch.record_eq ▸ patch.fits before.fits
  lands := by
    unfold Lands
    rw [patch.target_eq]
    exact before.lands

end Patched

/-! ## The three patches -/

variable {inst previous patched : Instruction}

theorem patched_of_readAfterWrite? (given : inst.readAfterWrite? previous = some patched) :
    inst.Patched (previous.rd = some ·) patched := by
  unfold readAfterWrite? at given
  split at given
  · rename_i rd written
    split at given
    · cases given
    · split at given
      · rename_i reads
        obtain rfl := Option.some.inj given
        exact ⟨rfl, .refl _ _, .inr ⟨reads, rd, rfl, written⟩, .refl _ _⟩
      · split at given
        · rename_i reads
          obtain rfl := Option.some.inj given
          exact ⟨rfl, .refl _ _, .refl _ _, .inr ⟨reads, rd, rfl, written⟩⟩
        · cases given
  · cases given

theorem patched_of_writeAfterWrite? (given : inst.writeAfterWrite? previous = some patched) :
    inst.Patched (previous.rd = some ·) patched := by
  unfold writeAfterWrite? at given
  split at given
  · rename_i written writes
    obtain rfl := Option.some.inj given
    exact ⟨rfl, .inr ⟨writes ▸ rfl, _, rfl, written⟩, .refl _ _, .refl _ _⟩
  · cases given

theorem patched_of_useLoaded? {loaded : Option UInt8} (given : inst.useLoaded? loaded = some patched) :
    inst.Patched (loaded = some ·) patched := by
  unfold useLoaded? at given
  split at given
  · rename_i reads
    obtain rfl := Option.some.inj given
    exact ⟨rfl, .refl _ _, .inr ⟨reads ▸ rfl, _, rfl, rfl⟩, .refl _ _⟩
  · cases given

theorem Patched.patchedIf {source : UInt8 → Prop} {coin : Bool}
    {patch? : Instruction → Option Instruction}
    (each : ∀ patched, patch? inst = some patched → inst.Patched source patched) :
    inst.Patched source (inst.patchedIf coin patch?).1 := by
  unfold Instruction.patchedIf
  split
  · split
    · rename_i patched given
      exact each patched given
    · exact .refl _ _
  · exact .refl _ _

end Instruction

/-! ## The injection -/

namespace Tracker

/-- The registers that an injection may point an operand to. -/
def Sources (tracker : Tracker) (previous? : Option Instruction) (register : UInt8) : Prop :=
  (∃ previous, previous? = some previous ∧ previous.rd = some register) ∨
    tracker.lastRd = some register

theorem patched_patch (tracker : Tracker) (coins : Hazards) (previous inst : Instruction) :
    inst.Patched (tracker.Sources (some previous)) (tracker.patch coins previous inst).inst := by
  have ofPrevious (register : UInt8) (written : previous.rd = some register) :
      tracker.Sources (some previous) register := .inl ⟨previous, rfl, written⟩
  have raw (inst : Instruction) : inst.Patched (tracker.Sources (some previous))
      (inst.patchedIf coins.raw (·.readAfterWrite? previous)).1 :=
    .patchedIf fun _ given => (Instruction.patched_of_readAfterWrite? given).mono ofPrevious
  have waw (inst : Instruction) : inst.Patched (tracker.Sources (some previous))
      (inst.patchedIf coins.waw (·.writeAfterWrite? previous)).1 :=
    .patchedIf fun _ given => (Instruction.patched_of_writeAfterWrite? given).mono ofPrevious
  have loadUse (inst : Instruction) : inst.Patched (tracker.Sources (some previous))
      (inst.patchedIf coins.loadUse (·.useLoaded? tracker.lastRd)).1 :=
    .patchedIf fun _ given => (Instruction.patched_of_useLoaded? given).mono fun _ => Or.inr
  exact ((raw inst).trans (waw _)).trans (loadUse _)

theorem ensures_inject (tracker : Tracker) (profile : HazardProfile)
    (previous? : Option Instruction) (inst : Instruction) :
    (tracker.inject profile previous? inst).Ensures fun injection =>
      inst.Patched (tracker.Sources previous?) injection.inst := by
  cases previous? with
  | none => exact .pure (.refl _ _)
  | some previous =>
      refine (Draw.Ensures.trivial _).bind ?_
      intro coins _
      exact .pure (tracker.patched_patch coins previous inst)

theorem succeeds_throwCoins (tracker : Tracker) (profile : HazardProfile) :
    (tracker.throwCoins profile).Succeeds := by
  refine (Draw.succeeds_chance _).bind ?_
  intro raw
  refine (Draw.succeeds_chance _).bind ?_
  intro waw
  refine .ite ?_ ?_
  · exact (Draw.succeeds_chance _).bind fun _ => .pure _
  · exact .pure _

theorem succeeds_inject (tracker : Tracker) (profile : HazardProfile)
    (previous? : Option Instruction) (inst : Instruction) :
    (tracker.inject profile previous? inst).Succeeds := by
  cases previous? with
  | none => exact .pure _
  | some previous => exact (tracker.succeeds_throwCoins profile).bind fun _ => .pure _

end Tracker

end Rv32Stimulus
