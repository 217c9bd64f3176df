/-
# Proofs.Synthesis.Draft -- which operands a fresh instruction has, and how large

`Draft.Fills` lists what filling one role can do, so that whatever holds of a fresh
instruction is shown by one case for each role and an induction along the pattern.

Three things hold after any part of a pattern (`Draft.Made`): exactly the operands that the
roles so far call for are there (`Instruction.Populated`), each lies where some role
so far puts it (`Instruction.Fits`), and a target lies in the program (`Instruction.Lands`).
A repeated role overwrites its operand, and two roles may share the immediate, so the
second speaks of *some* role.  After the whole pattern the instruction is `Drawn`.
-/
import Rv32Stimulus.Proofs.Control.Target
import Rv32Stimulus.Proofs.Instruction.Operands
import Rv32Stimulus.Proofs.Synthesis.Choice
import Rv32Stimulus.Proofs.Synthesis.Operand
import Rv32Stimulus.Synthesis.Draft

namespace Rv32Stimulus

set_option autoImplicit false

open Rv32Stimulus.Random

/-! ## One role -/

namespace Draft

/-- What a draft can become when one role is filled. -/
inductive Fills (profile : Profile) (site : Site) (draft : Draft) : Role → Draft → Prop
  | rd (register : UInt8) (small : register.toNat < 32) :
      Fills profile site draft .rd { draft with inst.rd := some register }
  | rs1 (register : UInt8) (small : register.toNat < 32) :
      Fills profile site draft .rs1 { draft with inst.rs1 := some register }
  | rs2 (register : UInt8) (small : register.toNat < 32) :
      Fills profile site draft .rs2 { draft with inst.rs2 := some register }
  | imm (value : Int32) (fits : IsImmediate value) :
      Fills profile site draft .imm { draft with inst.imm := some value }
  | shamt (amount : UInt8) (small : amount.toNat < 32) :
      Fills profile site draft .shamt { draft with inst.shamt := some amount }
  | imm20 (value : Int32) (fits : IsUpper value) :
      Fills profile site draft .imm20 { draft with inst.imm := some value }
  | memory (base : UInt8) (offset : Int32) (positive : 0 < base.toNat) (small : base.toNat < 32)
      (fits : IsImmediate offset) :
      Fills profile site draft .memory
        { draft with inst.rs1 := some base, inst.imm := some offset }
  | label (choice : TargetChoice)
      (chosen : profile.Chooses draft.backward site.index site.length choice) :
      Fills profile site draft .label
        { inst := { draft.inst with target := some choice.target }, backward := choice.backward }
  | predSucc : Fills profile site draft .predSucc { draft with inst.imm := some fullFence }
  | unsupported : Fills profile site draft .unsupported draft

theorem ensures_destination (draft : Draft) (profile : Profile) :
    (draft.destination profile).Ensures fun register => register.toNat < 32 :=
  .ite (fun _ => profile.registers.ensures_link) fun _ => Draw.ensures_register

theorem ensures_fill (profile : Profile) (site : Site) (draft : Draft) (role : Role) :
    (draft.fill profile site role).Ensures (Fills profile site draft role) := by
  cases role with
  | rd => exact (draft.ensures_destination profile).bind fun _ small => .pure (.rd _ small)
  | rs1 => exact Draw.ensures_register.bind fun _ small => .pure (.rs1 _ small)
  | rs2 => exact Draw.ensures_register.bind fun _ small => .pure (.rs2 _ small)
  | imm =>
      exact profile.immediates.arithmetic.ensures_immediate.bind fun _ fits => .pure (.imm _ fits)
  | shamt =>
      refine (Draw.ensures_between (by decide)).bind fun amount bounds => .pure (.shamt _ ?_)
      have small : amount.toNat < UInt8.size := by unfold UInt8.size; omega
      rw [UInt8.toNat_ofNat_of_lt' small]
      omega
  | imm20 =>
      exact profile.immediates.upper.ensures_immediate.bind fun _ fits => .pure (.imm20 _ fits)
  | memory =>
      refine profile.registers.ensures_base.bind ?_
      intro base bounds
      refine profile.immediates.memory.ensures_offset.bind ?_
      intro offset fits
      exact .pure (.memory base offset bounds.1 bounds.2 fits)
  | label =>
      exact (profile.ensures_chooseTarget _ _ _).bind fun choice chosen =>
        .pure (.label choice chosen)
  | predSucc => exact .pure .predSucc
  | unsupported => exact .pure .unsupported

/-- What filling one role keeps holds after all of a pattern. -/
theorem ensures_of_kept {profile : Profile} {site : Site} {inv : Draft → Prop}
    (kept : ∀ draft role next, Fills profile site draft role next → inv draft → inv next)
    {draft : Draft} (start : inv draft) (pattern : List Role) :
    (pattern.foldlM (fill profile site) draft).Ensures inv := by
  refine .foldlM (fun _ => inv) start ?_
  intro taken role later draft _ soFar
  refine (draft.ensures_fill profile site role).mono ?_
  intro next fills
  exact kept draft role next fills soFar

theorem succeeds_fill {profile : Profile} (drawable : profile.Drawable) (site : Site)
    (draft : Draft) (role : Role) : (draft.fill profile site role).Succeeds := by
  cases role with
  | rd =>
      have destination : (draft.destination profile).Succeeds :=
        .ite profile.registers.succeeds_link Draw.succeeds_register
      exact destination.bind fun _ => .pure _
  | rs1 => exact Draw.succeeds_register.bind fun _ => .pure _
  | rs2 => exact Draw.succeeds_register.bind fun _ => .pure _
  | imm =>
      exact (ArithmeticProfile.succeeds_immediate drawable.arithmetic).bind fun _ => .pure _
  | shamt => exact (Draw.succeeds_between _ _).bind fun _ => .pure _
  | imm20 => exact profile.immediates.upper.succeeds_immediate.bind fun _ => .pure _
  | memory =>
      refine profile.registers.succeeds_base.bind ?_
      intro base
      exact (MemoryProfile.succeeds_offset drawable.memory).bind fun _ => .pure _
  | label =>
      exact (Profile.succeeds_chooseTarget drawable.branches _ _ _).bind fun _ => .pure _
  | predSucc => exact .pure _
  | unsupported => exact .pure _

theorem fails_fill_imm {profile : Profile}
    (infinite : overflows profile.immediates.arithmetic.weights = true) (site : Site)
    (draft : Draft) : (draft.fill profile site .imm).Fails :=
  (ArithmeticProfile.fails_immediate infinite).bind _

theorem fails_fill_memory {profile : Profile}
    (infinite : overflows profile.immediates.memory.weights = true) (site : Site)
    (draft : Draft) : (draft.fill profile site .memory).Fails := by
  refine .bind_of_next (.trivial _) ?_
  intro base _
  exact (MemoryProfile.fails_offset infinite).bind _

theorem fails_fill_label {profile : Profile}
    (infinite : overflows profile.branches.weights = true) {site : Site}
    (inner : site.index + 1 < site.length) (draft : Draft) :
    (draft.fill profile site .label).Fails :=
  (Profile.fails_chooseTarget infinite _ inner).bind _

/-! ## All roles so far -/

variable {profile : Profile} {site : Site} {draft next : Draft} {role : Role} {taken : List Role}

theorem Fills.record_eq (fills : Fills profile site draft role next) :
    next.inst.record = draft.inst.record := by
  cases fills <;> rfl

theorem Fills.imm_eq (fills : Fills profile site draft role next)
    (keeps : role.setsImmediate = false) : next.inst.imm = draft.inst.imm := by
  cases fills <;> first | rfl | cases keeps

theorem Fills.populated (fills : Fills profile site draft role next)
    (before : draft.inst.Populated taken) : next.inst.Populated (taken ++ [role]) := by
  obtain ⟨rd, rs1, rs2, imm, shamt, target⟩ := before
  cases fills <;> constructor <;> simp_all [Role.setsImmediate]

theorem Fills.fits (fills : Fills profile site draft role next) (before : draft.inst.Fits taken) :
    next.inst.Fits (taken ++ [role]) := by
  obtain ⟨rd, rs1, rs2, shamt, imm⟩ := before
  have earlier (value : Int32) (same : draft.inst.imm = some value) :
      ∃ role' ∈ taken ++ [role], role'.Admits value := by
    obtain ⟨role', member, admits⟩ := imm value same
    exact ⟨role', List.mem_append_left _ member, admits⟩
  cases fills <;> constructor <;> simp_all [Role.Admits]

theorem Fills.lands (fills : Fills profile site draft role next) (inside : site.index < site.length)
    (before : draft.inst.Lands site) : next.inst.Lands site := by
  cases fills with
  | label choice chosen =>
      intro target same
      obtain rfl := Option.some.inj same
      exact ⟨chosen.target_lt inside, chosen.eq_of_last⟩
  | _ => exact before

/-- What holds of a draft for `record` once the roles `taken` are filled. -/
structure Made (site : Site) (record : Record) (taken : List Role) (draft : Draft) : Prop where
  record_eq : draft.inst.record = record
  populated : draft.inst.Populated taken
  fits : draft.inst.Fits taken
  lands : draft.inst.Lands site

theorem made_nil (site : Site) (record : Record) (backward : UInt32) :
    Made site record [] ⟨{ record }, backward⟩ where
  record_eq := rfl
  populated := by constructor <;> simp
  fits := by constructor <;> simp
  lands := by simp [Instruction.Lands]

theorem Made.step {record : Record} (made : Made site record taken draft)
    (inside : site.index < site.length) (fills : Fills profile site draft role next) :
    Made site record (taken ++ [role]) next where
  record_eq := fills.record_eq.trans made.record_eq
  populated := fills.populated made.populated
  fits := fills.fits made.fits
  lands := fills.lands inside made.lands

theorem ensures_fill_all (profile : Profile) (record : Record) (backward : UInt32)
    (inside : site.index < site.length) :
    (record.pattern.foldlM (fill profile site) ⟨{ record }, backward⟩).Ensures
      (Made site record record.pattern) := by
  refine .foldlM (Made site record) (made_nil site record backward) ?_
  intro taken role later draft _ made
  refine (draft.ensures_fill profile site role).mono ?_
  intro next fills
  exact made.step inside fills

end Draft

/-! ## A fresh instruction -/

namespace Instruction

/-- An instruction as it is drawn at `site`. -/
structure Drawn (catalog : Catalog) (site : Site) (inst : Instruction) : Prop where
  offered : catalog.Offers inst.record
  populated : inst.Populated inst.record.pattern
  fits : inst.Fits inst.record.pattern
  lands : inst.Lands site

end Instruction

theorem ensures_synthesize (catalog : Catalog) (profile : Profile) {site : Site}
    (inside : site.index < site.length) (backward : UInt32) :
    (synthesize catalog profile site backward).Ensures fun draft => draft.inst.Drawn catalog site := by
  refine (catalog.ensures_chooseRecord profile.weights).bind ?_
  intro record offered
  refine (Draft.ensures_fill_all profile record backward inside).mono ?_
  rintro draft ⟨rfl, populated, fits, lands⟩
  exact ⟨offered, populated, fits, lands⟩

/-- What filling each role in turn brings about holds of a fresh instruction and its pattern. -/
theorem ensures_synthesize_of_taken (catalog : Catalog) {profile : Profile} {site : Site}
    (inv : List Role → Draft → Prop) (start : ∀ record backward, inv [] ⟨{ record }, backward⟩)
    (kept : ∀ taken draft role, inv taken draft →
      (draft.fill profile site role).Ensures (inv (taken ++ [role]))) (backward : UInt32) :
    (synthesize catalog profile site backward).Ensures fun draft =>
      inv draft.inst.record.pattern draft := by
  refine (Draw.Ensures.trivial _).bind ?_
  intro record _
  have sameRecord : (record.pattern.foldlM (Draft.fill profile site) ⟨{ record }, backward⟩).Ensures
      fun draft => draft.inst.record = record :=
    Draft.ensures_of_kept (fun _ _ _ fills same => fills.record_eq.trans same) rfl _
  have filled : (record.pattern.foldlM (Draft.fill profile site) ⟨{ record }, backward⟩).Ensures
      (inv record.pattern) :=
    .foldlM inv (start record backward) fun taken role _ draft _ => kept taken draft role
  refine (sameRecord.and filled).mono ?_
  rintro draft ⟨rfl, holds⟩
  exact holds

theorem succeeds_synthesize (catalog : Catalog) {profile : Profile} (drawable : profile.Drawable)
    (site : Site) (backward : UInt32) : (synthesize catalog profile site backward).Succeeds := by
  refine (catalog.succeeds_chooseRecord drawable.classes).bind ?_
  intro record
  exact .foldlM (Draft.succeeds_fill drawable site) record.pattern _

/-- Where every record on offer draws from every list of weights, one infinite sum is enough to
fail. -/
theorem fails_synthesize {catalog : Catalog} {profile : Profile} (undrawable : ¬profile.Drawable)
    (thirsty : ∀ record, catalog.Offers record →
      .imm ∈ record.pattern ∧ .memory ∈ record.pattern ∧ .label ∈ record.pattern)
    {site : Site} (inner : site.index + 1 < site.length) (backward : UInt32) :
    (synthesize catalog profile site backward).Fails := by
  have atRecord (fails : ∀ record, catalog.Offers record →
      (record.pattern.foldlM (Draft.fill profile site) ⟨{ record }, backward⟩).Fails) :
      (synthesize catalog profile site backward).Fails :=
    .bind_of_next (catalog.ensures_chooseRecord profile.weights) fails
  obtain ⟨weights, member, infinite⟩ := Profile.exists_overflows undrawable
  simp only [Profile.weightLists, List.mem_cons, List.not_mem_nil, or_false] at member
  rcases member with rfl | rfl | rfl | rfl
  · exact (catalog.fails_chooseRecord infinite).bind _
  · apply atRecord
    intro record offered
    obtain ⟨imm, -, -⟩ := thirsty record offered
    exact .foldlM (Draft.fails_fill_imm infinite site) imm _
  · apply atRecord
    intro record offered
    obtain ⟨-, memory, -⟩ := thirsty record offered
    exact .foldlM (Draft.fails_fill_memory infinite site) memory _
  · apply atRecord
    intro record offered
    obtain ⟨-, -, label⟩ := thirsty record offered
    exact .foldlM (Draft.fails_fill_label infinite inner) label _

end Rv32Stimulus
