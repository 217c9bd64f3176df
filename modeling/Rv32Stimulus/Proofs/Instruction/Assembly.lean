/-
# Proofs.Instruction.Assembly -- how operands are written, and where the label stands

Operands that are there are written alike exactly if they are the same (`registerText_inj`,
`immText_inj`, `upperText_inj`, `shamtText_inj`, `memoryText_inj`).  The text of an instruction with a
label role has the name of its target among its operands, at the place of the role, and no other name
stands there (`writesLabel_iff`); a text without operands has none (`WritesLabel.blank_mem`).
-/
import Rv32Stimulus.Instruction.Assembly
import Rv32Stimulus.Proofs.Text.Reading

namespace Rv32Stimulus.Instruction

set_option autoImplicit false

/-- The text of the instruction has `name` for a label role of its pattern, between the operands of
the other roles. -/
def WritesLabel (inst : Instruction) (labels : LabelTable) (name : String) : Prop :=
  ∃ before after, inst.record.pattern = before ++ .label :: after ∧
    inst.text = inst.record.mnemonic.toLower ++ " " ++ ", ".intercalate
      (before.filterMap (inst.operandText labels) ++ name ::
        after.filterMap (inst.operandText labels))

variable {inst other : Instruction} {labels : LabelTable}

/-! ## Texts of operands -/

theorem unbroken_registerText (register : Option UInt8) : Text.Unbroken (registerText register) :=
  Text.Unbroken.append (by decide) (Text.unbroken_nat _)

/-- Operands that are there are written alike exactly if they are the same. -/
theorem text_getD_inj {α : Type} (text : α → String)
    (injective : ∀ {left right}, text left = text right → left = right) {fallback : α}
    {left right : Option α} (here : left.isSome) (there : right.isSome) :
    text (left.getD fallback) = text (right.getD fallback) ↔ left = right := by
  obtain ⟨value, rfl⟩ := Option.isSome_iff_exists.1 here
  obtain ⟨otherValue, rfl⟩ := Option.isSome_iff_exists.1 there
  rw [Option.some.injEq]
  exact ⟨injective, congrArg text⟩

theorem registerText_inj {register otherRegister : Option UInt8} (here : register.isSome)
    (there : otherRegister.isSome) :
    registerText register = registerText otherRegister ↔ register = otherRegister := by
  refine text_getD_inj (fun number : UInt8 => "x" ++ toString number.toNat) ?_ here there
  intro left right same
  exact UInt8.toNat_inj.1 (Text.nat_injective ((String.append_right_inj "x").1 same))

theorem immText_inj (here : inst.imm.isSome) (there : other.imm.isSome) :
    inst.immText = other.immText ↔ inst.imm = other.imm := by
  refine text_getD_inj (fun value : Int32 => toString value.toInt) ?_ here there
  intro left right same
  exact Int32.toInt_inj.1 (Text.int_injective same)

theorem upperText_inj (here : inst.imm.isSome) (there : other.imm.isSome) :
    Text.hex (inst.imm.getD 0).toBitVec.toNat = Text.hex (other.imm.getD 0).toBitVec.toNat ↔
      inst.imm = other.imm := by
  refine text_getD_inj (fun value : Int32 => Text.hex value.toBitVec.toNat) ?_ here there
  intro left right same
  exact Int32.toBitVec_inj.1 (BitVec.eq_of_toNat_eq (Text.hex_injective same))

theorem shamtText_inj (here : inst.shamt.isSome) (there : other.shamt.isSome) :
    toString (inst.shamt.getD 0).toNat = toString (other.shamt.getD 0).toNat ↔
      inst.shamt = other.shamt := by
  refine text_getD_inj (fun amount : UInt8 => toString amount.toNat) ?_ here there
  intro left right same
  exact UInt8.toNat_inj.1 (Text.nat_injective same)

/-- A memory operand gives back its offset and its base. -/
theorem memoryText_inj :
    inst.immText ++ "(" ++ registerText inst.rs1 ++ ")" =
        other.immText ++ "(" ++ registerText other.rs1 ++ ")" ↔
      inst.immText = other.immText ∧ registerText inst.rs1 = registerText other.rs1 := by
  have clear (value : Int) : '(' ∉ (toString value).toList := fun member =>
    Text.unbroken_int value _ member (by decide)
  constructor
  · intro same
    have characters := congrArg String.toList same
    simp only [String.toList_append, List.append_assoc] at characters
    obtain ⟨offset, rest⟩ := Text.cut_eq (clear _) (clear _) characters
    exact ⟨String.toList_injective offset, String.toList_injective (List.append_cancel_right rest)⟩
  · rintro ⟨offset, base⟩
    rw [offset, base]

/-- Lists of what is found for the same items are the same exactly if each item finds the same. -/
theorem filterMap_eq_iff {α β : Type} {items : List α} {f g : α → Option β}
    (here : ∀ item ∈ items, (f item).isSome) (there : ∀ item ∈ items, (g item).isSome) :
    items.filterMap f = items.filterMap g ↔ ∀ item ∈ items, f item = g item := by
  induction items with
  | nil => simp
  | cons item items ih =>
      obtain ⟨first, later⟩ := List.forall_mem_cons.1 here
      obtain ⟨otherFirst, otherLater⟩ := List.forall_mem_cons.1 there
      obtain ⟨value, found⟩ := Option.isSome_iff_exists.1 first
      obtain ⟨otherValue, otherFound⟩ := Option.isSome_iff_exists.1 otherFirst
      rw [List.filterMap_cons_some found, List.filterMap_cons_some otherFound, List.cons.injEq,
        ih later otherLater, List.forall_mem_cons, found, otherFound, Option.some.injEq]

/-! ## Whole texts -/

theorem assembly_of_operands (named : inst.record.mnemonic.toLower ∉ bareMnemonics)
    (operands : inst.record.pattern.filterMap (inst.operandText labels) ≠ []) :
    inst.assembly labels = inst.record.mnemonic.toLower ++ " " ++
      ", ".intercalate (inst.record.pattern.filterMap (inst.operandText labels)) := by
  unfold assembly
  dsimp only
  rw [if_neg (by simpa using named)]
  split
  · contradiction
  · rfl

/-- A mnemonic that is written without operands, or that has none, is the whole text. -/
theorem assembly_of_bare
    (bare : inst.record.mnemonic.toLower ∈ bareMnemonics ∨ inst.record.pattern = []) :
    inst.assembly labels = inst.record.mnemonic.toLower := by
  unfold assembly
  dsimp only
  rcases bare with bare | bare
  · rw [if_pos (by simpa using bare)]
  · rw [bare, List.filterMap_nil]
    simp

theorem isSome_operandText (labels : LabelTable) {role : Role} (supported : role ≠ .unsupported) :
    (inst.operandText labels role).isSome := by
  cases role with
  | unsupported => exact absurd rfl supported
  | _ => rfl

theorem labelText_of_label {name : String} (labelled : inst.label = some name) :
    inst.labelText labels = name := by
  rw [labelText, labelled]
  rfl

theorem writesLabel_of_assembly {name : String} (text : inst.text = inst.assembly labels)
    (named : inst.record.mnemonic.toLower ∉ bareMnemonics) (member : .label ∈ inst.record.pattern)
    (labelled : inst.label = some name) : inst.WritesLabel labels name := by
  obtain ⟨before, after, split⟩ := List.append_of_mem member
  have operands : inst.record.pattern.filterMap (inst.operandText labels) =
      before.filterMap (inst.operandText labels) ++ name ::
        after.filterMap (inst.operandText labels) := by
    rw [split, List.filterMap_append, List.filterMap_cons, operandText, labelText_of_label labelled]
  refine ⟨before, after, split, ?_⟩
  rw [text, assembly_of_operands named (by rw [operands]; simp), operands]

/-! ## The name in a text -/

/-- Texts that are joined with the same texts around them can be told apart. -/
theorem eq_of_intercalate_eq {separator left right : String} {before after : List String}
    (same : separator.intercalate (before ++ left :: after) =
      separator.intercalate (before ++ right :: after)) : left = right := by
  induction before with
  | nil =>
      cases after with
      | nil => simpa using same
      | cons next after =>
          rw [List.nil_append, List.nil_append, String.intercalate_cons_cons,
            String.intercalate_cons_cons, String.append_assoc, String.append_assoc] at same
          exact (String.append_left_inj _).1 same
  | cons first before ih =>
      rw [List.cons_append, List.cons_append, String.intercalate_cons_of_ne_nil (by simp),
        String.intercalate_cons_of_ne_nil (by simp)] at same
      exact ih ((String.append_right_inj _).1 same)

theorem WritesLabel.blank_mem {name : String} (writes : inst.WritesLabel labels name) :
    ' ' ∈ inst.text.toList := by
  obtain ⟨before, after, -, text⟩ := writes
  rw [text, String.toList_append, String.toList_append]
  exact List.mem_append_left _ (List.mem_append_right _ List.mem_cons_self)

theorem blank_notMem_bareMnemonics : ∀ mnemonic ∈ bareMnemonics, ' ' ∉ mnemonic.toList := by
  decide

/-- A text with operands has the label of the instruction for a label role, and no other name. -/
theorem writesLabel_iff {label name : String} (text : inst.text = inst.assembly labels)
    (labelled : inst.label = some label) :
    inst.WritesLabel labels name ↔
      inst.record.mnemonic.toLower ∉ bareMnemonics ∧ .label ∈ inst.record.pattern ∧ name = label := by
  constructor
  · intro writes
    have named : inst.record.mnemonic.toLower ∉ bareMnemonics := by
      intro bare
      have blank := writes.blank_mem
      rw [text, assembly_of_bare (.inl bare)] at blank
      exact blank_notMem_bareMnemonics _ bare blank
    obtain ⟨before, after, split, written⟩ := writes
    have member : .label ∈ inst.record.pattern := by simp [split]
    have operands : inst.record.pattern.filterMap (inst.operandText labels) =
        before.filterMap (inst.operandText labels) ++ label ::
          after.filterMap (inst.operandText labels) := by
      rw [split, List.filterMap_append, List.filterMap_cons, operandText,
        labelText_of_label labelled]
    rw [text, assembly_of_operands named (by rw [operands]; simp), operands] at written
    exact ⟨named, member, (eq_of_intercalate_eq ((String.append_right_inj _).1 written)).symm⟩
  · rintro ⟨named, member, rfl⟩
    exact writesLabel_of_assembly text named member labelled

end Rv32Stimulus.Instruction
