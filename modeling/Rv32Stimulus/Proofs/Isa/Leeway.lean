/-
# Proofs.Isa.Leeway -- other documents of the same catalog

A record allows its members in any order and members that it does not know.  A function field without
a value and the name of a plain immediate may be left out.  A catalog is rewritten record by
record, so the records stay in their order.
-/
import Rv32Stimulus.Proofs.Isa.RecordText
import Rv32Stimulus.Proofs.Json.Leeway

namespace Rv32Stimulus

set_option autoImplicit false

open Json (Keeps Leeway Thorough)
open Json.Shape (Lenient)

namespace FieldBits

theorem read_thorough : Thorough read := by
  refine .of_scalar (fun _ given => ?_) (fun _ _ given => ?_) (fun _ _ given => ?_)
  all_goals
    unfold read at given
    split at given <;> cases given

theorem readRequired_thorough : Thorough readRequired := by
  intro tree bits given
  obtain ⟨bits?, given, -⟩ := Json.bind_eq_ok.1 given
  exact read_thorough tree bits? given

theorem readOptional_thorough : Thorough readOptional := by
  intro tree bits given
  cases tree with
  | null => rfl
  | _ => exact read_thorough _ bits given

end FieldBits

namespace ImmediateKind

/-- The tree names a kind that is read as a plain immediate. -/
def NamesPlain (tree : Json) : Prop :=
  ∃ name, (tree = .text name ∨ tree = .fields [(name, .null)]) ∧ name ≠ "shamt5" ∧ name ≠ "none"

theorem ofName_eq_plain {name : String} (notShift : name ≠ "shamt5") (notNone : name ≠ "none") :
    ofName name = plain := by
  unfold ofName
  split
  · exact absurd rfl notShift
  · exact absurd rfl notNone
  · rfl

theorem read_of_namesPlain {tree : Json} (names : NamesPlain tree) :
    Json.readVariant (fun name => .ok (ofName name)) tree = .ok plain := by
  obtain ⟨name, rfl | rfl, notShift, notNone⟩ := names
  all_goals exact congrArg Except.ok (ofName_eq_plain notShift notNone)

end ImmediateKind

namespace Record

def leeways : List Leeway :=
  [ { name := "funct3", omissible := BitField.Absent },
    { name := "funct7", omissible := BitField.Absent },
    { name := "immed_kind", omissible := ImmediateKind.NamesPlain } ]

theorem lenient : ∃ value, Lenient shape value leeways := by
  have absent (field : BitField) (function : field ≠ .opcode) (tree : Json)
      (absent : BitField.Absent tree) : field.bits tree = .ok none :=
    BitField.bits_of_absent function absent
  exact ⟨_, Lenient.of Record.mk
    |>.seq (.field _ .readText) (by decide)
    |>.seq (.field _ (.readVariant _)) (by decide)
    |>.seq (.field _ (.readVariant _)) (by decide)
    |>.seq (.field _ FieldBits.readRequired_thorough) (by decide)
    |>.seq (.fieldOr _ FieldBits.readOptional_thorough (absent .funct3 nofun)) (by decide)
    |>.seq (.fieldOr _ FieldBits.readOptional_thorough (absent .funct7 nofun)) (by decide)
    |>.seq (.field _ (Thorough.readVariant _).readList) (by decide)
    |>.seq (.fieldOr _ (.readVariant _) fun _ => ImmediateKind.read_of_namesPlain) (by decide)⟩

/-- One step from a document to another for the same record. -/
abbrev Rewrites : Json → Json → Prop := Json.Rewrites shape leeways

theorem read_thorough : Thorough read := by
  obtain ⟨_, lenient⟩ := lenient
  exact lenient.reader_thorough _

theorem read_keeps : Keeps Rewrites read := by
  obtain ⟨_, lenient⟩ := lenient
  exact lenient.reader_keeps _

end Record

namespace Catalog

/-- One step from a document to another for the same catalog. -/
abbrev Rewrites : Json → Json → Prop := Json.Itemwise Record.Rewrites

theorem ofText_eq_ok_iff {content : String} {catalog : Catalog} :
    ofText content = .ok catalog ↔ ∃ records,
      Json.document (Json.readList Record.read) content = .ok records ∧
        ofRecords records = .ok catalog := by
  rw [ofText]
  cases Json.document (Json.readList Record.read) content with
  | error problem => simp
  | ok records =>
      dsimp only
      cases made : ofRecords records <;> simp [made]

end Catalog

end Rv32Stimulus
