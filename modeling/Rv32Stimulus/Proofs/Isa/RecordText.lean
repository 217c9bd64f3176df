/-
# Proofs.Isa.RecordText -- field values in catalog documents

An opcode or function field may be written as a number or as a text.  Both go through one reader,
so a record does not depend on which of them its document has: a number and every
spelling of it load to the same record.  What stands in the place of one field changes
nothing else (`BitField.read_around`).
-/
import Rv32Stimulus.Isa.CatalogText
import Rv32Stimulus.Proofs.Decimal.Value
import Rv32Stimulus.Proofs.Isa.FieldText
import Rv32Stimulus.Proofs.Json.Read
import Rv32Stimulus.Proofs.Json.Shape

namespace Rv32Stimulus

set_option autoImplicit false

open Json (Problem)
open Json.Shape (ByName Finder Frame required optional slot)
open Text (Blank)

/-! ## Field values -/

namespace FieldBits

theorem read_text (content : String) :
    read (Json.text content) =
      match ofText? content with
      | some bits => .ok bits
      | none => .error (.invalidFieldBits content) := rfl

variable {content : String}

theorem read_text_eq_absent_iff : read (Json.text content) = .ok none ↔ Blank content.toList := by
  rw [read_text, ← ofText?_eq_absent_iff]
  cases ofText? content <;> simp

theorem read_text_eq_value_iff {bits : UInt32} :
    read (Json.text content) = .ok (some bits) ↔ Spells content bits.toNat := by
  rw [read_text, ← ofText?_eq_value_iff]
  cases ofText? content <;> simp

theorem read_text_eq_error_iff {problem : Problem} :
    read (Json.text content) = .error problem ↔ problem = .invalidFieldBits content ∧
      ¬Blank content.toList ∧ ¬∃ value < 2 ^ 32, Spells content value := by
  rw [read_text, ← ofText?_eq_none_iff]
  cases ofText? content <;> simp [eq_comm]

theorem read_number (numeral : Decimal.Numeral) :
    read (.number numeral) =
      if !(Json.number numeral).isReadable depthLimit then .error .notJson
      else
        match Json.measure numeral with
        | .integer value =>
            if 0 ≤ value ∧ value ≤ 0xffffffff then .ok (some (UInt32.ofNat value.toNat))
            else .error .noFieldBits
        | _ => .error .noFieldBits := rfl

theorem read_int (bits : UInt32) : read (Json.int bits.toNat) = .ok (some bits) := by
  have bound := bits.toNat_lt
  have readable : (Json.int bits.toNat).isReadable depthLimit = true := by
    rw [Json.int, Json.isReadable, Decimal.Numeral.isInf_toFloat_ofInt (bound.trans (by decide))]
    rfl
  have range : (0 : Int) ≤ bits.toNat ∧ (bits.toNat : Int) ≤ 0xffffffff := by omega
  have measured : Json.measure (.ofInt bits.toNat) = .integer bits.toNat :=
    Json.measure_nat (bound.trans (by decide))
  rw [Json.int] at readable ⊢
  simp [read_number, readable, measured, range]

end FieldBits

/-! ## Records by the names of their fields -/

namespace Record

/-- What the trees under the names of the fields make together. -/
def ofNames (find : Finder) : Except Problem Record :=
  .ok Record.mk
    <*> required "mnemonic" Json.readText find
    <*> required "format" (Json.readVariant fun name => .ok (.ofName name)) find
    <*> required "category" Category.read find
    <*> required "opcode" FieldBits.readRequired find
    <*> optional none "funct3" FieldBits.readOptional find
    <*> optional none "funct7" FieldBits.readOptional find
    <*> required "operand_pattern"
      (Json.readList (Json.readVariant fun name => .ok (.ofName name))) find
    <*> optional .plain "immed_kind" (Json.readVariant fun name => .ok (.ofName name)) find

theorem byName : ByName shape ofNames :=
  ByName.of Record.mk
    |>.seq (.field _ _) (by decide)
    |>.seq (.field _ _) (by decide)
    |>.seq (.field _ _) (by decide)
    |>.seq (.field _ _) (by decide)
    |>.seq (.fieldOr _ _ _) (by decide)
    |>.seq (.fieldOr _ _ _) (by decide)
    |>.seq (.field _ _) (by decide)
    |>.seq (.fieldOr _ _ _) (by decide)

theorem ofNames_eq_ok_iff {find : Finder} {record : Record} :
    ofNames find = .ok record ↔
      required "mnemonic" Json.readText find = .ok record.mnemonic ∧
      required "format" (Json.readVariant fun name => .ok (.ofName name)) find = .ok record.format ∧
      required "category" Category.read find = .ok record.category ∧
      required "opcode" FieldBits.readRequired find = .ok record.opcode ∧
      optional none "funct3" FieldBits.readOptional find = .ok record.funct3 ∧
      optional none "funct7" FieldBits.readOptional find = .ok record.funct7 ∧
      required "operand_pattern"
        (Json.readList (Json.readVariant fun name => .ok (.ofName name))) find = .ok record.pattern ∧
      optional .plain "immed_kind" (Json.readVariant fun name => .ok (.ofName name)) find =
        .ok record.kind := by
  rw [ofNames]
  simp only [Json.seq_eq_ok]
  constructor
  · rintro ⟨_, _, ⟨_, _, ⟨_, _, ⟨_, _, ⟨_, _, ⟨_, _, ⟨_, _, ⟨_, _, made, mnemonic, rfl⟩, format, rfl⟩,
      category, rfl⟩, opcode, rfl⟩, funct3, rfl⟩, funct7, rfl⟩, pattern, rfl⟩, kind, rfl⟩
    obtain rfl := Except.ok.inj made
    exact ⟨mnemonic, format, category, opcode, funct3, funct7, pattern, kind⟩
  · rintro ⟨mnemonic, format, category, opcode, funct3, funct7, pattern, kind⟩
    exact ⟨_, _, ⟨_, _, ⟨_, _, ⟨_, _, ⟨_, _, ⟨_, _, ⟨_, _, ⟨_, _, rfl, mnemonic, rfl⟩, format, rfl⟩,
      category, rfl⟩, opcode, rfl⟩, funct3, rfl⟩, funct7, rfl⟩, pattern, rfl⟩, kind, rfl⟩

end Record

/-- The fields of a record whose values a document may spell. -/
inductive BitField where
  | opcode
  | funct3
  | funct7
  deriving DecidableEq

namespace BitField

def name : BitField → String
  | opcode => "opcode"
  | funct3 => "funct3"
  | funct7 => "funct7"

/-- What a record has in the field. -/
def get : BitField → Record → Option UInt32
  | opcode, record => some record.opcode
  | funct3, record => record.funct3
  | funct7, record => record.funct7

/-- The record with other bits in the field; there is none without an opcode. -/
def set? (field : BitField) (bits : Option UInt32) (record : Record) : Option Record :=
  match field with
  | opcode => bits.map fun bits => { record with opcode := bits }
  | funct3 => some { record with funct3 := bits }
  | funct7 => some { record with funct7 := bits }

/-- The bits that a tree gives the field, if it gives any: `null` is an absent function field. -/
def bits (field : BitField) (tree : Json) : Except Problem (Option UInt32) :=
  match field with
  | opcode => (FieldBits.readRequired tree).map some
  | funct3 => FieldBits.readOptional tree
  | funct7 => FieldBits.readOptional tree

variable {field : BitField} {frame : Frame} {tree other : Json} {record result : Record}

/-- With another tree in the place of a field, a document is the same record up to this field. -/
theorem read_around (fits : frame.Fits Record.shape field.name)
    (read : Record.read (frame.around field.name tree) = .ok record) :
    Record.read (frame.around field.name other) = .ok result ↔
      ∃ bits, field.bits other = .ok bits ∧ field.set? bits record = some result := by
  have declared : field.name ∈ Record.shape.names := by
    cases field <;> decide
  obtain ⟨rest, find, reads⟩ := Record.byName.reader_around "struct InstructionMetadata" declared fits
  rw [Record.read, reads] at read ⊢
  obtain ⟨inOrder, valued⟩ := read
  rw [Record.ofNames_eq_ok_iff] at valued ⊢
  obtain ⟨mnemonic, format, category, opcode, funct3, funct7, pattern, kind⟩ := valued
  cases result
  cases field with
  | opcode =>
      simp [name] at mnemonic format category funct3 funct7 pattern kind
      cases read : FieldBits.readRequired other <;>
        simp [name, bits, set?, Except.map, inOrder, read, mnemonic, format, category, funct3, funct7,
          pattern, kind, and_comm, and_assoc, and_left_comm]
  | funct3 =>
      simp [name] at mnemonic format category opcode funct7 pattern kind
      cases read : FieldBits.readOptional other <;>
        simp [name, bits, set?, inOrder, read, mnemonic, format, category, opcode, funct7,
          pattern, kind, and_comm, and_assoc, and_left_comm]
  | funct7 =>
      simp [name] at mnemonic format category opcode funct3 pattern kind
      cases read : FieldBits.readOptional other <;>
        simp [name, bits, set?, inOrder, read, mnemonic, format, category, opcode, funct3,
          pattern, kind, and_comm, and_assoc, and_left_comm]

/-- Trees that give a field the same bits give the same records. -/
theorem read_around_eq (fits : frame.Fits Record.shape field.name)
    (same : field.bits tree = field.bits other) (record : Record) :
    Record.read (frame.around field.name tree) = .ok record ↔
      Record.read (frame.around field.name other) = .ok record := by
  have exchange {tree other : Json} (same : field.bits tree = field.bits other)
      (read : Record.read (frame.around field.name tree) = .ok record) :
      Record.read (frame.around field.name other) = .ok record := by
    obtain ⟨bits, given, kept⟩ := (read_around fits read).1 read
    exact (read_around fits read).2 ⟨bits, same ▸ given, kept⟩
  exact ⟨exchange same, exchange same.symm⟩

/-- No record can be read where the tree gives the field no bits. -/
theorem read_around_ne_ok (fits : frame.Fits Record.shape field.name) {problem : Problem}
    (missing : field.bits tree = .error problem) (record : Record) :
    Record.read (frame.around field.name tree) ≠ .ok record := by
  intro read
  obtain ⟨bits, given, -⟩ := (read_around fits read).1 read
  rw [missing] at given
  cases given

theorem exists_set? (field : BitField) (bits : UInt32) (record : Record) :
    ∃ changed, field.set? (some bits) record = some changed := by
  cases field <;> exact ⟨_, rfl⟩

theorem exists_set?_none (function : field ≠ .opcode) (record : Record) :
    ∃ changed, field.set? none record = some changed := by
  cases field with
  | opcode => exact absurd rfl function
  | funct3 => exact ⟨_, rfl⟩
  | funct7 => exact ⟨_, rfl⟩

theorem get_of_set? {bits : Option UInt32} (changed : field.set? bits record = some result) :
    field.get result = bits := by
  cases field with
  | opcode =>
      obtain ⟨value, rfl, rfl⟩ := Option.map_eq_some_iff.1 changed
      rfl
  | funct3 =>
      obtain rfl := Option.some.inj changed
      rfl
  | funct7 =>
      obtain rfl := Option.some.inj changed
      rfl

/-! ## What trees give a field -/

theorem readOptional_eq_read (given : tree ≠ .null) :
    FieldBits.readOptional tree = FieldBits.read tree := by
  cases tree <;> first | rfl | exact absurd rfl given

theorem bits_eq_value {bits : UInt32} (read : FieldBits.read tree = .ok (some bits))
    (given : tree ≠ .null) : field.bits tree = .ok (some bits) := by
  cases field with
  | opcode => simp [BitField.bits, FieldBits.readRequired, read, Except.map, bind, Except.bind]
  | funct3 => exact (readOptional_eq_read given).trans read
  | funct7 => exact (readOptional_eq_read given).trans read

theorem bits_eq_error {problem : Problem} (read : FieldBits.read tree = .error problem)
    (given : tree ≠ .null) : field.bits tree = .error problem := by
  cases field with
  | opcode => simp [BitField.bits, FieldBits.readRequired, read, Except.map, bind, Except.bind]
  | funct3 => exact (readOptional_eq_read given).trans read
  | funct7 => exact (readOptional_eq_read given).trans read

/-- A tree for an absent field. -/
def Absent (tree : Json) : Prop :=
  tree = .null ∨ ∃ content, tree = .text content ∧ Blank content.toList

theorem bits_opcode_of_absent (absent : Absent tree) :
    ∃ problem, opcode.bits tree = .error problem := by
  rcases absent with rfl | ⟨content, rfl, blank⟩
  · exact ⟨.noFieldBits, rfl⟩
  · have read := FieldBits.read_text_eq_absent_iff.2 blank
    refine ⟨.emptyOpcode, ?_⟩
    simp [BitField.bits, FieldBits.readRequired, read, Except.map, bind, Except.bind]

theorem bits_of_absent (function : field ≠ .opcode) (absent : Absent tree) :
    field.bits tree = .ok none := by
  have read : FieldBits.readOptional tree = .ok none := by
    rcases absent with rfl | ⟨content, rfl, blank⟩
    · rfl
    · exact FieldBits.read_text_eq_absent_iff.2 blank
  cases field with
  | opcode => exact absurd rfl function
  | funct3 => exact read
  | funct7 => exact read

end BitField

namespace Record

/-- Texts in the place of opcode and function fields follow one grammar, and what they spell is read
as the number is. -/
theorem field_values_by_one_grammar :
    (∀ content : String,
      (FieldBits.read (.text content) = .ok none ↔ Blank content.toList) ∧
      (∀ bits : UInt32,
        FieldBits.read (.text content) = .ok (some bits) ↔ FieldBits.Spells content bits.toNat) ∧
      ∀ problem, FieldBits.read (.text content) = .error problem ↔
        problem = .invalidFieldBits content ∧ ¬Blank content.toList ∧
          ¬∃ value < 2 ^ 32, FieldBits.Spells content value) ∧
    ∀ (field : BitField) (frame : Frame), frame.Fits shape field.name →
      -- The number and all its spellings are read alike.
      (∀ (bits : UInt32) (content : String) (record : Record), FieldBits.Spells content bits.toNat →
        (read (frame.around field.name (.text content)) = .ok record ↔
          read (frame.around field.name (.int bits.toNat)) = .ok record)) ∧
      -- The number can stand wherever something can, and is the value of the field.
      (∀ (bits : UInt32) (tree : Json) (record : Record),
        read (frame.around field.name tree) = .ok record →
          ∃ changed, read (frame.around field.name (.int bits.toNat)) = .ok changed ∧
            field.set? (some bits) record = some changed ∧ field.get changed = some bits) ∧
      -- Blanks and `null` are an absent function field, and no opcode.
      (∀ tree, BitField.Absent tree →
        (field = .opcode → ∀ record, read (frame.around field.name tree) ≠ .ok record) ∧
        (field ≠ .opcode → ∀ (other : Json) (record : Record),
          read (frame.around field.name other) = .ok record →
            ∃ changed, read (frame.around field.name tree) = .ok changed ∧
              field.set? none record = some changed ∧ field.get changed = none)) ∧
      -- Other texts are no field.
      ∀ content : String, ¬Blank content.toList → (¬∃ value < 2 ^ 32, FieldBits.Spells content value) →
        ∀ record, read (frame.around field.name (.text content)) ≠ .ok record := by
  refine ⟨fun content => ⟨FieldBits.read_text_eq_absent_iff,
    fun bits => FieldBits.read_text_eq_value_iff,
    fun problem => FieldBits.read_text_eq_error_iff⟩, fun field frame fits => ⟨?_, ?_, ?_, ?_⟩⟩
  · intro bits content record spells
    have spelled : field.bits (.text content) = .ok (some bits) :=
      BitField.bits_eq_value (FieldBits.read_text_eq_value_iff.2 spells) nofun
    have counted : field.bits (.int bits.toNat) = .ok (some bits) :=
      BitField.bits_eq_value (FieldBits.read_int bits) nofun
    exact BitField.read_around_eq fits (spelled.trans counted.symm) record
  · intro bits tree record loaded
    have counted : field.bits (.int bits.toNat) = .ok (some bits) :=
      BitField.bits_eq_value (FieldBits.read_int bits) nofun
    obtain ⟨changed, set⟩ := BitField.exists_set? field bits record
    exact ⟨changed, (BitField.read_around fits loaded).2 ⟨_, counted, set⟩, set,
      BitField.get_of_set? set⟩
  · intro tree absent
    constructor
    · rintro rfl
      obtain ⟨problem, missing⟩ := BitField.bits_opcode_of_absent absent
      exact BitField.read_around_ne_ok fits missing
    · intro function other record loaded
      obtain ⟨changed, set⟩ := BitField.exists_set?_none function record
      exact ⟨changed, (BitField.read_around fits loaded).2
        ⟨none, BitField.bits_of_absent function absent, set⟩, set, BitField.get_of_set? set⟩
  · intro content ink unspelt
    have problem := FieldBits.read_text_eq_error_iff.2 ⟨rfl, ink, unspelt⟩
    exact BitField.read_around_ne_ok fits (BitField.bits_eq_error problem nofun)

/-- A record without its `funct7`, in a document with one more member. -/
def sraiFrame : Frame :=
  .member
    [ (.text "mnemonic", .text "SRAI"), (.text "format", .text "I"), (.text "category", .text "alu"),
      (.text "opcode", .text "0x13"), (.text "funct3", .int 5) ]
    [ (.text "remark", .null), (.text "immed_kind", .text "shamt5"),
      (.text "operand_pattern", .array [.text "rd", .text "rs1", .text "shamt"]) ]

def srai (funct7 : Option UInt32) : Record :=
  { mnemonic := "SRAI", format := .i, category := .alu, opcode := 0x13, funct3 := some 5, funct7
    pattern := [.rd, .rs1, .shamt], kind := .shift }

theorem read_sraiFrame : read (sraiFrame.around "funct7" .null) = .ok (srai none) := by
  decide +kernel

theorem spells_srai : FieldBits.Spells "\t0X+0020 " (0x20 : UInt32).toNat :=
  FieldBits.ofText?_eq_value_iff.1 (by decide +kernel)

theorem field_values_by_one_grammar_srai :
    read (sraiFrame.around "funct7" (.text "\t0X+0020 ")) = .ok (srai (some 0x20)) := by
  obtain ⟨alike, wherever, -⟩ := field_values_by_one_grammar.2 .funct7 sraiFrame trivial
  obtain ⟨changed, loaded, set, -⟩ := wherever 0x20 .null (srai none) read_sraiFrame
  obtain rfl := Option.some.inj set
  exact (alike 0x20 _ _ spells_srai).2 loaded

end Record

end Rv32Stimulus
