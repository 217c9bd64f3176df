/-
# Proofs.Isa.Catalog -- what acceptance says of the records of a catalog

The check of a record passes exactly if its opcode and its function fields fit their widths
(`Record.Fits`), and reports the first that does not (`Record.TooWide`).

So the fields of an accepted record fit, and the word holds them in full (`Record.Narrow`).  This
covers the built-in record that stands in for a missing `ADDI`.
-/
import Rv32Stimulus.Isa.Base

namespace Rv32Stimulus

set_option autoImplicit false

/-! ## One record -/

namespace Record

/-- Opcode and present function fields fit their widths. -/
structure Fits (record : Record) : Prop where
  opcode : record.opcode.toNat < Nat.pow 2 7
  funct3 : ∀ value, record.funct3 = some value → value.toNat < Nat.pow 2 3
  funct7 : ∀ value, record.funct7 = some value → value.toNat < Nat.pow 2 7

/-- `fault` names the first field of the record that is too wide. -/
inductive TooWide (record : Record) : CatalogError → Prop
  | opcode (wide : Nat.pow 2 7 ≤ record.opcode.toNat) :
      TooWide record (.fieldWidth record.mnemonic "opcode" record.opcode 7)
  | funct3 {value : UInt32} (opcode : record.opcode.toNat < Nat.pow 2 7)
      (present : record.funct3 = some value) (wide : Nat.pow 2 3 ≤ value.toNat) :
      TooWide record (.fieldWidth record.mnemonic "funct3" value 3)
  | funct7 {value : UInt32} (opcode : record.opcode.toNat < Nat.pow 2 7)
      (funct3 : ∀ value, record.funct3 = some value → value.toNat < Nat.pow 2 3)
      (present : record.funct7 = some value) (wide : Nat.pow 2 7 ≤ value.toNat) :
      TooWide record (.fieldWidth record.mnemonic "funct7" value 7)

/-- What the pass over the fields reports for one of them. -/
def fieldFault? (record : Record) (field : String) (value? : Option UInt32) (bits : Nat) :
    Option CatalogError :=
  match value? with
  | some value =>
      if value.toNat < Nat.pow 2 bits then none else some (.fieldWidth record.mnemonic field value bits)
  | none => none

section Field

variable {record : Record} {field : String} {value? : Option UInt32} {bits : Nat}

theorem fieldFault?_eq_none :
    record.fieldFault? field value? bits = none ↔
      ∀ value, value? = some value → value.toNat < Nat.pow 2 bits := by
  cases value? <;> simp [fieldFault?]

theorem fieldFault?_eq_some {fault : CatalogError} :
    record.fieldFault? field value? bits = some fault ↔
      ∃ value, value? = some value ∧ Nat.pow 2 bits ≤ value.toNat ∧
        .fieldWidth record.mnemonic field value bits = fault := by
  cases value? <;> simp [fieldFault?]

end Field

theorem widthFault?_eq (record : Record) :
    record.widthFault? =
      (record.fieldFault? "opcode" (some record.opcode) 7).or
        ((record.fieldFault? "funct3" record.funct3 3).or
          (record.fieldFault? "funct7" record.funct7 7)) := by
  have step {α : Type} (report : α → Option CatalogError) (field : α) (rest : List α) :
      (field :: rest).findSome? report = (report field).or (rest.findSome? report) := by
    rw [List.findSome?_cons]
    cases report field <;> rfl
  simp only [widthFault?, step, List.findSome?_nil, Option.or_none]
  rfl

theorem widthFault?_eq_none {record : Record} : record.widthFault? = none ↔ record.Fits := by
  simp only [widthFault?_eq, Option.or_eq_none_iff, fieldFault?_eq_none]
  constructor
  · rintro ⟨opcode, funct3, funct7⟩
    exact ⟨opcode _ rfl, funct3, funct7⟩
  · rintro ⟨opcode, funct3, funct7⟩
    refine ⟨?_, funct3, funct7⟩
    rintro _ ⟨⟩
    exact opcode

theorem widthFault?_eq_some {record : Record} {fault : CatalogError} :
    record.widthFault? = some fault ↔ record.TooWide fault := by
  simp only [widthFault?_eq, Option.or_eq_some_iff, fieldFault?_eq_none, fieldFault?_eq_some]
  constructor
  · rintro (⟨_, ⟨⟩, wide, rfl⟩ |
      ⟨opcode, ⟨_, present, wide, rfl⟩ | ⟨funct3, _, present, wide, rfl⟩⟩)
    · exact .opcode wide
    · exact .funct3 (opcode _ rfl) present wide
    · exact .funct7 (opcode _ rfl) funct3 present wide
  · rintro (wide | ⟨opcode, present, wide⟩ | ⟨opcode, funct3, present, wide⟩)
    · exact .inl ⟨_, rfl, wide, rfl⟩
    · exact .inr ⟨by rintro _ ⟨⟩; exact opcode, .inl ⟨_, present, wide, rfl⟩⟩
    · exact .inr ⟨by rintro _ ⟨⟩; exact opcode, .inr ⟨funct3, _, present, wide, rfl⟩⟩

theorem TooWide.not_fits {record : Record} {fault : CatalogError} (wide : record.TooWide fault) :
    ¬record.Fits := by
  intro fits
  have narrow := widthFault?_eq_none.2 fits
  rw [widthFault?_eq_some.2 wide] at narrow
  cases narrow

/-- Opcode and function fields fit their widths; an absent field counts as zero. -/
structure Narrow (record : Record) : Prop where
  opcode : record.opcode.toNat < 1 <<< 7
  funct3 : (record.funct3.getD 0).toNat < 1 <<< 3
  funct7 : (record.funct7.getD 0).toNat < 1 <<< 7

theorem Fits.narrow {record : Record} (fits : record.Fits) : record.Narrow where
  opcode := fits.opcode
  funct3 := by
    cases present : record.funct3 with
    | none => decide
    | some value => exact fits.funct3 value present
  funct7 := by
    cases present : record.funct7 with
    | none => decide
    | some value => exact fits.funct7 value present

theorem narrow_addi : addi.Narrow := by constructor <;> decide

end Record

/-! ## Accepted lists -/

namespace Catalog

theorem widthFault?_of_fault? {seen : List String} {records : List Record}
    (sound : fault? seen records = none) : ∀ record ∈ records, record.widthFault? = none := by
  induction records generalizing seen with
  | nil => simp
  | cons record rest ih =>
      rw [fault?] at sound
      split at sound
      · cases sound
      · rename_i narrow
        split at sound
        · cases sound
        · exact List.forall_mem_cons.2 ⟨narrow, ih sound⟩

theorem records_of_ofRecords {records : List Record} {catalog : Catalog}
    (accepted : ofRecords records = .ok catalog) :
    catalog.records = records ∧ ∀ record ∈ records, record.Narrow := by
  unfold ofRecords at accepted
  split at accepted
  · cases accepted
  · rename_i sound
    obtain rfl := Except.ok.inj accepted
    refine ⟨rfl, ?_⟩
    intro record member
    exact (Record.widthFault?_eq_none.1 (widthFault?_of_fault? sound record member)).narrow

theorem ofRecords_of_fault? {records : List Record} (sound : fault? [] records = none) :
    ofRecords records = .ok ⟨records⟩ := by
  unfold ofRecords
  rw [sound]

/-- The built-in catalog is accepted. -/
theorem ofRecords_rv32i : ofRecords Base.records = .ok rv32i :=
  ofRecords_of_fault? (by decide +kernel)

end Catalog

end Rv32Stimulus
