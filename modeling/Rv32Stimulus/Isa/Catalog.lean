/-
# Isa.Catalog -- the collection of records a program is made from

A catalog keeps its records in the given order.  `ofRecords` accepts a list whose
opcode and function fields fit their widths and whose mnemonics differ also when
ASCII case is ignored; otherwise it reports the first offending record, and for
that record a field that is too wide before a repeated name.

All lookups go through an index that takes in one record after the other
(`CatalogIndex.add`).  It knows the position of every upper-cased mnemonic and the
records of every category; of two records with one name it would find the later.
-/
import Rv32Stimulus.Isa.Record
import Rv32Stimulus.Ordered.Table
import Rv32Stimulus.Text.Digits

namespace Rv32Stimulus

set_option autoImplicit false

/-- Why a list of records is no catalog. -/
inductive CatalogError where
  | duplicateMnemonic (mnemonic : String)
  | fieldWidth (mnemonic field : String) (value : UInt32) (bits : Nat)
  deriving DecidableEq, Repr

namespace CatalogError

def message : CatalogError → String
  | duplicateMnemonic mnemonic => "Duplicate mnemonic in catalog: " ++ mnemonic
  | fieldWidth mnemonic field value bits =>
      mnemonic ++ ": " ++ field ++ " value 0x" ++ Text.hex value.toNat ++
        " does not fit in " ++ toString bits ++ " bits"

end CatalogError

namespace Record

/-- The first of opcode, funct3 and funct7 that is too wide. -/
def widthFault? (record : Record) : Option CatalogError :=
  let fields : List (String × Option UInt32 × Nat) :=
    [("opcode", some record.opcode, 7), ("funct3", record.funct3, 3), ("funct7", record.funct7, 7)]
  fields.findSome? fun (field, value?, bits) =>
    match value? with
    | some value =>
        if value.toNat < Nat.pow 2 bits then none
        else some (.fieldWidth record.mnemonic field value bits)
    | none => none

end Record

/-! ## The index -/

/-- Records by position, by name and by category. -/
structure CatalogIndex where
  entries : List Record := []
  /-- Where the record of an upper-cased mnemonic stands. -/
  positions : Table String Nat := ∅
  /-- The records of a category, in the order of the entries. -/
  groups : Table Category (List Record) := ∅

namespace CatalogIndex

def inCategory (index : CatalogIndex) (category : Category) : List Record :=
  (index.groups.find? category).getD []

def find? (index : CatalogIndex) (name : String) : Option Record :=
  (index.positions.find? name.toUpper).bind (index.entries[·]?)

/-- One more record, after the others. -/
def add (index : CatalogIndex) (record : Record) : CatalogIndex where
  entries := index.entries ++ [record]
  positions := index.positions.insert record.mnemonic.toUpper index.entries.length
  groups := index.groups.insert record.category (index.inCategory record.category ++ [record])

def ofRecords (records : List Record) : CatalogIndex := records.foldl add {}

end CatalogIndex

/-! ## The catalog -/

/-- Records by position, looked up by mnemonic and by category. -/
structure Catalog where
  records : List Record
  deriving DecidableEq, Repr

namespace Catalog

/-- The first fault of `records`, of which `seen` (upper-cased mnemonics) came before. -/
def fault? : List String → List Record → Option CatalogError
  | _, [] => none
  | seen, record :: rest =>
      match record.widthFault? with
      | some fault => some fault
      | none =>
          if seen.contains record.mnemonic.toUpper then some (.duplicateMnemonic record.mnemonic)
          else fault? (record.mnemonic.toUpper :: seen) rest

def ofRecords (records : List Record) : Except CatalogError Catalog :=
  match fault? [] records with
  | some fault => .error fault
  | none => .ok ⟨records⟩

def index (catalog : Catalog) : CatalogIndex := .ofRecords catalog.records

/-- The record of that name, ASCII case ignored. -/
def find? (catalog : Catalog) (name : String) : Option Record := catalog.index.find? name

/-- The records of one category, in catalog order. -/
def inCategory (catalog : Catalog) (category : Category) : List Record :=
  catalog.index.inCategory category

/-- The catalog's `ADDI`, or the built-in one if it has none. -/
def fallback (catalog : Catalog) : Record := (catalog.find? "ADDI").getD .addi

end Catalog

end Rv32Stimulus
