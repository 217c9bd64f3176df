/-
# Isa.CatalogText -- reading catalogs from documents

A catalog document is an array of records.  The document is read completely before the
records are checked, so a problem of the text comes before one of the catalog.
-/
import Rv32Stimulus.Isa.Catalog
import Rv32Stimulus.Isa.FieldBits
import Rv32Stimulus.Json.Shape

namespace Rv32Stimulus

set_option autoImplicit false

open Json (Reader Problem Shape)

def Category.read : Reader Category :=
  Json.readVariant fun name =>
    match Category.ofName? name with
    | some category => .ok category
    | none => .error (.unknownVariant name (Category.all.map Category.name))

namespace Record

/-- The fields of a record in a document, in their order. -/
def shape : Shape Record :=
  Shape.of Record.mk
    <*> .field "mnemonic" Json.readText
    <*> .field "format" (Json.readVariant fun name => .ok (.ofName name))
    <*> .field "category" Category.read
    <*> .field "opcode" FieldBits.readRequired
    <*> .fieldOr none "funct3" FieldBits.readOptional
    <*> .fieldOr none "funct7" FieldBits.readOptional
    <*> .field "operand_pattern" (Json.readList (Json.readVariant fun name => .ok (.ofName name)))
    <*> .fieldOr .plain "immed_kind" (Json.readVariant fun name => .ok (.ofName name))

def read : Reader Record := shape.reader "struct InstructionMetadata"

end Record

/-- Why a text is no catalog. -/
inductive CatalogTextError where
  | malformed (problem : Problem)
  | rejected (fault : CatalogError)
  deriving DecidableEq

def CatalogTextError.message? : CatalogTextError → Option String
  | malformed problem => problem.message?.map ("Malformed catalog document: " ++ ·)
  | rejected fault => some fault.message

/-- The catalog that a text describes. -/
def Catalog.ofText (content : String) : Except CatalogTextError Catalog :=
  match Json.document (Json.readList Record.read) content with
  | .error problem => .error (.malformed problem)
  | .ok records =>
      match Catalog.ofRecords records with
      | .error fault => .error (.rejected fault)
      | .ok catalog => .ok catalog

end Rv32Stimulus
