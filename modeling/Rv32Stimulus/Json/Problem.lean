/-
# Json.Problem -- why a document cannot be read

Either the text is not JSON where it had to be read (`notJson`), or it is JSON of the
wrong content.  `message?` words the second kind; the first kind has no wording of its
own.
-/
import Rv32Stimulus.Json.Tree
import Rv32Stimulus.Text.Quoted

namespace Rv32Stimulus.Json

set_option autoImplicit false

/-- What stands where something else was expected. -/
inductive Found where
  | null
  | bool (value : Bool)
  | integer (value : Int)
  | float (value : Float)
  | string (content : String)
  | sequence
  | map
  deriving DecidableEq

/-- Why a document cannot be read. -/
inductive Problem where
  | notJson
  | invalidType (found : Found) (expected : String)
  | invalidValue (found : Found) (expected : String)
  | invalidLength (given : Nat) (expected : String)
  | missingField (name : String)
  | duplicateField (name : String)
  | unknownVariant (name : String) (known : List String)
  /-- Neither a number nor a text where field bits stand. -/
  | noFieldBits
  | invalidFieldBits (content : String)
  | emptyOpcode
  deriving DecidableEq

def Found.text : Found → String
  | null => "null"
  | bool value => "boolean `" ++ (if value then "true" else "false") ++ "`"
  | integer value => "integer `" ++ toString value ++ "`"
  | float value =>
      let text := match Decimal.Layout.json.ofFloat? value with
        | some numeral => numeral.text
        | none => Decimal.messageText value
      "floating point `" ++ text ++ "`"
  | string content => "string " ++ Text.quoted content
  | sequence => "sequence"
  | map => "map"

def Problem.message? : Problem → Option String
  | notJson => none
  | invalidType found expected => some ("invalid type: " ++ found.text ++ ", expected " ++ expected)
  | invalidValue found expected => some ("invalid value: " ++ found.text ++ ", expected " ++ expected)
  | invalidLength given expected =>
      some ("invalid length " ++ toString given ++ ", expected " ++ expected)
  | missingField name => some ("missing field `" ++ name ++ "`")
  | duplicateField name => some ("duplicate field `" ++ name ++ "`")
  | unknownVariant name known =>
      some ("unknown variant `" ++ name ++ "`, expected one of " ++
        ", ".intercalate (known.map fun variant => "`" ++ variant ++ "`"))
  | noFieldBits => some "data did not match any variant of untagged enum FieldBits"
  | invalidFieldBits content => some ("invalid field value `" ++ content ++ "`")
  | emptyOpcode => some "opcode must not be empty"

end Rv32Stimulus.Json
