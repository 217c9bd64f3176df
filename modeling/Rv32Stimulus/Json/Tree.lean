/-
# Json.Tree -- a JSON text as read, up to where it stops being JSON

A `Json` shows what a text holds, in the order of the text.  Where the text stops
being JSON the tree has the leaf `broken`; whatever needs that place fails there, and
whatever is decided before does not see it.  So a reader of trees finds the first
problem of a text in its order.

Two things keep more than their meaning.  A number is a numeral, since a reader of
integers tells `1` from `1.0`.  A text whose escapes name half of a surrogate pair
has no content (`string none`): it may be passed over but not read.  A member of an
object whose name is not a text keeps what stands there and is `broken`.
-/
import Rv32Stimulus.Decimal.Value

namespace Rv32Stimulus

set_option autoImplicit false

open Decimal (Numeral)

inductive Json where
  | null
  | bool (value : Bool)
  | number (value : Numeral)
  | string (content : Option String)
  | array (items : List Json)
  | object (members : List (Json × Json))
  /-- The text stops being JSON here. -/
  | broken

namespace Json

def text (content : String) : Json := .string (some content)

def int (value : Int) : Json := .number (.ofInt value)

/-- A double; one that is not finite has no numeral and is written `null`. -/
def float (value : Float) : Json :=
  match Decimal.Layout.json.ofFloat? value with
  | some numeral => .number numeral
  | none => .null

def fields (members : List (String × Json)) : Json :=
  .object (members.map fun (name, value) => (text name, value))

/-! ## What may be passed over, and what can be read in full -/

mutual

/-- No `broken` inside: the value can be passed over. -/
def isComplete : Json → Bool
  | .broken => false
  | .array items => areComplete items
  | .object members => membersComplete members
  | _ => true

def areComplete : List Json → Bool
  | [] => true
  | item :: rest => isComplete item && areComplete rest

def membersComplete : List (Json × Json) → Bool
  | [] => true
  | (name, value) :: rest => isComplete name && isComplete value && membersComplete rest

end

mutual

/-- Every text has its content, every number is in range, and arrays and objects
are nested less than `depth` deep. -/
def isReadable (depth : Nat) : Json → Bool
  | .broken => false
  | .string content => content.isSome
  | .number numeral => !numeral.toFloat.isInf
  | .array items =>
      match depth with
      | 0 | 1 => false
      | depth + 1 => areReadable depth items
  | .object members =>
      match depth with
      | 0 | 1 => false
      | depth + 1 => membersReadable depth members
  | _ => true

def areReadable (depth : Nat) : List Json → Bool
  | [] => true
  | item :: rest => isReadable depth item && areReadable depth rest

def membersReadable (depth : Nat) : List (Json × Json) → Bool
  | [] => true
  | (name, value) :: rest =>
      isReadable depth name && isReadable depth value && membersReadable depth rest

end

end Json

end Rv32Stimulus
