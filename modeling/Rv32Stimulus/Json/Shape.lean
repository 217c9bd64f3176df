/-
# Json.Shape -- readers of structures

A structure is written as an object, in any order of its members and with unknown
members passed over, or as an array of its fields in the order of their declaration.
A `Shape` declares the fields of a structure once, in that order, each with its reader
and perhaps a default.

An object is read in two steps.  `members` goes through it in the order of the text:
every name must be a text, a declared name may not come twice, the value of a declared
name must be readable and every other value complete.  Then each field is taken by
name, so a missing field shows only if all members are in order.  An array is read
field by field; only fields with a default may be absent at its end, and the length
reported for another is the number of fields before it.
-/
import Rv32Stimulus.Json.Read

namespace Rv32Stimulus.Json

set_option autoImplicit false

/-- Where the fields of a structure are taken from. -/
inductive Source where
  | named (members : List (String × Json))
  /-- Items not yet taken, after `index` fields; `expected` names the structure. -/
  | positional (expected : String) (index : Nat) (items : List Json)

/-- Declared fields, and how the structure is made from them. -/
structure Shape (α : Type) where
  fields : List (String × (Json → Except Problem Unit))
  take : Source → Except Problem (α × Source)

namespace Shape

/-! ## Declaring fields -/

/-- A structure without fields. -/
def of {α : Type} (value : α) : Shape α := ⟨[], fun source => .ok (value, source)⟩

/-- The next item, or `absent` at the end. -/
def next {α : Type} (reader : Reader α) (absent : Except Problem α) (expected : String) (index : Nat) :
    List Json → Except Problem (α × Source)
  | [] => do .ok (← absent, .positional expected (index + 1) [])
  | item :: items => do .ok (← reader item, .positional expected (index + 1) items)

def field {α : Type} (name : String) (reader : Reader α) : Shape α where
  fields := [(name, fun tree => discard (reader tree))]
  take
    | .named members => do
        match members.lookup name with
        | some tree => .ok (← reader tree, .named members)
        | none => .error (.missingField name)
    | .positional expected index items =>
        next reader (.error (.invalidLength index expected)) expected index items

/-- A field that is `default` where it is absent. -/
def fieldOr {α : Type} (default : α) (name : String) (reader : Reader α) : Shape α where
  fields := [(name, fun tree => discard (reader tree))]
  take
    | .named members => do
        match members.lookup name with
        | some tree => .ok (← reader tree, .named members)
        | none => .ok (default, .named members)
    | .positional expected index items => next reader (.ok default) expected index items

instance : Functor Shape where
  map f shape := ⟨shape.fields, fun source => do
    let (value, source) ← shape.take source
    .ok (f value, source)⟩

instance : Seq Shape where
  seq left right := ⟨left.fields ++ (right ()).fields, fun source => do
    let (f, source) ← left.take source
    let (value, source) ← (right ()).take source
    .ok (f value, source)⟩

/-! ## Reading -/

/-- The members of an object, checked in order; `seen` are the declared names that came before. -/
def members {α : Type} (shape : Shape α) :
    List String → List (Json × Json) → Except Problem (List (String × Json))
  | _, [] => .ok []
  | seen, (name, value) :: rest => do
      let name ← match name with
        | .string (some name) => .ok name
        | _ => .error .notJson
      match shape.fields.lookup name with
      | some check =>
          if seen.contains name then .error (.duplicateField name)
          else
            check value
            let rest ← members shape (name :: seen) rest
            .ok ((name, value) :: rest)
      | none =>
          if value.isComplete then
            let rest ← members shape seen rest
            .ok ((name, value) :: rest)
          else .error .notJson

/-- The structure `name` as problems call it, with the number of its fields. -/
def expected {α : Type} (shape : Shape α) (name : String) : String :=
  let count := shape.fields.length
  name ++ " with " ++ toString count ++ (if count = 1 then " element" else " elements")

/-- Read a structure that problems call `name`. -/
def reader {α : Type} (shape : Shape α) (name : String) : Reader α
  | .object entries => do
      let (value, _) ← shape.take (.named (← shape.members [] entries))
      .ok value
  | .array items => do
      match ← shape.take (.positional (shape.expected name) 0 items) with
      | (value, .positional _ _ []) => .ok value
      | _ => .error .notJson
  | tree => .error (mismatch name tree)

end Shape

end Rv32Stimulus.Json
