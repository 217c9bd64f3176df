/-
# Json.Pretty -- trees as indented text

Every member and item stands on a line of its own, two blanks further in than the
brackets around it; an empty array or object is just its brackets.  In texts only
the quote, the backslash and control characters below `0x20` are escaped.  What a tree
cannot hold as JSON (`broken`, a text without content) is written `null`.
-/
import Rv32Stimulus.Json.Tree

namespace Rv32Stimulus.Json

set_option autoImplicit false

/-- A control character by number. -/
def unitEscape (char : Char) : List Char := '\\' :: 'u' :: Text.lastDigits 16 4 char.toNat

def escapedChar (char : Char) : List Char :=
  match char with
  | '"' => ['\\', '"']
  | '\\' => ['\\', '\\']
  | '\x08' => ['\\', 'b']
  | '\x0c' => ['\\', 'f']
  | '\n' => ['\\', 'n']
  | '\r' => ['\\', 'r']
  | '\t' => ['\\', 't']
  | char => if char.toNat < 0x20 then unitEscape char else [char]

/-- A text with its quotes. -/
def quotedText (content : String) : List Char :=
  '"' :: content.toList.flatMap escapedChar ++ ['"']

/-- A new line at a depth. -/
def lineAt (depth : Nat) : List Char := '\n' :: List.replicate (2 * depth) ' '

mutual

def prettyChars (depth : Nat) : Json → List Char
  | .null => "null".toList
  | .bool value => (if value then "true" else "false").toList
  | .number value => value.chars
  | .string (some content) => quotedText content
  | .string none => "null".toList
  | .array [] => ['[', ']']
  | .array (item :: items) =>
      '[' :: (prettyItems (depth + 1) (item :: items) ++ lineAt depth ++ [']'])
  | .object [] => ['\x7b', '\x7d']
  | .object (member :: members) =>
      '\x7b' :: (prettyMembers (depth + 1) (member :: members) ++ lineAt depth ++ ['\x7d'])
  | .broken => "null".toList

def prettyItems (depth : Nat) : List Json → List Char
  | [] => []
  | [item] => lineAt depth ++ prettyChars depth item
  | item :: rest => lineAt depth ++ prettyChars depth item ++ ',' :: prettyItems depth rest

def prettyMembers (depth : Nat) : List (Json × Json) → List Char
  | [] => []
  | [(name, value)] =>
      lineAt depth ++ prettyChars depth name ++ ':' :: ' ' :: prettyChars depth value
  | (name, value) :: rest =>
      lineAt depth ++ prettyChars depth name ++ ':' :: ' ' :: prettyChars depth value ++
        ',' :: prettyMembers depth rest

end

/-- The indented text of a tree, without a line end after it. -/
def pretty (tree : Json) : String := String.ofList (prettyChars 0 tree)

example : quotedText "a\"\x01" = "\"a\\\"\\u0001\"".toList := by decide +kernel
example : (Json.fields [("a", .array [.null])]).pretty =
    "\x7b\n  \"a\": [\n    null\n  ]\n\x7d" := by decide +kernel

end Rv32Stimulus.Json
