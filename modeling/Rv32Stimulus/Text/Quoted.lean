/-
# Text.Quoted -- a text in double quotes, with everything visible

Quotes, backslashes and the common control characters are written with a backslash,
other characters that do not show by themselves by their number in braces.
-/
import Rv32Stimulus.Text.Digits
import Rv32Stimulus.Text.Unseen

namespace Rv32Stimulus.Text

set_option autoImplicit false

def quotedChar : Char → List Char
  | '\x00' => ['\\', '0']
  | '\t' => ['\\', 't']
  | '\r' => ['\\', 'r']
  | '\n' => ['\\', 'n']
  | '\\' => ['\\', '\\']
  | '"' => ['\\', '"']
  | char =>
      if isUnseen char then ['\\', 'u', '\x7b'] ++ digits 16 char.toNat ++ ['\x7d'] else [char]

def quoted (content : String) : String :=
  String.ofList ('"' :: content.toList.flatMap quotedChar ++ ['"'])

example : quoted "a\"b" = "\"a\\\"b\"" := by decide +kernel

end Rv32Stimulus.Text
