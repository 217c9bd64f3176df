/-
# Program.Listing -- a sequence as lines of text

The hexadecimal and the binary listing have one line for each word.  The assembly listing
has one line for each instruction, its text padded to a column and the word as a
comment; the name of a targeted position stands on a line before the instruction.
-/
import Rv32Stimulus.Instruction.Assembly

namespace Rv32Stimulus

set_option autoImplicit false

/-- How many characters the text of an instruction fills at least. -/
def textColumn : Nat := 30

/-- `content` with blanks up to `width` characters; longer text stays as it is. -/
def padded (width : Nat) (content : String) : String :=
  content ++ String.ofList (List.replicate (width - content.length) ' ')

namespace Listing

def hex (sequence : List Instruction) : List String :=
  sequence.map fun inst => Text.hexWord inst.word

def binary (sequence : List Instruction) : List String :=
  sequence.map fun inst => Text.binaryWord inst.word

def labelLine (name : String) : String := name ++ ":"

def instructionLine (inst : Instruction) : String :=
  "    " ++ padded textColumn inst.text ++ "  # 0x" ++ Text.hexWord inst.word

/-- The lines of the instruction at `position`. -/
def linesAt (labels : LabelTable) (inst : Instruction) (position : Nat) : List String :=
  match labels.find? position with
  | some name => [labelLine name, instructionLine inst]
  | none => [instructionLine inst]

def assembly (sequence : List Instruction) (labels : LabelTable) : List String :=
  sequence.zipIdx.flatMap fun (inst, position) => linesAt labels inst position

end Listing

example : Listing.instructionLine { Instruction.nop with text := "nop", word := .nop } =
    "    nop                             # 0x00000013" := by decide +kernel

end Rv32Stimulus
