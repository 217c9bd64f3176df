/-
# Program.Basic -- a finished program

A program is its instructions, the names of its targets and its manifest; every listing is
made from these.
-/
import Rv32Stimulus.Program.Listing
import Rv32Stimulus.Program.Manifest

namespace Rv32Stimulus

set_option autoImplicit false

structure Program where
  instructions : List Instruction
  labels : LabelTable
  manifest : Manifest
  deriving DecidableEq

namespace Program

def length (program : Program) : Nat := program.instructions.length

def isEmpty (program : Program) : Bool := program.instructions.isEmpty

def words (program : Program) : List Word := program.instructions.map (·.word)

/-- The assembly listing. -/
def assembly (program : Program) : List String :=
  Listing.assembly program.instructions program.labels

/-- The hexadecimal listing. -/
def hex (program : Program) : List String := Listing.hex program.instructions

/-- The binary listing. -/
def binary (program : Program) : List String := Listing.binary program.instructions

/-- The program with the time of writing in its manifest. -/
def withTimestamp (program : Program) (time : String) : Program :=
  { program with manifest := program.manifest.withTimestamp time }

end Program

end Rv32Stimulus
