/-
# Command.Outputs -- the four files of a program

The assembly source with its header, the words in hexadecimal and in binary, and the
manifest.  Every line of the first three ends in a line feed; the manifest's last line
does not.
-/
import Rv32Stimulus.Command.Files
import Rv32Stimulus.Program.Basic

namespace Rv32Stimulus

set_option autoImplicit false

/-- Lines as a text, each with its line end. -/
def linesText (lines : List String) : String := String.join (lines.map (· ++ "\n"))

namespace Program

/-- The assembly source: a header, the entry point, and the listing. -/
def sourceLines (program : Program) : List String :=
  let manifest := program.manifest
  [ "# Auto-generated RISC-V RV32I test",
    "# Generated: " ++ manifest.timestamp.getD "unknown",
    "# Seed: " ++ toString manifest.seed.toNat,
    "# Instructions: " ++ toString manifest.length,
    "",
    ".text",
    ".globl _start",
    "_start:" ] ++
    program.assembly ++ ["", "# End of test"]

end Program

namespace Command

/-- A file to write, and whether a failure to make it is told from one to fill it. -/
structure Output where
  path : String
  content : String
  tellsCreation : Bool
  deriving DecidableEq, Repr

/-- The files of a program, in the order in which they are written. -/
def outputs (program : Program) (directory stem : String) : List Output :=
  [ ⟨joinPath directory (stem ++ ".S"), linesText program.sourceLines, true⟩,
    ⟨joinPath directory (stem ++ ".hex"), linesText program.hex, true⟩,
    ⟨joinPath directory (stem ++ ".bin"), linesText program.binary, true⟩,
    ⟨joinPath directory (stem ++ "_manifest.json"), program.manifest.text, false⟩ ]

end Command

end Rv32Stimulus
