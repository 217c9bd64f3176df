/-
# Control.Label -- names for the targets of branches and jumps

Every position that some instruction targets gets one name, `L` and the position in
decimal.  `labelTable` lists the targets of a sequence with their names, and
`withLabel` writes the name of its target into an instruction.
-/
import Rv32Stimulus.Instruction.Assembly

namespace Rv32Stimulus

set_option autoImplicit false

def labelName (position : Nat) : String := "L" ++ toString position

namespace Instruction

/-- The instruction with the name of its target, if it has a target. -/
def withLabel (inst : Instruction) : Instruction :=
  match inst.target with
  | some target => { inst with label := some (labelName target) }
  | none => inst

end Instruction

/-- The targets of the sequence and their names. -/
def labelTable (sequence : List Instruction) : LabelTable :=
  .ofList ((sequence.filterMap (·.target)).map fun target => (target, labelName target))

example : labelName 17 = "L17" := by decide +kernel

end Rv32Stimulus
