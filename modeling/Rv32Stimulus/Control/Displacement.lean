/-
# Control.Displacement -- from targets to byte displacements

The displacement from one position to another is four bytes for each position between.
`resolve` writes it into the immediate of every instruction with a target; where the
format cannot carry it, the instruction goes to its successor instead.
`outOfReach` counts the instructions of that kind.
-/
import Rv32Stimulus.Control.Target
import Rv32Stimulus.Instruction.Basic

namespace Rv32Stimulus

set_option autoImplicit false

/-- Bytes from `position` to `target`. -/
def displacement (position target : Nat) : Int := wordBytes * ((target : Int) - position)

namespace Instruction

/-- Whether the instruction, standing at `position`, has a target its format cannot reach. -/
def isOutOfReach (inst : Instruction) (position : Nat) : Bool :=
  match inst.target with
  | some target => !inst.record.format.admits (displacement position target)
  | none => false

/-- The instruction at `position` with the displacement to its target; the successor's
displacement if the target is out of reach. -/
def resolvedAt (inst : Instruction) (position : Nat) : Instruction :=
  match inst.target with
  | some target =>
      let bytes := displacement position target
      { inst with
        imm := some (.ofInt (if inst.record.format.admits bytes then bytes else wordBytes)) }
  | none => inst

end Instruction

def resolve (sequence : List Instruction) : List Instruction :=
  sequence.mapIdx fun position inst => inst.resolvedAt position

/-- How many instructions have a target they cannot reach. -/
def outOfReach (sequence : List Instruction) : Nat :=
  sequence.zipIdx.countP fun (inst, position) => inst.isOutOfReach position

example : displacement 3 1 = -8 := by decide

end Rv32Stimulus
