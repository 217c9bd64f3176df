/-
# Synthesis.Draft -- filling the operands of an instruction

An instruction is drawn from a record by filling the roles of its pattern in their
order, a repeated role twice.  A draft carries the number of backward targets drawn so
far from instruction to instruction.  A role without a generator stays unfilled.
-/
import Rv32Stimulus.Control.Target
import Rv32Stimulus.Instruction.Basic
import Rv32Stimulus.Synthesis.Operand
import Rv32Stimulus.Synthesis.WeightClass

namespace Rv32Stimulus

set_option autoImplicit false

open Rv32Stimulus.Random

/-- Where an instruction is made: a position, and the length of the program. -/
structure Site where
  index : Nat
  length : Nat
  deriving DecidableEq, Repr

/-- An instruction in the making, and how many targets so far lie backward. -/
structure Draft where
  inst : Instruction
  backward : UInt32
  deriving DecidableEq, Repr

/-- The operand of a fence that orders everything before it with everything after. -/
def fullFence : Int32 := 0xff

namespace Draft

/-- The destination register; jumps that link have a preference. -/
def destination (draft : Draft) (profile : Profile) : Draw UInt8 :=
  if draft.inst.record.isCalled "JAL" then profile.registers.link else Draw.register

/-- Fill one role. -/
def fill (profile : Profile) (site : Site) (draft : Draft) : Role → Draw Draft
  | .rd => do
      let rd ← draft.destination profile
      return { draft with inst.rd := some rd }
  | .rs1 => do
      let rs1 ← Draw.register
      return { draft with inst.rs1 := some rs1 }
  | .rs2 => do
      let rs2 ← Draw.register
      return { draft with inst.rs2 := some rs2 }
  | .imm => do
      let imm ← profile.immediates.arithmetic.immediate
      return { draft with inst.imm := some imm }
  | .shamt => do
      let shamt ← Draw.between 0 31
      return { draft with inst.shamt := some (.ofNat shamt.toNat) }
  | .imm20 => do
      let imm ← profile.immediates.upper.immediate
      return { draft with inst.imm := some imm }
  | .memory => do
      let rs1 ← profile.registers.base
      let imm ← profile.immediates.memory.offset
      return { draft with inst.rs1 := some rs1, inst.imm := some imm }
  | .label => do
      let choice ← profile.chooseTarget draft.backward site.index site.length
      return { inst := { draft.inst with target := some choice.target }, backward := choice.backward }
  | .predSucc => return { draft with inst.imm := some fullFence }
  | .unsupported => return draft

end Draft

/-- A fresh instruction at `site`, after `backward` backward targets. -/
def synthesize (catalog : Catalog) (profile : Profile) (site : Site) (backward : UInt32) :
    Draw Draft := do
  let record ← catalog.chooseRecord profile.weights
  record.pattern.foldlM (Draft.fill profile site) ⟨{ record }, backward⟩

end Rv32Stimulus
