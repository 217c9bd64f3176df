/-
# Proofs.Instruction.Operands -- which operands an instruction has, and how large

`Populated roles` says that exactly the operands that `roles` call for are there,
`Fits roles` that each lies where its role puts it, and `Lands site` that a target is a
position of the program.  None looks at the label, the word or the text of an instruction.
-/
import Rv32Stimulus.Proofs.Synthesis.Operand
import Rv32Stimulus.Synthesis.Draft

namespace Rv32Stimulus

set_option autoImplicit false

namespace Role

/-- Whether synthesis fills the immediate for the role; a label gets its own later. -/
def setsImmediate : Role → Bool
  | imm | imm20 | memory | predSucc => true
  | _ => false

/-- The immediates that synthesis may give the role. -/
def Admits : Role → Int32 → Prop
  | imm, value => IsImmediate value
  | memory, value => IsImmediate value
  | imm20, value => IsUpper value
  | predSucc, value => value = fullFence
  | _, _ => False

end Role

namespace Instruction

/-- Exactly the operands that the roles call for are there. -/
structure Populated (roles : List Role) (inst : Instruction) : Prop where
  rd : inst.rd.isSome ↔ .rd ∈ roles
  rs1 : inst.rs1.isSome ↔ .rs1 ∈ roles ∨ .memory ∈ roles
  rs2 : inst.rs2.isSome ↔ .rs2 ∈ roles
  imm : inst.imm.isSome ↔ ∃ role ∈ roles, role.setsImmediate
  shamt : inst.shamt.isSome ↔ .shamt ∈ roles
  target : inst.target.isSome ↔ .label ∈ roles

/-- Registers and amounts are below 32, and the immediate is one that some role admits. -/
structure Fits (roles : List Role) (inst : Instruction) : Prop where
  rd : ∀ register, inst.rd = some register → register.toNat < 32
  rs1 : ∀ register, inst.rs1 = some register → register.toNat < 32
  rs2 : ∀ register, inst.rs2 = some register → register.toNat < 32
  shamt : ∀ amount, inst.shamt = some amount → amount.toNat < 32
  imm : ∀ value, inst.imm = some value → ∃ role ∈ roles, role.Admits value

/-- A target is a position of the program; at the last position it is that position. -/
def Lands (site : Site) (inst : Instruction) : Prop :=
  ∀ target, inst.target = some target →
    target < site.length ∧ (site.length ≤ site.index + 1 → target = site.index)

end Instruction

end Rv32Stimulus
