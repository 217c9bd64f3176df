/-
# Proofs.Isa.Coherent -- records whose pattern suits their format

`Record.has` says which operands a word under the record's format and kind has a field for.
A record is coherent if its format has a field for every role of its pattern, no two
different roles share the immediate, and a record without operands has the plain
I format.  Every record of the base set is coherent, and so is every record that agrees with
one of them in format, kind and pattern.
-/
import Rv32Stimulus.Isa.Base

namespace Rv32Stimulus

set_option autoImplicit false

/-- Whether the operand of the role is the immediate, or has it as a part. -/
def Role.takesImmediate : Role → Bool
  | imm | imm20 | label | memory | predSucc => true
  | _ => false

namespace Record

/-- Whether the word has a field for the operand of the role. -/
def has (record : Record) : Role → Bool
  | .rd => [.r, .i, .u, .j].contains record.format
  | .rs1 => [.r, .i, .s, .b].contains record.format
  | .rs2 => [.r, .s, .b].contains record.format
  | .shamt => record.format = .i ∧ record.kind = .shift
  | .imm | .predSucc => record.format = .i ∧ record.kind ≠ .shift
  | .memory => record.format = .i ∧ record.kind ≠ .shift ∨ record.format = .s
  | .imm20 => record.format = .u
  | .label => record.format = .b ∨ record.format = .j
  | .unsupported => false

def hasFunct3 (record : Record) : Bool := [.r, .i, .s, .b].contains record.format

def hasFunct7 (record : Record) : Bool :=
  record.format = .r ∨ record.format = .i ∧ record.kind = .shift

/-- Every role has a field, the immediate has one owner, and without operands the format is I. -/
def Coherent (record : Record) : Prop :=
  (∀ role ∈ record.pattern, record.has role) ∧
    (∀ role ∈ record.pattern, ∀ other ∈ record.pattern,
      role.takesImmediate → other.takesImmediate → role = other) ∧
    (record.pattern = [] → record.format = .i ∧ record.kind ≠ .shift)

instance (record : Record) : Decidable record.Coherent :=
  inferInstanceAs (Decidable ((∀ role ∈ record.pattern, record.has role) ∧
    (∀ role ∈ record.pattern, ∀ other ∈ record.pattern,
      role.takesImmediate → other.takesImmediate → role = other) ∧
    (record.pattern = [] → record.format = .i ∧ record.kind ≠ .shift)))

namespace Coherent

variable {record : Record}

theorem room (coherent : record.Coherent) : ∀ role ∈ record.pattern, record.has role :=
  coherent.1

theorem owner (coherent : record.Coherent) {role other : Role} (member : role ∈ record.pattern)
    (otherMember : other ∈ record.pattern) (takes : role.takesImmediate)
    (otherTakes : other.takesImmediate) : role = other :=
  coherent.2.1 role member other otherMember takes otherTakes

theorem plain (coherent : record.Coherent) (bare : record.pattern = []) :
    record.format = .i ∧ record.kind ≠ .shift :=
  coherent.2.2 bare

theorem supported (coherent : record.Coherent) : record.format ≠ .unsupported := by
  intro unsupported
  cases roles : record.pattern with
  | nil => exact absurd ((coherent.plain roles).1.symm.trans unsupported) nofun
  | cons role rest =>
      have room := coherent.room role (roles ▸ List.mem_cons_self)
      cases role <;> simp [has, unsupported] at room

end Coherent

/-- Format, immediate kind and pattern are those of a record of the base set. -/
def FollowsBase (record : Record) : Prop :=
  ∃ base ∈ Base.records,
    record.format = base.format ∧ record.kind = base.kind ∧ record.pattern = base.pattern

instance (record : Record) : Decidable record.FollowsBase :=
  inferInstanceAs (Decidable (∃ base ∈ Base.records,
    record.format = base.format ∧ record.kind = base.kind ∧ record.pattern = base.pattern))

theorem coherent_of_mem_base : ∀ record ∈ Base.records, record.Coherent := by decide

theorem FollowsBase.coherent {record : Record} (follows : record.FollowsBase) :
    record.Coherent := by
  obtain ⟨base, member, format, kind, pattern⟩ := follows
  have same : record.has = base.has := by
    funext role
    cases role <;> simp only [has, format, kind]
  have coherent := coherent_of_mem_base base member
  unfold Coherent at coherent ⊢
  rw [format, kind, pattern, same]
  exact coherent

theorem followsBase_addi : addi.FollowsBase := by decide

end Record

end Rv32Stimulus
