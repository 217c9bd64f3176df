/-
# Proofs.Instruction.Identity -- which base instruction a word or a text belongs to

The records of the base set differ in the fields that a word carries whatever the operands are
(`Record.eq_of_overlaps`), with two exceptions.  `ECALL` and `EBREAK` have the same fields, but
their words differ in the immediate, which the mnemonic decides.  `NOP` is an `ADDI`.
So a word belongs to one record, or to these two (`Instruction.record_eq_of_pack_eq`).

A text begins with the mnemonic, and the first blank ends it: a text belongs to
one record (`Instruction.record_eq_of_assembly_eq`).
-/
import Mathlib.Data.List.TakeWhile
import Rv32Stimulus.Instruction.Assembly
import Rv32Stimulus.Proofs.Instruction.Faithful
import Rv32Stimulus.Proofs.Text.Reading

namespace Rv32Stimulus

set_option autoImplicit false

/-! ## The base set -/

namespace Record

/-- No fixed field that both have tells the records apart. -/
def Overlaps (record other : Record) : Prop :=
  record.opcodeField = other.opcodeField ∧
    (record.hasFunct3 → other.hasFunct3 → record.funct3Field = other.funct3Field) ∧
    (record.hasFunct7 → other.hasFunct7 → record.funct7Field = other.funct7Field)

instance (record other : Record) : Decidable (record.Overlaps other) :=
  inferInstanceAs (Decidable (_ ∧ _ ∧ _))

/-- One is the no-operation, the other the sum that it is. -/
def NopPair (record other : Record) : Prop :=
  record.mnemonic = "NOP" ∧ other.mnemonic = "ADDI"

instance (record other : Record) : Decidable (record.NopPair other) :=
  inferInstanceAs (Decidable (_ ∧ _))

/-- One calls the system, the other the debugger. -/
def SystemPair (record other : Record) : Prop :=
  record.mnemonic = "ECALL" ∧ other.mnemonic = "EBREAK"

instance (record other : Record) : Decidable (record.SystemPair other) :=
  inferInstanceAs (Decidable (_ ∧ _))

theorem eq_of_overlaps : ∀ record ∈ Base.records, ∀ other ∈ Base.records, record.Overlaps other →
    record = other ∨ (record.NopPair other ∨ other.NopPair record) ∨
      record.SystemPair other ∨ other.SystemPair record := by
  decide +kernel

theorem eq_of_toLower_eq : ∀ record ∈ Base.records, ∀ other ∈ Base.records,
    record.mnemonic.toLower = other.mnemonic.toLower → record = other := by
  decide +kernel

theorem blank_notMem_toLower : ∀ record ∈ Base.records, ' ' ∉ record.mnemonic.toLower.toList := by
  decide +kernel

/-- The mnemonics that are written without operands have at most the operand of a full fence, and no
other mnemonic has it. -/
theorem bare_iff_predSucc : ∀ record ∈ Base.records, ∀ role ∈ record.pattern,
    record.mnemonic.toLower ∈ Instruction.bareMnemonics ↔ role = .predSucc := by
  decide +kernel

theorem bareSystem_of_mem_base : ∀ record ∈ Base.records, record.BareSystem := by
  unfold BareSystem
  decide +kernel

theorem plain_of_system : ∀ record ∈ Base.records, record.mnemonic = "ECALL" ∨
    record.mnemonic = "EBREAK" → record.format = .i ∧ record.kind = .none := by
  decide +kernel

theorem eq_addi_of_mem_base : ∀ record ∈ Base.records, record.mnemonic = "ADDI" → record = addi := by
  decide +kernel

theorem nop_of_mem_base : ∀ record ∈ Base.records, record.mnemonic = "NOP" →
    record.pattern = [] ∧ ({ record } : Instruction).pack = Word.nop := by
  decide +kernel

end Record

/-! ## Words -/

namespace Instruction

variable {inst other : Instruction}

theorem opcode_pack (supported : inst.record.format ≠ .unsupported) :
    inst.pack.opcode = inst.record.opcodeField := by
  have read := congrArg Fields.opcode inst.fields_pack
  rw [carried, if_neg supported] at read
  refine Eq.trans ?_ read
  cases inst.record.format <;> cases inst.record.kind <;> rfl

theorem funct3_pack (present : inst.record.hasFunct3) :
    inst.pack.funct3 = inst.record.funct3Field := by
  have read := congrArg Fields.funct3 inst.fields_pack
  rw [carried, if_pos present] at read
  refine Option.some.inj (Eq.trans ?_ read)
  unfold Record.hasFunct3 at present
  cases format : inst.record.format <;> cases inst.record.kind <;>
    simp [format, Word.fields] at present ⊢

theorem funct7_pack (present : inst.record.hasFunct7) :
    inst.pack.funct7 = inst.record.funct7Field := by
  have read := congrArg Fields.funct7 inst.fields_pack
  rw [carried, if_pos present] at read
  refine Option.some.inj (Eq.trans ?_ read)
  unfold Record.hasFunct7 at present
  cases format : inst.record.format <;> cases kind : inst.record.kind <;>
    simp [format, kind, Word.fields] at present ⊢

theorem overlaps_of_pack_eq (supported : inst.record.format ≠ .unsupported)
    (otherSupported : other.record.format ≠ .unsupported) (same : inst.pack = other.pack) :
    inst.record.Overlaps other.record := by
  refine ⟨?_, ?_, ?_⟩
  · rw [← opcode_pack supported, ← opcode_pack otherSupported, same]
  · intro present otherPresent
    rw [← funct3_pack present, ← funct3_pack otherPresent, same]
  · intro present otherPresent
    rw [← funct7_pack present, ← funct7_pack otherPresent, same]

/-- The immediate tells the two system calls apart. -/
theorem pack_ne_of_systemPair (known : inst.record ∈ Base.records)
    (otherKnown : other.record ∈ Base.records) (pair : inst.record.SystemPair other.record) :
    inst.pack ≠ other.pack := by
  intro same
  obtain ⟨call, stop⟩ := pair
  obtain ⟨format, kind⟩ := Record.plain_of_system _ known (.inl call)
  obtain ⟨otherFormat, otherKind⟩ := Record.plain_of_system _ otherKnown (.inr stop)
  have fields : inst.carried = other.carried := by
    rw [← fields_pack, ← fields_pack, same, format, kind, otherFormat, otherKind]
  have zero : inst.carriedImm? = some 0 := by
    have system : inst.systemImmediate? = some 0 := by
      unfold systemImmediate? Record.isCalled
      rw [call]
      decide +kernel
    rw [carriedImm?_of_plain format (by rw [kind]; decide), system]
    rfl
  have one : other.carriedImm? = some 1 := by
    have system : other.systemImmediate? = some 1 := by
      unfold systemImmediate? Record.isCalled
      rw [stop]
      decide +kernel
    rw [carriedImm?_of_plain otherFormat (by rw [otherKind]; decide), system]
    rfl
  have immediates : inst.carriedImm? = other.carriedImm? := congrArg Fields.imm fields
  rw [zero, one] at immediates
  cases immediates

/-- Base instructions with the same word, whatever their operands, have the same record, or one is the
no-operation and the other a sum. -/
theorem record_eq_of_pack_eq (known : inst.record ∈ Base.records)
    (otherKnown : other.record ∈ Base.records) (same : inst.pack = other.pack) :
    inst.record = other.record ∨ inst.record.NopPair other.record ∨
      other.record.NopPair inst.record := by
  have supported := (Record.coherent_of_mem_base _ known).supported
  have otherSupported := (Record.coherent_of_mem_base _ otherKnown).supported
  have overlaps := overlaps_of_pack_eq supported otherSupported same
  -- the fixed fields leave two pairs open, and only the system calls differ elsewhere
  rcases Record.eq_of_overlaps _ known _ otherKnown overlaps with record | nops | system | system
  · exact .inl record
  · exact .inr nops
  · exact absurd same (pack_ne_of_systemPair known otherKnown system)
  · exact absurd same.symm (pack_ne_of_systemPair otherKnown known system)

/-! ## Texts -/

/-- Of the text, the part before the first blank is the mnemonic. -/
theorem takeWhile_assembly (labels : LabelTable)
    (clear : ' ' ∉ inst.record.mnemonic.toLower.toList) :
    (inst.assembly labels).toList.takeWhile (· != ' ') = inst.record.mnemonic.toLower.toList := by
  have all : ∀ char ∈ inst.record.mnemonic.toLower.toList, (char != ' ') = true := by
    intro char member
    exact bne_iff_ne.2 fun blank => clear (blank ▸ member)
  unfold assembly
  dsimp only
  split
  · exact List.takeWhile_eq_self_iff.2 all
  · split
    · exact List.takeWhile_eq_self_iff.2 all
    · simp only [String.toList_append, List.append_assoc]
      rw [List.takeWhile_append_of_pos all]
      simp

theorem record_eq_of_assembly_eq {labels : LabelTable} (known : inst.record ∈ Base.records)
    (otherKnown : other.record ∈ Base.records)
    (same : inst.assembly labels = other.assembly labels) : inst.record = other.record := by
  apply Record.eq_of_toLower_eq _ known _ otherKnown
  apply String.toList_injective
  rw [← takeWhile_assembly labels (Record.blank_notMem_toLower _ known),
    ← takeWhile_assembly labels (Record.blank_notMem_toLower _ otherKnown), same]

end Instruction

end Rv32Stimulus
