/-
# Proofs.Isa.Cover -- every bit of a word belongs to exactly one field

`Format.bits` lists, for each part of a decoded word, the bits that the part is made of.  Under a
supported format the lists together are the 32 bits, each once (`Format.perm_bits`), and two
words agree in a part exactly if they agree in its bits (`Word.agree_iff`).  Hence words with the
same fields are the same (`Word.eq_of_fields_eq`).
-/
import Rv32Stimulus.Proofs.Isa.Codec

namespace Rv32Stimulus

set_option autoImplicit false

/-! ## Which bits a part is made of -/

/-- The parts that a word is taken apart into. -/
inductive Part where
  | opcode
  | rd
  | funct3
  | rs1
  | rs2
  | funct7
  | shamt
  | imm
  deriving DecidableEq, Repr

def Part.all : List Part := [opcode, rd, funct3, rs1, rs2, funct7, shamt, imm]

/-- Both say the same of the part. -/
def Fields.Agree (left right : Fields) : Part → Prop
  | .opcode => left.opcode = right.opcode
  | .rd => left.rd = right.rd
  | .funct3 => left.funct3 = right.funct3
  | .rs1 => left.rs1 = right.rs1
  | .rs2 => left.rs2 = right.rs2
  | .funct7 => left.funct7 = right.funct7
  | .shamt => left.shamt = right.shamt
  | .imm => left.imm = right.imm

theorem Fields.eq_of_agree {left right : Fields} (agree : ∀ part, left.Agree right part) :
    left = right := by
  cases left
  cases right
  rw [Fields.mk.injEq]
  exact ⟨agree .opcode, agree .funct3, agree .funct7, agree .rd, agree .rs1, agree .rs2, agree .imm,
    agree .shamt⟩

/-- The bits of the word that make up the part, or none if the format lacks it.  The pieces of an
immediate stand in the order of their weight. -/
def Format.bits (format : Format) (kind : ImmediateKind) : Part → List Nat
  | .opcode => .range' 0 7
  | .rd =>
      match format with
      | .r | .i | .u | .j => .range' 7 5
      | .s | .b | .unsupported => []
  | .funct3 =>
      match format with
      | .r | .i | .s | .b => .range' 12 3
      | .u | .j | .unsupported => []
  | .rs1 =>
      match format with
      | .r | .i | .s | .b => .range' 15 5
      | .u | .j | .unsupported => []
  | .rs2 =>
      match format with
      | .r | .s | .b => .range' 20 5
      | .i | .u | .j | .unsupported => []
  | .funct7 =>
      match format, kind with
      | .r, _ | .i, .shift => .range' 25 7
      | _, _ => []
  | .shamt =>
      match format, kind with
      | .i, .shift => .range' 20 5
      | _, _ => []
  | .imm =>
      match format, kind with
      | .r, _ | .i, .shift | .unsupported, _ => []
      | .i, _ => .range' 20 12
      | .s, _ => .range' 25 7 ++ .range' 7 5
      | .b, _ => .range' 31 1 ++ .range' 7 1 ++ .range' 25 6 ++ .range' 8 4
      | .u, _ => .range' 12 20
      | .j, _ => .range' 31 1 ++ .range' 12 8 ++ .range' 20 1 ++ .range' 21 10

theorem Format.perm_bits {format : Format} (supported : format ≠ .unsupported)
    (kind : ImmediateKind) : (Part.all.flatMap (format.bits kind)).Perm (.range 32) := by
  cases format with
  | unsupported => exact absurd rfl supported
  | r | i | s | b | u | j => cases kind <;> decide +kernel

namespace Word

variable {word other : Word}

theorem extractLsb'_inj {start width : Nat} :
    word.extractLsb' start width = other.extractLsb' start width ↔
      ∀ bit ∈ List.range' start width, word.getLsbD bit = other.getLsbD bit := by
  constructor
  · intro same bit member
    obtain ⟨low, high⟩ := List.mem_range'_1.1 member
    have inside : bit - start < width := by omega
    have atBit := congrArg (·.getLsbD (bit - start)) same
    simpa [BitVec.getLsbD_extractLsb', inside, Nat.add_sub_cancel' low] using atBit
  · intro agree
    apply BitVec.eq_of_getLsbD_eq
    intro index inside
    have member : start + index ∈ List.range' start width := by
      simp [List.mem_range'_1, inside]
    simp [BitVec.getLsbD_extractLsb', agree _ member]

theorem append_inj {m n : Nat} {high high' : BitVec m} {low low' : BitVec n} :
    high ++ low = high' ++ low' ↔ high = high' ∧ low = low' := by
  constructor
  · intro same
    have left := congrArg (fun bits : BitVec (m + n) => bits.extractLsb' n m) same
    have right := congrArg (fun bits : BitVec (m + n) => bits.extractLsb' 0 n) same
    simp only [BitVec.extractLsb'_append_eq_left, BitVec.extractLsb'_append_eq_right] at left right
    exact ⟨left, right⟩
  · rintro ⟨rfl, rfl⟩
    rfl

theorem immS_inj :
    word.immS = other.immS ↔
      ∀ bit ∈ List.range' 25 7 ++ List.range' 7 5, word.getLsbD bit = other.getLsbD bit := by
  refine (@append_inj 7 5 _ _ _ _).trans ?_
  rw [List.forall_mem_append, extractLsb'_inj, extractLsb'_inj]

theorem immB_inj :
    word.immB = other.immB ↔
      ∀ bit ∈ List.range' 31 1 ++ List.range' 7 1 ++ List.range' 25 6 ++ List.range' 8 4,
        word.getLsbD bit = other.getLsbD bit := by
  refine (@append_inj (1 + 1 + 6 + 4) 1 _ _ _ _).trans ?_
  rw [and_iff_left rfl]
  simp only [append_inj, extractLsb'_inj, List.forall_mem_append]

theorem immJ_inj :
    word.immJ = other.immJ ↔
      ∀ bit ∈ List.range' 31 1 ++ List.range' 12 8 ++ List.range' 20 1 ++ List.range' 21 10,
        word.getLsbD bit = other.getLsbD bit := by
  refine (@append_inj (1 + 8 + 1 + 10) 1 _ _ _ _).trans ?_
  rw [and_iff_left rfl]
  simp only [append_inj, extractLsb'_inj, List.forall_mem_append]

/-- Two words agree in a part of the format exactly if they agree in the bits of the part. -/
theorem agree_iff {format : Format} {kind : ImmediateKind} {part : Part} :
    (word.fields format kind).Agree (other.fields format kind) part ↔
      ∀ bit ∈ format.bits kind part, word.getLsbD bit = other.getLsbD bit := by
  cases part with
  | opcode =>
      cases format <;> cases kind <;> exact extractLsb'_inj
  | imm =>
      cases format <;> cases kind <;>
        simp only [Fields.Agree, fields, Format.bits, Option.some.injEq, BitVec.toInt_inj,
          Int.natCast_inj, BitVec.toNat_inj, immS_inj, immB_inj, immJ_inj, immI, immU,
          extractLsb'_inj, List.not_mem_nil, false_implies, implies_true]
  | rd | funct3 | rs1 | rs2 | funct7 | shamt =>
      cases format <;> cases kind <;>
        simp only [Fields.Agree, fields, Format.bits, Option.some.injEq, rd, funct3, rs1, rs2,
          funct7, shamt, extractLsb'_inj, List.not_mem_nil, false_implies, implies_true]

theorem eq_of_fields_eq {format : Format} {kind : ImmediateKind}
    (supported : format ≠ .unsupported)
    (same : word.fields format kind = other.fields format kind) : word = other := by
  apply BitVec.eq_of_getLsbD_eq
  intro bit inside
  -- no bit is left over: each is in the list of some part
  have listed : bit ∈ Part.all.flatMap (format.bits kind) :=
    (Format.perm_bits supported kind).mem_iff.2 (List.mem_range.2 inside)
  obtain ⟨part, -, member⟩ := List.mem_flatMap.1 listed
  have agree : (word.fields format kind).Agree (other.fields format kind) part := by
    rw [same]
    cases part <;> rfl
  exact agree_iff.1 agree bit member

end Word

end Rv32Stimulus
