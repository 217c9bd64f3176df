/-
# Proofs.Instruction.Rebuild -- words put together again from what was read

`Instruction.withFields` gives an instruction the opcode, the function fields and the operands of a word
that was taken apart.  What the word of the new instruction carries is what was read
(`Instruction.carried_withFields`), and since no two words are read alike it is the word itself
(`Instruction.encode_decode`).  The pattern may name only operands that were read, and the mnemonic
must not decide the immediate.
-/
import Rv32Stimulus.Proofs.Instruction.Encoding
import Rv32Stimulus.Proofs.Isa.Cover

namespace Rv32Stimulus

set_option autoImplicit false

/-- Whether the fields hold the operand of the role. -/
def Fields.supplies (fields : Fields) : Role → Bool
  | .rd => fields.rd.isSome
  | .rs1 => fields.rs1.isSome
  | .rs2 => fields.rs2.isSome
  | .imm | .imm20 | .label | .predSucc => fields.imm.isSome
  | .shamt => fields.shamt.isSome
  | .memory => fields.imm.isSome && fields.rs1.isSome
  | .unsupported => false

/-- The record with the opcode and the function fields that were read. -/
def Record.withFields (record : Record) (fields : Fields) : Record :=
  { record with
    opcode := .ofBitVec (fields.opcode.setWidth 32)
    funct3 := fields.funct3.map fun bits => .ofBitVec (bits.setWidth 32)
    funct7 := fields.funct7.map fun bits => .ofBitVec (bits.setWidth 32) }

namespace Instruction

/-- The instruction with everything that was read in the place of its own. -/
def withFields (inst : Instruction) (fields : Fields) : Instruction :=
  { inst with
    record := inst.record.withFields fields
    rd := fields.rd.map fun bits => .ofBitVec (bits.setWidth 8)
    rs1 := fields.rs1.map fun bits => .ofBitVec (bits.setWidth 8)
    rs2 := fields.rs2.map fun bits => .ofBitVec (bits.setWidth 8)
    imm := fields.imm.map Int32.ofInt
    shamt := fields.shamt.map fun bits => .ofBitVec (bits.setWidth 8) }

variable {inst : Instruction} {fields : Fields}

/-! ## Presence -/

theorem supplies_withFields (inst : Instruction) (fields : Fields) (role : Role) :
    (inst.withFields fields).supplies role = fields.supplies role := by
  cases role <;> simp [withFields, supplies, Fields.supplies]

theorem missingRole?_withFields (supplied : ∀ role ∈ inst.record.pattern, fields.supplies role) :
    (inst.withFields fields).missingRole? = none := by
  refine List.find?_eq_none.2 fun role member => ?_
  rw [supplies_withFields, supplied role member]
  decide

/-! ## Each field is the one that was read -/

/-- A field survives being stored at a greater width. -/
theorem setWidth_setWidth_self {width wide : Nat} (bits : BitVec width) (narrower : width ≤ wide) :
    (bits.setWidth wide).setWidth width = bits :=
  (BitVec.setWidth_setWidth_of_le bits narrower).trans (BitVec.setWidth_eq bits)

theorem opcodeField_withFields (record : Record) (fields : Fields) :
    (record.withFields fields).opcodeField = fields.opcode :=
  setWidth_setWidth_self fields.opcode (by decide)

/-- What was read, stored and cut to the width of its field is what was read. -/
theorem restored {α : Type} {width : Nat} (store : BitVec width → α) (cut : α → BitVec width)
    (absent : α) (back : ∀ bits, cut (store bits) = bits) {read : Option (BitVec width)}
    {room : Bool} (fits : read.isSome = room) :
    (if room then some (cut ((read.map store).getD absent)) else none) = read := by
  subst fits
  cases read with
  | none => rfl
  | some bits => exact congrArg some (back bits)

theorem funct3Field_withFields {record : Record} {room : Bool} (fits : fields.funct3.isSome = room) :
    (if room then some (record.withFields fields).funct3Field else none) = fields.funct3 :=
  restored (fun bits : BitVec 3 => UInt32.ofBitVec (bits.setWidth 32))
    (fun field => field.toBitVec.setWidth 3) 0
    (fun bits => setWidth_setWidth_self bits (by decide)) fits

theorem funct7Field_withFields {record : Record} {room : Bool} (fits : fields.funct7.isSome = room) :
    (if room then some (record.withFields fields).funct7Field else none) = fields.funct7 :=
  restored (fun bits : BitVec 7 => UInt32.ofBitVec (bits.setWidth 32))
    (fun field => field.toBitVec.setWidth 7) 0
    (fun bits => setWidth_setWidth_self bits (by decide)) fits

theorem lowFive_map {room : Bool} {read : Option (BitVec 5)} (fits : read.isSome = room) :
    (if room then some (lowFive (read.map fun bits => .ofBitVec (bits.setWidth 8))) else none) =
      read :=
  restored (fun bits : BitVec 5 => UInt8.ofBitVec (bits.setWidth 8))
    (fun number => number.toBitVec.setWidth 5) 0
    (fun bits => setWidth_setWidth_self bits (by decide)) fits

theorem immField_withFields {width : Nat} {value : Int} (narrower : width ≤ 32)
    (read : fields.imm = some value) :
    (inst.withFields fields).immField width = BitVec.ofInt width value := by
  have stored : (inst.withFields fields).imm.getD 0 = .ofInt value := by
    unfold withFields
    rw [read]
    rfl
  apply BitVec.eq_of_toInt_eq
  rw [toInt_immField_eq _ narrower, stored, BitVec.toInt_ofInt, Int32.toInt_ofInt,
    Nat.one_shiftLeft]
  exact Int.bmod_bmod_of_dvd (Nat.pow_dvd_pow 2 narrower)

/-- An offset whose bit 0 is not stored is even. -/
theorem evenPart_append_zero {n : Nat} (high : BitVec n) :
    evenPart (high ++ 0#1).toInt = (high ++ 0#1).toInt := by
  apply evenPart_of_even
  have number : (high ++ 0#1).toNat = high.toNat * 2 := by
    rw [Word.toNat_append_eq, Nat.shiftLeft_eq]
    rfl
  have even : (2 : Int) ∣ (2 ^ (n + 1) : Nat) := by
    rw [Nat.pow_succ]
    omega
  rw [BitVec.toInt_eq_toNat_cond, number]
  split <;> omega

/-! ## The word -/

section Word

variable {word : Word} {format : Format} {kind : ImmediateKind}

theorem carriedImm?_withFields (sameFormat : inst.record.format = format)
    (sameKind : inst.record.kind = kind) (call : ¬inst.record.isCalled "ECALL")
    (stop : ¬inst.record.isCalled "EBREAK") :
    (inst.withFields (word.fields format kind)).carriedImm? = (word.fields format kind).imm := by
  have ordinary : (inst.withFields (word.fields format kind)).systemImmediate? = none := by
    unfold systemImmediate?
    exact (if_neg call).trans (if_neg stop)
  have atFormat : (inst.withFields (word.fields format kind)).record.format = format := sameFormat
  have atKind : (inst.withFields (word.fields format kind)).record.kind = kind := sameKind
  have kept {width : Nat} (bits : BitVec width) (narrower : width ≤ 32)
      (read : (word.fields format kind).imm = some bits.toInt) :
      ((inst.withFields (word.fields format kind)).immField width).toInt = bits.toInt := by
    rw [immField_withFields narrower read, BitVec.ofInt_toInt]
  unfold carriedImm?
  rw [atFormat, atKind, ordinary]
  cases format with
  | r | unsupported => rfl
  | i =>
      cases kind with
      | shift => rfl
      | none | plain => exact congrArg some (kept word.immI (by decide) rfl)
  | s => exact congrArg some (kept word.immS (by decide) rfl)
  | b =>
      have offset := kept word.immB (by decide) rfl
      exact congrArg some ((congrArg evenPart offset).trans (evenPart_append_zero _))
  | u =>
      have bits : (inst.withFields (word.fields .u kind)).immField 20 = word.immU := by
        rw [immField_withFields (by decide) rfl, BitVec.ofInt_natCast, BitVec.ofNat_toNat,
          BitVec.setWidth_eq]
      exact congrArg (fun bits : BitVec 20 => some (bits.toNat : Int)) bits
  | j =>
      have offset := kept word.immJ (by decide) rfl
      exact congrArg some ((congrArg evenPart offset).trans (evenPart_append_zero _))

theorem carried_withFields (supported : format ≠ .unsupported)
    (sameFormat : inst.record.format = format) (sameKind : inst.record.kind = kind)
    (call : ¬inst.record.isCalled "ECALL") (stop : ¬inst.record.isCalled "EBREAK") :
    (inst.withFields (word.fields format kind)).carried = word.fields format kind := by
  have atFormat : (inst.withFields (word.fields format kind)).record.format = format := sameFormat
  have atKind : (inst.withFields (word.fields format kind)).record.kind = kind := sameKind
  apply Fields.eq_of_agree
  intro part
  cases part with
  | opcode =>
      unfold Fields.Agree carried
      dsimp only
      rw [if_neg (atFormat ▸ supported)]
      exact opcodeField_withFields inst.record _
  | funct3 =>
      apply funct3Field_withFields
      rw [Record.hasFunct3, atFormat]
      cases format <;> cases kind <;> rfl
  | funct7 =>
      apply funct7Field_withFields
      rw [Record.hasFunct7, atFormat, atKind]
      cases format <;> cases kind <;> rfl
  | rd | rs1 | rs2 =>
      apply lowFive_map
      rw [Record.has, atFormat]
      cases format <;> cases kind <;> rfl
  | shamt =>
      apply lowFive_map
      rw [Record.has, atFormat, atKind]
      cases format <;> cases kind <;> rfl
  | imm => exact carriedImm?_withFields sameFormat sameKind call stop

theorem encode_withFields (supported : format ≠ .unsupported)
    (sameFormat : inst.record.format = format) (sameKind : inst.record.kind = kind)
    (call : ¬inst.record.isCalled "ECALL") (stop : ¬inst.record.isCalled "EBREAK")
    (supplied : ∀ role ∈ inst.record.pattern, (word.fields format kind).supplies role) :
    (inst.withFields (word.fields format kind)).encode = .ok word := by
  refine encode_eq_ok_iff.2 ⟨missingRole?_withFields supplied, ?_⟩
  -- both words are read alike, so the layouts need not be taken apart a second time
  apply Word.eq_of_fields_eq supported
  calc (inst.withFields (word.fields format kind)).pack.fields format kind
    _ = (inst.withFields (word.fields format kind)).carried := by
        rw [← fields_pack]
        exact congr (congrArg _ sameFormat.symm) sameKind.symm
    _ = word.fields format kind := carried_withFields supported sameFormat sameKind call stop

end Word

/-- Any instruction that takes over what was read from a word encodes to the word, and what is read
covers the word without gap or overlap: the bits of the parts are the 32 bits, each once, and a
part says no more and no less than its bits.  So no two words are read alike. -/
theorem encode_decode (word : Word) {format : Format} (supported : format ≠ .unsupported)
    (kind : ImmediateKind) :
    (∀ inst : Instruction, inst.record.format = format → inst.record.kind = kind →
      ¬inst.record.isCalled "ECALL" → ¬inst.record.isCalled "EBREAK" →
      (∀ role ∈ inst.record.pattern, (word.fields format kind).supplies role) →
      (inst.withFields (word.fields format kind)).encode = .ok word) ∧
    (Part.all.flatMap (format.bits kind)).Perm (.range 32) ∧
    (∀ (other : Word) (part : Part),
      (word.fields format kind).Agree (other.fields format kind) part ↔
        ∀ bit ∈ format.bits kind part, word.getLsbD bit = other.getLsbD bit) ∧
    ∀ other : Word, word.fields format kind = other.fields format kind → word = other := by
  refine ⟨?_, Format.perm_bits supported kind, ?_, ?_⟩
  · intro inst sameFormat sameKind call stop supplied
    exact encode_withFields supported sameFormat sameKind call stop supplied
  · intro other part
    exact Word.agree_iff
  · intro other same
    exact Word.eq_of_fields_eq supported same

/-- A branch that nothing has been read into. -/
def blankBranch : Instruction where
  record :=
    { mnemonic := "BEQ", format := .b, category := .branch, opcode := 0
      pattern := [.rs1, .rs2, .label] }

/-- A branch eight bytes back, taken apart and put together again. -/
theorem encode_decode_branch_back :
    Format.b ≠ .unsupported ∧
      (Word.fields 0xfe208ce3#32 .b .plain).imm = some (-8) ∧
      (blankBranch.withFields (Word.fields 0xfe208ce3#32 .b .plain)).encode =
        .ok 0xfe208ce3#32 := by
  have supported : Format.b ≠ .unsupported := by decide
  obtain ⟨rebuilt, -⟩ := encode_decode 0xfe208ce3#32 supported .plain
  refine ⟨supported, by decide, rebuilt blankBranch rfl rfl ?_ ?_ ?_⟩
  · decide +kernel
  · decide +kernel
  · decide

end Instruction

end Rv32Stimulus
