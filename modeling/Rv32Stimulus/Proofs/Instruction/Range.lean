/-
# Proofs.Instruction.Range -- the immediates that a word can hold

Four places speak of the immediates of a format, apart from each other: the table of ranges, the
window for displacements, the layout that packs an immediate and the fields that read it back.
Here they are shown to mean the same values:

* what is read from a word is in the range of its format, and even where bit 0 is not stored
  (`Word.holds_of_imm`);
* what is in the range, and even there, comes back from the word that it is packed into
  (`Instruction.Bears.imm_pack`);
* the window leaves out one value of the range, the farthest one back
  (`Format.admits_iff_holds`).

`Instruction.immediates_agree` puts the four together.
-/
import Mathlib.Tactic.TFAE
import Rv32Stimulus.Proofs.Control.Displacement
import Rv32Stimulus.Proofs.Instruction.Decoding

namespace Rv32Stimulus

set_option autoImplicit false

/-! ## Ranges -/

namespace Format

/-- The value lies in the range of the format, and it is even if it is a displacement. -/
def Holds (format : Format) (value : Int) : Prop :=
  match format.immediateRange? with
  | some (low, high) => low ≤ value ∧ value ≤ high ∧ (format.IsRelative → value % 2 = 0)
  | none => False

/-- Some word of the format is read as having the immediate. -/
def Stores (format : Format) (kind : ImmediateKind) (value : Int) : Prop :=
  ∃ word : Word, (word.fields format kind).imm = some value

variable {format : Format} {low high value : Int}

theorem holds_iff (ranged : format.immediateRange? = some (low, high)) :
    format.Holds value ↔ low ≤ value ∧ value ≤ high ∧ (format.IsRelative → value % 2 = 0) := by
  simp only [Holds, ranged]

/-- Branches and jumps can hold one displacement that their window leaves out. -/
theorem admits_iff_holds (ranged : format.immediateRange? = some (low, high)) :
    format.admits value = true ↔
      format.Holds value ∧ ¬(format = .b ∧ value = -0x1000) ∧
        ¬(format = .j ∧ value = -0x100000) := by
  cases format with
  | r | unsupported => cases ranged
  | i | s | u => simp [Holds, admits, reach?, immediateRange?, IsRelative]
  | b | j =>
      simp [Holds, admits, reach?, immediateRange?, IsRelative]
      omega

/-- Every immediate of a word fits the operand of an instruction. -/
theorem Holds.toInt_ofInt (holds : format.Holds value) : (Int32.ofInt value).toInt = value := by
  have small : -0x100000 ≤ value ∧ value ≤ 0xfffff := by
    cases format <;> simp only [Holds, immediateRange?] at holds <;> omega
  exact Int32.toInt_ofInt_of_le (by omega) (by omega)

end Format

/-! ## What is read -/

namespace Word

/-- An immediate whose bit 0 is not stored is read as an even number. -/
theorem toInt_append_zero_mod {width : Nat} (stored : BitVec (width + 1)) :
    (stored ++ 0#1).toInt % 2 = 0 := by
  rw [BitVec.toInt_append]
  simp

theorem holds_of_imm {word : Word} {format : Format} {kind : ImmediateKind} {value : Int}
    (read : (word.fields format kind).imm = some value) : format.Holds value := by
  cases format with
  | r | unsupported => cases read
  | i =>
      cases kind with
      | shift => cases read
      | none | plain =>
          obtain rfl : word.immI.toInt = value := Option.some.inj read
          have low := word.immI.le_toInt
          have high := word.immI.toInt_lt
          simp [Format.Holds, Format.immediateRange?, Format.IsRelative]
          omega
  | s =>
      obtain rfl : word.immS.toInt = value := Option.some.inj read
      have low := word.immS.le_toInt
      have high := word.immS.toInt_lt
      simp [Format.Holds, Format.immediateRange?, Format.IsRelative]
      omega
  | b =>
      obtain rfl : word.immB.toInt = value := Option.some.inj read
      have low := word.immB.le_toInt
      have high := word.immB.toInt_lt
      have even : word.immB.toInt % 2 = 0 := toInt_append_zero_mod _
      simp [Format.Holds, Format.immediateRange?, even]
      omega
  | u =>
      obtain rfl : (word.immU.toNat : Int) = value := Option.some.inj read
      have high := word.immU.isLt
      simp [Format.Holds, Format.immediateRange?, Format.IsRelative]
      omega
  | j =>
      obtain rfl : word.immJ.toInt = value := Option.some.inj read
      have low := word.immJ.le_toInt
      have high := word.immJ.toInt_lt
      have even : word.immJ.toInt % 2 = 0 := toInt_append_zero_mod _
      simp [Format.Holds, Format.immediateRange?, even]
      omega

/-- Apart from shifts the kind does not matter. -/
theorem fields_eq_of_plain (word : Word) (format : Format) {kind other : ImmediateKind}
    (plain : kind ≠ .shift) (otherPlain : other ≠ .shift) :
    word.fields format kind = word.fields format other := by
  cases format <;> cases kind <;> cases other <;> first | rfl | contradiction

end Word

/-! ## What is packed -/

namespace Instruction

/-- An instruction of the format that stores the immediate and asks for no operand; neither a shift nor
a system call, which have immediates of their own. -/
structure Bears (format : Format) (stored : Int32) (inst : Instruction) : Prop where
  format_eq : inst.record.format = format
  plain : inst.record.kind ≠ .shift
  pattern : inst.record.pattern = []
  notCall : inst.record.isCalled "ECALL" = false
  notBreak : inst.record.isCalled "EBREAK" = false
  imm : inst.imm = some stored

variable {inst : Instruction} {format : Format}

/-- Nothing of an immediate in the range is cut off. -/
theorem Bears.keptImm?_eq {value : Int} (bears : inst.Bears format (.ofInt value))
    (holds : format.Holds value) : inst.keptImm? = some value := by
  obtain ⟨format_eq, plain, -, notCall, notBreak, imm⟩ := bears
  have wraps (size : Nat) (low : -(size : Int) ≤ value * 2) (high : value * 2 < size) :
      value.bmod size = value := Int.bmod_eq_of_le_mul_two low high
  unfold keptImm?
  simp only [format_eq, imm, Option.getD_some, holds.toInt_ofInt, notCall, notBreak]
  -- In each format the range is what the field keeps, and what it drops is bit 0 of an even number.
  cases format with
  | r | unsupported => simp [Format.Holds, Format.immediateRange?] at holds
  | i =>
      simp only [Format.Holds, Format.immediateRange?] at holds
      cases kind : inst.record.kind with
      | shift => exact absurd kind plain
      | none | plain => simp [wraps 0x1000 (by omega) (by omega)]
  | s =>
      simp only [Format.Holds, Format.immediateRange?] at holds
      simp [wraps 0x1000 (by omega) (by omega)]
  | b =>
      simp only [Format.Holds, Format.immediateRange?] at holds
      have even : value % 2 = 0 := holds.2.2 (.inl rfl)
      simp [wraps 0x2000 (by omega) (by omega), evenPart_of_even even]
  | u =>
      simp only [Format.Holds, Format.immediateRange?] at holds
      simp [Int.emod_eq_of_lt holds.1 (by omega : value < 0x100000)]
  | j =>
      simp only [Format.Holds, Format.immediateRange?] at holds
      have even : value % 2 = 0 := holds.2.2 (.inr rfl)
      simp [wraps 0x200000 (by omega) (by omega), evenPart_of_even even]

theorem Bears.exists_word {value : Int} (bears : inst.Bears format (.ofInt value))
    (holds : format.Holds value) {kind : ImmediateKind} (plain : kind ≠ .shift) :
    ∃ word, inst.encode = .ok word ∧ (word.fields format kind).imm = some value := by
  have complete : inst.missingRole? = none := by simp [missingRole?, bears.pattern]
  refine ⟨inst.pack, encode_eq_ok_iff.2 ⟨complete, rfl⟩, ?_⟩
  calc (inst.pack.fields format kind).imm
    _ = (inst.pack.fields inst.record.format inst.record.kind).imm := by
        rw [bears.format_eq, Word.fields_eq_of_plain _ _ plain bears.plain]
    _ = inst.keptImm? := by
        rw [fields_pack]
        exact inst.carriedImm?_eq_keptImm?
    _ = some value := bears.keptImm?_eq holds

/-- A plain instruction of the format, with nothing but an immediate. -/
def bearing (format : Format) (stored : Int32) : Instruction where
  record := { mnemonic := "", format, category := .alu, opcode := 0, pattern := [] }
  imm := some stored

theorem bears_bearing (format : Format) (stored : Int32) :
    (bearing format stored).Bears format stored where
  format_eq := rfl
  plain := nofun
  pattern := rfl
  notCall := show ("".toUpper == "ECALL".toUpper) = false by decide +kernel
  notBreak := show ("".toUpper == "EBREAK".toUpper) = false by decide +kernel
  imm := rfl

/-- What can be read can be written, and the other way around. -/
theorem stores_iff_holds {kind : ImmediateKind} (plain : kind ≠ .shift) {value : Int} :
    format.Stores kind value ↔ format.Holds value := by
  constructor
  · rintro ⟨word, read⟩
    exact Word.holds_of_imm read
  · intro holds
    obtain ⟨word, -, read⟩ := (bears_bearing format (.ofInt value)).exists_word holds plain
    exact ⟨word, read⟩

/-! ## All four -/

/-- The values that words are read as are those of the table of ranges, even ones only for branches and
jumps; these are the values that fit an operand and come back from the word of every instruction,
or just of one, that has them.  The window for displacements admits all of them except the
farthest one back. -/
theorem immediates_agree {low high : Int} (ranged : format.immediateRange? = some (low, high))
    {kind : ImmediateKind} (plain : kind ≠ .shift) (value : Int) :
    List.TFAE
      [ format.Stores kind value,
        low ≤ value ∧ value ≤ high ∧ (format = .b ∨ format = .j → value % 2 = 0),
        ∃ stored : Int32, stored.toInt = value ∧ ∀ inst : Instruction, inst.Bears format stored →
          ∃ word, inst.encode = .ok word ∧ (word.fields format kind).imm = some value,
        ∃ stored : Int32, stored.toInt = value ∧ ∃ inst : Instruction, inst.Bears format stored ∧
          ∃ word, inst.encode = .ok word ∧ (word.fields format kind).imm = some value ] ∧
      (format.admits value = true ↔
        format.Stores kind value ∧ ¬(format = .b ∧ value = -0x1000) ∧
          ¬(format = .j ∧ value = -0x100000)) ∧
      (format = .b ∧ value = -0x1000 ∨ format = .j ∧ value = -0x100000 →
        format.Stores kind value ∧ format.admits value = false) := by
  have stores : format.Stores kind value ↔ format.Holds value := stores_iff_holds plain
  refine ⟨?_, ?_, ?_⟩
  · tfae_have 1 ↔ 2 := stores.trans (Format.holds_iff ranged)
    tfae_have 1 → 3 := by
      intro stored
      have holds := stores.1 stored
      refine ⟨.ofInt value, holds.toInt_ofInt, ?_⟩
      intro inst bears
      exact bears.exists_word holds plain
    tfae_have 3 → 4 := by
      rintro ⟨stored, same, every⟩
      have bears := bears_bearing format stored
      exact ⟨stored, same, bearing format stored, bears, every _ bears⟩
    tfae_have 4 → 1 := by
      rintro ⟨-, -, -, -, word, -, read⟩
      exact ⟨word, read⟩
    tfae_finish
  · rw [stores]
    exact Format.admits_iff_holds ranged
  · intro farthest
    rw [stores]
    rcases farthest with ⟨rfl, rfl⟩ | ⟨rfl, rfl⟩
    · exact ⟨by simp [Format.Holds, Format.immediateRange?], by decide⟩
    · exact ⟨by simp [Format.Holds, Format.immediateRange?], by decide⟩

/-- A branch word has room for a displacement of -4096 bytes, which is never admitted, and for one of
4094 bytes, which is. -/
theorem immediates_agree_farthest_branch :
    Format.b.immediateRange? = some (-4096, 4094) ∧ ImmediateKind.plain ≠ .shift ∧
      Format.b.Stores .plain (-4096) ∧ Format.b.admits (-4096) = false ∧
      Format.b.Stores .plain 4094 ∧ Format.b.admits 4094 = true := by
  have ranged : Format.b.immediateRange? = some (-4096, 4094) := rfl
  have plain : ImmediateKind.plain ≠ .shift := nofun
  obtain ⟨-, -, farthest⟩ := immediates_agree ranged plain (-4096)
  obtain ⟨agree, -, -⟩ := immediates_agree ranged plain 4094
  obtain ⟨back, refused⟩ := farthest (.inl ⟨rfl, rfl⟩)
  exact ⟨ranged, plain, back, refused, (agree.out 0 1).2 (by decide), by decide⟩

end Instruction

end Rv32Stimulus
