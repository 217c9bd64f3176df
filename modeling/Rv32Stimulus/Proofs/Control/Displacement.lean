/-
# Proofs.Control.Displacement -- where a resolved branch or jump lands

`Format.offset` is the displacement that resolution stores: the one to the target if the
format admits it, else the one to the successor.  For the two formats whose immediate is
relative to the instruction (`Format.IsRelative`) the stored offset is

* always a multiple of four that the format admits (`offset_mod`, `admits_offset`);
* carried unchanged by the word (`Instruction.carried_imm_of_admits`);
* the displacement to the target exactly if that is in reach (`offset_eq_displacement_iff`), so the
  substitute is never right by accident;
* inside the program (`offset_inside`): only a position before the last can
  have a target out of reach, and such a position has a successor.
-/
import Rv32Stimulus.Control.Displacement
import Rv32Stimulus.Control.Label
import Rv32Stimulus.Proofs.Instruction.Encoding

namespace Rv32Stimulus

set_option autoImplicit false

theorem displacement_inj {position target otherTarget : Nat} :
    displacement position target = displacement position otherTarget ↔ target = otherTarget := by
  unfold displacement wordBytes
  omega

namespace Format

/-- The formats whose immediate is a displacement. -/
def IsRelative (format : Format) : Prop := format = .b ∨ format = .j

instance (format : Format) : Decidable format.IsRelative :=
  inferInstanceAs (Decidable (format = .b ∨ format = .j))

/-- The displacement that resolution stores. -/
def offset (format : Format) (position target : Nat) : Int :=
  if format.admits (displacement position target) then displacement position target
  else wordBytes

variable {format : Format} {position target length : Nat}

theorem offset_mod (format : Format) (position target : Nat) :
    format.offset position target % 4 = 0 := by
  unfold offset displacement wordBytes
  split <;> omega

theorem admits_wordBytes (relative : format.IsRelative) : format.admits wordBytes = true := by
  rcases relative with rfl | rfl <;> decide

theorem admits_offset (relative : format.IsRelative) (position target : Nat) :
    format.admits (format.offset position target) = true := by
  unfold offset
  split
  · assumption
  · exact admits_wordBytes relative

theorem offset_eq_displacement_iff (relative : format.IsRelative) :
    format.offset position target = displacement position target ↔
      format.admits (displacement position target) = true := by
  constructor
  · intro same
    rw [← same]
    exact admits_offset relative position target
  · intro admitted
    rw [offset, if_pos admitted]

/-- A target out of reach is not the branch itself. -/
theorem ne_of_not_admits (relative : format.IsRelative)
    (refused : ¬format.admits (displacement position target) = true) : target ≠ position := by
  rintro rfl
  have itself : displacement target target = 0 := by simp [displacement]
  rw [itself] at refused
  rcases relative with rfl | rfl <;> exact refused (by decide)

theorem offset_inside (relative : format.IsRelative) (inside : position < length)
    (targetInside : target < length) (last : length ≤ position + 1 → target = position) :
    0 ≤ (position : Int) + format.offset position target / 4 ∧
      (position : Int) + format.offset position target / 4 < length := by
  unfold offset
  split
  · unfold displacement wordBytes
    omega
  · rename_i refused
    have successor : position + 1 < length := by
      have moved := ne_of_not_admits relative refused
      omega
    unfold wordBytes
    omega

/-- What a relative format admits is even and smaller than the reach of a jump. -/
theorem bounds_of_admits (relative : format.IsRelative) {value : Int}
    (admitted : format.admits value = true) :
    value % 2 = 0 ∧ value.natAbs < 0x100000 ∧ (format = .b → value.natAbs < 0x1000) := by
  rcases relative with rfl | rfl <;>
    simp only [admits, reach?, Bool.and_eq_true, decide_eq_true_eq, beq_iff_eq] at admitted
  · exact ⟨admitted.2, by omega, fun _ => admitted.1⟩
  · exact ⟨admitted.2, admitted.1, nofun⟩

end Format

namespace Instruction

variable {inst : Instruction} {position target : Nat}

/-! ## Resolution -/

theorem withLabel_target (inst : Instruction) : inst.withLabel.target = inst.target := by
  unfold withLabel
  split <;> rfl

theorem withLabel_record (inst : Instruction) : inst.withLabel.record = inst.record := by
  unfold withLabel
  split <;> rfl

theorem toInt_ofInt_offset {format : Format} (relative : format.IsRelative) (position target : Nat) :
    (Int32.ofInt (format.offset position target)).toInt = format.offset position target := by
  have bounds := (Format.bounds_of_admits relative (Format.admits_offset relative position target)).2.1
  exact Int32.toInt_ofInt_of_le (by omega) (by omega)

/-! ## The word -/

/-- A displacement that the format admits comes back from the word as it is. -/
theorem carried_imm_of_admits {value : Int32} (relative : inst.record.format.IsRelative)
    (present : inst.imm = some value) (admitted : inst.record.format.admits value.toInt = true) :
    inst.carried.imm = some value.toInt := by
  obtain ⟨even, small, branch⟩ := Format.bounds_of_admits relative admitted
  change inst.carriedImm? = _
  unfold carriedImm?
  rcases relative with format | format
  · have smaller := branch format
    rw [format]
    dsimp only
    rw [toInt_immField present (by decide) (by omega) (by omega), evenPart_of_even even]
  · rw [format]
    dsimp only
    rw [toInt_immField present (by decide) (by omega) (by omega), evenPart_of_even even]

end Instruction

end Rv32Stimulus
