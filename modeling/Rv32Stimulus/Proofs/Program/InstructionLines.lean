/-
# Proofs.Program.InstructionLines -- the instructions among the lines of a source

A finished instruction has its text on one line, provided that its mnemonic is
(`Instruction.Shaped.oneLine_text`), and so every line of a listing is one line.  The instruction
lines are those that are set in (`Listing.filter_isInstructionLine_assembly`); label lines are not.
The comment at the end of such a line gives its word (`Listing.commentValue?_instructionLine`),
whatever else the text before it has.
-/
import Rv32Stimulus.Proofs.Program.Listing
import Rv32Stimulus.Proofs.Program.Shape
import Rv32Stimulus.Proofs.Text.Lines

namespace Rv32Stimulus

set_option autoImplicit false

open Text (OneLine)

/-! ## Instruction lines -/

/-- The number that the comment at the end of a line gives in hexadecimal. -/
def Text.commentValue? (line : String) : Option Nat :=
  match (line.toList.reverse.takeWhile (· != '#')).reverse with
  | ' ' :: '0' :: 'x' :: digits => value? 16 digits
  | _ => none

namespace Listing

/-- Whether a line of a source is an instruction: only these are set in. -/
def isInstructionLine (line : String) : Bool := line.startsWith "    "

theorem isInstructionLine_instructionLine (inst : Instruction) :
    isInstructionLine (instructionLine inst) = true := by
  rw [isInstructionLine, String.startsWith_string_iff]
  unfold instructionLine
  simp only [String.toList_append, List.append_assoc]
  exact List.prefix_append _ _

/-- A line that starts with another character than a blank is no instruction. -/
theorem isInstructionLine_eq_false {line : String} {first : Char} {rest : List Char}
    (starts : line.toList = first :: rest) (ink : first ≠ ' ') : isInstructionLine line = false := by
  rw [isInstructionLine, String.startsWith_string_eq_false_iff, starts]
  intro isPrefix
  exact ink (List.cons_prefix_cons.1 isPrefix).1.symm

theorem isInstructionLine_labelLine (position : Nat) :
    isInstructionLine (labelLine (labelName position)) = false := by
  have starts : (labelLine (labelName position)).toList =
      'L' :: ((toString position).toList ++ [':']) := by
    simp [labelLine, labelName]
  exact isInstructionLine_eq_false starts (by decide)

theorem commentValue?_instructionLine (inst : Instruction) :
    Text.commentValue? (instructionLine inst) = some inst.word.toNat := by
  have clear : ∀ char ∈ (' ' :: '0' :: 'x' :: (Text.hexWord inst.word).toList).reverse,
      (char != '#') = true := by
    intro char member
    simp only [List.mem_reverse, List.mem_cons] at member
    rcases member with rfl | rfl | rfl | member
    · decide
    · decide
    · decide
    · rw [Text.hexWord, String.toList_ofList] at member
      refine bne_iff_ne.2 fun same => ?_
      rw [same] at member
      exact absurd (Text.mem_hexadecimal (by decide) (by decide) member) (by decide)
  have cut : (instructionLine inst).toList.reverse =
      (' ' :: '0' :: 'x' :: (Text.hexWord inst.word).toList).reverse ++
        '#' :: ("    " ++ padded textColumn inst.text ++ "  ").toList.reverse := by
    simp [instructionLine]
  rw [Text.commentValue?, cut, List.takeWhile_append_of_pos clear,
    List.takeWhile_cons_of_neg (by decide), List.append_nil, List.reverse_reverse]
  exact Text.value?_hexWord inst.word

example : Text.commentValue? "    nop  # 0x00000013" = some 0x13 := by decide +kernel

/-- The instruction lines of a source, in order. -/
def instructionLines (source : String) : List String := (Text.lines source).filter isInstructionLine

end Listing

/-! ## Texts of one line -/

namespace Instruction

variable {inst : Instruction} {labels : LabelTable}

theorem oneLine_registerText (register : Option UInt8) : OneLine (registerText register) :=
  OneLine.append (by decide) (Text.oneLine_nat _)

theorem oneLine_operandText (label : OneLine (inst.labelText labels)) {role : Role} {operand : String}
    (written : inst.operandText labels role = some operand) : OneLine operand := by
  have offset : OneLine inst.immText := Text.oneLine_int _
  cases role <;> cases written
  case rd => exact oneLine_registerText _
  case rs1 => exact oneLine_registerText _
  case rs2 => exact oneLine_registerText _
  case imm => exact offset
  case imm20 => exact OneLine.append (by decide) (Text.oneLine_hex _)
  case shamt => exact Text.oneLine_nat _
  case label => exact label
  case memory =>
    exact ((offset.append (by decide)).append (oneLine_registerText _)).append (by decide)
  case predSucc => decide

theorem oneLine_assembly (mnemonic : OneLine inst.record.mnemonic)
    (label : OneLine (inst.labelText labels)) : OneLine (inst.assembly labels) := by
  unfold assembly
  dsimp only
  split
  · exact mnemonic.toLower
  · split
    · exact mnemonic.toLower
    · refine (mnemonic.toLower.append (by decide)).append (.intercalate (by decide) ?_)
      intro operand member
      obtain ⟨role, -, written⟩ := List.mem_filterMap.1 member
      exact oneLine_operandText label written

theorem oneLine_labelName (position : Nat) : OneLine (labelName position) :=
  OneLine.append (by decide) (Text.oneLine_nat position)

theorem Shaped.oneLine_text {length : Nat} (shaped : inst.Shaped length labels)
    (mnemonic : OneLine inst.record.mnemonic) : OneLine inst.text := by
  rw [shaped.text]
  split
  · decide
  · refine oneLine_assembly mnemonic ?_
    rw [labelText, shaped.named]
    cases inst.target with
    | none =>
        change OneLine unnamedLabel
        decide
    | some position => exact oneLine_labelName position

end Instruction

namespace Listing

variable {labels : LabelTable} {sequence : List Instruction}

theorem oneLine_instructionLine {inst : Instruction} (text : OneLine inst.text) :
    OneLine (instructionLine inst) :=
  (((show OneLine "    " by decide).append (text.padded _)).append (by decide)).append
    (Text.oneLine_hexWord _)

theorem oneLine_linesAt (proper : Proper labels) {inst : Instruction} (text : OneLine inst.text)
    (position : Nat) : ∀ line ∈ linesAt labels inst position, OneLine line := by
  unfold linesAt
  split
  · rename_i name found
    obtain rfl := proper position name found
    have named : OneLine (labelLine (labelName position)) :=
      (Instruction.oneLine_labelName position).append (by decide)
    simpa using ⟨named, oneLine_instructionLine text⟩
  · simpa using oneLine_instructionLine text

theorem oneLine_assembly (proper : Proper labels)
    (texts : ∀ inst ∈ sequence, OneLine inst.text) :
    ∀ line ∈ assembly sequence labels, OneLine line := by
  intro line member
  obtain ⟨⟨inst, position⟩, entry, within⟩ := List.mem_flatMap.1 member
  have found := List.mem_zipIdx_iff_getElem?.1 entry
  exact oneLine_linesAt proper (texts inst (List.mem_of_getElem? found)) position line within

/-- Among the lines of a listing the instructions are the ones that are set in. -/
theorem filter_isInstructionLine_assembly (proper : Proper labels) :
    (assembly sequence labels).filter isInstructionLine = sequence.map instructionLine := by
  refine filter_assembly_of isInstructionLine_instructionLine ?_ sequence
  intro position name found
  rw [proper position name found]
  exact isInstructionLine_labelLine position

end Listing

end Rv32Stimulus
