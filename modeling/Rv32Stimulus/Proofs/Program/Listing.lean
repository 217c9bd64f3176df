/-
# Proofs.Program.Listing -- where the lines of an assembly listing stand

A line of a listing names a position exactly if it ends in a colon: an instruction line ends in
a hexadecimal digit whatever its text is.  So the lines can be told apart, those that
name nothing are the instructions in order (`filter_assembly`), and a listing splits at any
instruction into what comes before, its own lines and the rest (`assembly_eq_append`).

With the names that targets get, the line of a named position is unique (`count_labelLine`).
-/
import Rv32Stimulus.Program.Listing
import Rv32Stimulus.Proofs.Control.Label

namespace Rv32Stimulus.Listing

set_option autoImplicit false

/-! ## Two kinds of lines -/

/-- Whether a line names a position. -/
def isLabelLine (line : String) : Bool := line.toList.getLast? == some ':'

theorem isLabelLine_labelLine (name : String) : isLabelLine (labelLine name) = true := by
  have colon : ":".toList = [':'] := rfl
  unfold isLabelLine labelLine
  rw [String.toList_append, colon, List.getLast?_append]
  rfl

theorem isLabelLine_instructionLine (inst : Instruction) :
    isLabelLine (instructionLine inst) = false := by
  have last : (Text.hexWord inst.word).toList =
      Text.lastDigits 16 7 (inst.word.toNat / 16) ++ [Text.digit (inst.word.toNat % 16)] := by
    rw [Text.hexWord, String.toList_ofList, Text.lastDigits]
  unfold isLabelLine instructionLine
  rw [String.toList_append, last, ← List.append_assoc, List.getLast?_append]
  have hexadecimal := Text.digit_mem_hexadecimal (inst.word.toNat % 16) (Nat.mod_lt _ (by decide))
  refine beq_eq_false_iff_ne.2 fun same => ?_
  have colon : Text.digit (inst.word.toNat % 16) = ':' := Option.some.inj same
  rw [colon] at hexadecimal
  exact absurd hexadecimal (by decide)

theorem labelLine_ne_instructionLine (name : String) (inst : Instruction) :
    labelLine name ≠ instructionLine inst := by
  intro same
  have named := isLabelLine_labelLine name
  rw [same, isLabelLine_instructionLine] at named
  cases named

theorem labelLine_injective {left right : String} (same : labelLine left = labelLine right) :
    left = right := by
  have characters := congrArg String.toList same
  unfold labelLine at characters
  rw [String.toList_append, String.toList_append] at characters
  exact String.toList_injective (List.append_cancel_right characters)

/-! ## A listing in parts -/

/-- The lines of a part of a sequence that starts at a position. -/
def linesFrom (labels : LabelTable) (start : Nat) (part : List Instruction) : List String :=
  (part.zipIdx start).flatMap fun (inst, position) => linesAt labels inst position

variable {labels : LabelTable} {sequence : List Instruction} {position : Nat} {inst : Instruction}

section Kinds

/-! What keeps the instruction lines and skips the label lines keeps the instructions in order. -/

variable {keep : String → Bool} (keeps : ∀ inst, keep (instructionLine inst) = true)
  (skips : ∀ position name, labels.find? position = some name → keep (labelLine name) = false)

include keeps skips

theorem filter_linesAt (inst : Instruction) (position : Nat) :
    (linesAt labels inst position).filter keep = [instructionLine inst] := by
  unfold linesAt
  split
  · rename_i name found
    simp [keeps, skips position name found]
  · simp [keeps]

theorem filter_linesFrom (start : Nat) (part : List Instruction) :
    (linesFrom labels start part).filter keep = part.map instructionLine := by
  unfold linesFrom
  induction part generalizing start with
  | nil => rfl
  | cons inst rest ih =>
      rw [List.zipIdx_cons, List.flatMap_cons, List.filter_append, ih]
      dsimp only
      rw [filter_linesAt keeps skips]
      rfl

theorem filter_assembly_of (sequence : List Instruction) :
    (assembly sequence labels).filter keep = sequence.map instructionLine :=
  filter_linesFrom keeps skips 0 sequence

end Kinds

theorem filter_assembly (labels : LabelTable) (sequence : List Instruction) :
    (assembly sequence labels).filter (!isLabelLine ·) = sequence.map instructionLine := by
  refine filter_assembly_of ?_ ?_ sequence
  · intro inst
    rw [isLabelLine_instructionLine]
    rfl
  · intro position name _
    rw [isLabelLine_labelLine]
    rfl

theorem assembly_eq_append (labels : LabelTable) (found : sequence[position]? = some inst) :
    assembly sequence labels = assembly (sequence.take position) labels ++
      linesAt labels inst position ++ linesFrom labels (position + 1) (sequence.drop (position + 1)) := by
  obtain ⟨inside, rfl⟩ := List.getElem?_eq_some_iff.1 found
  have before : (sequence.take position).length = position := by
    rw [List.length_take]
    omega
  have parts : sequence = sequence.take position ++ sequence[position] :: sequence.drop (position + 1) := by
    rw [List.getElem_cons_drop, List.take_append_drop]
  calc assembly sequence labels
    _ = assembly (sequence.take position ++ sequence[position] :: sequence.drop (position + 1)) labels :=
        congrArg (assembly · labels) parts
    _ = _ := by
        unfold assembly linesFrom
        rw [List.zipIdx_append, List.flatMap_append, List.zipIdx_cons, List.flatMap_cons,
          List.append_assoc, before, Nat.zero_add]

/-! ## The names of targets -/

/-- Every position of the table has the name that belongs to it. -/
def Proper (labels : LabelTable) : Prop :=
  ∀ position name, labels.find? position = some name → name = labelName position

theorem proper_labelTable (sequence : List Instruction) : Proper (labelTable sequence) := by
  intro position name found
  rw [find?_labelTable] at found
  split at found
  · exact (Option.some.inj found).symm
  · cases found

theorem eq_of_labelLine_mem (proper : Proper labels) {named : Nat}
    (member : labelLine (labelName named) ∈ linesAt labels inst position) : position = named := by
  unfold linesAt at member
  split at member
  · rename_i name found
    rcases List.mem_cons.1 member with same | member
    · rw [proper _ _ found] at same
      exact (labelName_injective (labelLine_injective same)).symm
    · exact absurd (List.mem_singleton.1 member) (labelLine_ne_instructionLine _ _)
  · exact absurd (List.mem_singleton.1 member) (labelLine_ne_instructionLine _ _)

theorem labelLine_not_mem_linesFrom (proper : Proper labels) {start named : Nat}
    {part : List Instruction} (outside : named < start ∨ start + part.length ≤ named) :
    labelLine (labelName named) ∉ linesFrom labels start part := by
  intro member
  obtain ⟨⟨inst, position⟩, atPosition, line⟩ := List.mem_flatMap.1 member
  have bounds := List.mem_zipIdx atPosition
  have := eq_of_labelLine_mem proper line
  omega

theorem linesAt_of_named (named : labels.find? position = some (labelName position)) :
    linesAt labels inst position = [labelLine (labelName position), instructionLine inst] := by
  rw [linesAt, named]

/-- The name of a position is listed once. -/
theorem count_labelLine (proper : Proper labels) (found : sequence[position]? = some inst)
    (named : labels.find? position = some (labelName position)) :
    (assembly sequence labels).count (labelLine (labelName position)) = 1 := by
  have before : labelLine (labelName position) ∉ assembly (sequence.take position) labels :=
    labelLine_not_mem_linesFrom proper (.inr (by rw [List.length_take]; omega))
  have after : labelLine (labelName position) ∉
      linesFrom labels (position + 1) (sequence.drop (position + 1)) :=
    labelLine_not_mem_linesFrom proper (.inl (by omega))
  rw [assembly_eq_append labels found, linesAt_of_named named, List.count_append, List.count_append,
    List.count_eq_zero_of_not_mem before, List.count_eq_zero_of_not_mem after]
  have other := (labelLine_ne_instructionLine (labelName position) inst).symm
  simp [other]

end Rv32Stimulus.Listing
