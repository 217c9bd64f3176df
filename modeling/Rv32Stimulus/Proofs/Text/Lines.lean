/-
# Proofs.Text.Lines -- texts of several lines

`Text.lines` takes a text apart at its line feeds.  Lines that were put together to a text come apart
again (`Text.lines_linesText`), provided that each of them is one (`Text.OneLine`).  Numbers
are written on one line, and so is what is put together from texts of one line.
-/
import Rv32Stimulus.Command.Outputs
import Rv32Stimulus.Proofs.Text.Reading

namespace Rv32Stimulus.Text

set_option autoImplicit false

/-- The characters before each line feed, and those after the last one if there are any. -/
def splitLines : List Char → List (List Char)
  | [] => []
  | '\n' :: rest => [] :: splitLines rest
  | char :: rest =>
      match splitLines rest with
      | [] => [[char]]
      | line :: lines => (char :: line) :: lines

/-- The lines of a text. -/
def lines (content : String) : List String := (splitLines content.toList).map String.ofList

/-- No line feed is in the text. -/
def OneLine (content : String) : Prop := '\n' ∉ content.toList

instance (content : String) : Decidable (OneLine content) := inferInstanceAs (Decidable (¬_))

/-! ## Taking a text apart -/

theorem splitLines_append {line : List Char} (clear : '\n' ∉ line) (rest : List Char) :
    splitLines (line ++ '\n' :: rest) = line :: splitLines rest := by
  induction line with
  | nil => rfl
  | cons char line ih =>
      have ordinary : char ≠ '\n' := fun same => clear (same ▸ List.mem_cons_self)
      rw [List.cons_append, splitLines.eq_3 _ _ ordinary, ih (mt (List.mem_cons_of_mem _) clear)]

theorem lines_append {line : String} (one : OneLine line) (rest : String) :
    lines (line ++ "\n" ++ rest) = line :: lines rest := by
  have characters : (line ++ "\n" ++ rest).toList = line.toList ++ '\n' :: rest.toList := by
    rw [String.toList_append, String.toList_append, List.append_assoc]
    rfl
  rw [lines, characters, splitLines_append one, List.map_cons, String.ofList_toList]
  rfl

theorem linesText_cons (line : String) (rest : List String) :
    linesText (line :: rest) = line ++ "\n" ++ linesText rest := by
  apply String.toList_injective
  simp [linesText]

/-- The lines of a text that was put together from lines are these lines. -/
theorem lines_linesText {content : List String} (one : ∀ line ∈ content, OneLine line) :
    lines (linesText content) = content := by
  induction content with
  | nil => rfl
  | cons line rest ih =>
      obtain ⟨first, later⟩ := List.forall_mem_cons.1 one
      rw [linesText_cons, lines_append first, ih later]

example : lines "a\n\nb\n" = ["a", "", "b"] := by decide +kernel

/-! ## Texts of one line -/

theorem OneLine.append {left right : String} (first : OneLine left) (second : OneLine right) :
    OneLine (left ++ right) := by
  rw [OneLine, String.toList_append, List.mem_append]
  exact not_or.2 ⟨first, second⟩

theorem OneLine.intercalate {separator : String} {parts : List String} (between : OneLine separator)
    (each : ∀ part ∈ parts, OneLine part) : OneLine (separator.intercalate parts) := by
  induction parts with
  | nil => exact of_decide_eq_true rfl
  | cons part parts ih =>
      obtain ⟨first, later⟩ := List.forall_mem_cons.1 each
      cases parts with
      | nil => rwa [String.intercalate_singleton]
      | cons next parts =>
          rw [String.intercalate_cons_cons]
          exact (first.append between).append (ih later)

theorem oneLine_nat (value : Nat) : OneLine (toString value) := by
  intro member
  rw [Nat.toString_eq_ofList_toDigits, String.toList_ofList] at member
  have isDigit := Nat.isDigit_of_mem_toDigits (by decide) (by decide) member
  cases isDigit

theorem oneLine_int (value : Int) : OneLine (toString value) := by
  rw [Int.toString_eq_repr, Int.repr_eq_if]
  split
  · exact oneLine_nat value.toNat
  · exact OneLine.append (by decide) (oneLine_nat (-value).toNat)

theorem oneLine_lastDigits {base : Nat} (positive : 0 < base) (small : base ≤ 16)
    (width value : Nat) : OneLine (String.ofList (lastDigits base width value)) := by
  intro member
  rw [String.toList_ofList] at member
  exact absurd (mem_hexadecimal positive small member) (by decide)

theorem oneLine_hex (value : Nat) : OneLine (hex value) :=
  oneLine_lastDigits (by decide) (by decide) _ value

theorem oneLine_hexWord (word : BitVec 32) : OneLine (hexWord word) :=
  oneLine_lastDigits (by decide) (by decide) 8 word.toNat

theorem oneLine_binaryWord (word : BitVec 32) : OneLine (binaryWord word) :=
  oneLine_lastDigits (by decide) (by decide) 32 word.toNat

/-- Only a capital letter becomes another character. -/
theorem eq_of_toLower_eq_lineFeed {char : Char} (same : char.toLower = '\n') : char = '\n' := by
  unfold Char.toLower at same
  split at same
  · rename_i capital
    have value := congrArg (·.val.toNat) same
    have low : 'A'.val.toNat ≤ char.val.toNat := UInt32.le_iff_toNat_le.1 capital.1
    have high : char.val.toNat ≤ 'Z'.val.toNat := UInt32.le_iff_toNat_le.1 capital.2
    simp at value low high
    omega
  · exact same

theorem OneLine.toLower {content : String} (one : OneLine content) : OneLine content.toLower := by
  intro member
  change '\n' ∈ (content.map Char.toLower).toList at member
  rw [String.toList_map] at member
  obtain ⟨char, within, same⟩ := List.mem_map.1 member
  obtain rfl := eq_of_toLower_eq_lineFeed same
  exact one within

theorem OneLine.padded {content : String} (one : OneLine content) (width : Nat) :
    OneLine (padded width content) := by
  refine one.append ?_
  intro member
  rw [String.toList_ofList] at member
  exact absurd (List.eq_of_mem_replicate member) (by decide)

end Rv32Stimulus.Text
