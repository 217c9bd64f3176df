/-
# Proofs.Json.Pretty -- where the members of a document stand

In an indented document each member starts a line.  One whose value is written on one line has that
line to itself, so the members that come first are the lines after the opening brace
(`exists_lines_pretty`).  Texts and whole numbers are written on one line, whatever
they hold.
-/
import Rv32Stimulus.Json.Pretty
import Rv32Stimulus.Proofs.Text.Lines

namespace Rv32Stimulus.Json

set_option autoImplicit false

open Text (OneLine)

/-! ## Values on one line -/

theorem lineFeed_notMem_escapedChar (char : Char) : '\n' ∉ escapedChar char := by
  unfold escapedChar
  split
  case h_8 _ _ _ _ _ ordinary _ _ =>
    split
    · have digits := Text.oneLine_lastDigits (show 0 < 16 by decide) (Nat.le_refl 16) 4 char.toNat
      rw [OneLine, String.toList_ofList] at digits
      simpa [unitEscape] using digits
    · rw [List.mem_singleton]
      exact Ne.symm ordinary
  all_goals decide

/-- Line feeds in a text are escaped. -/
theorem lineFeed_notMem_quotedText (content : String) : '\n' ∉ quotedText content := by
  unfold quotedText
  intro member
  simp only [List.cons_append, List.mem_cons, List.mem_append, List.mem_flatMap, List.not_mem_nil,
    or_false] at member
  rcases member with same | ⟨char, -, member⟩ | same
  · cases same
  · exact lineFeed_notMem_escapedChar char member
  · cases same

theorem prettyChars_text (depth : Nat) (content : String) :
    prettyChars depth (text content) = quotedText content := by
  simp [text, prettyChars]

theorem prettyChars_nat (depth value : Nat) :
    prettyChars depth (int value) = (toString value).toList := by
  have whole : ¬(value : Int) < 0 := by omega
  simp [int, prettyChars, Decimal.Numeral.ofInt, Decimal.Numeral.chars, whole,
    Decimal.Numeral.fractionText, Decimal.Numeral.exponentText, Text.digits_ten]

theorem lineFeed_notMem_text (depth : Nat) (content : String) :
    '\n' ∉ prettyChars depth (text content) := by
  rw [prettyChars_text]
  exact lineFeed_notMem_quotedText content

theorem lineFeed_notMem_nat (depth value : Nat) : '\n' ∉ prettyChars depth (int value) := by
  rw [prettyChars_nat]
  exact Text.oneLine_nat value

/-! ## Lines of members -/

/-- The members of a document as trees. -/
def memberTrees (members : List (String × Json)) : List (Json × Json) :=
  members.map fun (name, value) => (text name, value)

/-- The line of a member that is not the last, in a document that is not inside another. -/
def memberChars (member : String × Json) : List Char :=
  ' ' :: ' ' :: (quotedText member.1 ++ ':' :: ' ' :: prettyChars 1 member.2 ++ [','])

theorem memberChars_nat (name : String) (value : Nat) :
    String.ofList (memberChars (name, int value)) =
      String.ofList (' ' :: ' ' :: quotedText name) ++ ": " ++ toString value ++ "," := by
  apply String.toList_injective
  simp [memberChars, prettyChars_nat]

theorem lineFeed_notMem_memberChars {member : String × Json}
    (one : '\n' ∉ prettyChars 1 member.2) : '\n' ∉ memberChars member := by
  simp [memberChars, one, lineFeed_notMem_quotedText]

theorem prettyMembers_cons (member next : String × Json) (rest : List (String × Json)) :
    prettyMembers 1 (memberTrees (member :: next :: rest)) =
      '\n' :: (memberChars member ++ prettyMembers 1 (memberTrees (next :: rest))) := by
  simp [memberTrees, prettyMembers, prettyChars_text, memberChars, lineAt]

theorem exists_prettyMembers_eq (member : String × Json) (rest : List (String × Json)) :
    ∃ chars, prettyMembers 1 (memberTrees (member :: rest)) = '\n' :: chars := by
  cases rest <;> simp [memberTrees, prettyMembers, lineAt]

/-- Members on one line that are not the last are on lines of their own. -/
theorem exists_splitLines_prettyMembers {before : List (String × Json)} (next : String × Json)
    (rest : List (String × Json)) {line : List Char} (clear : '\n' ∉ line)
    (one : ∀ member ∈ before, '\n' ∉ prettyChars 1 member.2) (tail : List Char) :
    ∃ others, Text.splitLines
        (line ++ (prettyMembers 1 (memberTrees (before ++ next :: rest)) ++ tail)) =
      line :: (before.map memberChars ++ others) := by
  induction before generalizing line with
  | nil =>
      obtain ⟨chars, starts⟩ := exists_prettyMembers_eq next rest
      rw [List.nil_append, starts, List.cons_append, Text.splitLines_append clear]
      exact ⟨_, rfl⟩
  | cons member before ih =>
      obtain ⟨first, later⟩ := List.forall_mem_cons.1 one
      obtain ⟨others, split⟩ := ih (lineFeed_notMem_memberChars first) later
      have ahead : prettyMembers 1 (memberTrees (member :: before ++ next :: rest)) =
          '\n' :: (memberChars member ++ prettyMembers 1 (memberTrees (before ++ next :: rest))) := by
        cases before <;> exact prettyMembers_cons _ _ _
      rw [ahead, List.cons_append, Text.splitLines_append clear, List.append_assoc, split]
      exact ⟨others, rfl⟩

/-- The first lines of a document are its opening brace and the members that come first, if there
are more of them. -/
theorem exists_lines_pretty {before : List (String × Json)} (next : String × Json)
    (rest : List (String × Json)) (one : ∀ member ∈ before, '\n' ∉ prettyChars 1 member.2) :
    ∃ others, Text.lines (pretty (fields (before ++ next :: rest))) =
      "\x7b" :: (before.map fun member => String.ofList (memberChars member)) ++ others := by
  have nonempty : ∃ first others, before ++ next :: rest = first :: others := by
    cases before <;> exact ⟨_, _, rfl⟩
  obtain ⟨others, split⟩ := exists_splitLines_prettyMembers next rest
    (show '\n' ∉ ['\x7b'] by decide) one (lineAt 0 ++ ['\x7d'])
  refine ⟨others.map String.ofList, ?_⟩
  have characters : (pretty (fields (before ++ next :: rest))).toList = ['\x7b'] ++
      (prettyMembers 1 (memberTrees (before ++ next :: rest)) ++ (lineAt 0 ++ ['\x7d'])) := by
    obtain ⟨first, others, same⟩ := nonempty
    rw [pretty, String.toList_ofList, same]
    simp [fields, memberTrees, prettyChars]
  rw [Text.lines, characters, split]
  simp

end Rv32Stimulus.Json
