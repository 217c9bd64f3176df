/-
# Proofs.Json.Extent -- how far numerals and texts reach

A numeral or a quoted text is a stretch at the front of what is read.  Each reader takes the same
stretch off the front of anything else: a numeral off whatever does not go on with it (`Ends`), a
text off whatever follows its closing quote.  So a token may be moved to another place of a
document and is read as the same there.

The lemmas go by the parts of a numeral, and by the pieces of a text.
-/
import Rv32Stimulus.Proofs.Json.Tokens

namespace Rv32Stimulus.Json

set_option autoImplicit false

open Decimal (Numeral)

variable {chars rest : List Char}

/-! ## Numerals -/

theorem exists_digitRun_eq (chars : List Char) : ∃ front,
    chars = front ++ (digitRun chars).2 ∧ (∀ char ∈ front, char.isDigit = true) ∧
      (front = [] → (digitRun chars).1 = []) ∧
      ∀ other, Undigited other → digitRun (front ++ other) = ((digitRun chars).1, other) := by
  induction chars with
  | nil => exact ⟨[], rfl, by simp, fun _ => rfl, fun other => digitRun_of_undigited⟩
  | cons char chars ih =>
      obtain ⟨front, split_, digits, -, again⟩ := ih
      by_cases isDigit : char.isDigit = true
      · refine ⟨char :: front, ?_, List.forall_mem_cons.2 ⟨isDigit, digits⟩, nofun, ?_⟩
        · rw [digitRun_of_isDigit isDigit]
          exact congrArg (char :: ·) split_
        · intro other undigited
          rw [List.cons_append, digitRun_of_isDigit isDigit, again other undigited,
            digitRun_of_isDigit isDigit]
      · rw [digitRun_of_not_isDigit isDigit]
        exact ⟨[], rfl, by simp, fun _ => rfl, fun other => digitRun_of_undigited⟩

theorem exists_wholePart?_eq {whole : Nat} (read : wholePart? chars = some (whole, rest)) :
    ∃ first front, chars = first :: (front ++ rest) ∧ first.isDigit = true ∧
      ∀ other, Undigited other → wholePart? (first :: (front ++ other)) = some (whole, other) := by
  obtain ⟨front, split_, digits, some_, again⟩ := exists_digitRun_eq chars
  unfold wholePart? at read
  generalize digitRun chars = run at *
  obtain ⟨run, left⟩ := run
  cases run with
  | nil => cases read
  | cons digit more =>
    cases front with
    | nil => cases some_ rfl
    | cons first front =>
      have same : left = rest := by
        dsimp only at read
        split at read
        · cases read
        · exact congrArg Prod.snd (Option.some.inj read)
      subst same
      refine ⟨first, front, split_, digits first List.mem_cons_self, ?_⟩
      intro other undigited
      have run := again other undigited
      unfold wholePart?
      rw [List.cons_append] at run
      rw [run]
      dsimp only at read ⊢
      split at read
      · cases read
      · rename_i proper
        rw [if_neg proper]
        obtain rfl : _ = whole := congrArg Prod.fst (Option.some.inj read)
        rfl

theorem exists_fractionPart?_eq {fraction : List (Fin 10)}
    (read : fractionPart? chars = some (fraction, rest)) :
    ∃ front, chars = front ++ rest ∧ (front = [] ∨ ∃ more, front = '.' :: more) ∧
      ∀ other, Undigited other → '.' ∉ other.head? →
        fractionPart? (front ++ other) = some (fraction, other) := by
  unfold fractionPart? at read
  split at read
  · rename_i after
    obtain ⟨front, split_, -, -, again⟩ := exists_digitRun_eq after
    split at read
    · cases read
    · rename_i digits left nonempty run
      obtain ⟨rfl, rfl⟩ : digits = fraction ∧ left = rest := by simpa using read
      rw [run] at split_ again
      refine ⟨'.' :: front, congrArg ('.' :: ·) split_, .inr ⟨front, rfl⟩, ?_⟩
      intro other undigited _
      obtain ⟨digit, more, rfl⟩ := List.exists_cons_of_ne_nil nonempty
      rw [List.cons_append, fractionPart?, again other undigited]
  · obtain ⟨rfl, rfl⟩ : [] = fraction ∧ chars = rest := by simpa using read
    refine ⟨[], rfl, .inl rfl, ?_⟩
    intro other _ point
    rw [List.nil_append]
    unfold fractionPart?
    split
    · exact absurd rfl point
    · rfl

theorem exists_exponentDigits?_eq {negative : Bool} {exponent : Option Int}
    (read : exponentDigits? negative chars = some (exponent, rest)) :
    ∃ first front, chars = first :: (front ++ rest) ∧ first.isDigit = true ∧
      ∀ other, Undigited other →
        exponentDigits? negative (first :: (front ++ other)) = some (exponent, other) := by
  obtain ⟨front, split_, digits, some_, again⟩ := exists_digitRun_eq chars
  unfold exponentDigits? at read
  split at read
  · cases read
  · rename_i run left nonempty found
    obtain ⟨rfl, rfl⟩ := Prod.mk.inj (Option.some.inj read)
    rw [found] at split_ some_ again
    cases front with
    | nil => exact absurd (some_ rfl) nonempty
    | cons first front =>
        refine ⟨first, front, split_, digits first List.mem_cons_self, ?_⟩
        intro other undigited
        have run := again other undigited
        obtain ⟨digit, more, rfl⟩ := List.exists_cons_of_ne_nil nonempty
        rw [List.cons_append] at run
        rw [exponentDigits?, run]

theorem exponentPart?_marked {mark : Char} (marked : mark = 'e' ∨ mark = 'E') (chars : List Char) :
    exponentPart? (mark :: chars) =
      match chars with
      | '-' :: chars => exponentDigits? true chars
      | '+' :: chars => exponentDigits? false chars
      | chars => exponentDigits? false chars :=
  if_pos marked

theorem exponentPart?_digit {mark first : Char} (marked : mark = 'e' ∨ mark = 'E')
    (isDigit : first.isDigit = true) (chars : List Char) :
    exponentPart? (mark :: first :: chars) = exponentDigits? false (first :: chars) := by
  rw [exponentPart?_marked marked]
  split
  · rename_i same
    cases same
    cases isDigit
  · rename_i same
    cases same
    cases isDigit
  · rfl

theorem exponentPart?_absent {other : List Char} (ends : Ends other) :
    exponentPart? other = some (none, other) := exponentPart?_exponentText none ends

theorem exists_exponentPart?_eq {exponent : Option Int}
    (read : exponentPart? chars = some (exponent, rest)) :
    ∃ front, chars = front ++ rest ∧
      (front = [] ∨ ∃ mark more, front = mark :: more ∧ (mark = 'e' ∨ mark = 'E')) ∧
      ∀ other, Ends other → exponentPart? (front ++ other) = some (exponent, other) := by
  cases chars with
  | nil =>
      obtain ⟨rfl, rfl⟩ : none = exponent ∧ [] = rest := by simpa [exponentPart?] using read
      exact ⟨[], rfl, .inl rfl, fun other => exponentPart?_absent⟩
  | cons mark chars =>
      by_cases marked : mark = 'e' ∨ mark = 'E'
      · rw [exponentPart?_marked marked] at read
        split at read
        · rename_i after
          obtain ⟨first, front, split_, -, again⟩ := exists_exponentDigits?_eq read
          refine ⟨mark :: '-' :: first :: front, by simp [split_], .inr ⟨_, _, rfl, marked⟩, ?_⟩
          intro other ends
          exact (exponentPart?_marked marked _).trans (again other ends.undigited)
        · rename_i after
          obtain ⟨first, front, split_, -, again⟩ := exists_exponentDigits?_eq read
          refine ⟨mark :: '+' :: first :: front, by simp [split_], .inr ⟨_, _, rfl, marked⟩, ?_⟩
          intro other ends
          exact (exponentPart?_marked marked _).trans (again other ends.undigited)
        · obtain ⟨first, front, split_, isDigit, again⟩ := exists_exponentDigits?_eq read
          refine ⟨mark :: first :: front, by simp [split_], .inr ⟨_, _, rfl, marked⟩, ?_⟩
          intro other ends
          exact (exponentPart?_digit marked isDigit _).trans (again other ends.undigited)
      · have absent : exponentPart? (mark :: chars) = some (none, mark :: chars) := if_neg marked
        rw [absent] at read
        obtain ⟨rfl, rfl⟩ : none = exponent ∧ mark :: chars = rest := by simpa using read
        exact ⟨[], rfl, .inl rfl, fun other => exponentPart?_absent⟩

theorem exists_unsigned?_eq {negative : Bool} {numeral : Numeral}
    (read : unsigned? negative chars = some (numeral, rest)) :
    ∃ first front, chars = first :: (front ++ rest) ∧ first.isDigit = true ∧
      ∀ other, Ends other → unsigned? negative (first :: (front ++ other)) = some (numeral, other) := by
  have steps (chars : List Char) : unsigned? negative chars =
      (wholePart? chars).bind fun whole => (fractionPart? whole.2).bind fun fraction =>
        (exponentPart? fraction.2).bind fun exponent =>
          some (⟨negative, whole.1, fraction.1, exponent.1⟩, exponent.2) := rfl
  rw [steps] at read
  obtain ⟨⟨whole, afterWhole⟩, readWhole, read⟩ := Option.bind_eq_some_iff.1 read
  obtain ⟨⟨fraction, afterFraction⟩, readFraction, read⟩ := Option.bind_eq_some_iff.1 read
  obtain ⟨⟨exponent, afterExponent⟩, readExponent, read⟩ := Option.bind_eq_some_iff.1 read
  obtain ⟨rfl, rfl⟩ := Prod.mk.inj (Option.some.inj read)
  obtain ⟨first, front, rfl, isDigit, againWhole⟩ := exists_wholePart?_eq readWhole
  obtain ⟨point, rfl, pointed, againFraction⟩ := exists_fractionPart?_eq readFraction
  obtain ⟨power, rfl, marked, againExponent⟩ := exists_exponentPart?_eq readExponent
  refine ⟨first, front ++ (point ++ power), by simp, isDigit, ?_⟩
  intro other ends
  -- What follows the fraction begins with the mark of an exponent, or is what follows the numeral.
  have ended : Undigited (power ++ other) ∧ '.' ∉ (power ++ other).head? := by
    rcases marked with rfl | ⟨mark, more, rfl, rfl | rfl⟩
    · exact ⟨ends.undigited, ends.point⟩
    · exact ⟨by rintro char ⟨⟩; rfl, by rintro ⟨⟩⟩
    · exact ⟨by rintro char ⟨⟩; rfl, by rintro ⟨⟩⟩
  have undigited : Undigited (point ++ (power ++ other)) := by
    rcases pointed with rfl | ⟨more, rfl⟩
    · exact ended.1
    · rintro char ⟨⟩
      rfl
  rw [steps, List.append_assoc, List.append_assoc, againWhole _ undigited, Option.bind_some]
  dsimp only
  rw [againFraction _ ended.1 ended.2, Option.bind_some]
  dsimp only
  rw [againExponent _ ends]
  rfl

/-- A numeral is taken off the front of whatever does not go on with it. -/
theorem exists_numeral?_eq {numeral : Numeral} (read : numeral? chars = some (numeral, rest)) :
    ∃ first front, chars = first :: (front ++ rest) ∧ (first = '-' ∨ first.isDigit = true) ∧
      ∀ other, Ends other → numeral? (first :: (front ++ other)) = some (numeral, other) := by
  unfold numeral? at read
  split at read
  · obtain ⟨first, front, rfl, isDigit, again⟩ := exists_unsigned?_eq read
    exact ⟨'-', first :: front, rfl, .inl rfl, again⟩
  · obtain ⟨first, front, rfl, isDigit, again⟩ := exists_unsigned?_eq read
    refine ⟨first, front, rfl, .inr isDigit, ?_⟩
    intro other ends
    have unsigned := again other ends
    unfold numeral?
    split
    · rename_i same
      cases same
      cases isDigit
    · exact unsigned

/-! ## Texts -/

theorem exists_unit?_eq {unit : Nat} (read : unit? chars = some (unit, rest)) :
    ∃ front, chars = front ++ rest ∧ ∀ other, unit? (front ++ other) = some (unit, other) := by
  unfold unit? at read
  split at read
  · rename_i a b c d after
    obtain ⟨value, valued, same⟩ := Option.map_eq_some_iff.1 read
    obtain ⟨rfl, rfl⟩ := Prod.mk.inj same
    refine ⟨[a, b, c, d], rfl, fun other => ?_⟩
    change (Text.value? 16 [a, b, c, d]).map (·, other) = _
    rw [valued]
    rfl
  · cases read

theorem pieces?_unit (fuel : Nat) (chars : List Char) : pieces? (fuel + 1) ('\\' :: 'u' :: chars) =
    (unit? chars).bind fun read => (pieces? fuel read.2).bind fun found =>
      some (.ofUnit read.1 :: found.1, found.2) := rfl

theorem pieces?_escape {escaped char : Char} (known : escape? escaped = some char) (fuel : Nat)
    (chars : List Char) : pieces? (fuel + 1) ('\\' :: escaped :: chars) =
      (pieces? fuel chars).bind fun found => some (.char char :: found.1, found.2) := by
  rw [pieces?]
  · rw [known]
    rfl
  · rintro rfl
    cases known

theorem pieces?_plain {char : Char} (notQuote : char ≠ '"')
    (ordinary : ¬(char = '\\' ∨ char.toNat < 0x20)) (fuel : Nat) (chars : List Char) :
    pieces? (fuel + 1) (char :: chars) =
      (pieces? fuel chars).bind fun found => some (.char char :: found.1, found.2) := by
  obtain ⟨notEscape, -⟩ := not_or.1 ordinary
  rw [pieces?, if_neg ordinary]
  · rfl
  · exact notQuote
  · exact fun _ same => absurd same notEscape
  · exact fun _ _ same => absurd same notEscape

/-- The pieces are those of the characters up to a closing quote, whatever follows it. -/
def Quotes (chars rest : List Char) (pieces : List Piece) : Prop :=
  ∃ first front, chars = first :: (front ++ rest) ∧
    ∀ fuel other, front.length < fuel → pieces? fuel (first :: (front ++ other)) = some (pieces, other)

theorem quotes_nil (rest : List Char) : Quotes ('"' :: rest) rest [] := by
  refine ⟨'"', [], rfl, fun fuel other enough => ?_⟩
  obtain ⟨fuel, rfl⟩ := Nat.exists_eq_succ_of_ne_zero (Nat.ne_of_gt enough)
  rfl

/-- One more piece in front of those that are read behind it. -/
theorem Quotes.cons {lead : List Char} {piece : Piece} {pieces : List Piece}
    (quotes : Quotes chars rest pieces) (some_ : lead ≠ [])
    (step : ∀ fuel other, pieces? (fuel + 1) (lead ++ other) =
      (pieces? fuel other).bind fun found => some (piece :: found.1, found.2)) :
    Quotes (lead ++ chars) rest (piece :: pieces) := by
  obtain ⟨second, back, rfl, again⟩ := quotes
  obtain ⟨first, front, rfl⟩ := List.exists_cons_of_ne_nil some_
  refine ⟨first, front ++ second :: back, by simp, fun fuel other enough => ?_⟩
  simp only [List.length_append, List.length_cons] at enough
  obtain ⟨fuel, rfl⟩ : ∃ less, fuel = less + 1 := Nat.exists_eq_add_of_le' (by omega)
  have next := step fuel (second :: (back ++ other))
  rw [again fuel other (by omega)] at next
  simpa using next

theorem quotes_of_pieces? {fuel : Nat} {pieces : List Piece}
    (read : pieces? fuel chars = some (pieces, rest)) : Quotes chars rest pieces := by
  induction fuel generalizing chars pieces with
  | zero => cases read
  | succ fuel ih =>
      rw [pieces?.eq_def] at read
      dsimp only at read
      split at read
      · cases read
      · obtain ⟨rfl, rfl⟩ := Prod.mk.inj (Option.some.inj read)
        exact quotes_nil _
      · obtain ⟨⟨unit, later⟩, readUnit, read⟩ := Option.bind_eq_some_iff.1 read
        obtain ⟨⟨more, left⟩, found, same⟩ := Option.bind_eq_some_iff.1 read
        obtain ⟨rfl, rfl⟩ := Prod.mk.inj (Option.some.inj same)
        obtain ⟨digits, rfl, again⟩ := exists_unit?_eq readUnit
        refine @Quotes.cons _ _ ('\\' :: 'u' :: digits) _ _ (ih found) nofun fun fuel other => ?_
        rw [List.cons_append, List.cons_append, pieces?_unit, again, Option.bind_some]
      · rename_i escaped after notUnit
        obtain ⟨char, readChar, read⟩ := Option.bind_eq_some_iff.1 read
        obtain ⟨⟨more, left⟩, found, same⟩ := Option.bind_eq_some_iff.1 read
        obtain ⟨rfl, rfl⟩ := Prod.mk.inj (Option.some.inj same)
        exact @Quotes.cons _ _ ['\\', escaped] _ _ (ih found) nofun (pieces?_escape readChar)
      · rename_i char after notQuote notUnit notEscape
        split at read
        · cases read
        · rename_i ordinary
          obtain ⟨⟨more, left⟩, found, same⟩ := Option.bind_eq_some_iff.1 read
          obtain ⟨rfl, rfl⟩ := Prod.mk.inj (Option.some.inj same)
          exact @Quotes.cons _ _ [char] _ _ (ih found) nofun (pieces?_plain notQuote ordinary)

/-- A text is taken off the front of whatever follows its closing quote. -/
theorem exists_quoted?_eq {fuel : Nat} {tree : Json} (read : quoted? fuel chars = some (tree, rest)) :
    ∃ content first front, tree = .string content ∧ chars = first :: (front ++ rest) ∧
      ∀ fuel other, front.length < fuel →
        quoted? fuel (first :: (front ++ other)) = some (tree, other) := by
  obtain ⟨⟨pieces, left⟩, readPieces, same⟩ := Option.map_eq_some_iff.1 read
  obtain ⟨rfl, rfl⟩ := Prod.mk.inj same
  obtain ⟨first, front, rfl, again⟩ := quotes_of_pieces? readPieces
  refine ⟨_, first, front, rfl, rfl, fun fuel other enough => ?_⟩
  rw [quoted?, again fuel other enough]
  rfl

end Rv32Stimulus.Json
