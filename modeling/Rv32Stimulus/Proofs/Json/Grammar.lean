/-
# Proofs.Json.Grammar -- which texts spell a tree

`Spells` says, without the scanner, that characters are a way to write a tree: tokens, commas,
colons and brackets one after the other, blanks wherever a value begins or ends.  Numerals and quoted
texts are the stretches that their readers take whole.  A text of one part in another place is the
same part there, so members can be exchanged, put in and taken out of a text as they are of a
tree.

The scanner agrees with the grammar in both directions.  What spells a tree is scanned as the tree, in
front of whatever may follow a value (`Spells.scanned`); the fuel is counted against the length of
the text, of which every value takes at least one character.  And what is scanned without a break
was spelled (`reads_all`), so a document that is read spells what it is read as
(`exists_spells_of_document`).
-/
import Rv32Stimulus.Proofs.Json.Extent

namespace Rv32Stimulus.Json

set_option autoImplicit false

open Decimal (Numeral)

variable {chars others rest : List Char} {fuel : Nat}

/-! ## Blanks -/

/-- Nothing but blanks. -/
def Gap (chars : List Char) : Prop := ∀ char ∈ chars, isBlank char = true

theorem gap_nil : Gap [] := nofun

theorem exists_gap_eq (chars : List Char) : ∃ gap, Gap gap ∧ chars = gap ++ skipBlanks chars :=
  ⟨chars.takeWhile isBlank, fun _ => List.mem_takeWhile_imp,
    (List.takeWhile_append_dropWhile ..).symm⟩

theorem skipBlanks_of_ink {char : Char} (ink : isBlank char = false) :
    skipBlanks (char :: rest) = char :: rest := by
  rw [skipBlanks, List.dropWhile_cons_of_neg (by simp [ink])]

theorem skipBlanks_append_of_gap {gap : List Char} (blank : Gap gap) (chars : List Char) :
    skipBlanks (gap ++ chars) = skipBlanks chars :=
  List.dropWhile_append_of_pos blank

theorem skipBlanks_of_gap {gap : List Char} {char : Char} (blank : Gap gap)
    (ink : isBlank char = false) : skipBlanks (gap ++ char :: rest) = char :: rest := by
  rw [skipBlanks_append_of_gap blank, skipBlanks_of_ink ink]

theorem skipBlanks_skipBlanks (chars : List Char) : skipBlanks (skipBlanks chars) = skipBlanks chars :=
  List.dropWhile_idempotent isBlank chars

/-- Blanks and what stands between values do not go on with a numeral. -/
theorem ends_cons {char : Char} (between : char ∈ [',', ':', ']', '\x7d', ' ', '\n', '\t', '\r'])
    (rest : List Char) : Ends (char :: rest) := by
  have each : ∀ char ∈ [',', ':', ']', '\x7d', ' ', '\n', '\t', '\r'],
      char.isDigit = false ∧ char ≠ '.' ∧ char ≠ 'e' ∧ char ≠ 'E' := by simp
  obtain ⟨digit, point, small, capital⟩ := each char between
  refine ⟨?_, fun member => point ?_, fun member => small ?_, fun member => capital ?_⟩
  · rintro _ ⟨⟩
    exact digit
  all_goals exact Option.some.inj member

theorem ends_append_of_gap {gap : List Char} (blank : Gap gap) (ends : Ends rest) :
    Ends (gap ++ rest) := by
  cases gap with
  | nil => exact ends
  | cons char gap =>
      have isBlank_ : isBlank char = true := blank char List.mem_cons_self
      simp only [isBlank, Bool.or_eq_true, beq_iff_eq] at isBlank_
      exact ends_cons (by simp; tauto) _

/-! ## The grammar -/

/-- What a stretch of a text can stand for. -/
inductive Part where
  | value (tree : Json)
  /-- The items of an array, at least one, without the brackets. -/
  | items (trees : List Json)
  /-- The members of an object, at least one, without the braces. -/
  | members (entries : List (Json × Json))

/-- The characters are a way to write the part.  A value may have blanks around it. -/
inductive Spells : List Char → Part → Prop
  | null : Spells "null".toList (.value .null)
  | bool (truth : Bool) : Spells (if truth then "true" else "false").toList (.value (.bool truth))
  | number {chars : List Char} {numeral : Numeral} (read : numeral? chars = some (numeral, [])) :
      Spells chars (.value (.number numeral))
  | string {chars : List Char} {content : Option String}
      (read : quoted? chars.length chars = some (.string content, [])) :
      Spells ('"' :: chars) (.value (.string content))
  | padded {before chars after : List Char} {tree : Json} (lead : Gap before) (trail : Gap after)
      (spelled : Spells chars (.value tree)) : Spells (before ++ (chars ++ after)) (.value tree)
  | emptyArray {gap : List Char} (blank : Gap gap) :
      Spells ('[' :: (gap ++ [']'])) (.value (.array []))
  | array {chars : List Char} {trees : List Json} (inside : Spells chars (.items trees)) :
      Spells ('[' :: (chars ++ [']'])) (.value (.array trees))
  | emptyObject {gap : List Char} (blank : Gap gap) :
      Spells ('\x7b' :: (gap ++ ['\x7d'])) (.value (.object []))
  | object {chars : List Char} {entries : List (Json × Json)}
      (inside : Spells chars (.members entries)) :
      Spells ('\x7b' :: (chars ++ ['\x7d'])) (.value (.object entries))
  | item {chars : List Char} {tree : Json} (only : Spells chars (.value tree)) :
      Spells chars (.items [tree])
  | items {chars others : List Char} {tree : Json} {trees : List Json}
      (first : Spells chars (.value tree)) (later : Spells others (.items trees)) :
      Spells (chars ++ ',' :: others) (.items (tree :: trees))
  | member {chars others : List Char} {name : Option String} {tree : Json}
      (named : Spells chars (.value (.string name))) (valued : Spells others (.value tree)) :
      Spells (chars ++ ':' :: others) (.members [(.string name, tree)])
  | members {chars others more : List Char} {name : Option String} {tree : Json}
      {entries : List (Json × Json)} (named : Spells chars (.value (.string name)))
      (valued : Spells others (.value tree)) (later : Spells more (.members entries)) :
      Spells (chars ++ ':' :: (others ++ ',' :: more)) (.members ((.string name, tree) :: entries))

namespace Spells

/-- Blanks may stand in front of every part. -/
theorem lead {part : Part} {gap : List Char} (blank : Gap gap) (spelled : Spells chars part) :
    Spells (gap ++ chars) part := by
  have value {chars : List Char} {tree : Json} (spelled : Spells chars (.value tree)) :
      Spells (gap ++ chars) (.value tree) := by
    have padded := Spells.padded blank gap_nil spelled
    rwa [List.append_nil] at padded
  cases part with
  | value tree => exact value spelled
  | items trees =>
      cases spelled with
      | item only => exact .item (value only)
      | items first later =>
          rw [← List.append_assoc]
          exact .items (value first) later
  | members entries =>
      cases spelled with
      | member named valued =>
          rw [← List.append_assoc]
          exact .member (value named) valued
      | members named valued later =>
          rw [← List.append_assoc]
          exact .members (value named) valued later

/-- Blanks may stand behind every part. -/
theorem trail {part : Part} {gap : List Char} (spelled : Spells chars part) (blank : Gap gap) :
    Spells (chars ++ gap) part := by
  have value {chars : List Char} {tree : Json} (spelled : Spells chars (.value tree)) :
      Spells (chars ++ gap) (.value tree) :=
    .padded gap_nil blank spelled
  cases part with
  | value tree => exact value spelled
  | items trees =>
      induction trees generalizing chars with
      | nil => cases spelled
      | cons tree trees ih =>
          cases spelled with
          | item only => exact .item (value only)
          | items first later =>
              rw [List.append_assoc]
              exact .items first (ih later)
  | members entries =>
      induction entries generalizing chars with
      | nil => cases spelled
      | cons entry entries ih =>
          cases spelled with
          | member named valued =>
              rw [List.append_assoc]
              exact .member named (value valued)
          | members named valued later =>
              rw [List.append_assoc, List.cons_append, List.append_assoc]
              exact .members named valued (ih later)

end Spells

/-! ## How a part begins -/

/-- The first ink is no closing bracket. -/
def Begins (chars : List Char) : Prop :=
  ∃ first more, skipBlanks chars = first :: more ∧ first ≠ ']' ∧ first ≠ '\x7d'

theorem Begins.append (begins : Begins chars) (rest : List Char) : Begins (chars ++ rest) := by
  obtain ⟨first, more, split_, bracket, brace⟩ := begins
  refine ⟨first, more ++ rest, ?_, bracket, brace⟩
  unfold skipBlanks at split_ ⊢
  rw [List.dropWhile_append, split_]
  rfl

theorem begins_cons {first : Char}
    (ink : isBlank first = false ∧ first ≠ ']' ∧ first ≠ '\x7d') (more : List Char) :
    Begins (first :: more) :=
  ⟨first, more, skipBlanks_of_ink ink.1, ink.2⟩

theorem ink_of_isDigit {char : Char} (isDigit : char.isDigit = true) :
    isBlank char = false ∧ char ≠ ']' ∧ char ≠ '\x7d' := by
  refine ⟨?_, ?_, ?_⟩
  · by_contra blank
    simp only [isBlank, Bool.or_eq_true, beq_iff_eq, Bool.not_eq_false] at blank
    rcases blank with ((rfl | rfl) | rfl) | rfl <;> cases isDigit
  · rintro rfl
    cases isDigit
  · rintro rfl
    cases isDigit

theorem Spells.begins {part : Part} (spelled : Spells chars part) : Begins chars := by
  induction spelled with
  | null => exact begins_cons (by decide) _
  | bool truth => cases truth <;> exact begins_cons (by decide) _
  | number read =>
      obtain ⟨first, front, rfl, starts, -⟩ := exists_numeral?_eq read
      rcases starts with rfl | isDigit
      · exact begins_cons (by decide) _
      · exact begins_cons (ink_of_isDigit isDigit) _
  | string => exact begins_cons (by decide) _
  | padded lead trail spelled ih =>
      obtain ⟨first, more, split_, apart⟩ := ih.append _
      exact ⟨first, more, (skipBlanks_append_of_gap lead _).trans split_, apart⟩
  | emptyArray => exact begins_cons (by decide) _
  | array => exact begins_cons (by decide) _
  | emptyObject => exact begins_cons (by decide) _
  | object => exact begins_cons (by decide) _
  | item only ih => exact ih
  | items first later ih _ => exact ih.append _
  | member named valued ih _ => exact ih.append _
  | members named valued later ih _ _ => exact ih.append _

/-! ## Steps of the scanner -/

section Steps

variable {left after between other : List Char} {name : Option String} {tree : Json}

theorem value_of_skipBlanks (same : skipBlanks chars = skipBlanks other) :
    value (fuel + 1) chars = value (fuel + 1) other := by
  rw [value, value, same]

theorem items_of_skipBlanks (same : skipBlanks chars = skipBlanks other) :
    items (fuel + 2) chars = items (fuel + 2) other := by
  rw [items, items, value_of_skipBlanks same]

theorem members_of_skipBlanks (same : skipBlanks chars = skipBlanks other) :
    members (fuel + 2) chars = members (fuel + 2) other := by
  rw [members, members, value_of_skipBlanks same]

theorem value_numeral {first : Char} (starts : first = '-' ∨ first.isDigit = true)
    (chars : List Char) : value (fuel + 1) (first :: chars) =
      ((numeral? (first :: chars)).map fun read => (.number read.1, read.2)).getD
        (.broken, chars) := by
  have ink : isBlank first = false := by
    rcases starts with rfl | isDigit
    · rfl
    · exact (ink_of_isDigit isDigit).1
  rw [value, skipBlanks_of_ink ink]
  split
  · rename_i same
    cases same
  · rename_i same
    cases same
    exact absurd starts (by decide)
  · rename_i same
    cases same
    exact absurd starts (by decide)
  · rename_i same
    cases same
    exact absurd starts (by decide)
  · rename_i same
    cases same
    rw [if_pos starts]

theorem value_bracket (fuel : Nat) (chars : List Char) :
    value (fuel + 1) ('[' :: chars) =
      match skipBlanks chars with
      | ']' :: rest => (.array [], rest)
      | rest => (.array (items fuel rest).1, (items fuel rest).2) := rfl

/-- The items of an array behind its opening bracket. -/
theorem value_array (notEmpty : ∀ more, skipBlanks chars ≠ ']' :: more) :
    value (fuel + 3) ('[' :: chars) =
      (.array (items (fuel + 2) chars).1, (items (fuel + 2) chars).2) := by
  rw [value_bracket, items_of_skipBlanks (skipBlanks_skipBlanks chars).symm]
  split
  · rename_i rest closed
    exact absurd closed (notEmpty rest)
  · rfl

theorem items_last (read : value fuel chars = (tree, left))
    (closed : skipBlanks left = ']' :: rest) : items (fuel + 1) chars = ([tree], rest) := by
  rw [items, read]
  dsimp only
  rw [closed]
  rfl

theorem items_cons (read : value fuel chars = (tree, left)) (more : skipBlanks left = ',' :: rest) :
    items (fuel + 1) chars = (tree :: (items fuel rest).1, (items fuel rest).2) := by
  rw [items, read]
  dsimp only
  rw [more]
  rfl

theorem value_brace (fuel : Nat) (chars : List Char) :
    value (fuel + 1) ('\x7b' :: chars) =
      match skipBlanks chars with
      | '\x7d' :: rest => (.object [], rest)
      | rest => (.object (members fuel rest).1, (members fuel rest).2) := rfl

/-- The members of an object behind its opening brace. -/
theorem value_object (notEmpty : ∀ more, skipBlanks chars ≠ '\x7d' :: more) :
    value (fuel + 3) ('\x7b' :: chars) =
      (.object (members (fuel + 2) chars).1, (members (fuel + 2) chars).2) := by
  rw [value_brace, members_of_skipBlanks (skipBlanks_skipBlanks chars).symm]
  split
  · rename_i rest closed
    exact absurd closed (notEmpty rest)
  · rfl

/-- The value of a member behind its name. -/
theorem members_of_name (named : value fuel chars = (.string name, between))
    (colon : skipBlanks between = ':' :: after) :
    members (fuel + 1) chars =
      match skipBlanks (value fuel after).2 with
      | ',' :: rest =>
          ((.string name, (value fuel after).1) :: (members fuel rest).1, (members fuel rest).2)
      | '\x7d' :: rest => ([(.string name, (value fuel after).1)], rest)
      | rest => ([(.string name, (value fuel after).1), (.broken, .broken)], rest) := by
  rw [members, named]
  dsimp only
  rw [colon]
  rfl

theorem members_last (named : value fuel chars = (.string name, between))
    (colon : skipBlanks between = ':' :: after) (read : value fuel after = (tree, left))
    (closed : skipBlanks left = '\x7d' :: rest) :
    members (fuel + 1) chars = ([(.string name, tree)], rest) := by
  rw [members_of_name named colon, read]
  dsimp only
  rw [closed]
  rfl

theorem members_cons (named : value fuel chars = (.string name, between))
    (colon : skipBlanks between = ':' :: after) (read : value fuel after = (tree, left))
    (more : skipBlanks left = ',' :: rest) :
    members (fuel + 1) chars =
      ((.string name, tree) :: (members fuel rest).1, (members fuel rest).2) := by
  rw [members_of_name named colon, read]
  dsimp only
  rw [more]
  rfl

end Steps

/-! ## What is spelled is scanned -/

/-- The scanner makes the part of the characters, in front of what may follow the part. -/
def Scanned (chars : List Char) : Part → Prop
  | .value tree => ∀ fuel rest, Ends rest → 2 * chars.length < fuel →
      ∃ left, value fuel (chars ++ rest) = (tree, left) ∧ skipBlanks left = skipBlanks rest
  | .items trees => ∀ fuel rest, 2 * chars.length + 1 < fuel →
      items fuel (chars ++ ']' :: rest) = (trees, rest)
  | .members entries => ∀ fuel rest, 2 * chars.length + 1 < fuel →
      members fuel (chars ++ '\x7d' :: rest) = (entries, rest)

section Scanning

variable {tree : Json} {trees : List Json} {entries : List (Json × Json)} {name : Option String}

theorem exists_fuel_eq {least : Nat} (enough : least < fuel) : ∃ less, fuel = less + 1 :=
  Nat.exists_eq_succ_of_ne_zero (Nat.ne_of_gt (Nat.zero_lt_of_lt enough))

theorem scanned_null : Scanned "null".toList (.value .null) := by
  intro fuel rest ends enough
  obtain ⟨fuel, rfl⟩ := exists_fuel_eq enough
  exact ⟨rest, rfl, rfl⟩

theorem scanned_bool (truth : Bool) :
    Scanned (if truth then "true" else "false").toList (.value (.bool truth)) := by
  intro fuel rest ends enough
  obtain ⟨fuel, rfl⟩ := exists_fuel_eq enough
  cases truth <;> exact ⟨rest, rfl, rfl⟩

theorem scanned_number {numeral : Numeral} (read : numeral? chars = some (numeral, [])) :
    Scanned chars (.value (.number numeral)) := by
  intro fuel rest ends enough
  obtain ⟨fuel, rfl⟩ := exists_fuel_eq enough
  obtain ⟨first, front, rfl, starts, again⟩ := exists_numeral?_eq read
  refine ⟨rest, ?_, rfl⟩
  rw [List.append_nil, List.cons_append, value_numeral starts, again rest ends]
  rfl

theorem scanned_string (read : quoted? chars.length chars = some (.string name, [])) :
    Scanned ('"' :: chars) (.value (.string name)) := by
  intro fuel rest ends enough
  obtain ⟨fuel, rfl⟩ := exists_fuel_eq enough
  obtain ⟨_, first, front, -, rfl, again⟩ := exists_quoted?_eq read
  simp only [List.append_nil, List.length_cons] at enough ⊢
  have step : value (fuel + 1) ('"' :: (first :: front ++ rest)) =
      (quoted? fuel (first :: (front ++ rest))).getD (.broken, first :: (front ++ rest)) := rfl
  refine ⟨rest, ?_, rfl⟩
  rw [List.cons_append, step, again fuel rest (by omega)]
  rfl

theorem scanned_padded {before after : List Char} (lead : Gap before) (trail : Gap after)
    (scanned : Scanned chars (.value tree)) :
    Scanned (before ++ (chars ++ after)) (.value tree) := by
  intro fuel rest ends enough
  simp only [List.length_append] at enough
  obtain ⟨fuel, rfl⟩ := exists_fuel_eq enough
  obtain ⟨left, read, same⟩ :=
    scanned (fuel + 1) (after ++ rest) (ends_append_of_gap trail ends) (by omega)
  refine ⟨left, ?_, same.trans (skipBlanks_append_of_gap trail rest)⟩
  rw [List.append_assoc, List.append_assoc]
  exact (value_of_skipBlanks (skipBlanks_append_of_gap lead _)).trans read

theorem scanned_emptyArray {gap : List Char} (blank : Gap gap) :
    Scanned ('[' :: (gap ++ [']'])) (.value (.array [])) := by
  intro fuel rest ends enough
  obtain ⟨fuel, rfl⟩ := exists_fuel_eq enough
  have closed : skipBlanks (gap ++ ']' :: rest) = ']' :: rest := skipBlanks_of_gap blank (by decide)
  refine ⟨rest, ?_, rfl⟩
  rw [List.cons_append, List.append_assoc, List.singleton_append, value_bracket, closed]
  rfl

theorem scanned_array (begins : Begins chars) (scanned : Scanned chars (.items trees)) :
    Scanned ('[' :: (chars ++ [']'])) (.value (.array trees)) := by
  intro fuel rest ends enough
  simp only [List.length_append, List.length_cons, List.length_nil] at enough
  obtain ⟨fuel, rfl⟩ : ∃ less, fuel = less + 3 := Nat.exists_eq_add_of_le' (by omega)
  obtain ⟨first, more, split_, bracket, -⟩ := begins.append (']' :: rest)
  refine ⟨rest, ?_, rfl⟩
  rw [List.cons_append, List.append_assoc, List.singleton_append, value_array,
    scanned _ _ (by omega)]
  intro others closed
  rw [split_] at closed
  exact bracket (List.cons.inj closed).1

theorem scanned_emptyObject {gap : List Char} (blank : Gap gap) :
    Scanned ('\x7b' :: (gap ++ ['\x7d'])) (.value (.object [])) := by
  intro fuel rest ends enough
  obtain ⟨fuel, rfl⟩ := exists_fuel_eq enough
  have closed : skipBlanks (gap ++ '\x7d' :: rest) = '\x7d' :: rest :=
    skipBlanks_of_gap blank (by decide)
  refine ⟨rest, ?_, rfl⟩
  rw [List.cons_append, List.append_assoc, List.singleton_append, value_brace, closed]
  rfl

theorem scanned_object (begins : Begins chars) (scanned : Scanned chars (.members entries)) :
    Scanned ('\x7b' :: (chars ++ ['\x7d'])) (.value (.object entries)) := by
  intro fuel rest ends enough
  simp only [List.length_append, List.length_cons, List.length_nil] at enough
  obtain ⟨fuel, rfl⟩ : ∃ less, fuel = less + 3 := Nat.exists_eq_add_of_le' (by omega)
  obtain ⟨first, more, split_, -, brace⟩ := begins.append ('\x7d' :: rest)
  refine ⟨rest, ?_, rfl⟩
  rw [List.cons_append, List.append_assoc, List.singleton_append, value_object,
    scanned _ _ (by omega)]
  intro others closed
  rw [split_] at closed
  exact brace (List.cons.inj closed).1

theorem scanned_item (scanned : Scanned chars (.value tree)) : Scanned chars (.items [tree]) := by
  intro fuel rest enough
  obtain ⟨fuel, rfl⟩ := exists_fuel_eq enough
  obtain ⟨left, read, closed⟩ := scanned fuel (']' :: rest) (ends_cons (by decide) _) (by omega)
  exact items_last read closed

theorem scanned_items (first : Scanned chars (.value tree))
    (later : Scanned others (.items trees)) :
    Scanned (chars ++ ',' :: others) (.items (tree :: trees)) := by
  intro fuel rest enough
  simp only [List.length_append, List.length_cons] at enough
  obtain ⟨fuel, rfl⟩ := exists_fuel_eq enough
  obtain ⟨left, read, comma⟩ :=
    first fuel (',' :: (others ++ ']' :: rest)) (ends_cons (by decide) _) (by omega)
  rw [List.append_assoc, List.cons_append, items_cons read comma, later fuel rest (by omega)]

theorem scanned_member (named : Scanned chars (.value (.string name)))
    (valued : Scanned others (.value tree)) :
    Scanned (chars ++ ':' :: others) (.members [(.string name, tree)]) := by
  intro fuel rest enough
  simp only [List.length_append, List.length_cons] at enough
  obtain ⟨fuel, rfl⟩ := exists_fuel_eq enough
  obtain ⟨between, readName, colon⟩ :=
    named fuel (':' :: (others ++ '\x7d' :: rest)) (ends_cons (by decide) _) (by omega)
  obtain ⟨left, readValue, closed⟩ :=
    valued fuel ('\x7d' :: rest) (ends_cons (by decide) _) (by omega)
  rw [List.append_assoc, List.cons_append]
  exact members_last readName colon readValue closed

theorem scanned_members {more : List Char} (named : Scanned chars (.value (.string name)))
    (valued : Scanned others (.value tree)) (later : Scanned more (.members entries)) :
    Scanned (chars ++ ':' :: (others ++ ',' :: more)) (.members ((.string name, tree) :: entries)) := by
  intro fuel rest enough
  simp only [List.length_append, List.length_cons] at enough
  obtain ⟨fuel, rfl⟩ := exists_fuel_eq enough
  obtain ⟨between, readName, colon⟩ :=
    named fuel (':' :: (others ++ ',' :: (more ++ '\x7d' :: rest))) (ends_cons (by decide) _) (by omega)
  obtain ⟨left, readValue, comma⟩ :=
    valued fuel (',' :: (more ++ '\x7d' :: rest)) (ends_cons (by decide) _) (by omega)
  rw [List.append_assoc, List.cons_append, List.append_assoc, List.cons_append,
    members_cons readName colon readValue comma, later fuel rest (by omega)]

theorem Spells.scanned {part : Part} (spelled : Spells chars part) : Scanned chars part := by
  induction spelled with
  | null => exact scanned_null
  | bool truth => exact scanned_bool truth
  | number read => exact scanned_number read
  | string read => exact scanned_string read
  | padded lead trail _ ih => exact scanned_padded lead trail ih
  | emptyArray blank => exact scanned_emptyArray blank
  | array inside ih => exact scanned_array inside.begins ih
  | emptyObject blank => exact scanned_emptyObject blank
  | object inside ih => exact scanned_object inside.begins ih
  | item _ ih => exact scanned_item ih
  | items _ _ first later => exact scanned_items first later
  | member _ _ named valued => exact scanned_member named valued
  | members _ _ _ named valued later => exact scanned_members named valued later

end Scanning

/-! ## What is scanned was spelled -/

theorem eq_append_of_afterWord? {word : List Char} (read : afterWord? word chars = some rest) :
    chars = word ++ rest := by
  induction word generalizing chars with
  | nil => exact Option.some.inj read
  | cons letter word ih =>
      cases chars with
      | nil => cases read
      | cons char chars =>
          rw [afterWord?] at read
          split at read
          · rename_i same
            rw [same, ih read]
            rfl
          · cases read

/-- The value was taken off the front. -/
def Spelled (chars rest : List Char) (tree : Json) : Prop :=
  ∃ front, chars = front ++ rest ∧ Spells front (.value tree)

/-- What the scanner gives at some fuel was spelled, if it is complete. -/
structure Reads (fuel : Nat) : Prop where
  value : ∀ chars rest tree, Json.value fuel chars = (tree, rest) → tree.isComplete = true →
    Spelled chars rest tree
  items : ∀ chars rest trees, Json.items fuel chars = (trees, rest) → areComplete trees = true →
    ∃ front, chars = front ++ ']' :: rest ∧ Spells front (.items trees)
  members : ∀ chars rest entries, Json.members fuel chars = (entries, rest) →
    membersComplete entries = true →
      ∃ front, chars = front ++ '\x7d' :: rest ∧ Spells front (.members entries)

section Reading

variable {tree : Json} {trees : List Json} {entries : List (Json × Json)}

theorem spelled_word (read : word? chars = some (tree, rest)) : Spelled chars rest tree := by
  unfold word? at read
  split at read
  · rename_i after found
    obtain ⟨rfl, rfl⟩ : .null = tree ∧ after = rest := by simpa using read
    exact ⟨_, eq_append_of_afterWord? found, .null⟩
  · split at read
    · rename_i after found
      obtain ⟨rfl, rfl⟩ : .bool true = tree ∧ after = rest := by simpa using read
      exact ⟨_, eq_append_of_afterWord? found, .bool true⟩
    · obtain ⟨after, found, same⟩ := Option.map_eq_some_iff.1 read
      obtain ⟨rfl, rfl⟩ : .bool false = tree ∧ after = rest := by simpa using same
      exact ⟨_, eq_append_of_afterWord? found, .bool false⟩

theorem spelled_numeral (complete : tree.isComplete = true) {left : List Char}
    (read : ((numeral? chars).map fun read => (.number read.1, read.2)).getD (.broken, left) =
      (tree, rest)) : Spelled chars rest tree := by
  cases found : numeral? chars with
  | none =>
      rw [found] at read
      obtain ⟨rfl, -⟩ := Prod.mk.inj read
      cases complete
  | some result =>
      obtain ⟨numeral, left⟩ := result
      rw [found] at read
      obtain ⟨rfl, rfl⟩ : .number numeral = tree ∧ left = rest := by simpa using read
      obtain ⟨first, front, split_, -, again⟩ := exists_numeral?_eq found
      have whole := again [] ends_nil
      rw [List.append_nil] at whole
      exact ⟨first :: front, split_, .number whole⟩

theorem spelled_quoted (complete : tree.isComplete = true)
    (read : (quoted? fuel chars).getD (.broken, chars) = (tree, rest)) :
    Spelled ('"' :: chars) rest tree := by
  cases found : quoted? fuel chars with
  | none =>
      rw [found] at read
      obtain ⟨rfl, -⟩ := Prod.mk.inj read
      cases complete
  | some result =>
      rw [found] at read
      obtain rfl : result = (tree, rest) := read
      obtain ⟨content, first, front, rfl, rfl, again⟩ := exists_quoted?_eq found
      have whole := again (first :: front).length [] (Nat.lt_succ_self _)
      rw [List.append_nil] at whole
      exact ⟨'"' :: first :: front, rfl, .string whole⟩

theorem Reads.spelled_bracket (reads : Reads fuel)
    (read : Json.value (fuel + 1) ('[' :: chars) = (tree, rest)) (complete : tree.isComplete = true) :
    Spelled ('[' :: chars) rest tree := by
  obtain ⟨gap, blank, split_⟩ := exists_gap_eq chars
  rw [value_bracket] at read
  split at read
  · rename_i closed
    obtain ⟨rfl, rfl⟩ := Prod.mk.inj read
    rw [closed] at split_
    exact ⟨'[' :: (gap ++ [']']), by simp [split_], .emptyArray blank⟩
  · cases inside : Json.items fuel (skipBlanks chars) with
    | mk trees left =>
        rw [inside] at read
        obtain ⟨rfl, rfl⟩ := Prod.mk.inj read
        rw [isComplete] at complete
        obtain ⟨front, same, spells⟩ := reads.items _ _ _ inside complete
        exact ⟨'[' :: (gap ++ front ++ [']']), by rw [split_, same]; simp,
          .array (spells.lead blank)⟩

theorem Reads.spelled_brace (reads : Reads fuel)
    (read : Json.value (fuel + 1) ('\x7b' :: chars) = (tree, rest))
    (complete : tree.isComplete = true) : Spelled ('\x7b' :: chars) rest tree := by
  obtain ⟨gap, blank, split_⟩ := exists_gap_eq chars
  rw [value_brace] at read
  split at read
  · rename_i closed
    obtain ⟨rfl, rfl⟩ := Prod.mk.inj read
    rw [closed] at split_
    exact ⟨'\x7b' :: (gap ++ ['\x7d']), by simp [split_], .emptyObject blank⟩
  · cases inside : Json.members fuel (skipBlanks chars) with
    | mk entries left =>
        rw [inside] at read
        obtain ⟨rfl, rfl⟩ := Prod.mk.inj read
        rw [isComplete] at complete
        obtain ⟨front, same, spells⟩ := reads.members _ _ _ inside complete
        exact ⟨'\x7b' :: (gap ++ front ++ ['\x7d']), by rw [split_, same]; simp,
          .object (spells.lead blank)⟩

/-- A value, by its first character behind the blanks. -/
theorem Reads.spelled_value (reads : Reads fuel)
    (read : Json.value (fuel + 1) chars = (tree, rest)) (complete : tree.isComplete = true) :
    Spelled chars rest tree := by
  obtain ⟨gap, blank, split_⟩ := exists_gap_eq chars
  suffices spelled : Spelled (skipBlanks chars) rest tree by
    obtain ⟨front, same, spells⟩ := spelled
    exact ⟨gap ++ front, by rw [split_, same, List.append_assoc], spells.lead blank⟩
  rw [Json.value] at read
  generalize skipBlanks chars = ink at read ⊢
  split at read
  · obtain ⟨rfl, -⟩ := Prod.mk.inj read
    cases complete
  · exact reads.spelled_bracket ((value_bracket fuel _).trans read) complete
  · exact reads.spelled_brace ((value_brace fuel _).trans read) complete
  · exact spelled_quoted complete read
  · split at read
    · exact spelled_numeral complete read
    · rename_i first after _ _ _ _
      cases found : word? (first :: after) with
      | none =>
          rw [found] at read
          obtain ⟨rfl, -⟩ := Prod.mk.inj read
          cases complete
      | some result =>
          rw [found] at read
          obtain rfl : result = (tree, rest) := read
          exact spelled_word found

theorem Reads.spelled_items (reads : Reads fuel)
    (read : Json.items (fuel + 1) chars = (trees, rest)) (complete : areComplete trees = true) :
    ∃ front, chars = front ++ ']' :: rest ∧ Spells front (.items trees) := by
  cases first : Json.value fuel chars with
  | mk tree left =>
      obtain ⟨gap, blank, split_⟩ := exists_gap_eq left
      rw [Json.items, first] at read
      dsimp only at read
      split at read
      · rename_i after comma
        cases later : Json.items fuel after with
        | mk more other =>
            rw [later] at read
            obtain ⟨rfl, rfl⟩ := Prod.mk.inj read
            simp only [areComplete, Bool.and_eq_true] at complete
            obtain ⟨front, rfl, spells⟩ := reads.value _ _ _ first complete.1
            obtain ⟨back, rfl, spellsMore⟩ := reads.items _ _ _ later complete.2
            refine ⟨front ++ gap ++ ',' :: back, ?_, .items (spells.trail blank) spellsMore⟩
            rw [split_, comma]
            simp
      · rename_i after closed
        obtain ⟨rfl, rfl⟩ := Prod.mk.inj read
        simp only [areComplete, Bool.and_eq_true, and_true] at complete
        obtain ⟨front, rfl, spells⟩ := reads.value _ _ _ first complete
        refine ⟨front ++ gap, ?_, .item (spells.trail blank)⟩
        rw [split_, closed, List.append_assoc]
      · obtain ⟨rfl, -⟩ := Prod.mk.inj read
        simp [areComplete, isComplete] at complete

theorem Reads.spelled_members (reads : Reads fuel)
    (read : Json.members (fuel + 1) chars = (entries, rest))
    (complete : membersComplete entries = true) :
    ∃ front, chars = front ++ '\x7d' :: rest ∧ Spells front (.members entries) := by
  cases first : Json.value fuel chars with
  | mk name between =>
      obtain ⟨gap, blank, split_⟩ := exists_gap_eq between
      rw [Json.members, first] at read
      dsimp only at read
      split at read
      · rename_i content after colon
        obtain ⟨front, rfl, spellsName⟩ := reads.value _ _ _ first rfl
        cases second : Json.value fuel after with
        | mk tree left =>
            obtain ⟨space, spaces, splitLeft⟩ := exists_gap_eq left
            rw [second] at read
            dsimp only at read
            split at read
            · rename_i later comma
              cases more : Json.members fuel later with
              | mk others other =>
                  rw [more] at read
                  obtain ⟨rfl, rfl⟩ := Prod.mk.inj read
                  simp only [membersComplete, Bool.and_eq_true] at complete
                  obtain ⟨middle, rfl, spells⟩ := reads.value _ _ _ second complete.1.2
                  obtain ⟨back, rfl, spellsMore⟩ := reads.members _ _ _ more complete.2
                  refine ⟨front ++ gap ++ ':' :: (middle ++ space ++ ',' :: back), ?_,
                    .members (spellsName.trail blank) (spells.trail spaces) spellsMore⟩
                  rw [split_, colon, splitLeft, comma]
                  simp
            · rename_i later closed
              obtain ⟨rfl, rfl⟩ := Prod.mk.inj read
              simp only [membersComplete, Bool.and_eq_true] at complete
              obtain ⟨middle, rfl, spells⟩ := reads.value _ _ _ second complete.1.2
              refine ⟨front ++ gap ++ ':' :: (middle ++ space), ?_,
                .member (spellsName.trail blank) (spells.trail spaces)⟩
              rw [split_, colon, splitLeft, closed]
              simp
            · obtain ⟨rfl, -⟩ := Prod.mk.inj read
              simp [membersComplete, isComplete] at complete
      · obtain ⟨rfl, -⟩ := Prod.mk.inj read
        simp [membersComplete, isComplete] at complete

theorem reads_all (fuel : Nat) : Reads fuel := by
  induction fuel with
  | zero =>
      -- Without fuel everything is broken.
      refine ⟨fun _ _ _ read complete => ?_, fun _ _ _ read complete => ?_,
        fun _ _ _ read complete => ?_⟩ <;>
      · obtain ⟨rfl, -⟩ := Prod.mk.inj read
        cases complete
  | succ fuel ih =>
      exact ⟨fun _ _ _ => ih.spelled_value, fun _ _ _ => ih.spelled_items,
        fun _ _ _ => ih.spelled_members⟩

end Reading

/-! ## Documents -/

section Documents

variable {α : Type} {reader : Reader α} {content : String} {tree : Json} {result : α}

theorem document_eq (scanned : scan content.toList = (tree, rest)) :
    document reader content = (reader tree).bind fun result =>
      if (skipBlanks rest).isEmpty then .ok result else .error .notJson := by
  rw [document, scanned]
  rfl

/-- A text that spells a tree is read as the tree is. -/
theorem Spells.document_eq (spelled : Spells content.toList (.value tree)) :
    document reader content = reader tree := by
  obtain ⟨left, read, same⟩ :=
    spelled.scanned (2 * content.toList.length + 2) [] ends_nil (by omega)
  rw [List.append_nil] at read
  rw [Json.document_eq (show scan content.toList = (tree, left) from read), same]
  cases reader tree <;> rfl

/-- A text that is read spells a tree, if the reader asks for complete ones. -/
theorem exists_spells_of_document
    (complete : ∀ tree, reader tree = .ok result → tree.isComplete = true)
    (read : document reader content = .ok result) :
    ∃ tree, Spells content.toList (.value tree) ∧ reader tree = .ok result := by
  cases scanned : scan content.toList with
  | mk tree rest =>
      rw [Json.document_eq scanned] at read
      cases given : reader tree with
      | error problem =>
          rw [given] at read
          cases read
      | ok value =>
          rw [given] at read
          change (if (skipBlanks rest).isEmpty then .ok value else .error .notJson :
            Except Problem α) = _ at read
          split at read
          · rename_i ended
            obtain rfl := Except.ok.inj read
            obtain ⟨front, split_, spells⟩ :=
              (reads_all _).value _ _ _ scanned (complete tree given)
            obtain ⟨gap, blank, trailing⟩ := exists_gap_eq rest
            refine ⟨tree, ?_, given⟩
            rw [split_, trailing, List.isEmpty_iff.1 ended, List.append_nil]
            exact spells.trail blank
          · cases read

end Documents

end Rv32Stimulus.Json
