/-
# Proofs.Isa.FieldText -- which texts are field values

`FieldBits.Spells` is the grammar of field values: blanks at either end, one mark of hexadecimal
numbers or none, one plus sign or none, and digits of either case.  What a text says follows
from it: nothing but blanks is an absent field (`ofText?_eq_absent_iff`), a spelling of a number
below `2 ^ 32` is that number (`ofText?_eq_value_iff`), and nothing else is a field
(`ofText?_eq_none_iff`).

The blanks of a spelling are all outside it, so trimming leaves the spelling (`Text.trim_append`).
Neither a mark nor a sign can be taken for digits, so taking them off leaves the digits
(`afterPlus_afterMark`).
-/
import Mathlib.Data.List.DropRight
import Mathlib.Data.Nat.Digits.Defs
import Mathlib.Tactic.IntervalCases
import Rv32Stimulus.Isa.FieldBits
import Rv32Stimulus.Proofs.Text.Reading

namespace Rv32Stimulus

set_option autoImplicit false

/-! ## Texts between blanks -/

namespace Text

variable {before core after chars : List Char}

/-- Every character is a blank. -/
def Blank (chars : List Char) : Prop := ∀ char ∈ chars, isBlank char = true

/-- No character is a blank. -/
def Inked (chars : List Char) : Prop := ∀ char ∈ chars, isBlank char = false

/-- Blanks in front are dropped up to the first other character. -/
theorem dropWhile_isBlank_append (blank : Blank before) {first : Char} (ink : isBlank first = false)
    (rest : List Char) : (before ++ first :: rest).dropWhile isBlank = first :: rest := by
  rw [List.dropWhile_append_of_pos blank, List.dropWhile_cons_of_neg (by simp [ink])]

theorem trim_of_blank (blank : Blank chars) : trim chars = [] := by
  have nothing : chars.dropWhile isBlank = [] := List.dropWhile_eq_nil_iff.2 blank
  simp [trim, nothing]

theorem trim_append (outside : Blank before) (inked : Inked core) (behind : Blank after) :
    trim (before ++ core ++ after) = core := by
  have blank : Blank after.reverse := fun char member => behind char (List.mem_reverse.1 member)
  have reversed : Inked core.reverse := fun char member => inked char (List.mem_reverse.1 member)
  cases core with
  | nil =>
      rw [List.append_nil]
      exact trim_of_blank (List.forall_mem_append.2 ⟨outside, behind⟩)
  | cons first rest =>
      have kept : (before ++ (first :: rest ++ after)).dropWhile isBlank = first :: rest ++ after :=
        dropWhile_isBlank_append outside (inked first List.mem_cons_self) _
      rw [trim, List.append_assoc, kept, List.reverse_append]
      cases backwards : (first :: rest).reverse with
      | nil => simp at backwards
      | cons last others =>
          rw [backwards] at reversed
          rw [dropWhile_isBlank_append blank (reversed last List.mem_cons_self), ← backwards,
            List.reverse_reverse]

/-- What trimming takes away are blanks. -/
theorem exists_eq_append_trim (chars : List Char) :
    ∃ before after, chars = before ++ trim chars ++ after ∧ Blank before ∧ Blank after := by
  refine ⟨chars.takeWhile isBlank, (chars.dropWhile isBlank).rtakeWhile isBlank, ?_, ?_, ?_⟩
  · have trimmed : trim chars ++ (chars.dropWhile isBlank).rtakeWhile isBlank =
        chars.dropWhile isBlank := List.rdropWhile_append_rtakeWhile
    rw [List.append_assoc, trimmed, List.takeWhile_append_dropWhile]
  · exact fun char member => List.mem_takeWhile_imp member
  · exact fun char member => List.mem_rtakeWhile_imp member

theorem trim_eq_nil_iff : trim chars = [] ↔ Blank chars := by
  refine ⟨fun nothing => ?_, trim_of_blank⟩
  obtain ⟨before, after, split, first, last⟩ := exists_eq_append_trim chars
  rw [nothing, List.append_nil] at split
  rw [split]
  exact List.forall_mem_append.2 ⟨first, last⟩

end Text

namespace FieldBits

open Text (Blank Inked)

/-! ## The grammar -/

/-- The hexadecimal digits of either case. -/
def hexDigits : List Char := "0123456789abcdefABCDEF".toList

/-- What a hexadecimal digit stands for. -/
def digitNumber (digit : Char) : Nat := "0123456789abcdef".toList.idxOf digit.toLower

/-- What digits in base sixteen stand for; the last one counts ones. -/
def hexNumber (digits : List Char) : Nat := Nat.ofDigits 16 (digits.reverse.map digitNumber)

/-- Between blanks the text is a mark or none, a plus sign or none, and the digits of the number. -/
def Spells (content : String) (value : Nat) : Prop :=
  ∃ before mark sign digits after : List Char,
    content.toList = before ++ (mark ++ sign ++ digits) ++ after ∧
    Blank before ∧ Blank after ∧
    (mark = [] ∨ mark = ['0', 'x'] ∨ mark = ['0', 'X']) ∧ (sign = [] ∨ sign = ['+']) ∧
    digits ≠ [] ∧ (∀ digit ∈ digits, digit ∈ hexDigits) ∧ hexNumber digits = value

/-! ## Digits -/

/-- The characters of a list are checked one by one. -/
theorem forall_of_all {chars : List Char} {p : Char → Prop} [DecidablePred p]
    (checked : (chars.all fun char => decide (p char)) = true) : ∀ char ∈ chars, p char := by
  simpa using checked

theorem digitValue?_of_mem : ∀ digit ∈ hexDigits, Text.digitValue? digit = some (digitNumber digit) :=
  forall_of_all (by decide)

theorem mem_hexDigits_of_code : ∀ code < 103, Text.digitValue? (Char.ofNat code) ≠ none →
    Char.ofNat code ∈ hexDigits := by
  decide

theorem digitValue?_eq_none {char : Char} (outside : char ∉ hexDigits) :
    Text.digitValue? char = none := by
  by_contra isDigit
  have code (last : Char) (below : char ≤ last) : char.toNat ≤ last.toNat :=
    UInt32.le_iff_toNat_le.1 below
  have small : char.toNat < 103 := by
    unfold Text.digitValue? at isDigit
    split at isDigit
    · rename_i digit
      exact (code '9' digit.2).trans_lt (by decide)
    · split at isDigit
      · rename_i letter
        exact (code 'f' letter.2).trans_lt (by decide)
      · split at isDigit
        · rename_i capital
          exact (code 'F' capital.2).trans_lt (by decide)
        · exact absurd rfl isDigit
  have member := mem_hexDigits_of_code char.toNat small
  rw [Char.ofNat_toNat] at member
  exact outside (member isDigit)

theorem digitNumber_lt : ∀ digit ∈ hexDigits, digitNumber digit < 16 := forall_of_all (by decide)

theorem hexNumber_cons (digit : Char) (digits : List Char) :
    hexNumber (digit :: digits) = 16 ^ digits.length * digitNumber digit + hexNumber digits := by
  simp [hexNumber, Nat.ofDigits_append, Nat.add_comm]

theorem foldlM_readDigit_eq_some_iff {digits : List Char} {total value : Nat} :
    digits.foldlM (Text.readDigit 16) total = some value ↔
      (∀ digit ∈ digits, digit ∈ hexDigits) ∧
        16 ^ digits.length * total + hexNumber digits = value := by
  induction digits generalizing total with
  | nil => simp [hexNumber, eq_comm]
  | cons digit rest ih =>
      by_cases isDigit : digit ∈ hexDigits
      · have read : Text.readDigit 16 total digit = some (16 * total + digitNumber digit) := by
          simp [Text.readDigit, digitValue?_of_mem digit isDigit, digitNumber_lt digit isDigit]
        have regroup : 16 ^ rest.length * (16 * total + digitNumber digit) + hexNumber rest =
            16 ^ (digit :: rest).length * total + hexNumber (digit :: rest) := by
          rw [hexNumber_cons, List.length_cons, Nat.pow_succ]
          ring
        rw [List.foldlM_cons, read, Option.bind_eq_bind, Option.bind_some, ih, regroup,
          List.forall_mem_cons]
        simp [isDigit]
      · have unread : Text.readDigit 16 total digit = none := by
          simp [Text.readDigit, digitValue?_eq_none isDigit]
        simp [unread, isDigit]

theorem value?_eq_some_iff {digits : List Char} {value : Nat} :
    Text.value? 16 digits = some value ↔
      digits ≠ [] ∧ (∀ digit ∈ digits, digit ∈ hexDigits) ∧ hexNumber digits = value := by
  have reading : Text.value? 16 digits =
      if digits.isEmpty then none else digits.foldlM (Text.readDigit 16) 0 := rfl
  rw [reading]
  cases digits with
  | nil => simp
  | cons digit rest =>
      rw [List.isEmpty_cons, if_neg Bool.false_ne_true, foldlM_readDigit_eq_some_iff]
      simp

/-! ## Marks and signs -/

theorem exists_eq_mark_sign (chars : List Char) :
    ∃ mark sign : List Char, chars = mark ++ sign ++ afterPlus (afterMark chars) ∧
      (mark = [] ∨ mark = ['0', 'x'] ∨ mark = ['0', 'X']) ∧ (sign = [] ∨ sign = ['+']) := by
  have signed (rest : List Char) :
      ∃ sign : List Char, rest = sign ++ afterPlus rest ∧ (sign = [] ∨ sign = ['+']) := by
    unfold afterPlus
    split
    · exact ⟨['+'], rfl, .inr rfl⟩
    · exact ⟨[], rfl, .inl rfl⟩
  obtain ⟨sign, split, isSign⟩ := signed (afterMark chars)
  have marked : ∃ mark : List Char, chars = mark ++ afterMark chars ∧
      (mark = [] ∨ mark = ['0', 'x'] ∨ mark = ['0', 'X']) := by
    unfold afterMark
    split
    · exact ⟨['0', 'x'], rfl, .inr (.inl rfl)⟩
    · exact ⟨['0', 'X'], rfl, .inr (.inr rfl)⟩
    · exact ⟨[], rfl, .inl rfl⟩
  obtain ⟨mark, whole, isMark⟩ := marked
  refine ⟨mark, sign, ?_, isMark, isSign⟩
  rw [List.append_assoc, ← split]
  exact whole

/-- Digits start neither with a sign nor with a mark. -/
theorem afterPlus_afterMark {mark sign digits : List Char}
    (isMark : mark = [] ∨ mark = ['0', 'x'] ∨ mark = ['0', 'X']) (isSign : sign = [] ∨ sign = ['+'])
    (areDigits : ∀ digit ∈ digits, digit ∈ hexDigits) :
    afterPlus (afterMark (mark ++ sign ++ digits)) = digits := by
  have unsigned : afterPlus digits = digits := by
    unfold afterPlus
    split
    · exact absurd (areDigits '+' (by simp)) (by decide)
    · rfl
  have unmarked : afterMark digits = digits := by
    unfold afterMark
    split
    · exact absurd (areDigits 'x' (by simp)) (by decide)
    · exact absurd (areDigits 'X' (by simp)) (by decide)
    · rfl
  rcases isMark with rfl | rfl | rfl <;> rcases isSign with rfl | rfl
  · simpa [unmarked] using unsigned
  · rfl
  · exact unsigned
  · rfl
  · exact unsigned
  · rfl

/-! ## What texts say -/

variable {content : String} {value : Nat}

theorem inked_spelling {mark sign digits : List Char}
    (isMark : mark = [] ∨ mark = ['0', 'x'] ∨ mark = ['0', 'X']) (isSign : sign = [] ∨ sign = ['+'])
    (areDigits : ∀ digit ∈ digits, digit ∈ hexDigits) : Inked (mark ++ sign ++ digits) := by
  have inkedDigit : ∀ digit ∈ hexDigits, Text.isBlank digit = false := forall_of_all (by decide)
  refine List.forall_mem_append.2 ⟨List.forall_mem_append.2 ⟨?_, ?_⟩, ?_⟩
  · rcases isMark with rfl | rfl | rfl <;> exact forall_of_all (by decide)
  · rcases isSign with rfl | rfl <;> exact forall_of_all (by decide)
  · exact fun digit member => inkedDigit digit (areDigits digit member)

/-- Trimmed and without mark and sign, a text has the digits of the number that it spells. -/
theorem spells_iff :
    Spells content value ↔
      Text.value? 16 (afterPlus (afterMark (Text.trim content.toList))) = some value := by
  constructor
  · rintro ⟨before, mark, sign, digits, after, split, outside, behind, isMark, isSign, some_,
      areDigits, same⟩
    rw [split, Text.trim_append outside (inked_spelling isMark isSign areDigits) behind,
      afterPlus_afterMark isMark isSign areDigits]
    exact value?_eq_some_iff.2 ⟨some_, areDigits, same⟩
  · intro read
    obtain ⟨some_, areDigits, same⟩ := value?_eq_some_iff.1 read
    obtain ⟨before, after, split, outside, behind⟩ := Text.exists_eq_append_trim content.toList
    obtain ⟨mark, sign, whole, isMark, isSign⟩ := exists_eq_mark_sign (Text.trim content.toList)
    refine ⟨before, mark, sign, _, after, ?_, outside, behind, isMark, isSign, some_, areDigits, same⟩
    rwa [← whole]

theorem ofText?_of_ink (ink : ¬Blank content.toList) :
    ofText? content =
      match Text.value? 16 (afterPlus (afterMark (Text.trim content.toList))) with
      | some value => if value ≤ 0xffffffff then some (some (UInt32.ofNat value)) else none
      | none => none := by
  unfold ofText?
  cases trimmed : Text.trim content.toList with
  | nil => exact absurd (Text.trim_eq_nil_iff.1 trimmed) ink
  | cons first rest => rfl

theorem ofText?_eq_absent_iff : ofText? content = some none ↔ Blank content.toList := by
  by_cases blank : Blank content.toList
  · simp [ofText?, Text.trim_of_blank blank, blank]
  · rw [ofText?_of_ink blank]
    split
    · split <;> simp [blank]
    · simp [blank]

theorem ofText?_eq_value_iff {bits : UInt32} :
    ofText? content = some (some bits) ↔ Spells content bits.toNat := by
  have small : bits.toNat ≤ 0xffffffff := Nat.le_of_lt_succ bits.toNat_lt
  rw [spells_iff]
  by_cases blank : Blank content.toList
  · have nothing : Text.value? 16 [] = none := rfl
    simp [ofText?, Text.trim_of_blank blank, afterMark, afterPlus, nothing]
  · rw [ofText?_of_ink blank]
    cases read : Text.value? 16 (afterPlus (afterMark (Text.trim content.toList))) with
    | none => simp
    | some value =>
        dsimp only
        by_cases below : value ≤ 0xffffffff
        · have kept : (UInt32.ofNat value).toNat = value :=
            UInt32.toNat_ofNat_of_lt' (Nat.lt_succ_of_le below)
          rw [if_pos below, Option.some.injEq, Option.some.injEq, Option.some.injEq,
            ← UInt32.toNat_inj, kept]
        · rw [if_neg below, Option.some.injEq]
          have different : value ≠ bits.toNat := by omega
          simp [different]

theorem ofText?_eq_none_iff :
    ofText? content = none ↔
      ¬Blank content.toList ∧ ¬∃ value < 2 ^ 32, Spells content value := by
  constructor
  · intro nothing
    refine ⟨fun blank => ?_, ?_⟩
    · rw [ofText?_eq_absent_iff.2 blank] at nothing
      cases nothing
    · rintro ⟨value, below, spells⟩
      have kept : (UInt32.ofNat value).toNat = value := UInt32.toNat_ofNat_of_lt' below
      rw [← kept, ← ofText?_eq_value_iff, nothing] at spells
      cases spells
  · rintro ⟨ink, unspelt⟩
    cases said : ofText? content with
    | none => rfl
    | some bits? =>
        cases bits? with
        | none => exact absurd (ofText?_eq_absent_iff.1 said) ink
        | some bits => exact absurd ⟨bits.toNat, bits.toNat_lt, ofText?_eq_value_iff.1 said⟩ unspelt

end FieldBits

end Rv32Stimulus
