/-
# Proofs.Text.Reading -- texts from which their parts can be read back

`Text.value?` reads the digits of a number back (`Text.value?_digits`), so different numbers have
different texts in every base, and the digits of a word say which word it is
(`Text.value?_hexWord`).  Texts of numbers have neither commas nor parentheses nor
blanks in them.  Hence a text ends where the separator after it begins
(`Text.cut_eq`), and a list of texts without commas can be recovered from the line to which
they are joined (`Text.join_injective`).
-/
import Rv32Stimulus.Text.Digits
import Mathlib.Algebra.Group.Nat.Defs

namespace Rv32Stimulus.Text

set_option autoImplicit false

/-! ## Digits -/

/-- The number that was read so far, after one more digit. -/
def readDigit (base total : Nat) (char : Char) : Option Nat := do
  let value ← digitValue? char
  if value < base then some (base * total + value) else none

theorem digitValue?_digit : ∀ value < 16, digitValue? (digit value) = some value := by decide

theorem readDigit_digit {base value : Nat} (total : Nat) (small : base ≤ 16) (below : value < base) :
    readDigit base total (digit value) = some (base * total + value) := by
  unfold readDigit
  rw [digitValue?_digit value (by omega)]
  exact if_pos below

theorem length_lastDigits (base width value : Nat) : (lastDigits base width value).length = width := by
  induction width generalizing value with
  | zero => rfl
  | succ width ih => rw [lastDigits, List.length_append, ih, List.length_singleton]

/-- Digits to a width are read back up to what the width can hold. -/
theorem foldlM_lastDigits {base : Nat} (positive : 0 < base) (small : base ≤ 16)
    (width value : Nat) :
    (lastDigits base width value).foldlM (readDigit base) 0 = some (value % base ^ width) := by
  induction width generalizing value with
  | zero => simp [lastDigits, Nat.mod_one]
  | succ width ih =>
      have below : value % base < base := Nat.mod_lt _ positive
      rw [lastDigits, List.foldlM_append, ih]
      simp only [Option.bind_eq_bind, Option.bind_some, List.foldlM_cons, List.foldlM_nil,
        readDigit_digit _ small below]
      rw [Nat.pow_succ', Nat.mod_mul, Nat.add_comm]
      rfl

theorem value?_lastDigits {base width value : Nat} (positive : 0 < base) (small : base ≤ 16)
    (wide : 0 < width) (fits : value < base ^ width) :
    value? base (lastDigits base width value) = some value := by
  have present : lastDigits base width value ≠ [] :=
    List.ne_nil_of_length_pos (by rwa [length_lastDigits])
  unfold value?
  rw [if_neg (by simpa using present)]
  exact (foldlM_lastDigits positive small width value).trans
    (congrArg some (Nat.mod_eq_of_lt fits))

theorem mem_lastDigits {base width value : Nat} {char : Char} (positive : 0 < base)
    (member : char ∈ lastDigits base width value) : ∃ below < base, char = digit below := by
  induction width generalizing value with
  | zero => cases member
  | succ width ih =>
      rw [lastDigits, List.mem_append, List.mem_singleton] at member
      rcases member with member | rfl
      · exact ih member
      · exact ⟨value % base, Nat.mod_lt _ positive, rfl⟩

theorem digit_mem_hexadecimal : ∀ value < 16, digit value ∈ "0123456789abcdef".toList := by decide

/-- The digits of every base are among the hexadecimal ones. -/
theorem mem_hexadecimal {base width value : Nat} {char : Char} (positive : 0 < base)
    (small : base ≤ 16) (member : char ∈ lastDigits base width value) :
    char ∈ "0123456789abcdef".toList := by
  obtain ⟨below, inBase, rfl⟩ := mem_lastDigits positive member
  exact digit_mem_hexadecimal below (Nat.lt_of_lt_of_le inBase small)

/-! ## As many digits as it takes -/

theorem digitCount_pos (base fuel value : Nat) : 0 < digitCount base fuel value := by
  cases fuel with
  | zero => exact Nat.one_pos
  | succ fuel =>
      unfold digitCount
      split <;> omega

/-- The digits that `digitCount` provides for are enough. -/
theorem lt_pow_digitCount {base fuel value : Nat} (two : 2 ≤ base) (enough : value ≤ fuel) :
    value < base ^ digitCount base fuel value := by
  induction fuel generalizing value with
  | zero =>
      rw [digitCount, Nat.pow_one]
      omega
  | succ fuel ih =>
      unfold digitCount
      by_cases last : value < base
      · rwa [if_pos last, Nat.pow_one]
      · have less : value / base < value := Nat.div_lt_self (by omega) (by omega)
        have leading := ih (show value / base ≤ fuel by omega)
        rw [if_neg last, Nat.pow_succ]
        exact (Nat.div_lt_iff_lt_mul (by omega)).1 leading

/-- What is written in a base is read back. -/
theorem value?_digits {base : Nat} (two : 2 ≤ base) (small : base ≤ 16) (value : Nat) :
    value? base (digits base value) = some value :=
  value?_lastDigits (by omega) small (digitCount_pos base value value)
    (lt_pow_digitCount two (Nat.le_refl value))

theorem hex_injective {left right : Nat} (same : hex left = hex right) : left = right := by
  have read := congrArg (value? 16) (String.ofList_injective same)
  rw [value?_digits (by decide) (by decide), value?_digits (by decide) (by decide)] at read
  exact Option.some.inj read

/-- The digits of a word in hexadecimal say which word it is. -/
theorem value?_hexWord (word : BitVec 32) : value? 16 (hexWord word).toList = some word.toNat := by
  rw [hexWord, String.toList_ofList]
  exact value?_lastDigits (by decide) (by decide) (by decide) word.isLt

/-- And so do its binary digits. -/
theorem value?_binaryWord (word : BitVec 32) :
    value? 2 (binaryWord word).toList = some word.toNat := by
  rw [binaryWord, String.toList_ofList]
  exact value?_lastDigits (by decide) (by decide) (by decide) word.isLt

theorem digit_eq_digitChar : ∀ value < 10, digit value = value.digitChar := by decide

/-- The digits of a number in base ten are the ones of its usual text. -/
theorem lastDigits_ten {fuel value : Nat} (enough : value ≤ fuel) :
    lastDigits 10 (digitCount 10 fuel value) value = Nat.toDigits 10 value := by
  have single {value : Nat} (last : value < 10) : lastDigits 10 1 value = Nat.toDigits 10 value := by
    rw [Nat.toDigits_of_lt_base last, ← digit_eq_digitChar value last]
    simp [lastDigits, Nat.mod_eq_of_lt last]
  induction fuel generalizing value with
  | zero => exact single (by omega)
  | succ fuel ih =>
      unfold digitCount
      by_cases last : value < 10
      · rw [if_pos last]
        exact single last
      · have split : Nat.toDigits 10 value =
            Nat.toDigits 10 (value / 10) ++ [(value % 10).digitChar] :=
          Nat.toDigits_of_base_le (by decide) (by omega)
        rw [if_neg last, lastDigits, ih (by omega), split,
          digit_eq_digitChar _ (Nat.mod_lt _ (by decide))]

theorem digits_ten (value : Nat) : digits 10 value = (toString value).toList := by
  rw [Nat.toString_eq_ofList_toDigits, String.toList_ofList]
  exact lastDigits_ten (Nat.le_refl value)

/-! ## Separators -/

/-- The characters that stand between the parts of an assembly line. -/
def separators : List Char := [' ', ',', '(']

theorem notMem_separators_of_isDigit {char : Char} (isDigit : char.isDigit = true) :
    char ∉ separators := by
  intro member
  simp only [separators, List.mem_cons, List.not_mem_nil, or_false] at member
  rcases member with rfl | rfl | rfl <;> cases isDigit

/-- No character of the text is a separator. -/
def Unbroken (text : String) : Prop := ∀ char ∈ text.toList, char ∉ separators

instance (text : String) : Decidable (Unbroken text) :=
  List.decidableBAll (· ∉ separators) text.toList

theorem Unbroken.append {left right : String} (first : Unbroken left) (second : Unbroken right) :
    Unbroken (left ++ right) := by
  intro char member
  rw [String.toList_append, List.mem_append] at member
  rcases member with member | member
  · exact first char member
  · exact second char member

theorem unbroken_hex (value : Nat) : Unbroken (hex value) := by
  intro char member
  rw [hex, String.toList_ofList] at member
  have hexadecimal := mem_hexadecimal (by decide) (by decide) member
  intro separator
  simp only [separators, List.mem_cons, List.not_mem_nil, or_false] at separator
  rcases separator with rfl | rfl | rfl <;> exact absurd hexadecimal (by decide)

theorem unbroken_nat (value : Nat) : Unbroken (toString value) := by
  intro char member
  rw [Nat.toString_eq_ofList_toDigits, String.toList_ofList] at member
  exact notMem_separators_of_isDigit (Nat.isDigit_of_mem_toDigits (by decide) (by decide) member)

theorem unbroken_int (value : Int) : Unbroken (toString value) := by
  rw [Int.toString_eq_repr, Int.repr_eq_if]
  split
  · exact unbroken_nat value.toNat
  · exact Unbroken.append (by decide) (unbroken_nat (-value).toNat)

/-! ## Decimal numbers -/

theorem nat_injective {left right : Nat} (same : toString left = toString right) :
    left = right := by
  rw [Nat.toString_eq_ofList_toDigits, Nat.toString_eq_ofList_toDigits] at same
  calc left
    _ = Nat.ofDigitChars 10 (Nat.toDigits 10 left) 0 := Nat.ofDigitChars_ten_toDigits.symm
    _ = Nat.ofDigitChars 10 (Nat.toDigits 10 right) 0 := by rw [String.ofList_injective same]
    _ = right := Nat.ofDigitChars_ten_toDigits

/-- No text of a natural number begins with a sign. -/
theorem nat_ne_minus (value : Nat) (rest : String) : toString value ≠ "-" ++ rest := by
  intro same
  have sign : '-' ∈ (toString value).toList := by
    rw [same, String.toList_append]
    exact List.mem_append_left _ (by decide)
  rw [Nat.toString_eq_ofList_toDigits, String.toList_ofList] at sign
  have isDigit := Nat.isDigit_of_mem_toDigits (by decide) (by decide) sign
  cases isDigit

theorem int_injective {left right : Int} (same : toString left = toString right) :
    left = right := by
  rw [Int.toString_eq_repr, Int.toString_eq_repr, Int.repr_eq_if, Int.repr_eq_if] at same
  split at same <;> split at same
  · have digits := nat_injective same
    omega
  · exact absurd same (nat_ne_minus _ _)
  · exact absurd same.symm (nat_ne_minus _ _)
  · have digits := nat_injective ((String.append_right_inj "-").1 same)
    omega

/-! ## Taking a line apart -/

/-- Two lines that are the same have the same text before their first mark, and the same after it. -/
theorem cut_eq {mark : Char} {left left' rest rest' : List Char} (clear : mark ∉ left)
    (clear' : mark ∉ left') (same : left ++ mark :: rest = left' ++ mark :: rest') :
    left = left' ∧ rest = rest' := by
  induction left generalizing left' with
  | nil =>
      cases left' with
      | nil => exact ⟨rfl, (List.cons.inj same).2⟩
      | cons first tail =>
          obtain ⟨rfl, -⟩ := List.cons.inj same
          exact absurd List.mem_cons_self clear'
  | cons head left ih =>
      cases left' with
      | nil =>
          obtain ⟨rfl, -⟩ := List.cons.inj same
          exact absurd List.mem_cons_self clear
      | cons first tail =>
          obtain ⟨rfl, tails⟩ := List.cons.inj same
          obtain ⟨rfl, after⟩ := ih (mt (List.mem_cons_of_mem _) clear)
            (mt (List.mem_cons_of_mem _) clear') tails
          exact ⟨rfl, after⟩

/-- Joining as many texts without commas to the same line means joining the same texts. -/
theorem join_injective {left right : List String} (length : left.length = right.length)
    (clear : ∀ text ∈ left, ',' ∉ text.toList) (clear' : ∀ text ∈ right, ',' ∉ text.toList)
    (same : ", ".intercalate left = ", ".intercalate right) : left = right := by
  induction left generalizing right with
  | nil =>
      cases right with
      | nil => rfl
      | cons other others => cases length
  | cons text texts ih =>
      cases right with
      | nil => cases length
      | cons other others =>
          rw [List.length_cons, List.length_cons] at length
          obtain ⟨first, later⟩ := List.forall_mem_cons.1 clear
          obtain ⟨first', later'⟩ := List.forall_mem_cons.1 clear'
          cases texts with
          | nil =>
              obtain rfl : others = [] := List.length_eq_zero_iff.1 (by simpa using length.symm)
              rw [String.intercalate_singleton, String.intercalate_singleton] at same
              rw [same]
          | cons next texts =>
              cases others with
              | nil => simp at length
              | cons next' others =>
                  rw [String.intercalate_cons_cons, String.intercalate_cons_cons] at same
                  have characters := congrArg String.toList same
                  simp only [String.toList_append, List.append_assoc] at characters
                  obtain ⟨head, after⟩ := cut_eq first first' characters
                  obtain rfl := String.toList_injective head
                  have rest := String.toList_injective (List.cons.inj after).2
                  rw [ih (by omega) later later' rest]

end Rv32Stimulus.Text
