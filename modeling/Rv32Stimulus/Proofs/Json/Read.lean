/-
# Proofs.Json.Read -- readers give back what was written

A whole number within 64 bits is measured as the integer that it is (`measure_nat`), so the reader
of integers gives back every number in its range.  A finite double is given back if it has few digits
and its power of ten is small (`readFloat_float`); not every double is.
-/
import Rv32Stimulus.Json.Read
import Rv32Stimulus.Proofs.Decimal.Value

namespace Rv32Stimulus.Json

set_option autoImplicit false

open Decimal (Numeral)

theorem measure_nat {value : Nat} (within : value < 2 ^ 64) :
    measure (.ofInt value) = .integer value := by
  have positive : (Numeral.ofInt value).negative = false := by
    simp [Numeral.ofInt]
  have whole : (Numeral.ofInt value).isWhole = true := rfl
  have same : (Numeral.ofInt value).whole = value := rfl
  have low : (-0x8000000000000000 : Int) ≤ value := by omega
  have high : (value : Int) ≤ 0xffffffffffffffff := by omega
  simp [measure, positive, whole, same, low, high]

theorem readInteger_nat {value : Nat} {expected : String} {high : Int}
    (within : value < 2 ^ 64) (below : value ≤ high) :
    readInteger expected 0 high (int value) = .ok value := by
  have range : (0 : Int) ≤ value ∧ (value : Int) ≤ high := ⟨Int.natCast_nonneg value, below⟩
  simp only [int, readInteger, measure_nat within, if_pos range]

theorem readUInt32_int (value : UInt32) : readUInt32 (int value.toNat) = .ok value := by
  have bound := value.toNat_lt
  rw [readUInt32, readInteger_nat (by omega) (by omega)]
  exact congrArg Except.ok (UInt32.ofNat_toNat)

theorem readUInt64_int (value : UInt64) : readUInt64 (int value.toNat) = .ok value := by
  have bound := value.toNat_lt
  rw [readUInt64, readInteger_nat bound (by omega)]
  exact congrArg Except.ok (UInt64.ofNat_toNat)

theorem readCount_int {value : Nat} (within : value < 2 ^ 64) :
    readCount (int value) = .ok value := by
  rw [readCount, readInteger_nat within (by omega)]
  rfl

theorem isInf_eq_false_of_isFinite {value : Float} (finite : value.isFinite = true) :
    value.isInf = false := by
  change value.toModel.unpack.isFinite = true at finite
  change value.toModel.unpack.isInf = false
  cases unpacked : value.toModel.unpack with
  | infinity => rw [unpacked] at finite; cases finite
  | notANumber => rfl
  | zero => rfl
  | finite => rfl

/-- A finite double that is written with few digits and a small power of ten is read back. -/
theorem readFloat_float {value : Float} (finite : value.isFinite = true)
    (exact : ∀ numeral ∈ Decimal.Layout.json.ofFloat? value, numeral.IsExact) :
    readFloat (float value) = .ok value := by
  obtain ⟨numeral, written, read⟩ := Decimal.Layout.toFloat_ofFloat? finite exact
  rw [float, written]
  dsimp only [readFloat]
  rw [read, isInf_eq_false_of_isFinite finite]
  rfl

theorem readMembers_text {α : Type} (reader : Reader α) (name : String) (tree : Json)
    (rest : List (Json × Json)) :
    readMembers reader ((text name, tree) :: rest) = (reader tree).bind fun value =>
      (readMembers reader rest).bind fun others => .ok ((name, value) :: others) := rfl

/-- Members whose values are read back are read back. -/
theorem readMap_fields {α : Type} {reader : Reader α} {write : α → Json} {members : List (String × α)}
    (back : ∀ member ∈ members, reader (write member.2) = .ok member.2) :
    readMap reader (fields (members.map fun member => (member.1, write member.2))) = .ok members := by
  change readMembers reader ((members.map fun member => (member.1, write member.2)).map
    fun member => (text member.1, member.2)) = _
  induction members with
  | nil => rfl
  | cons member rest ih =>
      obtain ⟨first, later⟩ := List.forall_mem_cons.1 back
      rw [List.map_cons, List.map_cons, readMembers_text, first, Except.bind, ih later]
      rfl

end Rv32Stimulus.Json
