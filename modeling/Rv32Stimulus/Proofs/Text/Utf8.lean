/-
# Proofs.Text.Utf8 -- texts in the order of their bytes

Texts compare by code points.  A greater code point has a first byte that is greater, or
the same first bytes and then a greater one (`utf8EncodeChar_append_lt`), so texts are in the
same order as their bytes in UTF-8 (`bytes_lt`).
-/
import Mathlib.Data.List.Basic

namespace Rv32Stimulus.Text

set_option autoImplicit false

/-- The bytes of a text in UTF-8. -/
def bytes (text : String) : List UInt8 := text.toUTF8.data.toList

theorem bytes_eq_flatMap (text : String) : bytes text = text.toList.flatMap String.utf8EncodeChar := by
  rw [bytes, String.toUTF8_eq_toByteArray, ← String.utf8Encode_toList, List.utf8Encode,
    List.toList_data_toByteArray]

variable {left right : List UInt8}

theorem cons_lt_cons {low high : Nat} (byte : high < 256) (ordered : low ≤ high)
    (later : low = high → left < right) :
    UInt8.ofNat low :: left < UInt8.ofNat high :: right := by
  rw [List.cons_lt_cons_iff]
  rcases Nat.lt_or_eq_of_le ordered with less | same
  · left
    rw [UInt8.lt_iff_toNat_lt, UInt8.toNat_ofNat_of_lt' byte,
      UInt8.toNat_ofNat_of_lt' (Nat.lt_trans less byte)]
    exact less
  · exact .inr ⟨congrArg UInt8.ofNat same, later same⟩

/-- The bytes of a lesser character come first, whatever follows. -/
theorem utf8EncodeChar_append_lt {first second : Char} (below : first < second)
    (left right : List UInt8) :
    String.utf8EncodeChar first ++ left < String.utf8EncodeChar second ++ right := by
  have values : first.val.toNat < second.val.toNat := UInt32.lt_iff_toNat_lt.1 below
  have bound : second.val.toNat < 0x110000 := by
    rcases second.valid with low | high
    · exact Nat.lt_trans low (by decide)
    · exact high.2
  unfold String.utf8EncodeChar
  generalize first.val.toNat = low at *
  generalize second.val.toNat = high at *
  dsimp only
  split_ifs
  -- The lesser character is not longer, and if it is shorter the first bytes differ.
  all_goals
    first
      | omega
      | exact cons_lt_cons (by omega) (by omega) fun same => absurd same (by omega)
      | skip
  · exact cons_lt_cons (by omega) (by omega) fun _ =>
      cons_lt_cons (by omega) (by omega) fun last => by omega
  · exact cons_lt_cons (by omega) (by omega) fun _ =>
      cons_lt_cons (by omega) (by omega) fun _ =>
        cons_lt_cons (by omega) (by omega) fun last => by omega
  · exact cons_lt_cons (by omega) (by omega) fun _ =>
      cons_lt_cons (by omega) (by omega) fun _ =>
        cons_lt_cons (by omega) (by omega) fun _ =>
          cons_lt_cons (by omega) (by omega) fun last => by omega

theorem flatMap_utf8EncodeChar_lt {one other : List Char} (below : one < other) :
    one.flatMap String.utf8EncodeChar < other.flatMap String.utf8EncodeChar := by
  induction below with
  | nil =>
      rename_i first rest
      cases encoded : String.utf8EncodeChar first with
      | nil => exact absurd encoded String.utf8EncodeChar_ne_nil
      | cons byte bytes =>
          rw [List.flatMap_nil, List.flatMap_cons, encoded]
          exact .nil
  | rel less =>
      rw [List.flatMap_cons, List.flatMap_cons]
      exact utf8EncodeChar_append_lt less _ _
  | cons _ ih =>
      rw [List.flatMap_cons, List.flatMap_cons]
      exact List.append_left_lt ih

theorem bytes_lt {one other : String} (below : one < other) : bytes one < bytes other := by
  rw [bytes_eq_flatMap, bytes_eq_flatMap]
  exact flatMap_utf8EncodeChar_lt below

end Rv32Stimulus.Text
