/-
# Proofs.Random.Bounds -- where drawn values lie

A scaled word stays below its range (`scaled_lt`), also where a second word carries over: if
the first word is scaled to the greatest number, its low half is too small for a carry.
The bounds of integers, registers and picked items follow.
-/
import Rv32Stimulus.Proofs.Random.Outcome

namespace Rv32Stimulus.Random

set_option autoImplicit false

/-! ## Scaled words -/

theorem scaled_lt {size range : Nat} {next : Source → Nat × Source}
    (word_lt : ∀ source, (next source).1 < size) (positive : 0 < range) (source : Source) :
    (scaled size next range source).1 < range := by
  have word := word_lt source
  have size_pos : 0 < size := by omega
  have high_lt : (next source).1 * range / size < range :=
    Nat.div_lt_of_lt_mul (Nat.mul_lt_mul_of_pos_right word positive)
  unfold scaled
  dsimp only
  split
  · rename_i carries
    dsimp only
    split
    · -- A carry out of `range - 1` would need more than the low half can hold.
      have split_word := Nat.div_add_mod ((next source).1 * range) size
      have bound : (next source).1 * range + range ≤ size * range := by
        rw [← Nat.succ_mul]
        exact Nat.mul_le_mul_right range word
      apply Nat.lt_of_not_le
      intro reached
      have last : (next source).1 * range / size = range - 1 := by omega
      have product : size * (range - 1) + size = size * range := by
        rw [← Nat.mul_succ, Nat.succ_eq_add_one, Nat.sub_add_cancel positive]
      rw [last] at split_word
      omega
    · exact high_lt
  · exact high_lt

theorem below32_lt {range : Nat} (positive : 0 < range) (source : Source) :
    (below32 range source).1 < range :=
  scaled_lt (fun source => source.next32.1.toNat_lt) positive source

theorem below64_lt {range : Nat} (positive : 0 < range) (source : Source) :
    (below64 range source).1 < range :=
  scaled_lt (fun source => source.next64.1.toNat_lt) positive source

theorem place_lt {length : Nat} (positive : 0 < length) (source : Source) :
    (source.place length).1 < length := by
  unfold Source.place
  split
  · exact below32_lt positive source
  · exact below64_lt positive source

/-! ## Draws -/

namespace Draw

theorem succeeds_chance (p : Float) : Succeeds (chance p) := .of_ok _

theorem succeeds_between (low high : Int) : Succeeds (between low high) := .of_ok _

theorem succeeds_register : Succeeds register := .of_ok _

theorem succeeds_pick {α : Type} (items : List α) : Succeeds (pick items) := .of_ok _

/-- An interval of fewer than `2 ^ 64` integers is never left. -/
theorem ensures_between {low high : Int} (narrow : high - low + 1 < 0x10000000000000000) :
    Ensures (between low high) fun value => low ≤ value ∧ value ≤ max low high := by
  refine .of_ok fun source => ?_
  unfold Source.between
  split
  · omega
  · have positive : 0 < (high - low + 1).toNat := by omega
    have bound := below64_lt positive source
    rw [if_pos (by omega)]
    dsimp only
    omega

theorem ensures_register : Ensures register fun number => number.toNat < 32 := by
  refine .of_ok fun source => ?_
  have bound := below32_lt (by decide : 0 < 32) source
  unfold Source.register
  rw [UInt8.toNat_ofNat_of_lt' (Nat.lt_trans bound (by decide))]
  exact bound

/-- Something is picked exactly from a list that holds something, and it is from that list. -/
theorem ensures_pick {α : Type} (items : List α) :
    Ensures (pick items) fun item? =>
      (∀ item, item? = some item → item ∈ items) ∧ (item? = none → items = []) := by
  refine .of_ok fun source => ?_
  unfold Source.pick
  split
  · rename_i isEmpty
    exact ⟨by simp, fun _ => List.isEmpty_iff.1 isEmpty⟩
  · rename_i nonempty
    have inside : (source.place items.length).1 < items.length :=
      place_lt (by simpa [List.length_pos_iff, List.isEmpty_iff] using nonempty) source
    dsimp only
    rw [List.getElem?_eq_getElem inside]
    exact ⟨fun item same => Option.some.inj same ▸ List.getElem_mem inside, by simp⟩

end Draw

end Rv32Stimulus.Random
