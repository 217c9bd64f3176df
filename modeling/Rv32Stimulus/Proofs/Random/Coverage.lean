/-
# Proofs.Random.Coverage -- every number of an interval can be drawn

A scaled word never leaves its range (`scaled_lt`); here is the other direction.  Where there are at
least two words for every number, each number has a word that is scaled to it and needs
no second one (`exists_word_scaled`): the least whose multiple reaches the number.
`exists_word_between` says the same of integers, of which an interval may be negative.
-/
import Rv32Stimulus.Proofs.Random.Outcome

namespace Rv32Stimulus.Random

set_option autoImplicit false

theorem exists_word_scaled {size range number : Nat} (several : 2 * range ≤ size)
    (below : number < range) :
    ∃ word < size, ∀ (next : Source → Nat × Source) (source rest : Source),
      next source = (word, rest) → scaled size next range source = (number, rest) := by
  obtain ⟨word, low, product, low_lt⟩ :
      ∃ word low, word * range = size * number + low ∧ low < range := by
    let total := size * number + (range - 1)
    have split_total : range * (total / range) + total % range = size * number + (range - 1) :=
      Nat.div_add_mod total range
    have short : total % range < range := Nat.mod_lt _ (by omega)
    refine ⟨total / range, range - 1 - total % range, ?_, by omega⟩
    rw [Nat.mul_comm]
    omega
  have high : word * range / size = number := by
    rw [product, Nat.mul_add_div (by omega), Nat.div_eq_of_lt (by omega), Nat.add_zero]
  have rest_eq : word * range % size = low := by
    rw [product, Nat.mul_add_mod, Nat.mod_eq_of_lt (by omega)]
  have inside : word * range < size * range :=
    calc word * range < size * number + size := by omega
      _ = size * (number + 1) := (Nat.mul_succ size number).symm
      _ ≤ size * range := Nat.mul_le_mul_left size below
  refine ⟨word, Nat.lt_of_mul_lt_mul_right inside, ?_⟩
  intro next source rest taken
  unfold scaled
  rw [taken]
  dsimp only
  rw [high, rest_eq, if_neg (by omega)]

/-- An integer of an interval that is at most half as wide as the words are many. -/
theorem exists_word_between {low high value : Int} (several : low < high)
    (narrow : high - low < 0x8000000000000000) (least : low ≤ value) (greatest : value ≤ high) :
    ∃ word : UInt64, ∀ source rest : Source, source.next64 = (word, rest) →
      source.between low high = (value, rest) := by
  obtain ⟨word, word_lt, scales⟩ := @exists_word_scaled 0x10000000000000000 (high - low + 1).toNat
    (value - low).toNat (by omega) (by omega)
  refine ⟨.ofNat word, fun source rest taken => ?_⟩
  have next : nextNat64 source = (word, rest) := by
    rw [nextNat64, taken]
    dsimp only
    rw [UInt64.toNat_ofNat_of_lt' word_lt]
  have drawn : below64 (high - low + 1).toNat source = ((value - low).toNat, rest) :=
    scales nextNat64 source rest next
  unfold Source.between
  rw [if_neg (by omega), if_pos (by omega), drawn]
  dsimp only
  congr 1
  omega

namespace Draw

/-- Every integer of the interval is drawn from some source. -/
def Attains (draw : Draw Int) (low high : Int) : Prop :=
  ∀ value, low ≤ value → value ≤ high → ∃ source rest, draw source = .ok (value, rest)

end Draw

end Rv32Stimulus.Random
