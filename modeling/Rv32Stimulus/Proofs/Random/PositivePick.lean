/-
# Proofs.Random.PositivePick -- which index a weighted draw gives

A weighted draw that gives an index gives the one at which the running sums get above the chosen
part of the total.
Sums never go down, and adding nothing changes nothing, so the weight there is positive
(`picksPositive_of_normal`).  The one thing that rounding could spoil is that the chosen part is
less than the total; it is, unless the total is so small that it has fewer bits than the
format.  Then a weight of zero can be drawn, as an example shows.
-/
import Rv32Stimulus.Proofs.Binary64.Nonnegative
import Rv32Stimulus.Proofs.Random.Fraction
import Rv32Stimulus.Proofs.Random.Weighted

namespace Rv32Stimulus.Random

set_option autoImplicit false

open Rv32Stimulus.Binary64

/-- A draw by the weights gives the index of a positive one, if any. -/
def PicksPositive (weights : List Float) : Prop :=
  (Draw.weighted weights).Ensures fun index? => ∀ index, index? = some index →
    ∃ weight, weights[index]? = some weight ∧ 0.0 < weight

/-- The least float with all bits of the format. -/
def leastNormal : Float := .ofBits 0x0010000000000000

/-! ## The chosen part -/

theorem worth_leastNormal : Worth leastNormal (2 ^ 52 * 2 ^ (-1074 : Int)) := by
  have canonical : Canonical (2 ^ 52) (-1074) := ⟨by decide, by decide, by decide, .inl le_rfl⟩
  have worth : Worth leastNormal _ := .of_unpack canonical rfl
  rwa [Nat.cast_pow, Nat.cast_ofNat] at worth

/-- What is at least `leastNormal` has a full mantissa. -/
theorem exists_full {total : Float} {value : ℚ} (worth : Worth total value)
    (normal : leastNormal ≤ total) :
    ∃ (mantissa : Nat) (exponent : Int), 2 ^ 52 ≤ mantissa ∧ mantissa < 2 ^ 53 ∧
      -1074 ≤ exponent ∧ exponent < 972 ∧ value = mantissa * 2 ^ exponent := by
  rw [worth_leastNormal.le_iff worth] at normal
  unfold Worth at worth
  generalize unpacked : total.toModel.unpack = number at worth
  cases worth with
  | zero => exact absurd normal (not_le.2 (by positivity))
  | @finite mantissa exponent canonical =>
      refine ⟨mantissa, exponent, ?_, canonical.fits, canonical.least,
        (canonical_of_unpack unpacked).2, rfl⟩
      rcases canonical.full with full | rfl
      · exact full
      · rw [mul_le_mul_iff_left₀ (two_zpow_pos _)] at normal
        exact_mod_cast normal

/-- A fraction of a total with all bits is less than the total. -/
theorem worth_fraction_mul (source : Source) {total : Float} {value : ℚ} (worth : Worth total value)
    (normal : leastNormal ≤ total) :
    ∃ part, Worth (source.fraction.1 * total) part ∧ part < value := by
  obtain ⟨fraction, worthFraction, fraction_le⟩ := source.worth_fraction
  have product := worthFraction.mul worth
  obtain ⟨mantissa, exponent, full, fits, least, inside, rfl⟩ := exists_full worth normal
  have scale := two_zpow_pos exponent
  have fullCast : (2 : ℚ) ^ 52 ≤ mantissa := by exact_mod_cast full
  have lessOne : ((mantissa - 1 : Nat) : ℚ) = mantissa - 1 := Nat.cast_pred (by omega)
  -- One part in `2 ^ 52` of a full mantissa is at least one.
  have within : fraction * (mantissa * 2 ^ exponent) ≤ ((mantissa - 1 : Nat) : ℚ) * 2 ^ exponent := by
    rw [← mul_assoc, lessOne]
    apply mul_le_mul_of_nonneg_right _ scale.le
    calc fraction * mantissa ≤ ((2 ^ 52 - 1 : Nat) : ℚ) * 2 ^ (-52 : Int) * mantissa :=
          mul_le_mul_of_nonneg_right fraction_le (Nat.cast_nonneg _)
      _ = mantissa - mantissa / 2 ^ 52 := by
          rw [zpow_neg]
          norm_num
          ring
      _ ≤ mantissa - 1 := by
          have : 1 ≤ (mantissa : ℚ) / 2 ^ 52 := (one_le_div (by positivity)).2 fullCast
          linarith
  obtain ⟨part, worthPart, part_le⟩ := product.worth_le (by omega) least inside within
  refine ⟨part, worthPart, part_le.trans_lt ?_⟩
  rw [lessOne]
  exact mul_lt_mul_of_pos_right (by linarith) scale

/-! ## Running sums -/

namespace Source

variable {chosen : Float} {value : ℚ}

/-- Once above `chosen`, the sums stay above. -/
theorem not_le_of_mem_go (worth : Worth chosen value) {weights : List Float}
    (nonneg : ∀ weight ∈ weights, 0.0 ≤ weight) {sum : Float} (start : 0.0 ≤ sum)
    (above : ¬sum ≤ chosen) : ∀ later ∈ runningSums.go sum weights, ¬later ≤ chosen := by
  induction weights generalizing sum with
  | nil =>
      intro later member
      rwa [List.mem_singleton.1 member]
  | cons weight rest ih =>
      obtain ⟨first, more⟩ := List.forall_mem_cons.1 nonneg
      intro later member
      rcases List.mem_cons.1 member with rfl | member
      · exact above
      · exact ih more (add_nonneg start first) (not_add_le start first worth above) later member

/-- Where the sums get above `chosen`, something was added. -/
theorem exists_pos_of_go (worth : Worth chosen value) {weights : List Float}
    (nonneg : ∀ weight ∈ weights, 0.0 ≤ weight) {sum total : Float} (start : 0.0 ≤ sum)
    (below : sum ≤ chosen) (last : (runningSums.go sum weights).getLast? = some total)
    (above : ¬total ≤ chosen) :
    ∃ index weight, (runningSums.go sum weights).dropLast.countP (· ≤ chosen) = index + 1 ∧
      weights[index]? = some weight ∧ 0.0 < weight := by
  induction weights generalizing sum with
  | nil =>
      obtain rfl : sum = total := Option.some.inj last
      exact absurd below above
  | cons weight rest ih =>
      obtain ⟨first, more⟩ := List.forall_mem_cons.1 nonneg
      have nonempty : runningSums.go (sum + weight) rest ≠ [] := by
        intro empty
        have := length_runningSums_go (sum + weight) rest
        rw [empty] at this
        cases this
      have last_ : (runningSums.go (sum + weight) rest).getLast? = some total := by
        rw [runningSums.go, List.getLast?_cons_of_ne_nil nonempty] at last
        exact last
      have counted : (runningSums.go sum (weight :: rest)).dropLast.countP (· ≤ chosen) =
          (runningSums.go (sum + weight) rest).dropLast.countP (· ≤ chosen) + 1 := by
        rw [runningSums.go, List.dropLast_cons_of_ne_nil nonempty]
        exact List.countP_cons_of_pos (decide_eq_true below)
      rw [counted]
      by_cases within : sum + weight ≤ chosen
      · obtain ⟨index, picked, count, found, positive⟩ :=
          ih more (add_nonneg start first) within last_
        exact ⟨index + 1, picked, by rw [count], found, positive⟩
      · have none_ : (runningSums.go (sum + weight) rest).dropLast.countP (· ≤ chosen) = 0 := by
          rw [List.countP_eq_zero]
          intro later member
          have past := not_le_of_mem_go worth more (add_nonneg start first) within later
            (List.dropLast_subset _ member)
          simpa using past
        refine ⟨0, weight, by rw [none_], rfl, ?_⟩
        by_contra notPos
        obtain ⟨less, worthSum, less_le⟩ := worth_of_le start worth below
        have same := worthSum.add_nothing (worth_zero_of_not_pos first notPos)
        exact within ((same.le_iff worth).2 less_le)

end Source

/-! ## The draw -/

/-- A draw by weights whose total has all bits gives the index of a positive weight. -/
theorem picksPositive_of_normal {weights : List Float}
    (normal : ∀ total, total? weights = some total → leastNormal ≤ total) :
    PicksPositive weights := by
  rintro source _ rest given index rfl
  obtain ⟨total, last, nonneg, finite, rfl⟩ := Draw.weighted_eq_some given
  obtain ⟨value, worth⟩ : ∃ value, Worth total value := by
    refine (worth_of_nonneg (nonneg_of_le worth_leastNormal (normal total last))).resolve_right ?_
    intro infinite
    have isInf : total.isInf = true := congrArg Float.Model.UnpackedFloat.isInf infinite
    rw [finite] at isInf
    cases isInf
  obtain ⟨part, worthPart, less⟩ := worth_fraction_mul source worth (normal total last)
  have above : ¬total ≤ source.fraction.1 * total := by
    rw [worth.le_iff worthPart, not_le]
    exact less
  cases weights with
  | nil => cases last
  | cons first more =>
      obtain ⟨start, later⟩ := List.forall_mem_cons.1 nonneg
      change ∃ weight, (first :: more)[(Source.runningSums.go first more).dropLast.countP
        (· ≤ source.fraction.1 * total)]? = some weight ∧ 0.0 < weight
      by_cases below : first ≤ source.fraction.1 * total
      · obtain ⟨index, weight, count, found, positive⟩ :=
          Source.exists_pos_of_go worthPart later start below last above
        rw [count]
        exact ⟨weight, found, positive⟩
      · have none_ : (Source.runningSums.go first more).dropLast.countP
            (· ≤ source.fraction.1 * total) = 0 := by
          rw [List.countP_eq_zero]
          intro sum member
          have past := Source.not_le_of_mem_go worthPart later start below sum
            (List.dropLast_subset _ member)
          simpa using past
        rw [none_]
        refine ⟨first, rfl, ?_⟩
        by_contra notPos
        have nothing := worth_zero_of_not_pos start notPos
        exact below ((nothing.le_iff worthPart).2 (Denotes.nonneg worthPart))

/-- Of the least total, a part of more than half is rounded to the whole. -/
example : ¬PicksPositive [.ofBits 1, 0.0] := by
  intro picks
  have drawn : (Draw.weighted [.ofBits 1, 0.0] (.ofSeed 0)).toOption.map (·.1) = some (some 1) := by
    decide +kernel
  cases given : Draw.weighted [.ofBits 1, 0.0] (.ofSeed 0) with
  | error fault => rw [given] at drawn; cases drawn
  | ok result =>
      obtain ⟨index?, rest⟩ := result
      rw [given] at drawn
      obtain ⟨weight, found, positive⟩ := picks given 1 (Option.some.inj drawn)
      obtain rfl := Option.some.inj found
      exact absurd positive (by decide +kernel)

end Rv32Stimulus.Random
