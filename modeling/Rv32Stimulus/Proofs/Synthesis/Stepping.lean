/-
# Proofs.Synthesis.Stepping -- the steps of a window, exactly

A window of offsets is entered in steps of four from its lower end.  A single step is taken without
a draw (`offset_of_le`).  Of several, what is drawn is a step below the upper end, and none of
them is out of reach: each has a word that gives it (`exists_word_offset`).

The ends of a window are numbers of 32 bits, and everything that is computed from them has room in
64.  `checkedOffset` looks at each number on the way to an offset and stops at one that is
too large; `run_checkedOffset` says that it never does.
-/
import Rv32Stimulus.Proofs.Random.Coverage
import Rv32Stimulus.Proofs.Synthesis.Alignment

namespace Rv32Stimulus

set_option autoImplicit false

open Rv32Stimulus.Random

/-! ## Numbers of 64 bits -/

/-- The number, unless 64 bits with a sign are too few for it. -/
def fitting (value : Int) : OptionT Draw Int :=
  if Int64.minValue.toInt ≤ value ∧ value ≤ Int64.maxValue.toInt then pure value else failure

theorem fitting_eq {value : Int} (least : -0x8000000000000000 ≤ value)
    (greatest : value ≤ 0x7fffffffffffffff) : fitting value = pure value :=
  if_pos ⟨least, greatest⟩

section Running

variable {α β : Type} {draw : Draw α} {source rest : Source} {value : α}

theorem map_eq_ok (f : α → β) (drawn : draw source = .ok (value, rest)) :
    (f <$> draw) source = .ok (f value, rest) := by
  rw [map_eq_pure_bind]
  exact Draw.bind_eq_ok.2 ⟨value, rest, drawn, rfl⟩

theorem run_liftM_bind {next : α → OptionT Draw β} (drawn : draw source = .ok (value, rest)) :
    (liftM draw >>= next : OptionT Draw β).run source = (next value).run rest := by
  have steps : (liftM draw >>= next : OptionT Draw β).run =
      draw >>= fun value => (next value).run := by simp
  rw [steps]
  change (draw source >>= fun out => (next out.1).run out.2) = _
  rw [drawn]
  rfl

end Running

namespace Window

variable {window : Window}

/-- The steps of a window, if no number on the way to them is too large. -/
def checkedSteps (window : Window) : OptionT Draw Int := do
  let width ← fitting (window.high.toInt - window.low.toInt)
  let raised ← fitting (width + 3)
  fitting (raised.tdiv 4)

/-- An offset of the window, if no number on the way to it is too large. -/
def checkedOffset (window : Window) : OptionT Draw Int := do
  let steps ← window.checkedSteps
  if steps ≤ 0 then return window.low.toInt
  let last ← fitting (steps - 1)
  let count ← fitting (← Draw.between 0 last)
  let stride ← fitting (4 * count)
  fitting (window.low.toInt + stride)

theorem ends_bounds (window : Window) :
    (-0x80000000 ≤ window.low.toInt ∧ window.low.toInt ≤ 0x7fffffff) ∧
      -0x80000000 ≤ window.high.toInt ∧ window.high.toInt ≤ 0x7fffffff :=
  ⟨⟨window.low.minValue_le_toInt, window.low.toInt_le⟩,
    window.high.minValue_le_toInt, window.high.toInt_le⟩

/-- The steps of a reversed window are not far below zero. -/
theorem le_steps (window : Window) : -0x40000000 ≤ window.steps := by
  obtain ⟨⟨_, _⟩, _, _⟩ := window.ends_bounds
  unfold steps
  rw [Int.tdiv_eq_ediv, Int.sign_eq_one_of_pos (by decide)]
  split <;> omega

theorem checkedSteps_eq (window : Window) : window.checkedSteps = pure window.steps := by
  obtain ⟨⟨_, _⟩, _, _⟩ := window.ends_bounds
  have least := window.le_steps
  have most := window.steps_le
  unfold checkedSteps
  rw [fitting_eq (by omega) (by omega), pure_bind, fitting_eq (by omega) (by omega), pure_bind]
  exact @fitting_eq window.steps (by omega) (by omega)

/-! ## Offsets -/

theorem steps_le_one_iff : window.steps ≤ 1 ↔ window.high.toInt ≤ window.low.toInt + 4 := by
  have second := @lt_steps_iff window 1 (by decide)
  omega

theorem offset_of_between {source rest : Source} {count : Int} (several : 0 < window.steps)
    (drawn : Draw.between 0 (window.steps - 1) source = .ok (count, rest)) :
    window.offset source = .ok (window.low.toInt + 4 * count, rest) := by
  unfold offset
  rw [if_neg (by omega)]
  exact Draw.bind_eq_ok.2 ⟨count, rest, drawn, rfl⟩

/-- A single step is the lower end, and nothing is drawn for it. -/
theorem offset_of_le (narrow : window.high.toInt ≤ window.low.toInt + 4) (source : Source) :
    window.offset source = .ok (window.low.toInt, source) := by
  have single := steps_le_one_iff.2 narrow
  by_cases some_ : 0 < window.steps
  · have undrawn : Draw.between 0 (window.steps - 1) source = .ok (0, source) :=
      congrArg Except.ok (if_pos (by omega))
    rw [offset_of_between some_ undrawn, Int.mul_zero, Int.add_zero]
  · unfold offset
    rw [if_pos (by omega)]
    rfl

/-- Nothing on the way to an offset is too large for 64 bits. -/
theorem run_checkedOffset (window : Window) :
    window.checkedOffset.run = some <$> window.offset := by
  obtain ⟨⟨_, _⟩, _, _⟩ := window.ends_bounds
  have most := window.steps_le
  funext source
  unfold checkedOffset
  rw [checkedSteps_eq, pure_bind]
  split
  · rename_i none_
    have narrow : window.high.toInt ≤ window.low.toInt + 4 := steps_le_one_iff.1 (by omega)
    rw [map_eq_ok some (offset_of_le narrow source)]
    rfl
  · rename_i several
    obtain ⟨count, rest, drawn, bounds⟩ := (Draw.succeeds_between 0 (window.steps - 1)).gives
      (Draw.ensures_between (by omega)) source
    rw [Int.max_eq_right (by omega)] at bounds
    rw [map_eq_ok some (offset_of_between (by omega) drawn), fitting_eq (by omega) (by omega),
      pure_bind, run_liftM_bind drawn, fitting_eq (by omega) (by omega), pure_bind,
      fitting_eq (by omega) (by omega), pure_bind, fitting_eq (by omega) (by omega)]
    rfl

/-! ## Every step -/

/-- Every step is one of the counted ones. -/
theorem exists_count_of_step {value : Int} (least : window.low.toInt ≤ value)
    (below : value < window.high.toInt) (stepped : 4 ∣ value - window.low.toInt) :
    ∃ count, 0 ≤ count ∧ count ≤ window.steps - 1 ∧ value = window.low.toInt + 4 * count := by
  obtain ⟨count, distance⟩ := stepped
  have counted : count < window.steps := (lt_steps_iff (by omega)).2 (by omega)
  exact ⟨count, by omega, by omega, by omega⟩

theorem exists_word_offset (wide : window.low.toInt + 4 < window.high.toInt) {value : Int}
    (least : window.low.toInt ≤ value) (below : value < window.high.toInt)
    (stepped : 4 ∣ value - window.low.toInt) :
    ∃ word : UInt64, ∀ source rest : Source, source.next64 = (word, rest) →
      window.offset source = .ok (value, rest) := by
  have most := window.steps_le
  have several : 1 < window.steps := (lt_steps_iff (by decide)).2 (by omega)
  obtain ⟨count, first, last, rfl⟩ := exists_count_of_step least below stepped
  obtain ⟨word, gives⟩ := exists_word_between (by omega) (by omega) first last
  refine ⟨word, fun source rest taken => ?_⟩
  exact offset_of_between (by omega) (congrArg Except.ok (gives source rest taken))

/-- If the draw attains every number of its interval, the offset attains every step. -/
theorem exists_offset_of_attains (attained : (Draw.between 0 (window.steps - 1)).Attains 0 (window.steps - 1))
    {value : Int} (least : window.low.toInt ≤ value) (below : value < window.high.toInt)
    (stepped : 4 ∣ value - window.low.toInt) :
    ∃ source rest, window.offset source = .ok (value, rest) := by
  obtain ⟨count, first, last, rfl⟩ := exists_count_of_step least below stepped
  obtain ⟨source, rest, drawn⟩ := attained count first last
  exact ⟨source, rest, offset_of_between (by omega) drawn⟩

/-- Whatever the ends of a window, its offsets are computed within 64 bits.  Up to a width of four
the offset is the lower end and nothing is drawn; beyond that it is always a step of four from the
lower end, below the upper one, and each such step comes from some word, so from some
source if the draw attains all its numbers. -/
theorem offsets_are_the_steps (window : Window) :
    window.checkedOffset.run = some <$> window.offset ∧
      (window.high.toInt ≤ window.low.toInt + 4 →
        ∀ source, window.offset source = .ok (window.low.toInt, source)) ∧
      (window.low.toInt + 4 < window.high.toInt →
        (∀ source, ∃ value rest, window.offset source = .ok (value, rest) ∧
          window.low.toInt ≤ value ∧ value < window.high.toInt ∧ 4 ∣ value - window.low.toInt) ∧
        ∀ value, window.low.toInt ≤ value → value < window.high.toInt →
          4 ∣ value - window.low.toInt →
            (∃ word : UInt64, ∀ source rest : Source, source.next64 = (word, rest) →
              window.offset source = .ok (value, rest)) ∧
            ((Draw.between 0 (window.steps - 1)).Attains 0 (window.steps - 1) →
              ∃ source rest, window.offset source = .ok (value, rest))) := by
  refine ⟨window.run_checkedOffset, offset_of_le, fun wide => ⟨fun source => ?_, ?_⟩⟩
  · obtain ⟨value, rest, given, holds⟩ := window.succeeds_offset.gives window.ensures_offset source
    refine ⟨value, rest, given, ?_⟩
    obtain rfl | steps := holds
    · exact ⟨Int.le_refl _, by omega, by omega⟩
    · exact steps
  · intro value least below stepped
    exact ⟨exists_word_offset wide least below stepped,
      fun attained => exists_offset_of_attains attained least below stepped⟩

theorem attains_between_two : (Draw.between 0 2).Attains 0 2 := by
  have drawn : ∀ value ∈ [(0, 2), (1, 4), ((2 : Int), (0 : UInt64))],
      (Draw.between 0 2).observe (.ofSeed value.2) id = some value.1 := by decide +kernel
  intro value least greatest
  have inside : value = 0 ∨ value = 1 ∨ value = 2 := by omega
  obtain ⟨seed, member⟩ : ∃ seed, (value, seed) ∈ [(0, 2), (1, 4), ((2 : Int), (0 : UInt64))] := by
    rcases inside with rfl | rfl | rfl
    · exact ⟨2, by decide⟩
    · exact ⟨4, by decide⟩
    · exact ⟨0, by decide⟩
  obtain ⟨given, rest, from_, rfl⟩ := Draw.exists_of_observe (drawn _ member)
  exact ⟨.ofSeed seed, rest, from_⟩

/-- Three steps between -6 and 5, the last of which ends at 2; none in a reversed window. -/
theorem offsets_are_the_steps_unaligned :
    (Window.mk 256 8).offset (.ofSeed 7) = .ok (256, .ofSeed 7) ∧
      (Draw.between 0 ((Window.mk (-6) 5).steps - 1)).Attains 0 ((Window.mk (-6) 5).steps - 1) ∧
      ∃ source rest, (Window.mk (-6) 5).offset source = .ok (2, rest) := by
  have three : (Window.mk (-6) 5).steps = 3 := by decide
  have attained : (Draw.between 0 ((Window.mk (-6) 5).steps - 1)).Attains 0
      ((Window.mk (-6) 5).steps - 1) := by
    rw [three]
    exact attains_between_two
  obtain ⟨-, reversed, -⟩ := offsets_are_the_steps ⟨256, 8⟩
  obtain ⟨-, -, several⟩ := offsets_are_the_steps ⟨-6, 5⟩
  obtain ⟨-, reached⟩ := several (by decide)
  obtain ⟨-, given⟩ := reached 2 (by decide) (by decide) (by decide)
  exact ⟨reversed (by decide) _, attained, given attained⟩

end Window

end Rv32Stimulus
