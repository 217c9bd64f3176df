/-
# Proofs.Decimal.Shortest -- the shortest decimal lies around its double

Whatever point is found on a grid is in the interval of the double (`around_of_onGrid?`).  A grid whose
unit is below half of the unit of the double has such a point (`isSome_onGrid?`), and the last of the
grids that are tried is that fine (`finest_grid`).  So the search never ends with nothing, and it gives
a decimal to which the double is the nearest (`around_shortest`).
-/
import Rv32Stimulus.Proofs.Binary64.Nearest

namespace Rv32Stimulus.Decimal

set_option autoImplicit false

open Binary64

/-! ## Powers of ten and of two -/

theorem ten_pow_le_two_pow {tens twos : Nat} (ordered : 10 * tens ≤ 3 * twos) :
    10 ^ tens ≤ 2 ^ twos := by
  refine (Nat.pow_le_pow_iff_left (show 3 ≠ 0 by decide)).1 ?_
  calc (10 ^ tens) ^ 3 = (10 ^ 3) ^ tens := Nat.pow_right_comm 10 tens 3
    _ ≤ (2 ^ 10) ^ tens := Nat.pow_le_pow_left (by decide) tens
    _ = 2 ^ (10 * tens) := (Nat.pow_mul 2 10 tens).symm
    _ ≤ 2 ^ (3 * twos) := Nat.pow_le_pow_right (by decide) ordered
    _ = (2 ^ twos) ^ 3 := by rw [Nat.mul_comm, Nat.pow_mul]

theorem two_pow_le_ten_pow {twos tens : Nat} (ordered : 16 * twos ≤ 53 * tens) :
    2 ^ twos ≤ 10 ^ tens := by
  refine (Nat.pow_le_pow_iff_left (show 16 ≠ 0 by decide)).1 ?_
  calc (2 ^ twos) ^ 16 = 2 ^ (16 * twos) := by rw [Nat.mul_comm, Nat.pow_mul]
    _ ≤ 2 ^ (53 * tens) := Nat.pow_le_pow_right (by decide) ordered
    _ = (2 ^ 53) ^ tens := Nat.pow_mul 2 53 tens
    _ ≤ (10 ^ 16) ^ tens := Nat.pow_le_pow_left (by decide) tens
    _ = (10 ^ tens) ^ 16 := Nat.pow_right_comm 10 16 tens

/-- One power of ten takes between 53/16 and 10/3 powers of two. -/
theorem ten_zpow_le_two_zpow {tens twos : Int} (great : 10 * tens ≤ 3 * twos)
    (small : 53 * tens ≤ 16 * twos) : (10 : ℚ) ^ tens ≤ 2 ^ twos := by
  rcases Int.eq_nat_or_neg tens with ⟨tens, rfl | rfl⟩
  · obtain ⟨twos, rfl⟩ := Int.eq_ofNat_of_zero_le (show 0 ≤ twos by omega)
    rw [zpow_natCast, zpow_natCast]
    exact_mod_cast ten_pow_le_two_pow (by omega)
  · rcases Int.eq_nat_or_neg twos with ⟨twos, rfl | rfl⟩
    · calc (10 : ℚ) ^ (-tens : Int) ≤ 1 := zpow_le_one_of_nonpos₀ (by norm_num) (by omega)
        _ ≤ 2 ^ (twos : Int) := one_le_zpow₀ (by norm_num) (by omega)
    · rw [zpow_neg, zpow_neg, zpow_natCast, zpow_natCast]
      have ordered : (2 : ℚ) ^ twos ≤ 10 ^ tens := by exact_mod_cast two_pow_le_ten_pow (by omega)
      exact inv_anti₀ (by positivity) ordered

/-! ## Points of a grid -/

variable {value : Binary} {grid : Int} {count : Nat} {found : Scaled}

theorem zpow_eq_div {base : ℚ} (nonzero : base ≠ 0) (power : Int) :
    base ^ power = base ^ power.toNat / base ^ (-power).toNat := by
  rw [← zpow_natCast, ← zpow_natCast, ← zpow_sub₀ nonzero]
  congr 1
  omega

/-- Over the common denominator the units of the grid and of the double are whole. -/
theorem common_eq (value : Binary) (grid : Int) :
    ∃ unit : ℚ, 0 < unit ∧ (10 : ℚ) ^ grid = (common value grid).1 * unit ∧
      (2 : ℚ) ^ value.quarterExponent = (common value grid).2 * unit := by
  have step : (common value grid).1 = 10 ^ grid.toNat * 2 ^ (-value.quarterExponent).toNat := rfl
  have quarter : (common value grid).2 = 2 ^ value.quarterExponent.toNat * 10 ^ (-grid).toNat := rfl
  refine ⟨1 / (2 ^ (-value.quarterExponent).toNat * 10 ^ (-grid).toNat), by positivity, ?_, ?_⟩
  · rw [step, zpow_eq_div (by norm_num)]
    push_cast
    field_simp
  · rw [quarter, zpow_eq_div (by norm_num)]
    push_cast
    field_simp

theorem common_pos (value : Binary) (grid : Int) :
    0 < (common value grid).1 ∧ 0 < (common value grid).2 :=
  ⟨Nat.mul_pos (Nat.pow_pos (by decide)) (Nat.pow_pos (by decide)),
    Nat.mul_pos (Nat.pow_pos (by decide)) (Nat.pow_pos (by decide))⟩

/-- Whether so many units of the grid are in the interval. -/
def fits (value : Binary) (grid : Int) (count : Nat) : Bool :=
  let point := count * (common value grid).1
  let quarter := (common value grid).2
  if value.mantissa % 2 = 0 then value.low * quarter ≤ point && point ≤ value.high * quarter
  else value.low * quarter < point && point < value.high * quarter

theorem around_of_fits (within : fits value grid count = true) :
    Around value (count * 10 ^ grid) := by
  obtain ⟨unit, positive, step, quarter⟩ := common_eq value grid
  have le_iff (left right : Nat) : (left : ℚ) * unit ≤ right * unit ↔ left ≤ right := by
    rw [mul_le_mul_iff_left₀ positive, Nat.cast_le]
  have lt_iff (left right : Nat) : (left : ℚ) * unit < right * unit ↔ left < right := by
    rw [mul_lt_mul_iff_left₀ positive, Nat.cast_lt]
  rw [step, ← mul_assoc, ← Nat.cast_mul]
  constructor
  · rw [quarter, ← mul_assoc, ← Nat.cast_mul, le_iff]
    grind [fits]
  · rw [quarter, ← mul_assoc, ← Nat.cast_mul, le_iff]
    grind [fits]
  · rw [quarter, ← mul_assoc, ← Nat.cast_mul, ← mul_assoc, ← Nat.cast_mul, lt_iff, lt_iff]
    grind [fits]

/-- The last point of the grid that is not above the double. -/
def pointBelow (value : Binary) (grid : Int) : Nat :=
  value.centre * (common value grid).2 / (common value grid).1

/-- One of the two points next to the double is taken, if it fits and is not zero. -/
theorem onGrid?_eq (value : Binary) (grid : Int) :
    ∃ nearer : Bool, onGrid? value grid =
      if (0 < pointBelow value grid && fits value grid (pointBelow value grid)) &&
          (nearer || !fits value grid (pointBelow value grid + 1)) then
        some ⟨pointBelow value grid, grid⟩
      else if fits value grid (pointBelow value grid + 1) then some ⟨pointBelow value grid + 1, grid⟩
      else none :=
  ⟨_, rfl⟩

theorem around_of_onGrid? (taken : onGrid? value grid = some found) :
    Around value (found.digits * 10 ^ found.exponent) := by
  obtain ⟨nearer, same⟩ := onGrid?_eq value grid
  rw [same] at taken
  split at taken
  · rename_i below
    obtain rfl := Option.some.inj taken
    simp only [Bool.and_eq_true, decide_eq_true_eq] at below
    exact around_of_fits below.1.2
  · split at taken
    · rename_i above
      obtain rfl := Option.some.inj taken
      exact around_of_fits above
    · cases taken

/-- The first multiple of `step` above a number of quarters is less than two quarters away. -/
theorem next_multiple {centre step quarter : Nat} (positive : 0 < step) (fine : step < 2 * quarter) :
    centre * quarter < (centre * quarter / step + 1) * step ∧
      (centre * quarter / step + 1) * step < (centre + 2) * quarter := by
  constructor
  · rw [Nat.mul_comm _ step]
    exact Nat.lt_mul_div_succ _ positive
  · rw [Nat.succ_mul, Nat.add_mul]
    exact Nat.add_lt_add_of_le_of_lt (Nat.div_mul_le_self _ _) fine

/-- The point above the double fits if the unit of the grid is below half of its unit. -/
theorem fits_above (positive : 0 < value.mantissa)
    (fine : (common value grid).1 < 2 * (common value grid).2) :
    fits value grid (pointBelow value grid + 1) = true := by
  obtain ⟨stepPos, quarterPos⟩ := common_pos value grid
  obtain ⟨above, below⟩ := @next_multiple value.centre _ _ stepPos fine
  have low : value.low < value.centre := by
    rw [Binary.low, Binary.centre]
    split <;> omega
  have above : value.low * (common value grid).2 <
      (pointBelow value grid + 1) * (common value grid).1 :=
    (Nat.mul_lt_mul_of_pos_right low quarterPos).trans above
  have below : (pointBelow value grid + 1) * (common value grid).1 <
    value.high * (common value grid).2 := below
  simp only [fits]
  split
  · simp [above.le, below.le]
  · simp [above, below]

theorem isSome_onGrid? (positive : 0 < value.mantissa)
    (fine : (10 : ℚ) ^ grid < 2 * 2 ^ value.quarterExponent) : (onGrid? value grid).isSome := by
  obtain ⟨unit, unitPos, step, quarter⟩ := common_eq value grid
  rw [step, quarter, ← mul_assoc, mul_lt_mul_iff_left₀ unitPos] at fine
  have above := fits_above positive (show (common value grid).1 < 2 * (common value grid).2 by
    exact_mod_cast fine)
  obtain ⟨nearer, same⟩ := onGrid?_eq value grid
  rw [same, above]
  split <;> rfl

/-! ## The search -/

theorem around_fromGrid {fuel steps : Nat} (within : steps < fuel) (start : Int)
    (hit : (onGrid? value (start - steps)).isSome) :
    Around value ((fromGrid value fuel start).digits * 10 ^ (fromGrid value fuel start).exponent) := by
  induction fuel generalizing steps start with
  | zero => omega
  | succ fuel ih =>
      rw [fromGrid]
      split
      · rename_i taken
        exact around_of_onGrid? taken
      · rename_i missed
        cases steps with
        | zero =>
            rw [Nat.cast_zero, sub_zero, missed] at hit
            cases hit
        | succ steps =>
            refine @ih steps (by omega) (start - 1) ?_
            have same : start - 1 - (steps : Int) = start - ((steps + 1 : Nat) : Int) := by omega
            rwa [same]

/-- The last grid that is tried is fine enough. -/
theorem finest_grid (canonical : Canonical value.mantissa value.exponent)
    (inside : value.exponent < 972) :
    (10 : ℚ) ^ (coarseGrid value - 19) < 2 * 2 ^ value.quarterExponent := by
  have short : value.mantissa.log2 ≤ 52 :=
    Nat.le_of_lt_succ ((Nat.log2_lt (Nat.ne_of_gt canonical.positive)).2 canonical.fits)
  have least := canonical.least
  calc (10 : ℚ) ^ (coarseGrid value - 19) ≤ 2 ^ (value.quarterExponent) := by
        apply ten_zpow_le_two_zpow
        · simp only [coarseGrid, Binary.quarterExponent]
          omega
        · simp only [coarseGrid, Binary.quarterExponent]
          omega
    _ < 2 * 2 ^ value.quarterExponent := lt_mul_of_one_lt_left (two_zpow_pos _) (by norm_num)

/-- The shortest decimal of a double is in its interval. -/
theorem around_shortest (canonical : Canonical value.mantissa value.exponent)
    (inside : value.exponent < 972) :
    Around value ((shortest value).digits * 10 ^ (shortest value).exponent) :=
  around_fromGrid (by decide : 19 < 20) _
    (isSome_onGrid? canonical.positive (finest_grid canonical inside))

end Rv32Stimulus.Decimal
