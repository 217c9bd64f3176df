/-
# Decimal.Shortest -- the shortest decimal that rounds to a double

A finite double is `mantissa · 2 ^ exponent`, and the reals that round to it form an
interval around it, whose ends belong to it exactly if the mantissa is even.  Below a
power of two the neighbour is only half as far, so there the interval is shorter
(`Binary.low`).

`shortest` looks at the decimal grids from coarse to fine.  On each it tries the two
grid points next to the value; the first grid with a point in the interval gives the
fewest digits, and of two such points the nearer one is taken, in a tie the even one.
-/

namespace Rv32Stimulus.Decimal

set_option autoImplicit false

/-! ## Doubles -/

/-- A finite double apart from its sign: `mantissa · 2 ^ exponent`. -/
structure Binary where
  mantissa : Nat
  exponent : Int
  deriving DecidableEq, Repr

/-- What a double is, apart from its sign. -/
inductive Magnitude where
  | finite (value : Binary)
  | infinite
  | notANumber
  deriving DecidableEq, Repr

/-- The least mantissa of a normal double. -/
def leastNormal : Nat := 0x10000000000000

/-- The exponent of subnormal doubles, the least there is. -/
def leastExponent : Int := -1074

def isNegative (value : Float) : Bool := 0x8000000000000000 ≤ value.toBits.toNat

def magnitude (value : Float) : Magnitude :=
  let bits := value.toBits.toNat % 0x8000000000000000
  let biased := bits / leastNormal
  let fraction := bits % leastNormal
  if biased = 2047 then (if fraction = 0 then .infinite else .notANumber)
  else if biased = 0 then .finite ⟨fraction, leastExponent⟩
  else .finite ⟨leastNormal + fraction, leastExponent + (biased - 1 : Nat)⟩

namespace Binary

/-! ## The interval of a double, in quarters of its unit -/

def centre (value : Binary) : Nat := 4 * value.mantissa

def high (value : Binary) : Nat := 4 * value.mantissa + 2

def low (value : Binary) : Nat :=
  if value.mantissa = leastNormal ∧ leastExponent < value.exponent then
    4 * value.mantissa - 1
  else 4 * value.mantissa - 2

/-- Exponent of the quarter unit. -/
def quarterExponent (value : Binary) : Int := value.exponent - 2

end Binary

/-! ## Decimals -/

/-- The number `digits · 10 ^ exponent`. -/
structure Scaled where
  digits : Nat
  exponent : Int
  deriving DecidableEq, Repr

/-- `count` units of `10 ^ grid` and `quarters` quarter units of `value`, over a common denominator. -/
def common (value : Binary) (grid : Int) : Nat × Nat :=
  (Nat.pow 10 grid.toNat * Nat.pow 2 (-value.quarterExponent).toNat,
   Nat.pow 2 value.quarterExponent.toNat * Nat.pow 10 (-grid).toNat)

/-- The best point of the grid `10 ^ grid` in the interval of `value`, if there is one. -/
def onGrid? (value : Binary) (grid : Int) : Option Scaled :=
  let (step, quarter) := common value grid
  let centre := value.centre * quarter
  let inside (count : Nat) : Bool :=
    let point := count * step
    if value.mantissa % 2 = 0 then
      value.low * quarter ≤ point && point ≤ value.high * quarter
    else value.low * quarter < point && point < value.high * quarter
  let below := centre / step
  let above := below + 1
  let toBelow := centre - below * step
  let toAbove := above * step - centre
  let belowFits := 0 < below && inside below
  let nearer :=
    toBelow < toAbove || (toBelow == toAbove && below % 2 == 0)
  if belowFits && (nearer || !inside above) then some ⟨below, grid⟩
  else if inside above then some ⟨above, grid⟩
  else none

/-- The first grid from `grid` down with a point in the interval. -/
def fromGrid (value : Binary) : Nat → Int → Scaled
  | 0, grid => ⟨0, grid⟩
  | fuel + 1, grid =>
      match onGrid? value grid with
      | some found => found
      | none => fromGrid value fuel (grid - 1)

/-- A grid coarser than `value`: its unit is above the value. -/
def coarseGrid (value : Binary) : Int :=
  let exponent := value.exponent + (value.mantissa.log2 + 1 : Nat)
  exponent * 30103 / 100000 + 1

/-- The shortest decimal in the interval of a positive `value`, the nearest of these. -/
def shortest (value : Binary) : Scaled := fromGrid value 20 (coarseGrid value)

example : shortest ⟨1, -1074⟩ = ⟨5, -324⟩ := by decide +kernel
example : shortest ⟨0x1999999999999a, -56⟩ = ⟨1, -1⟩ := by decide +kernel
example : shortest ⟨leastNormal, 0⟩ = ⟨4503599627370496, 0⟩ := by decide +kernel

end Rv32Stimulus.Decimal
