/-
# Random.Draw -- decisions drawn from a source

`Draw α` takes words from a source and gives an `α`.  A coin (`chance`), a bounded
integer (`between`), a register number and an element of a list never fail; a
weighted index fails in one case only, when no weight is negative and the weights
add up to infinity.

Bounded integers scale one word by the size of the range and take the high half.
If the low half is too close to the top, a second word decides whether the first
one is carried over.  An interval of one number draws nothing in `between`; an element of a
one-element list is still drawn.
-/
import Rv32Stimulus.Random.Source

namespace Rv32Stimulus.Random

set_option autoImplicit false

/-- Why a draw cannot be made. -/
inductive DrawError where
  /-- Weights that are all at least zero and have an infinite sum. -/
  | infiniteTotal
  deriving DecidableEq, Repr

abbrev Draw := StateT Source (Except DrawError)

/-! ## One scaled word -/

/-- A number below `range`, from words below `size` that `next` takes. -/
def scaled (size : Nat) (next : Source → Nat × Source) (range : Nat) (source : Source) :
    Nat × Source :=
  let (word, source) := next source
  let high := word * range / size
  let low := word * range % size
  if size - range < low then
    let (word, source) := next source
    (if size ≤ low + word * range / size then high + 1 else high, source)
  else (high, source)

def nextNat32 (source : Source) : Nat × Source :=
  let (word, source) := source.next32
  (word.toNat, source)

def nextNat64 (source : Source) : Nat × Source :=
  let (word, source) := source.next64
  (word.toNat, source)

/-- A number below `range`, which is at most `2 ^ 32`, from 32-bit words. -/
def below32 (range : Nat) : Source → Nat × Source := scaled 0x100000000 nextNat32 range

/-- A number below `range`, which is at most `2 ^ 64`, from 64-bit words. -/
def below64 (range : Nat) : Source → Nat × Source := scaled 0x10000000000000000 nextNat64 range

namespace Source

/-! ## Draws that always succeed -/

/-- A number in `[0, 1)` with 53 fraction bits. -/
def unit (source : Source) : Float × Source :=
  let (word, source) := source.next64
  ((word >>> 11).toFloat / 9007199254740992.0, source)

/-- True with probability `p`; a `p` that is no number never hits. -/
def chance (p : Float) (source : Source) : Bool × Source :=
  let (value, source) := source.unit
  (value < p, source)

/-- An integer of `[low, high]`; `low`, without a draw, if there is no choice.
The full range of 64-bit integers takes one word as it is, in two's complement. -/
def between (low high : Int) (source : Source) : Int × Source :=
  if high ≤ low then (low, source)
  else
    let range := (high - low + 1).toNat
    if range < 0x10000000000000000 then
      let (offset, source) := below64 range source
      (low + offset, source)
    else
      let (word, source) := source.next64
      (word.toInt64.toInt, source)

/-- A register number. -/
def register (source : Source) : UInt8 × Source :=
  let (number, source) := below32 32 source
  (UInt8.ofNat number, source)

/-- A place in a list of `length` items, from 32-bit words if the length is one, else from 64-bit words. -/
def place (length : Nat) (source : Source) : Nat × Source :=
  if length < 0x100000000 then below32 length source else below64 length source

/-- An element of `items`; none, without a draw, if there is none. -/
def pick {α : Type} (items : List α) (source : Source) : Option α × Source :=
  if items.isEmpty then (none, source)
  else
    let (index, source) := source.place items.length
    (items[index]?, source)

/-! ## Weighted index -/

/-- The sums `w₀`, `w₀ + w₁`, …, added from the left. -/
def runningSums : List Float → List Float
  | [] => []
  | first :: rest => go first rest
where
  /-- The running sums from `sum` on. -/
  go (sum : Float) : List Float → List Float
    | [] => [sum]
    | weight :: rest => sum :: go (sum + weight) rest

/-- A number in `[0, 1)` with 52 fraction bits. -/
def fraction (source : Source) : Float × Source :=
  let (word, source) := source.next64
  (Float.ofBits ((0x3ff0000000000000 : UInt64) ||| (word >>> 12)) - 1.0, source)

/-- An index with probability proportional to its weight.  None, without a draw, if
there is no weight, some weight is not at least zero, or all are zero. -/
def weighted (weights : List Float) (source : Source) :
    Except DrawError (Option Nat × Source) :=
  let sums := runningSums weights
  match sums.getLast? with
  | none => .ok (none, source)
  | some total =>
      if !weights.all (0.0 ≤ ·) || total == 0.0 then .ok (none, source)
      else if total.isInf then .error .infiniteTotal
      else
        let (value, source) := source.fraction
        let chosen := value * total
        .ok (some (sums.dropLast.countP (· ≤ chosen)), source)

end Source

/-! ## The same as draws -/

namespace Draw

def chance (p : Float) : Draw Bool := fun source => .ok (source.chance p)

def between (low high : Int) : Draw Int := fun source => .ok (source.between low high)

def register : Draw UInt8 := fun source => .ok source.register

def pick {α : Type} (items : List α) : Draw (Option α) := fun source => .ok (source.pick items)

def weighted (weights : List Float) : Draw (Option Nat) := fun source => source.weighted weights

end Draw

end Rv32Stimulus.Random
