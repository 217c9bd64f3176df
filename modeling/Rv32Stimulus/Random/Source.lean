/-
# Random.Source -- a place in a keystream

A `Source` is a key and the number of keystream words already taken.  Every draw of
a run takes its words from one source, in order and without gaps, so a run is
determined by the seed and by what it asks for.

The block that holds the next word is kept with the source; `block_eq` says that it
is the one the key and the place determine, so two sources with the same key and
place are equal (`Source.ext_position`).
-/
import Rv32Stimulus.Random.Keystream

namespace Rv32Stimulus.Random

set_option autoImplicit false

/-- Number of words in a block. -/
def blockWords : Nat := 16

/-- The block in which word `position` of the keystream lies. -/
def blockAt (key : Key) (position : Nat) : Block :=
  Block.output key (UInt64.ofNat (position / blockWords))

structure Source where
  key : Key
  /-- Words taken so far. -/
  position : Nat
  /-- The block of the next word. -/
  block : Block
  block_eq : block = blockAt key position

namespace Source

theorem ext_position {left right : Source} (key : left.key = right.key)
    (position : left.position = right.position) : left = right := by
  obtain ⟨_, _, _, left_eq⟩ := left
  obtain ⟨_, _, _, right_eq⟩ := right
  simp only at key position
  subst key position left_eq right_eq
  rfl

instance : DecidableEq Source := fun left right =>
  decidable_of_iff (left.key = right.key ∧ left.position = right.position)
    ⟨fun same => ext_position same.1 same.2, fun same => same ▸ ⟨rfl, rfl⟩⟩

/-- The source of a key after `position` words. -/
def ofKey (key : Key) (position : Nat) : Source := ⟨key, position, blockAt key position, rfl⟩

def ofSeed (seed : UInt64) : Source := ofKey (Key.ofSeed seed) 0

theorem blockAt_succ (key : Key) (position : Nat)
    (inside : position % blockWords + 1 < blockWords) :
    blockAt key (position + 1) = blockAt key position := by
  have same : (position + 1) / blockWords = position / blockWords := by
    simp only [blockWords] at inside ⊢; omega
  simp only [blockAt, same]

/-- The next word, left where it is. -/
def peek (source : Source) : UInt32 :=
  source.block.get ⟨source.position % blockWords, Nat.mod_lt _ (by decide)⟩

/-- The source after its next word. -/
def advance (source : Source) : Source :=
  if inside : source.position % blockWords + 1 < blockWords then
    { key := source.key
      position := source.position + 1
      block := source.block
      block_eq := by rw [source.block_eq, blockAt_succ _ _ inside] }
  else ofKey source.key (source.position + 1)

/-- One 32-bit word. -/
def next32 (source : Source) : UInt32 × Source := (source.peek, source.advance)

/-- One 64-bit word: two words of the keystream, the first the low half. -/
def next64 (source : Source) : UInt64 × Source :=
  let (low, source) := source.next32
  let (high, source) := source.next32
  (low.toUInt64 ||| (high.toUInt64 <<< 32), source)

end Source

end Rv32Stimulus.Random
