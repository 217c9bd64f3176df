/-
# Random.Keystream -- the ChaCha keystream with twelve rounds

A block is sixteen 32-bit words.  The input block holds four constants, the eight
words of the key, a 64-bit block counter (low word first) and a 64-bit nonce, which
is zero here; the output block is the input plus its image under six double rounds.
The words of blocks 0, 1, 2, … in order are the keystream.
-/

namespace Rv32Stimulus.Random

set_option autoImplicit false

abbrev Block := Vector UInt32 16

/-- Eight words, the first the lowest. -/
abbrev Key := Vector UInt32 8

namespace Block

def rotateLeft (word : UInt32) (amount : UInt32) : UInt32 :=
  (word <<< amount) ||| (word >>> (32 - amount))

/-- One quarter round on four places of the block. -/
def quarterRound (block : Block) (a b c d : Fin 16) : Block :=
  let block := block.set a (block[a] + block[b])
  let block := block.set d (rotateLeft (block[d] ^^^ block[a]) 16)
  let block := block.set c (block[c] + block[d])
  let block := block.set b (rotateLeft (block[b] ^^^ block[c]) 12)
  let block := block.set a (block[a] + block[b])
  let block := block.set d (rotateLeft (block[d] ^^^ block[a]) 8)
  let block := block.set c (block[c] + block[d])
  block.set b (rotateLeft (block[b] ^^^ block[c]) 7)

/-- The four columns, then the four diagonals. -/
def doubleRound (block : Block) : Block :=
  let block := block.quarterRound 0 4 8 12
  let block := block.quarterRound 1 5 9 13
  let block := block.quarterRound 2 6 10 14
  let block := block.quarterRound 3 7 11 15
  let block := block.quarterRound 0 5 10 15
  let block := block.quarterRound 1 6 11 12
  let block := block.quarterRound 2 7 8 13
  block.quarterRound 3 4 9 14

def input (key : Key) (counter : UInt64) : Block :=
  #v[0x61707865, 0x3320646e, 0x79622d32, 0x6b206574,
     key[0], key[1], key[2], key[3], key[4], key[5], key[6], key[7],
     counter.toUInt32, (counter >>> 32).toUInt32, 0, 0]

/-- Block number `counter` of the keystream. -/
def output (key : Key) (counter : UInt64) : Block :=
  let start := input key counter
  let mixed := (List.range 6).foldl (fun block _ => block.doubleRound) start
  start.zipWith (· + ·) mixed

end Block

/-! ## Key from a seed -/

/-- One step of the congruential generator that stretches a seed. -/
def stretchStep (state : UInt64) : UInt64 :=
  state * 6364136223846793005 + 11634580027462260723

/-- The word a generator state shows: its high bits folded and rotated by the top five. -/
def stretchWord (state : UInt64) : UInt32 :=
  let folded := (((state >>> 18) ^^^ state) >>> 27).toUInt32
  let amount := (state >>> 59).toUInt32
  (folded >>> amount) ||| (folded <<< ((32 - amount) &&& 31))

/-- The key of a 64-bit seed: eight words of the stretching generator. -/
def Key.ofSeed (seed : UInt64) : Key :=
  let s1 := stretchStep seed
  let s2 := stretchStep s1
  let s3 := stretchStep s2
  let s4 := stretchStep s3
  let s5 := stretchStep s4
  let s6 := stretchStep s5
  let s7 := stretchStep s6
  let s8 := stretchStep s7
  #v[stretchWord s1, stretchWord s2, stretchWord s3, stretchWord s4,
     stretchWord s5, stretchWord s6, stretchWord s7, stretchWord s8]

end Rv32Stimulus.Random
