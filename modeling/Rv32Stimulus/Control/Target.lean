/-
# Control.Target -- where a branch or jump goes

Targets are drawn as positions, before any displacement is known.  A bucket of the branch
profile caps the distance; a coin then decides between backward and forward, where
backward is open only if the profile allows it, the position is not the first, and the
program has backward branches left.  The distance is uniform between one and what
both the cap and the program leave room for; without room the target is the position
itself.  The last position draws nothing and targets itself.
-/
import Rv32Stimulus.Profile.Basic
import Rv32Stimulus.Random.Draw

namespace Rv32Stimulus

set_option autoImplicit false

open Rv32Stimulus.Random

/-- Bytes of one instruction. -/
def wordBytes : Nat := 4

namespace BranchProfile

/-- The byte cap of a bucket; near where no bucket was drawn. -/
def cap (profile : BranchProfile) : Option Nat → UInt32
  | some 1 => profile.midMaxBytes
  | some 2 => profile.farMaxBytes
  | _ => profile.nearMaxBytes

/-- The most positions a branch may skip under the cap of a bucket. -/
def capDistance (profile : BranchProfile) (bucket : Option Nat) : Nat :=
  (profile.cap bucket).toNat / wordBytes

/-- The bucket of one branch. -/
def bucket (profile : BranchProfile) : Draw (Option Nat) :=
  Draw.weighted [profile.near, profile.mid, profile.far]

end BranchProfile

/-- A drawn target, and how many targets so far lie backward. -/
structure TargetChoice where
  target : Nat
  backward : UInt32
  deriving DecidableEq, Repr

namespace Profile

/-- Whether a branch at `index` may go backward after `backward` others did. -/
def mayGoBackward (profile : Profile) (backward : UInt32) (index : Nat) : Bool :=
  profile.branches.allowBackward && 0 < index && backward < profile.maxBackward

/-- The target of a branch at `index` in a program of `length` instructions, `backward` of
which branch backward so far. -/
def chooseTarget (profile : Profile) (backward : UInt32) (index length : Nat) :
    Draw TargetChoice := do
  if length ≤ index + 1 then return ⟨index, backward⟩
  let cap := profile.branches.capDistance (← profile.branches.bucket)
  let turnsBack ←
    if profile.mayGoBackward backward index then Draw.chance 0.5 else pure false
  let room := min cap index
  if turnsBack && 0 < room then
    let distance ← Draw.between 1 room
    return ⟨index - distance.toNat, backward + 1⟩
  let room := min cap (length - (index + 1))
  if room = 0 then return ⟨index, backward⟩
  let distance ← Draw.between 1 room
  return ⟨min (index + distance.toNat) (length - 1), backward⟩

end Profile

end Rv32Stimulus
