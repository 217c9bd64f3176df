/-
# Proofs.Control.Target -- what targets can be chosen

The last position draws nothing; anywhere else a bucket is drawn, and the choice is made under its
cap (`chooseTarget_of_inner`).  `Profile.Moves` lists what can be chosen under a cap: a step back
that the profile still allows; the branch itself where there is no room; a step ahead.

`Profile.Chooses` lists the ways a target comes about, whatever the bucket, with everything each way
knows.  `ensures_chooseTarget` says that every drawn choice is one of these, so that a fact about
targets is a short case analysis: a target is a position of the program
(`Chooses.target_lt`), and at the last position it is that position (`Chooses.eq_of_last`).
-/
import Rv32Stimulus.Control.Target
import Rv32Stimulus.Proofs.Profile.Drawable
import Rv32Stimulus.Proofs.Random.Bounds

namespace Rv32Stimulus

set_option autoImplicit false

open Rv32Stimulus.Random

theorem BranchProfile.capDistance_lt (profile : BranchProfile) (bucket : Option Nat) :
    profile.capDistance bucket < 0x40000000 := by
  have := (profile.cap bucket).toNat_lt
  unfold capDistance wordBytes
  omega

/-- The most positions a branch may skip under any cap. -/
def BranchProfile.greatestDistance (profile : BranchProfile) : Nat :=
  max (max profile.nearMaxBytes.toNat profile.midMaxBytes.toNat) profile.farMaxBytes.toNat / wordBytes

theorem BranchProfile.capDistance_le_greatestDistance (profile : BranchProfile)
    (bucket : Option Nat) : profile.capDistance bucket ≤ profile.greatestDistance := by
  apply Nat.div_le_div_right
  unfold cap
  split <;> omega

namespace Profile

/-- How a branch at `index` of a program of `length` instructions gets its target, `backward`
others having gone backward before it. -/
inductive Chooses (profile : Profile) (backward : UInt32) (index length : Nat) :
    TargetChoice → Prop
  /-- The last position has nowhere to go. -/
  | last (isLast : length ≤ index + 1) : Chooses profile backward index length ⟨index, backward⟩
  | back (bucket : Option Nat) (distance : Nat) (inner : index + 1 < length)
      (allowed : profile.mayGoBackward backward index = true) (positive : 0 < distance)
      (room : distance ≤ min (profile.branches.capDistance bucket) index) :
      Chooses profile backward index length ⟨index - distance, backward + 1⟩
  /-- The cap is below one word. -/
  | stay (bucket : Option Nat) (inner : index + 1 < length)
      (noRoom : profile.branches.capDistance bucket = 0) :
      Chooses profile backward index length ⟨index, backward⟩
  | ahead (bucket : Option Nat) (distance : Nat) (inner : index + 1 < length)
      (positive : 0 < distance)
      (room : distance ≤ min (profile.branches.capDistance bucket) (length - (index + 1))) :
      Chooses profile backward index length ⟨index + distance, backward⟩

/-- What a branch can choose when it may skip up to `cap` positions. -/
inductive Moves (profile : Profile) (backward : UInt32) (index length cap : Nat) :
    TargetChoice → Prop
  | back (distance : Nat) (allowed : profile.mayGoBackward backward index = true)
      (positive : 0 < distance) (room : distance ≤ min cap index) :
      Moves profile backward index length cap ⟨index - distance, backward + 1⟩
  | stay (noRoom : cap = 0) : Moves profile backward index length cap ⟨index, backward⟩
  | ahead (distance : Nat) (positive : 0 < distance)
      (room : distance ≤ min cap (length - (index + 1))) :
      Moves profile backward index length cap ⟨index + distance, backward⟩

/-! ## What every choice keeps -/

/-- Where going back is allowed, one more backward target is one more. -/
theorem charge_of_mayGoBackward {profile : Profile} {before : UInt32} {index : Nat}
    (allowed : profile.mayGoBackward before index = true) :
    profile.branches.allowBackward = true ∧ before < profile.maxBackward ∧
      (before + 1).toNat = before.toNat + 1 := by
  unfold mayGoBackward at allowed
  simp only [Bool.and_eq_true, decide_eq_true_eq] at allowed
  obtain ⟨⟨open_, -⟩, below⟩ := allowed
  refine ⟨open_, below, ?_⟩
  have bound := profile.maxBackward.toNat_lt
  have room := UInt32.lt_iff_toNat_lt.1 below
  rw [UInt32.toNat_add]
  exact Nat.mod_eq_of_lt (show before.toNat + 1 < 2 ^ 32 by omega)

namespace Chooses

variable {profile : Profile} {backward : UInt32} {index length : Nat} {choice : TargetChoice}

theorem target_lt (chosen : profile.Chooses backward index length choice)
    (inside : index < length) : choice.target < length := by
  cases chosen with
  | last | stay => exact inside
  | back bucket distance inner allowed positive room => dsimp only; omega
  | ahead bucket distance inner positive room => dsimp only; omega

theorem eq_of_last (chosen : profile.Chooses backward index length choice)
    (isLast : length ≤ index + 1) : choice.target = index := by
  cases chosen with
  | last | stay => rfl
  | back bucket distance inner allowed positive room => omega
  | ahead bucket distance inner positive room => omega

end Chooses

/-! ## The draw -/

/-- The choice of a branch that may skip up to `cap` positions. -/
def chooseUnder (profile : Profile) (backward : UInt32) (index length cap : Nat) :
    Draw TargetChoice := do
  let turnsBack ←
    if profile.mayGoBackward backward index then Draw.chance 0.5 else pure false
  let room := min cap index
  if turnsBack && 0 < room then
    let distance ← Draw.between 1 room
    return ⟨index - distance.toNat, backward + 1⟩
  let room := min cap (length - (index + 1))
  if room = 0 then return ⟨index, backward⟩
  let distance ← Draw.between 1 room
  return ⟨min (index + distance.toNat) (length - 1), backward⟩

theorem chooseTarget_of_last (profile : Profile) (backward : UInt32) {index length : Nat}
    (isLast : length ≤ index + 1) :
    profile.chooseTarget backward index length = pure ⟨index, backward⟩ :=
  if_pos isLast

theorem chooseTarget_of_inner (profile : Profile) (backward : UInt32) {index length : Nat}
    (inner : index + 1 < length) :
    profile.chooseTarget backward index length =
      profile.branches.bucket >>= fun bucket =>
        profile.chooseUnder backward index length (profile.branches.capDistance bucket) :=
  if_neg (Nat.not_le.2 inner)

theorem ensures_chooseUnder (profile : Profile) (backward : UInt32) {index length cap : Nat}
    (inner : index + 1 < length) (small : cap < 0x40000000) :
    (profile.chooseUnder backward index length cap).Ensures
      (profile.Moves backward index length cap) := by
  unfold chooseUnder
  extract_lets behind before turn
  -- The coin falls for a way back only if it was thrown, so only where going back is allowed.
  have turned (turnsBack : Bool)
      (allowed : turnsBack = true → profile.mayGoBackward backward index = true) :
      (turn turnsBack).Ensures (profile.Moves backward index length cap) := by
    refine .ite ?_ fun _ => .ite ?_ ?_
    · intro goes
      obtain ⟨falls, positive⟩ : turnsBack = true ∧ 0 < behind := by simpa using goes
      refine (Draw.ensures_between (by omega)).bind fun distance bounds => .pure ?_
      exact .back distance.toNat (allowed falls) (by omega) (by omega)
    · intro blocked
      exact .pure (.stay (by omega))
    · intro open_
      refine (Draw.ensures_between (by omega)).bind fun distance bounds => .pure ?_
      have within : index + distance.toNat ≤ length - 1 := by omega
      rw [Nat.min_eq_left within]
      exact .ahead distance.toNat (by omega) (by omega)
  refine .ite ?_ ?_
  · intro allowed
    refine (Draw.Ensures.trivial _).bind ?_
    intro turnsBack _
    apply turned
    intro _
    exact allowed
  · intro forbidden
    exact turned false nofun

theorem ensures_chooseTarget (profile : Profile) (backward : UInt32) (index length : Nat) :
    (profile.chooseTarget backward index length).Ensures
      (profile.Chooses backward index length) := by
  rcases Nat.lt_or_ge (index + 1) length with inner | isLast
  · rw [profile.chooseTarget_of_inner backward inner]
    refine (Draw.Ensures.trivial _).bind fun bucket _ => ?_
    refine (profile.ensures_chooseUnder backward inner (profile.branches.capDistance_lt bucket)).mono ?_
    rintro choice (⟨distance, allowed, positive, room⟩ | ⟨noRoom⟩ | ⟨distance, positive, room⟩)
    · exact .back bucket distance inner allowed positive room
    · exact .stay bucket inner noRoom
    · exact .ahead bucket distance inner positive room
  · rw [profile.chooseTarget_of_last backward isLast]
    exact .pure (.last isLast)

theorem succeeds_chooseUnder (profile : Profile) (backward : UInt32) (index length cap : Nat) :
    (profile.chooseUnder backward index length cap).Succeeds := by
  unfold chooseUnder
  extract_lets behind before turn
  have turned (turnsBack : Bool) : (turn turnsBack).Succeeds := by
    refine .ite ?_ (.ite ?_ ?_)
    · exact (Draw.succeeds_between _ _).bind fun _ => .pure _
    · exact .pure _
    · exact (Draw.succeeds_between _ _).bind fun _ => .pure _
  refine .ite ?_ ?_
  · exact (Draw.succeeds_chance _).bind turned
  · exact turned false

theorem succeeds_chooseTarget {profile : Profile}
    (finite : overflows profile.branches.weights = false) (backward : UInt32)
    (index length : Nat) : (profile.chooseTarget backward index length).Succeeds := by
  rcases Nat.lt_or_ge (index + 1) length with inner | isLast
  · rw [profile.chooseTarget_of_inner backward inner]
    refine (Draw.succeeds_weighted finite).bind fun bucket => ?_
    exact profile.succeeds_chooseUnder backward index length _
  · rw [profile.chooseTarget_of_last backward isLast]
    exact .pure _

/-- Anywhere but at the last position a bucket is drawn first. -/
theorem fails_chooseTarget {profile : Profile}
    (infinite : overflows profile.branches.weights = true) (backward : UInt32)
    {index length : Nat} (inner : index + 1 < length) :
    (profile.chooseTarget backward index length).Fails := by
  rw [profile.chooseTarget_of_inner backward inner]
  exact (Draw.fails_weighted infinite).bind _

end Profile

end Rv32Stimulus
