/-
# Proofs.Synthesis.Operand -- where operand values lie

Every operand fits the field it is meant for, whatever the profile says: value lists and
windows may hold any number, but what comes out of them is clamped to twelve bits or cut
to the upper twenty.  A draw fails only through its weights.
-/
import Rv32Stimulus.Proofs.Profile.Drawable
import Rv32Stimulus.Proofs.Random.Bounds
import Rv32Stimulus.Synthesis.Operand

namespace Rv32Stimulus

set_option autoImplicit false

open Rv32Stimulus.Random

/-- A value that fits twelve signed bits. -/
def IsImmediate (value : Int32) : Prop :=
  leastImmediate ≤ value.toInt ∧ value.toInt ≤ greatestImmediate

/-- A value that fits twenty unsigned bits. -/
def IsUpper (value : Int32) : Prop := 0 ≤ value.toInt ∧ value.toInt ≤ greatestUpper

theorem toInt_clampImmediate (value : Int) :
    (clampImmediate value).toInt = max leastImmediate (min value greatestImmediate) := by
  unfold clampImmediate leastImmediate greatestImmediate
  exact Int32.toInt_ofInt_of_le (by omega) (by omega)

theorem isImmediate_clampImmediate (value : Int) : IsImmediate (clampImmediate value) := by
  rw [IsImmediate, toInt_clampImmediate]
  unfold leastImmediate greatestImmediate
  omega

namespace ArithmeticProfile

theorem succeeds_valueIn (profile : ArithmeticProfile) (bucket : Option Nat) :
    (profile.valueIn bucket).Succeeds := by
  unfold valueIn
  split
  · exact Draw.succeeds_between _ _
  · exact (Draw.succeeds_pick _).bind fun _ => .pure _
  · exact Draw.succeeds_between _ _
  · exact (Draw.succeeds_pick _).bind fun _ => .pure _
  · exact Draw.succeeds_between _ _

theorem succeeds_immediate {profile : ArithmeticProfile}
    (finite : overflows profile.weights = false) : profile.immediate.Succeeds := by
  refine (Draw.succeeds_weighted finite).bind ?_
  intro bucket
  refine (profile.succeeds_valueIn bucket).bind ?_
  intro value
  exact .pure _

theorem fails_immediate {profile : ArithmeticProfile}
    (infinite : overflows profile.weights = true) : profile.immediate.Fails :=
  (Draw.fails_weighted infinite).bind _

theorem ensures_immediate (profile : ArithmeticProfile) :
    profile.immediate.Ensures IsImmediate := by
  refine (Draw.Ensures.trivial _).bind ?_
  intro bucket _
  refine (Draw.Ensures.trivial _).bind ?_
  intro value _
  exact .pure (isImmediate_clampImmediate value)

end ArithmeticProfile

theorem Window.succeeds_offset (window : Window) : window.offset.Succeeds := by
  unfold offset
  split
  · exact .pure _
  · exact (Draw.succeeds_between _ _).bind fun _ => .pure _

namespace MemoryProfile

theorem succeeds_offsetIn (profile : MemoryProfile) (bucket : Option Nat) :
    (profile.offsetIn bucket).Succeeds := by
  unfold offsetIn
  split
  · exact profile.small.succeeds_offset
  · exact profile.mid.succeeds_offset
  · exact profile.far.succeeds_offset
  · exact .pure _

theorem succeeds_offset {profile : MemoryProfile} (finite : overflows profile.weights = false) :
    profile.offset.Succeeds := by
  refine (Draw.succeeds_weighted finite).bind ?_
  intro bucket
  refine (profile.succeeds_offsetIn bucket).bind ?_
  intro value
  exact .pure _

theorem fails_offset {profile : MemoryProfile} (infinite : overflows profile.weights = true) :
    profile.offset.Fails :=
  (Draw.fails_weighted infinite).bind _

theorem ensures_offset (profile : MemoryProfile) : profile.offset.Ensures IsImmediate := by
  refine (Draw.Ensures.trivial _).bind ?_
  intro bucket _
  refine (Draw.Ensures.trivial _).bind ?_
  intro value _
  exact .pure (isImmediate_clampImmediate value)

end MemoryProfile

namespace RegisterProfile

theorem succeeds_base (profile : RegisterProfile) : profile.base.Succeeds := by
  refine (Draw.succeeds_chance _).bind ?_
  intro stack
  refine .ite ?_ ?_
  · exact .pure _
  · exact (Draw.succeeds_between _ _).bind fun _ => .pure _

/-- A base is never `x0`. -/
theorem ensures_base (profile : RegisterProfile) :
    profile.base.Ensures fun register => 0 < register.toNat ∧ register.toNat < 32 := by
  refine (Draw.Ensures.trivial _).bind ?_
  intro stack _
  refine .ite ?_ ?_
  · intro isStack
    exact .pure (by decide)
  · intro isOther
    refine (Draw.ensures_between (by decide)).bind fun number bounds => .pure ?_
    have small : number.toNat < UInt8.size := by unfold UInt8.size; omega
    rw [UInt8.toNat_ofNat_of_lt' small]
    omega

theorem succeeds_link (profile : RegisterProfile) : profile.link.Succeeds := by
  refine (Draw.succeeds_chance _).bind ?_
  intro preferred
  exact .ite (.pure _) Draw.succeeds_register

theorem ensures_link (profile : RegisterProfile) :
    profile.link.Ensures fun register => register.toNat < 32 := by
  refine (Draw.Ensures.trivial _).bind ?_
  intro preferred _
  refine .ite ?_ ?_
  · intro isPreferred
    exact .pure (by decide)
  · intro isOther
    exact Draw.ensures_register

end RegisterProfile

namespace UpperProfile

theorem isUpper_upperBits (address : UInt64) : IsUpper (upperBits address) := by
  unfold IsUpper upperBits greatestUpper
  rw [Int32.toInt_ofNat_of_lt (by omega)]
  omega

theorem succeeds_uniform : uniform.Succeeds :=
  (Draw.succeeds_between _ _).bind fun _ => .pure _

theorem ensures_uniform : uniform.Ensures IsUpper := by
  refine (Draw.ensures_between (by decide)).bind fun value bounds => .pure ?_
  unfold IsUpper greatestUpper at *
  rw [Int32.toInt_ofInt_of_le (by omega) (by omega)]
  omega

theorem succeeds_immediate (profile : UpperProfile) : profile.immediate.Succeeds := by
  refine (Draw.succeeds_chance _).bind ?_
  intro symbolic
  refine .ite ?_ ?_
  · refine (Draw.succeeds_pick _).bind ?_
    intro base
    cases base with
    | some address => exact .pure _
    | none => exact succeeds_uniform
  · exact succeeds_uniform

theorem ensures_immediate (profile : UpperProfile) : profile.immediate.Ensures IsUpper := by
  refine (Draw.Ensures.trivial _).bind ?_
  intro symbolic _
  refine .ite ?_ ?_
  · intro isSymbolic
    refine (Draw.Ensures.trivial _).bind ?_
    intro base _
    cases base with
    | some address => exact .pure (isUpper_upperBits address)
    | none => exact ensures_uniform
  · intro isUniform
    exact ensures_uniform

end UpperProfile

end Rv32Stimulus
