/-
# Pipeline.Hazard -- data hazards between neighbours

An instruction is patched against the one before it, so that data dependencies are much
more frequent than free register choice makes them.  Up to three coins are thrown, in
this order; a later patch may overwrite an earlier one:

* read after write: the first source register becomes the predecessor's destination,
  unless that is `x0`;
* write after write: the destination becomes the predecessor's destination;
* load use: after a load, `rs1` becomes the destination of the load, `x0` or not.

Coins depend only on whether there is a predecessor and whether a load came last, never on
registers: the load-use coin is thrown only after a load.  `Tracker` keeps what was
emitted last.
-/
import Rv32Stimulus.Instruction.Basic
import Rv32Stimulus.Profile.Basic
import Rv32Stimulus.Random.Draw

namespace Rv32Stimulus

set_option autoImplicit false

open Rv32Stimulus.Random

/-- One flag for each kind of hazard. -/
structure Hazards where
  raw : Bool := false
  waw : Bool := false
  loadUse : Bool := false
  deriving DecidableEq, Repr

def Hazards.any (hazards : Hazards) : Bool := hazards.raw || hazards.waw || hazards.loadUse

namespace Instruction

/-! ## Patches; `none` where the hazard cannot be made -/

/-- Read what `previous` writes, through `rs1`, else through `rs2`. -/
def readAfterWrite? (inst previous : Instruction) : Option Instruction :=
  match previous.rd with
  | some rd =>
      if rd = 0 then none
      else if inst.rs1.isSome then some { inst with rs1 := some rd }
      else if inst.rs2.isSome then some { inst with rs2 := some rd }
      else none
  | none => none

/-- Write where `previous` writes. -/
def writeAfterWrite? (inst previous : Instruction) : Option Instruction :=
  match previous.rd, inst.rd with
  | some rd, some _ => some { inst with rd := some rd }
  | _, _ => none

/-- Use `loaded` as `rs1`. -/
def useLoaded? (inst : Instruction) (loaded : Option UInt8) : Option Instruction :=
  match loaded, inst.rs1 with
  | some rd, some _ => some { inst with rs1 := some rd }
  | _, _ => none

/-- The patched instruction if the coin fell and there is a patch, and whether so. -/
def patchedIf (inst : Instruction) (coin : Bool) (patch? : Instruction → Option Instruction) :
    Instruction × Bool :=
  if coin then
    match patch? inst with
    | some patched => (patched, true)
    | none => (inst, false)
  else (inst, false)

end Instruction

/-- What became of one instruction: the coins thrown for it, and the patches made. -/
structure Injection where
  inst : Instruction
  coins : Hazards := {}
  made : Hazards := {}
  deriving DecidableEq, Repr

/-- The destination of the instruction emitted last, and whether that was a load. -/
structure Tracker where
  lastRd : Option UInt8 := none
  lastWasLoad : Bool := false
  deriving DecidableEq, Repr

namespace Tracker

/-- What is tracked once `inst` is emitted. -/
def after (inst : Instruction) : Tracker := ⟨inst.rd, inst.isLoad⟩

/-- The coins for an instruction that has a predecessor. -/
def throwCoins (tracker : Tracker) (profile : HazardProfile) : Draw Hazards := do
  let raw ← Draw.chance profile.rawDependency
  let waw ← Draw.chance profile.wawRepeat
  let loadUse ← if tracker.lastWasLoad then Draw.chance profile.loadUse else pure false
  return { raw, waw, loadUse }

/-- Patch `inst` as the coins say, where that can be done. -/
def patch (tracker : Tracker) (coins : Hazards) (previous inst : Instruction) : Injection :=
  let (inst, raw) := inst.patchedIf coins.raw (·.readAfterWrite? previous)
  let (inst, waw) := inst.patchedIf coins.waw (·.writeAfterWrite? previous)
  let (inst, loadUse) := inst.patchedIf coins.loadUse (·.useLoaded? tracker.lastRd)
  { inst, coins, made := { raw, waw, loadUse } }

/-- Patch `inst` against `previous`; the first instruction stays as it is, without a draw. -/
def inject (tracker : Tracker) (profile : HazardProfile) (previous? : Option Instruction)
    (inst : Instruction) : Draw Injection :=
  match previous? with
  | none => pure { inst }
  | some previous => do return tracker.patch (← tracker.throwCoins profile) previous inst

end Tracker

end Rv32Stimulus
