/-
# Synthesis.Operand -- values of immediates, offsets and base registers

Arithmetic immediates and memory offsets come from weighted buckets and are clamped to
twelve signed bits.  A window of memory offsets is entered in steps of four from its
lower end (`Window.steps`); an empty window yields the lower end.  Upper
immediates are either the upper twenty bits of a listed address or uniform.
-/
import Rv32Stimulus.Profile.Basic
import Rv32Stimulus.Random.Draw

namespace Rv32Stimulus

set_option autoImplicit false

open Rv32Stimulus.Random

/-- Least and greatest twelve-bit immediate. -/
def leastImmediate : Int := -2048
def greatestImmediate : Int := 2047

/-- The nearest twelve-bit immediate. -/
def clampImmediate (value : Int) : Int32 :=
  .ofInt (max leastImmediate (min value greatestImmediate))

/-- The greatest twenty-bit upper immediate. -/
def greatestUpper : Nat := 0xfffff

/-- The link register, preferred by jumps. -/
def linkRegister : UInt8 := 1

/-- The stack pointer, preferred as a base. -/
def stackPointer : UInt8 := 2

namespace ArithmeticProfile

/-- A value of the bucket: small, boundary, medium, special, or any; not yet clamped. -/
def valueIn (profile : ArithmeticProfile) : Option Nat → Draw Int
  | some 0 => Draw.between (-1) 1
  | some 1 => do return ((← Draw.pick profile.boundaryValues).getD 0).toInt
  | some 2 => Draw.between (-32) 32
  | some 3 => do return ((← Draw.pick profile.specialValues).getD 0).toInt
  | _ => Draw.between leastImmediate greatestImmediate

def immediate (profile : ArithmeticProfile) : Draw Int32 := do
  let bucket ← Draw.weighted
    [profile.small, profile.boundary, profile.medium, profile.specialPattern, profile.randomFull]
  return clampImmediate (← profile.valueIn bucket)

end ArithmeticProfile

namespace Window

/-- How many steps of four from `low` stay below `high`; the quotient goes toward zero. -/
def steps (window : Window) : Int := (window.high.toInt - window.low.toInt + 3).tdiv 4

/-- An offset of the window, stepping from its lower end. -/
def offset (window : Window) : Draw Int :=
  if window.steps ≤ 0 then pure window.low.toInt
  else do return window.low.toInt + 4 * (← Draw.between 0 (window.steps - 1))

end Window

namespace MemoryProfile

/-- An offset of the bucket: zero, small, mid or far window; not yet clamped. -/
def offsetIn (profile : MemoryProfile) : Option Nat → Draw Int
  | some 1 => profile.small.offset
  | some 2 => profile.mid.offset
  | some 3 => profile.far.offset
  | _ => pure 0

def offset (profile : MemoryProfile) : Draw Int32 := do
  let bucket ← Draw.weighted
    [profile.nearZero, profile.smallRange, profile.midRange, profile.farRange]
  return clampImmediate (← profile.offsetIn bucket)

end MemoryProfile

namespace RegisterProfile

/-- The base of a memory access, which is never `x0`. -/
def base (profile : RegisterProfile) : Draw UInt8 := do
  if ← Draw.chance profile.stackBase then return stackPointer
  return .ofNat (← Draw.between 1 31).toNat

/-- The destination of a `JAL`. -/
def link (profile : RegisterProfile) : Draw UInt8 := do
  if ← Draw.chance profile.linkInJump then return linkRegister
  Draw.register

end RegisterProfile

namespace UpperProfile

/-- The upper twenty of the low thirty-two bits of an address. -/
def upperBits (address : UInt64) : Int32 := .ofNat (address.toNat / 0x1000 % 0x100000)

/-- Any upper immediate. -/
def uniform : Draw Int32 := do return .ofInt (← Draw.between 0 greatestUpper)

def immediate (profile : UpperProfile) : Draw Int32 := do
  if ← Draw.chance profile.symbolicFraction then
    match ← Draw.pick profile.symbolicBases with
    | some address => return upperBits address
    | none => uniform
  else uniform

end UpperProfile

example : (Window.mk 4 64).steps = 15 := by decide
example : (Window.mk 256 8).steps = -61 := by decide
example : UpperProfile.upperBits 0x80001234 = 0x80001 := by decide

end Rv32Stimulus
