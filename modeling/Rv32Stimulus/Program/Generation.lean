/-
# Program.Generation -- from a seed to a program

A program is made in three passes.  `Run.ofLength` draws all instructions in order, each
patched against the one before it.  `resolve` and `labelTable` then turn targets into
displacements and names.  `finish` packs and writes each instruction; it fails at
the first one with an operand that no pass could fill.

All draws happen in the first pass, so the source stands in the same place whether the
last pass fails or not.  A generator goes on with its source from program to program.
-/
import Rv32Stimulus.Control.Displacement
import Rv32Stimulus.Control.Label
import Rv32Stimulus.Instruction.Encoding
import Rv32Stimulus.Pipeline.Hazard
import Rv32Stimulus.Program.Basic
import Rv32Stimulus.Synthesis.Draft

namespace Rv32Stimulus

set_option autoImplicit false

open Rv32Stimulus.Random

/-- Why a drawn sequence is no program. -/
inductive GenerateError where
  /-- The instruction at `index` lacks an operand. -/
  | unencodable (index : Nat) (cause : MissingOperand)
  deriving DecidableEq, Repr

namespace GenerateError

def message : GenerateError → String
  | unencodable index _ => "Instruction " ++ toString index ++ " cannot be encoded"

def reason : GenerateError → MissingOperand
  | unencodable _ cause => cause

end GenerateError

/-! ## Drawing -/

/-- An instruction as it was drawn, and what the injection made of it. -/
structure Emission where
  drawn : Instruction
  injection : Injection
  deriving DecidableEq, Repr

/-- The instruction as it stands in the program. -/
def Emission.inst (emission : Emission) : Instruction := emission.injection.inst

/-- What was emitted so far, the last first, and what else the next instruction depends on. -/
structure Run where
  emitted : List Emission := []
  backward : UInt32 := 0
  tracker : Tracker := {}
  deriving DecidableEq, Repr

namespace Run

/-- The instruction before the next one. -/
def previous? (run : Run) : Option Instruction := run.emitted.head?.map Emission.inst

/-- Draw the instruction at `index`. -/
def step (catalog : Catalog) (profile : Profile) (length : Nat) (run : Run) (index : Nat) :
    Draw Run := do
  let draft ← synthesize catalog profile ⟨index, length⟩ run.backward
  let injection ← run.tracker.inject profile.hazards run.previous? draft.inst
  return {
    emitted := ⟨draft.inst, injection⟩ :: run.emitted
    backward := draft.backward
    tracker := .after injection.inst }

/-- Draw `length` instructions. -/
def ofLength (catalog : Catalog) (profile : Profile) (length : Nat) : Draw Run :=
  (List.range length).foldlM (step catalog profile length) {}

/-- The instructions in program order. -/
def sequence (run : Run) : List Instruction := (run.emitted.map Emission.inst).reverse

end Run

/-! ## Finishing -/

namespace Instruction

/-- The text of an instruction whose format has no encoding. -/
def substituteText : String := "nop"

/-- The instruction with its word and its text. -/
def finish (inst : Instruction) (labels : LabelTable) : Except MissingOperand Instruction := do
  let word ← inst.encode
  return { inst with
    word
    text := if inst.record.format = .unsupported then substituteText else inst.assembly labels }

/-- `finish`, with the position in the error. -/
def finishAt (inst : Instruction) (labels : LabelTable) (index : Nat) :
    Except GenerateError Instruction :=
  match inst.finish labels with
  | .ok inst => .ok inst
  | .error cause => .error (.unencodable index cause)

end Instruction

/-- Pack and write all instructions. -/
def finishAll (sequence : List Instruction) (labels : LabelTable) :
    Except GenerateError (List Instruction) :=
  sequence.zipIdx.mapM fun (inst, index) => inst.finishAt labels index

/-! ## The generator -/

structure Generator where
  catalog : Catalog
  profile : Profile
  seed : UInt64
  source : Source
  deriving DecidableEq

namespace Generator

def ofSeed (catalog : Catalog) (profile : Profile) (seed : UInt64) : Generator :=
  { catalog, profile, seed, source := .ofSeed seed }

/-- The program of a drawn run. -/
def assemble (generator : Generator) (run : Run) : Except GenerateError Program := do
  let labels := labelTable run.sequence
  let labelled := run.sequence.map Instruction.withLabel
  let instructions ← finishAll (resolve labelled) labels
  return {
    instructions, labels
    manifest :=
      { generator := Manifest.generatorName, version := Manifest.generatorVersion
        timestamp := none, seed := generator.seed, length := run.emitted.length
        weights := generator.profile.weights, backwardBranches := run.backward
        offsetFallbacks := outOfReach labelled
        nopSubstitutions := instructions.countP (·.record.format == .unsupported) } }

/-- A program of `length` instructions, and the generator after its draws. -/
def generate (generator : Generator) (length : Nat) :
    Except DrawError (Except GenerateError Program × Generator) := do
  let (run, source) ← Run.ofLength generator.catalog generator.profile length generator.source
  return (generator.assemble run, { generator with source })

end Generator

end Rv32Stimulus
