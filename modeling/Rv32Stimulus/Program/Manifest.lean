/-
# Program.Manifest -- how a program was made

With the catalog and the profile, the seed and the length of a manifest are enough to
make the first program of a generator again.  Its document has a fixed order of members;
the time is left out where it is not known, and the two counters may be missing when it
is read.
-/
import Rv32Stimulus.Json.Pretty
import Rv32Stimulus.Profile.Document

namespace Rv32Stimulus

set_option autoImplicit false

open Json (Reader Problem Shape)

structure Manifest where
  generator : String
  version : String
  /-- When the files were written. -/
  timestamp : Option String
  seed : UInt64
  length : Nat
  weights : WeightTable
  backwardBranches : UInt32
  /-- Branches and jumps whose target was out of reach. -/
  offsetFallbacks : Nat
  /-- Instructions of an unsupported format. -/
  nopSubstitutions : Nat
  deriving DecidableEq

namespace Manifest

def generatorName : String := "RV32I Random Test Generator"

def generatorVersion : String := "0.1.0"

def withTimestamp (manifest : Manifest) (time : String) : Manifest :=
  { manifest with timestamp := some time }

/-! ## The document -/

def toJson (manifest : Manifest) : Json :=
  let time := manifest.timestamp.toList.map fun time => ("timestamp", Json.text time)
  Json.fields <|
    [("generator", Json.text manifest.generator), ("version", Json.text manifest.version)] ++ time ++
    [ ("seed", Json.int manifest.seed.toNat),
      ("length", Json.int manifest.length),
      ("weights", manifest.weights.toJson),
      ("backward_branches", Json.int manifest.backwardBranches.toNat),
      ("offset_fallbacks", Json.int manifest.offsetFallbacks),
      ("nop_substitutions", Json.int manifest.nopSubstitutions) ]

/-- The text of the document. -/
def text (manifest : Manifest) : String := manifest.toJson.pretty

def shape : Shape Manifest :=
  Shape.of mk
    <*> .field "generator" Json.readText
    <*> .field "version" Json.readText
    <*> .fieldOr none "timestamp" (Json.readOption Json.readText)
    <*> .field "seed" Json.readUInt64
    <*> .field "length" Json.readCount
    <*> .field "weights" WeightTable.read
    <*> .field "backward_branches" Json.readUInt32
    <*> .fieldOr 0 "offset_fallbacks" Json.readCount
    <*> .fieldOr 0 "nop_substitutions" Json.readCount

def read : Reader Manifest := shape.reader "struct Manifest"

/-- The manifest that a text describes. -/
def ofText (content : String) : Except Problem Manifest := Json.document read content

end Manifest

end Rv32Stimulus
