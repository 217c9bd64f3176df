import Rv32Stimulus.Command.Execution
import Rv32Stimulus.Command.Files
import Rv32Stimulus.Command.Options
import Rv32Stimulus.Command.Outputs
import Rv32Stimulus.Control.Displacement
import Rv32Stimulus.Control.Label
import Rv32Stimulus.Control.Target
import Rv32Stimulus.Decimal.Numeral
import Rv32Stimulus.Decimal.Shortest
import Rv32Stimulus.Decimal.Value
import Rv32Stimulus.Instruction.Assembly
import Rv32Stimulus.Instruction.Basic
import Rv32Stimulus.Instruction.Encoding
import Rv32Stimulus.Isa.Base
import Rv32Stimulus.Isa.Catalog
import Rv32Stimulus.Isa.CatalogText
import Rv32Stimulus.Isa.FieldBits
import Rv32Stimulus.Isa.Fields
import Rv32Stimulus.Isa.Format
import Rv32Stimulus.Isa.Record
import Rv32Stimulus.Isa.Word
import Rv32Stimulus.Json.Pretty
import Rv32Stimulus.Json.Problem
import Rv32Stimulus.Json.Read
import Rv32Stimulus.Json.Scan
import Rv32Stimulus.Json.Shape
import Rv32Stimulus.Json.Tree
import Rv32Stimulus.Main
import Rv32Stimulus.Ordered.Table
import Rv32Stimulus.Pipeline.Hazard
import Rv32Stimulus.Profile.Basic
import Rv32Stimulus.Profile.Check
import Rv32Stimulus.Profile.Document
import Rv32Stimulus.Program.Basic
import Rv32Stimulus.Program.Generation
import Rv32Stimulus.Program.Listing
import Rv32Stimulus.Program.Manifest
import Rv32Stimulus.Proofs.Binary64.Arithmetic
import Rv32Stimulus.Proofs.Binary64.Bits
import Rv32Stimulus.Proofs.Binary64.Nearest
import Rv32Stimulus.Proofs.Binary64.Nonnegative
import Rv32Stimulus.Proofs.Binary64.Packing
import Rv32Stimulus.Proofs.Binary64.Rounding
import Rv32Stimulus.Proofs.Command.Delivery
import Rv32Stimulus.Proofs.Command.Execution
import Rv32Stimulus.Proofs.Command.Files
import Rv32Stimulus.Proofs.Command.Loading
import Rv32Stimulus.Proofs.Command.Outputs
import Rv32Stimulus.Proofs.Control.Displacement
import Rv32Stimulus.Proofs.Control.Label
import Rv32Stimulus.Proofs.Control.Passes
import Rv32Stimulus.Proofs.Control.Selection
import Rv32Stimulus.Proofs.Control.Target
import Rv32Stimulus.Proofs.Decimal.Digits
import Rv32Stimulus.Proofs.Decimal.Numeral
import Rv32Stimulus.Proofs.Decimal.Shortest
import Rv32Stimulus.Proofs.Decimal.Value
import Rv32Stimulus.Proofs.Instruction.Assembly
import Rv32Stimulus.Proofs.Instruction.Decoding
import Rv32Stimulus.Proofs.Instruction.Encoding
import Rv32Stimulus.Proofs.Instruction.Faithful
import Rv32Stimulus.Proofs.Instruction.Identity
import Rv32Stimulus.Proofs.Instruction.Operands
import Rv32Stimulus.Proofs.Instruction.Range
import Rv32Stimulus.Proofs.Instruction.Rebuild
import Rv32Stimulus.Proofs.Instruction.Unambiguous
import Rv32Stimulus.Proofs.Isa.Acceptance
import Rv32Stimulus.Proofs.Isa.Catalog
import Rv32Stimulus.Proofs.Isa.CatalogIndex
import Rv32Stimulus.Proofs.Isa.Codec
import Rv32Stimulus.Proofs.Isa.Coherent
import Rv32Stimulus.Proofs.Isa.Cover
import Rv32Stimulus.Proofs.Isa.FieldText
import Rv32Stimulus.Proofs.Isa.Leeway
import Rv32Stimulus.Proofs.Isa.RecordText
import Rv32Stimulus.Proofs.Json.Extent
import Rv32Stimulus.Proofs.Json.Grammar
import Rv32Stimulus.Proofs.Json.Leeway
import Rv32Stimulus.Proofs.Json.Pretty
import Rv32Stimulus.Proofs.Json.Read
import Rv32Stimulus.Proofs.Json.Scan
import Rv32Stimulus.Proofs.Json.Shape
import Rv32Stimulus.Proofs.Json.Tokens
import Rv32Stimulus.Proofs.Ordered.Table
import Rv32Stimulus.Proofs.Pipeline.Flags
import Rv32Stimulus.Proofs.Pipeline.Hazard
import Rv32Stimulus.Proofs.Profile.Check
import Rv32Stimulus.Proofs.Profile.Drawable
import Rv32Stimulus.Proofs.Profile.Leeway
import Rv32Stimulus.Proofs.Program.Backward
import Rv32Stimulus.Proofs.Program.ControlFlow
import Rv32Stimulus.Proofs.Program.Failure
import Rv32Stimulus.Proofs.Program.Finish
import Rv32Stimulus.Proofs.Program.HazardReach
import Rv32Stimulus.Proofs.Program.HazardTrace
import Rv32Stimulus.Proofs.Program.InstructionLines
import Rv32Stimulus.Proofs.Program.LayoutReach
import Rv32Stimulus.Proofs.Program.Listing
import Rv32Stimulus.Proofs.Program.Lockstep
import Rv32Stimulus.Proofs.Program.ManifestText
import Rv32Stimulus.Proofs.Program.MemoryBase
import Rv32Stimulus.Proofs.Program.Prefix
import Rv32Stimulus.Proofs.Program.Provenance
import Rv32Stimulus.Proofs.Program.Reach
import Rv32Stimulus.Proofs.Program.Readback
import Rv32Stimulus.Proofs.Program.Reference
import Rv32Stimulus.Proofs.Program.Refusal
import Rv32Stimulus.Proofs.Program.Run
import Rv32Stimulus.Proofs.Program.Shape
import Rv32Stimulus.Proofs.Program.Words
import Rv32Stimulus.Proofs.Random.Bounds
import Rv32Stimulus.Proofs.Random.Coverage
import Rv32Stimulus.Proofs.Random.Fraction
import Rv32Stimulus.Proofs.Random.Lockstep
import Rv32Stimulus.Proofs.Random.Outcome
import Rv32Stimulus.Proofs.Random.PositivePick
import Rv32Stimulus.Proofs.Random.Weighted
import Rv32Stimulus.Proofs.Synthesis.Alignment
import Rv32Stimulus.Proofs.Synthesis.Choice
import Rv32Stimulus.Proofs.Synthesis.Draft
import Rv32Stimulus.Proofs.Synthesis.Operand
import Rv32Stimulus.Proofs.Synthesis.Stepping
import Rv32Stimulus.Proofs.Text.Lines
import Rv32Stimulus.Proofs.Text.Reading
import Rv32Stimulus.Proofs.Text.Utf8
import Rv32Stimulus.Random.Draw
import Rv32Stimulus.Random.Keystream
import Rv32Stimulus.Random.Source
import Rv32Stimulus.Synthesis.Draft
import Rv32Stimulus.Synthesis.Operand
import Rv32Stimulus.Synthesis.WeightClass
import Rv32Stimulus.Text.Blank
import Rv32Stimulus.Text.Digits
import Rv32Stimulus.Text.Quoted
import Rv32Stimulus.Text.Unseen
