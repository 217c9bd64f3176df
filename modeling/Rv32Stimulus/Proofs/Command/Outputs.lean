/-
# Proofs.Command.Outputs -- the four files of a program agree

The source, the two lists of words and the manifest are written by different rules, but they say the
same: how many instructions there are, which word each of them is, and which seed they came
from (`Program.Recorded.textsAgree`).  They are read back for that, line by line, and the words
from digits in base sixteen, in base two, and from a comment.
-/
import Rv32Stimulus.Command.Outputs
import Rv32Stimulus.Proofs.Json.Pretty
import Rv32Stimulus.Proofs.Program.InstructionLines

namespace Rv32Stimulus

set_option autoImplicit false

open Text (OneLine)

namespace Program

/-! ## What the files take for granted -/

/-- A program of a seed and a length whose texts are of one line each. -/
structure Recorded (seed : UInt64) (length : Nat) (program : Program) : Prop where
  size : program.instructions.length = length
  encodes : ∀ inst ∈ program.instructions, inst.encode = .ok inst.word
  texts : ∀ inst ∈ program.instructions, OneLine inst.text
  proper : Listing.Proper program.labels
  seed : program.manifest.seed = seed
  length : program.manifest.length = length

theorem Recorded.withTimestamp {seed : UInt64} {length : Nat} {program : Program}
    (recorded : program.Recorded seed length) (time : String) :
    (program.withTimestamp time).Recorded seed length :=
  ⟨recorded.size, recorded.encodes, recorded.texts, recorded.proper, recorded.seed, recorded.length⟩

/-- The texts of the files of a program agree on every word, and on how the program was made. -/
structure TextsAgree (program : Program) (source hex binary manifest : String) : Prop where
  hex_count : (Text.lines hex).length = program.instructions.length
  binary_count : (Text.lines binary).length = program.instructions.length
  source_count : (Listing.instructionLines source).length = program.instructions.length
  hex_digits : ∀ line ∈ Text.lines hex, line.length = 8 ∧
    ∀ char ∈ line.toList, char ∈ "0123456789abcdef".toList
  binary_digits : ∀ line ∈ Text.lines binary, line.length = 32 ∧
    ∀ char ∈ line.toList, char = '0' ∨ char = '1'
  words : ∀ (index : Nat) (inst : Instruction), program.instructions[index]? = some inst →
    ∃ word : Word, inst.encode = .ok word ∧
      (Text.lines hex)[index]?.bind (fun line => Text.value? 16 line.toList) = some word.toNat ∧
      (Text.lines binary)[index]?.bind (fun line => Text.value? 2 line.toList) = some word.toNat ∧
      (Listing.instructionLines source)[index]?.bind Text.commentValue? = some word.toNat
  seed : (Text.lines source)[2]? = some ("# Seed: " ++ toString program.manifest.seed.toNat) ∧
    (Text.lines manifest)[4]? =
      some ("  \"seed\": " ++ toString program.manifest.seed.toNat ++ ",")
  length : (Text.lines source)[3]? =
      some ("# Instructions: " ++ toString program.instructions.length) ∧
    (Text.lines manifest)[5]? =
      some ("  \"length\": " ++ toString program.instructions.length ++ ",")

/-! ## The lists of words -/

theorem lines_hex (program : Program) : Text.lines (linesText program.hex) = program.hex := by
  refine Text.lines_linesText ?_
  intro line member
  obtain ⟨inst, -, rfl⟩ := List.mem_map.1 member
  exact Text.oneLine_hexWord inst.word

theorem lines_binary (program : Program) : Text.lines (linesText program.binary) = program.binary := by
  refine Text.lines_linesText ?_
  intro line member
  obtain ⟨inst, -, rfl⟩ := List.mem_map.1 member
  exact Text.oneLine_binaryWord inst.word

/-! ## The source -/

variable {program : Program}

/-- What stands before the listing. -/
def header (program : Program) : List String := program.sourceLines.take 8

def footer : List String := ["", "# End of test"]

theorem sourceLines_eq (program : Program) :
    program.sourceLines = program.header ++ program.assembly ++ footer := rfl

theorem sourceLines_seed (program : Program) : program.sourceLines[2]? =
    some ("# Seed: " ++ toString program.manifest.seed.toNat) := by
  simp [sourceLines]

theorem sourceLines_length (program : Program) : program.sourceLines[3]? =
    some ("# Instructions: " ++ toString program.manifest.length) := by
  simp [sourceLines]

/-- A line around the listing: one line, and no instruction. -/
def IsFrame (line : String) : Prop := OneLine line ∧ Listing.isInstructionLine line = false

theorem isFrame_append {front rest : String} {first : Char} {others : List Char}
    (starts : front.toList = first :: others) (ink : first ≠ ' ') (head : OneLine front)
    (tail : OneLine rest) : IsFrame (front ++ rest) := by
  have characters : (front ++ rest).toList = first :: (others ++ rest.toList) := by
    rw [String.toList_append, starts]
    rfl
  exact ⟨head.append tail, Listing.isInstructionLine_eq_false characters ink⟩

theorem isFrame_literal : ∀ line ∈ ["# Auto-generated RISC-V RV32I test", "", ".text",
    ".globl _start", "_start:", "# End of test"], IsFrame line := by
  unfold IsFrame Listing.isInstructionLine
  decide +kernel

theorem isFrame_of_mem_header (clock : OneLine (program.manifest.timestamp.getD "unknown")) :
    ∀ line ∈ program.header, IsFrame line := by
  have generated : IsFrame ("# Generated: " ++ program.manifest.timestamp.getD "unknown") :=
    isFrame_append rfl (by decide) (by decide) clock
  have seed : IsFrame ("# Seed: " ++ toString program.manifest.seed.toNat) :=
    isFrame_append rfl (by decide) (by decide) (Text.oneLine_nat _)
  have count : IsFrame ("# Instructions: " ++ toString program.manifest.length) :=
    isFrame_append rfl (by decide) (by decide) (Text.oneLine_nat _)
  intro line member
  simp only [header, sourceLines, List.cons_append, List.take_succ_cons, List.take_zero,
    List.mem_cons, List.not_mem_nil, or_false] at member
  rcases member with rfl | rfl | rfl | rfl | rfl | rfl | rfl | rfl
  · exact isFrame_literal _ (by decide)
  · exact generated
  · exact seed
  · exact count
  all_goals exact isFrame_literal _ (by decide)

theorem isFrame_of_mem_footer : ∀ line ∈ footer, IsFrame line := by
  intro line member
  simp only [footer, List.mem_cons, List.not_mem_nil, or_false] at member
  rcases member with rfl | rfl
  all_goals exact isFrame_literal _ (by decide)

theorem lines_source (proper : Listing.Proper program.labels)
    (texts : ∀ inst ∈ program.instructions, OneLine inst.text)
    (clock : OneLine (program.manifest.timestamp.getD "unknown")) :
    Text.lines (linesText program.sourceLines) = program.sourceLines := by
  refine Text.lines_linesText ?_
  rw [sourceLines_eq, List.forall_mem_append, List.forall_mem_append]
  refine ⟨⟨?_, ?_⟩, ?_⟩
  · exact fun line member => (isFrame_of_mem_header clock line member).1
  · exact Listing.oneLine_assembly proper texts
  · exact fun line member => (isFrame_of_mem_footer line member).1

/-- The instruction lines of the source are those of the instructions, in their order. -/
theorem instructionLines_source (proper : Listing.Proper program.labels)
    (texts : ∀ inst ∈ program.instructions, OneLine inst.text)
    (clock : OneLine (program.manifest.timestamp.getD "unknown")) :
    Listing.instructionLines (linesText program.sourceLines) =
      program.instructions.map Listing.instructionLine := by
  have none {lines : List String} (frame : ∀ line ∈ lines, IsFrame line) :
      lines.filter Listing.isInstructionLine = [] :=
    List.filter_eq_nil_iff.2 fun line member => by simp [(frame line member).2]
  rw [Listing.instructionLines, lines_source proper texts clock, sourceLines_eq, List.filter_append,
    List.filter_append, none (isFrame_of_mem_header clock), none isFrame_of_mem_footer,
    List.nil_append, List.append_nil]
  exact Listing.filter_isInstructionLine_assembly proper

end Program

/-! ## The manifest -/

namespace Manifest

variable {manifest : Manifest} {time : String}

/-- The members of a manifest before its weights. -/
def opening (manifest : Manifest) (time : String) : List (String × Json) :=
  [ ("generator", Json.text manifest.generator), ("version", Json.text manifest.version),
    ("timestamp", Json.text time), ("seed", Json.int manifest.seed.toNat),
    ("length", Json.int manifest.length) ]

theorem toJson_eq (stamped : manifest.timestamp = some time) :
    ∃ rest, manifest.toJson =
      Json.fields (manifest.opening time ++ ("weights", manifest.weights.toJson) :: rest) := by
  rw [toJson, stamped]
  exact ⟨_, rfl⟩

/-- Once its time is known, the seed and the length of a manifest stand on lines of their own. -/
theorem lines_text (stamped : manifest.timestamp = some time) :
    (Text.lines manifest.text)[4]? =
        some ("  \"seed\": " ++ toString manifest.seed.toNat ++ ",") ∧
      (Text.lines manifest.text)[5]? =
        some ("  \"length\": " ++ toString manifest.length ++ ",") := by
  obtain ⟨rest, document⟩ := toJson_eq stamped
  have one : ∀ member ∈ manifest.opening time, '\n' ∉ Json.prettyChars 1 member.2 := by
    simp [opening, Json.lineFeed_notMem_text, Json.lineFeed_notMem_nat]
  obtain ⟨others, lines⟩ := Json.exists_lines_pretty ("weights", manifest.weights.toJson) rest one
  rw [text, document, lines]
  constructor
  · exact congrArg some (Json.memberChars_nat "seed" manifest.seed.toNat)
  · exact congrArg some (Json.memberChars_nat "length" manifest.length)

end Manifest

/-! ## All four -/

namespace Program

variable {program : Program}

theorem digit_binary : ∀ value < 2, Text.digit value = '0' ∨ Text.digit value = '1' := by decide

theorem Recorded.textsAgree {seed : UInt64} {length : Nat} (recorded : program.Recorded seed length)
    {time : String} (stamped : program.manifest.timestamp = some time) (clock : OneLine time) :
    program.TextsAgree (linesText program.sourceLines) (linesText program.hex)
      (linesText program.binary) program.manifest.text := by
  have unknown : OneLine (program.manifest.timestamp.getD "unknown") := by rwa [stamped]
  have source := lines_source recorded.proper recorded.texts unknown
  have listed := instructionLines_source recorded.proper recorded.texts unknown
  have counted : program.manifest.length = program.instructions.length :=
    recorded.length.trans recorded.size.symm
  obtain ⟨seedLine, lengthLine⟩ := Manifest.lines_text stamped
  constructor
  case hex_count => rw [lines_hex, hex, Listing.hex, List.length_map]
  case binary_count => rw [lines_binary, binary, Listing.binary, List.length_map]
  case source_count => rw [listed, List.length_map]
  case hex_digits =>
    intro line member
    rw [lines_hex] at member
    obtain ⟨inst, -, rfl⟩ := List.mem_map.1 member
    rw [Text.hexWord, String.length_ofList, Text.length_lastDigits, String.toList_ofList]
    refine ⟨rfl, ?_⟩
    exact fun char digit => Text.mem_hexadecimal (by decide) (by decide) digit
  case binary_digits =>
    intro line member
    rw [lines_binary] at member
    obtain ⟨inst, -, rfl⟩ := List.mem_map.1 member
    rw [Text.binaryWord, String.length_ofList, Text.length_lastDigits, String.toList_ofList]
    refine ⟨rfl, ?_⟩
    intro char digit
    obtain ⟨below, small, rfl⟩ := Text.mem_lastDigits (by decide) digit
    exact digit_binary below small
  case words =>
    intro index inst found
    refine ⟨inst.word, recorded.encodes inst (List.mem_of_getElem? found), ?_, ?_, ?_⟩
    · rw [lines_hex, hex, Listing.hex, List.getElem?_map, found, Option.map_some, Option.bind_some,
        Text.value?_hexWord]
    · rw [lines_binary, binary, Listing.binary, List.getElem?_map, found, Option.map_some,
        Option.bind_some, Text.value?_binaryWord]
    · rw [listed, List.getElem?_map, found, Option.map_some, Option.bind_some,
        Listing.commentValue?_instructionLine]
  case seed =>
    rw [source, sourceLines_seed]
    exact ⟨rfl, seedLine⟩
  case length =>
    rw [source, sourceLines_length, ← counted]
    exact ⟨rfl, lengthLine⟩

end Program

/-! ## Generated programs -/

/-- The mnemonics of the catalog are of one line each. -/
def Catalog.OneLine (catalog : Catalog) : Prop :=
  ∀ record ∈ catalog.records, Text.OneLine record.mnemonic

theorem Generator.recorded {generator after : Generator} {program : Program} {length : Nat}
    (given : generator.generate length = .ok (.ok program, after))
    (mnemonics : generator.catalog.OneLine) : program.Recorded generator.seed length := by
  obtain ⟨run, source, drawn, assembled, -⟩ := generate_eq_ok_iff.1 given
  have sound := Run.ensures_sound _ _ _ drawn
  have assembles := assembles assembled
  have shaped (inst : Instruction) (member : inst ∈ program.instructions) :
      inst.Shaped length program.labels :=
    assembles.shaped sound (Run.ensures_unnamed _ _ _ drawn) member
  have mnemonic (inst : Instruction) (member : inst ∈ program.instructions) :
      Text.OneLine inst.record.mnemonic := by
    obtain ⟨position, found⟩ := List.getElem?_of_mem member
    obtain ⟨fresh, inRun, rfl⟩ := assembles.getElem? found
    rw [Instruction.completed_record]
    exact (sound.drawn position fresh inRun).offered.induction
      (fun record => Text.OneLine record.mnemonic) (by decide) mnemonics
  constructor
  case size => exact assembles.length_instructions sound
  case encodes => exact fun inst member => (shaped inst member).encodes
  case texts => exact fun inst member => (shaped inst member).oneLine_text (mnemonic inst member)
  case proper =>
    rw [assembles.labels]
    exact Listing.proper_labelTable run.sequence
  case seed =>
    rw [eq_program assembled]
    rfl
  case length =>
    rw [eq_program assembled]
    exact sound.count

end Rv32Stimulus
