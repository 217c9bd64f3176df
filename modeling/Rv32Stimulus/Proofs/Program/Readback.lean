/-
# Proofs.Program.Readback -- listings say what they were made from

Whatever the texts of the instructions and the names of the positions are, a listing can be taken
apart again.  Its label lines are the named positions of the sequence in their order
(`filter_isLabelLine_assembly`), each stands directly before the instruction of its
position, and what is left without them are the instructions, one line for each.

So all three listings give back the words that they were made from, and give back the same ones:
`wordsOfAssembly?`, `wordsOfHex?` and `wordsOfBinary?` read them.  `listing_reads_back` puts
everything together.
-/
import Mathlib.Data.List.Induction
import Rv32Stimulus.Proofs.Ordered.Table
import Rv32Stimulus.Proofs.Program.InstructionLines

namespace Rv32Stimulus.Listing

set_option autoImplicit false

variable {labels : LabelTable} {sequence : List Instruction}

/-! ## Readers of listings -/

/-- The words of the instruction lines, which are the lines that name no position. -/
def wordsOfAssembly? (lines : List String) : Option (List Nat) :=
  (lines.filter (!isLabelLine ·)).mapM Text.commentValue?

def wordsOfHex? (lines : List String) : Option (List Nat) :=
  lines.mapM fun line => Text.value? 16 line.toList

def wordsOfBinary? (lines : List String) : Option (List Nat) :=
  lines.mapM fun line => Text.value? 2 line.toList

/-- Lines that each say a word are read back one by one. -/
theorem mapM_map_eq_some (read : String → Option Nat) (write : Instruction → String)
    (back : ∀ inst, read (write inst) = some inst.word.toNat) (sequence : List Instruction) :
    (sequence.map write).mapM read = some (sequence.map (·.word.toNat)) := by
  induction sequence with
  | nil => rfl
  | cons inst rest ih => simp [back, ih]

theorem wordsOfAssembly?_assembly (labels : LabelTable) (sequence : List Instruction) :
    wordsOfAssembly? (assembly sequence labels) = some (sequence.map (·.word.toNat)) := by
  rw [wordsOfAssembly?, filter_assembly]
  exact mapM_map_eq_some _ _ commentValue?_instructionLine sequence

theorem wordsOfHex?_hex (sequence : List Instruction) :
    wordsOfHex? (hex sequence) = some (sequence.map (·.word.toNat)) :=
  mapM_map_eq_some (fun line => Text.value? 16 line.toList) (fun inst => Text.hexWord inst.word)
    (fun inst => Text.value?_hexWord inst.word) sequence

theorem wordsOfBinary?_binary (sequence : List Instruction) :
    wordsOfBinary? (binary sequence) = some (sequence.map (·.word.toNat)) :=
  mapM_map_eq_some (fun line => Text.value? 2 line.toList) (fun inst => Text.binaryWord inst.word)
    (fun inst => Text.value?_binaryWord inst.word) sequence

example : wordsOfHex? ["00000013", "ffdff06f"] = some [0x13, 0xffdff06f] := by decide +kernel

/-! ## Label lines -/

theorem filter_isLabelLine_linesAt (inst : Instruction) (position : Nat) :
    (linesAt labels inst position).filter isLabelLine =
      ((labels.find? position).map labelLine).toList := by
  unfold linesAt
  cases labels.find? position <;> simp [isLabelLine_labelLine, isLabelLine_instructionLine]

theorem assembly_concat (labels : LabelTable) (sequence : List Instruction) (inst : Instruction) :
    assembly (sequence ++ [inst]) labels =
      assembly sequence labels ++ linesAt labels inst sequence.length := by
  simp [assembly, List.zipIdx_append]

/-- The label lines of a listing belong to the named positions inside the sequence. -/
theorem filter_isLabelLine_assembly (labels : LabelTable) (sequence : List Instruction) :
    (assembly sequence labels).filter isLabelLine =
      (labels.entries.filter (·.1 < sequence.length)).map fun entry => labelLine entry.2 := by
  induction sequence using List.reverseRecOn with
  | nil => simp [assembly]
  | append_singleton sequence inst ih =>
      rw [assembly_concat, List.filter_append, ih, filter_isLabelLine_linesAt,
        List.length_append, List.length_singleton, Table.filter_lt_succ, List.map_append]
      cases labels.find? sequence.length <;> rfl

theorem length_assembly (labels : LabelTable) (sequence : List Instruction) :
    (assembly sequence labels).length =
      sequence.length + (labels.keys.filter (· < sequence.length)).length := by
  have kinds := List.length_eq_length_filter_add (l := assembly sequence labels) isLabelLine
  have keys : (labels.keys.filter (· < sequence.length)).length =
      (labels.entries.filter (·.1 < sequence.length)).length := by
    rw [Table.keys, List.filter_map, List.length_map]
    rfl
  rw [kinds, filter_isLabelLine_assembly, filter_assembly, List.length_map, List.length_map, keys]
  omega

/-- The line of a named position stands directly before its instruction, after the lines of all
instructions that come first. -/
theorem exists_assembly_eq {position : Nat} {inst : Instruction} {name : String}
    (found : sequence[position]? = some inst) (named : labels.find? position = some name) :
    ∃ before after,
      assembly sequence labels = before ++ labelLine name :: instructionLine inst :: after ∧
        before.filter (!isLabelLine ·) = (sequence.take position).map instructionLine := by
  refine ⟨assembly (sequence.take position) labels,
    linesFrom labels (position + 1) (sequence.drop (position + 1)), ?_, filter_assembly labels _⟩
  rw [assembly_eq_append labels found, linesAt, named]
  simp

/-! ## Instruction lines -/

/-- The line of an instruction begins with its text and ends with its word. -/
theorem exists_instructionLine_eq (inst : Instruction) :
    ∃ gap digits, instructionLine inst =
        "    " ++ inst.text ++ String.ofList (List.replicate gap ' ') ++ "# 0x" ++ String.ofList digits ∧
      digits.length = 8 ∧ (∀ digit ∈ digits, digit ∈ "0123456789abcdef".toList) ∧
      Text.value? 16 digits = some inst.word.toNat := by
  refine ⟨textColumn - inst.text.length + 2, Text.lastDigits 16 8 inst.word.toNat, ?_,
    Text.length_lastDigits 16 8 _, ?_, ?_⟩
  · apply String.toList_injective
    simp [instructionLine, padded, Text.hexWord, List.replicate_add]
  · exact fun digit member => Text.mem_hexadecimal (by decide) (by decide) member
  · have read := Text.value?_hexWord inst.word
    rwa [Text.hexWord, String.toList_ofList] at read

/-! ## Reading back -/

/-- A listing has a line for each instruction and one for each named position inside the sequence.
The lines that end in a colon name the positions, in their order and each directly before its
instruction; the others are the instructions, each with its text in front and its word
at the end.  The words can be read from any of the three listings. -/
theorem listing_reads_back (sequence : List Instruction) (labels : LabelTable) :
    (assembly sequence labels).length =
        sequence.length + (labels.keys.filter (· < sequence.length)).length ∧
      (assembly sequence labels).filter (·.toList.getLast? == some ':') =
        (labels.entries.filter (·.1 < sequence.length)).map (fun entry => entry.2 ++ ":") ∧
      (assembly sequence labels).filter (!·.toList.getLast? == some ':') =
        sequence.map instructionLine ∧
      (∀ inst ∈ sequence, ∃ gap digits, instructionLine inst =
          "    " ++ inst.text ++ String.ofList (List.replicate gap ' ') ++ "# 0x" ++
            String.ofList digits ∧
        digits.length = 8 ∧ (∀ digit ∈ digits, digit ∈ "0123456789abcdef".toList) ∧
        Text.value? 16 digits = some inst.word.toNat) ∧
      (∀ position inst name, sequence[position]? = some inst →
        labels.find? position = some name → ∃ before after,
          assembly sequence labels = before ++ (name ++ ":") :: instructionLine inst :: after ∧
            before.filter (!·.toList.getLast? == some ':') =
              (sequence.take position).map instructionLine) ∧
      wordsOfAssembly? (assembly sequence labels) = some (sequence.map (·.word.toNat)) ∧
      wordsOfHex? (hex sequence) = some (sequence.map (·.word.toNat)) ∧
      wordsOfBinary? (binary sequence) = some (sequence.map (·.word.toNat)) := by
  refine ⟨length_assembly labels sequence, filter_isLabelLine_assembly labels sequence,
    filter_assembly labels sequence, ?_, ?_, ?_, ?_, ?_⟩
  · intro inst _
    exact exists_instructionLine_eq inst
  · intro position inst name found named
    exact exists_assembly_eq found named
  · exact wordsOfAssembly?_assembly labels sequence
  · exact wordsOfHex?_hex sequence
  · exact wordsOfBinary?_binary sequence

end Rv32Stimulus.Listing
