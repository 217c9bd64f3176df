/-
# Proofs.Control.Passes -- what naming and resolving do to a sequence

Naming and resolving each go over a whole sequence.  A pass looks at the target of an instruction, and at
its record and position, and writes one field that no pass looks at.  Hence what a pass
does is known position by position (`Instruction.Resolves`, `withLabel_eq`), a second run of a pass finds
everything in place (`resolve_resolve`, `map_withLabel_withLabel`), and the two may run in either order
(`map_withLabel_resolve`).

The table that naming leaves has one entry for each target, and no two entries share a name
(`namesTargets_labelTable`).

Displacements are integers here.  While positions stay below `2 ^ 60`, signed 64-bit arithmetic
computes the same, without overflow in any step (`exactIn64`).
-/
import Rv32Stimulus.Isa.Base
import Rv32Stimulus.Proofs.Control.Displacement
import Rv32Stimulus.Proofs.Control.Label

namespace Rv32Stimulus

set_option autoImplicit false

theorem zipIdx_mapIdx {α β : Type} (items : List α) (change : Nat → α → β) :
    (items.mapIdx change).zipIdx = items.zipIdx.map fun (item, index) => (change index item, index) := by
  apply List.ext_getElem?
  intro index
  simp only [List.getElem?_zipIdx, List.getElem?_mapIdx, List.getElem?_map, Option.map_map]
  simp [Function.comp_def]

/-! ## Displacements in 64 bits -/

theorem displacement_eq (position target : Nat) :
    displacement position target = 4 * ((target : Int) - position) := rfl

/-- Each step from two positions to a displacement is exact in signed 64-bit arithmetic. -/
structure ExactIn64 (position target : Nat) : Prop where
  here : (Int64.ofNat position).toInt = position
  there : (Int64.ofNat target).toInt = target
  difference : (Int64.ofNat target - Int64.ofNat position).toInt = (target : Int) - position
  product : ((Int64.ofNat target - Int64.ofNat position) * 4).toInt = displacement position target

theorem exactIn64 {position target : Nat} (here : position < 2 ^ 60) (there : target < 2 ^ 60) :
    ExactIn64 position target := by
  have small (value : Nat) (bound : value < 2 ^ 60) : (Int64.ofNat value).toInt = value :=
    Int64.toInt_ofNat_of_lt (by omega)
  have difference : (Int64.ofNat target - Int64.ofNat position).toInt = (target : Int) - position := by
    rw [Int64.toInt_sub, small target there, small position here]
    exact Int.bmod_eq_of_le (by omega) (by omega)
  refine ⟨small position here, small target there, difference, ?_⟩
  have four : (4 : Int64).toInt = 4 := rfl
  rw [Int64.toInt_mul, difference, four, displacement_eq, Int.mul_comm]
  exact Int.bmod_eq_of_le (by omega) (by omega)

/-- What a format with an immediate admits is a 32-bit number. -/
theorem Format.toInt_ofInt_of_admits {format : Format} {value : Int}
    (ranged : format.immediateRange?.isSome) (admitted : format.admits value = true) :
    (Int32.ofInt value).toInt = value := by
  have bounds : -0x100000 ≤ value ∧ value < 0x100000 := by
    cases format with
    | r | unsupported => cases ranged
    | i | s | u | b | j =>
        simp only [admits, reach?, immediateRange?, Bool.and_eq_true, decide_eq_true_eq] at admitted
        omega
  exact Int32.toInt_ofInt_of_le (by omega) (by omega)

namespace Instruction

variable {inst resolved : Instruction} {position : Nat}

/-! ## One instruction -/

/-- What resolution makes of the instruction at `position`: its displacement goes into the immediate, cut to
32 bits only where the format sets no range; `4` stands in for one that the format does not
admit. -/
structure Resolves (inst : Instruction) (position : Nat) (resolved : Instruction) : Prop where
  frame : resolved = { inst with imm := resolved.imm }
  aimless : inst.target = none → resolved.imm = inst.imm
  exact : ∀ target, inst.target = some target →
    inst.record.format.admits (4 * ((target : Int) - position)) = true →
    inst.record.format.immediateRange?.isSome →
    ∃ value, resolved.imm = some value ∧ value.toInt = 4 * ((target : Int) - position)
  cut : ∀ target, inst.target = some target →
    inst.record.format.admits (4 * ((target : Int) - position)) = true →
    inst.record.format.immediateRange? = none →
    ∃ value, resolved.imm = some value ∧
      value.toInt = (4 * ((target : Int) - position)).bmod (2 ^ 32)
  substitute : ∀ target, inst.target = some target →
    inst.record.format.admits (4 * ((target : Int) - position)) = false → resolved.imm = some 4

theorem resolvedAt_of_target {target : Nat} (aimed : inst.target = some target) :
    inst.resolvedAt position =
      { inst with imm := some (.ofInt (inst.record.format.offset position target)) } := by
  unfold resolvedAt Format.offset
  rw [aimed]

theorem resolvedAt_of_aimless (aimless : inst.target = none) : inst.resolvedAt position = inst := by
  unfold resolvedAt
  rw [aimless]

theorem resolvedAt_frame (inst : Instruction) (position : Nat) :
    inst.resolvedAt position = { inst with imm := (inst.resolvedAt position).imm } := by
  obtain ⟨record, rd, rs1, rs2, imm, shamt, target, label, word, text⟩ := inst
  cases target <;> rfl

@[simp] theorem resolvedAt_target (inst : Instruction) (position : Nat) :
    (inst.resolvedAt position).target = inst.target := by
  rw [resolvedAt_frame]

@[simp] theorem resolvedAt_record (inst : Instruction) (position : Nat) :
    (inst.resolvedAt position).record = inst.record := by
  rw [resolvedAt_frame]

theorem resolves_resolvedAt (inst : Instruction) (position : Nat) :
    inst.Resolves position (inst.resolvedAt position) where
  frame := inst.resolvedAt_frame position
  aimless aimless := by rw [resolvedAt_of_aimless aimless]
  exact target aimed admitted ranged := by
    refine ⟨_, by rw [resolvedAt_of_target aimed], ?_⟩
    rw [Format.offset, displacement_eq, if_pos admitted]
    exact Format.toInt_ofInt_of_admits ranged admitted
  cut target aimed admitted _ := by
    refine ⟨_, by rw [resolvedAt_of_target aimed], ?_⟩
    rw [Format.offset, displacement_eq, if_pos admitted]
    exact Int32.toInt_ofInt
  substitute target aimed refused := by
    rw [resolvedAt_of_target aimed, Format.offset, displacement_eq, if_neg (by simp [refused])]
    rfl

theorem resolvedAt_resolvedAt (inst : Instruction) (position : Nat) :
    (inst.resolvedAt position).resolvedAt position = inst.resolvedAt position := by
  cases aimed : inst.target with
  | none => rw [resolvedAt_of_aimless aimed, resolvedAt_of_aimless aimed]
  | some target =>
      rw [resolvedAt_of_target (by simpa using aimed), resolvedAt_of_target aimed]

theorem isOutOfReach_resolvedAt (inst : Instruction) (position : Nat) :
    (inst.resolvedAt position).isOutOfReach position = inst.isOutOfReach position := by
  simp [isOutOfReach]

theorem withLabel_eq (inst : Instruction) :
    inst.withLabel = { inst with label := (inst.target.map labelName).or inst.label } := by
  obtain ⟨record, rd, rs1, rs2, imm, shamt, target, label, word, text⟩ := inst
  cases target <;> rfl

theorem withLabel_withLabel (inst : Instruction) : inst.withLabel.withLabel = inst.withLabel := by
  obtain ⟨record, rd, rs1, rs2, imm, shamt, target, label, word, text⟩ := inst
  cases target <;> rfl

theorem withLabel_resolvedAt (inst : Instruction) (position : Nat) :
    (inst.resolvedAt position).withLabel = inst.withLabel.resolvedAt position := by
  cases aimed : inst.target with
  | none =>
      have unaimed : inst.withLabel.target = none := by rw [withLabel_target, aimed]
      rw [resolvedAt_of_aimless aimed, resolvedAt_of_aimless unaimed]
  | some target =>
      have stillAimed : inst.withLabel.target = some target := by rw [withLabel_target, aimed]
      rw [resolvedAt_of_target aimed, resolvedAt_of_target stillAimed, withLabel_eq, withLabel_eq]

end Instruction

/-! ## Sequences -/

variable (sequence : List Instruction)

theorem resolve_resolve : resolve (resolve sequence) = resolve sequence := by
  unfold resolve
  rw [List.mapIdx_mapIdx]
  simp only [Function.comp_def, Instruction.resolvedAt_resolvedAt]

theorem outOfReach_resolve : outOfReach (resolve sequence) = outOfReach sequence := by
  unfold outOfReach resolve
  rw [zipIdx_mapIdx, List.countP_map]
  simp only [Function.comp_def, Instruction.isOutOfReach_resolvedAt]

theorem map_withLabel_withLabel :
    (sequence.map Instruction.withLabel).map Instruction.withLabel =
      sequence.map Instruction.withLabel := by
  simp only [List.map_map, Function.comp_def, Instruction.withLabel_withLabel]

theorem map_withLabel_resolve :
    (resolve sequence).map Instruction.withLabel =
      resolve (sequence.map Instruction.withLabel) := by
  apply List.ext_getElem?
  intro position
  simp only [resolve, List.getElem?_map, List.getElem?_mapIdx, Option.map_map, Function.comp_def,
    Instruction.withLabel_resolvedAt]

/-- Names do not bring a target into reach. -/
theorem outOfReach_withLabel :
    outOfReach (sequence.map Instruction.withLabel) = outOfReach sequence := by
  rw [outOfReach, outOfReach, List.zipIdx_map, List.countP_map]
  apply List.countP_congr
  rintro ⟨inst, position⟩ _
  simp [Instruction.isOutOfReach, Instruction.withLabel_target, Instruction.withLabel_record]

theorem labelTable_withLabel : labelTable (sequence.map Instruction.withLabel) = labelTable sequence := by
  simp only [labelTable, List.filterMap_map, Function.comp_def, Instruction.withLabel_target]

theorem labelTable_resolve : labelTable (resolve sequence) = labelTable sequence := by
  have targets : (resolve sequence).map (·.target) = sequence.map (·.target) := by
    apply List.ext_getElem?
    intro position
    simp [resolve, Function.comp_def]
  have found (part : List Instruction) : part.filterMap (·.target) =
      (part.map (·.target)).filterMap id := by
    rw [List.filterMap_map]
    rfl
  rw [labelTable, labelTable, found, targets, ← found]

/-! ## Names -/

/-- The table names the targets of the sequence and nothing else, each by a name of its own. -/
structure NamesTargets (labels : LabelTable) : Prop where
  keys : ∀ position, position ∈ labels.keys ↔ ∃ inst ∈ sequence, inst.target = some position
  once : labels.keys.Nodup
  name : ∀ position name, (position, name) ∈ labels.entries → name = "L" ++ toString position
  apart : labels.values.Nodup

theorem namesTargets_labelTable : NamesTargets sequence (labelTable sequence) := by
  have entry (position : Nat) (name : String) :
      (position, name) ∈ (labelTable sequence).entries ↔
        (∃ inst ∈ sequence, inst.target = some position) ∧ name = labelName position := by
    rw [Table.mem_entries_iff, find?_labelTable]
    split <;> simp_all [eq_comm]
  have named (position : Nat) (name : String)
      (member : (position, name) ∈ (labelTable sequence).entries) : name = labelName position :=
    ((entry position name).1 member).2
  refine ⟨?_, (labelTable sequence).nodup_keys, named, ?_⟩
  · intro position
    simp only [Table.keys, List.mem_map, Prod.exists, entry]
    simp
  · have values : (labelTable sequence).values = (labelTable sequence).keys.map labelName := by
      rw [Table.values, Table.keys, List.map_map]
      exact List.map_congr_left fun entry member => named entry.1 entry.2 member
    rw [values]
    exact (labelTable sequence).nodup_keys.map fun _ _ => labelName_injective

/-! ## Both passes -/

/-- Resolving stores the exact displacement where the format admits it and counts the rest, naming gives every
target one name of its own, and both leave all else alone; a pass run again changes nothing, and
the passes may change places. -/
theorem naming_and_resolving_exact (short : sequence.length < 2 ^ 60)
    (near : ∀ inst ∈ sequence, ∀ target, inst.target = some target → target < 2 ^ 60) :
    ((resolve sequence).length = sequence.length ∧
      (∀ position inst, sequence[position]? = some inst →
        (∀ target, inst.target = some target → ExactIn64 position target) ∧
          ∃ resolved, (resolve sequence)[position]? = some resolved ∧ inst.Resolves position resolved) ∧
      outOfReach sequence = (sequence.zipIdx.filter fun (inst, position) =>
        inst.target.any fun target : Nat =>
          !inst.record.format.admits (4 * ((target : Int) - position))).length) ∧
    ((∀ inst ∈ sequence, inst.withLabel =
        { inst with label := (inst.target.map fun target => "L" ++ toString target).or inst.label }) ∧
      NamesTargets sequence (labelTable sequence)) ∧
    (resolve (resolve sequence) = resolve sequence ∧
      outOfReach (resolve sequence) = outOfReach sequence ∧
      (sequence.map Instruction.withLabel).map Instruction.withLabel =
        sequence.map Instruction.withLabel ∧
      labelTable (sequence.map Instruction.withLabel) = labelTable sequence) ∧
    (resolve (sequence.map Instruction.withLabel) = (resolve sequence).map Instruction.withLabel ∧
      outOfReach (sequence.map Instruction.withLabel) = outOfReach sequence ∧
      labelTable (resolve sequence) = labelTable sequence) := by
  refine ⟨⟨List.length_mapIdx, ?_, ?_⟩, ⟨?_, namesTargets_labelTable sequence⟩, ?_, ?_⟩
  · intro position inst found
    constructor
    · intro target aimed
      have before := (List.getElem?_eq_some_iff.1 found).1
      exact exactIn64 (by omega) (near inst (List.mem_of_getElem? found) target aimed)
    · refine ⟨inst.resolvedAt position, ?_, inst.resolves_resolvedAt position⟩
      rw [resolve, List.getElem?_mapIdx, found]
      rfl
  · rw [outOfReach, List.countP_eq_length_filter]
    refine congrArg List.length (List.filter_congr ?_)
    rintro ⟨inst, position⟩ _
    dsimp only [Instruction.isOutOfReach]
    cases inst.target <;> rfl
  · intro inst _
    exact inst.withLabel_eq
  · exact ⟨resolve_resolve sequence, outOfReach_resolve sequence, map_withLabel_withLabel sequence,
      labelTable_withLabel sequence⟩
  · exact ⟨(map_withLabel_resolve sequence).symm, outOfReach_withLabel sequence,
      labelTable_resolve sequence⟩

/-- A branch out of reach, a jump back, and an instruction without a target. -/
def mixedTargets : List Instruction :=
  [ { record := { mnemonic := "BEQ", format := .b, category := .branch, opcode := 0x63
                  pattern := [.rs1, .rs2, .label] }
      target := some 5000 },
    { record := { mnemonic := "JAL", format := .j, category := .jump, opcode := 0x6f
                  pattern := [.rd, .label] }
      target := some 0, label := some "L9" },
    .nop ]

theorem naming_and_resolving_exact_mixed :
    (∃ resolved, (resolve mixedTargets)[0]? = some resolved ∧ resolved.imm = some 4) ∧
      (∃ resolved value, (resolve mixedTargets)[1]? = some resolved ∧ resolved.imm = some value ∧
        value.toInt = -4) ∧
      labelTable (resolve mixedTargets) = labelTable mixedTargets := by
  have near : ∀ inst ∈ mixedTargets, ∀ target, inst.target = some target → target < 2 ^ 60 := by
    simp [mixedTargets, Instruction.nop]
  obtain ⟨⟨-, exact_, -⟩, -, -, -, -, names⟩ :=
    naming_and_resolving_exact mixedTargets (by decide) near
  obtain ⟨-, far, farFound, farResolves⟩ := exact_ 0 _ rfl
  obtain ⟨-, back, backFound, backResolves⟩ := exact_ 1 _ rfl
  obtain ⟨value, stored, isBack⟩ := backResolves.exact 0 rfl (by decide) rfl
  exact ⟨⟨far, farFound, farResolves.substitute 5000 rfl (by decide)⟩,
    ⟨back, value, backFound, stored, isBack⟩, names⟩

end Rv32Stimulus
