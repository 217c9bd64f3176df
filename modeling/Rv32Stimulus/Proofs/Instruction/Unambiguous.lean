/-
# Proofs.Instruction.Unambiguous -- the text and the word of a base instruction say the same

Two instructions with the same record have the same word exactly if they have the same operands
(`Settled.pack_eq_iff`), and the same text exactly if they have the same operands
(`Placed.assembly_eq_iff`).  The record in turn is found in the word and in the text, but for `NOP`,
whose word is also that of `addi x0, x0, 0`.

So text and word of a base instruction say the same, and this is the one exception
(`Instruction.same_text_iff_same_word`).
-/
import Rv32Stimulus.Proofs.Control.Label
import Rv32Stimulus.Proofs.Instruction.Assembly
import Rv32Stimulus.Proofs.Instruction.Identity

namespace Rv32Stimulus

set_option autoImplicit false

namespace Instruction

/-! ## Operands -/

/-- Both have the same operand of the role. -/
def SameOperand (inst other : Instruction) : Role → Prop
  | .rd => inst.rd = other.rd
  | .rs1 => inst.rs1 = other.rs1
  | .rs2 => inst.rs2 = other.rs2
  | .imm | .imm20 | .label | .predSucc => inst.imm = other.imm
  | .shamt => inst.shamt = other.shamt
  | .memory => inst.imm = other.imm ∧ inst.rs1 = other.rs1
  | .unsupported => True

/-- Both have the same operand of every role. -/
def SameOperands (inst other : Instruction) : Prop :=
  ∀ role ∈ inst.record.pattern, inst.SameOperand other role

variable {inst other : Instruction}

/-- An operand that both have exactly if it is named is the same if it is the same where named. -/
theorem eq_of_named {α : Type} {value otherValue : Option α} {named : Prop}
    (here : value.isSome ↔ named) (there : otherValue.isSome ↔ named)
    (same : named → value = otherValue) : value = otherValue := by
  by_cases isNamed : named
  · exact same isNamed
  · rw [Option.not_isSome_iff_eq_none.1 (mt here.1 isNamed),
      Option.not_isSome_iff_eq_none.1 (mt there.1 isNamed)]

theorem pack_congr (record : inst.record = other.record) (rd : inst.rd = other.rd)
    (rs1 : inst.rs1 = other.rs1) (rs2 : inst.rs2 = other.rs2) (imm : inst.imm = other.imm)
    (shamt : inst.shamt = other.shamt) : inst.pack = other.pack := by
  unfold pack upperField systemImmediate? immField
  rw [record, rd, rs1, rs2, imm, shamt]

/-! ## Words -/

/-- What both show in the same fields is the same. -/
theorem Shows.sameOperand {fields : Fields} {role : Role} (shown : inst.Shows fields role)
    (otherShown : other.Shows fields role) : inst.SameOperand other role := by
  have register {left right : Option UInt8} {bits : Option Nat}
      (read : bits = left.map (·.toNat)) (otherRead : bits = right.map (·.toNat)) : left = right :=
    Option.map_injective (fun _ _ => UInt8.toNat_inj.1) (read.symm.trans otherRead)
  have immediate {left right : Option Int32} {value : Option Int}
      (read : value = left.map (·.toInt)) (otherRead : value = right.map (·.toInt)) : left = right :=
    Option.map_injective (fun _ _ => Int32.toInt_inj.1) (read.symm.trans otherRead)
  cases role with
  | rd => exact register shown.2 otherShown.2
  | rs1 => exact register shown.2 otherShown.2
  | rs2 => exact register shown.2 otherShown.2
  | shamt => exact register shown.2 otherShown.2
  | imm | imm20 | label | predSucc => exact immediate shown.2 otherShown.2
  | memory =>
      exact ⟨immediate shown.2.2 otherShown.2.2, register shown.1.2 otherShown.1.2⟩
  | unsupported => trivial

/-- Instructions with the same record have the same word exactly if they have the same operands. -/
theorem Settled.pack_eq_iff (settled : inst.Settled) (otherSettled : other.Settled)
    (known : inst.record ∈ Base.records) (record : inst.record = other.record) :
    inst.pack = other.pack ↔ inst.SameOperands other := by
  constructor
  · intro same role member
    have carried : inst.carried = other.carried := by
      rw [← fields_pack, ← fields_pack, same, record]
    have shown := settled.shows (Record.coherent_of_mem_base _ known)
      (Record.bareSystem_of_mem_base _ known) member
    have otherShown := otherSettled.shows (Record.coherent_of_mem_base _ (record ▸ known))
      (Record.bareSystem_of_mem_base _ (record ▸ known)) (record ▸ member)
    rw [carried] at shown
    exact shown.sameOperand otherShown
  · intro same
    refine pack_congr record ?_ ?_ ?_ ?_ ?_
    · exact eq_of_named settled.rd (record ▸ otherSettled.rd) (same .rd)
    · refine eq_of_named settled.rs1 (record ▸ otherSettled.rs1) ?_
      rintro (member | member)
      · exact same .rs1 member
      · exact (same .memory member).2
    · exact eq_of_named settled.rs2 (record ▸ otherSettled.rs2) (same .rs2)
    · refine eq_of_named settled.imm (record ▸ otherSettled.imm) ?_
      rintro ⟨role, member, takes⟩
      have shared := same role member
      cases role with
      | imm | imm20 | label | predSucc => exact shared
      | memory => exact shared.1
      | rd | rs1 | rs2 | shamt | unsupported => cases takes
    · exact eq_of_named settled.shamt (record ▸ otherSettled.shamt) (same .shamt)

/-! ## Texts -/

/-- An instruction of the base set at `position`: exactly the operands of its pattern are there, each
where its role allows, and a branch or jump has the name of a target and the displacement to it. -/
structure Placed (position : Nat) (inst : Instruction) : Prop where
  known : inst.record ∈ Base.records
  settled : inst.Settled
  named : .label ∈ inst.record.pattern → ∃ target value, inst.label = some (labelName target) ∧
    inst.imm = some value ∧ value.toInt = displacement position target

variable {position : Nat} {labels : LabelTable}

/-- Seen from one position, the name of the target and the displacement to it say the same. -/
theorem Placed.labelText_inj (placed : inst.Placed position) (otherPlaced : other.Placed position)
    (member : .label ∈ inst.record.pattern) (otherMember : .label ∈ other.record.pattern) :
    inst.labelText labels = other.labelText labels ↔ inst.imm = other.imm := by
  obtain ⟨target, value, label, present, reaches⟩ := placed.named member
  obtain ⟨otherTarget, otherValue, otherLabel, otherPresent, otherReaches⟩ :=
    otherPlaced.named otherMember
  rw [labelText_of_label label, labelText_of_label otherLabel, present, otherPresent]
  constructor
  · intro same
    obtain rfl := labelName_injective same
    exact congrArg some (Int32.toInt_inj.1 (reaches.trans otherReaches.symm))
  · intro same
    obtain rfl := Option.some.inj same
    rw [displacement_inj.1 (reaches.symm.trans otherReaches)]

/-- An operand is written alike exactly if it is the same. -/
theorem Placed.operandText_eq_iff (placed : inst.Placed position)
    (otherPlaced : other.Placed position) {role : Role} (member : role ∈ inst.record.pattern)
    (otherMember : role ∈ other.record.pattern) :
    inst.operandText labels role = other.operandText labels role ↔ inst.SameOperand other role := by
  have settled := placed.settled
  have otherSettled := otherPlaced.settled
  have here (takes : role.takesImmediate) : inst.imm.isSome := settled.imm.2 ⟨role, member, takes⟩
  have there (takes : role.takesImmediate) : other.imm.isSome :=
    otherSettled.imm.2 ⟨role, otherMember, takes⟩
  unfold operandText SameOperand
  cases role with
  | rd =>
      rw [Option.some.injEq]
      exact registerText_inj (settled.rd.2 member) (otherSettled.rd.2 otherMember)
  | rs1 =>
      rw [Option.some.injEq]
      exact registerText_inj (settled.rs1.2 (.inl member)) (otherSettled.rs1.2 (.inl otherMember))
  | rs2 =>
      rw [Option.some.injEq]
      exact registerText_inj (settled.rs2.2 member) (otherSettled.rs2.2 otherMember)
  | imm =>
      rw [Option.some.injEq]
      exact immText_inj (here rfl) (there rfl)
  | imm20 =>
      rw [Option.some.injEq, String.append_right_inj]
      exact upperText_inj (here rfl) (there rfl)
  | shamt =>
      rw [Option.some.injEq]
      exact shamtText_inj (settled.shamt.2 member) (otherSettled.shamt.2 otherMember)
  | label =>
      rw [Option.some.injEq]
      exact placed.labelText_inj otherPlaced member otherMember
  | memory =>
      rw [Option.some.injEq, memoryText_inj, immText_inj (here rfl) (there rfl),
        registerText_inj (settled.rs1.2 (.inr member)) (otherSettled.rs1.2 (.inr otherMember))]
  | predSucc =>
      obtain ⟨value, present⟩ := Option.isSome_iff_exists.1 (here rfl)
      obtain ⟨otherValue, otherPresent⟩ := Option.isSome_iff_exists.1 (there rfl)
      have full : value = fullFence := settled.allowed value present _ member rfl
      have otherFull : otherValue = fullFence :=
        otherSettled.allowed otherValue otherPresent _ otherMember rfl
      rw [present, otherPresent, full, otherFull]
      exact iff_of_true rfl rfl
  | unsupported => exact iff_of_true rfl trivial

/-- Whatever is written for an operand has no comma, but for the sets of a fence. -/
theorem Placed.comma_notMem (placed : inst.Placed position) {role : Role}
    (member : role ∈ inst.record.pattern) (noFence : role ≠ .predSucc) {text : String}
    (written : inst.operandText labels role = some text) : ',' ∉ text.toList := by
  have clear {part : String} (unbroken : Text.Unbroken part) : ',' ∉ part.toList :=
    fun comma => unbroken _ comma (by decide)
  unfold operandText at written
  cases role with
  | rd | rs1 | rs2 =>
      obtain rfl := Option.some.inj written
      exact clear (unbroken_registerText _)
  | imm =>
      obtain rfl := Option.some.inj written
      exact clear (Text.unbroken_int _)
  | imm20 =>
      obtain rfl := Option.some.inj written
      exact clear (Text.Unbroken.append (by decide) (Text.unbroken_hex _))
  | shamt =>
      obtain rfl := Option.some.inj written
      exact clear (Text.unbroken_nat _)
  | label =>
      obtain ⟨target, value, label, -, -⟩ := placed.named member
      obtain rfl := Option.some.inj written
      rw [labelText_of_label label]
      exact clear (Text.Unbroken.append (by decide) (Text.unbroken_nat _))
  | memory =>
      obtain rfl := Option.some.inj written
      have offset : ',' ∉ inst.immText.toList := clear (Text.unbroken_int _)
      have base : ',' ∉ (registerText inst.rs1).toList := clear (unbroken_registerText _)
      simp [String.toList_append, offset, base]
  | predSucc => exact absurd rfl noFence
  | unsupported => cases written

theorem Placed.isSome_operandText (placed : inst.Placed position) (labels : LabelTable) :
    ∀ role ∈ inst.record.pattern, (inst.operandText labels role).isSome := by
  intro role member
  apply Instruction.isSome_operandText
  rintro rfl
  exact absurd ((Record.coherent_of_mem_base _ placed.known).room _ member) nofun

theorem Placed.comma_notMem_operands (placed : inst.Placed position)
    (named : inst.record.mnemonic.toLower ∉ bareMnemonics) :
    ∀ text ∈ inst.record.pattern.filterMap (inst.operandText labels), ',' ∉ text.toList := by
  intro text isOperand
  obtain ⟨role, member, written⟩ := List.mem_filterMap.1 isOperand
  have noFence : role ≠ .predSucc :=
    mt (Record.bare_iff_predSucc _ placed.known role member).2 named
  exact placed.comma_notMem member noFence written

/-- The text gives the operands back, if it has any. -/
theorem Placed.assembly_eq_iff_operands (placed : inst.Placed position)
    (otherPlaced : other.Placed position) (record : inst.record = other.record)
    (named : inst.record.mnemonic.toLower ∉ bareMnemonics) (operands : inst.record.pattern ≠ []) :
    inst.assembly labels = other.assembly labels ↔
      inst.record.pattern.filterMap (inst.operandText labels) =
        other.record.pattern.filterMap (other.operandText labels) := by
  have length := List.filterMap_length_eq_length.2 (placed.isSome_operandText labels)
  have otherLength := List.filterMap_length_eq_length.2 (otherPlaced.isSome_operandText labels)
  have written : inst.record.pattern.filterMap (inst.operandText labels) ≠ [] := by
    rw [← List.length_pos_iff, length, List.length_pos_iff]
    exact operands
  have otherWritten : other.record.pattern.filterMap (other.operandText labels) ≠ [] := by
    rw [← List.length_pos_iff, otherLength, List.length_pos_iff]
    exact record ▸ operands
  rw [assembly_of_operands named written, assembly_of_operands (record ▸ named) otherWritten,
    ← record, String.append_right_inj]
  constructor
  · intro same
    refine Text.join_injective ?_ (placed.comma_notMem_operands named) ?_ same
    · rw [length, record, otherLength]
    · rw [record]
      exact otherPlaced.comma_notMem_operands (record ▸ named)
  · exact congrArg _

/-- Instructions with the same record have the same text exactly if they have the same operands. -/
theorem Placed.assembly_eq_iff (placed : inst.Placed position) (otherPlaced : other.Placed position)
    (record : inst.record = other.record) :
    inst.assembly labels = other.assembly labels ↔ inst.SameOperands other := by
  have operand {role : Role} (member : role ∈ inst.record.pattern) :
      inst.operandText labels role = other.operandText labels role ↔ inst.SameOperand other role :=
    placed.operandText_eq_iff otherPlaced member (record ▸ member)
  by_cases bare : inst.record.mnemonic.toLower ∈ bareMnemonics
  · -- the only operand of such a mnemonic is the one that every fence has
    have text : inst.assembly labels = other.assembly labels := by
      rw [assembly_of_bare (.inl bare), assembly_of_bare (.inl (record ▸ bare)), record]
    refine iff_of_true text ?_
    intro role member
    obtain rfl := (Record.bare_iff_predSucc _ placed.known role member).1 bare
    exact (operand member).1 rfl
  · by_cases noOperands : inst.record.pattern = []
    · have text : inst.assembly labels = other.assembly labels := by
        rw [assembly_of_bare (.inr noOperands), assembly_of_bare (.inr (record ▸ noOperands)), record]
      refine iff_of_true text ?_
      intro role member
      rw [noOperands] at member
      cases member
    · have otherWritten := otherPlaced.isSome_operandText labels
      rw [placed.assembly_eq_iff_operands otherPlaced record bare noOperands]
      rw [← record] at otherWritten ⊢
      rw [filterMap_eq_iff (placed.isSome_operandText labels) otherWritten]
      exact forall₂_congr fun role member => operand member

/-! ## No-operations -/

/-- One is the no-operation, the other the sum of `x0` and zero into `x0`. -/
def NopPair (inst other : Instruction) : Prop :=
  inst.record.NopPair other.record ∧ other.rd = some 0 ∧ other.rs1 = some 0 ∧ other.imm = some 0

theorem settled_of_bare {record : Record} (bare : record.pattern = []) :
    ({ record } : Instruction).Settled where
  rd := by simp [bare]
  rs1 := by simp [bare]
  rs2 := by simp [bare]
  shamt := by simp [bare]
  imm := by simp [bare]
  rd_lt := nofun
  rs1_lt := nofun
  rs2_lt := nofun
  shamt_lt := nofun
  allowed := nofun

theorem settled_nop : nop.Settled where
  rd := by decide
  rs1 := by decide
  rs2 := by decide
  shamt := by decide
  imm := by decide
  rd_lt := by rintro _ ⟨⟩; decide
  rs1_lt := by rintro _ ⟨⟩; decide
  rs2_lt := nofun
  shamt_lt := nofun
  allowed := by
    rintro _ ⟨⟩ role member takes
    cases role with
    | imm => exact ⟨by decide, by decide⟩
    | rd | rs1 | rs2 | shamt | unsupported => cases takes
    | imm20 | label | memory | predSucc => exact absurd member (by decide)

theorem Settled.pack_of_nop (settled : inst.Settled) (known : inst.record ∈ Base.records)
    (isNop : inst.record.mnemonic = "NOP") : inst.pack = Word.nop := by
  obtain ⟨bare, word⟩ := Record.nop_of_mem_base _ known isNop
  rw [← word, settled.pack_eq_iff (settled_of_bare bare) known rfl]
  intro role member
  rw [bare] at member
  cases member

theorem Settled.pack_eq_nop_iff (settled : inst.Settled) (known : inst.record ∈ Base.records)
    (isSum : inst.record.mnemonic = "ADDI") :
    inst.pack = Word.nop ↔ inst.rd = some 0 ∧ inst.rs1 = some 0 ∧ inst.imm = some 0 := by
  have record : inst.record = nop.record := Record.eq_addi_of_mem_base _ known isSum
  have word : Word.nop = nop.pack := by decide +kernel
  rw [word, settled.pack_eq_iff settled_nop known record]
  unfold SameOperands
  rw [record]
  constructor
  · intro same
    exact ⟨same .rd (by decide), same .rs1 (by decide), same .imm (by decide)⟩
  · rintro ⟨rd, rs1, imm⟩ role member
    cases role with
    | rd => exact rd
    | rs1 => exact rs1
    | imm => exact imm
    | rs2 | shamt | imm20 | label | memory | predSucc | unsupported =>
        exact absurd member (by decide)

/-! ## Text and word -/

theorem NopPair.pack_eq (pair : inst.NopPair other) (placed : inst.Placed position)
    (otherPlaced : other.Placed position) : inst.pack = Word.nop ∧ other.pack = Word.nop := by
  obtain ⟨⟨isNop, isSum⟩, zero⟩ := pair
  exact ⟨placed.settled.pack_of_nop placed.known isNop,
    (otherPlaced.settled.pack_eq_nop_iff otherPlaced.known isSum).2 zero⟩

/-- A sum with the word of the no-operation adds zero to `x0` into `x0`. -/
theorem nopPair_of_pack_eq (pair : inst.record.NopPair other.record) (placed : inst.Placed position)
    (otherPlaced : other.Placed position) (same : inst.pack = other.pack) : inst.NopPair other := by
  obtain ⟨isNop, isSum⟩ := pair
  have word : other.pack = Word.nop :=
    same.symm.trans (placed.settled.pack_of_nop placed.known isNop)
  exact ⟨⟨isNop, isSum⟩, (otherPlaced.settled.pack_eq_nop_iff otherPlaced.known isSum).1 word⟩

theorem Placed.pack_eq_iff (placed : inst.Placed position) (otherPlaced : other.Placed position) :
    inst.pack = other.pack ↔
      inst.assembly labels = other.assembly labels ∨ inst.NopPair other ∨ other.NopPair inst := by
  constructor
  · intro same
    rcases record_eq_of_pack_eq placed.known otherPlaced.known same with record | pair | pair
    · left
      rw [placed.assembly_eq_iff otherPlaced record]
      exact (placed.settled.pack_eq_iff otherPlaced.settled placed.known record).1 same
    · exact .inr (.inl (nopPair_of_pack_eq pair placed otherPlaced same))
    · exact .inr (.inr (nopPair_of_pack_eq pair otherPlaced placed same.symm))
  · rintro (text | pair | pair)
    · have record := record_eq_of_assembly_eq placed.known otherPlaced.known text
      rw [placed.assembly_eq_iff otherPlaced record] at text
      exact (placed.settled.pack_eq_iff otherPlaced.settled placed.known record).2 text
    · obtain ⟨word, otherWord⟩ := pair.pack_eq placed otherPlaced
      rw [word, otherWord]
    · obtain ⟨otherWord, word⟩ := pair.pack_eq otherPlaced placed
      rw [word, otherWord]

theorem Placed.encode_eq (placed : inst.Placed position) : inst.encode = .ok inst.pack :=
  encode_eq_ok_iff.2
    ⟨placed.settled.missingRole?_eq_none (Record.coherent_of_mem_base _ placed.known), rfl⟩

/-- Text and word of a base instruction say the same.  Of two instructions at one position the
texts are the same exactly if the words are, except that the no-operation and
`addi x0, x0, 0` have one word and two texts.  Whatever the operands, in range or not, instructions
with different mnemonics never have the same word, but for `NOP` and `ADDI`. -/
theorem same_text_iff_same_word (position : Nat) (labels : LabelTable) :
    (∀ inst other : Instruction, inst.Placed position → other.Placed position →
      (∃ word, inst.encode = .ok word) ∧
      (inst.encode = other.encode ↔
        inst.assembly labels = other.assembly labels ∨ inst.NopPair other ∨ other.NopPair inst) ∧
      (inst.NopPair other → inst.assembly labels ≠ other.assembly labels ∧
        inst.encode = .ok 0x13#32 ∧ other.encode = .ok 0x13#32)) ∧
    ∀ inst other : Instruction, inst.record ∈ Base.records → other.record ∈ Base.records →
      inst.record.mnemonic ≠ other.record.mnemonic →
      ¬inst.record.NopPair other.record → ¬other.record.NopPair inst.record →
      ∀ word, inst.encode = .ok word → other.encode ≠ .ok word := by
  refine ⟨?_, ?_⟩
  · intro inst other placed otherPlaced
    rw [placed.encode_eq, otherPlaced.encode_eq, Except.ok.injEq]
    refine ⟨⟨inst.pack, rfl⟩, placed.pack_eq_iff otherPlaced, ?_⟩
    intro pair
    obtain ⟨word, otherWord⟩ := pair.pack_eq placed otherPlaced
    refine ⟨?_, congrArg _ word, congrArg _ otherWord⟩
    intro text
    have record := record_eq_of_assembly_eq placed.known otherPlaced.known text
    obtain ⟨⟨isNop, isSum⟩, -⟩ := pair
    rw [record, isSum] at isNop
    exact absurd isNop (by decide)
  · intro inst other known otherKnown different notPair notPair' word encoded otherEncoded
    obtain ⟨-, packed⟩ := encode_eq_ok_iff.1 encoded
    obtain ⟨-, otherPacked⟩ := encode_eq_ok_iff.1 otherEncoded
    have same : inst.pack = other.pack := packed.trans otherPacked.symm
    rcases record_eq_of_pack_eq known otherKnown same with record | pair | pair
    · exact different (congrArg _ record)
    · exact notPair pair
    · exact notPair' pair

/-- `beq x1, x2` from one position to another. -/
def branchTo (position target : Nat) : Instruction where
  record := Base.branches "BEQ" 0b000
  rs1 := some 1
  rs2 := some 2
  imm := some (.ofInt (displacement position target))
  label := some (labelName target)

theorem placed_branchTo {position target : Nat}
    (admitted : Format.b.admits (displacement position target) = true) :
    (branchTo position target).Placed position := by
  obtain ⟨-, small, -⟩ := Format.bounds_of_admits (.inl rfl) admitted
  have stored : (Int32.ofInt (displacement position target)).toInt = displacement position target :=
    Int32.toInt_ofInt_of_le (by omega) (by omega)
  have known : Base.branches "BEQ" 0b000 ∈ Base.records := by decide
  have allowed : Role.label.Allows .b (.ofInt (displacement position target)) := by
    unfold Role.Allows
    dsimp only
    rw [stored]
    exact ⟨Int.dvd_mul_right wordBytes _, admitted⟩
  have settled : (branchTo position target).Settled := by
    constructor
    case rd | rs1 | rs2 | shamt => simp [branchTo, Base.branches]
    case imm => simp [branchTo, Base.branches, Role.takesImmediate]
    case rd_lt | shamt_lt => exact nofun
    case rs1_lt | rs2_lt =>
      rintro _ ⟨⟩
      decide
    case allowed =>
      rintro _ ⟨⟩ role member takes
      simp only [branchTo, Base.branches, List.mem_cons, List.not_mem_nil, or_false] at member
      rcases member with rfl | rfl | rfl
      · cases takes
      · cases takes
      · exact allowed
  exact ⟨known, settled, fun _ => ⟨target, _, rfl, rfl, stored⟩⟩

/-- The no-operation of the base set. -/
def plainNop : Instruction where
  record :=
    { mnemonic := "NOP", format := .i, category := .pseudo, opcode := Base.opImm
      funct3 := some 0b000, pattern := [], kind := .none }

theorem placed_plainNop (position : Nat) : plainNop.Placed position :=
  ⟨by decide, settled_of_bare rfl, nofun⟩

theorem placed_nop (position : Nat) : nop.Placed position :=
  ⟨by decide, settled_nop, fun member => absurd member (by decide)⟩

/-- Two branches to neighbouring targets differ in the word as they do in the text, the no-operation is
the sum that it looks like, and no branch is one. -/
theorem same_text_iff_same_word_at_five :
    (branchTo 5 2).Placed 5 ∧ (branchTo 5 3).Placed 5 ∧
      (branchTo 5 2).encode ≠ (branchTo 5 3).encode ∧
      plainNop.Placed 5 ∧ nop.Placed 5 ∧ plainNop.encode = nop.encode ∧
      ∀ word, (branchTo 5 2).encode = .ok word → nop.encode ≠ .ok word := by
  have back : (branchTo 5 2).Placed 5 := placed_branchTo (by decide)
  have backLess : (branchTo 5 3).Placed 5 := placed_branchTo (by decide)
  have nops : plainNop.NopPair nop := by
    refine ⟨⟨rfl, rfl⟩, rfl, rfl, rfl⟩
  obtain ⟨agree, apart⟩ := same_text_iff_same_word 5 ∅
  obtain ⟨-, branches, -⟩ := agree _ _ back backLess
  obtain ⟨-, -, exception⟩ := agree _ _ (placed_plainNop 5) (placed_nop 5)
  obtain ⟨-, word, otherWord⟩ := exception nops
  refine ⟨back, backLess, ?_, placed_plainNop 5, placed_nop 5, word.trans otherWord.symm, ?_⟩
  · rw [Ne, branches]
    rintro (text | ⟨⟨isNop, -⟩, -⟩ | ⟨⟨isNop, -⟩, -⟩)
    · exact absurd text (by decide +kernel)
    · exact absurd isNop (by decide)
    · exact absurd isNop (by decide)
  · exact apart _ _ back.known (placed_nop 5).known (by decide) (by decide) (by decide)

end Instruction

end Rv32Stimulus
