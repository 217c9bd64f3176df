/-
# Proofs.Instruction.Faithful -- instructions whose word says exactly what they hold

An instruction is `Settled` once exactly the operands of its pattern are there and each lies where
its role allows.  If its record is coherent, narrow and gives no operands to a system call,
then no operand is missing (`Settled.missingRole?_eq_none`) and the word is `Faithful`: under
the instruction's own format it decodes to the record's opcode and function fields and to every operand
of the pattern, and whatever else the format has room for is zero.

The one field whose value is not an operand is the immediate of `EBREAK`, which is one.
-/
import Rv32Stimulus.Proofs.Control.Displacement
import Rv32Stimulus.Proofs.Instruction.Encoding
import Rv32Stimulus.Proofs.Instruction.Operands
import Rv32Stimulus.Proofs.Isa.Catalog
import Rv32Stimulus.Proofs.Isa.Coherent

namespace Rv32Stimulus

set_option autoImplicit false

/-- The immediates that a role allows in a finished instruction of the format. -/
def Role.Allows (format : Format) : Role → Int32 → Prop
  | .label, value => 4 ∣ value.toInt ∧ format.admits value.toInt = true
  | role, value => role.Admits value

/-- The record names a system call only if it has no operands. -/
def Record.BareSystem (record : Record) : Prop :=
  record.isCalled "ECALL" ∨ record.isCalled "EBREAK" → record.pattern = []

namespace Instruction

/-! ## The properties -/

/-- Every operand lies where its role allows. -/
structure InRange (inst : Instruction) : Prop where
  rd : ∀ register, inst.rd = some register → register.toNat < 32
  rs1 : ∀ register, inst.rs1 = some register → register.toNat < 32
  rs2 : ∀ register, inst.rs2 = some register → register.toNat < 32
  shamt : ∀ amount, inst.shamt = some amount → amount.toNat < 32
  imm : .imm ∈ inst.record.pattern ∨ .memory ∈ inst.record.pattern →
    ∀ value, inst.imm = some value → IsImmediate value
  imm20 : .imm20 ∈ inst.record.pattern → ∀ value, inst.imm = some value → IsUpper value
  label : .label ∈ inst.record.pattern → ∀ value, inst.imm = some value →
    4 ∣ value.toInt ∧ inst.record.format.admits value.toInt = true

/-- The operand of the role is there, and the fields show it. -/
def Shows (inst : Instruction) (fields : Fields) : Role → Prop
  | .rd => inst.rd.isSome ∧ fields.rd.map (·.toNat) = inst.rd.map (·.toNat)
  | .rs1 => inst.rs1.isSome ∧ fields.rs1.map (·.toNat) = inst.rs1.map (·.toNat)
  | .rs2 => inst.rs2.isSome ∧ fields.rs2.map (·.toNat) = inst.rs2.map (·.toNat)
  | .shamt => inst.shamt.isSome ∧ fields.shamt.map (·.toNat) = inst.shamt.map (·.toNat)
  | .imm | .imm20 | .label | .predSucc => inst.imm.isSome ∧ fields.imm = inst.imm.map (·.toInt)
  | .memory =>
      (inst.rs1.isSome ∧ fields.rs1.map (·.toNat) = inst.rs1.map (·.toNat)) ∧
        inst.imm.isSome ∧ fields.imm = inst.imm.map (·.toInt)
  | .unsupported => False

/-- The fields say what the instruction holds, and nothing else. -/
structure Faithful (inst : Instruction) (fields : Fields) : Prop where
  opcode : fields.opcode.toNat = inst.record.opcode.toNat
  funct3 : fields.funct3.map (·.toNat) =
    if inst.record.hasFunct3 then some (inst.record.funct3.getD 0).toNat else none
  funct7 : fields.funct7.map (·.toNat) =
    if inst.record.hasFunct7 then some (inst.record.funct7.getD 0).toNat else none
  operands : ∀ role ∈ inst.record.pattern, inst.Shows fields role
  rd : .rd ∉ inst.record.pattern → ∀ bits, fields.rd = some bits → bits = 0
  rs1 : .rs1 ∉ inst.record.pattern → .memory ∉ inst.record.pattern →
    ∀ bits, fields.rs1 = some bits → bits = 0
  rs2 : .rs2 ∉ inst.record.pattern → ∀ bits, fields.rs2 = some bits → bits = 0
  shamt : .shamt ∉ inst.record.pattern → ∀ bits, fields.shamt = some bits → bits = 0
  imm : (∀ role ∈ inst.record.pattern, ¬role.takesImmediate) → ∀ value, fields.imm = some value →
    value = if inst.record.isCalled "EBREAK" then 1 else 0

/-- Exactly the operands of the pattern are there, each where its role allows. -/
structure Settled (inst : Instruction) : Prop where
  rd : inst.rd.isSome ↔ .rd ∈ inst.record.pattern
  rs1 : inst.rs1.isSome ↔ .rs1 ∈ inst.record.pattern ∨ .memory ∈ inst.record.pattern
  rs2 : inst.rs2.isSome ↔ .rs2 ∈ inst.record.pattern
  shamt : inst.shamt.isSome ↔ .shamt ∈ inst.record.pattern
  imm : inst.imm.isSome ↔ ∃ role ∈ inst.record.pattern, role.takesImmediate
  rd_lt : ∀ register, inst.rd = some register → register.toNat < 32
  rs1_lt : ∀ register, inst.rs1 = some register → register.toNat < 32
  rs2_lt : ∀ register, inst.rs2 = some register → register.toNat < 32
  shamt_lt : ∀ amount, inst.shamt = some amount → amount.toNat < 32
  allowed : ∀ value, inst.imm = some value → ∀ role ∈ inst.record.pattern,
    role.takesImmediate → role.Allows inst.record.format value

/-! ## Ranges and presence -/

variable {inst : Instruction}

theorem Settled.inRange (settled : inst.Settled) : inst.InRange where
  rd := settled.rd_lt
  rs1 := settled.rs1_lt
  rs2 := settled.rs2_lt
  shamt := settled.shamt_lt
  imm := by
    rintro (member | member) value present
    · exact settled.allowed value present .imm member rfl
    · exact settled.allowed value present .memory member rfl
  imm20 member value present := settled.allowed value present .imm20 member rfl
  label member value present := settled.allowed value present .label member rfl

theorem Settled.missingRole?_eq_none (settled : inst.Settled) (coherent : inst.record.Coherent) :
    inst.missingRole? = none := by
  refine List.find?_eq_none.2 fun role member => ?_
  have imm (takes : role.takesImmediate) : inst.imm.isSome := settled.imm.2 ⟨role, member, takes⟩
  have present : inst.supplies role = true := by
    cases role with
    | rd => exact settled.rd.2 member
    | rs1 => exact settled.rs1.2 (.inl member)
    | rs2 => exact settled.rs2.2 member
    | shamt => exact settled.shamt.2 member
    | memory => exact Bool.and_eq_true_iff.2 ⟨imm rfl, settled.rs1.2 (.inr member)⟩
    | unsupported => exact absurd (coherent.room _ member) nofun
    | imm | imm20 | label | predSucc => exact imm rfl
  simp [present]

/-! ## The immediate in the word -/

theorem isImmediate_fullFence : IsImmediate fullFence := by
  unfold IsImmediate
  decide

theorem toInt_immField_twelve {value : Int32} (present : inst.imm = some value)
    (fits : IsImmediate value) : (inst.immField 12).toInt = value.toInt := by
  obtain ⟨low, high⟩ := fits
  unfold leastImmediate at low
  unfold greatestImmediate at high
  exact toInt_immField present (by decide) (by omega) (by omega)

theorem systemImmediate?_eq_none (bare : inst.record.BareSystem) {role : Role}
    (member : role ∈ inst.record.pattern) : inst.systemImmediate? = none := by
  have ordinary : ¬(inst.record.isCalled "ECALL" ∨ inst.record.isCalled "EBREAK") := fun called => by
    rw [bare called] at member
    cases member
  unfold systemImmediate?
  rw [if_neg fun called => ordinary (.inl called), if_neg fun called => ordinary (.inr called)]

theorem carriedImm?_of_plain (format : inst.record.format = .i) (plain : inst.record.kind ≠ .shift) :
    inst.carriedImm? = some (inst.systemImmediate?.getD (inst.immField 12)).toInt := by
  unfold carriedImm?
  rw [format]
  cases kind : inst.record.kind with
  | shift => exact absurd kind plain
  | none | plain => rfl

theorem carriedImm?_of_twelve {value : Int32} (format : inst.record.format = .i)
    (plain : inst.record.kind ≠ .shift) (ordinary : inst.systemImmediate? = none)
    (present : inst.imm = some value) (fits : IsImmediate value) :
    inst.carriedImm? = some value.toInt := by
  rw [carriedImm?_of_plain format plain, ordinary]
  exact congrArg some (toInt_immField_twelve present fits)

/-- The word carries the immediate unchanged, whichever role it belongs to. -/
theorem Settled.carriedImm?_eq (settled : inst.Settled) (coherent : inst.record.Coherent)
    (bare : inst.record.BareSystem) {role : Role} (member : role ∈ inst.record.pattern)
    (takes : role.takesImmediate) {value : Int32} (present : inst.imm = some value) :
    inst.carriedImm? = some value.toInt := by
  have ordinary := systemImmediate?_eq_none bare member
  have room := coherent.room role member
  have allowed := settled.allowed value present role member takes
  cases role with
  | rd | rs1 | rs2 | shamt | unsupported => cases takes
  | imm =>
      obtain ⟨format, plain⟩ := of_decide_eq_true room
      exact carriedImm?_of_twelve format plain ordinary present allowed
  | predSucc =>
      obtain ⟨format, plain⟩ := of_decide_eq_true room
      obtain rfl : value = fullFence := allowed
      exact carriedImm?_of_twelve format plain ordinary present isImmediate_fullFence
  | memory =>
      rcases of_decide_eq_true room with ⟨format, plain⟩ | format
      · exact carriedImm?_of_twelve format plain ordinary present allowed
      · unfold carriedImm?
        rw [format]
        exact congrArg some (toInt_immField_twelve present allowed)
  | imm20 =>
      have format : inst.record.format = .u := of_decide_eq_true room
      obtain ⟨low, high⟩ := allowed
      unfold greatestUpper at high
      unfold carriedImm?
      rw [format]
      exact congrArg some (toNat_immField_upper present low (by omega))
  | label => exact carried_imm_of_admits (of_decide_eq_true room) present allowed.2

/-- Where no immediate was filled in its field is zero, but for `EBREAK`. -/
theorem carriedImm?_of_absent (coherent : inst.record.Coherent) (bare : inst.record.BareSystem)
    (absent : inst.imm = none) {value : Int} (carried : inst.carriedImm? = some value) :
    value = if inst.record.isCalled "EBREAK" then 1 else 0 := by
  by_cases system : inst.record.isCalled "ECALL" ∨ inst.record.isCalled "EBREAK"
  · obtain ⟨format, plain⟩ := coherent.plain (bare system)
    rw [carriedImm?_of_plain format plain] at carried
    obtain rfl := Option.some.inj carried
    unfold systemImmediate?
    by_cases call : inst.record.isCalled "ECALL"
    · have other : ¬inst.record.isCalled "EBREAK" := fun break_ => by
        unfold Record.isCalled at call break_
        exact absurd ((beq_iff_eq.1 call).symm.trans (beq_iff_eq.1 break_)) (by decide +kernel)
      rw [if_pos call, if_neg other]
      rfl
    · have break_ := system.resolve_left call
      rw [if_neg call, if_pos break_, if_pos break_]
      rfl
  · rw [not_or] at system
    rw [if_neg system.2]
    have ordinary : inst.systemImmediate? = none := by
      unfold systemImmediate?
      rw [if_neg system.1, if_neg system.2]
    unfold carriedImm? at carried
    rw [ordinary] at carried
    simp only [Option.getD_none, immField_none absent] at carried
    split at carried <;> cases carried <;> rfl

/-! ## The whole word -/

/-- A register that is there is what its field shows. -/
theorem shows_lowFive {value : Option UInt8} {room : Bool} (hasRoom : room = true)
    (present : value.isSome) (small : ∀ number, value = some number → number.toNat < 32) :
    value.isSome ∧
      (if room then some (lowFive value) else none).map (·.toNat) = value.map (·.toNat) := by
  obtain ⟨number, rfl⟩ := Option.isSome_iff_exists.1 present
  refine ⟨rfl, ?_⟩
  rw [if_pos hasRoom]
  exact congrArg some (toNat_lowFive rfl (small number rfl))

theorem lowFive_of_not_isSome {value : Option UInt8} (absent : ¬value.isSome) : lowFive value = 0 := by
  rw [Option.not_isSome_iff_eq_none.1 absent]
  rfl

/-- A register field is zero where no register was filled in. -/
theorem eq_zero_of_field {value : Option UInt8} {room : Bool} {bits : BitVec 5}
    (absent : ¬value.isSome) (shown : (if room then some (lowFive value) else none) = some bits) :
    bits = 0 := by
  rw [lowFive_of_not_isSome absent] at shown
  split at shown
  · exact (Option.some.inj shown).symm
  · cases shown

theorem map_toNat_field {width : Nat} {bits : BitVec width} {value : Nat} (room : Bool)
    (same : bits.toNat = value) :
    (if room then some bits else none).map (·.toNat) = if room then some value else none := by
  subst same
  cases room <;> rfl

theorem Settled.shows (settled : inst.Settled) (coherent : inst.record.Coherent)
    (bare : inst.record.BareSystem) {role : Role} (member : role ∈ inst.record.pattern) :
    inst.Shows inst.carried role := by
  have room := coherent.room role member
  have imm (takes : role.takesImmediate) :
      inst.imm.isSome ∧ inst.carried.imm = inst.imm.map (·.toInt) := by
    have isSome := settled.imm.2 ⟨role, member, takes⟩
    obtain ⟨value, present⟩ := Option.isSome_iff_exists.1 isSome
    refine ⟨isSome, ?_⟩
    rw [present]
    exact settled.carriedImm?_eq coherent bare member takes present
  cases role with
  | rd => exact shows_lowFive room (settled.rd.2 member) settled.rd_lt
  | rs1 => exact shows_lowFive room (settled.rs1.2 (.inl member)) settled.rs1_lt
  | rs2 => exact shows_lowFive room (settled.rs2.2 member) settled.rs2_lt
  | shamt => exact shows_lowFive room (settled.shamt.2 member) settled.shamt_lt
  | memory =>
      have hasRs1 : inst.record.has .rs1 := by
        rcases of_decide_eq_true room with ⟨format, -⟩ | format <;> simp [Record.has, format]
      exact ⟨shows_lowFive hasRs1 (settled.rs1.2 (.inr member)) settled.rs1_lt, imm rfl⟩
  | imm | imm20 | label | predSucc => exact imm rfl
  | unsupported => cases room

theorem Settled.faithful (settled : inst.Settled) (coherent : inst.record.Coherent)
    (narrow : inst.record.Narrow) (bare : inst.record.BareSystem) :
    inst.Faithful inst.carried where
  opcode := by
    rw [carried, if_neg coherent.supported]
    exact Nat.mod_eq_of_lt narrow.opcode
  funct3 := map_toNat_field _ (Nat.mod_eq_of_lt narrow.funct3)
  funct7 := map_toNat_field _ (Nat.mod_eq_of_lt narrow.funct7)
  operands _ member := settled.shows coherent bare member
  rd unnamed _ := eq_zero_of_field (mt settled.rd.1 unnamed)
  rs1 unnamed unnamedBase _ :=
    eq_zero_of_field (mt settled.rs1.1 (not_or.2 ⟨unnamed, unnamedBase⟩))
  rs2 unnamed _ := eq_zero_of_field (mt settled.rs2.1 unnamed)
  shamt unnamed _ := eq_zero_of_field (mt settled.shamt.1 unnamed)
  imm unnamed value := by
    have absent : ¬inst.imm.isSome := fun present => by
      obtain ⟨role, member, takes⟩ := settled.imm.1 present
      exact unnamed role member takes
    exact carriedImm?_of_absent coherent bare (Option.not_isSome_iff_eq_none.1 absent)

end Instruction

end Rv32Stimulus
