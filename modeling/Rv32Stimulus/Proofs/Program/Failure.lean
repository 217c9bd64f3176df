/-
# Proofs.Program.Failure -- which profiles can make a generator fail

A check of a profile looks at each weight alone, but a draw adds the weights of a list up, and
the sum of finite numbers may be infinite.  `never_fails_iff`: a checked profile never fails,
with any catalog, exactly if none of its four lists of weights has an infinite sum.  Where
one has, a catalog with a single record that draws from all lists fails from every seed.

`fails_of_large_weights` is such a profile: two weights of `1e308`, each of them sound.
-/
import Rv32Stimulus.Profile.Check
import Rv32Stimulus.Proofs.Isa.Catalog
import Rv32Stimulus.Proofs.Program.Finish

namespace Rv32Stimulus

set_option autoImplicit false

open Rv32Stimulus.Random

/-! ## Checked profiles -/

namespace Profile

/-- Each list of weights has a finite sum. -/
def HasFiniteTotals (profile : Profile) : Prop :=
  ∀ weights ∈ profile.weightLists, (total? weights).any Float.isInf = false

instance (profile : Profile) : Decidable profile.HasFiniteTotals :=
  inferInstanceAs (Decidable (∀ weights ∈ profile.weightLists, (total? weights).any Float.isInf = false))

theorem check_eq_ok_iff {profile : Profile} : profile.check = .ok () ↔ profile.fault? = none := by
  unfold check
  cases profile.fault? <;> simp

/-- Every weight that some draw adds up is one that a check looks at. -/
theorem mem_of_mem_weightLists {profile : Profile} {weights : List Float} {weight : Float}
    (member : weights ∈ profile.weightLists) (inside : weight ∈ weights) :
    weight ∈ (profile.weights.entries ++ profile.bucketWeights).map (·.2) := by
  rw [List.map_append, List.mem_append]
  simp only [weightLists, List.mem_cons, List.not_mem_nil, or_false] at member
  rcases member with rfl | rfl | rfl | rfl
  · exact .inl inside
  all_goals
    right
    simp only [ArithmeticProfile.weights, MemoryProfile.weights, BranchProfile.weights,
      List.mem_cons, List.not_mem_nil, or_false] at inside
    simp only [bucketWeights, List.map_cons, List.map_nil, List.mem_cons]
    grind

theorem isWeight_of_check {profile : Profile} (checked : profile.check = .ok ())
    {weights : List Float} (member : weights ∈ profile.weightLists) :
    ∀ weight ∈ weights, isWeight weight = true := by
  intro weight inside
  obtain ⟨entry, looked, rfl⟩ := List.mem_map.1 (mem_of_mem_weightLists member inside)
  have sound := check_eq_ok_iff.1 checked
  unfold fault? at sound
  split at sound
  · cases sound
  · split at sound
    · cases sound
    · rename_i noFault
      simpa using List.find?_eq_none.1 noFault entry looked

theorem drawable_iff_of_check {profile : Profile} (checked : profile.check = .ok ()) :
    profile.Drawable ↔ profile.HasFiniteTotals := by
  have nonnegative (weights : List Float) (member : weights ∈ profile.weightLists) :
      overflows weights = (total? weights).any Float.isInf := by
    have all : weights.all (0.0 ≤ ·) = true := List.all_eq_true.2 fun weight inside =>
      (Bool.and_eq_true_iff.1 (isWeight_of_check checked member weight inside)).2
    rw [overflows, all, Bool.true_and]
  unfold Drawable HasFiniteTotals
  constructor
  · intro drawable weights member
    rw [← nonnegative weights member]
    exact drawable weights member
  · intro finite weights member
    rw [nonnegative weights member]
    exact finite weights member

end Profile

/-! ## A catalog that draws from every list -/

/-- An `ADDI` that also accesses memory and branches. -/
def Record.thirsty : Record := { Record.addi with pattern := [.imm, .memory, .label] }

namespace Catalog

def thirsty : Catalog := ⟨[.thirsty]⟩

theorem ofRecords_thirsty : ofRecords [.thirsty] = .ok thirsty :=
  ofRecords_of_fault? (by decide +kernel)

/-- Being called `ADDI`, the record is its own stand-in. -/
theorem fallback_thirsty : thirsty.fallback = .thirsty := by decide +kernel

theorem roles_of_offers_thirsty (record : Record) (offered : thirsty.Offers record) :
    .imm ∈ record.pattern ∧ .memory ∈ record.pattern ∧ .label ∈ record.pattern := by
  have same : record = .thirsty := by
    rcases offered with member | isFallback
    · exact List.mem_singleton.1 member
    · rw [isFallback, fallback_thirsty]
  subst same
  decide

end Catalog

/-! ## Generators -/

namespace Generator

theorem generate_of_drawable {generator : Generator} (drawable : generator.profile.Drawable)
    (length : Nat) : ∃ outcome after, generator.generate length = .ok (outcome, after) := by
  obtain ⟨run, source, drawn⟩ :=
    Run.succeeds_ofLength generator.catalog drawable length generator.source
  exact ⟨_, _, generate_eq_ok_iff.2 ⟨run, source, drawn, rfl, rfl⟩⟩

theorem generate_of_not_drawable {profile : Profile} (undrawable : ¬profile.Drawable)
    (seed : UInt64) {length : Nat} (several : 1 < length) :
    (ofSeed .thirsty profile seed).generate length = .error .infiniteTotal := by
  have fails := Run.fails_ofLength undrawable Catalog.roles_of_offers_thirsty several (.ofSeed seed)
  unfold generate ofSeed
  rw [fails]
  rfl

/-- With a checked profile every generator gives a program or an error, whatever its catalog, its
seed and the length, exactly if no list of weights of the profile has an infinite sum. -/
theorem never_fails_iff {profile : Profile} (checked : profile.check = .ok ()) :
    (∀ records catalog seed length, Catalog.ofRecords records = .ok catalog →
      ∃ outcome after, (ofSeed catalog profile seed).generate length = .ok (outcome, after)) ↔
      profile.HasFiniteTotals := by
  rw [← Profile.drawable_iff_of_check checked]
  constructor
  · intro always
    refine Decidable.byContradiction fun undrawable => ?_
    have fails := generate_of_not_drawable undrawable 0 (by decide : 1 < 2)
    obtain ⟨outcome, after, given⟩ := always _ _ 0 2 Catalog.ofRecords_thirsty
    rw [fails] at given
    cases given
  · intro drawable records catalog seed length _
    exact generate_of_drawable drawable length

theorem never_fails_standard :
    Profile.standard.check = .ok () ∧
      ∀ records catalog seed length, Catalog.ofRecords records = .ok catalog →
        ∃ outcome after, (ofSeed catalog .standard seed).generate length = .ok (outcome, after) := by
  have checked : Profile.standard.check = .ok () := Profile.check_eq_ok_iff.2 (by decide +kernel)
  exact ⟨checked, (never_fails_iff checked).2 (by decide +kernel)⟩

end Generator

/-- The stock profile with two large weights. -/
def Profile.large : Profile :=
  { Profile.standard with weights := .ofList [("alu_logic", 1e308), ("load", 1e308)] }

namespace Generator

/-- Each weight is sound, and yet there is no program. -/
theorem fails_of_large_weights :
    Profile.large.check = .ok () ∧ Catalog.ofRecords Base.records = .ok .rv32i ∧
      (ofSeed .rv32i .large 7).generate 1 = .error .infiniteTotal := by
  have classes : overflows Profile.large.weights.values = true := by decide +kernel
  have fails : (Run.ofLength .rv32i .large 1).Fails :=
    (((Catalog.rv32i.fails_chooseRecord classes).bind _).bind _).bind _
  refine ⟨Profile.check_eq_ok_iff.2 (by decide +kernel), Catalog.ofRecords_rv32i, ?_⟩
  unfold generate ofSeed
  rw [fails]
  rfl

end Generator

end Rv32Stimulus
