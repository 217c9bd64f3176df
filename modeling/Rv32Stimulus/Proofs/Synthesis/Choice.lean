/-
# Proofs.Synthesis.Choice -- which records can be drawn

A catalog offers its own records and its fallback, which is one of them or the built-in
`ADDI` (`fallback_mem_or_eq`).  Every drawn record is on offer, and the draw fails only
where the class weights overflow.
-/
import Rv32Stimulus.Proofs.Isa.CatalogIndex
import Rv32Stimulus.Proofs.Profile.Drawable
import Rv32Stimulus.Proofs.Random.Bounds
import Rv32Stimulus.Synthesis.WeightClass

namespace Rv32Stimulus

set_option autoImplicit false

open Rv32Stimulus.Random

namespace Catalog

/-- The records that a draw from the catalog can give. -/
def Offers (catalog : Catalog) (record : Record) : Prop :=
  record ∈ catalog.records ∨ record = catalog.fallback

theorem fallback_mem_or_eq (catalog : Catalog) :
    catalog.fallback ∈ catalog.records ∨ catalog.fallback = .addi := by
  rw [fallback]
  cases found : catalog.find? "ADDI" with
  | some record => exact .inl (mem_and_isCalled_of_find? found).1
  | none => exact .inr rfl

/-- A property of the catalog's records and of the built-in `ADDI` holds of all it offers. -/
theorem Offers.induction {catalog : Catalog} (holds : Record → Prop) (addi : holds .addi)
    (records : ∀ record ∈ catalog.records, holds record) {record : Record}
    (offered : catalog.Offers record) : holds record := by
  rcases offered with member | rfl
  · exact records record member
  · rcases catalog.fallback_mem_or_eq with member | builtIn
    · exact records _ member
    · rw [builtIn]
      exact addi

/-! ## The draws -/

theorem succeeds_chooseIn (catalog : Catalog) (category : Category) :
    (catalog.chooseIn category).Succeeds :=
  (Draw.succeeds_pick _).bind fun _ => .pure _

/-- A record of the category, or the fallback if there is none. -/
theorem ensures_chooseIn (catalog : Catalog) (category : Category) :
    (catalog.chooseIn category).Ensures fun record =>
      record ∈ catalog.inCategory category ∨
        record = catalog.fallback ∧ catalog.inCategory category = [] := by
  refine (Draw.ensures_pick _).bind ?_
  rintro record? ⟨picked, missing⟩
  refine .pure ?_
  cases record? with
  | some record => exact .inl (picked record rfl)
  | none => exact .inr ⟨rfl, missing rfl⟩

theorem succeeds_chooseRecord (catalog : Catalog) {weights : WeightTable}
    (finite : overflows weights.values = false) : (catalog.chooseRecord weights).Succeeds := by
  refine ((Draw.succeeds_weighted finite).bind fun _ => .pure _).bind ?_
  intro weightClass
  refine (Draw.succeeds_pick _).bind ?_
  intro category
  exact catalog.succeeds_chooseIn _

theorem fails_chooseRecord (catalog : Catalog) {weights : WeightTable}
    (infinite : overflows weights.values = true) : (catalog.chooseRecord weights).Fails :=
  ((Draw.fails_weighted infinite).bind _).bind _

theorem ensures_chooseRecord (catalog : Catalog) (weights : WeightTable) :
    (catalog.chooseRecord weights).Ensures catalog.Offers := by
  refine (Draw.Ensures.trivial _).bind ?_
  intro weightClass _
  refine (Draw.Ensures.trivial _).bind ?_
  intro category _
  refine (catalog.ensures_chooseIn _).mono ?_
  rintro record (member | ⟨isFallback, -⟩)
  · exact .inl (mem_inCategory.1 member).1
  · exact .inr isFallback

end Catalog

end Rv32Stimulus
