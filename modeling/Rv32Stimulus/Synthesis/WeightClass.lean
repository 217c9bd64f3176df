/-
# Synthesis.WeightClass -- which record comes next

The weight table of a profile weighs classes, and a class stands for one or two
categories.  A record is drawn in three steps: a class by weight (`alu_logic` if
the table yields none), one of its categories, one of the catalog's records of
that category.  A category without records yields the catalog's fallback.
-/
import Rv32Stimulus.Isa.Catalog
import Rv32Stimulus.Profile.Basic
import Rv32Stimulus.Random.Draw

namespace Rv32Stimulus

set_option autoImplicit false

open Rv32Stimulus.Random

namespace WeightClass

/-- The categories a weight class draws from; an unknown class draws from `alu`. -/
def categories : String → List Category
  | "alu_logic" => [.alu, .compare]
  | "load" => [.load]
  | "store" => [.store]
  | "branch" => [.branch]
  | "jump" => [.jump]
  | "upper" => [.upper]
  | "system" => [.system]
  | "fence" => [.system]
  | "ecall_ebreak" => [.system]
  | "pseudo_nop" => [.pseudo]
  | _ => [.alu]

/-- The class that stands in where the table yields none. -/
def standIn : String := "alu_logic"

end WeightClass

namespace WeightTable

/-- The class at an index of the table. -/
def classAt (table : WeightTable) (index? : Option Nat) : String :=
  (index?.bind fun index => table.keys[index]?).getD WeightClass.standIn

/-- A class by weight. -/
def chooseClass (table : WeightTable) : Draw String := do
  return table.classAt (← Draw.weighted table.values)

end WeightTable

namespace Catalog

/-- One of the records of `category`, or the fallback. -/
def chooseIn (catalog : Catalog) (category : Category) : Draw Record := do
  return (← Draw.pick (catalog.inCategory category)).getD catalog.fallback

/-- The record of the next instruction. -/
def chooseRecord (catalog : Catalog) (weights : WeightTable) : Draw Record := do
  let weightClass ← weights.chooseClass
  let category ← Draw.pick (WeightClass.categories weightClass)
  catalog.chooseIn (category.getD .alu)

end Catalog

example : WeightClass.categories "vector" = [.alu] := by decide +kernel

end Rv32Stimulus
