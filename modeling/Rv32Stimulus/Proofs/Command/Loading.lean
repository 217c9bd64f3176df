/-
# Proofs.Command.Loading -- documents are loaded by their content

What a run takes from a document does not depend on the layout of the text.  All texts of all
rewritings of an accepted profile document load to the same profile, and those of a catalog document to
the same records in the same order (`documents_load_by_content`).  Blanks, escapes and the
other freedom of one tree are in `Spells`; order, unknown members and defaults are in the
rewritings of the two documents.
-/
import Rv32Stimulus.Proofs.Isa.Leeway
import Rv32Stimulus.Proofs.Json.Scan
import Rv32Stimulus.Proofs.Profile.Leeway

namespace Rv32Stimulus

set_option autoImplicit false

open Json (Spells fields int)
open Relation (ReflTransGen)

/-- Every accepted text spells a tree; and whatever the tree is rewritten to, every text of that is
accepted and loads to the same profile or catalog. -/
theorem documents_load_by_content :
    (∀ (content : String) (profile : Profile), Profile.ofText content = .ok profile →
      (∃ tree, Spells content.toList (.value tree)) ∧
        ∀ (tree other : Json) (text : String), Spells content.toList (.value tree) →
          ReflTransGen Profile.Rewrites tree other → Spells text.toList (.value other) →
            Profile.ofText text = .ok profile) ∧
    ∀ (content : String) (catalog : Catalog), Catalog.ofText content = .ok catalog →
      (∃ tree, Spells content.toList (.value tree)) ∧
        ∀ (tree other : Json) (text : String), Spells content.toList (.value tree) →
          ReflTransGen Catalog.Rewrites tree other → Spells text.toList (.value other) →
            Catalog.ofText text = .ok catalog := by
  constructor
  · intro content profile accepted
    obtain ⟨read, sound⟩ := Profile.ofText_eq_ok_iff.1 accepted
    obtain ⟨spelled, alike⟩ := Profile.read_keeps.document Profile.read_thorough read
    refine ⟨spelled, fun tree other text spells steps respells => ?_⟩
    exact Profile.ofText_eq_ok_iff.2 ⟨alike tree other text spells steps respells, sound⟩
  · intro content catalog accepted
    obtain ⟨records, read, made⟩ := Catalog.ofText_eq_ok_iff.1 accepted
    obtain ⟨spelled, alike⟩ := Record.read_keeps.list.document Record.read_thorough.readList read
    refine ⟨spelled, fun tree other text spells steps respells => ?_⟩
    exact Catalog.ofText_eq_ok_iff.2 ⟨records, alike tree other text spells steps respells, made⟩

/-! ## Two documents of a profile, and two of a catalog -/

/-- A profile document with members that a profile does not know, these weights, and these members
more about branches. -/
def profileDocument (unknown weights branches : List (String × Json)) : Json :=
  fields (unknown ++
    [ ("weights", fields weights),
      ("branch_offsets", fields (branches ++
        [ ("near", int 1), ("mid", int 0), ("far", int 0), ("near_max_bytes", int 16),
          ("mid_max_bytes", int 64), ("far_max_bytes", int 256) ])),
      ("immediates", fields
        [ ("arith", fields
            [ ("small", int 1), ("boundary", int 0), ("medium", int 0), ("random_full", int 0),
              ("special_pattern", int 0), ("boundary_values", .array []),
              ("special_values", .array [int (-1)]) ]),
          ("memory_offset", fields
            [ ("near_zero", int 1), ("small_range", int 0), ("mid_range", int 0), ("far_range", int 0),
              ("small_range_max", int 8), ("mid_range_max", int 128), ("far_range_max", int 512) ]),
          ("upper20", fields [("symbolic_fraction", int 0), ("symbolic_bases", .array [])]) ]),
      ("hazards", fields
        [("raw_dependency_prob", int 0), ("waw_repeat_prob", int 0), ("load_use_prob", int 0)]),
      ("register_policy", fields
        [("sp_usage_fraction_in_memory_ops", int 0), ("ra_usage_fraction_in_jal", int 0)]),
      ("loops", fields [("max_backward_depth", int 1)]) ])

/-- Without a remark and without what has a default. -/
def shortProfile : Json := profileDocument [] [("load", int 2), ("alu_logic", int 1)] []

/-- With a remark, with the weights exchanged and with the permission to branch backward. -/
def longProfile : Json :=
  profileDocument [("remark", .array [.null])] [("alu_logic", int 1), ("load", int 2)]
    [("allow_backward", .bool true)]

theorem shortProfile_rewrites : ReflTransGen Profile.Rewrites shortProfile longProfile := by
  have remark : Profile.Rewrites shortProfile
      (profileDocument [("remark", .array [.null])] [("load", int 2), ("alu_logic", int 1)] []) :=
    @Json.Rewrites.insert _ _ _ [] _ "remark" (.array [.null]) (by decide) rfl
  have weights : WeightTable.Rewrites (fields [("load", int 2), ("alu_logic", int 1)])
      (fields [("alu_logic", int 1), ("load", int 2)]) :=
    .permute (by decide) (.swap ..)
  have exchanged : Profile.Rewrites
      (profileDocument [("remark", .array [.null])] [("load", int 2), ("alu_logic", int 1)] [])
      (profileDocument [("remark", .array [.null])] [("alu_logic", int 1), ("load", int 2)] []) :=
    @Json.Rewrites.within _ _ _ [_] _ ⟨"weights", _, _⟩ _ _ (.head _) weights
  have permitted : Profile.Rewrites
      (profileDocument [("remark", .array [.null])] [("alu_logic", int 1), ("load", int 2)] [])
      longProfile :=
    @Json.Rewrites.within _ _ _ [_, _] _ ⟨"branch_offsets", _, _⟩ _ _
      (.tail _ (.tail _ (.head _)))
      (@Json.Rewrites.add _ _ _ [] _ ⟨"allow_backward", _, _⟩ _ (.head _) rfl (by decide))
  exact .head remark (.head exchanged (.single permitted))

/-- What both profile documents are read as. -/
def pairedProfile : Profile where
  weights := .ofList [("alu_logic", 1), ("load", 2)]
  immediates :=
    { arithmetic :=
        { small := 1, boundary := 0, medium := 0, randomFull := 0, specialPattern := 0
          boundaryValues := [], specialValues := [-1] }
      memory :=
        { nearZero := 1, smallRange := 0, midRange := 0, farRange := 0
          small := ⟨4, 8⟩, mid := ⟨64, 128⟩, far := ⟨256, 512⟩ }
      upper := { symbolicFraction := 0, symbolicBases := [] } }
  branches :=
    { near := 1, mid := 0, far := 0, nearMaxBytes := 16, midMaxBytes := 64, farMaxBytes := 256
      allowBackward := true }
  hazards := { rawDependency := 0, wawRepeat := 0, loadUse := 0 }
  registers := { stackBase := 0, linkInJump := 0 }
  maxBackward := 1

/-- The members that a record must have. -/
def luiMembers : List (String × Json) :=
  [ ("mnemonic", .text "LUI"), ("format", .text "U"), ("category", .text "upper"),
    ("opcode", .text "0x37"), ("operand_pattern", .array [.text "rd", .text "imm20"]) ]

/-- A catalog document in which `ADDI` comes before this record. -/
def catalogDocument (record : Json) : Json :=
  .array
    [ fields [ ("mnemonic", .text "ADDI"), ("format", .text "I"), ("category", .text "alu"),
        ("opcode", int 19), ("funct3", int 0),
        ("operand_pattern", .array [.text "rd", .text "rs1", .text "imm"]) ],
      record ]

/-- With a function field that holds only blanks. -/
def longCatalog : Json := catalogDocument (fields (luiMembers ++ [("funct7", .text "\t")]))

/-- Without the field, and with the other members in the opposite order. -/
def shortCatalog : Json := catalogDocument (fields luiMembers.reverse)

theorem longCatalog_rewrites : ReflTransGen Catalog.Rewrites longCatalog shortCatalog := by
  have blank : Text.Blank "\t".toList := FieldBits.ofText?_eq_absent_iff.1 (by decide +kernel)
  have removed : Record.Rewrites (fields (luiMembers ++ [("funct7", .text "\t")]))
      (fields luiMembers) :=
    @Json.Rewrites.remove _ _ _ luiMembers [] ⟨"funct7", _, _⟩ _ (.tail _ (.head _))
      (.inr ⟨"\t", rfl, blank⟩)
  have reversed : Record.Rewrites (fields luiMembers) (fields luiMembers.reverse) :=
    .permute luiMembers.reverse_perm.symm
  exact .head (@Json.Itemwise.item _ [_] [] _ _ removed)
    (.single (@Json.Itemwise.item _ [_] [] _ _ reversed))

/-- What both catalog documents are read as. -/
def pairedCatalog : Catalog where
  records :=
    [ .addi,
      { mnemonic := "LUI", format := .u, category := .upper, opcode := 0x37
        pattern := [.rd, .imm20] } ]

theorem documents_load_by_content_paired :
    (Profile.ofText shortProfile.pretty = .ok pairedProfile ∧
      Profile.ofText longProfile.pretty = .ok pairedProfile) ∧
    Catalog.ofText longCatalog.pretty = .ok pairedCatalog ∧
      Catalog.ofText shortCatalog.pretty = .ok pairedCatalog := by
  have writable : Json.Writable shortProfile ∧ Json.Writable longProfile := by
    simp [shortProfile, longProfile, profileDocument]
  have listed : Json.Writable longCatalog ∧ Json.Writable shortCatalog := by
    simp [longCatalog, shortCatalog, catalogDocument, luiMembers]
  have profile : Profile.ofText shortProfile.pretty = .ok pairedProfile := by
    rw [Profile.ofText_eq_ok_iff, Json.document_pretty _ writable.1]
    decide +kernel
  have catalog : Catalog.ofText longCatalog.pretty = .ok pairedCatalog := by
    rw [Catalog.ofText_eq_ok_iff]
    refine ⟨pairedCatalog.records, ?_, by decide +kernel⟩
    rw [Json.document_pretty _ listed.1]
    decide +kernel
  obtain ⟨-, profiles⟩ := documents_load_by_content.1 _ _ profile
  obtain ⟨-, catalogs⟩ := documents_load_by_content.2 _ _ catalog
  exact ⟨⟨profile, profiles _ _ _ writable.1.spells_pretty shortProfile_rewrites
      writable.2.spells_pretty⟩,
    catalog, catalogs _ _ _ listed.1.spells_pretty longCatalog_rewrites listed.2.spells_pretty⟩

end Rv32Stimulus
