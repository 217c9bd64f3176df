/-
# Proofs.Control.Label -- one name for each target

Different positions have different names (`labelName_injective`), and the label table of a
sequence names exactly the positions that some instruction targets (`find?_labelTable`).
-/
import Rv32Stimulus.Control.Label
import Rv32Stimulus.Proofs.Ordered.Table
import Rv32Stimulus.Proofs.Text.Reading

namespace Rv32Stimulus

set_option autoImplicit false

theorem labelName_injective {left right : Nat} (same : labelName left = labelName right) :
    left = right := by
  unfold labelName at same
  exact Text.nat_injective ((String.append_right_inj "L").1 same)

theorem find?_labelTable (sequence : List Instruction) (position : Nat) :
    (labelTable sequence).find? position =
      if ∃ inst ∈ sequence, inst.target = some position then some (labelName position) else none := by
  unfold labelTable
  rw [Table.find?_ofList_map]
  simp only [List.mem_filterMap]

end Rv32Stimulus
