import BinaryRecord.Proofs.Decoder.Slots
import BinaryRecord.Proofs.Layout.Totals
import BinaryRecord.Unpacking

/-!
# Unpacking by slots

A buffer of the size of a record fills every slot, so unpacking it cannot fail.
-/

set_option autoImplicit false

namespace BinaryRecord

private theorem mapM_id_map_ok {ε α : Type} (values : List α) :
    (values.map Except.ok).mapM id = (Except.ok values : Except ε (List α)) := by
  induction values with
  | nil => rfl
  | cons value others othersIH =>
      rw [List.map_cons, List.mapM_cons, othersIH]
      rfl

namespace Layout

theorem items_decoder_of_le {layout : Layout} {buffer : Bytes}
    (enough : Slot.widthSum layout.slots ≤ buffer.length) :
    (layout.decoder buffer).items = (Slot.readAll layout.order layout.slots buffer).map .ok := by
  rw [items_decoder]
  exact Slot.decodeAll_of_le layout.order 0 (fun _ member => sound_of_mem_slots member) enough

theorem unpack_of_length {layout : Layout} {buffer : Bytes} (exact : layout.Exact)
    (full : buffer.length = layout.size) :
    layout.unpack buffer = .ok (Slot.readAll layout.order layout.slots buffer) := by
  have enough : Slot.widthSum layout.slots ≤ buffer.length := by
    rw [full, exact.size]
    exact Nat.le_refl _
  rw [unpack, if_pos full, items_decoder_of_le enough, mapM_id_map_ok]

theorem unpack_of_length_ne {layout : Layout} {buffer : Bytes}
    (misfit : buffer.length ≠ layout.size) :
    layout.unpack buffer = .error (.sizeMismatch layout.size buffer.length) := by
  rw [unpack, if_neg misfit]

theorem length_of_unpack {layout : Layout} {buffer : Bytes} {values : List Value}
    (unpacked : layout.unpack buffer = .ok values) : buffer.length = layout.size := by
  apply Decidable.byContradiction
  intro misfit
  cases (unpack_of_length_ne misfit).symm.trans unpacked

end Layout

end BinaryRecord
