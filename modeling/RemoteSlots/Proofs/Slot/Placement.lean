import RemoteSlots.Proofs.Memory.Housing
import RemoteSlots.Proofs.Slot.Storage

/-!
This module shows that a slot lies at the address where a peer looks for it: reading and writing its words there
is reading and writing the slot.
-/

namespace RemoteSlots

theorem Slot.toWords_load {layout : Layout} {words : List UInt32} (h : words.length = layout.words) :
    (Slot.load words : Slot layout).toWords = words := by
  apply List.ext_getElem?
  intro i
  rw [Slot.getElem?_toWords_load]
  split
  · next hi => rw [List.getElem?_eq_getElem (by omega), Option.getD_some]
  · next hi => rw [List.getElem?_eq_none (by omega)]

namespace Storage

variable {layout : Layout} {memory : Memory} {storage : Storage layout} {extent : Extent}

/--
Whether the slots of a storage fill an extent exactly.
-/
structure Fills (storage : Storage layout) (extent : Extent) : Prop where
  block : storage.block = extent.block
  length : extent.length = storage.capacity * layout.size

namespace Fills

theorem fits (hfills : storage.Fills extent) (h : memory.Backs extent) : storage.Fits memory := by
  unfold Fits
  rw [hfills.block, h.length, hfills.length, Layout.size]
  apply Nat.le_of_eq
  rw [Nat.mul_left_comm, Nat.mul_div_cancel_left _ (by omega)]

theorem end_le (hfills : storage.Fills extent) {index : Nat} (hindex : index < storage.capacity) :
    4 * (index * layout.words + layout.words) ≤ extent.length := by
  rw [hfills.length, Layout.size, ← Nat.succ_mul, Nat.mul_left_comm storage.capacity]
  exact Nat.mul_le_mul_left 4 (Nat.mul_le_mul_right layout.words hindex)

theorem address_eq (layout : Layout) (address index : Nat) :
    address + index * layout.size = address + 4 * (index * layout.words) := by
  rw [Layout.size, Nat.mul_left_comm]

theorem loadAt_slot (hfills : storage.Fills extent) (h : memory.Backs extent) {index : Nat} {slot : Slot layout}
    (hslot : storage.get? memory index = some slot) :
    memory.loadAt extent.block (extent.address + index * layout.size) layout.words = slot.toWords := by
  have hindex := index_lt_of_get? hslot
  have hend := hfills.end_le hindex
  rw [address_eq, Memory.loadAt_eq_load h hend]
  unfold get? at hslot
  rw [if_pos hindex, hfills.block] at hslot
  injection hslot with hslot
  have hlength : (memory.load extent.block (index * layout.words) layout.words).length = layout.words := by
    apply Memory.length_load
    rw [h.length]
    omega
  rw [← hslot, Slot.toWords_load hlength]

theorem storeAt_slot (hfills : storage.Fills extent) (h : memory.Backs extent) {index : Nat}
    (hindex : index < storage.capacity) (slot : Slot layout) :
    storage.put memory index slot =
      .ok (memory.storeAt extent.block (extent.address + index * layout.size) slot.toWords) := by
  have hend : 4 * (index * layout.words + slot.toWords.length) ≤ extent.length := by
    rw [Slot.length_toWords]
    exact hfills.end_le hindex
  rw [put_eq_ok memory hindex, hfills.block, address_eq, Memory.storeAt_eq_store h hend]

end Fills

end Storage

end RemoteSlots
