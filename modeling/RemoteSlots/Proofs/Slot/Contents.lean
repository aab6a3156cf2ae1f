import RemoteSlots.Proofs.Slot.Placement

/-!
This module shows that one pass over a storage meets the slots that stand at its indices, which are single words in
the storage of an append log.
-/

namespace RemoteSlots

namespace Slot

theorem isEmpty_eq_loggedValue (slot : Slot .append) : slot.isEmpty = (slot.loggedValue == 0) := by
  obtain ⟨⟨⟨list⟩, hsize⟩⟩ := slot
  obtain ⟨word, rfl⟩ := List.length_eq_one_iff.mp hsize
  exact Bool.and_true _

end Slot

namespace Storage

variable {layout : Layout} {memory : Memory}

section Slots

variable {storage : Storage layout}

theorem size_words (h : memory.length storage.block = storage.capacity * layout.size) :
    memory.length storage.block / 4 = storage.capacity * layout.words := by
  rw [h, Layout.size, Nat.mul_left_comm, Nat.mul_div_cancel_left _ (by omega)]

theorem length_contents (h : memory.length storage.block = storage.capacity * layout.size) :
    (memory.contents storage.block).length = storage.capacity * layout.words := by
  rw [Memory.contents, ← size_words h]
  exact Memory.length_load (by omega)

theorem length_slots (h : memory.length storage.block = storage.capacity * layout.size) :
    (storage.slots memory).length = storage.capacity := by
  rw [slots, List.length_map, length_pieces, length_contents h, Nat.mul_div_cancel _ layout.words_pos]

theorem getElem?_slots (h : memory.length storage.block = storage.capacity * layout.size) (index : Nat) :
    (storage.slots memory)[index]? = storage.get? memory index := by
  simp only [slots, length_contents h, Nat.mul_div_cancel _ layout.words_pos, List.getElem?_map, getElem?_pieces]
  unfold get?
  split
  · next hindex =>
    refine congrArg some (congrArg Slot.load (List.ext_getElem? fun t => ?_))
    simp only [List.getElem?_take, List.getElem?_drop, Memory.contents, Memory.getElem?_load, size_words h]
    by_cases ht : t < layout.words
    · have hend := mul_words_add_le hindex ht
      rw [if_pos ht, if_pos (by omega), if_pos (by omega), Nat.zero_add]
    · rw [if_neg ht, if_neg (by omega)]
  · rfl

end Slots

theorem values_slots {storage : Storage .append}
    (h : memory.length storage.block = storage.capacity * Layout.append.size) :
    (storage.slots memory).map (·.loggedValue) = (List.range storage.capacity).map (memory.word storage.block) := by
  have hfits : storage.Fits memory := Nat.le_of_eq (size_words h).symm
  apply List.ext_getElem?
  intro index
  rw [List.getElem?_map, List.getElem?_map, getElem?_slots h]
  by_cases hindex : index < storage.capacity
  · simp only [get?_eq_ofFn hfits hindex, List.getElem?_range hindex, Option.map_some, Layout.words, Nat.mul_one]
    exact congrArg some (Vector.getElem_ofFn Nat.zero_lt_one)
  · rw [get?_eq_none (by omega), List.getElem?_eq_none (by simpa using hindex)]
    rfl

end Storage

end RemoteSlots
