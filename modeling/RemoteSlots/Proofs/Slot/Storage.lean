import RemoteSlots.Proofs.Memory.Basic
import RemoteSlots.Slot.Storage

/-!
This module contains the laws of reading a storage after it was written or zeroed.
-/

namespace RemoteSlots

namespace Storage

variable {layout : Layout} {memory : Memory} {storage : Storage layout}

def Fits (memory : Memory) (storage : Storage layout) : Prop :=
  storage.capacity * layout.words ≤ memory.length storage.block / 4

-- Where one slot ends the next one starts.
theorem mul_words_add_le {index other words t : Nat} (h : index < other) (ht : t < words) :
    index * words + t < other * words := by
  have : (index + 1) * words ≤ other * words := Nat.mul_le_mul_right words h
  rw [Nat.succ_mul] at this
  omega

theorem get?_eq_ofFn (hfits : storage.Fits memory) {index : Nat} (hindex : index < storage.capacity) :
    storage.get? memory index =
      some ⟨Vector.ofFn fun t => memory.word storage.block (index * layout.words + t.val)⟩ := by
  unfold get?
  rw [if_pos hindex, Slot.load]
  congr 3
  funext t
  have hend := mul_words_add_le hindex t.isLt
  have hsize : storage.capacity * layout.words ≤ memory.length storage.block / 4 := hfits
  rw [Memory.getElem?_load, if_pos (by omega)]
  rfl

theorem get?_eq_none {index : Nat} (hindex : storage.capacity ≤ index) :
    storage.get? memory index = none := by
  unfold get?
  rw [if_neg (by omega)]

theorem index_lt_of_get? {index : Nat} {slot : Slot layout}
    (h : storage.get? memory index = some slot) : index < storage.capacity := by
  unfold get? at h
  split at h
  · assumption
  · contradiction

theorem Fits.put {index : Nat} {slot : Slot layout} {memory' : Memory} (hfits : storage.Fits memory)
    (hput : storage.put memory index slot = .ok memory') : storage.Fits memory' := by
  unfold Storage.put at hput
  split at hput
  · injection hput with hput
    subst hput
    simpa [Fits] using hfits
  · contradiction

theorem Fits.clear (hfits : storage.Fits memory) : storage.Fits (storage.clear memory) := by
  simpa [Fits, Storage.clear] using hfits

theorem put_eq_ok (memory : Memory) {index : Nat} (hindex : index < storage.capacity)
    (slot : Slot layout) :
    storage.put memory index slot =
      .ok (memory.store storage.block (index * layout.words) slot.toWords) := by
  unfold put
  rw [if_pos hindex]

theorem get?_put {index other : Nat} {slot : Slot layout} {memory' : Memory}
    (hfits : storage.Fits memory) (hput : storage.put memory index slot = .ok memory') :
    storage.get? memory' other = if other = index then some slot else storage.get? memory other := by
  have hfits' := hfits.put hput
  have hindex : index < storage.capacity := by
    unfold put at hput
    split at hput
    · assumption
    · contradiction
  rw [put_eq_ok memory hindex] at hput
  injection hput with hput
  subst hput
  have hsize : storage.capacity * layout.words ≤ memory.length storage.block / 4 := hfits
  by_cases hother : other < storage.capacity
  · rw [get?_eq_ofFn hfits' hother]
    split
    · next heq =>
      subst heq
      refine congrArg some (Eq.trans ?_ (Slot.load_toWords slot))
      rw [Slot.load]
      congr 2
      funext t
      have hend := mul_words_add_le hother t.isLt
      rw [Memory.word_store, if_pos]
      · rw [Nat.add_sub_cancel_left]
      · rw [Nat.add_sub_cancel_left, Slot.length_toWords]
        exact ⟨rfl, by omega, t.isLt, by omega⟩
    · next hne =>
      rw [get?_eq_ofFn hfits hother]
      congr 3
      funext t
      rw [Memory.word_store, if_neg]
      rintro ⟨-, hle, hlt, -⟩
      rw [Slot.length_toWords] at hlt
      rcases Nat.lt_or_gt_of_ne hne with hlo | hhi
      · have := mul_words_add_le hlo t.isLt
        omega
      · have hnext : (index + 1) * layout.words ≤ other * layout.words :=
          Nat.mul_le_mul_right layout.words hhi
        rw [Nat.succ_mul] at hnext
        omega
  · rw [get?_eq_none (by omega), get?_eq_none (by omega), if_neg (by omega)]

theorem get?_clear (hfits : storage.Fits memory) {index : Nat} (hindex : index < storage.capacity) :
    storage.get? (storage.clear memory) index = some .zero := by
  rw [get?_eq_ofFn hfits.clear hindex, Slot.zero, Slot.load]
  congr 3
  funext t
  have hend := mul_words_add_le hindex t.isLt
  have hsize : storage.capacity * layout.words ≤ memory.length storage.block / 4 := hfits
  rw [clear, Memory.word_clear, if_pos ⟨rfl, by omega⟩]
  rfl

/--
Whether all slots of a storage are zero.
-/
def IsZero (memory : Memory) (storage : Storage layout) : Prop :=
  ∀ index, index < storage.capacity → storage.get? memory index = some .zero

theorem allocate_spec {pages : PagePolicy} {capacity : Nat} {memory' : Memory}
    (h : allocate memory pages layout capacity = .ok (storage, memory')) :
    storage.capacity = capacity ∧
      Memory.Fresh memory memory' pages (capacity * layout.size) storage.block := by
  unfold allocate byteSize at h
  split at h
  · contradiction
  · next size hsize =>
    split at hsize
    · contradiction
    · injection hsize with hsize
      subst hsize
      split at h
      · contradiction
      · next block memory hmap =>
        simp only [Except.ok.injEq, Prod.mk.injEq] at h
        obtain ⟨rfl, rfl⟩ := h
        exact ⟨rfl, Memory.allocate_fresh hmap⟩

theorem allocate_fits {pages : PagePolicy} {capacity : Nat} {memory' : Memory}
    (h : allocate memory pages layout capacity = .ok (storage, memory')) : storage.Fits memory' := by
  obtain ⟨rfl, hfresh⟩ := allocate_spec h
  unfold Fits
  apply Nat.le_of_eq
  rw [hfresh.length_eq, Layout.size, Nat.mul_left_comm, Nat.mul_div_cancel_left _ (by omega)]

theorem allocate_isZero {pages : PagePolicy} {capacity : Nat} {memory' : Memory}
    (h : allocate memory pages layout capacity = .ok (storage, memory')) : storage.IsZero memory' := by
  intro index hindex
  obtain ⟨rfl, hfresh⟩ := allocate_spec h
  rw [get?_eq_ofFn (allocate_fits h) hindex, Slot.zero, Slot.load]
  congr 3
  funext t
  rw [hfresh.word_eq_zero]
  rfl

end Storage

end RemoteSlots
