import Mathlib.Data.List.Induction
import RemoteSlots.Proofs.Checksum.Injective
import RemoteSlots.Proofs.Slot.Storage
import RemoteSlots.Store.Lookup

/-!
This module contains the proof that a lookup never returns the value of another key, whatever entries
were written into whichever candidate slots before. A slot holds the entry that was written to it last,
and the checksum in it tells whose entry that is, because different keys have different checksums.
-/

namespace RemoteSlots

inductive EntryChange where
  -- Write a value under a key, with the checksum of the key, into candidate `n` of the key.
  | put (key value : UInt32) (n : UInt8)
  -- Zero all slots.
  | clear
  deriving DecidableEq, Repr

namespace Storage

variable {memory : Memory} {storage : Storage .keyValue}

def change (storage : Storage .keyValue) (memory : Memory) : EntryChange → Memory
  | .put key value n =>
    match storage.put memory (probeIndex key n storage.capacity) (.entry (keyChecksum key) value) with
    | .ok memory => memory
    | .error _ => memory
  | .clear => storage.clear memory

def replay (storage : Storage .keyValue) (memory : Memory) (history : List EntryChange) : Memory :=
  history.foldl storage.change memory

@[simp]
theorem replay_nil : storage.replay memory [] = memory := rfl

@[simp]
theorem replay_concat (history : List EntryChange) (change : EntryChange) :
    storage.replay memory (history ++ [change]) =
      storage.change (storage.replay memory history) change := by
  simp [replay]

/--
The key and the value of the last entry that a history wrote to slot `index` since its last clear.
-/
def lastWritten (capacity index : Nat) (history : List EntryChange) : Option (UInt32 × UInt32) :=
  history.foldl after none
where
  after (last : Option (UInt32 × UInt32)) : EntryChange → Option (UInt32 × UInt32)
    | .put key value n => if probeIndex key n capacity = index then some (key, value) else last
    | .clear => none

@[simp]
theorem lastWritten_concat (capacity index : Nat) (history : List EntryChange) (change : EntryChange) :
    lastWritten capacity index (history ++ [change]) =
      lastWritten.after capacity index (lastWritten capacity index history) change := by
  simp [lastWritten]

def slotOf : Option (UInt32 × UInt32) → Slot .keyValue
  | some (key, value) => .entry (keyChecksum key) value
  | none => .zero

theorem Fits.change (hfits : storage.Fits memory) (change : EntryChange) :
    storage.Fits (storage.change memory change) := by
  cases change with
  | clear => exact hfits.clear
  | put key value n =>
    unfold Storage.change
    dsimp only
    split
    · next hput => exact hfits.put hput
    · exact hfits

theorem Fits.replay (hfits : storage.Fits memory) (history : List EntryChange) :
    storage.Fits (storage.replay memory history) := by
  induction history using List.reverseRecOn with
  | nil => exact hfits
  | append_singleton history change ih =>
    rw [replay_concat]
    exact ih.change change

theorem get?_change_put (hfits : storage.Fits memory) {index : Nat} (hindex : index < storage.capacity)
    (key value : UInt32) (n : UInt8) :
    storage.get? (storage.change memory (.put key value n)) index =
      if probeIndex key n storage.capacity = index then some (slotOf (some (key, value)))
      else storage.get? memory index := by
  have hprobe : probeIndex key n storage.capacity < storage.capacity := probeIndex_lt key n (by omega)
  unfold Storage.change
  dsimp only
  rw [put_eq_ok memory hprobe]
  dsimp only
  rw [get?_put hfits (put_eq_ok memory hprobe _)]
  simp only [eq_comm (a := index)]
  rfl

theorem get?_change (hfits : storage.Fits memory) {index : Nat} (hindex : index < storage.capacity)
    {last : Option (UInt32 × UInt32)} (hlast : storage.get? memory index = some (slotOf last))
    (change : EntryChange) :
    storage.get? (storage.change memory change) index =
      some (slotOf (lastWritten.after storage.capacity index last change)) := by
  cases change with
  | clear => exact get?_clear hfits hindex
  | put key value n =>
    rw [get?_change_put hfits hindex, lastWritten.after]
    split
    · rfl
    · exact hlast

theorem get?_replay (hfits : storage.Fits memory) (hzero : storage.IsZero memory)
    (history : List EntryChange) {index : Nat} (hindex : index < storage.capacity) :
    storage.get? (storage.replay memory history) index =
      some (slotOf (lastWritten storage.capacity index history)) := by
  induction history using List.reverseRecOn with
  | nil => exact hzero index hindex
  | append_singleton history change ih =>
    rw [replay_concat, lastWritten_concat]
    exact get?_change (hfits.replay history) hindex ih change

theorem checksum_slotOf (key value : UInt32) : (slotOf (some (key, value))).checksum = keyChecksum key :=
  rfl

theorem value_slotOf_none : (slotOf none).value = 0 := by
  decide

theorem valueAt?_eq_some {checksum value : UInt32} {index found : Nat}
    (h : storage.valueAt? memory checksum index = some (found, value)) :
    found = index ∧ ∃ slot, storage.get? memory index = some slot ∧ slot.checksum = checksum ∧
      slot.value = value := by
  unfold valueAt? at h
  split at h
  · next slot hslot =>
    split at h
    · next hchecksum =>
      simp only [Option.some.injEq, Prod.mk.injEq] at h
      exact ⟨h.1.symm, slot, hslot, hchecksum, h.2⟩
    · contradiction
  · contradiction

theorem exists_probe_of_locate {key value : UInt32} {redundancy : UInt8} {found : Nat}
    (h : storage.locate memory key redundancy = some (found, value)) :
    ∃ n, n < redundancy ∧ found = probeIndex key n storage.capacity ∧
      storage.valueAt? memory (keyChecksum key) found = some (found, value) := by
  unfold locate at h
  obtain ⟨index, hmem, hvalue⟩ := List.exists_of_findSome?_eq_some h
  obtain ⟨rfl, -⟩ := valueAt?_eq_some hvalue
  obtain ⟨n, hn, rfl⟩ := List.mem_map.1 hmem
  exact ⟨n, mem_probes.1 hn, rfl, hvalue⟩

theorem lastWritten_of_valueAt? (hfits : storage.Fits memory) (hzero : storage.IsZero memory)
    {history : List EntryChange} {key value : UInt32} {index : Nat} (hvalue : value ≠ 0)
    (h : storage.valueAt? (storage.replay memory history) (keyChecksum key) index = some (index, value)) :
    lastWritten storage.capacity index history = some (key, value) := by
  obtain ⟨-, slot, hslot, hchecksum, rfl⟩ := valueAt?_eq_some h
  rw [get?_replay hfits hzero history (index_lt_of_get? hslot), Option.some.injEq] at hslot
  subst hslot
  cases hlast : lastWritten storage.capacity index history with
  | none =>
    rw [hlast, value_slotOf_none] at hvalue
    contradiction
  | some last =>
    rw [hlast, checksum_slotOf, keyChecksum_inj] at hchecksum
    rw [← hchecksum]
    rfl

theorem lastWritten_of_query_ne_zero (hfits : storage.Fits memory) (hzero : storage.IsZero memory)
    (history : List EntryChange) (key value : UInt32) (redundancy : UInt8)
    (hquery : storage.query (storage.replay memory history) key redundancy = value)
    (hvalue : value ≠ 0) :
    ∃ n, n < redundancy ∧
      lastWritten storage.capacity (probeIndex key n storage.capacity) history = some (key, value) := by
  unfold query at hquery
  cases hlocate : storage.locate (storage.replay memory history) key redundancy with
  | none =>
    rw [hlocate] at hquery
    exact absurd hquery.symm hvalue
  | some found =>
    rw [hlocate] at hquery
    have hlocate' : storage.locate (storage.replay memory history) key redundancy =
        some (found.1, value) := by
      rw [hlocate, ← hquery]
      rfl
    obtain ⟨n, hn, hindex, hfound⟩ := exists_probe_of_locate hlocate'
    refine ⟨n, hn, ?_⟩
    rw [← hindex]
    exact lastWritten_of_valueAt? hfits hzero hvalue hfound

-- Both keys have all of their candidates in the only two slots.
theorem lastWritten_of_query_shared_slots :
    ∃ memory, allocate .empty .standard .keyValue 2 = .ok ((⟨2, 0⟩ : Storage .keyValue), memory) ∧
      query (replay ⟨2, 0⟩ memory [.put 9 90 0, .put 7 70 1, .put 9 91 2]) ⟨2, 0⟩ 7 4 = 70 ∧
      ∃ n, n < 4 ∧
        lastWritten 2 (probeIndex 7 n 2) [.put 9 90 0, .put 7 70 1, .put 9 91 2] = some (7, 70) := by
  have hmemory : allocate .empty .standard .keyValue 2 = .ok ((⟨2, 0⟩ : Storage .keyValue),
      { blocks := #[.zeroed (2 ^ 46) 16 4096 .standard], mapper := default }) := by
    cbv
  refine ⟨_, hmemory, ?_⟩
  have hquery : query (replay ⟨2, 0⟩ { blocks := #[.zeroed (2 ^ 46) 16 4096 .standard], mapper := default }
      [.put 9 90 0, .put 7 70 1, .put 9 91 2]) ⟨2, 0⟩ 7 4 = 70 := by
    decide +kernel
  refine ⟨hquery, ?_⟩
  exact lastWritten_of_query_ne_zero (allocate_fits hmemory) (allocate_isZero hmemory) _ 7 70 4 hquery
    (by decide)

end Storage

end RemoteSlots
