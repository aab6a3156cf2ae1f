import RemoteSlots.Memory.Basic
import RemoteSlots.Fabric.Request

/-!
This module shows which words of memory an access by address means: the extent that allows the access may be a part of
a block, and need not end with a whole word.
-/

namespace RemoteSlots

namespace Memory

structure Hosts (memory : Memory) (extent : Extent) : Prop where
  base : memory.base extent.block % 4 = 0
  aligned : extent.address % 4 = 0
  start : memory.base extent.block ≤ extent.address
  stop : extent.address + extent.length ≤ memory.base extent.block + memory.mapped extent.block
  bound : extent.address + extent.length < addressLimit

/--
Whether some words from an address on are whole words of an extent.
-/
structure Within (extent : Extent) (address words : Nat) : Prop where
  aligned : address % 4 = 0
  start : extent.address ≤ address
  stop : address + 4 * words ≤ extent.address + extent.length

def indexIn (memory : Memory) (extent : Extent) (index : Nat) : Nat :=
  memory.indexOf extent.block extent.address + index

def wordIn (memory : Memory) (extent : Extent) (index : Nat) : UInt32 :=
  memory.word extent.block (memory.indexIn extent index)

variable {memory : Memory} {extent : Extent} {address : Nat}

theorem Within.index_add_le {words : Nat} (h : Within extent address words) :
    (address - extent.address) / 4 + words ≤ extent.length / 4 := by
  obtain ⟨haligned, hstart, hstop⟩ := h
  omega

theorem Hosts.indexIn_add (h : memory.Hosts extent) {words : Nat} (hwithin : Within extent address words) (j : Nat) :
    memory.indexIn extent ((address - extent.address) / 4 + j) = memory.indexOf extent.block address + j := by
  obtain ⟨hbase, haligned, hstart, -⟩ := h
  obtain ⟨haddress, hle, -⟩ := hwithin
  unfold indexIn indexOf
  omega

theorem Hosts.indexOf_add_le (h : memory.Hosts extent) {words : Nat} (hwithin : Within extent address words) :
    memory.indexOf extent.block address + words ≤ memory.mapped extent.block / 4 := by
  obtain ⟨hbase, haligned, hstart, hstop, -⟩ := h
  obtain ⟨haddress, hle, hend⟩ := hwithin
  unfold indexOf
  omega

theorem base_storeAt (memory : Memory) (b c : BlockId) (address : Nat) (words : List UInt32) :
    (memory.storeAt b address words).base c = memory.base c := by
  by_cases hbc : b = c
  · subst hbc
    rcases hblock : memory.blocks[b]? with _ | block <;> simp [base, storeAt, Array.getElem?_modify, hblock]
  · simp [base, storeAt, Array.getElem?_modify, hbc]

theorem Hosts.word_storeAt (h : memory.Hosts extent) {words : List UInt32}
    (hwithin : Within extent address words.length) (c : BlockId) (i : Nat) :
    (memory.storeAt extent.block address words).word c i =
      if c = extent.block ∧ memory.indexOf extent.block address ≤ i then
        words[i - memory.indexOf extent.block address]?.getD (memory.word c i)
      else memory.word c i := by
  -- The words fit on the pages of the block, so that none is cut off.
  have hroom := h.indexOf_add_le hwithin
  rw [Memory.word_storeAt]
  by_cases hc : c = extent.block
  · subst hc
    by_cases hle : memory.indexOf extent.block address ≤ i
    · rw [if_pos (show _ ∧ _ from ⟨rfl, hle⟩)]
      by_cases hlt : i - memory.indexOf extent.block address < words.length
      · rw [if_pos ⟨rfl, hle, hlt, by omega⟩, List.getElem?_eq_getElem hlt]
        rfl
      · rw [if_neg fun hin => hlt hin.2.2.1, List.getElem?_eq_none (Nat.not_lt.mp hlt)]
        rfl
    · rw [if_neg fun hin => hle hin.2.1, if_neg fun hin => hle hin.2]
  · rw [if_neg fun hin => hc hin.1.symm, if_neg fun hin => hc hin.1]

theorem Hosts.wordIn_storeAt (h : memory.Hosts extent) {words : List UInt32}
    (hwithin : Within extent address words.length) {j : Nat} (hj : j < words.length) :
    (memory.storeAt extent.block address words).wordIn extent ((address - extent.address) / 4 + j) = words[j] := by
  have hindex : (memory.storeAt extent.block address words).indexIn extent ((address - extent.address) / 4 + j) =
      memory.indexIn extent ((address - extent.address) / 4 + j) := by
    simp only [indexIn, indexOf, base_storeAt]
  rw [wordIn, hindex, h.indexIn_add hwithin, h.word_storeAt hwithin, if_pos ⟨rfl, Nat.le_add_right ..⟩,
    Nat.add_sub_cancel_left, List.getElem?_eq_getElem hj]
  rfl

theorem Hosts.word_storeAt_of_ne (h : memory.Hosts extent) {words : List UInt32}
    (hwithin : Within extent address words.length) {c : BlockId} {i : Nat}
    (hother : ∀ j < words.length,
      ¬(c = extent.block ∧ i = memory.indexIn extent ((address - extent.address) / 4 + j))) :
    (memory.storeAt extent.block address words).word c i = memory.word c i := by
  rw [h.word_storeAt hwithin]
  split
  · next hin =>
    obtain ⟨hc, hle⟩ := hin
    rw [List.getElem?_eq_none]
    · rfl
    · refine Nat.not_lt.mp fun hlt => hother _ hlt ⟨hc, ?_⟩
      rw [h.indexIn_add hwithin, Nat.add_sub_cancel' hle]
  · rfl

theorem Hosts.loadAt_eq (h : memory.Hosts extent) {words : Nat} (hwithin : Within extent address words) :
    memory.loadAt extent.block address words =
      (List.range words).map fun j => memory.wordIn extent ((address - extent.address) / 4 + j) := by
  have hroom := h.indexOf_add_le hwithin
  simp only [wordIn, h.indexIn_add hwithin]
  unfold loadAt word
  unfold mapped at hroom
  rcases hblock : memory.blocks[extent.block]? with _ | block
  · simp only [hblock] at hroom
    obtain rfl : words = 0 := by omega
    rfl
  · simp only [hblock] at hroom
    change (List.range' _ (min _ (block.mapped / 4) - _)).map block.word = _
    rw [Nat.min_eq_left hroom, Nat.add_sub_cancel_left, List.range'_eq_map_range, List.map_map]
    rfl

end Memory

end RemoteSlots
