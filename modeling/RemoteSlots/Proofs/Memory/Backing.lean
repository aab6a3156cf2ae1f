import RemoteSlots.Fabric.Loopback.Basic
import RemoteSlots.Proofs.Memory.Basic

/-!
This module contains the memory behind a region: which block an extent describes, and which words of it an
access by address changes.
-/

namespace RemoteSlots

def lastPut (puts : List (UInt32 × Nat)) (i : Nat) : Option UInt32 :=
  (puts.filter (·.2 = i)).getLast?.map (·.1)

@[simp]
theorem lastPut_nil (i : Nat) : lastPut [] i = none := rfl

theorem lastPut_append (puts puts' : List (UInt32 × Nat)) (i : Nat) :
    lastPut (puts ++ puts') i = (lastPut puts' i).or (lastPut puts i) := by
  unfold lastPut
  rw [List.filter_append, List.getLast?_append]
  cases (puts'.filter (·.2 = i)).getLast? <;> rfl

theorem lastPut_zipIdx (words : List UInt32) (start i : Nat) :
    lastPut (words.zipIdx start) i = if start ≤ i then words[i - start]? else none := by
  induction words generalizing start with
  | nil => simp
  | cons word words ih =>
    rw [List.zipIdx_cons, ← List.singleton_append, lastPut_append, ih]
    by_cases heq : start = i
    · subst heq
      rw [if_neg (Nat.not_succ_le_self start)]
      simp [lastPut]
    · by_cases hle : start ≤ i
      · have hlt : start + 1 ≤ i := by omega
        have hsub : i - start = i - (start + 1) + 1 := by omega
        simp [lastPut, heq, hle, hlt, hsub]
      · have hlt : ¬start + 1 ≤ i := by omega
        simp [lastPut, heq, hle, hlt]

namespace Memory

/--
Whether an extent describes the block that it names.
-/
structure Backs (memory : Memory) (extent : Extent) : Prop where
  base : memory.base extent.block = extent.address
  length : memory.length extent.block = extent.length
  mapped : extent.length ≤ memory.mapped extent.block
  bound : extent.address + extent.length ≤ addressLimit

namespace Backs

variable {memory : Memory} {extent : Extent}

theorem of_block_eq {memory' : Memory} (h : memory.Backs extent)
    (hblock : memory'.blocks[extent.block]? = memory.blocks[extent.block]?) : memory'.Backs extent := by
  refine ⟨?_, ?_, ?_, h.bound⟩
  · unfold Memory.base
    rw [hblock]
    exact h.base
  · unfold Memory.length
    rw [hblock]
    exact h.length
  · unfold Memory.mapped
    rw [hblock]
    exact h.mapped

theorem modify (h : memory.Backs extent) (b : BlockId) {f : Block → Block}
    (hf : ∀ block, (f block).base = block.base ∧ (f block).length = block.length ∧
      (f block).mapped = block.mapped) :
    Backs { memory with blocks := memory.blocks.modify b f } extent := by
  obtain ⟨hbase, hlength, hmapped, hbound⟩ := h
  by_cases hb : b = extent.block
  · subst hb
    rcases hblock : memory.blocks[extent.block]? with _ | block
    · refine ⟨?_, ?_, ?_, hbound⟩ <;> simp_all [Memory.base, Memory.length, Memory.mapped]
    · refine ⟨?_, ?_, ?_, hbound⟩ <;> simp_all [Memory.base, Memory.length, Memory.mapped, Array.getElem?_modify]
  · refine ⟨?_, ?_, ?_, hbound⟩ <;> simp_all [Memory.base, Memory.length, Memory.mapped, Array.getElem?_modify]

theorem storeAt (h : memory.Backs extent) (b : BlockId) (address : Nat) (words : List UInt32) :
    (memory.storeAt b address words).Backs extent :=
  h.modify b fun _ => ⟨Block.base_storeBelow .., Block.length_storeBelow .., Block.mapped_storeBelow ..⟩

theorem store (h : memory.Backs extent) (b : BlockId) (start : Nat) (words : List UInt32) :
    (memory.store b start words).Backs extent :=
  h.modify b fun _ => ⟨Block.base_storeBelow .., Block.length_storeBelow .., Block.mapped_storeBelow ..⟩

theorem clear (h : memory.Backs extent) (b : BlockId) : (memory.clear b).Backs extent :=
  h.modify b fun _ => ⟨rfl, rfl, rfl⟩

end Backs

theorem word_store_front {memory : Memory} {b : BlockId} (h : 16 ≤ memory.length b) {words : List UInt32}
    (hwords : words.length = 4) (i : Nat) :
    (memory.store b 0 words).word b i = if i < 4 then words[i]?.getD 0 else memory.word b i := by
  rw [word_store, hwords, Nat.sub_zero]
  by_cases hi : i < 4
  · rw [if_pos hi, if_pos ⟨rfl, Nat.zero_le i, hi, by omega⟩]
  · rw [if_neg hi, if_neg (fun hin => hi hin.2.2.1)]

theorem load_front {memory : Memory} {b : BlockId} {count : Nat} (h : 4 * count ≤ memory.length b) :
    memory.load b 0 count = (List.range count).map (memory.word b) := by
  have hsize : min (0 + count) (memory.length b / 4) - 0 = count := by omega
  apply List.ext_getElem?
  intro i
  rw [getElem?_load, hsize, Nat.zero_add, List.getElem?_map]
  by_cases hi : i < count
  · rw [if_pos hi, List.getElem?_range hi]
    rfl
  · rw [if_neg hi, List.getElem?_eq_none (by simpa using hi)]
    rfl

theorem word_storeAt_of_covers {memory : Memory} {registration : Registration} {address : Nat}
    {words : List UInt32} (h : memory.Backs registration.extent)
    (hcovers : registration.covers address (4 * words.length)) (i : Nat) :
    (memory.storeAt registration.extent.block address words).word registration.extent.block i =
      (lastPut (words.zipIdx ((address - registration.extent.address) / 4)) i).getD
        (memory.word registration.extent.block i) := by
  have hindex : memory.indexOf registration.extent.block address =
      (address - registration.extent.address) / 4 := by rw [indexOf, h.base]
  have hbound : (address - registration.extent.address) / 4 + words.length ≤
      memory.mapped registration.extent.block / 4 := by
    have hmapped := h.mapped
    simp only [Registration.covers, Bool.and_eq_true, decide_eq_true_eq] at hcovers
    omega
  rw [word_storeAt, lastPut_zipIdx, hindex]
  by_cases hle : (address - registration.extent.address) / 4 ≤ i
  · rw [if_pos hle]
    by_cases hlt : i - (address - registration.extent.address) / 4 < words.length
    · rw [if_pos ⟨rfl, hle, hlt, by omega⟩, List.getElem?_eq_getElem hlt]
      rfl
    · rw [if_neg (fun hin => hlt hin.2.2.1), List.getElem?_eq_none (Nat.not_lt.mp hlt)]
      rfl
  · rw [if_neg hle, if_neg (fun hin => hle hin.2.1)]
    rfl

end Memory

end RemoteSlots
