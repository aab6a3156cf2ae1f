import RemoteSlots.Memory.Basic

/-!
This module contains the laws of mapping blocks of memory, and the frame of the operations on a block:
no operation moves, shrinks or grows a block.
-/

namespace RemoteSlots

namespace Memory

/--
What is known about a fresh block: its place, and that it fills whole pages below the end of the
address space that are not in use.
-/
structure Fresh (memory memory' : Memory) (pages : PagePolicy) (length : Nat) (block : BlockId) : Prop where
  block_eq : block = memory.blocks.size
  length_pos : 0 < length
  blocks_eq : ∃ base mapped, memory'.blocks = memory.blocks.push (.zeroed base length mapped pages) ∧
    base % 4 = 0 ∧ length ≤ mapped ∧ base + mapped ≤ addressLimit ∧
      ∀ old ∈ memory.blocks, old.live → old.base + old.mapped ≤ base ∨ base + mapped ≤ old.base

theorem allocate_fresh {memory memory' : Memory} {pages : PagePolicy} {length : Nat} {block : BlockId}
    (h : memory.allocate pages length = .ok (block, memory')) :
    Fresh memory memory' pages length block := by
  unfold allocate at h
  split at h
  · contradiction
  · next hlength =>
    split at h
    · contradiction
    · next count hcount =>
      dsimp only at h
      split at h
      · contradiction
      · split at h
        · contradiction
        · next base hplace =>
          simp only [Except.ok.injEq, Prod.mk.injEq] at h
          obtain ⟨rfl, rfl⟩ := h
          have haligned : base % (4 * 1024) = 0 := memory.mapper.aligned hplace
          exact ⟨rfl, by omega, base, _, rfl, by omega, (pagesFor?_eq_some hcount).1,
            memory.mapper.bounded hplace, memory.mapper.apart hplace⟩

namespace Fresh

variable {memory memory' : Memory} {pages : PagePolicy} {length : Nat} {block : BlockId}

theorem size_eq (h : Fresh memory memory' pages length block) :
    memory'.blocks.size = memory.blocks.size + 1 := by
  obtain ⟨base, mapped, hblocks, -⟩ := h.blocks_eq
  rw [hblocks, Array.size_push]

theorem getElem?_of_ne (h : Fresh memory memory' pages length block) {b : BlockId} (hb : b ≠ block) :
    memory'.blocks[b]? = memory.blocks[b]? := by
  obtain ⟨base, mapped, hblocks, -⟩ := h.blocks_eq
  rw [hblocks, Array.getElem?_push, if_neg (fun heq => hb (heq.trans h.block_eq.symm))]

theorem getElem?_self (h : Fresh memory memory' pages length block) :
    ∃ base mapped, memory'.blocks[block]? = some (.zeroed base length mapped pages) ∧
      base % 4 = 0 ∧ length ≤ mapped ∧ base + mapped ≤ addressLimit := by
  obtain ⟨base, mapped, hblocks, haligned, hle, hbound, -⟩ := h.blocks_eq
  refine ⟨base, mapped, ?_, haligned, hle, hbound⟩
  rw [hblocks, h.block_eq, Array.getElem?_push, if_pos rfl]

theorem length_eq (h : Fresh memory memory' pages length block) : memory'.length block = length := by
  obtain ⟨base, mapped, hblock, -⟩ := h.getElem?_self
  rw [Memory.length, hblock]
  rfl

theorem word_eq_zero (h : Fresh memory memory' pages length block) (i : Nat) :
    memory'.word block i = 0 := by
  obtain ⟨base, mapped, hblock, -⟩ := h.getElem?_self
  rw [word, hblock]
  exact Block.word_zeroed ..

end Fresh

@[simp]
theorem size_store (memory : Memory) (b : BlockId) (start : Nat) (words : List UInt32) :
    (memory.store b start words).blocks.size = memory.blocks.size :=
  Array.size_modify

@[simp]
theorem size_storeAt (memory : Memory) (b : BlockId) (address : Nat) (words : List UInt32) :
    (memory.storeAt b address words).blocks.size = memory.blocks.size :=
  Array.size_modify

@[simp]
theorem size_clear (memory : Memory) (b : BlockId) : (memory.clear b).blocks.size = memory.blocks.size :=
  Array.size_modify

theorem getElem?_store_of_ne {memory : Memory} {b c : BlockId} (h : b ≠ c) {start : Nat}
    {words : List UInt32} : (memory.store b start words).blocks[c]? = memory.blocks[c]? := by
  simp [store, Array.getElem?_modify, h]

theorem getElem?_storeAt_of_ne {memory : Memory} {b c : BlockId} (h : b ≠ c) {address : Nat}
    {words : List UInt32} : (memory.storeAt b address words).blocks[c]? = memory.blocks[c]? := by
  simp [storeAt, Array.getElem?_modify, h]

theorem getElem?_clear_of_ne {memory : Memory} {b c : BlockId} (h : b ≠ c) :
    (memory.clear b).blocks[c]? = memory.blocks[c]? := by
  simp [clear, Array.getElem?_modify, h]

theorem getElem?_unmap_of_ne {memory : Memory} {b c : BlockId} (h : b ≠ c) :
    (memory.unmap b).blocks[c]? = memory.blocks[c]? := by
  simp [unmap, Array.getElem?_modify, h]

@[simp]
theorem size_unmap (memory : Memory) (b : BlockId) : (memory.unmap b).blocks.size = memory.blocks.size :=
  Array.size_modify

theorem lt_of_isLive {memory : Memory} {b : BlockId} (h : memory.isLive b) : b < memory.blocks.size := by
  obtain ⟨block, hblock, -⟩ := (Option.any_eq_true _ _).mp h
  exact (Array.getElem?_eq_some_iff.mp hblock).1

theorem isLive_modify (memory : Memory) (b : BlockId) {f : Block → Block} (hf : ∀ block, (f block).live = block.live)
    (c : BlockId) : ({ memory with blocks := memory.blocks.modify b f } : Memory).isLive c = memory.isLive c := by
  simp only [isLive, Array.getElem?_modify]
  split
  · rcases memory.blocks[c]? with _ | block
    · rfl
    · exact hf block
  · rfl

@[simp]
theorem isLive_store (memory : Memory) (b : BlockId) (start : Nat) (words : List UInt32) (c : BlockId) :
    (memory.store b start words).isLive c = memory.isLive c :=
  isLive_modify memory b (fun _ => Block.live_storeBelow ..) c

@[simp]
theorem isLive_storeAt (memory : Memory) (b : BlockId) (address : Nat) (words : List UInt32) (c : BlockId) :
    (memory.storeAt b address words).isLive c = memory.isLive c :=
  isLive_modify memory b (fun _ => Block.live_storeBelow ..) c

@[simp]
theorem isLive_clear (memory : Memory) (b c : BlockId) : (memory.clear b).isLive c = memory.isLive c :=
  isLive_modify memory b (f := (·.clear)) (fun _ => rfl) c

theorem isLive_unmap_of_ne (memory : Memory) {b c : BlockId} (h : b ≠ c) :
    (memory.unmap b).isLive c = memory.isLive c := by
  rw [isLive, isLive, getElem?_unmap_of_ne h]

theorem Fresh.isLive_self {memory memory' : Memory} {pages : PagePolicy} {length : Nat} {block : BlockId}
    (h : Fresh memory memory' pages length block) : memory'.isLive block := by
  obtain ⟨base, mapped, hblock, -⟩ := h.getElem?_self
  rw [isLive, hblock]
  rfl

theorem Fresh.isLive {memory memory' : Memory} {pages : PagePolicy} {length : Nat} {block : BlockId}
    (h : Fresh memory memory' pages length block) {b : BlockId} (hb : memory.isLive b) : memory'.isLive b := by
  have hne : b ≠ block := by
    rw [h.block_eq]
    exact Nat.ne_of_lt (lt_of_isLive hb)
  rw [Memory.isLive, h.getElem?_of_ne hne]
  exact hb

@[simp]
theorem length_store (memory : Memory) (b c : BlockId) (start : Nat) (words : List UInt32) :
    (memory.store b start words).length c = memory.length c := by
  by_cases hbc : b = c
  · subst hbc
    rcases h : memory.blocks[b]? with _ | block <;>
      simp [length, store, Array.getElem?_modify, h]
  · simp [length, store, Array.getElem?_modify, hbc]

@[simp]
theorem length_clear (memory : Memory) (b c : BlockId) :
    (memory.clear b).length c = memory.length c := by
  by_cases hbc : b = c
  · subst hbc
    rcases h : memory.blocks[b]? with _ | block <;>
      simp [length, clear, Block.clear, Array.getElem?_modify, h]
  · simp [length, clear, Array.getElem?_modify, hbc]

structure IsInvariant (P : Memory → Prop) : Prop where
  store : ∀ memory b start words, P memory → P (memory.store b start words)
  storeAt : ∀ memory b address words, P memory → P (memory.storeAt b address words)
  clear : ∀ memory b, P memory → P (memory.clear b)
  unmap : ∀ memory b, P memory → P (memory.unmap b)
  allocate : ∀ memory memory' pages length block, P memory →
    memory.allocate pages length = .ok (block, memory') → P memory'

end Memory

end RemoteSlots
