import RemoteSlots.Proofs.Memory.Backing

/-!
This module shows that an access by address and an access by index are the same where both stay inside an extent,
and that a block keeps its place and its length for ever.
-/

namespace RemoteSlots

namespace Block

theorem storeBelow_congr (block : Block) {limit limit' start : Nat} {words : List UInt32}
    (h : start + words.length ≤ limit) (h' : start + words.length ≤ limit') :
    block.storeBelow limit start words = block.storeBelow limit' start words := by
  induction words generalizing block start with
  | nil => rfl
  | cons word words ih =>
    rw [List.length_cons] at h h'
    rw [storeBelow, storeBelow, if_pos (by omega), if_pos (by omega)]
    apply ih
    · omega
    · omega

theorem loadBelow_congr (block : Block) {limit limit' start count : Nat} (h : start + count ≤ limit)
    (h' : start + count ≤ limit') : block.loadBelow limit start count = block.loadBelow limit' start count := by
  rw [loadBelow, loadBelow, Nat.min_eq_left h, Nat.min_eq_left h']

end Block

namespace Memory

variable {memory : Memory} {extent : Extent}

theorem length_load {b : BlockId} {start count : Nat} (h : start + count ≤ memory.length b / 4) :
    (memory.load b start count).length = count := by
  unfold Memory.length at h
  unfold load
  rcases hblock : memory.blocks[b]? with _ | block
  · simp only [hblock] at h
    exact (Nat.eq_zero_of_add_eq_zero_left (Nat.le_zero.mp h)).symm
  · simp only [hblock] at h
    rw [Block.length_loadBelow, Block.size, Nat.min_eq_left h, Nat.add_sub_cancel_left]

theorem Backs.block (h : memory.Backs extent) {block : Block} (hblock : memory.blocks[extent.block]? = some block) :
    extent.length / 4 ≤ block.size ∧ extent.length / 4 ≤ block.room := by
  have hlength := h.length
  have hmapped := h.mapped
  simp only [Memory.length, hblock] at hlength
  simp only [Memory.mapped, hblock] at hmapped
  rw [Block.size, Block.room]
  omega

theorem Backs.indexOf (h : memory.Backs extent) (start : Nat) :
    memory.indexOf extent.block (extent.address + 4 * start) = start := by
  rw [Memory.indexOf, h.base]
  omega

theorem storeAt_eq_store (h : memory.Backs extent) {start : Nat} {words : List UInt32}
    (hend : 4 * (start + words.length) ≤ extent.length) :
    memory.storeAt extent.block (extent.address + 4 * start) words = memory.store extent.block start words := by
  unfold storeAt store
  congr 1
  apply Array.ext_getElem?
  intro b
  rw [Array.getElem?_modify, Array.getElem?_modify, h.indexOf]
  split
  · next heq =>
    subst heq
    rcases hblock : memory.blocks[extent.block]? with _ | block
    · rfl
    · obtain ⟨hsize, hroom⟩ := h.block hblock
      have hsame : block.storeBelow block.room start words = block.storeBelow block.size start words :=
        block.storeBelow_congr (by omega) (by omega)
      rw [Option.map_some, Option.map_some, hsame]
  · rfl

theorem loadAt_eq_load (h : memory.Backs extent) {start count : Nat}
    (hend : 4 * (start + count) ≤ extent.length) :
    memory.loadAt extent.block (extent.address + 4 * start) count = memory.load extent.block start count := by
  unfold loadAt load
  rw [h.indexOf]
  rcases hblock : memory.blocks[extent.block]? with _ | block
  · rfl
  · obtain ⟨hsize, hroom⟩ := h.block hblock
    exact block.loadBelow_congr (by omega) (by omega)

theorem loadAt_front (h : memory.Backs extent) (hlong : 16 ≤ extent.length) :
    memory.loadAt extent.block extent.address 4 = memory.load extent.block 0 4 := by
  have hend : 4 * (0 + 4) ≤ extent.length := hlong
  exact loadAt_eq_load h hend

def Keeps (memory memory' : Memory) : Prop :=
  ∀ (b : BlockId) (block : Block), memory.blocks[b]? = some block →
    ∃ block', memory'.blocks[b]? = some block' ∧ block'.base = block.base ∧ block'.length = block.length ∧
      block'.mapped = block.mapped

namespace Keeps

theorem refl (memory : Memory) : memory.Keeps memory := fun _ block h => ⟨block, h, rfl, rfl, rfl⟩

theorem trans {a b c : Memory} (hab : a.Keeps b) (hbc : b.Keeps c) : a.Keeps c := by
  intro id block hblock
  obtain ⟨block', hblock', hbase, hlength, hmapped⟩ := hab id block hblock
  obtain ⟨block'', hblock'', hbase', hlength', hmapped'⟩ := hbc id block' hblock'
  exact ⟨block'', hblock'', hbase'.trans hbase, hlength'.trans hlength, hmapped'.trans hmapped⟩

theorem modify (memory : Memory) (b : BlockId) {f : Block → Block}
    (hf : ∀ block, (f block).base = block.base ∧ (f block).length = block.length ∧
      (f block).mapped = block.mapped) :
    memory.Keeps { memory with blocks := memory.blocks.modify b f } := by
  intro id block hblock
  simp only [Array.getElem?_modify, hblock]
  split
  · exact ⟨f block, rfl, hf block⟩
  · exact ⟨block, rfl, rfl, rfl, rfl⟩

theorem store (memory : Memory) (b : BlockId) (start : Nat) (words : List UInt32) :
    memory.Keeps (memory.store b start words) :=
  modify memory b fun _ => ⟨Block.base_storeBelow .., Block.length_storeBelow .., Block.mapped_storeBelow ..⟩

theorem storeAt (memory : Memory) (b : BlockId) (address : Nat) (words : List UInt32) :
    memory.Keeps (memory.storeAt b address words) :=
  modify memory b fun _ => ⟨Block.base_storeBelow .., Block.length_storeBelow .., Block.mapped_storeBelow ..⟩

theorem clear (memory : Memory) (b : BlockId) : memory.Keeps (memory.clear b) :=
  modify memory b fun _ => ⟨rfl, rfl, rfl⟩

theorem unmap (memory : Memory) (b : BlockId) : memory.Keeps (memory.unmap b) :=
  modify memory b fun _ => ⟨rfl, rfl, rfl⟩

theorem allocate {memory' : Memory} {pages : PagePolicy} {length : Nat} {block : BlockId}
    (h : memory.allocate pages length = .ok (block, memory')) : memory.Keeps memory' := by
  have hfresh := allocate_fresh h
  intro id old hold
  have hne : id ≠ block := by
    rintro rfl
    rw [hfresh.block_eq, Array.getElem?_size] at hold
    contradiction
  exact ⟨old, (hfresh.getElem?_of_ne hne).trans hold, rfl, rfl, rfl⟩

theorem isInvariant (memory : Memory) : IsInvariant memory.Keeps where
  store := fun _ b start words h => h.trans (.store _ b start words)
  storeAt := fun _ b address words h => h.trans (.storeAt _ b address words)
  clear := fun _ b h => h.trans (.clear _ b)
  unmap := fun _ b h => h.trans (.unmap _ b)
  allocate := fun _ _ _ _ _ h hallocate => h.trans (.allocate hallocate)

end Keeps

/--
Whether an extent is a block of its own: all of it, on pages that were mapped for it.
-/
structure Houses (memory : Memory) (extent : Extent) : Prop extends memory.Backs extent where
  issued : extent.block < memory.blocks.size
  pos : 0 < extent.length
  aligned : extent.address % 4 = 0

theorem Houses.of_keeps {memory' : Memory} (h : memory.Houses extent) (hkeeps : memory.Keeps memory') :
    memory'.Houses extent := by
  have hblock := Array.getElem?_eq_getElem h.issued
  obtain ⟨block', hblock', hbase, hlength, hmapped⟩ := hkeeps _ _ hblock
  refine ⟨⟨?_, ?_, ?_, h.bound⟩, ?_, h.pos, h.aligned⟩
  · rw [← h.base, Memory.base, Memory.base, hblock, hblock']
    exact hbase
  · rw [← h.length, Memory.length, Memory.length, hblock, hblock']
    exact hlength
  · have hfits := h.mapped
    rw [Memory.mapped, hblock] at hfits
    rw [Memory.mapped, hblock']
    exact Nat.le_trans hfits (Nat.le_of_eq hmapped.symm)
  · exact (Array.getElem?_eq_some_iff.mp hblock').1

theorem Fresh.houses {memory' : Memory} {pages : PagePolicy} {length : Nat} {block : BlockId}
    (h : Fresh memory memory' pages length block) :
    memory'.Houses { block, address := memory'.base block, length } := by
  obtain ⟨base, mapped, hblock, haligned, hle, hlimit⟩ := h.getElem?_self
  have hbase : memory'.base block = base := by
    rw [Memory.base, hblock]
    rfl
  refine ⟨⟨rfl, h.length_eq, ?_, ?_⟩, ?_, h.length_pos, ?_⟩
  · rw [Memory.mapped, hblock]
    exact hle
  · rw [hbase]
    exact Nat.le_trans (Nat.add_le_add_left hle base) hlimit
  · rw [h.size_eq, h.block_eq]
    exact Nat.lt_succ_self _
  · rw [hbase]
    exact haligned

end Memory

end RemoteSlots
