import RemoteSlots.Proofs.World.Housing

/-!
This module shows that every block that was ever mapped is still where it was mapped, so that the extent of a whole
block can be used at any later time.
-/

namespace RemoteSlots

namespace Memory

variable {memory memory' : Memory} {b : BlockId}

def extentOf (memory : Memory) (b : BlockId) : Extent :=
  { block := b, address := memory.base b, length := memory.length b }

/--
Whether every block lies on pages that were mapped for it.
-/
def IsLaidOut (memory : Memory) : Prop := ∀ b < memory.blocks.size, memory.Houses (memory.extentOf b)

theorem Houses.extentOf_eq {extent : Extent} (h : memory.Houses extent) : memory.extentOf extent.block = extent := by
  rw [extentOf, h.base, h.length]

theorem IsLaidOut.houses_of_keeps (h : memory.IsLaidOut) (hb : b < memory.blocks.size)
    (hkeeps : memory.Keeps memory') : memory'.Houses (memory'.extentOf b) := by
  have hhouses := (h b hb).of_keeps hkeeps
  rwa [← hhouses.extentOf_eq] at hhouses

theorem IsLaidOut.of_keeps (h : memory.IsLaidOut) (hkeeps : memory.Keeps memory')
    (hsize : memory'.blocks.size = memory.blocks.size) : memory'.IsLaidOut :=
  fun _ hb => h.houses_of_keeps (hsize ▸ hb) hkeeps

theorem IsLaidOut.allocate {pages : PagePolicy} {length : Nat} {block : BlockId} (h : memory.IsLaidOut)
    (hallocate : memory.allocate pages length = .ok (block, memory')) : memory'.IsLaidOut := by
  have hfresh := allocate_fresh hallocate
  intro b hb
  by_cases heq : b = block
  · have hhouses := hfresh.houses
    rwa [← hhouses.extentOf_eq, ← heq] at hhouses
  · have hne : b ≠ memory.blocks.size := hfresh.block_eq ▸ heq
    rw [hfresh.size_eq] at hb
    exact h.houses_of_keeps (Nat.lt_of_le_of_ne (Nat.le_of_lt_succ hb) hne) (.allocate hallocate)

theorem isInvariant_isLaidOut : IsInvariant IsLaidOut where
  store := fun _ b start words h => h.of_keeps (.store _ b start words) (size_store ..)
  storeAt := fun _ b address words h => h.of_keeps (.storeAt _ b address words) (size_storeAt ..)
  clear := fun _ b h => h.of_keeps (.clear _ b) (size_clear ..)
  unmap := fun _ b h => h.of_keeps (.unmap _ b) (size_unmap ..)
  allocate := fun _ _ _ _ _ h hallocate => h.allocate hallocate

end Memory

namespace World

variable {w : World}

theorem Reachable.isLaidOut (h : w.Reachable) : w.memory.IsLaidOut :=
  h.holds Memory.isInvariant_isLaidOut fun _ b hb => absurd hb (Nat.not_lt_zero b)

theorem keeps_after (h : w.Reachable) (actions : List Action) : w.memory.Keeps (w.after actions).memory := by
  induction actions using List.reverseRecOn with
  | nil => exact .refl _
  | append_singleton actions action ih =>
    obtain ⟨hsound, htidy⟩ := (h.after actions).sound
    rw [after_concat]
    exact ih.trans (keeps_act hsound htidy action)

end World

end RemoteSlots
