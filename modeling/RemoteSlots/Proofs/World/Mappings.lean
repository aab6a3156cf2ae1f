import RemoteSlots.Proofs.World.Housing

/-!
This module shows that blocks that are in use never share an address. A system may map new pages where old ones were
given back, but what a peer reaches with a registered key is never a part of somebody else's block.
-/

namespace RemoteSlots

namespace Block

variable {block block' other other' : Block}

def Covers (block : Block) (address : Nat) : Prop := block.base ≤ address ∧ address < block.base + block.mapped

def IsApart (block other : Block) : Prop :=
  block.base + block.mapped ≤ other.base ∨ other.base + other.mapped ≤ block.base

structure IsLeftOf (block' block : Block) : Prop where
  base : block'.base = block.base
  mapped : block'.mapped = block.mapped
  live : block'.live → block.live

theorem IsLeftOf.refl (block : Block) : block.IsLeftOf block := ⟨rfl, rfl, id⟩

theorem IsLeftOf.storeBelow (block : Block) (limit start : Nat) (words : List UInt32) :
    (block.storeBelow limit start words).IsLeftOf block where
  base := base_storeBelow ..
  mapped := mapped_storeBelow ..
  live h := by rwa [live_storeBelow] at h

theorem IsLeftOf.clear (block : Block) : block.clear.IsLeftOf block := ⟨rfl, rfl, id⟩

theorem IsLeftOf.unmap (block : Block) : block.unmap.IsLeftOf block where
  base := rfl
  mapped := rfl
  live h := by contradiction

theorem IsApart.symm (h : block.IsApart other) : other.IsApart block := Or.symm h

theorem IsApart.of_isLeftOf (h : block.IsApart other) (hblock : block'.IsLeftOf block)
    (hother : other'.IsLeftOf other) : block'.IsApart other' := by
  unfold IsApart at h ⊢
  rwa [hblock.base, hblock.mapped, hother.base, hother.mapped]

theorem IsApart.not_covers {address : Nat} (h : block.IsApart other) (hblock : block.Covers address) :
    ¬other.Covers address := by
  unfold IsApart at h
  unfold Covers at hblock ⊢
  omega

end Block

namespace Memory

variable {memory memory' : Memory}

/--
Whether no two blocks that are in use share an address.
-/
def IsApart (memory : Memory) : Prop :=
  ∀ (b c : BlockId) (block other : Block), memory.blocks[b]? = some block → memory.blocks[c]? = some other →
    block.live → other.live → b ≠ c → block.IsApart other

theorem IsApart.modify (h : memory.IsApart) {b : BlockId} {f : Block → Block} (hf : ∀ block, (f block).IsLeftOf block)
    (hblocks : memory'.blocks = memory.blocks.modify b f) : memory'.IsApart := by
  have hleft : ∀ (c : BlockId) (block' : Block), memory'.blocks[c]? = some block' →
      ∃ block, memory.blocks[c]? = some block ∧ block'.IsLeftOf block := by
    intro c block' hblock'
    rw [hblocks, Array.getElem?_modify] at hblock'
    split at hblock'
    · obtain ⟨block, hblock, rfl⟩ := Option.map_eq_some_iff.mp hblock'
      exact ⟨block, hblock, hf block⟩
    · exact ⟨block', hblock', .refl block'⟩
  intro c d block' other' hblock' hother' hlive hlive' hne
  obtain ⟨block, hblock, hfirst⟩ := hleft c block' hblock'
  obtain ⟨other, hother, hsecond⟩ := hleft d other' hother'
  exact (h c d block other hblock hother (hfirst.live hlive) (hsecond.live hlive') hne).of_isLeftOf hfirst hsecond

theorem IsApart.allocate {pages : PagePolicy} {length : Nat} {block : BlockId} (h : memory.IsApart)
    (hallocate : memory.allocate pages length = .ok (block, memory')) : memory'.IsApart := by
  obtain ⟨base, mapped, hblocks, -, -, -, hfree⟩ := (allocate_fresh hallocate).blocks_eq
  have hclear : ∀ (b : BlockId) (old : Block), memory.blocks[b]? = some old → old.live →
      old.IsApart (.zeroed base length mapped pages) :=
    fun b old hold => hfree old (Array.mem_of_getElem? hold)
  intro b c first second hfirst hsecond hlive hlive' hne
  rw [hblocks, Array.getElem?_push] at hfirst hsecond
  split at hfirst
  · next hb =>
    obtain rfl := Option.some.inj hfirst
    rw [if_neg fun hc => hne (hb.trans hc.symm)] at hsecond
    exact (hclear c second hsecond hlive').symm
  · split at hsecond
    · obtain rfl := Option.some.inj hsecond
      exact hclear b first hfirst hlive
    · exact h b c first second hfirst hsecond hlive hlive' hne

theorem isInvariant_isApart : IsInvariant IsApart where
  store := fun _ _ start words h => h.modify (fun block => .storeBelow block _ start words) rfl
  storeAt := fun memory b address words h =>
    h.modify (fun block => .storeBelow block _ (memory.indexOf b address) words) rfl
  clear := fun _ _ h => h.modify .clear rfl
  unmap := fun _ _ h => h.modify .unmap rfl
  allocate := fun _ _ _ _ _ h hallocate => h.allocate hallocate

theorem IsApart.eq_of_covers (h : memory.IsApart) {b c : BlockId} {block other : Block} {address : Nat}
    (hblock : memory.blocks[b]? = some block) (hother : memory.blocks[c]? = some other) (hlive : block.live)
    (hlive' : other.live) (hcovers : block.Covers address) (hcovers' : other.Covers address) : b = c := by
  by_contra hne
  exact (h b c block other hblock hother hlive hlive' hne).not_covers hcovers hcovers'

end Memory

namespace World

variable {w : World}

theorem Reachable.isApart (h : w.Reachable) : w.memory.IsApart :=
  h.holds Memory.isInvariant_isApart fun _ _ _ _ _ hblock => by contradiction

theorem Reachable.eq_of_covers (h : w.Reachable) {b c : BlockId} {block other : Block} {address : Nat}
    (hkept : (∃ party, .block b ∈ w.holdings party) ∨
      ∃ (k : ConnectionId) (link : Link), w.net.links[k]? = some link ∧ ∃ r ∈ link.regions, r.extent.block = b)
    (hblock : w.memory.blocks[b]? = some block) (hother : w.memory.blocks[c]? = some other) (hlive : other.live)
    (hcovers : block.Covers address) (hcovers' : other.Covers address) : b = c := by
  obtain ⟨hsound, -⟩ := h.sound
  have hlive' : w.memory.isLive b := by
    rcases hkept with ⟨party, hmem⟩ | ⟨k, link, hlink, r, hr, rfl⟩
    · exact hsound.live party _ hmem
    · exact hsound.mapped k link hlink r hr
  rw [Memory.isLive, hblock] at hlive'
  exact h.isApart.eq_of_covers hblock hother hlive' hlive hcovers hcovers'

end World

end RemoteSlots
