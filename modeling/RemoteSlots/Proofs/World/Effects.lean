import RemoteSlots.Proofs.Fabric.Peer
import RemoteSlots.Proofs.Fabric.Server
import RemoteSlots.Proofs.Memory.Basic

/-!
This module contains what can happen to the memory and to the loopback fabric on behalf of somebody who
may use certain handles, and what stays as it is meanwhile.
-/

namespace RemoteSlots

def Handle.IsIssued (memory : Memory) (net : Loopback) : Handle → Prop
  | channel c => c ≤ net.lastId
  | endpoint k => (net.links[k]?).isSome ∧ k ∉ net.pending
  | block b => b < memory.blocks.size

def Handle.IsLive (memory : Memory) : Handle → Prop
  | block b => memory.isLive b
  | _ => True

theorem Handle.IsLive.mono {memory memory' : Memory} {handle : Handle} (h : handle.IsLive memory)
    (hlive : ∀ b, memory.isLive b → memory'.isLive b) : handle.IsLive memory' := by
  cases handle with
  | block b => exact hlive b h
  | _ => trivial

theorem Handle.IsIssued.mono {memory memory' : Memory} {net net' : Loopback} {handle : Handle}
    (h : handle.IsIssued memory net) (hnet : net.Sound) (hevolves : net.Evolves net')
    (hsize : memory.blocks.size ≤ memory'.blocks.size) : handle.IsIssued memory' net' := by
  cases handle with
  | channel c => exact Nat.le_trans h hevolves.lastId_le
  | endpoint k =>
    obtain ⟨hsome, hpending⟩ := h
    obtain ⟨link, hlink⟩ := Option.isSome_iff_exists.mp hsome
    obtain ⟨link', hlink', -⟩ := hevolves.links k link hlink
    refine ⟨by rw [hlink']; rfl, fun hk => ?_⟩
    rcases hevolves.pending k hk with hold | hnew
    · exact hpending hold
    · exact absurd (hnet.link_bounds k link hlink).2 (Nat.not_le_of_lt hnew)
  | block b => exact Nat.lt_of_lt_of_le h hsize

section Acquired

variable {memory : Memory} {net : Loopback} {request : Request} {handle : Handle}

theorem Handle.not_isIssued_of_acquired (h : handle ∈ request.acquired (net.serve memory request).1) :
    ¬handle.IsIssued memory net := by
  rcases Loopback.acquired_serve h with rfl | ⟨k, hk, rfl⟩
  · exact Nat.not_succ_le_self _
  · exact fun hissued => hissued.2 hk

theorem Handle.isIssued_of_acquired (hnet : net.Sound)
    (h : handle ∈ request.acquired (net.serve memory request).1) :
    handle.IsIssued memory (net.serve memory request).2 := by
  cases request with
  | createChannel =>
    obtain rfl := List.mem_singleton.mp h
    exact Nat.le_refl _
  | accept channel k queues =>
    have hendpoint : handle = .endpoint k := by
      rcases Loopback.accept_cases net channel k queues with ⟨_, heq⟩ | ⟨_, heq⟩ | ⟨link, -, -, -, heq⟩
      all_goals simp only [Loopback.serve, heq, Request.acquired] at h
      · contradiction
      · contradiction
      · exact List.mem_singleton.mp h
    subst hendpoint
    obtain ⟨_, _, link, -, -, -, hpending, hlink⟩ := Loopback.serve_accepted h
    refine ⟨by rw [hlink]; rfl, ?_⟩
    rw [hpending]
    exact hnet.nodup.not_mem_erase
  | _ => contradiction

end Acquired

/--
What can happen on behalf of somebody who may use the allowed handles: requests, and operations on blocks
of memory.
-/
inductive Effects (allowed : Handle → Prop) (memory : Memory) (net : Loopback) : Memory → Loopback → Prop
  | refl : Effects allowed memory net memory net
  | serve {memory' : Memory} {net' : Loopback} (request : Request) :
    Effects allowed memory net memory' net' → (∀ handle ∈ request.handles, allowed handle) →
      Effects allowed memory net memory' (net'.serve memory' request).2
  | store {memory' : Memory} {net' : Loopback} (block : BlockId) (start : Nat) (words : List UInt32) :
    Effects allowed memory net memory' net' → allowed (.block block) →
      Effects allowed memory net (memory'.store block start words) net'
  | clear {memory' : Memory} {net' : Loopback} (block : BlockId) :
    Effects allowed memory net memory' net' → allowed (.block block) →
      Effects allowed memory net (memory'.clear block) net'
  | allocate {memory' memory'' : Memory} {net' : Loopback} {pages : PagePolicy} {length : Nat}
    {block : BlockId} :
    Effects allowed memory net memory' net' → memory'.allocate pages length = .ok (block, memory'') →
      Effects allowed memory net memory'' net'

structure Advances (allowed : Handle → Prop) (memory : Memory) (net : Loopback) (memory' : Memory)
    (net' : Loopback) : Prop where
  sound : net'.Sound
  evolves : net.Evolves net'
  size_le : memory.blocks.size ≤ memory'.blocks.size
  regions : ∀ (k : ConnectionId) (link' : Link), net'.links[k]? = some link' → ∀ r ∈ link'.regions,
    (∃ link, net.links[k]? = some link ∧ r ∈ link.regions) ∨
      allowed (.endpoint k) ∧ allowed (.block r.extent.block)

theorem Advances.of_links {allowed : Handle → Prop} {memory memory' : Memory} {net net' : Loopback}
    (hsound : net'.Sound) (hevolves : net.Evolves net') (hsize : memory'.blocks.size = memory.blocks.size)
    {id : ConnectionId} {f : Link → Link}
    (hlinks : ∀ k : ConnectionId, net'.links[k]? =
      if id = k then net.links[k]?.map f else net.links[k]?)
    (hf : ∀ link, (f link).regions = link.regions) : Advances allowed memory net memory' net' := by
  refine ⟨hsound, hevolves, Nat.le_of_eq hsize.symm, ?_⟩
  intro k link' hlink' r hr
  rw [hlinks] at hlink'
  split at hlink'
  · rw [Option.map_eq_some_iff] at hlink'
    obtain ⟨link, hlink, rfl⟩ := hlink'
    rw [hf] at hr
    exact .inl ⟨link, hlink, hr⟩
  · exact .inl ⟨link', hlink', hr⟩

namespace Effects

variable {allowed : Handle → Prop} {memory memory' : Memory} {net net' : Loopback}

theorem mono {other : Handle → Prop} (h : Effects allowed memory net memory' net')
    (hother : ∀ handle, allowed handle → other handle) : Effects other memory net memory' net' := by
  induction h with
  | refl => exact .refl
  | serve request _ hrequest ih => exact .serve request ih fun handle hmem => hother _ (hrequest _ hmem)
  | store block start words _ hblock ih => exact .store block start words ih (hother _ hblock)
  | clear block _ hblock ih => exact .clear block ih (hother _ hblock)
  | allocate _ hallocate ih => exact .allocate ih hallocate

theorem advances (h : Effects allowed memory net memory' net') (hnet : net.Sound)
    (hallowed : ∀ handle, allowed handle → handle.IsIssued memory net) :
    Advances allowed memory net memory' net' := by
  induction h with
  | refl => exact ⟨hnet, .refl net, Nat.le_refl _, fun k link hlink r hr => .inl ⟨link, hlink, hr⟩⟩
  | serve request _ hrequest ih =>
    refine ⟨?_, ih.evolves.trans (.serve ..), ih.size_le, ?_⟩
    · apply ih.sound.serve
      intro k hk
      exact ((hallowed _ (hrequest _ hk)).mono hnet ih.evolves ih.size_le).2
    · intro k link' hlink' r hr
      rcases Loopback.serve_regions hlink' hr with ⟨link, hlink, hold⟩ | ⟨hk, hblock⟩
      · exact ih.regions k link hlink r hold
      · exact .inr ⟨hrequest _ hk, hrequest _ hblock⟩
  | store block start words _ _ ih => exact ⟨ih.sound, ih.evolves, by simpa using ih.size_le, ih.regions⟩
  | clear block _ _ ih => exact ⟨ih.sound, ih.evolves, by simpa using ih.size_le, ih.regions⟩
  | allocate _ hallocate ih =>
    refine ⟨ih.sound, ih.evolves, ?_, ih.regions⟩
    rw [(Memory.allocate_fresh hallocate).size_eq]
    exact Nat.le_succ_of_le ih.size_le

theorem holds {P : Memory → Prop} (hP : Memory.IsInvariant P) (h : Effects allowed memory net memory' net')
    (hmemory : P memory) : P memory' := by
  induction h with
  | refl => exact hmemory
  | serve _ _ _ ih => exact ih
  | store block start words _ _ ih => exact hP.store _ block start words ih
  | clear block _ _ ih => exact hP.clear _ block ih
  | allocate _ hallocate ih => exact hP.allocate _ _ _ _ _ ih hallocate

theorem isLive (h : Effects allowed memory net memory' net') {b : BlockId} (hb : memory.isLive b) :
    memory'.isLive b := by
  induction h with
  | refl => exact hb
  | serve _ _ _ ih => exact ih
  | store block start words _ _ ih => exact (Memory.isLive_store ..).trans ih
  | clear block _ _ ih => exact (Memory.isLive_clear ..).trans ih
  | allocate _ hallocate ih => exact (Memory.allocate_fresh hallocate).isLive ih

theorem links_of_not_allowed (h : Effects allowed memory net memory' net') (hnet : net.Sound)
    (hallowed : ∀ handle, allowed handle → handle.IsIssued memory net) {k : ConnectionId}
    (hissued : (Handle.endpoint k).IsIssued memory net) (hk : ¬allowed (.endpoint k)) :
    net'.links[k]? = net.links[k]? := by
  induction h with
  | refl => rfl
  | serve request hprev hrequest ih =>
    rw [← ih]
    apply Loopback.serve_links_of_ne
    · exact fun hmem => hk (hrequest _ hmem)
    · intro hmem
      have hadvances := hprev.advances hnet hallowed
      obtain ⟨_, _, _, -, -, hpending, -⟩ := Loopback.serve_accepted hmem
      exact (hissued.mono hnet hadvances.evolves hadvances.size_le).2 hpending
  | store _ _ _ _ _ ih => exact ih
  | clear _ _ _ ih => exact ih
  | allocate _ _ ih => exact ih

theorem channels_of_not_allowed (h : Effects allowed memory net memory' net') (hnet : net.Sound)
    (hallowed : ∀ handle, allowed handle → handle.IsIssued memory net) {c : ChannelId}
    (hissued : (Handle.channel c).IsIssued memory net) (hc : ¬allowed (.channel c)) :
    net'.channels[c]? = net.channels[c]? := by
  induction h with
  | refl => rfl
  | serve request hprev hrequest ih =>
    rw [← ih]
    apply Loopback.serve_channels_of_ne
    · exact fun hmem => hc (hrequest _ hmem)
    · intro hmem
      have hadvances := hprev.advances hnet hallowed
      exact Handle.not_isIssued_of_acquired hmem (hissued.mono hnet hadvances.evolves hadvances.size_le)
  | store _ _ _ _ _ ih => exact ih
  | clear _ _ _ ih => exact ih
  | allocate _ _ ih => exact ih

theorem blocks_of_not_allowed (h : Effects allowed memory net memory' net') (hnet : net.Sound)
    (hallowed : ∀ handle, allowed handle → handle.IsIssued memory net) {b : BlockId}
    (hissued : (Handle.block b).IsIssued memory net) (hb : ¬allowed (.block b)) :
    memory'.blocks[b]? = memory.blocks[b]? := by
  induction h with
  | refl => rfl
  | serve _ _ _ ih => exact ih
  | store block start words _ hblock ih =>
    rw [← ih]
    apply Memory.getElem?_store_of_ne
    rintro rfl
    exact hb hblock
  | clear block _ hblock ih =>
    rw [← ih]
    apply Memory.getElem?_clear_of_ne
    rintro rfl
    exact hb hblock
  | allocate hprev hallocate ih =>
    rw [← ih]
    have hfresh := Memory.allocate_fresh hallocate
    have hadvances := hprev.advances hnet hallowed
    apply hfresh.getElem?_of_ne
    rw [hfresh.block_eq]
    exact Nat.ne_of_lt (Nat.lt_of_lt_of_le hissued hadvances.size_le)

end Effects

end RemoteSlots
