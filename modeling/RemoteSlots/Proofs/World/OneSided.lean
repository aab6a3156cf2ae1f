import RemoteSlots.Proofs.Memory.Access
import RemoteSlots.Proofs.Session.Advertisement
import RemoteSlots.Proofs.World.SlotAccess

/-!
This module shows what the accesses of a peer do, word by word: which of them are accepted, which words they mean, and
what they leave alone.
-/

namespace RemoteSlots

open Std

structure Link.Reaches (link : Link) (key : UInt32) (granted : Access → Bool) (address words : Nat)
    (region : Registration) : Prop where
  isOpen : link.serverClosed = false
  found : link.regions.find? (·.key = key) = some region
  granted : granted region.access
  within : Memory.Within region.extent address words

theorem Link.complete_eq (link : Link) (completion : Completion) :
    link.complete completion =
      { link with completions := link.completions ++ if link.isFull then [] else [completion] } := by
  rw [← Link.completions_complete]
  unfold Link.complete
  split <;> rfl

namespace Loopback

open Memory

variable {net : Loopback} {memory : Memory} {k : ConnectionId} {link : Link} {region : Registration} {key : UInt32}

theorem find?_key_eq_some_iff {regions : List Registration} (h : regions.Pairwise (·.key ≠ ·.key)) :
    regions.find? (·.key = key) = some region ↔ region ∈ regions ∧ region.key = key := by
  constructor
  · intro hfound
    have hkey := List.find?_some hfound
    exact ⟨List.mem_of_find?_eq_some hfound, of_decide_eq_true hkey⟩
  · rintro ⟨hmem, rfl⟩
    induction h with
    | nil => contradiction
    | cons hfirst _ ih =>
      rcases List.mem_cons.mp hmem with rfl | hlater
      · simp
      · rw [List.find?_cons_of_neg (by simpa using hfirst _ hlater), ih hlater]

theorem target_eq_ok_iff_reaches {address : UInt64} {told words : Nat} {granted : Access → Bool} :
    target link address key told (4 * words) granted = .ok region ↔
      link.Reaches key granted address.toNat words region := by
  rw [target_eq_ok_iff]
  simp only [Registration.covers, Bool.and_eq_true, decide_eq_true_eq]
  constructor
  · rintro ⟨hopen, hfound, hgranted, ⟨hstart, hstop⟩, haligned⟩
    exact ⟨hopen, hfound, hgranted, haligned, hstart, hstop⟩
  · rintro ⟨hopen, hfound, hgranted, haligned, hstart, hstop⟩
    exact ⟨hopen, hfound, hgranted, ⟨hstart, hstop⟩, haligned⟩

theorem target_of_not_reaches {address : UInt64} (told : Nat) {words : Nat} {granted : Access → Bool}
    (h : ¬∃ region, link.Reaches key granted address.toNat words region) :
    ∃ refusal, target link address key told (4 * words) granted = .error (.remoteAccess refusal) := by
  rcases htarget : target link address key told (4 * words) granted with failure | region
  · obtain ⟨refusal, rfl⟩ := target_eq_error htarget
    exact ⟨refusal, rfl⟩
  · exact absurd ⟨region, target_eq_ok_iff_reaches.mp htarget⟩ h

structure Stored (memory memory' : Memory) (extent : Extent) (address : Nat) (words : List UInt32) : Prop where
  bound : address + 4 * words.length < addressLimit
  written : ∀ j (hj : j < words.length), memory'.wordIn extent ((address - extent.address) / 4 + j) = words[j]
  others : ∀ block i, (∀ j < words.length,
    ¬(block = extent.block ∧ i = memory.indexIn extent ((address - extent.address) / 4 + j))) →
      memory'.word block i = memory.word block i

structure Counted (net net' : Loopback) (k : ConnectionId) (link : Link) : Prop where
  counted : net'.links[k]? = some { link with psn := link.psn + 1 }
  psn : (link.psn + 1).toNat = (link.psn.toNat + 1) % 2 ^ 24
  links : ∀ j, j ≠ k → net'.links[j]? = net.links[j]?
  rest : { net' with links := net.links } = net

structure Reported (net net' : Loopback) (k : ConnectionId) (link : Link) (request : UInt64) : Prop where
  reported : net'.links[k]? = some { link with
    completions := link.completions ++
      if link.isFull then [] else [{ request, status := .remoteAccessError, opcode := .remoteWrite }] }
  links : ∀ j, j ≠ k → net'.links[j]? = net.links[j]?
  rest : { net' with links := net.links } = net

/--
What the accesses of a peer come to at an address and under a key. What they do to memory is told for a region that
lies in memory.
-/
structure OneSided (net : Loopback) (memory : Memory) (k : ConnectionId) (link : Link) (address : UInt64)
    (key : UInt32) : Prop where
  -- While no two regions have the same key, the key means the one that has it.
  means : link.regions.Pairwise (·.key ≠ ·.key) → ∀ region,
    link.regions.find? (·.key = key) = some region ↔ region ∈ link.regions ∧ region.key = key
  -- The words of an access are words of the region, also if its length is not a multiple of four.
  inside : ∀ granted words region, link.Reaches key granted address.toNat words region →
    (address.toNat - region.extent.address) / 4 + words ≤ region.extent.length / 4
  write : ∀ request words, (net.write memory k request address key words).1 = .ok () ↔
    ∃ region, link.Reaches key (·.remoteWrite) address.toNat words.length region
  stored : ∀ request words region, link.Reaches key (·.remoteWrite) address.toNat words.length region →
    memory.Hosts region.extent →
      Stored memory (net.write memory k request address key words).2.1 region.extent address.toNat words
  counted : ∀ request words region, link.Reaches key (·.remoteWrite) address.toNat words.length region →
    net.Counted (net.write memory k request address key words).2.2 k link
  refused : ∀ request words, (¬∃ region, link.Reaches key (·.remoteWrite) address.toNat words.length region) →
    (∃ refusal, (net.write memory k request address key words).1 = .error (.remoteAccess refusal)) ∧
      (net.write memory k request address key words).2.1 = memory ∧
        net.Reported (net.write memory k request address key words).2.2 k link request
  read : ∀ count, (∃ values, net.read memory k address key count = .ok values) ↔
    4 * count.toNat < addressLimit ∧ ∃ region, link.Reaches key (·.remoteRead) address.toNat count.toNat region
  values : ∀ count region, link.Reaches key (·.remoteRead) address.toNat count.toNat region →
    memory.Hosts region.extent →
      net.read memory k address key count = .ok ((List.range count.toNat).map fun j =>
        memory.wordIn region.extent ((address.toNat - region.extent.address) / 4 + j))
  unread : ∀ count, 4 * count.toNat < addressLimit →
    (¬∃ region, link.Reaches key (·.remoteRead) address.toNat count.toNat region) →
      ∃ refusal, net.read memory k address key count = .error (.failed (.remoteAccess refusal))
  -- Of a count whose bytes overflow, what is left over is looked up, and a read that passes breaks off.
  overflown : ∀ count, addressLimit ≤ 4 * count.toNat →
    ((∃ region, link.Reaches key (·.remoteRead) address.toNat (count.toNat % 2 ^ 62) region) →
      net.read memory k address key count = .error .faulted) ∧
    ((¬∃ region, link.Reaches key (·.remoteRead) address.toNat (count.toNat % 2 ^ 62) region) →
      ∃ refusal, net.read memory k address key count = .error (.failed (.remoteAccess refusal)))

theorem links_modifyLink_of_ne (net : Loopback) (f : Link → Link) {j : ConnectionId} (hj : j ≠ k) :
    (net.modifyLink k f).links[j]? = net.links[j]? := by
  rw [getElem?_modifyLink, if_neg (Ne.symm hj)]

section Write

variable {address request : UInt64} {words : List UInt32}

theorem write_of_reaches (hlink : net.links[k]? = some link)
    (h : link.Reaches key (·.remoteWrite) address.toNat words.length region) :
    net.write memory k request address key words =
      (.ok (), memory.storeAt region.extent.block address.toNat words,
        net.modifyLink k fun link => { link with psn := link.psn + 1 }) := by
  rw [Loopback.write, hlink]
  dsimp only
  rw [target_eq_ok_iff_reaches.mpr h]

theorem write_of_not_reaches (memory : Memory) (request : UInt64) (hlink : net.links[k]? = some link)
    (h : ¬∃ region, link.Reaches key (·.remoteWrite) address.toNat words.length region) :
    ∃ refusal, net.write memory k request address key words =
      (.error (.remoteAccess refusal), memory,
        net.modifyLink k (·.complete { request, status := .remoteAccessError, opcode := .remoteWrite })) := by
  obtain ⟨refusal, htarget⟩ := target_of_not_reaches words.length h
  refine ⟨refusal, ?_⟩
  rw [Loopback.write, hlink]
  dsimp only
  rw [htarget]

theorem stored_of_within (hhosts : memory.Hosts region.extent) {address : Nat}
    (hwithin : Within region.extent address words.length) :
    Stored memory (memory.storeAt region.extent.block address words) region.extent address words where
  bound := Nat.lt_of_le_of_lt hwithin.stop hhosts.bound
  written := fun _ hj => hhosts.wordIn_storeAt hwithin hj
  others := fun _ _ hother => hhosts.word_storeAt_of_ne hwithin hother

theorem counted_modifyLink (hlink : net.links[k]? = some link) :
    net.Counted (net.modifyLink k fun link => { link with psn := link.psn + 1 }) k link where
  counted := by rw [getElem?_modifyLink, if_pos rfl, hlink, Option.map_some]
  psn := BitVec.toNat_add ..
  links := fun _ hj => links_modifyLink_of_ne net _ hj
  rest := rfl

theorem reported_modifyLink (hlink : net.links[k]? = some link) :
    net.Reported (net.modifyLink k (·.complete { request, status := .remoteAccessError, opcode := .remoteWrite }))
      k link request where
  reported := by rw [getElem?_modifyLink, if_pos rfl, hlink, Option.map_some, Link.complete_eq]
  links := fun _ hj => links_modifyLink_of_ne net _ hj
  rest := rfl

end Write

section Read

variable {address count : UInt64}

theorem read_of_passes (memory : Memory) (hlink : net.links[k]? = some link)
    (h : link.Reaches key (·.remoteRead) address.toNat (count.toNat % 2 ^ 62) region) :
    net.read memory k address key count =
      if 4 * count.toNat < addressLimit then .ok (memory.loadAt region.extent.block address.toNat count.toNat)
      else .error .faulted :=
  read_of_target_ok hlink (target_eq_ok_iff_reaches.mpr h)

theorem read_of_not_passes (memory : Memory) (hlink : net.links[k]? = some link)
    (h : ¬∃ region, link.Reaches key (·.remoteRead) address.toNat (count.toNat % 2 ^ 62) region) :
    ∃ refusal, net.read memory k address key count = .error (.failed (.remoteAccess refusal)) := by
  obtain ⟨refusal, htarget⟩ := target_of_not_reaches count.toNat h
  exact ⟨refusal, read_of_target_error hlink htarget⟩

theorem read_eq_ok_iff (memory : Memory) (hlink : net.links[k]? = some link) :
    (∃ values, net.read memory k address key count = .ok values) ↔
      4 * count.toNat < addressLimit ∧
        ∃ region, link.Reaches key (·.remoteRead) address.toNat count.toNat region := by
  constructor
  · rintro ⟨values, hread⟩
    by_cases hpasses : ∃ region, link.Reaches key (·.remoteRead) address.toNat (count.toNat % 2 ^ 62) region
    · obtain ⟨region, hreaches⟩ := hpasses
      rw [read_of_passes memory hlink hreaches] at hread
      split at hread
      · next hbytes => exact ⟨hbytes, region, words_of_bytes_lt hbytes ▸ hreaches⟩
      · contradiction
    · obtain ⟨refusal, hrefused⟩ := read_of_not_passes memory hlink hpasses
      rw [hrefused] at hread
      contradiction
  · rintro ⟨hbytes, region, hreaches⟩
    rw [read_of_passes memory hlink ((words_of_bytes_lt hbytes).symm ▸ hreaches), if_pos hbytes]
    exact ⟨_, rfl⟩

end Read

theorem one_sided_exact (hlink : net.links[k]? = some link) (memory : Memory) (address : UInt64) (key : UInt32) :
    net.OneSided memory k link address key where
  means := fun hdistinct _ => find?_key_eq_some_iff hdistinct
  inside := fun _ _ _ hreaches => hreaches.within.index_add_le
  write := by
    intro request words
    constructor
    · intro haccepted
      by_contra hnot
      obtain ⟨refusal, hwrite⟩ := write_of_not_reaches memory request hlink hnot
      rw [hwrite] at haccepted
      contradiction
    · rintro ⟨region, hreaches⟩
      rw [write_of_reaches hlink hreaches]
  stored := by
    intro request words region hreaches hhosts
    rw [write_of_reaches hlink hreaches]
    exact stored_of_within hhosts hreaches.within
  counted := by
    intro request words region hreaches
    rw [write_of_reaches hlink hreaches]
    exact counted_modifyLink hlink
  refused := by
    intro request words hnot
    obtain ⟨refusal, hwrite⟩ := write_of_not_reaches memory request hlink hnot
    rw [hwrite]
    exact ⟨⟨refusal, rfl⟩, rfl, reported_modifyLink hlink⟩
  read := fun _ => read_eq_ok_iff memory hlink
  values := by
    intro count region hreaches hhosts
    have hbytes : 4 * count.toNat < addressLimit :=
      Nat.lt_of_le_of_lt (Nat.le_add_left _ _) (Nat.lt_of_le_of_lt hreaches.within.stop hhosts.bound)
    rw [read_of_passes memory hlink ((words_of_bytes_lt hbytes).symm ▸ hreaches), if_pos hbytes,
      hhosts.loadAt_eq hreaches.within]
  unread := by
    intro count hbytes hnot
    rw [← words_of_bytes_lt hbytes] at hnot
    exact read_of_not_passes memory hlink hnot
  overflown := by
    intro count hbytes
    refine ⟨?_, read_of_not_passes memory hlink⟩
    rintro ⟨region, hreaches⟩
    rw [read_of_passes memory hlink hreaches, if_neg (Nat.not_lt.mpr hbytes)]

def sampleOdd : World :=
  (World.initial (.above 4096 4096) .zero).after
    ([.createSession "session" {} .loopback, .startSession 1 (.listen 7000)] ++ World.sampleSteps 3 ++
      [.connect 7000] ++ World.sampleSteps 3 ++
      [.allocate .standard 10, .startSession 1 (.register ⟨0, 4096, 10⟩)] ++ World.sampleSteps 1)

theorem links_sampleOdd : ∃ link, sampleOdd.net.links[2]? = some link ∧ link.serverClosed = false ∧
    link.regions = [⟨⟨0, 4096, 10⟩, 4, .full⟩] := by
  exact ⟨_, rfl, rfl, rfl⟩

set_option maxRecDepth 10000 in
theorem one_sided_exact_odd :
    ∃ link, sampleOdd.Reachable ∧ sampleOdd.net.links[2]? = some link ∧
      (∀ region ∈ link.regions, sampleOdd.memory.Hosts region.extent) ∧
      (sampleOdd.net.write sampleOdd.memory 2 9 4100 4 [7]).1 = .ok () ∧
      (sampleOdd.net.write sampleOdd.memory 2 9 4100 4 [7]).2.1.word 0 1 = 7 ∧
      (sampleOdd.net.write sampleOdd.memory 2 9 4104 4 [7]).1 =
        .error (.remoteAccess (.outsideRegion 1 4104 4)) ∧
      sampleOdd.net.OneSided sampleOdd.memory 2 link 4100 4 := by
  obtain ⟨link, hlink, -, hregions⟩ := links_sampleOdd
  have hhosts : ∀ region ∈ link.regions, sampleOdd.memory.Hosts region.extent := by
    rw [hregions]
    intro region hregion
    rw [List.mem_singleton.mp hregion]
    exact ⟨by decide +kernel, by decide, by decide +kernel, by decide +kernel, by decide⟩
  have hword : (sampleOdd.net.write sampleOdd.memory 2 9 4100 4 [7]).2.1.word 0 1 = 7 := by decide +kernel
  exact ⟨link, ⟨.above 4096 4096, .zero, _, rfl⟩, hlink, hhosts, rfl, hword, rfl,
    one_sided_exact hlink sampleOdd.memory 4100 4⟩

set_option maxRecDepth 10000 in
theorem huge_read_breaks_off :
    ∃ link, sampleOdd.Reachable ∧ sampleOdd.net.links[2]? = some link ∧
      (¬∃ region, link.Reaches 4 (·.remoteRead) 4096 (2 ^ 62) region) ∧
      sampleOdd.net.read sampleOdd.memory 2 4096 4 (.ofNat (2 ^ 62)) = .error .faulted := by
  obtain ⟨link, hlink, -, hregions⟩ := links_sampleOdd
  have hread : sampleOdd.net.read sampleOdd.memory 2 4096 4 (.ofNat (2 ^ 62)) = .error .faulted := by rfl
  refine ⟨link, ⟨.above 4096 4096, .zero, _, rfl⟩, hlink, ?_, hread⟩
  rintro ⟨region, hreaches⟩
  have hregion := List.mem_of_find?_eq_some hreaches.found
  rw [hregions] at hregion
  obtain rfl := List.mem_singleton.mp hregion
  have hstop : 4096 + 4 * 2 ^ 62 ≤ 4096 + 10 := hreaches.within.stop
  contradiction

end Loopback

end RemoteSlots
