import Mathlib.Algebra.Group.Nat.Defs
import Mathlib.Data.List.Nodup
import RemoteSlots.Proofs.Fabric.Peer
import RemoteSlots.Proofs.Fabric.Server

/-!
This module shows that the tables of the loopback fabric agree with each other: only channels that are listened
on have connections waiting, no region outlives the server's side of its connection, and no number stands for two
things.
-/

namespace RemoteSlots

open Std

namespace Link

structure Narrows (link link' : Link) : Prop where
  channel : link'.channel = link.channel
  regions : link'.regions.Sublist link.regions
  closed : link'.serverClosed → link.serverClosed ∨ link'.regions = []

theorem Narrows.of_eq {link link' : Link} (hchannel : link'.channel = link.channel)
    (hregions : link'.regions = link.regions) (hclosed : link'.serverClosed = link.serverClosed) :
    link.Narrows link' :=
  ⟨hchannel, by rw [hregions], fun h => .inl (hclosed ▸ h)⟩

theorem Narrows.complete (link : Link) (c : Completion) : link.Narrows (link.complete c) :=
  .of_eq (channel_complete link c) (regions_complete link c) (serverClosed_complete link c)

end Link

namespace Loopback

structure Numbered (net : Loopback) : Prop where
  apart : ∀ n : Nat, (net.channels[n]?).isSome → net.links[n]? = none
  keys : ∀ (k : ConnectionId) (link : Link), net.links[k]? = some link → ∀ r ∈ link.regions,
    r.key.toNat ≤ net.lastId ∧ net.channels[r.key.toNat]? = none ∧ net.links[r.key.toNat]? = none
  nodup : ∀ (k : ConnectionId) (link : Link), net.links[k]? = some link → (link.regions.map (·.key)).Nodup
  unshared : ∀ (k j : ConnectionId) (link other : Link), net.links[k]? = some link →
    net.links[j]? = some other → ∀ r ∈ link.regions, ∀ s ∈ other.regions, r.key = s.key → k = j

/--
Whether the tables of the fabric agree with each other. Keys only have 32 bits, so they repeat when the counter
has passed them all.
-/
structure Orderly (net : Loopback) : Prop where
  listening : ∀ k ∈ net.pending, ∀ link, net.links[k]? = some link →
    ∃ port : UInt16, net.listeners[port]? = some { channel := link.channel, listening := true }
  closed : ∀ (k : ConnectionId) (link : Link), net.links[k]? = some link → link.serverClosed → link.regions = []
  numbered : net.lastId < 2 ^ 32 → net.Numbered

variable {net net' : Loopback}

theorem Numbered.of_le (h : net.Numbered) (hlastId : net.lastId ≤ net'.lastId)
    (hchannels : ∀ c : ChannelId, (net'.channels[c]?).isSome → (net.channels[c]?).isSome)
    (hnone : ∀ k : ConnectionId, net.links[k]? = none → net'.links[k]? = none)
    (hlinks : ∀ (k : ConnectionId) (link' : Link), net'.links[k]? = some link' →
      ∃ link, net.links[k]? = some link ∧ link'.regions.Sublist link.regions) : net'.Numbered where
  apart := fun n hn => hnone n (h.apart n (hchannels n hn))
  keys := by
    intro k link' hlink' r hr
    obtain ⟨link, hlink, hsub⟩ := hlinks k link' hlink'
    obtain ⟨hle, hchannel, hkey⟩ := h.keys k link hlink r (hsub.subset hr)
    refine ⟨Nat.le_trans hle hlastId, ?_, hnone _ hkey⟩
    rcases hsome : net'.channels[r.key.toNat]? with _ | channel
    · rfl
    · have hold := hchannels r.key.toNat (by rw [hsome]; rfl)
      rw [hchannel] at hold
      contradiction
  nodup := by
    intro k link' hlink'
    obtain ⟨link, hlink, hsub⟩ := hlinks k link' hlink'
    exact (h.nodup k link hlink).sublist (hsub.map _)
  unshared := by
    intro k j link' other' hlink' hother' r hr s hs heq
    obtain ⟨link, hlink, hsub⟩ := hlinks k link' hlink'
    obtain ⟨other, hother, hsub'⟩ := hlinks j other' hother'
    exact h.unshared k j link other hlink hother r (hsub.subset hr) s (hsub'.subset hs) heq

theorem Sound.not_mem_channels (h : net.Sound) {c : ChannelId} (hc : net.lastId < c) :
    net.channels[c]? = none := by
  rcases hchannel : net.channels[c]? with _ | channel
  · rfl
  · exact absurd (h.channel_le c channel hchannel) (Nat.not_le_of_lt hc)

def addRegion (net : Loopback) (k : ConnectionId) (r : Registration) : Loopback :=
  { net with lastId := net.lastId + 1 }.modifyLink k fun link => { link with regions := link.regions ++ [r] }

theorem links_addRegion {k j : ConnectionId} {r : Registration} {link' : Link}
    (hlink' : (net.addRegion k r).links[j]? = some link') :
    ∃ link, net.links[j]? = some link ∧
      (link' = link ∨ j = k ∧ link' = { link with regions := link.regions ++ [r] }) := by
  rw [addRegion, getElem?_modifyLink] at hlink'
  split at hlink'
  · next heq =>
    obtain ⟨link, hlink, rfl⟩ := Option.map_eq_some_iff.mp hlink'
    exact ⟨link, hlink, .inr ⟨heq.symm, rfl⟩⟩
  · exact ⟨link', hlink', .inl rfl⟩

theorem mem_regions_addRegion {k j : ConnectionId} {r s : Registration} {link' : Link}
    (hlink' : (net.addRegion k r).links[j]? = some link') (hs : s ∈ link'.regions) :
    (∃ link, net.links[j]? = some link ∧ s ∈ link.regions) ∨ j = k ∧ s = r := by
  obtain ⟨link, hlink, rfl | ⟨rfl, rfl⟩⟩ := links_addRegion hlink'
  · exact .inl ⟨link', hlink, hs⟩
  · rw [List.mem_append, List.mem_singleton] at hs
    exact hs.imp (fun hold => ⟨link, hlink, hold⟩) fun hnew => ⟨rfl, hnew⟩

theorem Numbered.addRegion (h : net.Numbered) (hnet : net.Sound) {k : ConnectionId} {r : Registration}
    (hkey : r.key.toNat = net.lastId + 1) : (net.addRegion k r).Numbered := by
  have hnone : ∀ n : Nat, net.links[n]? = none → (net.addRegion k r).links[n]? = none := by
    intro n hn
    rw [Loopback.addRegion, getElem?_modifyLink]
    split <;> simp [hn]
  have hfresh : ∀ (j : ConnectionId) (link : Link), net.links[j]? = some link → ∀ s ∈ link.regions,
      s.key ≠ r.key := by
    intro j link hlink s hs heq
    have hle := (h.keys j link hlink s hs).1
    rw [heq, hkey] at hle
    exact Nat.not_succ_le_self _ hle
  constructor
  · exact fun n hn => hnone n (h.apart n hn)
  · intro j link' hlink' s hs
    rcases mem_regions_addRegion hlink' hs with ⟨link, hlink, hold⟩ | ⟨rfl, rfl⟩
    · obtain ⟨hle, hchannel, hlinkNone⟩ := h.keys j link hlink s hold
      exact ⟨Nat.le_succ_of_le hle, hchannel, hnone _ hlinkNone⟩
    · rw [hkey]
      exact ⟨Nat.le_refl _, hnet.not_mem_channels (Nat.lt_succ_self _),
        hnone _ (hnet.not_mem_links (Nat.lt_succ_self _))⟩
  · intro j link' hlink'
    obtain ⟨link, hlink, rfl | ⟨rfl, rfl⟩⟩ := links_addRegion hlink'
    · exact h.nodup j link' hlink
    · rw [List.map_append, List.nodup_append]
      refine ⟨h.nodup j link hlink, List.nodup_singleton _, ?_⟩
      intro key hold key' hnew heq
      obtain ⟨s, hs, rfl⟩ := List.mem_map.mp hold
      exact hfresh j link hlink s hs (heq.trans (List.mem_singleton.mp hnew))
  · intro j i link' other' hlink' hother' s hs t ht heq
    rcases mem_regions_addRegion hlink' hs with ⟨link, hlink, hold⟩ | ⟨rfl, rfl⟩
    · rcases mem_regions_addRegion hother' ht with ⟨other, hother, hold'⟩ | ⟨rfl, rfl⟩
      · exact h.unshared j i link other hlink hother s hold t hold' heq
      · exact absurd heq (hfresh j link hlink s hold)
    · rcases mem_regions_addRegion hother' ht with ⟨other, hother, hold'⟩ | ⟨rfl, rfl⟩
      · exact absurd heq.symm (hfresh i other hother t hold')
      · rfl

theorem Numbered.insertLink (h : net.Numbered) (hnet : net.Sound) {link : Link} (hempty : link.regions = [])
    (pending : List ConnectionId) :
    { net with
      lastId := net.lastId + 2
      links := net.links.insert (net.lastId + 1) link
      pending }.Numbered := by
  have hlinks : ∀ k : ConnectionId, (net.links.insert (net.lastId + 1) link)[k]? =
      if net.lastId + 1 = k then some link else net.links[k]? := by
    intro k
    rw [TreeMap.getElem?_insert]
    simp only [Std.compare_eq_iff_eq]
  have hregions : ∀ (k : ConnectionId) (link' : Link), (net.links.insert (net.lastId + 1) link)[k]? = some link' →
      ∀ r ∈ link'.regions, net.links[k]? = some link' := by
    intro k link' hlink' r hr
    rw [hlinks] at hlink'
    split at hlink'
    · injection hlink' with hlink'
      rw [← hlink', hempty] at hr
      contradiction
    · exact hlink'
  constructor
  · intro n hn
    rcases hchannel : net.channels[n]? with _ | channel
    · rw [hchannel] at hn
      contradiction
    · simp only [hlinks]
      rw [if_neg (Nat.ne_of_gt (Nat.lt_succ_of_le (hnet.channel_le n channel hchannel)))]
      exact h.apart n hn
  · intro k link' hlink' r hr
    obtain ⟨hle, hchannelNone, hlinkNone⟩ := h.keys k link' (hregions k link' hlink' r hr) r hr
    refine ⟨Nat.le_add_right_of_le hle, hchannelNone, ?_⟩
    simp only [hlinks]
    rw [if_neg (Nat.ne_of_gt (Nat.lt_succ_of_le hle)), hlinkNone]
  · intro k link' hlink'
    simp only [hlinks] at hlink'
    split at hlink'
    · injection hlink' with hlink'
      rw [← hlink', hempty]
      exact List.nodup_nil
    · exact h.nodup k link' hlink'
  · intro k j link' other' hlink' hother' r hr s hs
    exact h.unshared k j link' other' (hregions k link' hlink' r hr) (hregions j other' hother' s hs) r hr s hs

def numbers (net : Loopback) : List Nat :=
  net.channels.keys ++ (net.links.keys ++
    net.links.toList.flatMap fun entry => entry.2.regions.map fun r => r.key.toNat)

theorem nodup_keys (map : TreeMap Nat α) : map.keys.Nodup :=
  TreeMap.distinct_keys.imp fun hne heq => hne (Nat.compare_eq_eq.mpr heq)

theorem mem_keys_iff {map : TreeMap Nat α} {n : Nat} : n ∈ map.keys ↔ (map[n]?).isSome :=
  TreeMap.mem_keys.trans TreeMap.mem_iff_isSome_getElem?

theorem Numbered.nodup_numbers (h : net.Numbered) : net.numbers.Nodup := by
  have hregion : ∀ n, (n ∈ net.links.toList.flatMap fun entry => entry.2.regions.map fun r => r.key.toNat) →
      net.channels[n]? = none ∧ net.links[n]? = none := by
    intro n hn
    obtain ⟨⟨k, link⟩, hlink, hmem⟩ := List.mem_flatMap.mp hn
    obtain ⟨r, hr, rfl⟩ := List.mem_map.mp hmem
    exact (h.keys k link (TreeMap.mem_toList_iff_getElem?_eq_some.mp hlink) r hr).2
  refine List.nodup_append.mpr ⟨nodup_keys _, List.nodup_append.mpr ⟨nodup_keys _, ?_, ?_⟩, ?_⟩
  · refine List.nodup_flatMap.mpr ⟨?_, ?_⟩
    · rintro ⟨k, link⟩ hlink
      have hnodup := h.nodup k link (TreeMap.mem_toList_iff_getElem?_eq_some.mp hlink)
      have hkeys := hnodup.map fun _ _ => UInt32.toNat_inj.mp
      rwa [List.map_map] at hkeys
    · refine (List.pairwise_iff_forall_sublist.mpr ?_)
      rintro ⟨k, link⟩ ⟨j, other⟩ hsub n hn hn'
      have hne := List.pairwise_iff_forall_sublist.mp (TreeMap.distinct_keys_toList) hsub
      obtain ⟨r, hr, rfl⟩ := List.mem_map.mp hn
      obtain ⟨s, hs, heq⟩ := List.mem_map.mp hn'
      have hlink := TreeMap.mem_toList_iff_getElem?_eq_some.mp (hsub.subset (List.mem_cons_self ..))
      have hother := TreeMap.mem_toList_iff_getElem?_eq_some.mp
        (hsub.subset (List.mem_cons_of_mem _ (List.mem_singleton_self _)))
      exact hne (Nat.compare_eq_eq.mpr
        (h.unshared k j link other hlink hother r hr s hs (UInt32.toNat_inj.mp heq.symm)))
  · intro n hn m hm
    rintro rfl
    rw [mem_keys_iff, (hregion n hm).2] at hn
    contradiction
  · intro n hn m hm
    rintro rfl
    rw [mem_keys_iff] at hn
    rcases List.mem_append.mp hm with hlink | hkey
    · rw [mem_keys_iff, h.apart n hn] at hlink
      contradiction
    · rw [(hregion n hkey).1] at hn
      contradiction

namespace Orderly

theorem empty : Loopback.empty.Orderly where
  listening := by simp [Loopback.empty]
  closed := by simp [Loopback.empty]
  numbered := fun _ => by constructor <;> simp [Loopback.empty]

theorem deliver (h : net.Orderly) (channel : ChannelId) (event : Event) :
    (net.deliver channel event).Orderly where
  listening := h.listening
  closed := h.closed
  numbered := by
    intro hlt
    refine (h.numbered hlt).of_le (Nat.le_refl _) ?_ (fun _ h => h) fun k link hlink => ⟨link, hlink, .refl _⟩
    intro c hc
    rw [getElem?_deliver] at hc
    split at hc
    · simpa using hc
    · exact hc

theorem modifyLink (h : net.Orderly) {id : ConnectionId} {f : Link → Link}
    (hf : ∀ link, net.links[id]? = some link → link.Narrows (f link)) : (net.modifyLink id f).Orderly := by
  have hlinks : ∀ (k : ConnectionId) (link' : Link), (net.modifyLink id f).links[k]? = some link' →
      ∃ link, net.links[k]? = some link ∧ link.Narrows link' := by
    intro k link' hlink'
    rw [getElem?_modifyLink] at hlink'
    split at hlink'
    · next heq =>
      subst heq
      obtain ⟨link, hlink, rfl⟩ := Option.map_eq_some_iff.mp hlink'
      exact ⟨link, hlink, hf link hlink⟩
    · exact ⟨link', hlink', .of_eq rfl rfl rfl⟩
  constructor
  · intro k hk link' hlink'
    obtain ⟨link, hlink, hnarrows⟩ := hlinks k link' hlink'
    rw [hnarrows.channel]
    exact h.listening k hk link hlink
  · intro k link' hlink' hclosed
    obtain ⟨link, hlink, hnarrows⟩ := hlinks k link' hlink'
    rcases hnarrows.closed hclosed with hold | hempty
    · have hsub := hnarrows.regions
      rw [h.closed k link hlink hold] at hsub
      exact List.sublist_nil.mp hsub
    · exact hempty
  · intro hlt
    refine (h.numbered hlt).of_le (Nat.le_refl _) (fun _ h => h) ?_ ?_
    · intro k hnone
      rw [getElem?_modifyLink]
      split <;> simp [hnone]
    · intro k link' hlink'
      obtain ⟨link, hlink, hnarrows⟩ := hlinks k link' hlink'
      exact ⟨link, hlink, hnarrows.regions⟩

theorem erase (h : net.Orderly) (k : ConnectionId) : { net with pending := net.pending.erase k }.Orderly :=
  ⟨fun j hj => h.listening j (List.mem_of_mem_erase hj), h.closed, fun hlt =>
    (h.numbered hlt).of_le (Nat.le_refl _) (fun _ h => h) (fun _ h => h) fun _ link hlink => ⟨link, hlink, .refl _⟩⟩

theorem createChannel (h : net.Orderly) (hnet : net.Sound) : net.createChannel.2.Orderly where
  listening := h.listening
  closed := h.closed
  numbered := by
    intro hlt
    have hold := h.numbered (Nat.lt_of_succ_lt hlt)
    constructor
    · intro n hn
      rw [getElem?_createChannel] at hn
      split at hn
      · next heq => exact heq ▸ hnet.not_mem_links (Nat.lt_succ_self _)
      · exact hold.apart n hn
    · intro k link hlink r hr
      obtain ⟨hle, hchannel, hkey⟩ := hold.keys k link hlink r hr
      refine ⟨Nat.le_succ_of_le hle, ?_, hkey⟩
      rw [getElem?_createChannel, if_neg (Nat.ne_of_gt (Nat.lt_succ_of_le hle)), hchannel]
    · exact hold.nodup
    · exact hold.unshared

theorem bind (h : net.Orderly) {channel : ChannelId} {port : UInt16} (hbind : net.bind channel port = .ok net') :
    net'.Orderly := by
  unfold Loopback.bind at hbind
  split at hbind
  · contradiction
  · next c hc =>
    split at hbind
    · contradiction
    · split at hbind
      · contradiction
      · next hfree =>
        injection hbind with hbind
        subst hbind
        have hfree : net.listeners[port]? = none := by simpa using hfree
        refine ⟨?_, h.closed, fun hlt => (h.numbered hlt).of_le (Nat.le_refl _) ?_ (fun _ h => h)
          fun _ link hlink => ⟨link, hlink, .refl _⟩⟩
        · intro k hk link hlink
          obtain ⟨other, hother⟩ := h.listening k hk link hlink
          have hne : port ≠ other := by
            rintro rfl
            rw [hfree] at hother
            contradiction
          refine ⟨other, ?_⟩
          simp only [TreeMap.getElem?_insert, Std.compare_eq_iff_eq, if_neg hne, hother]
        · intro d hd
          simp only [TreeMap.getElem?_insert, Std.compare_eq_iff_eq] at hd
          split at hd
          · next heq => rw [← heq, hc]; rfl
          · exact hd

theorem listen (h : net.Orderly) {channel : ChannelId} (hlisten : net.listen channel = .ok net') :
    net'.Orderly := by
  unfold Loopback.listen at hlisten
  split at hlisten
  · contradiction
  · split at hlisten
    · contradiction
    · next port _ =>
      split at hlisten
      · next l hl =>
        split at hlisten
        · injection hlisten with hlisten
          subst hlisten
          refine ⟨?_, h.closed, fun hlt => (h.numbered hlt).of_le (Nat.le_refl _) (fun _ h => h) (fun _ h => h)
            fun _ link hlink => ⟨link, hlink, .refl _⟩⟩
          intro k hk link hlink
          obtain ⟨other, hother⟩ := h.listening k hk link hlink
          refine ⟨other, ?_⟩
          simp only [TreeMap.getElem?_insert, Std.compare_eq_iff_eq]
          split
          · next heq =>
            subst heq
            rw [hl] at hother
            injection hother with hother
            rw [hother]
          · exact hother
        · contradiction
      · contradiction

theorem nextEvent (h : net.Orderly) (channel : ChannelId) : (net.nextEvent channel).2.Orderly := by
  unfold Loopback.nextEvent
  split
  · exact h
  · next c hc =>
    split
    · exact h
    · refine ⟨h.listening, h.closed, fun hlt => (h.numbered hlt).of_le (Nat.le_refl _) ?_ (fun _ h => h)
        fun _ link hlink => ⟨link, hlink, .refl _⟩⟩
      intro d hd
      simp only [TreeMap.getElem?_insert, Std.compare_eq_iff_eq] at hd
      split at hd
      · next heq => rw [← heq, hc]; rfl
      · exact hd

theorem accept (h : net.Orderly) (channel : ChannelId) (k : ConnectionId) (queues : QueueSizes) :
    (net.accept channel k queues).2.Orderly := by
  rcases accept_cases net channel k queues with ⟨_, heq⟩ | ⟨_, heq⟩ | ⟨link, -, -, -, heq⟩
  · rw [heq]
    exact h
  · rw [heq]
    exact h.erase k
  · rw [heq]
    apply Orderly.deliver
    apply (h.erase k).modifyLink
    exact fun _ _ => .of_eq rfl rfl rfl

theorem closeChannel (h : net.Orderly) (hnet : net.Sound) (channel : ChannelId) :
    (net.closeChannel channel).Orderly where
  listening := by
    intro k hk link hlink
    rw [mem_pending_closeChannel hnet] at hk
    rw [links_closeChannel] at hlink
    obtain ⟨port, hport⟩ := h.listening k hk.1 link hlink
    exact ⟨port, (getElem?_listeners_closeChannel hnet ..).mpr ⟨hport, hk.2 link hlink⟩⟩
  closed := by
    rw [links_closeChannel]
    exact h.closed
  numbered := by
    intro hlt
    rw [lastId_closeChannel] at hlt
    refine (h.numbered hlt).of_le (Nat.le_of_eq (lastId_closeChannel ..).symm) ?_ ?_ ?_
    · intro c hc
      rw [getElem?_closeChannel] at hc
      split at hc
      · contradiction
      · exact hc
    · rw [links_closeChannel]
      exact fun _ h => h
    · intro k link hlink
      rw [links_closeChannel] at hlink
      exact ⟨link, hlink, .refl _⟩

theorem addRegion (h : net.Orderly) (hnet : net.Sound) {k : ConnectionId} {link : Link}
    (hlink : net.links[k]? = some link) (hopen : link.serverClosed = false) {r : Registration}
    (hkey : net.lastId + 1 < 2 ^ 32 → r.key.toNat = net.lastId + 1) : (net.addRegion k r).Orderly where
  listening := by
    intro j hj link' hlink'
    obtain ⟨old, hold, rfl | ⟨-, rfl⟩⟩ := links_addRegion hlink'
    · exact h.listening j hj link' hold
    · exact h.listening j hj old hold
  closed := by
    intro j link' hlink' hclosed
    obtain ⟨old, hold, rfl | ⟨rfl, rfl⟩⟩ := links_addRegion hlink'
    · exact h.closed j link' hold hclosed
    · rw [hlink] at hold
      injection hold with hold
      rw [← hold, hopen] at hclosed
      contradiction
  numbered := fun hlt => (h.numbered (Nat.lt_of_succ_lt hlt)).addRegion hnet (hkey hlt)

theorem register (h : net.Orderly) (hnet : net.Sound) {k : ConnectionId} {extent : Extent} {access : Access}
    {keys : RegionKeys} (hregister : net.register k extent access = .ok (keys, net')) : net'.Orderly := by
  unfold Loopback.register at hregister
  split at hregister
  · contradiction
  · next link hlink =>
    split at hregister
    · contradiction
    · next hopen =>
      split at hregister
      · contradiction
      · injection hregister with hregister
        obtain ⟨-, rfl⟩ := Prod.mk.inj hregister
        exact h.addRegion hnet hlink (by simpa using hopen) fun hlt => UInt32.toNat_ofNat_of_lt' hlt

theorem deregister (h : net.Orderly) {k : ConnectionId} {key : UInt32}
    (hderegister : net.deregister k key = .ok net') : net'.Orderly := by
  unfold Loopback.deregister at hderegister
  split at hderegister
  · contradiction
  · split at hderegister
    · injection hderegister with hderegister
      subst hderegister
      apply h.modifyLink
      exact fun link _ => ⟨rfl, List.filter_sublist, .inl⟩
    · contradiction

theorem send (h : net.Orderly) {memory : Memory} {k : ConnectionId} {request : UInt64} {element : SendElement}
    {signaled : Bool} (hsend : net.send memory k request element signaled = .ok net') : net'.Orderly := by
  unfold Loopback.send at hsend
  split at hsend
  · contradiction
  · split at hsend
    · contradiction
    · injection hsend with hsend
      subst hsend
      apply h.modifyLink
      intro link _
      dsimp only
      split
      · exact .complete ..
      · split
        · exact .complete ..
        · split
          · exact .of_eq (Link.channel_complete ..) (Link.regions_complete ..) (Link.serverClosed_complete ..)
          · exact .of_eq rfl rfl rfl

theorem poll (h : net.Orderly) (k : ConnectionId) : (net.poll k).2.Orderly := by
  unfold Loopback.poll
  split
  · exact h
  · apply h.modifyLink
    exact fun _ _ => .of_eq rfl rfl rfl

theorem disconnect (h : net.Orderly) (k : ConnectionId) : (net.disconnect k).Orderly := by
  apply h.modifyLink
  exact fun link _ => ⟨rfl, List.nil_sublist _, fun _ => .inr rfl⟩

theorem serve (h : net.Orderly) (hnet : net.Sound) (memory : Memory) (request : Request) :
    (net.serve memory request).2.Orderly := by
  cases request with
  | createChannel => exact h.createChannel hnet
  | bind channel port =>
    simp only [Loopback.serve, answer]
    split
    · next hbind => exact h.bind hbind
    · exact h
  | listen channel backlog =>
    simp only [Loopback.serve, answer]
    split
    · next hlisten => exact h.listen hlisten
    · exact h
  | nextEvent channel => exact h.nextEvent channel
  | accept channel k queues => exact h.accept channel k queues
  | register endpoint extent access =>
    simp only [Loopback.serve]
    split
    · next hregister => exact h.register hnet hregister
    · exact h
  | deregister endpoint keys =>
    simp only [Loopback.serve, answer]
    split
    · next hderegister => exact h.deregister hderegister
    · exact h
  | send endpoint request element signaled =>
    simp only [Loopback.serve, answer]
    split
    · next hsend => exact h.send hsend
    · exact h
  | poll endpoint => exact h.poll endpoint.handle
  | receivePsn endpoint => exact h
  | disconnect endpoint => exact h.disconnect endpoint.handle
  | closeChannel channel => exact h.closeChannel hnet channel

theorem connect (h : net.Orderly) (hnet : net.Sound) {port : UInt16} {id : ConnectionId}
    (hconnect : net.connect port = .ok (id, net')) : net'.Orderly := by
  have hlistening : ∀ l, net.listeners[port]? = some l → l.listening = true := by
    intro l hl
    simp only [Loopback.connect, hl] at hconnect
    split at hconnect
    · assumption
    · contradiction
  obtain ⟨rfl, l, link, hl, hfresh, hchannel, rfl⟩ := connect_eq_ok hconnect
  apply Orderly.deliver
  constructor
  · intro k hk link' hlink'
    rw [TreeMap.getElem?_insert] at hlink'
    simp only [Std.compare_eq_iff_eq] at hlink'
    split at hlink'
    · injection hlink' with hlink'
      refine ⟨port, ?_⟩
      rw [← hlink', hchannel, hl, ← hlistening l hl]
    · next hne =>
      rcases List.mem_append.mp hk with hold | hnew
      · exact h.listening k hold link' hlink'
      · exact absurd (List.mem_singleton.mp hnew).symm hne
  · intro k link' hlink' hclosed
    rw [TreeMap.getElem?_insert] at hlink'
    split at hlink'
    · injection hlink' with hlink'
      rw [← hlink', hfresh.serverClosed] at hclosed
      contradiction
    · exact h.closed k link' hlink' hclosed
  · intro hlt
    exact (h.numbered (Nat.lt_of_le_of_lt (Nat.le_add_right ..) hlt)).insertLink hnet hfresh.regions _

theorem inject (h : net.Orderly) {port : UInt16} {kind : EventKind} {status : Int}
    (hinject : net.inject port kind status = .ok net') : net'.Orderly := by
  obtain ⟨channel, rfl⟩ := inject_eq_ok hinject
  exact h.deliver ..

theorem receive (h : net.Orderly) (id : ConnectionId) (limit : Duration) : (net.receive id limit).2.Orderly := by
  unfold Loopback.receive
  split
  · exact h
  · split
    · exact h
    · apply h.modifyLink
      exact fun _ _ => .of_eq rfl rfl rfl

theorem write (h : net.Orderly) (memory : Memory) (id : ConnectionId) (request address : UInt64) (key : UInt32)
    (words : List UInt32) : (net.write memory id request address key words).2.2.Orderly := by
  unfold Loopback.write
  split
  · exact h
  · split
    · apply h.modifyLink
      exact fun _ _ => .of_eq rfl rfl rfl
    · apply h.modifyLink
      exact fun link _ => .complete link _

theorem hangUp (h : net.Orderly) (id : ConnectionId) : (net.hangUp id).Orderly := by
  have hmodify : (net.modifyLink id fun link => { link with peerClosed := true }).Orderly := by
    apply h.modifyLink
    exact fun _ _ => .of_eq rfl rfl rfl
  unfold Loopback.hangUp
  split
  · exact h
  · split
    · exact h
    · dsimp only
      split
      · exact hmodify
      · exact hmodify.deliver ..

end Orderly

end Loopback

end RemoteSlots
