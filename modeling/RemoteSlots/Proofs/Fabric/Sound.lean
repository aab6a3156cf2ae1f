import Mathlib.Data.List.Basic
import RemoteSlots.Fabric.Loopback.Peer
import RemoteSlots.Fabric.Loopback.Server
import RemoteSlots.Proofs.World.Handle

/-!
This module contains the invariant of the loopback fabric: ports, channels, events and connections refer
to each other as they should, and a connection that waits to be accepted was not used yet. Every request
and everything that peers do keeps it.
-/

namespace RemoteSlots

open Std

namespace Link

structure IsFresh (link : Link) : Prop where
  regions : link.regions = []
  inbox : link.inbox = []
  acceptedBy : link.acceptedBy = none
  serverClosed : link.serverClosed = false
  completions : ∀ c ∈ link.completions, c.status ≠ .success

@[simp]
theorem channel_complete (link : Link) (c : Completion) : (link.complete c).channel = link.channel := by
  unfold complete
  split <;> rfl

@[simp]
theorem regions_complete (link : Link) (c : Completion) : (link.complete c).regions = link.regions := by
  unfold complete
  split <;> rfl

@[simp]
theorem inbox_complete (link : Link) (c : Completion) : (link.complete c).inbox = link.inbox := by
  unfold complete
  split <;> rfl

@[simp]
theorem acceptedBy_complete (link : Link) (c : Completion) :
    (link.complete c).acceptedBy = link.acceptedBy := by
  unfold complete
  split <;> rfl

@[simp]
theorem serverClosed_complete (link : Link) (c : Completion) :
    (link.complete c).serverClosed = link.serverClosed := by
  unfold complete
  split <;> rfl

@[simp]
theorem peerClosed_complete (link : Link) (c : Completion) :
    (link.complete c).peerClosed = link.peerClosed := by
  unfold complete
  split <;> rfl

@[simp]
theorem psn_complete (link : Link) (c : Completion) : (link.complete c).psn = link.psn := by
  unfold complete
  split <;> rfl

theorem mem_completions_complete {link : Link} {c other : Completion}
    (h : other ∈ (link.complete c).completions) : other ∈ link.completions ∨ other = c := by
  unfold complete at h
  split at h
  · exact .inl h
  · simpa using h

theorem IsFresh.complete {link : Link} (h : link.IsFresh) {c : Completion} (hc : c.status ≠ .success) :
    (link.complete c).IsFresh where
  regions := by simpa using h.regions
  inbox := by simpa using h.inbox
  acceptedBy := by simpa using h.acceptedBy
  serverClosed := by simpa using h.serverClosed
  completions := by
    intro other hother
    rcases mem_completions_complete hother with hold | rfl
    · exact h.completions other hold
    · exact hc

end Link

namespace Loopback

theorem getElem?_modifyLink (net : Loopback) (id k : ConnectionId) (f : Link → Link) :
    (net.modifyLink id f).links[k]? = if id = k then net.links[k]?.map f else net.links[k]? := by
  unfold modifyLink
  rw [TreeMap.getElem?_modify]
  simp only [Nat.compare_eq_eq]
  split
  · next h => rw [h]
  · rfl

theorem getElem?_deliver (net : Loopback) (channel c : ChannelId) (event : Event) :
    (net.deliver channel event).channels[c]? =
      if channel = c then
        net.channels[c]?.map fun old => { old with events := old.events ++ [event] }
      else net.channels[c]? := by
  unfold deliver
  rw [TreeMap.getElem?_modify]
  simp only [Nat.compare_eq_eq]
  split
  · next h => rw [h]
  · rfl

def Asked (net : Loopback) (channel : ChannelId) (event : Event) : Prop :=
  event.kind = .connectRequest → event.connection ≠ 0 →
    ∃ link, net.links[event.connection]? = some link ∧ link.channel = channel

/--
The invariant of the loopback fabric.
-/
structure Sound (net : Loopback) : Prop where
  channel_le : ∀ (c : ChannelId) (channel : Channel), net.channels[c]? = some channel → c ≤ net.lastId
  link_bounds : ∀ (k : ConnectionId) (link : Link), net.links[k]? = some link → 0 < k ∧ k ≤ net.lastId
  listener : ∀ (port : UInt16) (l : Listener), net.listeners[port]? = some l →
    ∃ channel, net.channels[l.channel]? = some channel ∧ channel.port = some port
  bound : ∀ (c : ChannelId) (channel : Channel) (port : UInt16), net.channels[c]? = some channel →
    channel.port = some port → ∃ l, net.listeners[port]? = some l ∧ l.channel = c
  asked : ∀ (c : ChannelId) (channel : Channel) (event : Event), net.channels[c]? = some channel →
    event ∈ channel.events → net.Asked c event
  pending : ∀ k ∈ net.pending,
    ∃ link, net.links[k]? = some link ∧ link.IsFresh ∧ (net.channels[link.channel]?).isSome
  nodup : net.pending.Nodup

namespace Sound

variable {net : Loopback}

theorem empty : Loopback.empty.Sound where
  channel_le := by simp [Loopback.empty]
  link_bounds := by simp [Loopback.empty]
  listener := by simp [Loopback.empty]
  bound := by simp [Loopback.empty]
  asked := by simp [Loopback.empty]
  pending := by simp [Loopback.empty]
  nodup := by simp [Loopback.empty]

theorem deliver (h : net.Sound) {channel : ChannelId} {event : Event}
    (hevent : net.Asked channel event) : (net.deliver channel event).Sound where
  channel_le := by
    intro c new hnew
    rw [getElem?_deliver] at hnew
    have hle := h.channel_le c
    change c ≤ net.lastId
    grind
  link_bounds := h.link_bounds
  listener := by
    intro port l hl
    obtain ⟨old, hold, hport⟩ := h.listener port l hl
    rw [getElem?_deliver]
    grind
  bound := by
    intro c new port hnew hport
    rw [getElem?_deliver] at hnew
    have hbound := h.bound c
    change ∃ l, net.listeners[port]? = some l ∧ l.channel = c
    grind
  asked := by
    intro c new other hnew hother
    rw [getElem?_deliver] at hnew
    have hasked := h.asked c
    change net.Asked c other
    grind
  pending := by
    intro k hk
    obtain ⟨link, hlink, hfresh, hsome⟩ := h.pending k hk
    refine ⟨link, hlink, hfresh, ?_⟩
    rw [getElem?_deliver]
    split <;> simp_all
  nodup := h.nodup

theorem modifyLink (h : net.Sound) {id : ConnectionId} {f : Link → Link}
    (hchannel : ∀ link, net.links[id]? = some link → (f link).channel = link.channel)
    (hfresh : id ∈ net.pending → ∀ link, link.IsFresh → (f link).IsFresh) :
    (net.modifyLink id f).Sound where
  channel_le := h.channel_le
  link_bounds := by
    intro k new hnew
    rw [getElem?_modifyLink] at hnew
    have hbounds := h.link_bounds k
    change 0 < k ∧ k ≤ net.lastId
    grind
  listener := h.listener
  bound := h.bound
  asked := by
    intro c channel event hchan hevent hkind hne
    obtain ⟨link, hlink, heq⟩ := h.asked c channel event hchan hevent hkind hne
    rw [getElem?_modifyLink]
    grind
  pending := by
    intro k hk
    obtain ⟨link, hlink, hlinkFresh, hsome⟩ := h.pending k hk
    rw [getElem?_modifyLink]
    by_cases heq : id = k
    · subst heq
      refine ⟨f link, by simp [hlink], hfresh hk link hlinkFresh, ?_⟩
      rw [hchannel link hlink]
      exact hsome
    · exact ⟨link, by simp [heq, hlink], hlinkFresh, hsome⟩
  nodup := h.nodup

end Sound

end Loopback

end RemoteSlots
