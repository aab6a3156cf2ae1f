import RemoteSlots.Proofs.Fabric.Peer
import RemoteSlots.Proofs.Session.Queue

/-!
This module shows what the loopback fabric answers while a port is opened, a peer connects to it and a message is
sent to that peer, if nobody else uses the channel and the connection: no request fails, and nothing is left over.
-/

namespace RemoteSlots

open Std

theorem Link.completions_complete_of_nil {link : Link} (h : link.completions = []) (completion : Completion) :
    (link.complete completion).completions = [completion] := by
  have hroom : link.isFull = false := by
    simp only [isFull, h, List.length_nil, Bool.and_eq_false_iff, decide_eq_false_iff_not]
    omega
  rw [completions_complete, hroom, h]
  rfl

namespace Loopback

variable {net : Loopback} {memory : Memory} {k : ConnectionId} {c : ChannelId} {port : UInt16} {events : List Event}

theorem createChannel_fresh (net : Loopback) :
    (net.createChannel).2.channels[net.lastId + 1]? = some ⟨none, []⟩ := by
  rw [getElem?_createChannel, if_pos rfl]

theorem bind_held (hchannel : net.channels[c]? = some ⟨none, events⟩) (hheld : net.listeners.contains port) :
    net.bind c port = .error (.addressInUse port) := by
  unfold bind
  simp only [hchannel, Option.isSome_none, hheld, Bool.false_eq_true, if_false, if_true]

theorem bind_free (hchannel : net.channels[c]? = some ⟨none, events⟩) (hfree : net.listeners[port]? = none) :
    ∃ net', net.bind c port = .ok net' ∧ net'.channels[c]? = some ⟨some port, events⟩ ∧
      net'.listeners[port]? = some ⟨c, false⟩ := by
  have hnot : net.listeners.contains port = false := by
    rw [TreeMap.contains_eq_isSome_getElem?, hfree]
    rfl
  unfold bind
  simp only [hchannel, Option.isSome_none, hnot, Bool.false_eq_true, if_false]
  exact ⟨_, rfl, TreeMap.getElem?_insert_self, TreeMap.getElem?_insert_self⟩

theorem listen_bound (hchannel : net.channels[c]? = some ⟨some port, events⟩)
    (hbound : net.listeners[port]? = some ⟨c, false⟩) :
    ∃ net', net.listen c = .ok net' ∧ net'.channels[c]? = some ⟨some port, events⟩ ∧
      net'.listeners[port]? = some ⟨c, true⟩ := by
  unfold listen
  simp only [hchannel, hbound, if_true]
  exact ⟨_, rfl, hchannel, TreeMap.getElem?_insert_self⟩

theorem nextEvent_nil {port : Option UInt16} (h : net.channels[c]? = some ⟨port, []⟩) :
    net.nextEvent c = (.ok none, net) := by
  unfold nextEvent
  rw [h]

theorem nextEvent_cons {port : Option UInt16} {event : Event}
    (h : net.channels[c]? = some ⟨port, event :: events⟩) :
    ∃ net', net.nextEvent c = (.ok (some event), net') ∧ net'.channels[c]? = some ⟨port, events⟩ ∧
      net'.pending = net.pending ∧ net'.links = net.links := by
  unfold nextEvent
  rw [h]
  exact ⟨_, rfl, TreeMap.getElem?_insert_self, rfl, rfl⟩

/--
Whether a connection is open on both sides, and what is reachable, queued and told there.
-/
structure IsConnected (net : Loopback) (k : ConnectionId) (regions : List Registration)
    (completions : List Completion) (inbox : List (List UInt8)) : Prop where
  link : ∃ link, net.links[k]? = some link ∧ link.serverClosed = false ∧ link.peerClosed = false ∧
    link.regions = regions ∧ link.completions = completions ∧ link.inbox = inbox

namespace IsConnected

variable {regions : List Registration} {completions : List Completion} {inbox : List (List UInt8)}

theorem of_links_eq {net' : Loopback} (h : net.IsConnected k regions completions inbox)
    (hlinks : net'.links = net.links) : net'.IsConnected k regions completions inbox := by
  obtain ⟨hlink⟩ := h
  exact ⟨hlinks ▸ hlink⟩

theorem modifyLink {regions' : List Registration} {completions' : List Completion} {inbox' : List (List UInt8)}
    (h : net.IsConnected k regions completions inbox) {f : Link → Link}
    (hf : ∀ link : Link, link.serverClosed = false → link.peerClosed = false → link.regions = regions →
      link.completions = completions → link.inbox = inbox → (f link).serverClosed = false ∧
        (f link).peerClosed = false ∧ (f link).regions = regions' ∧ (f link).completions = completions' ∧
        (f link).inbox = inbox') :
    (net.modifyLink k f).IsConnected k regions' completions' inbox' := by
  obtain ⟨link, hlink, hserver, hpeer, hregions, hcompletions, hinbox⟩ := h.link
  refine ⟨f link, ?_, hf link hserver hpeer hregions hcompletions hinbox⟩
  rw [getElem?_modifyLink, if_pos rfl, hlink, Option.map_some]

end IsConnected

theorem connect_listening {net' : Loopback} (hconnect : net.connect port = .ok (k, net')) {listener : Listener}
    (hlistener : net.listeners[port]? = some listener) {held : Option UInt16}
    (hchannel : net.channels[listener.channel]? = some ⟨held, []⟩) :
    k ∈ net'.pending ∧ net'.IsConnected k [] [] [] ∧
      net'.channels[listener.channel]? = some ⟨held, [⟨.connectRequest, k, 0⟩]⟩ := by
  unfold connect at hconnect
  rw [hlistener] at hconnect
  dsimp only at hconnect
  split at hconnect
  · injection hconnect with hconnect
    injection hconnect with hk hnet
    subst hk hnet
    refine ⟨?_, ⟨_, TreeMap.getElem?_insert_self, rfl, rfl, rfl, rfl, rfl⟩, ?_⟩
    · exact List.mem_append_right _ (List.mem_singleton_self _)
    · rw [getElem?_deliver, if_pos rfl]
      simp only [hchannel, Option.map_some, List.nil_append]
  · contradiction

theorem connect_of_listening (h : net.listeners[port]? = some ⟨c, true⟩) :
    ∃ out, net.connect port = .ok out := by
  unfold connect
  rw [h]
  exact ⟨_, rfl⟩

theorem listening_of_connect {net' : Loopback} (h : net.connect port = .ok (k, net')) :
    ∃ listener, net.listeners[port]? = some listener ∧ listener.listening := by
  unfold connect at h
  split at h
  · contradiction
  · next listener hlistener =>
    split at h
    · next hlistening => exact ⟨listener, hlistener, hlistening⟩
    · contradiction

theorem accept_connected (hlink : net.IsConnected k [] [] []) (hpending : k ∈ net.pending) {held : Option UInt16}
    (hchannel : net.channels[c]? = some ⟨held, []⟩) (queues : QueueSizes) :
    ∃ queuePair net', net.accept c k queues = (.ok ⟨k, queuePair⟩, net') ∧ net'.IsConnected k [] [] [] ∧
      net'.channels[c]? = some ⟨held, [⟨.established, k, 0⟩]⟩ := by
  obtain ⟨link, hk, hserver, hpeer, hrest⟩ := hlink.link
  unfold accept
  simp only [hk, if_pos hpending, hpeer, Bool.false_eq_true, if_false]
  refine ⟨_, _, rfl, ?_, ?_⟩
  · have hwaiting : ({ net with pending := net.pending.erase k } : Loopback).IsConnected k [] [] [] :=
      hlink.of_links_eq rfl
    refine IsConnected.of_links_eq (hwaiting.modifyLink fun link hserver hpeer hregions hcompletions hinbox => ?_) rfl
    exact ⟨hserver, hpeer, hregions, hcompletions, hinbox⟩
  · rw [getElem?_deliver, if_pos rfl]
    exact congrArg (Option.map _) hchannel

theorem register_connected (hlink : net.IsConnected k [] [] []) {extent : Extent} (haligned : extent.address % 4 = 0)
    (access : Access) :
    ∃ key net', net.register k extent access = .ok (⟨key, key⟩, net') ∧
      net'.IsConnected k [⟨extent, key, access⟩] [] [] := by
  obtain ⟨link, hk, hserver, hrest⟩ := hlink.link
  unfold register
  simp only [hk, hserver, haligned, Bool.false_eq_true, if_false, ne_eq, not_true_eq_false]
  refine ⟨_, _, rfl, ?_⟩
  have hgrown : ({ net with lastId := net.lastId + 1 } : Loopback).IsConnected k [] [] [] := hlink.of_links_eq rfl
  refine hgrown.modifyLink fun link hserver hpeer hregions hcompletions hinbox => ?_
  exact ⟨hserver, hpeer, by rw [hregions, List.nil_append], hcompletions, hinbox⟩

theorem payload?_connected {link : Link} {region : Registration} (hregions : link.regions = [region])
    {element : SendElement} (hkey : region.key = element.key)
    (hcovers : region.covers element.address element.length) {count : Nat} (hlength : element.length = 4 * count) :
    payload? memory link element =
      some (bytesOfWords (memory.loadAt region.extent.block element.address count)) := by
  rw [hlength] at hcovers
  simp [payload?, hregions, hkey, hlength, hcovers]

theorem send_connected {region : Registration} (hlink : net.IsConnected k [region] [] []) (request : UInt64)
    {element : SendElement} (hkey : region.key = element.key)
    (hcovers : region.covers element.address element.length) {count : Nat} (hlength : element.length = 4 * count) :
    ∃ net', net.send memory k request element true = .ok net' ∧
      net'.IsConnected k [region] [⟨request, .success, .send⟩]
        [bytesOfWords (memory.loadAt region.extent.block element.address count)] := by
  obtain ⟨link, hk, hserver, hrest⟩ := hlink.link
  unfold send
  simp only [hk, hserver, Bool.false_eq_true, if_false]
  refine ⟨_, rfl, hlink.modifyLink fun link hserver hpeer hregions hcompletions hinbox => ?_⟩
  simp only [payload?_connected hregions hkey hcovers hlength, hpeer, Bool.false_eq_true, if_false, if_true]
  refine ⟨?_, ?_, ?_, ?_, ?_⟩
  · rw [Link.serverClosed_complete, hserver]
  · rw [Link.peerClosed_complete]
  · rw [Link.regions_complete, hregions]
  · apply Link.completions_complete_of_nil
    exact hcompletions
  · rw [Link.inbox_complete, hinbox, List.nil_append]

theorem poll_connected {regions : List Registration} {completion : Completion} {completions : List Completion}
    {inbox : List (List UInt8)} (hlink : net.IsConnected k regions (completion :: completions) inbox) :
    ∃ net', net.poll k = (some completion, net') ∧ net'.IsConnected k regions completions inbox := by
  obtain ⟨link, hk, hserver, hpeer, hregions, hcompletions, hinbox⟩ := hlink.link
  unfold poll
  simp only [hk, hcompletions, List.head?_cons]
  refine ⟨_, rfl, hlink.modifyLink fun link hserver hpeer hregions hcompletions hinbox => ?_⟩
  exact ⟨hserver, hpeer, hregions, by rw [hcompletions]; rfl, hinbox⟩

theorem receive_connected {regions : List Registration} {completions : List Completion} {message : List UInt8}
    {inbox : List (List UInt8)} (hlink : net.IsConnected k regions completions (message :: inbox)) (limit : Duration) :
    (net.receive k limit).1 = .ok message := by
  obtain ⟨link, hk, -, -, -, -, hinbox⟩ := hlink.link
  simp only [receive, hk, hinbox]

end Loopback

end RemoteSlots
