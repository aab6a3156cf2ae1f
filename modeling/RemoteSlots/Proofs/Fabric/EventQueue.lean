import RemoteSlots.Proofs.Fabric.CompletionQueue

/-!
This module shows what the requests that the loopback fabric serves do to the events that wait on a channel, and to
what decides about the events of a connection: which channel was asked for it, who accepted it, and whether its
peer hung up.
-/

namespace RemoteSlots

open Std

structure Standing where
  channel : ChannelId
  acceptedBy : Option ChannelId
  closed : Bool
  deriving DecidableEq, Repr

def Link.standing (link : Link) : Standing :=
  { channel := link.channel, acceptedBy := link.acceptedBy, closed := link.peerClosed }

namespace Loopback

variable {net net' : Loopback} {memory : Memory} {request : Request} {c channel : ChannelId} {k : ConnectionId}
  {queues : QueueSizes} {new : List Event}

def standing? (net : Loopback) (k : ConnectionId) : Option Standing := net.links[k]?.map Link.standing

def events (net : Loopback) (c : ChannelId) : List Event :=
  match net.channels[c]? with
  | none => []
  | some channel => channel.events

/--
How the queue of a channel changes: events are put at its end, or some are taken from its front.
-/
inductive Queues (net net' : Loopback) (c : ChannelId) : List Event → Prop
  | put {new : List Event} (h : net'.events c = net.events c ++ new) : Queues net net' c new
  | taken (h : net'.events c <:+ net.events c) : Queues net net' c []

namespace Queues

theorem of_channels_eq (h : net'.channels[c]? = net.channels[c]?) : net.Queues net' c [] := by
  apply put
  rw [List.append_nil, events, events, h]

theorem isSuffix (h : net.Queues net' c []) : net'.events c <:+ net.events c := by
  generalize hnew : ([] : List Event) = new at h
  cases h with
  | put h =>
    subst hnew
    simp [h]
  | taken h => exact h

theorem drop_eq (h : net.Queues net' c new) : (net'.events c).drop (net.events c).length = new := by
  cases h with
  | put h => rw [h, List.drop_left]
  | taken h => exact List.drop_eq_nil_of_le h.length_le

end Queues

theorem events_deliver (net : Loopback) (channel c : ChannelId) (event : Event) :
    (net.deliver channel event).events c =
      net.events c ++ if channel = c ∧ (net.channels[c]?).isSome then [event] else [] := by
  simp only [events, getElem?_deliver]
  rcases net.channels[c]? with _ | queue <;> by_cases heq : channel = c <;> simp [heq]

theorem standing?_deliver (net : Loopback) (channel : ChannelId) (event : Event) (k : ConnectionId) :
    (net.deliver channel event).standing? k = net.standing? k :=
  rfl

theorem queues_serve (hrequest : ∀ channel k queues, request ≠ .accept channel k queues) :
    net.Queues (net.serve memory request).2 c [] := by
  have hendpoint : ∀ j, .endpoint j ∈ request.handles → net.Queues (net.serve memory request).2 c [] := by
    intro j hj
    rcases serve_endpoint net memory request hj with heq | ⟨n, f, heq, -⟩
    · rw [heq]
      exact .of_channels_eq rfl
    · rw [heq]
      exact .of_channels_eq rfl
  cases request with
  | createChannel =>
    by_cases hc : net.lastId + 1 = c
    · apply Queues.taken
      simp only [serve, events, getElem?_createChannel, if_pos hc]
      exact List.nil_suffix
    · exact .of_channels_eq ((getElem?_createChannel net c).trans (if_neg hc))
  | bind channel port =>
    apply Queues.put
    simp only [serve, answer, Loopback.bind, events]
    grind
  | listen channel backlog =>
    apply Queues.of_channels_eq
    simp only [serve, answer, Loopback.listen]
    grind
  | nextEvent channel =>
    apply Queues.taken
    simp only [serve, Loopback.nextEvent]
    rcases hchannel : net.channels[channel]? with _ | queue
    · exact List.suffix_refl _
    · dsimp only
      rcases hevents : queue.events with _ | ⟨event, rest⟩
      · exact List.suffix_refl _
      · simp only [events, TreeMap.getElem?_insert, Std.compare_eq_iff_eq]
        by_cases hc : channel = c
        · subst hc
          simp only [if_true, hchannel, hevents]
          exact List.suffix_cons ..
        · simp only [if_neg hc]
          exact List.suffix_refl _
  | closeChannel channel =>
    by_cases hc : channel = c
    · apply Queues.taken
      simp only [serve, events, getElem?_closeChannel, if_pos hc]
      exact List.nil_suffix
    · exact .of_channels_eq ((getElem?_closeChannel net channel c).trans (if_neg hc))
  | accept channel k queues => exact absurd rfl (hrequest channel k queues)
  | register endpoint | deregister endpoint | send endpoint | poll endpoint | receivePsn endpoint
  | disconnect endpoint => exact hendpoint endpoint.handle (by simp [Request.handles])

theorem queues_serveAll {requests : List Request} (haside : ∀ request ∈ requests, request.isAside) :
    net.Queues (net.serveAll memory requests) c [] := by
  apply Queues.taken
  unfold Loopback.serveAll
  induction requests generalizing net with
  | nil => exact List.suffix_refl _
  | cons request requests ih =>
    have hfirst : net.Queues (net.serve memory request).2 c [] := by
      refine queues_serve fun channel k queues heq => ?_
      have hno := haside request List.mem_cons_self
      rw [heq] at hno
      contradiction
    exact (ih fun other hmem => haside other (List.mem_cons_of_mem request hmem)).trans hfirst.isSuffix

theorem queues_accept (net : Loopback) (channel : ChannelId) (k : ConnectionId) (queues : QueueSizes)
    (c : ChannelId) :
    net.Queues (net.accept channel k queues).2 c
      (if (net.accept channel k queues).1.isOk ∧ channel = c ∧ (net.channels[c]?).isSome
        then [⟨.established, k, 0⟩] else []) := by
  rcases accept_cases net channel k queues with ⟨_, heq⟩ | ⟨_, heq⟩ | ⟨link, -, -, -, heq⟩
  · rw [heq]
    exact .of_channels_eq rfl
  · rw [heq]
    exact .of_channels_eq rfl
  · rw [heq]
    apply Queues.put
    rw [events_deliver]
    simp [Except.isOk, Except.toBool, events, modifyLink]

theorem standing?_eq_none_iff : net.standing? k = none ↔ net.links[k]? = none := Option.map_eq_none_iff

theorem standing?_serve (hrequest : ∀ channel queues, request = .accept channel k queues →
      (net.accept channel k queues).1.isOk = false) :
    (net.serve memory request).2.standing? k = net.standing? k := by
  by_cases hk : .endpoint k ∈ request.handles
  · rcases serve_endpoint net memory request hk with heq | ⟨n, f, heq, hf⟩
    · rw [heq]
    · rw [heq, standing?, standing?, getElem?_modifyLink, if_pos rfl, Option.map_map]
      rcases hlink : net.links[k]? with _ | link
      · rfl
      · obtain ⟨hevolves, hsame, -⟩ := hf link hlink
        simp only [Option.map_some, Function.comp, Link.standing, hevolves.channel, hsame.acceptedBy,
          hsame.peerClosed]
  · rw [standing?, standing?, serve_links_of_ne hk]
    intro hacquired
    cases request with
    | accept channel j queues =>
      obtain ⟨_, _, _, heq, -⟩ := serve_accepted hacquired
      injection heq with _ hj _
      subst hj
      have hfailed := hrequest channel queues rfl
      simp only [serve] at hacquired
      rcases haccept : (net.accept channel j queues).1 with failure | endpoint
      · rw [haccept] at hacquired
        contradiction
      · rw [haccept] at hfailed
        contradiction
    | createChannel => simp [serve, Request.acquired] at hacquired
    | _ => simp [Request.acquired] at hacquired

theorem standing?_serveAll {requests : List Request} (haside : ∀ request ∈ requests, request.isAside) :
    (net.serveAll memory requests).standing? k = net.standing? k := by
  unfold Loopback.serveAll
  induction requests generalizing net with
  | nil => rfl
  | cons request requests ih =>
    refine (ih fun other hmem => haside other (List.mem_cons_of_mem request hmem)).trans (standing?_serve ?_)
    rintro channel queues rfl
    have hno := haside _ List.mem_cons_self
    contradiction

theorem standing?_accept (hnet : net.Sound) (haccepted : (net.accept channel k queues).1.isOk) :
    ∃ c, net.standing? k = some ⟨c, none, false⟩ ∧ (net.channels[c]?).isSome ∧
      (net.accept channel k queues).2.standing? k = some ⟨c, some channel, false⟩ := by
  rcases accept_cases net channel k queues with ⟨_, heq⟩ | ⟨_, heq⟩ | ⟨link, hlink, hmem, hopen, heq⟩
  · rw [heq] at haccepted
    contradiction
  · rw [heq] at haccepted
    contradiction
  · obtain ⟨waiting, hwaiting, hfresh, hsome⟩ := hnet.pending k hmem
    obtain rfl := Option.some.inj (hlink.symm.trans hwaiting)
    refine ⟨link.channel, ?_, hsome, ?_⟩
    · rw [standing?, hlink, Option.map_some, Link.standing, hfresh.acceptedBy, hopen]
    · rw [heq, standing?_deliver, standing?, getElem?_modifyLink, if_pos rfl]
      simp only [hlink, Option.map_some, Link.standing, hopen]

theorem connect_requests (hnet : net.Sound) {port : UInt16} (h : net.connect port = .ok (k, net')) :
    ∃ c, net.listeners[port]? = some { channel := c, listening := true } ∧ net.standing? k = none ∧
      (∀ j, net'.standing? j = if k = j then some ⟨c, none, false⟩ else net.standing? j) ∧
        ∀ d, net'.events d = net.events d ++ if d = c then [⟨.connectRequest, k, 0⟩] else [] := by
  obtain ⟨rfl, -⟩ := connect_eq_ok h
  unfold connect at h
  split at h
  · contradiction
  · next l hl =>
    split at h
    · next hlistening =>
      injection h with h
      injection h with _ h
      subst h
      obtain ⟨channel, hchannel, -⟩ := hnet.listener port l hl
      refine ⟨l.channel, ?_, standing?_eq_none_iff.mpr (hnet.not_mem_links (Nat.lt_succ_self _)), ?_, ?_⟩
      · rw [hl, ← hlistening]
      · intro j
        rw [standing?_deliver, standing?, standing?, TreeMap.getElem?_insert]
        simp only [Std.compare_eq_iff_eq]
        split <;> rfl
      · intro d
        rw [events_deliver]
        by_cases hd : d = l.channel
        · subst hd
          simp [hchannel, events]
        · simp [hd, Ne.symm hd, events]
    · contradiction

def farewell (net : Loopback) (k : ConnectionId) (c : ChannelId) : List Event :=
  if (net.standing? k).any (fun s => s.acceptedBy = some c ∧ !s.closed) ∧ (net.channels[c]?).isSome
    then [⟨.disconnected, k, 0⟩] else []

theorem standing?_hangUp (net : Loopback) (k : ConnectionId) :
    (net.hangUp k).standing? k = (net.standing? k).map fun standing => { standing with closed := true } := by
  rw [standing?, hangUp_links, if_pos rfl, standing?, Option.map_map, Option.map_map]
  rfl

theorem events_hangUp (net : Loopback) (k : ConnectionId) (c : ChannelId) :
    (net.hangUp k).events c = net.events c ++ net.farewell k c := by
  unfold hangUp farewell standing?
  rcases hlink : net.links[k]? with _ | link
  · simp
  · by_cases hclosed : link.peerClosed
    · simp [hclosed, Link.standing]
    · rw [Option.map_some]
      dsimp only
      rw [if_neg hclosed]
      rcases haccepted : link.acceptedBy with _ | channel
      · simp [haccepted, Link.standing, events, modifyLink]
      · refine (events_deliver ..).trans ?_
        simp [haccepted, hclosed, Link.standing, events, modifyLink]

end Loopback

end RemoteSlots
