import RemoteSlots.Proofs.Fabric.Connected
import RemoteSlots.Proofs.World.Events

/-!
This module follows the event channel of a session: what the session finds there and what it is granted, and what
everybody else does to the channel. Others only put events at the end of its queue.
-/

namespace RemoteSlots

open Std

def Channel.put (channel : Channel) (events : List Event) : Channel :=
  { channel with events := channel.events ++ events }

theorem Channel.put_nil (channel : Channel) : channel.put [] = channel := by
  rw [put, List.append_nil]

namespace Loopback

variable {net net' : Loopback} {c : ChannelId} {channel : Channel} {k : ConnectionId}

theorem events_eq (h : net.channels[c]? = some channel) : net.events c = channel.events := by
  rw [events, h]

def awaits (net : Loopback) (k : ConnectionId) : Bool :=
  net.pending.contains k && net.links[k]?.any (!·.peerClosed)

def grants? (net : Loopback) : Request → Option Bool
  | .bind _ port => some (!net.listeners.contains port)
  | .accept _ k _ => some (net.awaits k)
  | _ => none

theorem nextEvent_spec (hchannel : net.channels[c]? = some channel) :
    (net.nextEvent c).1 = .ok (net.events c).head? ∧ (net.nextEvent c).2.events c = (net.events c).tail := by
  obtain ⟨port, _ | ⟨event, rest⟩⟩ := channel
  · rw [nextEvent_nil hchannel, events_eq hchannel]
    exact ⟨rfl, rfl⟩
  · obtain ⟨net', hnext, hchannel', -⟩ := nextEvent_cons hchannel
    rw [hnext, events_eq hchannel, events_eq hchannel']
    exact ⟨rfl, rfl⟩

theorem accept_of_awaits (hchannel : net.channels[c]? = some channel) (h : net.awaits k = true)
    (queues : QueueSizes) :
    ∃ endpoint, (net.accept c k queues).1 = .ok endpoint ∧
      (net.accept c k queues).2.events c = net.events c ++ [⟨.established, k, 0⟩] := by
  simp only [awaits, Bool.and_eq_true, List.contains_iff_mem, Option.any_eq_true, Bool.not_eq_true'] at h
  obtain ⟨hmem, link, hlink, hopen⟩ := h
  simp only [accept, hlink, if_pos hmem, hopen, Bool.false_eq_true, if_false]
  refine ⟨_, rfl, ?_⟩
  rw [events_deliver]
  simp only [events, modifyLink, hchannel, Option.isSome_some, and_self, if_true]

theorem accept_of_not_awaits (h : net.awaits k = false) (c : ChannelId) (queues : QueueSizes) :
    ∃ fault, (net.accept c k queues).1 = .error (.transport fault) ∧
      (net.accept c k queues).2.events c = net.events c := by
  unfold accept
  rcases hlink : net.links[k]? with _ | link
  · exact ⟨_, rfl, rfl⟩
  · by_cases hmem : k ∈ net.pending
    · have hclosed : link.peerClosed := by simpa [awaits, hmem, hlink] using h
      simp only [if_pos hmem, if_pos hclosed]
      exact ⟨_, rfl, rfl⟩
    · simp only [if_neg hmem]
      exact ⟨_, rfl, True.intro⟩

end Loopback

namespace World

variable {w : World} {id : SessionId} {session : Session} {c : ChannelId} {action : Action}

/--
Whether an action does nothing to a channel but to put events at the end of its queue.
-/
def OnlyPuts (w : World) (c : ChannelId) (action : Action) : Prop :=
  ∃ events, (w.act action).net.channels[c]? = w.net.channels[c]?.map (·.put events)

theorem OnlyPuts.of_eq (h : (w.act action).net.channels[c]? = w.net.channels[c]?) : w.OnlyPuts c action := by
  refine ⟨[], ?_⟩
  rw [h, funext Channel.put_nil]
  exact Option.map_id_apply.symm

theorem OnlyPuts.of_deliver {channel : ChannelId} {event : Event}
    (h : (w.act action).net.channels = (w.net.deliver channel event).channels) : w.OnlyPuts c action := by
  by_cases heq : channel = c
  · refine ⟨[event], ?_⟩
    rw [h, Loopback.getElem?_deliver, if_pos heq]
    rfl
  · apply OnlyPuts.of_eq
    rw [h, Loopback.getElem?_deliver, if_neg heq]

theorem OnlyPuts.events (h : w.OnlyPuts c action) :
    (w.act action).net.events c = w.net.events c ++ w.enqueued c action := by
  obtain ⟨events, hevents⟩ := h
  have hput : (w.act action).net.events c = w.net.events c ++ if (w.net.channels[c]?).isSome then events else [] := by
    simp only [Loopback.events, hevents]
    rcases w.net.channels[c]? with _ | channel <;> rfl
  rw [enqueued_eq (.put hput), hput]

theorem OnlyPuts.channel {port : Option UInt16} {old : List Event} (h : w.OnlyPuts c action)
    (hchannel : w.net.channels[c]? = some ⟨port, old⟩) :
    ∃ events, (w.act action).net.channels[c]? = some ⟨port, events⟩ := by
  obtain ⟨events, hevents⟩ := h
  rw [hchannel] at hevents
  exact ⟨_, hevents⟩

theorem onlyPuts_peer (hpeer : action.isPeer) : w.OnlyPuts c action := by
  cases action with
  | connect port =>
    rcases hconnect : w.net.connect port with failure | ⟨k, net⟩
    · exact .of_eq (by rw [act_connect_error hconnect])
    · obtain ⟨-, listener, link, -, -, -, rfl⟩ := Loopback.connect_eq_ok hconnect
      apply OnlyPuts.of_deliver
      simp only [act, World.connect, hconnect]
      rfl
  | inject port kind status =>
    rcases hinject : w.net.inject port kind status with failure | net
    · apply OnlyPuts.of_eq
      simp only [act, World.inject, hinject]
      rfl
    · obtain ⟨channel, rfl⟩ := Loopback.inject_eq_ok hinject
      apply OnlyPuts.of_deliver
      simp only [act, World.inject, hinject]
      rfl
  | hangUp peer =>
    rcases hlink : w.net.links[peer]? with _ | link
    · apply OnlyPuts.of_eq
      simp only [act, World.hangUp, Loopback.hangUp, hlink]
    · by_cases hclosed : link.peerClosed
      · apply OnlyPuts.of_eq
        simp only [act, World.hangUp, Loopback.hangUp, hlink, hclosed, if_true]
      · rcases haccepted : link.acceptedBy with _ | channel
        · apply OnlyPuts.of_eq
          simp only [act, World.hangUp, Loopback.hangUp, hlink, hclosed, haccepted]
          rfl
        · apply OnlyPuts.of_deliver
          simp only [act, World.hangUp, Loopback.hangUp, hlink, hclosed, haccepted]
          rfl
  | receive peer limit =>
    apply OnlyPuts.of_eq
    simp only [act, World.receive, Loopback.receive]
    split
    · rfl
    · split <;> rfl
  | write peer request address key words =>
    apply OnlyPuts.of_eq
    simp only [act, World.write, Loopback.write]
    split
    · rfl
    · split <;> rfl
  | unmap block => exact .of_eq (by rw [net_act_unmap])
  | _ => contradiction

theorem onlyPuts_of_actor (h : w.Sound) (ht : w.Tidy) {party : Party} (hheld : .channel c ∈ w.holdings party)
    (hactor : w.actor? action ≠ some party) : w.OnlyPuts c action := by
  by_cases hpeer : action.isPeer
  · exact onlyPuts_peer hpeer
  -- Whoever else acts has to hold the channel to touch it, and the party holds it alone.
  · apply OnlyPuts.of_eq
    exact (effects_act h ht hpeer).channels_of_not_allowed h.net (fun handle huse => h.isIssued_of_mayUse huse)
      (h.issued _ _ hheld) fun huse => hactor (h.actor_eq huse (.inl rfl) hheld)

theorem onlyPuts_others (h : w.Sound) (ht : w.Tidy) (hsession : w.sessions[id]? = some session)
    (hrunning : session.stage.result? = none) (hfabric : session.fabric = .loopback)
    (hheld : .channel c ∈ session.stage.custody.handles) (hstep : ∀ expired, action ≠ .step (.session id) expired) :
    w.OnlyPuts c action := by
  -- An action that names the session is no move of it, and comes to nothing while an operation runs.
  by_cases hactor : w.actor? action = some (.session id)
  · exact .of_eq (by rw [act_eq_of_actor? hsession hrunning hactor hstep])
  · refine onlyPuts_of_actor h ht (mem_holdings_of_custody ?_ hheld) hactor
    simp only [custody?, hsession, Option.map_some, hfabric]

theorem Reachable.exists_channel (h : w.Reachable) (hsession : w.sessions[id]? = some session)
    (hfabric : session.fabric = .loopback) {binding : Binding} {listening : Bool}
    (hport : session.stage.foothold.port = some (binding, listening)) :
    ∃ events, w.net.channels[binding.channel]? = some ⟨some binding.port, events⟩ ∧
      w.net.listeners[binding.port]? = some ⟨binding.channel, listening⟩ := by
  have hlistener := (h.isFirm_session hsession hfabric).port binding listening hport
  obtain ⟨⟨_, events⟩, hchannel, rfl⟩ := h.sound.1.net.listener _ _ hlistener
  exact ⟨events, hchannel, hlistener⟩

end World

end RemoteSlots
