import RemoteSlots.Proofs.World.Effects
import RemoteSlots.Session.Stage

/-!
This module contains what a session counts on in the loopback fabric: that it has its port, that its
connection is open, and that exactly its regions are reachable there. Only four kinds of requests can take
any of it away, and only from a channel or an endpoint that they are made on.
-/

namespace RemoteSlots

open Std

structure Foothold where
  port : Option (Binding × Bool)
  link : Option (Endpoint × List Registration)

namespace Foothold

def none : Foothold := { port := .none, link := .none }

def handles (foothold : Foothold) : List Handle :=
  (foothold.port.toList.map fun (binding, _) => .channel binding.channel) ++
    foothold.link.toList.map fun (endpoint, _) => .endpoint endpoint.handle

structure IsFirm (net : Loopback) (foothold : Foothold) : Prop where
  port : ∀ binding listening, foothold.port = some (binding, listening) →
    net.listeners[binding.port]? = some { channel := binding.channel, listening }
  link : ∀ endpoint regions, foothold.link = some (endpoint, regions) →
    ∃ link, net.links[endpoint.handle]? = some link ∧ link.serverClosed = false ∧ link.regions = regions

theorem isFirm_none (net : Loopback) : none.IsFirm net :=
  ⟨fun _ _ h => by contradiction, fun _ _ h => by contradiction⟩

end Foothold

/--
Whether a connection is as open as before, and reaches the same.
-/
structure Link.SameAccess (link link' : Link) : Prop where
  serverClosed : link'.serverClosed = link.serverClosed
  regions : link'.regions = link.regions

theorem Link.SameAccess.refl (link : Link) : link.SameAccess link := ⟨rfl, rfl⟩

theorem Link.SameAccess.complete (link : Link) (c : Completion) : link.SameAccess (link.complete c) :=
  ⟨Link.serverClosed_complete .., Link.regions_complete ..⟩

theorem Foothold.IsFirm.mono {net net' : Loopback} {foothold : Foothold} (h : foothold.IsFirm net)
    (hlisteners : ∀ binding listening, foothold.port = some (binding, listening) →
      net.listeners[binding.port]? = some { channel := binding.channel, listening } →
      net'.listeners[binding.port]? = some { channel := binding.channel, listening })
    (hlinks : ∀ endpoint regions, foothold.link = some (endpoint, regions) → ∀ link,
      net.links[endpoint.handle]? = some link →
      ∃ link', net'.links[endpoint.handle]? = some link' ∧ link.SameAccess link') :
    foothold.IsFirm net' where
  port := fun binding listening heq => hlisteners binding listening heq (h.port binding listening heq)
  link := by
    intro endpoint regions heq
    obtain ⟨link, hlink, hclosed, hregions⟩ := h.link endpoint regions heq
    obtain ⟨link', hlink', hsame⟩ := hlinks endpoint regions heq link hlink
    exact ⟨link', hlink', hsame.serverClosed.trans hclosed, hsame.regions.trans hregions⟩

def Request.isMild : Request → Bool
  | register .. | deregister .. | disconnect _ | closeChannel _ => false
  | _ => true

namespace Loopback

variable {net : Loopback} {memory : Memory} {request : Request}

theorem serve_listeners_of_isMild (h : request.isMild) {port : UInt16} {c : ChannelId}
    (hport : net.listeners[port]? = some { channel := c, listening := true }) :
    (net.serve memory request).2.listeners[port]? = some { channel := c, listening := true } := by
  have hendpoint : ∀ j, .endpoint j ∈ request.handles →
      (net.serve memory request).2.listeners[port]? = some { channel := c, listening := true } := by
    intro j hj
    rcases serve_endpoint net memory request hj with heq | ⟨n, f, heq, -⟩
    · rw [heq]
      exact hport
    · rw [heq]
      exact hport
  cases request with
  | createChannel => exact hport
  | bind channel other =>
    simp only [serve, answer, Loopback.bind]
    grind
  | listen channel backlog =>
    simp only [serve, answer, Loopback.listen]
    grind
  | nextEvent channel =>
    simp only [serve, Loopback.nextEvent]
    grind
  | accept channel j queues =>
    simp only [serve]
    rcases accept_cases net channel j queues with ⟨_, heq⟩ | ⟨_, heq⟩ | ⟨link, -, -, -, heq⟩
    · rw [heq]
      exact hport
    · rw [heq]
      exact hport
    · rw [heq]
      exact hport
  | send endpoint | poll endpoint | receivePsn endpoint =>
    exact hendpoint endpoint.handle (by simp [Request.handles])
  | register | deregister | disconnect | closeChannel => contradiction

theorem sameAccess_of_modifyLink {id k : ConnectionId} {link : Link} {f : Link → Link}
    (hlink : net.links[k]? = some link) (hf : ∀ link : Link, link.SameAccess (f link)) :
    ∃ link', (net.modifyLink id f).links[k]? = some link' ∧ link.SameAccess link' := by
  rw [getElem?_modifyLink, hlink]
  split
  · exact ⟨f link, rfl, hf link⟩
  · exact ⟨link, rfl, .refl link⟩

theorem serve_links_of_isMild (h : request.isMild) {k : ConnectionId} {link : Link}
    (hlink : net.links[k]? = some link) :
    ∃ link', (net.serve memory request).2.links[k]? = some link' ∧ link.SameAccess link' := by
  have hsame : ∃ link', net.links[k]? = some link' ∧ link.SameAccess link' := ⟨link, hlink, .refl link⟩
  cases request with
  | createChannel => exact hsame
  | receivePsn endpoint => exact hsame
  | bind channel port =>
    simp only [serve, answer, Loopback.bind]
    grind
  | listen channel backlog =>
    simp only [serve, answer, Loopback.listen]
    grind
  | nextEvent channel =>
    simp only [serve, Loopback.nextEvent]
    grind
  | accept channel j queues =>
    simp only [serve]
    rcases accept_cases net channel j queues with ⟨_, heq⟩ | ⟨_, heq⟩ | ⟨accepted, -, -, -, heq⟩
    · rw [heq]
      exact hsame
    · rw [heq]
      exact hsame
    · rw [heq]
      exact sameAccess_of_modifyLink hlink fun _ => ⟨rfl, rfl⟩
  | send endpoint id element signaled =>
    simp only [serve, Loopback.send]
    split
    · exact hsame
    · split
      · exact hsame
      · refine sameAccess_of_modifyLink hlink fun link => ?_
        split
        · exact .complete ..
        · split
          · exact .complete ..
          · split
            · exact ⟨Link.serverClosed_complete .., Link.regions_complete ..⟩
            · exact ⟨rfl, rfl⟩
  | poll endpoint =>
    simp only [serve, Loopback.poll]
    split
    · exact hsame
    · exact sameAccess_of_modifyLink hlink fun _ => ⟨rfl, rfl⟩
  | register | deregister | disconnect | closeChannel => contradiction

end Loopback

namespace Foothold

variable {net : Loopback} {memory : Memory} {foothold : Foothold}

def IsListening (foothold : Foothold) : Prop := ∀ binding, foothold.port ≠ some (binding, false)

theorem IsFirm.serve (h : foothold.IsFirm net) (hlistening : foothold.IsListening) {request : Request}
    (hmild : request.isMild) : foothold.IsFirm (net.serve memory request).2 := by
  apply h.mono
  · rintro binding (_ | _) heq hport
    · exact absurd heq (hlistening binding)
    · exact Loopback.serve_listeners_of_isMild hmild hport
  · exact fun _ _ _ _ hlink => Loopback.serve_links_of_isMild hmild hlink

end Foothold

theorem Effects.listeners_of_not_allowed {allowed : Handle → Prop} {memory memory' : Memory}
    {net net' : Loopback} (h : Effects allowed memory net memory' net') (hnet : net.Sound)
    (hallowed : ∀ handle, allowed handle → handle.IsIssued memory net) {port : UInt16} {l : Listener}
    (hl : ¬allowed (.channel l.channel)) :
    net'.listeners[port]? = some l ↔ net.listeners[port]? = some l := by
  induction h with
  | refl => rfl
  | serve request hprev hrequest ih =>
    rw [← ih]
    apply Loopback.serve_listeners_of_ne (hprev.advances hnet hallowed).sound
    exact fun hmem => hl (hrequest _ hmem)
  | store _ _ _ _ _ ih => exact ih
  | clear _ _ _ ih => exact ih
  | allocate _ _ ih => exact ih

theorem Foothold.IsFirm.effects {foothold : Foothold} {allowed : Handle → Prop} {memory memory' : Memory}
    {net net' : Loopback} (h : foothold.IsFirm net) (heffects : Effects allowed memory net memory' net')
    (hnet : net.Sound) (hallowed : ∀ handle, allowed handle → handle.IsIssued memory net)
    (hissued : ∀ handle ∈ foothold.handles, handle.IsIssued memory net)
    (hforeign : ∀ handle ∈ foothold.handles, ¬allowed handle) : foothold.IsFirm net' := by
  apply h.mono
  · intro binding listening heq hport
    have hmem : .channel binding.channel ∈ foothold.handles := by simp [Foothold.handles, heq]
    exact (heffects.listeners_of_not_allowed hnet hallowed (l := { channel := binding.channel, listening })
      (hforeign _ hmem)).mpr hport
  · intro endpoint regions heq link hlink
    have hmem : .endpoint endpoint.handle ∈ foothold.handles := by simp [Foothold.handles, heq]
    rw [heffects.links_of_not_allowed hnet hallowed (hissued _ hmem) (hforeign _ hmem)]
    exact ⟨link, hlink, .refl link⟩

end RemoteSlots
