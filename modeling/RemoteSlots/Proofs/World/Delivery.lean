import RemoteSlots.Proofs.World.CompletionQueue
import RemoteSlots.Proofs.World.GoneServer
import RemoteSlots.Proofs.World.OneSided

/-!
This module shows what becomes of the messages that are posted on a connection: which of them are delivered, what is
reported of them, and that the peer receives what was delivered in this order, each message once and as the memory
was when it was posted.
-/

namespace RemoteSlots

open Std

structure Registration.Offers (region : Registration) (element : SendElement) : Prop where
  key : region.key = element.key
  whole : element.length % 4 = 0
  within : Memory.Within region.extent element.address (element.length / 4)

def Memory.messageOf (memory : Memory) (extent : Extent) (element : SendElement) : List UInt8 :=
  bytesOfWords <| (List.range (element.length / 4)).map fun j =>
    memory.wordIn extent ((element.address - extent.address) / 4 + j)

def Link.delivery? (link : Link) (memory : Memory) (element : SendElement) : Option (List UInt8) :=
  if link.peerClosed then none else Loopback.payload? memory link element

namespace Loopback

variable {net : Loopback} {memory : Memory} {k : ConnectionId} {link : Link} {element : SendElement}

theorem offers_iff {region : Registration} :
    region.Offers element ↔
      (region.key = element.key && region.covers element.address element.length) ∧ element.length % 4 = 0 := by
  simp only [Registration.covers, Bool.and_eq_true, decide_eq_true_eq]
  constructor
  · rintro ⟨hkey, hwhole, haligned, hstart, hstop⟩
    exact ⟨⟨hkey, ⟨hstart, by omega⟩, haligned⟩, hwhole⟩
  · rintro ⟨⟨hkey, ⟨hstart, hstop⟩, haligned⟩, hwhole⟩
    exact ⟨hkey, hwhole, haligned, hstart, by omega⟩

theorem payload?_eq_none (h : ¬∃ region ∈ link.regions, region.Offers element) :
    payload? memory link element = none := by
  unfold payload?
  split
  · next region hfound =>
    split
    · next hwhole =>
      have hoffers := List.find?_some hfound
      exact absurd ⟨region, List.mem_of_find?_eq_some hfound, offers_iff.mpr ⟨hoffers, hwhole⟩⟩ h
    · rfl
  · rfl

theorem payload?_eq_some (memory : Memory) (h : ∃ region ∈ link.regions, region.Offers element) :
    ∃ region ∈ link.regions, region.Offers element ∧ ∃ message, payload? memory link element = some message ∧
      (memory.Hosts region.extent → message = memory.messageOf region.extent element) := by
  obtain ⟨region, hregion, hoffers⟩ := h
  obtain ⟨hmatch, hwhole⟩ := offers_iff.mp hoffers
  unfold payload?
  split
  -- The region that is found first need not be the given one, if two have the same key.
  · next found hfound =>
    have hmatch' := List.find?_some hfound
    have hoffers' := offers_iff.mpr ⟨hmatch', hwhole⟩
    rw [if_pos hwhole]
    refine ⟨found, List.mem_of_find?_eq_some hfound, hoffers', _, rfl, fun hhosts => ?_⟩
    rw [hhosts.loadAt_eq hoffers'.within]
    rfl
  · next hnone => exact absurd hmatch (List.find?_eq_none.mp hnone region hregion)

def sendEffect (memory : Memory) (request : UInt64) (element : SendElement) (signaled : Bool) (link : Link) : Link :=
  match payload? memory link element with
  | none => link.complete { request, status := .localProtectionError, opcode := .send }
  | some message =>
    if link.peerClosed then
      link.complete { request, status := .retryExceeded, opcode := .send }
    else
      let link := { link with inbox := link.inbox ++ [message] }
      if signaled then
        link.complete { request, status := .success, opcode := .send }
      else
        link

theorem inbox_sendEffect (memory : Memory) (request : UInt64) (element : SendElement) (signaled : Bool) (link : Link) :
    (sendEffect memory request element signaled link).inbox =
      link.inbox ++ (link.delivery? memory element).toList := by
  unfold sendEffect Link.delivery?
  rcases payload? memory link element with _ | message
  · simp
  · by_cases hclosed : link.peerClosed
    · simp [hclosed]
    · cases signaled <;> simp [hclosed]

theorem serve_send (memory : Memory) (endpoint : Endpoint) (request : UInt64) (element : SendElement)
    (signaled : Bool) (hlink : net.links[endpoint.handle]? = some link) (hopen : link.serverClosed = false) :
    net.serve memory (.send endpoint request element signaled) =
      (.ok (), net.modifyLink endpoint.handle (sendEffect memory request element signaled)) := by
  simp only [serve, Loopback.send, hlink, hopen, Bool.false_eq_true, if_false, answer]
  rfl

theorem inbox_serveAll_of_isAside {requests : List Request} (haside : ∀ request ∈ requests, request.isAside) :
    (net.serveAll memory requests).inbox k = net.inbox k := by
  unfold Loopback.serveAll
  induction requests generalizing net with
  | nil => rfl
  | cons request requests ih =>
    have hrest := fun other hmem => haside other (List.mem_cons_of_mem request hmem)
    refine (ih hrest).trans (inbox_serve_of_not_sends ?_)
    rintro endpoint id element signaled rfl
    have hsend := haside _ List.mem_cons_self
    contradiction

end Loopback

namespace World

variable {w : World} {k : ConnectionId} {link : Link} {action : Action}

def Posts (w : World) (action : Action) (endpoint : Endpoint) (request : UInt64) (element : SendElement)
    (signaled : Bool) : Prop :=
  w.served? action = some (.send endpoint request element signaled)

def received (k : ConnectionId) (w : World) : Action → List (List UInt8)
  | .receive peer limit => if peer = k then (w.receive k limit).1.toOption.toList else []
  | _ => []

def Reports (w : World) (k : ConnectionId) (action : Action) (report : Option Completion) : Prop :=
  (w.act action).net.completions k = w.net.completions k ++ if w.net.isFull k then [] else report.toList

theorem received_of_not_isReceiptOf (h : action.isReceiptOf k = false) : w.received k action = [] := by
  cases action with
  | receive peer limit =>
    simp only [Action.isReceiptOf, decide_eq_false_iff_not] at h
    rw [received, if_neg h]
  | _ => rfl

theorem inbox_peer (h : w.Sound) (hpeer : action.isPeer) (hlink : w.net.links[k]? = some link) :
    (w.act action).net.inbox k = (w.net.inbox k).drop (if action.isReceiptOf k then 1 else 0) := by
  rw [Loopback.inbox_of_link (links_peer h hpeer hlink), Loopback.inbox_of_link hlink]
  apply Action.inbox_effectOn

theorem receives_peer (h : w.Sound) (hpeer : action.isPeer) (hlink : w.net.links[k]? = some link) :
    w.told k action = [] ∧ w.received k action ++ (w.act action).net.inbox k = w.net.inbox k := by
  have hinbox := inbox_peer h hpeer hlink
  have htold : w.told k action = [] := told_eq_nil (by rw [hinbox, List.length_drop]; exact Nat.sub_le ..)
  refine ⟨htold, ?_⟩
  by_cases hreceipt : action.isReceiptOf k
  · cases action with
    | receive peer limit =>
      obtain rfl : peer = k := of_decide_eq_true hreceipt
      rw [hinbox, if_pos hreceipt, received, if_pos rfl, receive_fst w (Option.isSome_of_eq_some hlink)]
      rcases w.net.inbox peer with _ | ⟨message, messages⟩ <;> rfl
    | _ => contradiction
  · rw [hinbox, if_neg hreceipt, received_of_not_isReceiptOf (Bool.eq_false_iff.mpr hreceipt)]
    rfl

theorem inbox_act_of_not_posts (hpeer : ¬action.isPeer)
    (hposts : ∀ endpoint request element signaled, w.Posts action endpoint request element signaled →
      endpoint.handle ≠ k) : (w.act action).net.inbox k = w.net.inbox k := by
  cases asks_act w action with
  | peer hpeer' => exact absurd hpeer' hpeer
  | one hserved hnet =>
    rw [hnet]
    apply Loopback.inbox_serve_of_not_sends
    rintro endpoint request element signaled rfl
    exact hposts endpoint request element signaled hserved
  | aside _ haside hnet =>
    rw [hnet]
    exact Loopback.inbox_serveAll_of_isAside haside

section Posts

variable {endpoint : Endpoint} {request : UInt64} {element : SendElement} {signaled : Bool}

theorem Posts.not_isPeer (h : w.Posts action endpoint request element signaled) : ¬action.isPeer := by
  intro hpeer
  cases action with
  | connect | inject | receive | write | hangUp => exact Option.some_ne_none _ h.symm
  | _ => contradiction

theorem Posts.net_eq (h : w.Posts action endpoint request element signaled) :
    (w.act action).net = (w.net.serve w.memory (.send endpoint request element signaled)).2 := by
  cases asks_act w action with
  | peer hpeer => exact absurd hpeer h.not_isPeer
  | one hserved hnet =>
    obtain rfl := Option.some.inj (h.symm.trans hserved)
    exact hnet
  | aside hserved => exact absurd (h.symm.trans hserved) (by simp)

theorem Posts.told_eq (h : w.Posts action endpoint request element signaled)
    (hlink : w.net.links[endpoint.handle]? = some link) (hopen : link.serverClosed = false) :
    w.told endpoint.handle action = (link.delivery? w.memory element).toList ∧
      (w.act action).net.inbox endpoint.handle =
        w.net.inbox endpoint.handle ++ (link.delivery? w.memory element).toList := by
  have hinbox : (w.act action).net.inbox endpoint.handle =
      w.net.inbox endpoint.handle ++ (link.delivery? w.memory element).toList := by
    have hlinks := Loopback.getElem?_modifyLink w.net endpoint.handle endpoint.handle
      (Loopback.sendEffect w.memory request element signaled)
    rw [if_pos rfl, hlink, Option.map_some] at hlinks
    rw [h.net_eq, Loopback.serve_send w.memory endpoint request element signaled hlink hopen,
      Loopback.inbox_of_link hlinks, Loopback.inbox_of_link hlink, Loopback.inbox_sendEffect]
  exact ⟨World.told_eq hinbox, hinbox⟩

theorem Posts.reports (h : w.Posts action endpoint request element signaled) (hw : w.Sound)
    (hlink : w.net.links[endpoint.handle]? = some link) :
    w.Reports endpoint.handle action (link.report? w.memory request element signaled) := by
  have hpasses := passes_act hw (Option.isSome_of_eq_some hlink) action
  have htaken : w.taken? endpoint.handle action = none := by
    rw [taken?, show w.served? action = _ from h]
    rfl
  have hposted : w.posted? endpoint.handle action = link.report? w.memory request element signaled := by
    rw [posted?_of_served h]
    simp only [Loopback.posted?, if_pos, hlink, Option.bind_some]
  rw [Reports, ← hposted]
  simpa only [htaken, Option.toList_none, List.nil_append] using hpasses.completions

end Posts

theorem Reachable.receives_act (h : w.Reachable) (hlink : (w.net.links[k]?).isSome) (action : Action) :
    w.received k action ++ (w.act action).net.inbox k = w.net.inbox k ++ w.told k action := by
  obtain ⟨link, hlink⟩ := Option.isSome_iff_exists.mp hlink
  by_cases hpeer : action.isPeer
  · obtain ⟨htold, hreceived⟩ := receives_peer h.sound.1 hpeer hlink
    rw [htold, hreceived, List.append_nil]
  · rw [received_of_not_isReceiptOf (Action.not_isReceiptOf_of_not_isPeer hpeer k), List.nil_append]
    by_cases hposts : ∃ endpoint request element signaled, w.Posts action endpoint request element signaled ∧
      endpoint.handle = k
    · obtain ⟨endpoint, request, element, signaled, hposts, rfl⟩ := hposts
      rcases hopen : link.serverClosed with _ | _
      · obtain ⟨htold, hinbox⟩ := hposts.told_eq hlink hopen
        rw [htold, hinbox]
      -- A connection that its server has closed takes no message.
      · have hsame : (w.act action).net = w.net := by
          rw [hposts.net_eq]
          simp only [Loopback.serve, (Loopback.isShut_of_serverClosed hlink hopen).send, Loopback.answer]
        rw [told_eq_nil (Nat.le_of_eq (by rw [hsame])), hsame, List.append_nil]
    · have hsame := inbox_act_of_not_posts hpeer fun endpoint request element signaled hposts' hk =>
        hposts ⟨endpoint, request, element, signaled, hposts', hk⟩
      rw [told_eq_nil (Nat.le_of_eq (by rw [hsame])), hsame, List.append_nil]

theorem Reachable.received_in_order (h : w.Reachable) (hlink : (w.net.links[k]?).isSome) (actions : List Action) :
    w.observe (received k) actions ++ (w.after actions).net.inbox k =
      w.net.inbox k ++ w.observe (told k) actions := by
  induction actions using List.reverseRecOn with
  | nil => exact (List.append_nil _).symm
  | append_singleton actions action ih =>
    have hstep := (h.after actions).receives_act (h.isSome_links hlink actions) action
    rw [observe_concat, observe_concat, after_concat, List.append_assoc, hstep, ← List.append_assoc, ih,
      List.append_assoc]

structure Sends (w : World) (action : Action) (link : Link) (endpoint : Endpoint) (request : UInt64)
    (element : SendElement) (signaled : Bool) : Prop where
  accepted : (w.net.serve w.memory (.send endpoint request element signaled)).1 = .ok ()
  -- No region of the connection offers the message.
  refused : (¬∃ region ∈ link.regions, region.Offers element) → w.told endpoint.handle action = [] ∧
    w.Reports endpoint.handle action (some { request, status := .localProtectionError, opcode := .send })
  turnedAway : (∃ region ∈ link.regions, region.Offers element) → link.peerClosed = true →
    w.told endpoint.handle action = [] ∧
      w.Reports endpoint.handle action (some { request, status := .retryExceeded, opcode := .send })
  -- The message is delivered as it is in memory, if the region lies there.
  delivered : (∃ region ∈ link.regions, region.Offers element) → link.peerClosed = false →
    (∃ region ∈ link.regions, region.Offers element ∧ ∃ message, w.told endpoint.handle action = [message] ∧
      (w.memory.Hosts region.extent → message = w.memory.messageOf region.extent element)) ∧
    w.Reports endpoint.handle action (if signaled then some { request, status := .success, opcode := .send } else none)

/--
What becomes of the messages that are posted on a connection, at any time from some world on.
-/
structure Delivers (w : World) (k : ConnectionId) : Prop where
  sent : ∀ actions action endpoint request element signaled link,
    (w.after actions).Posts action endpoint request element signaled → endpoint.handle = k →
      (w.after actions).net.links[k]? = some link → link.serverClosed = false →
        (w.after actions).Sends action link endpoint request element signaled
  -- Nothing else is delivered.
  others : ∀ actions action, (∀ endpoint request element signaled,
    (w.after actions).Posts action endpoint request element signaled → endpoint.handle ≠ k) →
      (w.after actions).told k action = []
  -- What was delivered is received in this order, each message once, whatever happens in between.
  ordered : ∀ actions, w.observe (received k) actions ++ (w.after actions).net.inbox k =
    w.net.inbox k ++ w.observe (told k) actions
  -- A peer receives the oldest message that it did not receive yet, and waits in vain if there is none.
  oldest : ∀ actions limit, ((w.after actions).receive k limit).1 =
    ((w.after actions).net.inbox k).head?.elim (.error (.timeout (.message limit))) .ok

theorem Posts.sends {endpoint : Endpoint} {request : UInt64} {element : SendElement} {signaled : Bool}
    (h : w.Posts action endpoint request element signaled) (hw : w.Sound)
    (hlink : w.net.links[endpoint.handle]? = some link) (hopen : link.serverClosed = false) :
    w.Sends action link endpoint request element signaled := by
  have htold := (h.told_eq hlink hopen).1
  have hreports := h.reports hw hlink
  simp only [Link.delivery?] at htold
  simp only [Link.report?, hopen, Bool.false_eq_true, if_false] at hreports
  constructor
  · rw [Loopback.serve_send w.memory endpoint request element signaled hlink hopen]
  · intro hnone
    rw [Loopback.payload?_eq_none hnone] at htold hreports
    exact ⟨htold.trans (by rw [ite_self]; rfl), hreports⟩
  · intro hsome hclosed
    obtain ⟨region, -, -, message, hmessage, -⟩ := Loopback.payload?_eq_some w.memory hsome
    rw [hmessage] at hreports
    rw [if_pos hclosed] at htold hreports
    exact ⟨htold, hreports⟩
  · intro hsome hpeer
    obtain ⟨region, hregion, hoffers, message, hmessage, hwords⟩ :=
      Loopback.payload?_eq_some w.memory hsome
    rw [hmessage] at htold hreports
    rw [hpeer, if_neg Bool.false_ne_true] at htold hreports
    exact ⟨⟨region, hregion, hoffers, message, htold, hwords⟩, hreports⟩

theorem delivered_once (h : w.Reachable) (hlink : (w.net.links[k]?).isSome) : w.Delivers k where
  sent := by
    rintro actions action endpoint request element signaled link hposts rfl hlink' hopen
    exact hposts.sends (h.after actions).sound.1 hlink' hopen
  others := by
    intro actions action hothers
    have hreach := h.after actions
    obtain ⟨link, hlink'⟩ := Option.isSome_iff_exists.mp (h.isSome_links hlink actions)
    by_cases hpeer : action.isPeer
    · exact (receives_peer hreach.sound.1 hpeer hlink').1
    · have hsame := inbox_act_of_not_posts hpeer hothers
      exact told_eq_nil (Nat.le_of_eq (by rw [hsame]))
  ordered := h.received_in_order hlink
  oldest := fun actions limit => receive_fst _ (h.isSome_links hlink actions) limit

def sampleEndpoint : World :=
  (initial (.above 4096 4096) .zero).after
    [.request .createChannel, .request (.bind 1 7000), .request (.listen 1 1), .connect 7000,
      .request (.accept 1 2 {}), .allocate .standard 8, .request (.register ⟨2, 3⟩ ⟨0, 4096, 8⟩ .full)]

set_option maxRecDepth 10000 in
theorem delivered_once_wiped :
    let post := Action.request (.send ⟨2, 3⟩ 9 ⟨4096, 8, 4⟩ true)
    let actions := [.fill 0 0 [7, 8], post, .zero 0, .request (.deregister ⟨2, 3⟩ ⟨4, 4⟩), .receive 2 .zero]
    sampleEndpoint.Reachable ∧ (sampleEndpoint.net.links[2]?).isSome ∧
      (sampleEndpoint.after [.fill 0 0 [7, 8]]).Posts post ⟨2, 3⟩ 9 ⟨4096, 8, 4⟩ true ∧
      sampleEndpoint.observe (received 2) actions = [[7, 0, 0, 0, 8, 0, 0, 0]] ∧ sampleEndpoint.Delivers 2 := by
  intro post actions
  have hreach : sampleEndpoint.Reachable := ⟨.above 4096 4096, .zero, _, rfl⟩
  have hreceived : sampleEndpoint.observe (received 2) actions = [[7, 0, 0, 0, 8, 0, 0, 0]] := by decide +kernel
  exact ⟨hreach, rfl, rfl, hreceived, delivered_once hreach rfl⟩

end World

end RemoteSlots
