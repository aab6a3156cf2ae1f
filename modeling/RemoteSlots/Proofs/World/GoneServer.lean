import RemoteSlots.Proofs.World.Registration
import RemoteSlots.Proofs.World.Upkeep

/-!
This module shows what a peer hears of a server that is gone. Nothing is put into its inbox any more, so it
receives the messages that were delivered before, in their order. From then on it waits for as long as it is
willing to, and every time in vain: the connection holds on to its own inbox, so the peer cannot tell a server that
is gone from one that is slow.
-/

namespace RemoteSlots

open Std

def Action.isReceiptOf (k : ConnectionId) : Action → Bool
  | receive peer _ => peer = k
  | _ => false

theorem Action.not_isReceiptOf_of_not_isPeer {action : Action} (h : ¬action.isPeer) (k : ConnectionId) :
    action.isReceiptOf k = false := by
  cases action with
  | receive => exact absurd rfl h
  | _ => rfl

theorem Action.inbox_effectOn (action : Action) (k : ConnectionId) (link : Link) :
    (action.effectOn k link).inbox = link.inbox.drop (if action.isReceiptOf k then 1 else 0) := by
  cases action with
  | receive peer limit =>
    simp only [effectOn, isReceiptOf, decide_eq_true_eq]
    split
    · rw [List.drop_one]
    · rw [List.drop_zero]
  | write peer request address key words =>
    simp only [effectOn, isReceiptOf, Bool.false_eq_true, if_false, List.drop_zero]
    split
    · unfold Loopback.writeEffect
      split
      · rfl
      · apply Link.inbox_complete
    · rfl
  | hangUp peer =>
    simp only [effectOn, isReceiptOf, Bool.false_eq_true, if_false, List.drop_zero]
    split <;> rfl
  | _ => rfl

theorem Action.acceptedBy_effectOn (action : Action) (k : ConnectionId) (link : Link) :
    (action.effectOn k link).acceptedBy = link.acceptedBy := by
  cases action with
  | receive | hangUp =>
    simp only [effectOn]
    split <;> rfl
  | write peer request address key words =>
    simp only [effectOn]
    split
    · unfold Loopback.writeEffect
      split
      · rfl
      · apply Link.acceptedBy_complete
    · rfl
  | _ => rfl

namespace Loopback

variable {net net' : Loopback} {memory : Memory} {k : ConnectionId} {request : Request}

def IsDeserted (net : Loopback) (k : ConnectionId) : Prop :=
  ∃ link, net.links[k]? = some link ∧ (link.serverClosed = true ∨ link.acceptedBy = none ∧ k ∉ net.pending)

theorem receive_fst (hlink : (net.links[k]?).isSome) (limit : Duration) :
    (net.receive k limit).1 = (net.inbox k).head?.elim (.error (.timeout (.message limit))) .ok := by
  obtain ⟨link, hlink⟩ := Option.isSome_iff_exists.mp hlink
  rw [inbox_of_link hlink]
  simp only [receive, hlink]
  split
  · next hempty => rw [hempty, List.head?_nil, Option.elim_none]
  · next message messages hinbox => rw [hinbox, List.head?_cons, Option.elim_some]

theorem inbox_congr (h : net'.links[k]? = net.links[k]?) : net'.inbox k = net.inbox k := by
  unfold inbox
  rw [h]

theorem inbox_modifyLink (net : Loopback) (id k : ConnectionId) {f : Link → Link}
    (hf : ∀ link, (f link).inbox = link.inbox) : (net.modifyLink id f).inbox k = net.inbox k := by
  apply inbox_eq_of_map (getElem?_modifyLink net id · f)
  intro link _
  apply hf

theorem inbox_register (net : Loopback) (endpoint : Endpoint) (extent : Extent) (access : Access) :
    (net.serve memory (.register endpoint extent access)).2.inbox k = net.inbox k := by
  simp only [serve, Loopback.register]
  rcases net.links[endpoint.handle]? with _ | link
  · rfl
  · dsimp only
    by_cases hclosed : link.serverClosed
    · rw [if_pos hclosed]
    · rw [if_neg hclosed]
      by_cases halign : extent.address % 4 ≠ 0
      · rw [if_pos halign]
      · rw [if_neg halign]
        apply inbox_modifyLink { net with lastId := net.lastId + 1 }
        intro link
        rfl

theorem inbox_deregister (net : Loopback) (endpoint : Endpoint) (keys : RegionKeys) :
    (net.serve memory (.deregister endpoint keys)).2.inbox k = net.inbox k := by
  simp only [serve, Loopback.deregister]
  rcases net.links[endpoint.handle]? with _ | link
  · rfl
  · dsimp only
    by_cases hknown : link.regions.any (·.key = keys.remoteKey)
    · rw [if_pos hknown]
      apply inbox_modifyLink
      intro link
      rfl
    · rw [if_neg hknown]
      rfl

theorem inbox_poll (net : Loopback) (id k : ConnectionId) : (net.poll id).2.inbox k = net.inbox k := by
  unfold Loopback.poll
  split
  · rfl
  · apply inbox_modifyLink
    intro link
    rfl

theorem inbox_accept (net : Loopback) (channel : ChannelId) (id k : ConnectionId) (queues : QueueSizes) :
    (net.accept channel id queues).2.inbox k = net.inbox k := by
  rcases accept_cases net channel id queues with ⟨_, heq⟩ | ⟨_, heq⟩ | ⟨_, -, -, -, heq⟩
  · rw [heq]
  · rw [heq]
    rfl
  · rw [heq]
    apply inbox_modifyLink { net with pending := net.pending.erase id }
    intro link
    rfl

theorem inbox_serve_of_not_sends
    (hsend : ∀ endpoint id element signaled, request = .send endpoint id element signaled → endpoint.handle ≠ k) :
    (net.serve memory request).2.inbox k = net.inbox k := by
  cases request with
  | createChannel | bind | listen | nextEvent | closeChannel =>
    apply inbox_congr
    apply serve_links_of_ne <;> simp [Request.handles, Request.acquired, serve]
  | accept channel id queues => apply inbox_accept
  | register endpoint extent access => apply inbox_register
  | deregister endpoint keys => apply inbox_deregister
  | poll endpoint => apply inbox_poll
  | receivePsn endpoint => rfl
  | disconnect endpoint =>
    apply inbox_modifyLink
    intro link
    rfl
  | send endpoint id element signaled =>
    apply inbox_congr
    apply serve_links_of_ne
    · simpa [Request.handles] using Ne.symm (hsend endpoint id element signaled rfl)
    · simp [Request.acquired]

theorem inbox_serve (hclosed : .endpoint k ∈ request.handles → ∃ link, net.links[k]? = some link ∧ link.serverClosed) :
    (net.serve memory request).2.inbox k = net.inbox k := by
  by_cases hsend : ∃ endpoint id element signaled, request = .send endpoint id element signaled ∧ endpoint.handle = k
  · obtain ⟨endpoint, id, element, signaled, rfl, rfl⟩ := hsend
    obtain ⟨link, hlink, hshut⟩ := hclosed (by simp [Request.handles])
    simp only [serve, (isShut_of_serverClosed hlink hshut).send, answer]
  · refine inbox_serve_of_not_sends fun endpoint id element signaled heq hk => hsend ?_
    exact ⟨endpoint, id, element, signaled, heq, hk⟩

end Loopback

theorem Effects.inbox {allowed : Handle → Prop} {memory memory' : Memory} {net net' : Loopback} {k : ConnectionId}
    {link : Link} (h : Effects allowed memory net memory' net') (hnet : net.Sound)
    (hallowed : ∀ handle, allowed handle → handle.IsIssued memory net) (hlink : net.links[k]? = some link)
    (hclosed : link.IsClosed) : net'.inbox k = net.inbox k := by
  induction h with
  | refl => rfl
  | serve request hprev _ ih =>
    rw [Loopback.inbox_serve, ih]
    intro _
    obtain ⟨link', hlink', hev⟩ := (hprev.advances hnet hallowed).evolves.links k link hlink
    exact ⟨link', hlink', (hev.closed hclosed).1⟩
  | store _ _ _ _ _ ih => exact ih
  | clear _ _ _ ih => exact ih
  | allocate _ _ ih => exact ih

namespace World

variable {w : World} {k : ConnectionId} {link : Link} {action : Action}

theorem Reachable.links_of_turnedAway (h : w.Reachable) (hlink : w.net.links[k]? = some link)
    (hnone : link.acceptedBy = none) (hwaits : k ∉ w.net.pending) (hpeer : ¬action.isPeer) :
    (w.act action).net.links[k]? = some link := by
  obtain ⟨hw, ht⟩ := h.sound
  have hunaccepted : ∀ other, w.net.links[k]? = some other → ¬other.acceptedBy.isSome := by
    intro other hother
    obtain rfl := Option.some.inj (hlink.symm.trans hother)
    simp [hnone]
  rcases hactor : w.actor? action with _ | party
  · by_cases hrequest : ∃ request, action = .request request
    · obtain ⟨request, rfl⟩ := hrequest
      simp only [World.act]
      split
      · next hopen =>
        refine (Loopback.serve_links_of_ne ?_ ?_).trans hlink
        · intro hk
          have hguard := List.all_eq_true.mp hopen _ hk
          simp only [Bool.and_eq_true, Option.any_eq_true] at hguard
          obtain ⟨⟨other, hother, haccepted⟩, -⟩ := hguard
          exact hunaccepted other hother haccepted
        · intro hk
          obtain ⟨_, _, _, -, -, hmem, -⟩ := Loopback.serve_accepted hk
          exact hwaits hmem
      · exact hlink
    · rw [net_act_of_actor? hactor hpeer fun request heq => hrequest ⟨request, heq⟩]
      exact hlink
  · have heffects := effects_act hw ht hpeer
    rw [hactor] at heffects
    have hissued : (Handle.endpoint k).IsIssued w.memory w.net := ⟨by rw [hlink]; rfl, hwaits⟩
    rw [heffects.links_of_not_allowed hw.net (fun handle huse => hw.isIssued_of_mayUse huse) hissued, hlink]
    intro hheld
    obtain ⟨other, hother, haccepted⟩ := h.accepted.held party k hheld
    exact hunaccepted other hother haccepted

theorem Reachable.deserted_act (h : w.Reachable) (hgone : w.net.IsDeserted k) (action : Action) :
    (w.act action).net.IsDeserted k ∧
      (w.act action).net.inbox k = (w.net.inbox k).drop (if action.isReceiptOf k then 1 else 0) := by
  obtain ⟨link, hlink, hgone⟩ := hgone
  obtain ⟨hw, ht⟩ := h.sound
  have hevolves := act_evolves hw ht action
  obtain ⟨link', hlink', hev⟩ := hevolves.links k link hlink
  have hwaits : k ∉ w.net.pending → k ∉ (w.act action).net.pending := by
    intro hwaits hmem
    rcases hevolves.pending k hmem with hold | hnew
    · exact hwaits hold
    · exact absurd (hw.net.link_bounds k link hlink).2 (Nat.not_le_of_lt hnew)
  have hclosed : link.serverClosed = true → link.IsClosed := by
    intro hclosed
    exact ⟨hclosed, h.orderly.closed k link hlink hclosed⟩
  by_cases hpeer : action.isPeer
  · have hpeers := links_peer hw hpeer hlink
    obtain rfl := Option.some.inj (hlink'.symm.trans hpeers)
    constructor
    · refine ⟨_, hlink', ?_⟩
      rcases hgone with hshut | ⟨hnone, hturned⟩
      · exact .inl (hev.closed (hclosed hshut)).1
      · exact .inr ⟨(action.acceptedBy_effectOn k link).trans hnone, hwaits hturned⟩
    · rw [Loopback.inbox_of_link hlink', Loopback.inbox_of_link hlink]
      apply Action.inbox_effectOn
  · rw [Action.not_isReceiptOf_of_not_isPeer hpeer, if_neg Bool.false_ne_true, List.drop_zero]
    rcases hgone with hshut | ⟨hnone, hturned⟩
    · constructor
      · exact ⟨link', hlink', .inl (hev.closed (hclosed hshut)).1⟩
      · apply (effects_act hw ht hpeer).inbox hw.net _ hlink (hclosed hshut)
        intro handle huse
        exact hw.isIssued_of_mayUse huse
    · have hsame := h.links_of_turnedAway hlink hnone hturned hpeer
      constructor
      · exact ⟨link, hsame, .inr ⟨hnone, hwaits hturned⟩⟩
      · rw [Loopback.inbox_of_link hsame, Loopback.inbox_of_link hlink]

theorem Reachable.deserted_after (h : w.Reachable) (hgone : w.net.IsDeserted k) (later : List Action) :
    (w.after later).net.IsDeserted k ∧
      (w.after later).net.inbox k = (w.net.inbox k).drop (later.countP (·.isReceiptOf k)) := by
  induction later using List.reverseRecOn with
  | nil => exact ⟨hgone, rfl⟩
  | append_singleton later action ih =>
    obtain ⟨hgone', hinbox⟩ := (h.after later).deserted_act ih.1 action
    rw [after_concat, List.countP_append, List.countP_singleton, ← List.drop_drop, ← ih.2]
    exact ⟨hgone', hinbox⟩

/--
Whether a peer receives the messages that are in its inbox, in their order, and nothing after them.
-/
structure FallsSilent (w : World) (k : ConnectionId) : Prop where
  delivered : ∀ later limit message, (w.net.inbox k)[later.countP (·.isReceiptOf k)]? = some message →
    ((w.after later).receive k limit).1 = .ok message ∧
      ((w.after later).receiveMetadata k limit).1 = Metadata.decode message
  -- With every message received, the peer waits for all of its time limit.
  silent : ∀ later limit, (w.net.inbox k).length ≤ later.countP (·.isReceiptOf k) →
    ((w.after later).receive k limit).1 = .error (.timeout (.message limit)) ∧
      ((w.after later).receiveMetadata k limit).1 = .error (.timeout (.message limit))
  -- The same happens wherever a message is still to come.
  slow : ∀ later limit, (w.net.inbox k).length ≤ later.countP (·.isReceiptOf k) →
    ∀ (other : World) (j : ConnectionId), (other.net.links[j]?).isSome → other.net.inbox j = [] →
      ((w.after later).receive k limit).1 = (other.receive j limit).1

theorem receive_fst (w : World) (hlink : (w.net.links[k]?).isSome) (limit : Duration) :
    (w.receive k limit).1 = (w.net.inbox k).head?.elim (.error (.timeout (.message limit))) .ok :=
  Loopback.receive_fst hlink limit

theorem falls_silent (h : w.Reachable) (hgone : w.net.IsDeserted k) : w.FallsSilent k := by
  have hreceive : ∀ later limit, ((w.after later).receive k limit).1 =
      (w.net.inbox k)[later.countP (·.isReceiptOf k)]?.elim (.error (.timeout (.message limit))) .ok := by
    intro later limit
    obtain ⟨⟨link, hlink, -⟩, hinbox⟩ := h.deserted_after hgone later
    rw [receive_fst _ (Option.isSome_of_eq_some hlink), hinbox, List.head?_drop]
  constructor
  · intro later limit message hmessage
    have hheard := hreceive later limit
    rw [hmessage, Option.elim_some] at hheard
    refine ⟨hheard, ?_⟩
    simp only [receiveMetadata, hheard]
    rfl
  · intro later limit hdrained
    have hheard := hreceive later limit
    rw [List.getElem?_eq_none hdrained, Option.elim_none] at hheard
    refine ⟨hheard, ?_⟩
    simp only [receiveMetadata, hheard]
    rfl
  · intro later limit hdrained other j hlink hempty
    have hheard := hreceive later limit
    rw [List.getElem?_eq_none hdrained, Option.elim_none] at hheard
    rw [hheard, receive_fst other hlink, hempty, List.head?_nil, Option.elim_none]

set_option maxRecDepth 10000 in
theorem falls_silent_advertised :
    let w := sampleRegistered.after (.startSession 1 .advertise :: sampleSteps 5 ++ [.dropSession 1])
    w.Reachable ∧ w.net.IsDeserted 2 ∧ w.net.inbox 2 = [Metadata.encode ⟨4096, 64, 4⟩] ∧ w.FallsSilent 2 := by
  intro w
  have hreach : w.Reachable := reachable_sampleRegistered.after _
  have hgone : w.net.IsDeserted 2 := ⟨_, rfl, .inl rfl⟩
  have hinbox : w.net.inbox 2 = [Metadata.encode ⟨4096, 64, 4⟩] := by decide +kernel
  exact ⟨hreach, hgone, hinbox, falls_silent hreach hgone⟩

set_option maxRecDepth 10000 in
theorem gone_server_unreported :
    let ready := sample.after (sampleMoves 3 ++ [.connect 7000] ++ sampleMoves 18 ++ [.endCall 2])
    let w := (ready.act (.receive 2 (.ofSeconds 0))).act (.dropStore 1)
    w.Reachable ∧ ready.stores[1]?.any (·.isReady) ∧
      (ready.receiveMetadata 2 (.ofSeconds 0)).1 = .ok ⟨4096, 128, 4⟩ ∧
      (∃ link, w.net.links[2]? = some link ∧ link.serverClosed = true) ∧
      ∀ limit, (w.receive 2 limit).1 = .error (.timeout (.message limit)) ∧
        (w.receive 2 limit).1 ≠ .error (.transport .serverGone) ∧
        (w.receiveMetadata 2 limit).1 ≠ .error (.transport .serverGone) := by
  intro ready w
  have hreach : w.Reachable := ((reachable_sample.after _).act _).act _
  have hready : ready.stores[1]?.any (·.isReady) := by decide +kernel
  have htold : (ready.receiveMetadata 2 (.ofSeconds 0)).1 = .ok ⟨4096, 128, 4⟩ := by decide +kernel
  have hlink : (w.net.links[2]?).isSome := by rfl
  have hempty : w.net.inbox 2 = [] := by rfl
  refine ⟨hreach, hready, htold, ⟨_, rfl, rfl⟩, ?_⟩
  intro limit
  have hwaits : (w.receive 2 limit).1 = .error (.timeout (.message limit)) := by
    rw [receive_fst w hlink, hempty, List.head?_nil, Option.elim_none]
  refine ⟨hwaits, ?_, ?_⟩
  · rw [hwaits]
    simp
  · simp only [receiveMetadata, hwaits]
    simp [Except.bind]

end World

end RemoteSlots
