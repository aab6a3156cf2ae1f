import RemoteSlots.Proofs.Initiation.Progress
import RemoteSlots.Proofs.Session.Turns

/-!
This module follows the completion queue of a session, and the inbox of its peer: what a message adds to them,
and what everybody else adds while the session runs an operation.
-/

namespace RemoteSlots

open Std

structure Completion.IsRefusal (completion : Completion) : Prop where
  status : completion.status = .remoteAccessError
  opcode : completion.opcode = .remoteWrite

def Link.isFull (link : Link) : Bool := 0 < link.queueSize && link.queueSize ≤ link.completions.length

theorem Link.completions_complete (link : Link) (completion : Completion) :
    (link.complete completion).completions =
      link.completions ++ if link.isFull then [] else [completion] := by
  unfold complete isFull
  split
  · next hfull => simp [hfull.1, hfull.2]
  · next hroom =>
    have hnot : (decide (0 < link.queueSize) && decide (link.queueSize ≤ link.completions.length)) = false := by
      simpa using hroom
    simp [hnot]

namespace Loopback

def completions (net : Loopback) (k : ConnectionId) : List Completion :=
  match net.links[k]? with
  | none => []
  | some link => link.completions

def isFull (net : Loopback) (k : ConnectionId) : Bool := net.links[k]?.any Link.isFull

variable {net net' : Loopback} {k : ConnectionId} {link : Link}

theorem completions_eq (h : net.links[k]? = some link) : net.completions k = link.completions := by
  unfold completions
  rw [h]

theorem inbox_of_link (h : net.links[k]? = some link) : net.inbox k = link.inbox := by
  unfold inbox
  rw [h]

theorem isFull_eq (h : net.links[k]? = some link) : net.isFull k = link.isFull := by
  unfold isFull
  rw [h]
  rfl

theorem poll_spec (net : Loopback) (k : ConnectionId) :
    (net.poll k).1 = (net.completions k).head? ∧
      (net.poll k).2.completions k = (net.completions k).tail ∧ (net.poll k).2.inbox k = net.inbox k := by
  unfold poll
  rcases hlink : net.links[k]? with _ | link
  · simp only [completions, hlink]
    exact ⟨rfl, rfl, True.intro⟩
  · have hlink' : (net.modifyLink k fun link => { link with completions := link.completions.tail }).links[k]? =
        some { link with completions := link.completions.tail } := by
      rw [getElem?_modifyLink, if_pos rfl, hlink]
      rfl
    dsimp only
    rw [completions_eq hlink', completions_eq hlink, inbox_of_link hlink', inbox_of_link hlink]
    exact ⟨rfl, rfl, rfl⟩

theorem send_outcome (memory : Memory) (request : UInt64) (element : SendElement)
    (hlink : net.links[k]? = some link) (hopen : link.serverClosed = false) :
    ∃ (f : Link → Link) (own : Completion) (message? : Option (List UInt8)),
      net.send memory k request element true = .ok (net.modifyLink k f) ∧ own.request = request ∧
      own.opcode = .send ∧ (own.status = .success ↔ message?.isSome) ∧
      (f link).inbox = link.inbox ++ message?.toList ∧
      (f link).completions = link.completions ++ if link.isFull then [] else [own] := by
  unfold send
  rw [hlink]
  dsimp only
  rw [hopen, if_neg Bool.false_ne_true]
  rcases hpayload : payload? memory link element with _ | message
  · refine ⟨_, ⟨request, .localProtectionError, .send⟩, none, rfl, rfl, rfl, by simp, ?_, ?_⟩
    · rw [hpayload, Link.inbox_complete, Option.toList_none, List.append_nil]
    · rw [hpayload, Link.completions_complete]
  · by_cases hclosed : link.peerClosed
    · refine ⟨_, ⟨request, .retryExceeded, .send⟩, none, rfl, rfl, rfl, by simp, ?_, ?_⟩
      · rw [hpayload]
        dsimp only
        rw [if_pos hclosed, Link.inbox_complete, Option.toList_none, List.append_nil]
      · rw [hpayload]
        dsimp only
        rw [if_pos hclosed, Link.completions_complete]
    · refine ⟨_, ⟨request, .success, .send⟩, some message, rfl, rfl, rfl, by simp, ?_, ?_⟩
      · rw [hpayload]
        dsimp only
        rw [if_neg hclosed, if_pos rfl, Link.inbox_complete]
        rfl
      · rw [hpayload]
        dsimp only
        rw [if_neg hclosed, if_pos rfl, Link.completions_complete]
        rfl

end Loopback

namespace Action

variable (action : Action) (k : ConnectionId) (link : Link)

theorem exists_completions_effectOn :
    ∃ completions : List Completion, (action.effectOn k link).completions = link.completions ++ completions ∧
      ∀ completion ∈ completions, completion.IsRefusal := by
  have hnone : ∃ completions : List Completion, link.completions = link.completions ++ completions ∧
      ∀ completion ∈ completions, completion.IsRefusal :=
    ⟨[], (List.append_nil _).symm, fun _ hmem => by contradiction⟩
  unfold effectOn
  split
  · split <;> exact hnone
  · split
    · unfold Loopback.writeEffect
      split
      · exact hnone
      · refine ⟨_, Link.completions_complete .., fun completion hmem => ?_⟩
        split at hmem
        · contradiction
        · rw [List.mem_singleton.mp hmem]
          exact ⟨rfl, rfl⟩
    · exact hnone
  · split <;> exact hnone
  · exact hnone

theorem length_inbox_effectOn_le : (action.effectOn k link).inbox.length ≤ link.inbox.length := by
  unfold effectOn
  split
  · split
    · rw [List.length_tail]
      exact Nat.sub_le ..
    · exact Nat.le_refl _
  · split
    · unfold Loopback.writeEffect
      split
      · exact Nat.le_refl _
      · exact Nat.le_of_eq (congrArg List.length (Link.inbox_complete ..))
    · exact Nat.le_refl _
  · split <;> exact Nat.le_refl _
  · exact Nat.le_refl _

end Action

namespace World

def queued (k : ConnectionId) (w : World) (action : Action) : List Completion :=
  ((w.act action).net.completions k).drop (w.net.completions k).length

def told (k : ConnectionId) (w : World) (action : Action) : List (List UInt8) :=
  ((w.act action).net.inbox k).drop (w.net.inbox k).length

variable {w : World} {id : SessionId} {session : Session} {k : ConnectionId} {action : Action}

theorem queued_eq {completions : List Completion}
    (h : (w.act action).net.completions k = w.net.completions k ++ completions) :
    w.queued k action = completions := by
  rw [queued, h, List.drop_left]

theorem told_eq {messages : List (List UInt8)}
    (h : (w.act action).net.inbox k = w.net.inbox k ++ messages) : w.told k action = messages := by
  rw [told, h, List.drop_left]

theorem queued_eq_nil (h : ((w.act action).net.completions k).length ≤ (w.net.completions k).length) :
    w.queued k action = [] :=
  List.drop_eq_nil_of_le h

theorem told_eq_nil (h : ((w.act action).net.inbox k).length ≤ (w.net.inbox k).length) :
    w.told k action = [] :=
  List.drop_eq_nil_of_le h

/--
Whether an action puts nothing into the queue of a connection but refusals, and nothing into the inbox.
-/
structure IsQuiet (w : World) (k : ConnectionId) (action : Action) : Prop where
  completions : (w.act action).net.completions k = w.net.completions k ++ w.queued k action
  refusals : ∀ completion ∈ w.queued k action, completion.IsRefusal
  told : w.told k action = []

theorem IsQuiet.of_net_eq (h : (w.act action).net = w.net) : w.IsQuiet k action := by
  have hqueued : w.queued k action = [] := queued_eq_nil (Nat.le_of_eq (by rw [h]))
  refine ⟨by rw [hqueued, h, List.append_nil], ?_, told_eq_nil (Nat.le_of_eq (by rw [h]))⟩
  rw [hqueued]
  exact fun _ hmem => by contradiction

theorem act_eq_of_actor? (hsession : w.sessions[id]? = some session)
    (hrunning : session.stage.result? = none) (hactor : w.actor? action = some (.session id))
    (hstep : ∀ expired, action ≠ .step (.session id) expired) : w.act action = w := by
  have hbusy : ∀ f : Session → World, w.withSession id f = w := by
    intro f
    have hrest : w.isAtRest (.session id) = false := by simp only [isAtRest, result?, hsession, hrunning]; rfl
    simp only [withSession, hsession, hrest]
    rfl
  obtain ⟨expired, rfl⟩ | rfl | rfl | rfl := eq_of_actor?_session hactor
  · exact absurd rfl (hstep expired)
  · exact hbusy _
  · exact hbusy _
  · exact hbusy _

theorem isQuiet_others (h : w.Sound) (ht : w.Tidy) (hsession : w.sessions[id]? = some session)
    (hrunning : session.stage.result? = none) (hheld : .endpoint k ∈ w.holdings (.session id))
    (hstep : ∀ expired, action ≠ .step (.session id) expired) : w.IsQuiet k action := by
  by_cases hactor : w.actor? action = some (.session id)
  · exact .of_net_eq (by rw [act_eq_of_actor? hsession hrunning hactor hstep])
  · obtain ⟨link, hlink⟩ := Option.isSome_iff_exists.mp (h.issued _ _ hheld).1
    have hlink' := links_act_of_actor h ht hheld hactor
    rw [hlink, Option.map_some] at hlink'
    obtain ⟨completions, hcompletions, hrefusals⟩ := action.exists_completions_effectOn k link
    have hact : (w.act action).net.completions k = w.net.completions k ++ completions := by
      rw [Loopback.completions_eq hlink', Loopback.completions_eq hlink, hcompletions]
    rw [← queued_eq hact] at hrefusals
    rw [← queued_eq hact] at hact
    refine ⟨hact, hrefusals, told_eq_nil ?_⟩
    rw [Loopback.inbox_of_link hlink', Loopback.inbox_of_link hlink]
    exact action.length_inbox_effectOn_le k link

variable (hsession : w.sessions[id]? = some session) (hfabric : session.fabric = .loopback)

include hsession hfabric

theorem act_step_session (expired : Bool) :
    let signals := { cancelled := session.cancelled, expired, now := w.now }
    let out := w.perform .loopback (session.stage.next session.name session.config signals)
    (w.act (.step (.session id) expired)).net = out.2.2.net ∧
      (w.act (.step (.session id) expired)).sessions[id]? = some { session with stage := out.1 } := by
  simp only [act, step, hsession, stepSession, hfabric, TreeMap.getElem?_insert_self]
  exact ⟨True.intro, True.intro⟩

end World

end RemoteSlots
