import RemoteSlots.Proofs.Session.Queue
import RemoteSlots.Proofs.World.Handover

/-!
This module shows what the requests that the loopback fabric serves do to the completion queue of a connection:
a look takes the oldest completion, a message posts one behind all others, and accepting the connection bounds
the queue without looking at what it holds.
-/

namespace RemoteSlots

open Std

def Request.isAside : Request → Bool
  | accept .. | send .. | poll _ => false
  | _ => true

namespace Link

@[simp]
theorem queueSize_complete (link : Link) (completion : Completion) :
    (link.complete completion).queueSize = link.queueSize := by
  unfold complete
  split <;> rfl

def report? (link : Link) (memory : Memory) (request : UInt64) (element : SendElement) (signaled : Bool) :
    Option Completion :=
  if link.serverClosed then none
  else
    match Loopback.payload? memory link element with
    | none => some { request, status := .localProtectionError, opcode := .send }
    | some _ =>
      if link.peerClosed then some { request, status := .retryExceeded, opcode := .send }
      else if signaled then some { request, status := .success, opcode := .send }
      else none

def refusal? (link : Link) (request address : UInt64) (key : UInt32) (words : Nat) : Option Completion :=
  match Loopback.target link address key words (4 * words) (·.remoteWrite) with
  | .ok _ => none
  | .error _ => some { request, status := .remoteAccessError, opcode := .remoteWrite }

end Link

namespace Loopback

variable {net net' : Loopback} {k : ConnectionId} {memory : Memory} {taken posted : Option Completion}

def queueSize (net : Loopback) (k : ConnectionId) : Nat :=
  match net.links[k]? with
  | none => 0
  | some link => link.queueSize

theorem queueSize_eq {link : Link} (h : net.links[k]? = some link) : net.queueSize k = link.queueSize := by
  unfold queueSize
  rw [h]

theorem isFull_eq_decide (net : Loopback) (k : ConnectionId) :
    net.isFull k = decide (0 < net.queueSize k ∧ net.queueSize k ≤ (net.completions k).length) := by
  rcases hlink : net.links[k]? with _ | link
  · simp [isFull, queueSize, hlink]
  · simp [isFull_eq hlink, queueSize_eq hlink, completions_eq hlink, Link.isFull]

def taken? (net : Loopback) (k : ConnectionId) : Request → Option Completion
  | .poll endpoint => if endpoint.handle = k then (net.poll k).1 else none
  | _ => none

def posted? (net : Loopback) (memory : Memory) (k : ConnectionId) : Request → Option Completion
  | .send endpoint request element signaled =>
    if endpoint.handle = k then net.links[k]?.bind (·.report? memory request element signaled) else none
  | _ => none

structure SameQueue (net net' : Loopback) (k : ConnectionId) : Prop where
  completions : net'.completions k = net.completions k
  queueSize : net'.queueSize k = net.queueSize k

namespace SameQueue

theorem refl (net : Loopback) (k : ConnectionId) : net.SameQueue net k := ⟨rfl, rfl⟩

theorem trans {net'' : Loopback} (hfirst : net.SameQueue net' k) (hthen : net'.SameQueue net'' k) :
    net.SameQueue net'' k :=
  ⟨hthen.completions.trans hfirst.completions, hthen.queueSize.trans hfirst.queueSize⟩

theorem of_links_eq (h : net'.links[k]? = net.links[k]?) : net.SameQueue net' k :=
  ⟨by simp only [Loopback.completions, h], by simp only [Loopback.queueSize, h]⟩

theorem modifyLink (net : Loopback) (id k : ConnectionId) {f : Link → Link}
    (hf : ∀ link : Link, (f link).completions = link.completions ∧ (f link).queueSize = link.queueSize) :
    net.SameQueue (net.modifyLink id f) k := by
  have hlinks := getElem?_modifyLink net id k f
  rcases hlink : net.links[k]? with _ | link
  · rw [hlink, Option.map_none, ite_self] at hlinks
    exact .of_links_eq (hlinks.trans hlink.symm)
  · rw [hlink, Option.map_some] at hlinks
    split at hlinks
    · constructor
      · rw [completions_eq hlinks, completions_eq hlink, (hf link).1]
      · rw [queueSize_eq hlinks, queueSize_eq hlink, (hf link).2]
    · exact .of_links_eq (hlinks.trans hlink.symm)

theorem register (net : Loopback) (endpoint : Endpoint) (extent : Extent) (access : Access) :
    net.SameQueue (net.serve memory (.register endpoint extent access)).2 k := by
  simp only [serve, Loopback.register]
  rcases net.links[endpoint.handle]? with _ | link
  · exact .refl net k
  · dsimp only
    by_cases hclosed : link.serverClosed
    · rw [if_pos hclosed]
      exact .refl net k
    · rw [if_neg hclosed]
      by_cases halign : extent.address % 4 ≠ 0
      · rw [if_pos halign]
        exact .refl net k
      · rw [if_neg halign]
        have hgrow : net.SameQueue { net with lastId := net.lastId + 1 } k := .of_links_eq rfl
        refine hgrow.trans (modifyLink _ endpoint.handle k ?_)
        exact fun link => ⟨rfl, rfl⟩

theorem deregister (net : Loopback) (endpoint : Endpoint) (keys : RegionKeys) :
    net.SameQueue (net.serve memory (.deregister endpoint keys)).2 k := by
  simp only [serve, Loopback.deregister]
  rcases net.links[endpoint.handle]? with _ | link
  · exact .refl net k
  · dsimp only
    by_cases hknown : link.regions.any (·.key = keys.remoteKey)
    · rw [if_pos hknown]
      exact modifyLink net endpoint.handle k fun link => ⟨rfl, rfl⟩
    · rw [if_neg hknown]
      exact .refl net k

theorem serve {request : Request} (haside : request.isAside) : net.SameQueue (net.serve memory request).2 k := by
  cases request with
  | accept | send | poll => contradiction
  | createChannel => exact .of_links_eq rfl
  | bind channel port =>
    apply of_links_eq
    simp only [Loopback.serve, answer, Loopback.bind]
    grind
  | listen channel backlog =>
    apply of_links_eq
    simp only [Loopback.serve, answer, Loopback.listen]
    grind
  | nextEvent channel =>
    apply of_links_eq
    simp only [Loopback.serve, Loopback.nextEvent]
    grind
  | closeChannel channel => exact .of_links_eq (congrArg (·[k]?) (links_closeChannel net channel))
  | receivePsn endpoint => exact .refl net k
  | disconnect endpoint => exact .modifyLink net endpoint.handle k fun link => ⟨rfl, rfl⟩
  | register endpoint extent access => exact .register net endpoint extent access
  | deregister endpoint keys => exact .deregister net endpoint keys

theorem serveAll {requests : List Request} (haside : ∀ request ∈ requests, request.isAside) :
    net.SameQueue (net.serveAll memory requests) k := by
  unfold Loopback.serveAll
  induction requests generalizing net with
  | nil => exact .refl net k
  | cons request requests ih =>
    have hrest := fun other hmem => haside other (List.mem_cons_of_mem request hmem)
    exact (serve (haside request List.mem_cons_self)).trans (ih hrest)

end SameQueue

/--
How the queue of a connection changes when a completion is taken from it and one is posted on it: the oldest one
is taken, and what is posted comes behind all others, unless the queue is full. The bound only changes when the
connection stops to wait.
-/
structure Passes (net net' : Loopback) (k : ConnectionId) (taken posted : Option Completion) : Prop where
  completions : taken.toList ++ net'.completions k =
    net.completions k ++ if net.isFull k then [] else posted.toList
  queueSize : (k ∈ net.pending → k ∈ net'.pending) → net'.queueSize k = net.queueSize k

theorem SameQueue.passes (h : net.SameQueue net' k) : net.Passes net' k none none :=
  ⟨by simp [h.completions], fun _ => h.queueSize⟩

namespace Passes

theorem post {f : Link → Link} {link : Link} (hlink : net.links[k]? = some link)
    (hlink' : net'.links[k]? = some (f link))
    (hcompletions : (f link).completions = link.completions ++ if link.isFull then [] else posted.toList)
    (hsize : (f link).queueSize = link.queueSize) : net.Passes net' k none posted where
  completions := by
    rw [completions_eq hlink', completions_eq hlink, isFull_eq hlink, hcompletions, Option.toList_none,
      List.nil_append]
  queueSize := fun _ => by rw [queueSize_eq hlink', queueSize_eq hlink, hsize]

theorem poll (net : Loopback) (k : ConnectionId) : net.Passes (net.poll k).2 k (net.poll k).1 none := by
  obtain ⟨htaken, hrest, -⟩ := poll_spec net k
  constructor
  · rw [htaken, hrest, Option.toList_none, ite_self, List.append_nil]
    rcases net.completions k with _ | ⟨oldest, completions⟩ <;> rfl
  · intro _
    unfold Loopback.poll
    rcases hlink : net.links[k]? with _ | link
    · rfl
    · have hlinks := getElem?_modifyLink net k k fun link => { link with completions := link.completions.tail }
      rw [if_pos rfl, hlink, Option.map_some] at hlinks
      exact (queueSize_eq hlinks).trans (queueSize_eq hlink).symm

theorem send (net : Loopback) (endpoint : Endpoint) (request : UInt64) (element : SendElement) (signaled : Bool) :
    net.Passes (net.serve memory (.send endpoint request element signaled)).2 endpoint.handle none
      (net.links[endpoint.handle]?.bind (·.report? memory request element signaled)) := by
  rcases hlink : net.links[endpoint.handle]? with _ | link
  · simp only [serve, Loopback.send, hlink, answer]
    exact (SameQueue.refl net _).passes
  · simp only [serve, Loopback.send, hlink, answer, Option.bind_some, Link.report?]
    by_cases hclosed : link.serverClosed
    · rw [if_pos hclosed, if_pos hclosed]
      exact (SameQueue.refl net _).passes
    · rw [if_neg hclosed, if_neg hclosed]
      refine .post hlink ((getElem?_modifyLink ..).trans (by rw [if_pos rfl, hlink, Option.map_some])) ?_ ?_
      · rcases payload? memory link element with _ | message
        · exact Link.completions_complete ..
        · dsimp only
          by_cases hpeer : link.peerClosed
          · rw [if_pos hpeer, if_pos hpeer]
            exact Link.completions_complete ..
          · rw [if_neg hpeer, if_neg hpeer]
            cases signaled with
            | true => exact Link.completions_complete ..
            | false => simp
      · rcases payload? memory link element with _ | message
        · exact Link.queueSize_complete ..
        · dsimp only
          by_cases hpeer : link.peerClosed
          · rw [if_pos hpeer]
            exact Link.queueSize_complete ..
          · rw [if_neg hpeer]
            cases signaled with
            | true => exact Link.queueSize_complete ..
            | false => rfl

theorem accept (hnet : net.Sound) (channel : ChannelId) (id : ConnectionId) (queues : QueueSizes) :
    net.Passes (net.accept channel id queues).2 k none none := by
  rcases accept_cases net channel id queues with ⟨_, heq⟩ | ⟨_, heq⟩ | ⟨link, hlink, hmem, -, heq⟩
  · rw [heq]
    exact (SameQueue.refl net k).passes
  · rw [heq]
    have hsame : net.SameQueue { net with pending := net.pending.erase id } k := .of_links_eq rfl
    exact hsame.passes
  · rw [heq]
    have hlinks := getElem?_modifyLink { net with pending := net.pending.erase id } id k fun link =>
      { link with queueSize := queues.completions.toNat, acceptedBy := some channel }
    by_cases hid : id = k
    · subst hid
      rw [if_pos rfl, hlink, Option.map_some] at hlinks
      constructor
      · have hcompletions := completions_eq hlinks
        rw [Option.toList_none, ite_self, List.append_nil, List.nil_append, completions_eq hlink]
        exact hcompletions
      · exact fun hwaits => absurd (hwaits hmem) hnet.nodup.not_mem_erase
    · rw [if_neg hid] at hlinks
      refine (SameQueue.of_links_eq ?_).passes
      exact hlinks

theorem serve (hnet : net.Sound) (memory : Memory) (request : Request) :
    net.Passes (net.serve memory request).2 k (net.taken? k request) (net.posted? memory k request) := by
  have helsewhere : ∀ endpoint : Endpoint, endpoint.handle ≠ k → request.handles = [.endpoint endpoint.handle] →
      request.acquired (net.serve memory request).1 = [] →
      net.Passes (net.serve memory request).2 k none none := by
    intro endpoint hne hhandles hacquired
    refine (SameQueue.of_links_eq (serve_links_of_ne ?_ ?_)).passes
    · rw [hhandles]
      simpa using Ne.symm hne
    · simp [hacquired]
  cases request with
  | accept channel id queues => exact .accept hnet channel id queues
  | send endpoint request element signaled =>
    simp only [taken?, posted?]
    by_cases heq : endpoint.handle = k
    · rw [if_pos heq]
      exact heq ▸ .send net endpoint request element signaled
    · rw [if_neg heq]
      exact helsewhere endpoint heq rfl rfl
  | poll endpoint =>
    simp only [taken?, posted?]
    by_cases heq : endpoint.handle = k
    · rw [if_pos heq]
      exact heq ▸ .poll net endpoint.handle
    · rw [if_neg heq]
      exact helsewhere endpoint heq rfl rfl
  | _ => exact (SameQueue.serve rfl).passes

end Passes

theorem queueSize_accept (hnet : net.Sound) {channel : ChannelId} {queues : QueueSizes}
    (haccepted : (net.accept channel k queues).1.isOk) :
    k ∈ net.pending ∧ k ∉ (net.accept channel k queues).2.pending ∧
      (net.accept channel k queues).2.queueSize k = queues.completions.toNat := by
  rcases accept_cases net channel k queues with ⟨_, heq⟩ | ⟨_, heq⟩ | ⟨link, hlink, hmem, -, heq⟩
  · rw [heq] at haccepted
    contradiction
  · rw [heq] at haccepted
    contradiction
  · rw [heq]
    refine ⟨hmem, hnet.nodup.not_mem_erase, ?_⟩
    have hlinks := getElem?_modifyLink { net with pending := net.pending.erase k } k k fun link =>
      { link with queueSize := queues.completions.toNat, acceptedBy := some channel }
    rw [if_pos rfl, hlink, Option.map_some] at hlinks
    exact queueSize_eq hlinks

theorem connect_queue {port : UInt16} (hconnect : net.connect port = .ok (k, net')) :
    k ∈ net'.pending ∧ net'.completions k = [] ∧ net'.queueSize k = 0 ∧ (net'.links[k]?).isSome := by
  unfold Loopback.connect at hconnect
  split at hconnect
  · contradiction
  · next listener _ =>
    split at hconnect
    · simp only [Except.ok.injEq, Prod.mk.injEq] at hconnect
      obtain ⟨rfl, rfl⟩ := hconnect
      refine ⟨List.mem_append_right _ (List.mem_singleton_self _), ?_, ?_, ?_⟩ <;>
        simp [completions, queueSize, deliver]
    · contradiction

end Loopback

end RemoteSlots
