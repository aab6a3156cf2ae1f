import RemoteSlots.Proofs.Session.Queue

/-!
This module follows the advertisement of a region from the call to its end. A completion passes for the
acknowledgement by its number alone. What decides is therefore the first completion of that number among all
that were in the queue or came into it, and this is the one of the message itself only if none stands before it.
-/

namespace RemoteSlots

open Std

namespace Completion

def isAck (completion : Completion) : Bool := completion.request = advertiseRequest

def verdict (completion : Completion) : Except Failure Unit :=
  if completion.status = .success then .ok ()
  else .error (.completion completion.status completion.request)

end Completion

def Action.isStepOf (id : SessionId) : Action → Bool
  | step (.session other) _ => other = id
  | _ => false

namespace World

def seen (w : World) (k : ConnectionId) (actions : List Action) : List Completion :=
  w.net.completions k ++ w.observe (queued k) actions

structure Silent (w : World) (k : ConnectionId) (actions : List Action) : Prop where
  completions : (w.after actions).net.completions k = w.seen k actions
  refusals : ∀ completion ∈ w.observe (queued k) actions, completion.IsRefusal
  told : w.observe (told k) actions = []

structure HasPosted (w : World) (id : SessionId) (k : ConnectionId) (stage : Stage) (actions front : List Action)
    (expired : Bool) (rest : List Action) (own : Completion) (message? : Option (List UInt8)) : Prop where
  run : actions = front ++ .step (.session id) expired :: rest
  posts : ∃ session, (w.after front).sessions[id]? = some session ∧ session.stage = stage
  silent : w.Silent k front
  isAck : own.isAck
  opcode : own.opcode = .send
  delivered : own.status = .success ↔ message?.isSome
  queued : (w.after front).queued k (.step (.session id) expired) =
    if (w.after front).net.isFull k then [] else [own]
  told : w.observe (told k) actions = message?.toList
  refusals : ∀ completion ∈ (w.after (front ++ [.step (.session id) expired])).observe (World.queued k) rest,
    completion.IsRefusal

inductive Interruption (w : World) (id : SessionId) (session : Session) (actions : List Action) : Failure → Prop
  | cancelled {early late : List Action} {session' : Session} (hactions : actions = early ++ late)
    (hsession : (w.after early).sessions[id]? = some session') (hcancelled : session'.cancelled) :
    Interruption w id session actions .cancelled
  | timeout (h : session.config.ackTimeout.nanos = 0 ∨ .step (.session id) true ∈ actions) :
    Interruption w id session actions
      (.timeout (.acknowledgement session.name advertiseRequest session.config.ackTimeout))

def Decides (w : World) (id : SessionId) (session : Session) (k : ConnectionId) (actions : List Action)
    (result : Except Failure Unit) : Prop :=
  (∃ completion, (w.seen k actions).find? Completion.isAck = some completion ∧ result = completion.verdict) ∨
    ∃ failure, w.Interruption id session actions failure ∧ result = .error failure

inductive Advertises (w : World) (id : SessionId) (session : Session) (binding : Binding) (endpoint : Endpoint)
    (region : Region) (actions : List Action) : Stage → Prop
  | announce (hsilent : w.Silent endpoint.handle actions) (hmoves : actions.countP (·.isStepOf id) = 0) :
    Advertises w id session binding endpoint region actions (.announce binding endpoint region)
  | short (hsilent : w.Silent endpoint.handle actions) (hmoves : actions.countP (·.isStepOf id) = 1)
    (hshort : region.length < Metadata.wireLength) :
    Advertises w id session binding endpoint region actions (.rest (.registered binding endpoint region)
      (.error (.failed (.config (.regionTooSmall region.length Metadata.wireLength)))))
  | send (hsilent : w.Silent endpoint.handle actions) (hmoves : actions.countP (·.isStepOf id) = 1) :
    Advertises w id session binding endpoint region actions (.send binding endpoint region)
  | awaitAck {front rest : List Action} {expired : Bool} {own : Completion} {message? : Option (List UInt8)}
    (hposted : w.HasPosted id endpoint.handle (.send binding endpoint region) actions front expired rest own
      message?)
    (passed : List Completion)
    (hpassed : w.seen endpoint.handle actions = passed ++ (w.after actions).net.completions endpoint.handle)
    (hforeign : ∀ completion ∈ passed, completion.isAck = false)
    (hmoves : (w.after front).net.isFull endpoint.handle = false →
      own ∈ (w.after actions).net.completions endpoint.handle ∧
        actions.countP (·.isStepOf id) = passed.length + 2) :
    Advertises w id session binding endpoint region actions (.awaitAck binding endpoint region)
  | faulted {front rest : List Action} {expired : Bool} {own : Completion} {message? : Option (List UInt8)}
    (hposted : w.HasPosted id endpoint.handle (.send binding endpoint region) actions front expired rest own
      message?)
    (hclock : session.config.ackTimeout.isReachable w.now = false)
    (hmoves : (w.after front).net.isFull endpoint.handle = false → actions.countP (·.isStepOf id) ≤
      (w.seen endpoint.handle actions).findIdx Completion.isAck + 4) :
    Advertises w id session binding endpoint region actions
      (.rest (.registered binding endpoint region) (.error .faulted))
  | wipe {front rest : List Action} {expired : Bool} {own : Completion} {message? : Option (List UInt8)}
    (hposted : w.HasPosted id endpoint.handle (.send binding endpoint region) actions front expired rest own
      message?)
    {result : Except Failure Unit} (hdecides : w.Decides id session endpoint.handle actions result)
    (hmoves : (w.after front).net.isFull endpoint.handle = false → actions.countP (·.isStepOf id) ≤
      (w.seen endpoint.handle actions).findIdx Completion.isAck + 3) :
    Advertises w id session binding endpoint region actions (.wipe binding endpoint region result)
  | ended {front rest : List Action} {expired : Bool} {own : Completion} {message? : Option (List UInt8)}
    (hposted : w.HasPosted id endpoint.handle (.send binding endpoint region) actions front expired rest own
      message?)
    {phase : Phase} {result : Except Failure Unit}
    (hdecides : w.Decides id session endpoint.handle actions result)
    (hmoves : (w.after front).net.isFull endpoint.handle = false → actions.countP (·.isStepOf id) ≤
      (w.seen endpoint.handle actions).findIdx Completion.isAck + 4) :
    Advertises w id session binding endpoint region actions (.rest phase (result.mapError .failed))

variable {w : World} {id : SessionId} {session : Session} {binding : Binding} {endpoint : Endpoint}
  {region : Region} {k : ConnectionId} {actions : List Action} {action : Action}

theorem seen_concat (w : World) (k : ConnectionId) (actions : List Action) (action : Action) :
    w.seen k (actions ++ [action]) = w.seen k actions ++ (w.after actions).queued k action := by
  rw [seen, observe_concat, ← List.append_assoc]
  rfl

theorem Silent.nil (w : World) (k : ConnectionId) : w.Silent k [] :=
  ⟨(List.append_nil _).symm, fun _ hmem => by contradiction, rfl⟩

theorem Silent.concat (h : w.Silent k actions) (hquiet : (w.after actions).IsQuiet k action) :
    w.Silent k (actions ++ [action]) where
  completions := by rw [after_concat, hquiet.completions, seen_concat, h.completions]
  refusals := by
    intro completion hmem
    rw [observe_concat] at hmem
    exact (List.mem_append.mp hmem).elim (h.refusals completion) (hquiet.refusals completion)
  told := by rw [observe_concat, h.told, hquiet.told, List.nil_append]

theorem HasPosted.concat {stage : Stage} {front rest : List Action} {expired : Bool} {own : Completion}
    {message? : Option (List UInt8)} (h : w.HasPosted id k stage actions front expired rest own message?)
    (hrefusals : ∀ completion ∈ (w.after actions).queued k action, completion.IsRefusal)
    (htold : (w.after actions).told k action = []) :
    w.HasPosted id k stage (actions ++ [action]) front expired (rest ++ [action]) own message? where
  run := by rw [h.run, List.append_assoc, List.cons_append]
  posts := h.posts
  silent := h.silent
  isAck := h.isAck
  opcode := h.opcode
  delivered := h.delivered
  queued := h.queued
  told := by rw [observe_concat, h.told, htold, List.append_nil]
  refusals := by
    have hafter : (w.after (front ++ [.step (.session id) expired])).after rest = w.after actions := by
      rw [h.run, ← after_append, List.append_assoc]
      rfl
    intro completion hmem
    rw [observe_concat, hafter] at hmem
    exact (List.mem_append.mp hmem).elim (h.refusals completion) (hrefusals completion)

theorem Interruption.concat {failure : Failure} (h : w.Interruption id session actions failure) (action : Action) :
    w.Interruption id session (actions ++ [action]) failure := by
  cases h with
  | cancelled hactions hsession hcancelled =>
    exact .cancelled ((congrArg (· ++ [action]) hactions).trans (List.append_assoc ..)) hsession hcancelled
  | timeout h => exact .timeout (h.imp_right fun hmem => List.mem_append_left _ hmem)

theorem Decides.concat {result : Except Failure Unit} (h : w.Decides id session k actions result)
    (action : Action) : w.Decides id session k (actions ++ [action]) result := by
  rcases h with ⟨completion, hfind, hresult⟩ | ⟨failure, hinterruption, hresult⟩
  · refine .inl ⟨completion, ?_, hresult⟩
    rw [seen_concat, List.find?_append, hfind]
    rfl
  · exact .inr ⟨failure, hinterruption.concat action, hresult⟩

theorem findIdx_seen_le (w : World) (k : ConnectionId) (actions : List Action) (action : Action) :
    (w.seen k actions).findIdx Completion.isAck ≤
      (w.seen k (actions ++ [action])).findIdx Completion.isAck := by
  rw [seen_concat, List.findIdx_append]
  split
  · exact Nat.le_refl _
  · exact Nat.le_trans List.findIdx_le_length (Nat.le_add_left _ _)

theorem countP_concat_of_step (id : SessionId) (actions : List Action) (expired : Bool) :
    (actions ++ [Action.step (.session id) expired]).countP (·.isStepOf id) =
      actions.countP (·.isStepOf id) + 1 := by
  rw [List.countP_append]
  simp [Action.isStepOf]

theorem countP_concat_of_others (hstep : ∀ expired, action ≠ .step (.session id) expired) :
    (actions ++ [action]).countP (·.isStepOf id) = actions.countP (·.isStepOf id) := by
  have hnot : action.isStepOf id = false := by
    cases action with
    | step task expired =>
      cases task with
      | call other => rfl
      | session other =>
        simp only [Action.isStepOf, decide_eq_false_iff_not]
        exact fun heq => hstep expired (heq ▸ rfl)
    | _ => rfl
  rw [List.countP_append, List.countP_singleton, hnot]
  rfl

theorem Advertises.others {stage : Stage} (h : w.Advertises id session binding endpoint region actions stage)
    (hrunning : stage.result? = none) (hstep : ∀ expired, action ≠ .step (.session id) expired)
    (hquiet : (w.after actions).IsQuiet endpoint.handle action) :
    w.Advertises id session binding endpoint region (actions ++ [action]) stage := by
  have hcount : (actions ++ [action]).countP (·.isStepOf id) = actions.countP (·.isStepOf id) :=
    countP_concat_of_others hstep
  cases h with
  | announce hsilent hmoves => exact .announce (hsilent.concat hquiet) (hcount.trans hmoves)
  | send hsilent hmoves => exact .send (hsilent.concat hquiet) (hcount.trans hmoves)
  | awaitAck hposted passed hpassed hforeign hmoves =>
    refine .awaitAck (hposted.concat hquiet.refusals hquiet.told) passed ?_ hforeign fun hroom => ?_
    · rw [seen_concat, hpassed, after_concat, hquiet.completions, List.append_assoc]
    · obtain ⟨hmem, hmoves⟩ := hmoves hroom
      rw [after_concat, hquiet.completions]
      exact ⟨List.mem_append_left _ hmem, hcount.trans hmoves⟩
  | wipe hposted hdecides hmoves =>
    refine .wipe (hposted.concat hquiet.refusals hquiet.told) (hdecides.concat action) fun hroom => ?_
    rw [hcount]
    exact Nat.le_trans (hmoves hroom) (Nat.add_le_add_right (w.findIdx_seen_le ..) 3)
  | short | faulted | ended => contradiction

theorem awaitAck_cases (w : World) (name : String) (config : SessionConfig) (signals : Signals)
    (binding : Binding) (endpoint : Endpoint) (region : Region) :
    let out := w.perform .loopback ((Stage.awaitAck binding endpoint region).next name config signals)
    out.2.2.net.inbox endpoint.handle = w.net.inbox endpoint.handle ∧
      (out.2.2.net.completions endpoint.handle = w.net.completions endpoint.handle ∧
          (config.ackTimeout.isReachable signals.now = false ∧
              out.1 = .rest (.registered binding endpoint region) (.error .faulted) ∨
            signals.cancelled ∧ out.1 = .wipe binding endpoint region (.error .cancelled)) ∨
        (∃ completion, w.net.completions endpoint.handle =
              completion :: out.2.2.net.completions endpoint.handle ∧ completion.isAck ∧
            out.1 = .wipe binding endpoint region completion.verdict) ∨
        (∀ completion ∈ (w.net.completions endpoint.handle).head?, completion.isAck = false) ∧
          out.2.2.net.completions endpoint.handle = (w.net.completions endpoint.handle).tail ∧
          (out.1 = .awaitAck binding endpoint region ∨
            (config.ackTimeout.nanos = 0 ∨ signals.expired) ∧ out.1 = .wipe binding endpoint region
              (.error (.timeout (.acknowledgement name advertiseRequest config.ackTimeout))))) := by
  obtain ⟨hhead, htail, hinbox⟩ := w.net.poll_spec endpoint.handle
  intro out
  have hout : out = w.perform .loopback ((Stage.awaitAck binding endpoint region).next name config signals) := rfl
  simp only [Stage.next, Stage.awaitCompletion] at hout
  split at hout
  · next hclock =>
    rw [hout]
    exact ⟨rfl, .inl ⟨rfl, .inl ⟨by simpa using hclock, rfl⟩⟩⟩
  · split at hout
    · next hcancelled =>
      rw [hout]
      exact ⟨rfl, .inl ⟨rfl, .inr ⟨hcancelled, rfl⟩⟩⟩
    · have hnet : out.2.2.net = (w.net.poll endpoint.handle).2 := by rw [hout]; rfl
      have hnext := congrArg (·.1) hout
      simp only [perform, serve, Loopback.serve, hhead] at hnext
      rw [hnet, htail]
      refine ⟨hinbox, .inr ?_⟩
      split at hnext
      · next completion hfilter =>
        obtain ⟨hsome, hack⟩ := Option.filter_eq_some_iff.mp hfilter
        obtain ⟨rest, hrest⟩ := List.head?_eq_some_iff.mp hsome
        refine .inl ⟨completion, by rw [hrest]; rfl, hack, ?_⟩
        rw [hnext, Completion.verdict]
        split <;> rfl
      · next hfilter =>
        refine .inr ⟨?_, rfl, ?_⟩
        · intro completion hsome
          exact Bool.eq_false_iff.mpr (Option.filter_eq_none_iff.mp hfilter completion hsome)
        · split at hnext
          · next hover => exact .inr ⟨by simpa using hover, hnext⟩
          · exact .inl hnext

section Moves

variable {cancelled expired : Bool} {stage : Stage}

/--
A move of a session after some actions: the fabric and the stage are those that the move leads to.
-/
structure Moves (w : World) (id : SessionId) (session : Session) (cancelled expired : Bool) (actions : List Action)
    (stage stage' : Stage) : Prop where
  stands : (w.after actions).sessions[id]? = some { session with cancelled, stage }
  leads : stage' = ((w.after actions).perform .loopback
    (stage.next session.name session.config { cancelled, expired, now := (w.after actions).now })).1
  net : ((w.after actions).act (.step (.session id) expired)).net = ((w.after actions).perform .loopback
    (stage.next session.name session.config { cancelled, expired, now := (w.after actions).now })).2.2.net

variable {stage' : Stage}

theorem Advertises.announces
    (hmoves : w.Moves id session cancelled expired actions (.announce binding endpoint region) stage')
    (hsilent : w.Silent endpoint.handle actions) (hcount : actions.countP (·.isStepOf id) = 0) :
    w.Advertises id session binding endpoint region (actions ++ [.step (.session id) expired]) stage' := by
  obtain ⟨-, hstage, hnet⟩ := hmoves
  have hcount' := countP_concat_of_step id actions expired
  rw [hcount] at hcount'
  simp only [Stage.next] at hstage hnet
  split at hstage
  · next hshort =>
    rw [if_pos hshort] at hnet
    rw [hstage]
    exact .short (hsilent.concat (.of_net_eq hnet)) hcount' hshort
  · next hlong =>
    rw [if_neg hlong] at hnet
    rw [hstage]
    exact .send (hsilent.concat (.of_net_eq hnet)) hcount'

theorem Advertises.sends (hreach : (w.after actions).Reachable) (hfabric : session.fabric = .loopback)
    (hmoves : w.Moves id session cancelled expired actions (.send binding endpoint region) stage')
    (hsilent : w.Silent endpoint.handle actions) (hcount : actions.countP (·.isStepOf id) = 1) :
    w.Advertises id session binding endpoint region (actions ++ [.step (.session id) expired]) stage' := by
  obtain ⟨hsession, hstage, hnet⟩ := hmoves
  have hfirm := hreach.isFirm_session hsession hfabric
  obtain ⟨link, hlink, hopen, -⟩ := hfirm.link endpoint _ rfl
  obtain ⟨f, own, message?, hsend, hnumber, hopcode, hdelivered, hinbox, hcompletions⟩ :=
    Loopback.send_outcome (w.after actions).memory advertiseRequest (Stage.element region) hlink hopen
  simp only [Stage.next, perform, serve, Loopback.serve, hsend, Loopback.answer] at hstage hnet
  have hlink' : ((w.after actions).act (.step (.session id) expired)).net.links[endpoint.handle]? =
      some (f link) := by
    rw [hnet, Loopback.getElem?_modifyLink, if_pos rfl, hlink]
    rfl
  have hafter : ((w.after actions).act (.step (.session id) expired)).net.completions endpoint.handle =
      (w.after actions).net.completions endpoint.handle ++
        if (w.after actions).net.isFull endpoint.handle then [] else [own] := by
    rw [Loopback.completions_eq hlink', Loopback.completions_eq hlink, Loopback.isFull_eq hlink, hcompletions]
  have htold : (w.after actions).told endpoint.handle (.step (.session id) expired) = message?.toList :=
    told_eq (by rw [Loopback.inbox_of_link hlink', Loopback.inbox_of_link hlink, hinbox])
  have hqueued := queued_eq hafter
  rw [hstage]
  have hposted : w.HasPosted id endpoint.handle (.send binding endpoint region)
      (actions ++ [.step (.session id) expired]) actions expired [] own message? := by
    refine ⟨rfl, ⟨_, hsession, rfl⟩, hsilent, decide_eq_true hnumber, hopcode, hdelivered, hqueued, ?_,
      fun _ hmem => by contradiction⟩
    rw [observe_concat, hsilent.told, htold, List.nil_append]
  refine .awaitAck hposted [] ?_ (fun _ hmem => by contradiction) fun hroom => ⟨?_, ?_⟩
  · rw [seen_concat, hqueued, after_concat, hafter, hsilent.completions, List.nil_append]
  · rw [after_concat, hafter, hroom]
    exact List.mem_append_right _ (List.mem_singleton_self own)
  · rw [countP_concat_of_step, hcount]
    rfl

theorem find?_of_passed {passed rest : List Completion} {completion : Completion}
    (hforeign : ∀ completion ∈ passed, completion.isAck = false) (hack : completion.isAck) :
    (passed ++ completion :: rest).find? Completion.isAck = some completion := by
  have hnone : passed.find? Completion.isAck = none := List.find?_eq_none.mpr fun other hmem => by
    rw [hforeign other hmem]
    exact Bool.false_ne_true
  rw [List.find?_append, hnone, List.find?_cons_of_pos hack]
  rfl

theorem length_le_findIdx {passed : List Completion} (rest : List Completion)
    (hforeign : ∀ completion ∈ passed, completion.isAck = false) :
    passed.length ≤ (passed ++ rest).findIdx Completion.isAck := by
  have hlength : passed.findIdx Completion.isAck = passed.length := List.findIdx_eq_length.mpr hforeign
  rw [List.findIdx_append, hlength, if_neg (Nat.lt_irrefl _)]
  exact Nat.le_add_left _ _

theorem Advertises.polls
    (hmoves : w.Moves id session cancelled expired actions (.awaitAck binding endpoint region) stage')
    {front rest : List Action} {posted : Bool} {own : Completion} {message? : Option (List UInt8)}
    (hposted : w.HasPosted id endpoint.handle (.send binding endpoint region) actions front posted rest own
      message?)
    {passed : List Completion}
    (hpassed : w.seen endpoint.handle actions = passed ++ (w.after actions).net.completions endpoint.handle)
    (hforeign : ∀ completion ∈ passed, completion.isAck = false)
    (hcount : (w.after front).net.isFull endpoint.handle = false →
      own ∈ (w.after actions).net.completions endpoint.handle ∧
        actions.countP (·.isStepOf id) = passed.length + 2)
    (hnow : (w.after actions).now = w.now) :
    w.Advertises id session binding endpoint region (actions ++ [.step (.session id) expired]) stage' := by
  obtain ⟨hsession, hstage, hnet⟩ := hmoves
  have hcases := (w.after actions).awaitAck_cases session.name session.config
    { cancelled, expired, now := (w.after actions).now } binding endpoint region
  simp only [← hstage, ← hnet] at hcases
  obtain ⟨hinbox, hcases⟩ := hcases
  have htold : (w.after actions).told endpoint.handle (.step (.session id) expired) = [] :=
    told_eq_nil (Nat.le_of_eq (by rw [hinbox]))
  have hshrinks : (((w.after actions).act (.step (.session id) expired)).net.completions
      endpoint.handle).length ≤ ((w.after actions).net.completions endpoint.handle).length := by
    rcases hcases with ⟨heq, -⟩ | ⟨completion, heq, -⟩ | ⟨-, heq, -⟩
    · exact Nat.le_of_eq (by rw [heq])
    · rw [heq]
      exact Nat.le_succ _
    · rw [heq, List.length_tail]
      exact Nat.sub_le ..
  have hqueued := queued_eq_nil hshrinks
  have hrefusals : ∀ completion ∈ (w.after actions).queued endpoint.handle (.step (.session id) expired),
      completion.IsRefusal := by
    rw [hqueued]
    exact fun _ hmem => by contradiction
  have hposted' := hposted.concat hrefusals htold
  have hseen : w.seen endpoint.handle (actions ++ [.step (.session id) expired]) =
      w.seen endpoint.handle actions := by
    rw [seen_concat, hqueued, List.append_nil]
  have hbound : (w.after front).net.isFull endpoint.handle = false →
      (actions ++ [Action.step (.session id) expired]).countP (·.isStepOf id) ≤
        (w.seen endpoint.handle (actions ++ [.step (.session id) expired])).findIdx Completion.isAck + 3 := by
    intro hroom
    rw [countP_concat_of_step, (hcount hroom).2, hseen, hpassed]
    exact Nat.add_le_add_right (length_le_findIdx _ hforeign) 3
  rcases hcases with ⟨-, ⟨hclock, rfl⟩ | ⟨hcancelled, rfl⟩⟩ | ⟨completion, hhead, hack, rfl⟩ |
    ⟨hhead, htail, rfl | ⟨hover, rfl⟩⟩
  · exact .faulted hposted' (hnow ▸ hclock) fun hroom => Nat.le_succ_of_le (hbound hroom)
  · exact .wipe hposted' (.inr ⟨_, .cancelled rfl hsession hcancelled, rfl⟩) hbound
  · refine .wipe hposted' (.inl ⟨completion, ?_, rfl⟩) hbound
    rw [hseen, hpassed, hhead]
    exact find?_of_passed hforeign hack
  · rcases hqueue : (w.after actions).net.completions endpoint.handle with _ | ⟨completion, later⟩
    · refine .awaitAck hposted' passed ?_ hforeign fun hroom => ?_
      · rw [hseen, hpassed, after_concat, htail, hqueue]
        rfl
      · have hmem := (hcount hroom).1
        rw [hqueue] at hmem
        contradiction
    -- The oldest completion has another number, so it is not the session's own one.
    · rw [hqueue] at hhead htail hpassed
      have hother := hhead completion rfl
      refine .awaitAck hposted' (passed ++ [completion]) ?_ ?_ fun hroom => ?_
      · rw [hseen, hpassed, after_concat, htail, List.append_assoc]
        rfl
      · intro other hmem
        rcases List.mem_append.mp hmem with hmem | hmem
        · exact hforeign other hmem
        · exact List.mem_singleton.mp hmem ▸ hother
      · obtain ⟨hmem, hmoves⟩ := hcount hroom
        rw [hqueue] at hmem
        rw [after_concat, htail, countP_concat_of_step, hmoves, List.length_append]
        refine ⟨?_, rfl⟩
        rcases List.mem_cons.mp hmem with rfl | hmem
        · rw [hposted.isAck] at hother
          contradiction
        · exact hmem
  · refine .wipe hposted' (.inr ⟨_, .timeout (hover.imp_right ?_), rfl⟩) hbound
    rintro rfl
    exact List.mem_append_right _ (List.mem_singleton_self _)

theorem Advertises.wipes
    {result : Except Failure Unit}
    (hmoves : w.Moves id session cancelled expired actions (.wipe binding endpoint region result) stage')
    {front rest : List Action} {posted : Bool} {own : Completion} {message? : Option (List UInt8)}
    (hposted : w.HasPosted id endpoint.handle (.send binding endpoint region) actions front posted rest own
      message?)
    (hdecides : w.Decides id session endpoint.handle actions result)
    (hcount : (w.after front).net.isFull endpoint.handle = false → actions.countP (·.isStepOf id) ≤
      (w.seen endpoint.handle actions).findIdx Completion.isAck + 3) :
    w.Advertises id session binding endpoint region (actions ++ [.step (.session id) expired]) stage' := by
  obtain ⟨-, hstage, hnet⟩ := hmoves
  have hquiet : (w.after actions).IsQuiet endpoint.handle (.step (.session id) expired) := .of_net_eq hnet
  have hrest : ∃ phase, stage' = .rest phase (result.mapError .failed) := by
    rw [hstage]
    rcases result with failure | ⟨⟩
    · exact ⟨_, rfl⟩
    · exact ⟨_, rfl⟩
  obtain ⟨phase, rfl⟩ := hrest
  refine .ended (hposted.concat hquiet.refusals hquiet.told) (hdecides.concat _) fun hroom => ?_
  rw [countP_concat_of_step]
  exact Nat.succ_le_succ (Nat.le_trans (hcount hroom) (Nat.add_le_add_right (w.findIdx_seen_le ..) 3))

end Moves

theorem Advertises.move {cancelled : Bool} {stage : Stage} (hreach : w.Reachable)
    (hsession : (w.after actions).sessions[id]? = some { session with cancelled, stage })
    (hfabric : session.fabric = .loopback)
    (h : w.Advertises id session binding endpoint region actions stage) (hrunning : stage.result? = none)
    (expired : Bool) :
    ∃ stage', ((w.after actions).act (.step (.session id) expired)).sessions[id]? =
        some { session with cancelled, stage := stage' } ∧
      w.Advertises id session binding endpoint region (actions ++ [.step (.session id) expired]) stage' := by
  obtain ⟨hnet, hsession'⟩ := act_step_session hsession hfabric expired
  refine ⟨_, hsession', ?_⟩
  have hmoves : w.Moves id session cancelled expired actions stage _ := ⟨hsession, rfl, hnet⟩
  cases h with
  | announce hsilent hcount => exact .announces hmoves hsilent hcount
  | send hsilent hcount => exact .sends (hreach.after actions) hfabric hmoves hsilent hcount
  | awaitAck hposted passed hpassed hforeign hcount =>
    exact .polls hmoves hposted hpassed hforeign hcount (hreach.now_after actions)
  | wipe hposted hdecides hcount => exact .wipes hmoves hposted hdecides hcount
  | short | faulted | ended => contradiction

end World

end RemoteSlots
