import RemoteSlots.Proofs.Session.Advertisement
import RemoteSlots.Proofs.Session.Channel
import RemoteSlots.Proofs.Session.Scene

/-!
This module follows a session that listens from the call to its end. The session reads the events of its channel in
the order in which they came: the first has to request a connection, and the next one to report that it is
established. The first event that does not fit ends the call, and so does a connection that does not wait any more.
-/

namespace RemoteSlots

open Std

def Event.fault? (event : Event) (expected : EventKind) (name : String) : Option Failure :=
  if event.kind ≠ expected then some (.unexpectedEvent expected event.kind)
  else if event.status ≠ 0 then some (.transport (.faultyEvent event.kind name event.status))
  else none

theorem Event.fault?_eq_none_iff {event : Event} {expected : EventKind} {name : String} :
    event.fault? expected name = none ↔ event.kind = expected ∧ event.status = 0 := by
  unfold fault?
  split
  · next hkind => simp [hkind]
  · next hkind =>
    split
    · next hstatus => simp [hstatus]
    · next hstatus =>
      simp only [true_iff]
      exact ⟨Decidable.not_not.mp hkind, Decidable.not_not.mp hstatus⟩

theorem Event.fault?_of_kind_ne {event : Event} {expected : EventKind} (h : event.kind ≠ expected) (name : String) :
    event.fault? expected name = some (.unexpectedEvent expected event.kind) :=
  if_pos h

structure SessionConfig.IsTimed (config : SessionConfig) (limit now : Duration) : Prop where
  timeout : config.eventTimeout = some limit
  positive : 0 < limit.nanos
  clock : limit.isReachable now

inductive Heard (session : Session) (limit : Duration) (c : ChannelId) (port : UInt16) :
    List (Request × Bool) → (events left : List Event) → Except Failure Unit → Prop
  | inUse {events left : List Event} :
    Heard session limit c port [(.bind c port, false)] events left (.error (.addressInUse port))
  | silence : Heard session limit c port [(.bind c port, true)] [] []
    (.error (.timeout (.event .connectRequest session.name limit)))
  | noRequest {first : Event} {left : List Event} {failure : Failure}
    (hfirst : first.fault? .connectRequest session.name = some failure) :
    Heard session limit c port [(.bind c port, true)] (first :: left) left (.error failure)
  | turnedAway {first : Event} {left : List Event} {fault : TransportFailure}
    (hfirst : first.fault? .connectRequest session.name = none) :
    Heard session limit c port
      [(.bind c port, true), (.accept c first.connection session.config.queues, false)] (first :: left) left
      (.error (.transport fault))
  | notEstablished {first second : Event} {left : List Event} {failure : Failure}
    (hfirst : first.fault? .connectRequest session.name = none)
    (hsecond : second.fault? .established session.name = some failure) :
    Heard session limit c port
      [(.bind c port, true), (.accept c first.connection session.config.queues, true)] (first :: second :: left)
      left (.error failure)
  | established {first second : Event} {left : List Event}
    (hfirst : first.fault? .connectRequest session.name = none)
    (hsecond : second.fault? .established session.name = none) :
    Heard session limit c port
      [(.bind c port, true), (.accept c first.connection session.config.queues, true)] (first :: second :: left)
      left (.ok ())

namespace Stage

def watched? : Stage → Option ChannelId
  | awaitRequest binding | awaitEstablished binding _ => some binding.channel
  | _ => none

def made : Stage → Nat
  | openChannel _ => 0
  | bind _ => 1
  | listen _ | giveUp .. => 2
  | awaitRequest _ => 3
  | accept .. => 4
  | awaitEstablished .. => 5
  | _ => 6

end Stage

namespace World

def tried (id : SessionId) (w : World) : Action → List (Request × Bool)
  | .step (.session other) expired =>
    if other = id then
      ((w.sessions[id]?.bind fun session => (session.upcoming expired w.now).request?).bind fun request =>
        (w.net.grants? request).map (request, ·)).toList
    else []
  | _ => []

def watched? (w : World) (id : SessionId) : Option ChannelId := w.sessions[id]?.bind (·.stage.watched?)

def starved (id : SessionId) (w : World) (action : Action) : List Action :=
  match action with
  | .step (.session other) false =>
    if other = id ∧ (w.watched? id).any (fun c => (w.net.events c).isEmpty) then [action] else []
  | _ => []

def IsLate (w : World) (id : SessionId) (c : ChannelId) (actions : List Action) : Prop :=
  ∃ front rest, actions = front ++ .step (.session id) true :: rest ∧ (w.after front).watched? id = some c ∧
    (w.after front).net.events c ≠ []

def HasRead (w : World) (c : ChannelId) (actions : List Action) (events : List Event) : Prop :=
  w.observe (enqueued c) actions = events ++ (w.after actions).net.events c

inductive Listens (w : World) (id : SessionId) (session : Session) (limit : Duration) (port : UInt16)
    (actions : List Action) : Stage → Prop
  | openChannel (hfresh : ∀ c, (w.after actions).net.lastId < c → w.HasRead c actions [])
    (htried : w.observe (tried id) actions = []) :
    Listens w id session limit port actions (.openChannel port)
  | bind {c : ChannelId} {events : List Event} (hread : w.HasRead c actions [])
    (htried : w.observe (tried id) actions = [])
    (hchannel : (w.after actions).net.channels[c]? = some ⟨none, events⟩) :
    Listens w id session limit port actions (.bind ⟨c, port⟩)
  | giveUp {c : ChannelId} (htried : w.observe (tried id) actions = [(.bind c port, false)]) :
    Listens w id session limit port actions (.giveUp c (.addressInUse port))
  | listen {c : ChannelId} (hread : w.HasRead c actions [])
    (htried : w.observe (tried id) actions = [(.bind c port, true)]) :
    Listens w id session limit port actions (.listen ⟨c, port⟩)
  | awaitRequest {c : ChannelId} (hread : w.HasRead c actions [])
    (htried : w.observe (tried id) actions = [(.bind c port, true)]) :
    Listens w id session limit port actions (.awaitRequest ⟨c, port⟩)
  | accept {c : ChannelId} {first : Event} (hread : w.HasRead c actions [first])
    (htried : w.observe (tried id) actions = [(.bind c port, true)])
    (hfirst : first.fault? .connectRequest session.name = none) :
    Listens w id session limit port actions (.accept ⟨c, port⟩ first.connection)
  | awaitEstablished {c : ChannelId} {first : Event} {endpoint : Endpoint} (hread : w.HasRead c actions [first])
    (htried : w.observe (tried id) actions =
      [(.bind c port, true), (.accept c first.connection session.config.queues, true)])
    (hfirst : first.fault? .connectRequest session.name = none) (hsome : (w.after actions).net.events c ≠ []) :
    Listens w id session limit port actions (.awaitEstablished ⟨c, port⟩ endpoint)
  | late {c : ChannelId} {rest : List (Request × Bool)} {phase : Phase} {expected : EventKind}
    (htried : w.observe (tried id) actions = (.bind c port, true) :: rest) (hlate : w.IsLate id c actions) :
    Listens w id session limit port actions
      (.rest phase (.error (.failed (.timeout (.event expected session.name limit)))))
  | ended {c : ChannelId} {phase : Phase} {result : Except Failure Unit}
    (hheard : Heard session limit c port (w.observe (tried id) actions) (w.observe (enqueued c) actions)
      ((w.after actions).net.events c) result) :
    Listens w id session limit port actions (.rest phase (result.mapError .failed))

variable {w : World} {id : SessionId} {session : Session} {limit : Duration} {c : ChannelId} {port : UInt16}
  {actions : List Action} {action : Action} {taken : List Event}

theorem HasRead.put {new : List Event} (h : w.HasRead c actions taken)
    (hput : ((w.after actions).act action).net.events c = (w.after actions).net.events c ++ new) :
    w.HasRead c (actions ++ [action]) taken := by
  unfold HasRead at h ⊢
  rw [observe_concat, h, enqueued_eq (.put hput), after_concat, hput, List.append_assoc]

theorem HasRead.same (h : w.HasRead c actions taken)
    (hsame : ((w.after actions).act action).net.events c = (w.after actions).net.events c) :
    w.HasRead c (actions ++ [action]) taken :=
  h.put (hsame.trans (List.append_nil _).symm)

theorem HasRead.take {event : Event} (h : w.HasRead c actions taken)
    (htake : (w.after actions).net.events c = event :: ((w.after actions).act action).net.events c) :
    w.HasRead c (actions ++ [action]) (taken ++ [event]) := by
  have hnone : (w.after actions).enqueued c action = [] :=
    enqueued_eq (.taken (htake ▸ List.suffix_cons ..))
  unfold HasRead at h ⊢
  rw [observe_concat, h, hnone, after_concat, htake, List.append_nil, List.append_assoc]
  rfl

theorem HasRead.ends (h : w.HasRead c actions taken) {tries : List (Request × Bool)}
    (htried : w.observe (tried id) actions = tries) (phase : Phase) (result : Except Failure Unit)
    (hheard : Heard session limit c port tries (taken ++ (w.after actions).net.events c)
      ((w.after actions).net.events c) result) :
    w.Listens id session limit port actions (.rest phase (result.mapError .failed)) := by
  apply Listens.ended
  rw [htried, h]
  exact hheard

theorem tried_of_others (hstep : ∀ expired, action ≠ .step (.session id) expired) : w.tried id action = [] := by
  unfold tried
  split
  · next other expired =>
    rw [if_neg]
    rintro rfl
    exact hstep expired rfl
  · rfl

theorem tried_step (hsession : w.sessions[id]? = some session) (expired : Bool) :
    w.tried id (.step (.session id) expired) = ((session.upcoming expired w.now).request?.bind fun request =>
      (w.net.grants? request).map (request, ·)).toList := by
  simp only [tried, if_pos, hsession, Option.bind_some]

theorem Listens.others {cancelled : Bool} {stage : Stage} (h : w.Listens id session limit port actions stage)
    (hreach : (w.after actions).Reachable)
    (hsession : (w.after actions).sessions[id]? = some { session with cancelled, stage })
    (hfabric : session.fabric = .loopback) (hrunning : stage.result? = none)
    (hstep : ∀ expired, action ≠ .step (.session id) expired) :
    w.Listens id session limit port (actions ++ [action]) stage := by
  obtain ⟨hw, ht⟩ := hreach.sound
  have htried : w.observe (tried id) (actions ++ [action]) = w.observe (tried id) actions := by
    rw [observe_concat, tried_of_others hstep, List.append_nil]
  have hputs : ∀ {c : ChannelId}, .channel c ∈ stage.custody.handles → (w.after actions).OnlyPuts c action :=
    fun hheld => onlyPuts_others hw ht hsession hrunning hfabric hheld hstep
  cases h with
  -- The session has no channel yet. Nobody knows the one that it will get.
  | openChannel hfresh hnone =>
    refine .openChannel (fun c hc => ?_) (htried.trans hnone)
    rw [after_concat] at hc
    have hlt := Nat.lt_of_le_of_lt (act_evolves hw ht action).lastId_le hc
    refine (hfresh c hlt).same ?_
    rw [Loopback.events, Loopback.events, hw.net.not_mem_channels hlt,
      (act_sound hw ht action).1.net.not_mem_channels hc]
  | bind hread hnone hchannel =>
    have honly := hputs (List.mem_singleton_self _)
    obtain ⟨events, hchannel'⟩ := honly.channel hchannel
    rw [← after_concat] at hchannel'
    exact .bind (hread.put honly.events) (htried.trans hnone) hchannel'
  | giveUp hbind => exact .giveUp (htried.trans hbind)
  | listen hread hbind =>
    exact .listen (hread.put (hputs (List.mem_singleton_self _)).events) (htried.trans hbind)
  | awaitRequest hread hbind =>
    exact .awaitRequest (hread.put (hputs (List.mem_singleton_self _)).events) (htried.trans hbind)
  | accept hread hbind hfirst =>
    exact .accept (hread.put (hputs (List.mem_singleton_self _)).events) (htried.trans hbind) hfirst
  | awaitEstablished hread haccept hfirst hsome =>
    have honly := hputs (List.mem_cons_of_mem _ (List.mem_singleton_self _))
    refine .awaitEstablished (hread.put honly.events) (htried.trans haccept) hfirst ?_
    rw [after_concat, honly.events]
    exact List.append_ne_nil_of_left_ne_nil hsome _
  | late | ended => contradiction

theorem await_look {config : SessionConfig} {channel : Channel} (htimed : config.IsTimed limit w.now)
    (hchannel : w.net.channels[c]? = some channel)
    (name : String) (expired : Bool) (expected : EventKind) (waiting : Stage) (ended : Halt → Stage)
    (found : Event → Stage) :
    let out := w.perform .loopback
      (Stage.await name config { cancelled := false, expired, now := w.now } c expected waiting ended found)
    (expired = true ∧ out.1 = ended (.failed (.timeout (.event expected name limit))) ∧ out.2.2.net = w.net) ∨
      (expired = false ∧ w.net.events c = [] ∧ out.1 = waiting ∧ out.2.2.net.events c = w.net.events c) ∨
      ∃ event, w.net.events c = event :: out.2.2.net.events c ∧
        ((∃ failure, event.fault? expected name = some failure ∧ out.1 = ended (.failed failure)) ∨
          event.fault? expected name = none ∧ out.1 = found event) := by
  obtain ⟨hreply, hevents⟩ := Loopback.nextEvent_spec hchannel
  have hany : (some limit).any (!·.isReachable w.now) = false := by simp [htimed.clock]
  intro out
  have hout : out = w.perform .loopback
    (Stage.await name config { cancelled := false, expired, now := w.now } c expected waiting ended found) := rfl
  simp only [Stage.await, htimed.timeout, hany, Bool.false_eq_true, if_false, Stage.outOfTime,
    decide_eq_false (Nat.ne_of_gt htimed.positive), Bool.false_or] at hout
  cases expired with
  | true =>
    rw [hout]
    exact .inl ⟨rfl, rfl, rfl⟩
  | false =>
    have hnet : out.2.2.net = (w.net.nextEvent c).2 := by rw [hout]; rfl
    have hnext := congrArg (·.1) hout
    simp only [Bool.false_eq_true, if_false, perform, serve, Loopback.serve, hreply] at hnext
    rw [hnet, hevents]
    refine .inr ?_
    rcases hqueue : w.net.events c with _ | ⟨event, rest⟩
    · rw [hqueue] at hnext
      exact .inl ⟨rfl, rfl, hnext, rfl⟩
    · rw [hqueue] at hnext
      simp only [List.head?_cons] at hnext
      refine .inr ⟨event, rfl, ?_⟩
      unfold Event.fault?
      split at hnext
      · next hkind => exact .inl ⟨_, if_pos hkind, hnext⟩
      · next hkind =>
        rw [if_neg hkind]
        split at hnext
        · next hstatus => exact .inl ⟨_, if_pos hstatus, hnext⟩
        · next hstatus => exact .inr ⟨if_neg hstatus, hnext⟩

theorem grants?_of_await {config : SessionConfig} {signals : Signals} {name : String} {expected : EventKind}
    {waiting : Stage} {ended : Halt → Stage} {found : Event → Stage} (net : Loopback) :
    ((Stage.await name config signals c expected waiting ended found).request?.bind fun request =>
      (net.grants? request).map (request, ·)) = none := by
  rcases Stage.await_cases name config signals c expected waiting ended found with ⟨halt, heq⟩ | ⟨resume, heq, -⟩
  · rw [heq]
    rfl
  · rw [heq]
    rfl

section Moves

variable {expired : Bool} {stage stage' : Stage}

/--
What a session that listens comes to with a move: it gets further, unless its queue is empty.
-/
structure Progresses (w : World) (id : SessionId) (session : Session) (limit : Duration) (port : UInt16)
    (actions : List Action) (action : Action) (stage stage' : Stage) : Prop where
  course : w.Listens id session limit port (actions ++ [action]) stage'
  further : stage.made < stage'.made ∨ stage' = stage ∧ (w.after actions).starved id action = [action]

theorem Moves.observe_tried (h : w.Moves id session false expired actions stage stage') :
    w.observe (tried id) (actions ++ [.step (.session id) expired]) = w.observe (tried id) actions ++
      ((stage.next session.name session.config
        { cancelled := false, expired, now := (w.after actions).now }).request?.bind fun request =>
        ((w.after actions).net.grants? request).map (request, ·)).toList := by
  rw [observe_concat, tried_step h.stands]
  rfl

theorem Progresses.opens (hreach : (w.after actions).Reachable)
    (hmoves : w.Moves id session false expired actions (.openChannel port) stage')
    (hfresh : ∀ c, (w.after actions).net.lastId < c → w.HasRead c actions [])
    (hnone : w.observe (tried id) actions = []) :
    w.Progresses id session limit port actions (.step (.session id) expired) (.openChannel port) stage' := by
  have htried := hmoves.observe_tried
  rw [hnone] at htried
  obtain ⟨-, rfl, hnet⟩ := hmoves
  have hchannel : ((w.after actions).act (.step (.session id) expired)).net.channels[
      (w.after actions).net.lastId + 1]? = some ⟨none, []⟩ := by
    rw [hnet]
    exact Loopback.createChannel_fresh _
  have hbefore : (w.after actions).net.events ((w.after actions).net.lastId + 1) = [] := by
    rw [Loopback.events, hreach.sound.1.net.not_mem_channels (Nat.lt_succ_self _)]
  have hread := (hfresh _ (Nat.lt_succ_self _)).same ((Loopback.events_eq hchannel).trans hbefore.symm)
  rw [← after_concat] at hchannel
  exact ⟨.bind hread htried hchannel, .inl (Nat.lt_succ_self 0)⟩

theorem Progresses.binds (hmoves : w.Moves id session false expired actions (.bind ⟨c, port⟩) stage')
    (hread : w.HasRead c actions []) (hnone : w.observe (tried id) actions = []) {events : List Event}
    (hchannel : (w.after actions).net.channels[c]? = some ⟨none, events⟩) :
    w.Progresses id session limit port actions (.step (.session id) expired) (.bind ⟨c, port⟩) stage' := by
  have htried := hmoves.observe_tried
  rw [hnone] at htried
  obtain ⟨-, rfl, hnet⟩ := hmoves
  by_cases hheld : (w.after actions).net.listeners.contains port
  · simp only [Stage.next, perform, serve, Loopback.serve, Loopback.answer, Loopback.bind_held hchannel hheld]
    refine ⟨.giveUp (htried.trans ?_), .inl (by simp [Stage.made])⟩
    simp only [Stage.next, Move.request?, Option.bind_some, Loopback.grants?, hheld]
    rfl
  · have hfree : (w.after actions).net.listeners[port]? = none := by
      rwa [← Option.not_isSome_iff_eq_none, ← TreeMap.contains_eq_isSome_getElem?]
    obtain ⟨net, hbind, hchannel', -⟩ := Loopback.bind_free hchannel hfree
    simp only [Stage.next, perform, serve, Loopback.serve, Loopback.answer, hbind] at hnet ⊢
    have hsame := (Loopback.events_eq hchannel').trans (Loopback.events_eq hchannel).symm
    refine ⟨.listen (hread.same (hnet ▸ hsame)) (htried.trans ?_), .inl (by simp [Stage.made])⟩
    simp only [Stage.next, Move.request?, Option.bind_some, Loopback.grants?, hheld]
    rfl

theorem Progresses.listens (hreach : (w.after actions).Reachable) (hfabric : session.fabric = .loopback)
    (hmoves : w.Moves id session false expired actions (.listen ⟨c, port⟩) stage')
    (hread : w.HasRead c actions []) (hbind : w.observe (tried id) actions = [(.bind c port, true)]) :
    w.Progresses id session limit port actions (.step (.session id) expired) (.listen ⟨c, port⟩) stage' := by
  have htried := hmoves.observe_tried
  rw [hbind] at htried
  obtain ⟨hstands, rfl, hnet⟩ := hmoves
  obtain ⟨events, hchannel, hlistener⟩ := hreach.exists_channel hstands hfabric rfl
  obtain ⟨net, hlisten, hchannel', -⟩ := Loopback.listen_bound hchannel hlistener
  simp only [Stage.next, perform, serve, Loopback.serve, Loopback.answer, hlisten] at hnet ⊢
  have hsame := (Loopback.events_eq hchannel').trans (Loopback.events_eq hchannel).symm
  exact ⟨.awaitRequest (hread.same (hnet ▸ hsame)) htried, .inl (by simp [Stage.made])⟩

theorem Progresses.givesUp (hmoves : w.Moves id session false expired actions (.giveUp c (.addressInUse port)) stage')
    (hbind : w.observe (tried id) actions = [(.bind c port, false)]) :
    w.Progresses id session limit port actions (.step (.session id) expired) (.giveUp c (.addressInUse port))
      stage' := by
  have htried := hmoves.observe_tried
  rw [hbind] at htried
  obtain ⟨-, rfl, hnet⟩ := hmoves
  have hheard : Heard session limit c port (w.observe (tried id) (actions ++ [.step (.session id) expired]))
      (w.observe (enqueued c) (actions ++ [.step (.session id) expired]))
      ((w.after (actions ++ [.step (.session id) expired])).net.events c) (.error (.addressInUse port)) := by
    rw [htried]
    exact .inUse
  exact ⟨.ended hheard, .inl (by show 2 < 6; decide)⟩

theorem starved_step (hwatched : w.watched? id = some c) (hempty : w.net.events c = []) :
    w.starved id (.step (.session id) false) = [.step (.session id) false] := by
  simp only [starved, hwatched, Option.any_some, hempty, List.isEmpty_nil, and_self, if_true]

theorem isLate_concat (hwatched : (w.after actions).watched? id = some c)
    (hsome : (w.after actions).net.events c ≠ []) : w.IsLate id c (actions ++ [.step (.session id) true]) :=
  ⟨actions, [], rfl, hwatched, hsome⟩

theorem Progresses.looksForRequest (hreach : (w.after actions).Reachable) (hfabric : session.fabric = .loopback)
    (htimed : session.config.IsTimed limit (w.after actions).now)
    (hmoves : w.Moves id session false expired actions (.awaitRequest ⟨c, port⟩) stage')
    (hread : w.HasRead c actions []) (hbind : w.observe (tried id) actions = [(.bind c port, true)]) :
    w.Progresses id session limit port actions (.step (.session id) expired) (.awaitRequest ⟨c, port⟩) stage' := by
  have htried := hmoves.observe_tried
  rw [hbind, Stage.next, grants?_of_await] at htried
  obtain ⟨hstands, hstage, hnet⟩ := hmoves
  obtain ⟨events, hchannel, -⟩ := hreach.exists_channel hstands hfabric rfl
  have hwatched : (w.after actions).watched? id = some c := by
    rw [watched?, hstands]
    rfl
  have hlook := await_look htimed hchannel session.name expired .connectRequest
    (.awaitRequest ⟨c, port⟩) (fun halt => .rest (.listening ⟨c, port⟩) (.error halt))
    (fun event => .accept ⟨c, port⟩ event.connection)
  rw [Stage.next] at hstage hnet
  simp only [← hstage, ← hnet] at hlook
  -- A look that comes too late does not tell an empty queue from one with an event.
  rcases hlook with ⟨rfl, rfl, hsame⟩ | ⟨rfl, hempty, rfl, hsame⟩ |
    ⟨event, htake, ⟨failure, hfault, rfl⟩ | ⟨hfine, rfl⟩⟩
  · refine ⟨?_, .inl (by simp [Stage.made])⟩
    by_cases hempty : (w.after actions).net.events c = []
    · have hends := hread.same (congrArg (·.events c) hsame)
      refine hends.ends htried (.listening ⟨c, port⟩) (.error _) ?_
      rw [after_concat, hsame, hempty]
      exact .silence
    · exact .late htried (isLate_concat hwatched hempty)
  · exact ⟨.awaitRequest (hread.same hsame) htried, .inr ⟨rfl, starved_step hwatched hempty⟩⟩
  · exact ⟨(hread.take htake).ends htried (.listening ⟨c, port⟩) (.error failure) (.noRequest hfault),
      .inl (by simp [Stage.made])⟩
  · exact ⟨.accept (hread.take htake) htried hfine, .inl (by simp [Stage.made])⟩

theorem Progresses.accepts (hreach : (w.after actions).Reachable) (hfabric : session.fabric = .loopback) {first : Event}
    (hmoves : w.Moves id session false expired actions (.accept ⟨c, port⟩ first.connection) stage')
    (hread : w.HasRead c actions [first]) (hbind : w.observe (tried id) actions = [(.bind c port, true)])
    (hfirst : first.fault? .connectRequest session.name = none) :
    w.Progresses id session limit port actions (.step (.session id) expired) (.accept ⟨c, port⟩ first.connection)
      stage' := by
  have htried := hmoves.observe_tried
  rw [hbind] at htried
  obtain ⟨hstands, rfl, hnet⟩ := hmoves
  obtain ⟨events, hchannel, -⟩ := hreach.exists_channel hstands hfabric rfl
  simp only [Stage.next, Move.request?, Option.bind_some, Loopback.grants?, Option.map_some, Option.toList_some,
    List.singleton_append] at htried
  -- Accepting puts an event into the queue that the session waits on next, behind whatever came meanwhile.
  rcases hawaits : (w.after actions).net.awaits first.connection with _ | _
  · obtain ⟨fault, haccept, hevents⟩ := Loopback.accept_of_not_awaits hawaits c session.config.queues
    rw [hawaits] at htried
    simp only [Stage.next, perform, serve, Loopback.serve, haccept] at hnet ⊢
    have hends := hread.same (hnet ▸ hevents)
    exact ⟨hends.ends htried (.requested ⟨c, port⟩ none) (.error (.transport fault)) (.turnedAway hfirst),
      .inl (by simp [Stage.made])⟩
  · obtain ⟨endpoint, haccept, hevents⟩ := Loopback.accept_of_awaits hchannel hawaits session.config.queues
    rw [hawaits] at htried
    simp only [Stage.next, perform, serve, Loopback.serve, haccept] at hnet ⊢
    rw [← hnet] at hevents
    refine ⟨.awaitEstablished (hread.put hevents) htried hfirst ?_, .inl (by simp [Stage.made])⟩
    rw [after_concat, hevents]
    exact List.append_ne_nil_of_right_ne_nil _ (List.cons_ne_nil _ _)

theorem Progresses.looksForEstablished (hreach : (w.after actions).Reachable) (hfabric : session.fabric = .loopback)
    (htimed : session.config.IsTimed limit (w.after actions).now) {endpoint : Endpoint}
    (hmoves : w.Moves id session false expired actions (.awaitEstablished ⟨c, port⟩ endpoint) stage') {first : Event}
    (hread : w.HasRead c actions [first])
    (haccept : w.observe (tried id) actions =
      [(.bind c port, true), (.accept c first.connection session.config.queues, true)])
    (hfirst : first.fault? .connectRequest session.name = none) (hsome : (w.after actions).net.events c ≠ []) :
    w.Progresses id session limit port actions (.step (.session id) expired) (.awaitEstablished ⟨c, port⟩ endpoint)
      stage' := by
  have htried := hmoves.observe_tried
  rw [haccept, Stage.next, grants?_of_await] at htried
  obtain ⟨hstands, hstage, hnet⟩ := hmoves
  obtain ⟨events, hchannel, -⟩ := hreach.exists_channel hstands hfabric rfl
  have hwatched : (w.after actions).watched? id = some c := by
    rw [watched?, hstands]
    rfl
  have hlook := await_look htimed hchannel session.name expired .established
    (.awaitEstablished ⟨c, port⟩ endpoint) (fun halt => .rest (.requested ⟨c, port⟩ (some endpoint)) (.error halt))
    (fun _ => .rest (.accepted ⟨c, port⟩ endpoint) (.ok ()))
  rw [Stage.next] at hstage hnet
  simp only [← hstage, ← hnet] at hlook
  -- The queue is not empty: the event that tells that the connection is established is still there, if not read now.
  rcases hlook with ⟨rfl, rfl, -⟩ | ⟨-, hempty, -⟩ | ⟨second, htake, ⟨failure, hfault, rfl⟩ | ⟨hfine, rfl⟩⟩
  · exact ⟨.late htried (isLate_concat hwatched hsome), .inl (by simp [Stage.made])⟩
  · exact absurd hempty hsome
  · exact ⟨(hread.take htake).ends htried (.requested ⟨c, port⟩ (some endpoint)) (.error failure)
      (.notEstablished hfirst hfault), .inl (by simp [Stage.made])⟩
  · exact ⟨(hread.take htake).ends htried (.accepted ⟨c, port⟩ endpoint) (.ok ()) (.established hfirst hfine),
      .inl (by simp [Stage.made])⟩

end Moves

theorem Listens.move {stage : Stage} (h : w.Listens id session limit port actions stage)
    (hreach : (w.after actions).Reachable)
    (hsession : (w.after actions).sessions[id]? = some { session with cancelled := false, stage })
    (hfabric : session.fabric = .loopback) (htimed : session.config.IsTimed limit (w.after actions).now)
    (hrunning : stage.result? = none)
    (expired : Bool) :
    ∃ stage', ((w.after actions).act (.step (.session id) expired)).sessions[id]? =
        some { session with cancelled := false, stage := stage' } ∧
      w.Progresses id session limit port actions (.step (.session id) expired) stage stage' := by
  obtain ⟨hnet, hsession'⟩ := act_step_session hsession hfabric expired
  refine ⟨_, hsession', ?_⟩
  have hmoves : w.Moves id session false expired actions stage _ := ⟨hsession, rfl, hnet⟩
  cases h with
  | openChannel hfresh hnone => exact .opens hreach hmoves hfresh hnone
  | bind hread hnone hchannel => exact .binds hmoves hread hnone hchannel
  | giveUp hbind => exact .givesUp hmoves hbind
  | listen hread hbind => exact .listens hreach hfabric hmoves hread hbind
  | awaitRequest hread hbind => exact .looksForRequest hreach hfabric htimed hmoves hread hbind
  | accept hread hbind hfirst => exact .accepts hreach hfabric hmoves hread hbind hfirst
  | awaitEstablished hread haccept hfirst hsome =>
    exact .looksForEstablished hreach hfabric htimed hmoves hread haccept hfirst hsome
  | late | ended => contradiction

end World

end RemoteSlots
