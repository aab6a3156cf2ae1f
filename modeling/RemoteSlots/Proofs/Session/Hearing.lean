import RemoteSlots.Proofs.Session.Listening

/-!
This module shows how a call to listen ends. It succeeds exactly if its port is free, the first event of its queue
requests a connection that still waits, and the next event reports that a connection is established. Otherwise it
fails with the first event that does not fit. Nothing is skipped: a second request that comes before the first
connection is established makes the call fail.
-/

namespace RemoteSlots

open Std

theorem Stage.made_le (stage : Stage) : stage.made ≤ 6 := by
  unfold made
  split <;> decide

namespace Heard

variable {session : Session} {limit : Duration} {c : ChannelId} {port : UInt16} {tries : List (Request × Bool)}
  {events left : List Event} {outcome : Except Failure Unit}

theorem eq_ok_iff (h : Heard session limit c port tries events left outcome) :
    outcome = .ok () ↔ ∃ first second left,
      tries = [(.bind c port, true), (.accept c first.connection session.config.queues, true)] ∧
      events = first :: second :: left ∧ first.kind = .connectRequest ∧ first.status = 0 ∧
      second.kind = .established ∧ second.status = 0 := by
  constructor
  · rintro rfl
    cases h with
    | @established first second left hfirst hsecond =>
      obtain ⟨hkind, hstatus⟩ := Event.fault?_eq_none_iff.mp hfirst
      obtain ⟨hkind', hstatus'⟩ := Event.fault?_eq_none_iff.mp hsecond
      exact ⟨first, second, left, rfl, rfl, hkind, hstatus, hkind', hstatus'⟩
  · rintro ⟨first, second, rest, htries, hevents, -, -, hkind, hstatus⟩
    cases h with
    | established => rfl
    | notEstablished hfirst hsecond =>
      obtain ⟨-, rfl, -⟩ : _ ∧ _ ∧ _ := by simpa using hevents
      rw [Event.fault?_eq_none_iff.mpr ⟨hkind, hstatus⟩] at hsecond
      contradiction
    | inUse | silence | noRequest | turnedAway => simp at htries

theorem exists_of_ok (h : Heard session limit c port tries events left (.ok ())) :
    ∃ first second, events = first :: second :: left := by
  cases h with
  | established => exact ⟨_, _, rfl⟩

theorem eq_error_of_kind_ne (h : Heard session limit c port tries events left outcome) {first second : Event}
    {rest : List Event}
    (htries : tries = [(.bind c port, true), (.accept c first.connection session.config.queues, true)])
    (hevents : events = first :: second :: rest) (hkind : second.kind ≠ .established) :
    outcome = .error (.unexpectedEvent .established second.kind) := by
  subst hevents
  cases h with
  | notEstablished hfirst hsecond =>
    rw [Event.fault?_of_kind_ne hkind] at hsecond
    injection hsecond with hsecond
    rw [hsecond]
  | established hfirst hsecond => exact absurd (Event.fault?_eq_none_iff.mp hsecond).1 hkind
  | inUse | noRequest | turnedAway => simp at htries

end Heard

namespace World

variable {w : World} {id : SessionId} {session : Session} {limit : Duration} {c : ChannelId} {port : UInt16}
  {actions : List Action} {action : Action}

structure Attends (w : World) (id : SessionId) (session : Session) (limit : Duration) (port : UInt16)
    (actions : List Action) (stage : Stage) : Prop where
  stands : (w.after actions).sessions[id]? = some { session with cancelled := false, stage }
  course : w.Listens id session limit port actions stage
  moves : actions.countP (·.isStepOf id) ≤ (w.observe (starved id) actions).length + stage.made

theorem Progresses.moves {stage stage' : Stage} {expired : Bool}
    (h : w.Progresses id session limit port actions (.step (.session id) expired) stage stage')
    (hmoves : actions.countP (·.isStepOf id) ≤ (w.observe (starved id) actions).length + stage.made) :
    (actions ++ [Action.step (.session id) expired]).countP (·.isStepOf id) ≤
      (w.observe (starved id) (actions ++ [.step (.session id) expired])).length + stage'.made := by
  rw [countP_concat_of_step, observe_concat, List.length_append]
  rcases h.further with hlt | ⟨rfl, hstarved⟩
  · omega
  · rw [hstarved, List.length_singleton]
    omega

theorem starved_of_others (hstep : ∀ expired, action ≠ .step (.session id) expired) : w.starved id action = [] := by
  unfold starved
  split
  · next other =>
    rw [if_neg]
    rintro ⟨rfl, -⟩
    exact hstep false rfl
  · rfl

theorem attends_after (h : w.Reachable)
    (hsession : w.sessions[id]? = some { session with cancelled := false, stage := .openChannel port })
    (hfabric : session.fabric = .loopback) (htimed : session.config.IsTimed limit w.now) (actions : List Action)
    (hclear : .cancelSession id true ∉ actions) (hbusy : w.IsBusy id actions) :
    ∃ stage, w.Attends id session limit port actions stage := by
  -- The last action comes on top of a run for which all of this holds already.
  induction actions using List.reverseRecOn with
  | nil =>
    refine ⟨_, hsession, .openChannel (fun c hc => ?_) rfl, Nat.le_refl _⟩
    have hnone : w.net.channels[c]? = none := h.sound.1.net.not_mem_channels hc
    rw [HasRead, after, List.foldl_nil, Loopback.events, hnone]
    rfl
  | append_singleton actions action ih =>
    obtain ⟨hbusy, hresult⟩ := hbusy.of_concat
    obtain ⟨stage, hattends⟩ := ih (fun hmem => hclear (List.mem_append_left _ hmem)) hbusy
    have hreach := h.after actions
    obtain ⟨hw, ht⟩ := hreach.sound
    have hrunning : stage.result? = none := by
      simp only [result?, hattends.stands] at hresult
      exact hresult
    by_cases hstep : ∃ expired, action = .step (.session id) expired
    · obtain ⟨expired, rfl⟩ := hstep
      obtain ⟨stage', hsession', hprogress⟩ :=
        hattends.course.move hreach hattends.stands hfabric (h.now_after actions ▸ htimed) hrunning expired
      rw [← after_concat] at hsession'
      exact ⟨stage', hsession', hprogress.course, hprogress.moves hattends.moves⟩
    · have hstep : ∀ expired, action ≠ .step (.session id) expired := fun expired heq => hstep ⟨expired, heq⟩
      refine ⟨stage, ?_, hattends.course.others hreach hattends.stands hfabric hrunning hstep, ?_⟩
      · rw [after_concat]
        rcases running_act_cases hw (hreach.sessions_le hattends.stands) hattends.stands hrunning hstep with
          hsame | ⟨cancelled, rfl, hcancelled⟩
        · exact hsame
        -- Nobody cancels the session, but somebody may clear its token once more.
        · cases cancelled with
          | false => exact hcancelled
          | true => exact absurd (List.mem_append_right _ (List.mem_singleton_self _)) hclear
      · rw [countP_concat_of_others hstep, observe_concat, starved_of_others hstep, List.append_nil]
        exact hattends.moves

/--
What is known after some actions of a session that listens, if nobody cancels it.
-/
structure Listening (w : World) (id : SessionId) (session : Session) (limit : Duration) (c : ChannelId)
    (port : UInt16) (actions : List Action) : Prop where
  -- All moves but six are looks at an empty queue.
  moves : actions.countP (·.isStepOf id) ≤ (w.observe (starved id) actions).length + 6
  -- The events of the queue decide in their order, unless the time limit has passed when the session looks at them.
  decided : ∀ result, (w.after actions).result? (.session id) = some result →
    (∃ outcome, Heard session limit c port (w.observe (tried id) actions) (w.observe (enqueued c) actions)
        ((w.after actions).net.events c) outcome ∧ result = outcome.mapError .failed) ∨
      w.IsLate id c actions ∧ (∃ tries, w.observe (tried id) actions = (.bind c port, true) :: tries) ∧
        ∃ expected, result = .error (.failed (.timeout (.event expected session.name limit)))
  -- The call succeeds exactly if the port is free, the first event requests a connection that still waits, and the
  -- next event reports that a connection is established.
  succeeds : ¬w.IsLate id c actions → ∀ result, (w.after actions).result? (.session id) = some result →
    (result = .ok () ↔ ∃ first second left,
      w.observe (tried id) actions =
        [(.bind c port, true), (.accept c first.connection session.config.queues, true)] ∧
      w.observe (enqueued c) actions = first :: second :: left ∧ first.kind = .connectRequest ∧ first.status = 0 ∧
      second.kind = .established ∧ second.status = 0)
  -- A call that succeeds has taken just two events.
  consumed : (w.after actions).result? (.session id) = some (.ok ()) →
    ∃ first second, w.observe (enqueued c) actions = first :: second :: (w.after actions).net.events c
  -- A second request, or any other event that comes first, keeps the connection from being established.
  overtaken : ¬w.IsLate id c actions → ∀ first second left,
    w.observe (tried id) actions = [(.bind c port, true), (.accept c first.connection session.config.queues, true)] →
    w.observe (enqueued c) actions = first :: second :: left → second.kind ≠ .established →
    ∀ result, (w.after actions).result? (.session id) = some result →
      result = .error (.failed (.unexpectedEvent .established second.kind))

theorem Attends.running {stage : Stage} (h : w.Attends id session limit port actions stage)
    (hrunning : stage.result? = none) (c : ChannelId) : w.Listening id session limit c port actions := by
  have hnone : ∀ result, (w.after actions).result? (.session id) ≠ some result := by
    intro result
    simp only [result?, h.stands, hrunning]
    exact fun hnone => by contradiction
  constructor
  · exact Nat.le_trans h.moves (Nat.add_le_add_left stage.made_le _)
  · exact fun result hresult => absurd hresult (hnone result)
  · exact fun _ result hresult => absurd hresult (hnone result)
  · exact fun hresult => absurd hresult (hnone _)
  · exact fun _ _ _ _ _ _ _ result hresult => absurd hresult (hnone result)

theorem Attends.late {tries : List (Request × Bool)} {phase : Phase} {expected : EventKind}
    (h : w.Attends id session limit port actions
      (.rest phase (.error (.failed (.timeout (.event expected session.name limit))))))
    (htried : w.observe (tried id) actions = (.bind c port, true) :: tries) (hlate : w.IsLate id c actions) :
    w.Listening id session limit c port actions := by
  have hended : (w.after actions).result? (.session id) =
      some (.error (.failed (.timeout (.event expected session.name limit)))) := by
    simp only [result?, h.stands, Stage.result?]
  refine ⟨Nat.le_trans h.moves (Nat.add_le_add_left (Stage.made_le _) _), fun result hresult => ?_,
    fun hnot => absurd hlate hnot, fun hresult => ?_, fun hnot => absurd hlate hnot⟩
  · rw [hended] at hresult
    injection hresult with hresult
    exact .inr ⟨hlate, ⟨tries, htried⟩, expected, hresult.symm⟩
  · rw [hended] at hresult
    injection hresult with hresult
    contradiction

theorem Attends.ended {phase : Phase} {outcome : Except Failure Unit}
    (h : w.Attends id session limit port actions (.rest phase (outcome.mapError .failed)))
    (hheard : Heard session limit c port (w.observe (tried id) actions) (w.observe (enqueued c) actions)
      ((w.after actions).net.events c) outcome) : w.Listening id session limit c port actions := by
  have hended : ∀ result, (w.after actions).result? (.session id) = some result →
      result = outcome.mapError .failed := by
    intro result hresult
    simp only [result?, h.stands, Stage.result?, Option.some.injEq] at hresult
    exact hresult.symm
  have hok : outcome.mapError Halt.failed = .ok () ↔ outcome = .ok () := by
    rcases outcome with failure | ⟨⟩
    · simp [Except.mapError]
    · exact ⟨fun _ => rfl, fun _ => rfl⟩
  refine ⟨Nat.le_trans h.moves (Nat.add_le_add_left (Stage.made_le _) _), fun result hresult => ?_,
    fun _ result hresult => ?_, fun hresult => ?_, fun _ first second left htries hevents hkind result hresult => ?_⟩
  · exact .inl ⟨outcome, hheard, hended result hresult⟩
  · rw [hended result hresult, hok]
    exact hheard.eq_ok_iff
  · have hsucceeds := hok.mp (hended _ hresult).symm
    subst hsucceeds
    exact hheard.exists_of_ok
  · rw [hended result hresult, hheard.eq_error_of_kind_ne htries hevents hkind]
    rfl

theorem listening_follows_queue (h : w.Reachable) (hsession : w.sessions[id]? = some session)
    (hfabric : session.fabric = .loopback) {earlier : Except Halt Unit}
    (hstage : session.stage = .rest .unbound earlier) (hcancelled : session.cancelled = false)
    (hlimit : session.config.eventTimeout = some limit) (hpositive : 0 < limit.nanos) (hclock : limit.isReachable w.now)
    (port : UInt16) {actions : List Action} (hclear : .cancelSession id true ∉ actions)
    (hbusy : (w.act (.startSession id (.listen port))).IsBusy id actions) :
    ∃ c, (w.act (.startSession id (.listen port))).Listening id session limit c port actions := by
  have hact : w.act (.startSession id (.listen port)) = { w with
      sessions := w.sessions.insert id { session with stage := .openChannel port } } := by
    refine act_startSession_of_start hsession (by rw [hstage]; rfl) rfl ?_
    rw [Session.phase, hstage]
    rfl
  have hstarted : (w.act (.startSession id (.listen port))).sessions[id]? =
      some { session with cancelled := false, stage := .openChannel port } := by
    rw [hact, ← hcancelled]
    exact TreeMap.getElem?_insert_self
  obtain ⟨stage, hattends⟩ := attends_after (h.act (.startSession id (.listen port))) hstarted hfabric
    ⟨hlimit, hpositive, by rwa [hact]⟩ actions hclear hbusy
  -- The channel is the one of the stage. Before it is opened any other will do, since nothing is said of it.
  cases hattends.course with
  | late htried hlate => exact ⟨_, hattends.late htried hlate⟩
  | ended hheard => exact ⟨_, hattends.ended hheard⟩
  | openChannel => exact ⟨0, hattends.running rfl 0⟩
  | @bind c | @listen c | @giveUp c | @awaitRequest c | @accept c | @awaitEstablished c =>
    exact ⟨c, hattends.running rfl c⟩

def sampleListener (limit : Duration) : Session :=
  .new "session" { eventTimeout := some limit } .loopback

def sampleUnbound (limit : Duration) : World :=
  (initial (.above 4096 4096) .zero).act (.createSession "session" { eventTimeout := some limit } .loopback)

theorem reachable_sampleUnbound (limit : Duration) : (sampleUnbound limit).Reachable :=
  ⟨.above 4096 4096, .zero, [.createSession "session" { eventTimeout := some limit } .loopback], rfl⟩

def sampleRush : List Action := sampleSteps 3 ++ [.connect 7000, .connect 7000] ++ sampleSteps 3

set_option maxRecDepth 10000 in
theorem listening_follows_queue_overtaken :
    let limit := Duration.ofSeconds 30
    let w := sampleUnbound limit
    let started := w.act (.startSession 1 (.listen 7000))
    w.Reachable ∧ w.sessions[1]? = some (sampleListener limit) ∧ (sampleListener limit).fabric = .loopback ∧
      (sampleListener limit).stage = .rest .unbound (.ok ()) ∧ (sampleListener limit).cancelled = false ∧
      (sampleListener limit).config.eventTimeout = some limit ∧ 0 < limit.nanos ∧ limit.isReachable w.now ∧
      .cancelSession 1 true ∉ sampleRush ∧ started.IsBusy 1 sampleRush ∧
      (∃ c, started.Listening 1 (sampleListener limit) limit c 7000 sampleRush) ∧
      started.observe (enqueued 1) sampleRush =
        [⟨.connectRequest, 2, 0⟩, ⟨.connectRequest, 4, 0⟩, ⟨.established, 2, 0⟩] ∧
      (started.after sampleRush).result? (.session 1) =
        some (.error (.failed (.unexpectedEvent .established .connectRequest))) := by
  intro limit w started
  have hreach : w.Reachable := reachable_sampleUnbound limit
  have hsession : w.sessions[1]? = some (sampleListener limit) := by rfl
  have hclear : .cancelSession 1 true ∉ sampleRush := by simp [sampleRush, sampleSteps]
  have hbusy : started.IsBusy 1 sampleRush :=
    ⟨by decide +kernel, by decide +kernel, by decide +kernel, by decide +kernel, by decide +kernel,
      by decide +kernel, by decide +kernel, by decide +kernel, True.intro⟩
  have hevents : started.observe (enqueued 1) sampleRush =
      [⟨.connectRequest, 2, 0⟩, ⟨.connectRequest, 4, 0⟩, ⟨.established, 2, 0⟩] := by
    decide +kernel
  have hresult : (started.after sampleRush).result? (.session 1) =
      some (.error (.failed (.unexpectedEvent .established .connectRequest))) := by
    decide +kernel
  exact ⟨hreach, hsession, rfl, rfl, rfl, rfl, by decide, by decide, hclear, hbusy,
    listening_follows_queue hreach hsession rfl rfl rfl rfl (by decide) (by decide) 7000 hclear hbusy, hevents,
    hresult⟩

set_option maxRecDepth 10000 in
theorem listening_breaks_off :
    let limit := Duration.ofSeconds 18446744073709551615
    let w := sampleUnbound limit
    let started := w.act (.startSession 1 (.listen 7000))
    let actions := sampleSteps 3 ++ [.inject 7000 .rejected 0] ++ sampleSteps 1
    w.Reachable ∧ w.sessions[1]? = some (sampleListener limit) ∧ 0 < limit.nanos ∧
      .cancelSession 1 true ∉ actions ∧ started.IsBusy 1 actions ∧
      started.observe (tried 1) actions = [(.bind 1 7000, true)] ∧
      started.observe (enqueued 1) actions = [⟨.rejected, 0, 0⟩] ∧
      (started.after actions).result? (.session 1) = some (.error .faulted) ∧
      ∀ c, ¬started.Listening 1 (sampleListener limit) limit c 7000 actions := by
  intro limit w started actions
  have hresult : (started.after actions).result? (.session 1) = some (.error .faulted) := by decide +kernel
  have hbusy : started.IsBusy 1 actions :=
    ⟨by decide +kernel, by decide +kernel, by decide +kernel, by decide +kernel, by decide +kernel, True.intro⟩
  refine ⟨reachable_sampleUnbound limit, rfl, by decide +kernel, by simp [actions, sampleSteps], hbusy,
    by decide +kernel, by decide +kernel, hresult, fun c h => ?_⟩
  rcases h.decided _ hresult with ⟨outcome, -, heq⟩ | ⟨-, -, expected, heq⟩
  · rcases outcome with failure | ⟨⟩ <;> simp [Except.mapError] at heq
  · simp at heq

end World

end RemoteSlots
