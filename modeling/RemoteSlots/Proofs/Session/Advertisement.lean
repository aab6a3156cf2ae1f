import RemoteSlots.Proofs.Session.Acknowledgement

/-!
This module shows how an advertisement ends: with the first completion of its number, whoever it is from. It ends
as its own message did if the queue had room for the completion of the message and held no other of that number
before. A refused write of the peer that has the number, or the completion of an earlier attempt, decides instead.
-/

namespace RemoteSlots

open Std

namespace World

variable {w : World} {id : SessionId} {session : Session} {binding : Binding} {endpoint : Endpoint}
  {region : Region} {k : ConnectionId} {actions : List Action} {action : Action}

def IsBusy (w : World) (id : SessionId) : List Action → Prop
  | [] => True
  | action :: actions => w.result? (.session id) = none ∧ (w.act action).IsBusy id actions

theorem IsBusy.of_concat (h : w.IsBusy id (actions ++ [action])) :
    w.IsBusy id actions ∧ (w.after actions).result? (.session id) = none := by
  induction actions generalizing w with
  | nil => exact ⟨True.intro, h.1⟩
  | cons first actions ih =>
    obtain ⟨hbusy, hresult⟩ := ih h.2
    exact ⟨⟨h.1, hbusy⟩, hresult⟩

theorem holds_of_isBusy {P : List Action → Stage → Prop} (k : ConnectionId) (h : w.Reachable) {start : Stage}
    (hsession : w.sessions[id]? = some { session with stage := start }) (hfabric : session.fabric = .loopback)
    (hstart : P [] start)
    (hheld : ∀ actions stage, P actions stage → stage.result? = none → .endpoint k ∈ stage.custody.handles)
    (hmove : ∀ actions cancelled stage expired, P actions stage → stage.result? = none →
      (w.after actions).sessions[id]? = some { session with cancelled, stage } →
        ∃ stage', ((w.after actions).act (.step (.session id) expired)).sessions[id]? =
            some { session with cancelled, stage := stage' } ∧ P (actions ++ [.step (.session id) expired]) stage')
    (hothers : ∀ actions action stage, P actions stage → stage.result? = none →
      (∀ expired, action ≠ .step (.session id) expired) → (w.after actions).IsQuiet k action →
        P (actions ++ [action]) stage)
    (actions : List Action) (hbusy : w.IsBusy id actions) :
    ∃ cancelled stage, (w.after actions).sessions[id]? = some { session with cancelled, stage } ∧ P actions stage := by
  induction actions using List.reverseRecOn with
  | nil => exact ⟨session.cancelled, start, hsession, hstart⟩
  | append_singleton actions action ih =>
    obtain ⟨hbusy, hresult⟩ := hbusy.of_concat
    obtain ⟨cancelled, stage, hstands, hholds⟩ := ih hbusy
    have hreach := h.after actions
    obtain ⟨hw, ht⟩ := hreach.sound
    have hrunning : stage.result? = none := by
      simp only [result?, hstands] at hresult
      exact hresult
    rw [after_concat]
    by_cases hstep : ∃ expired, action = .step (.session id) expired
    · obtain ⟨expired, rfl⟩ := hstep
      obtain ⟨stage', hstands', hholds'⟩ := hmove actions cancelled stage expired hholds hrunning hstands
      exact ⟨cancelled, stage', hstands', hholds'⟩
    · have hstep : ∀ expired, action ≠ .step (.session id) expired := fun expired heq => hstep ⟨expired, heq⟩
      obtain ⟨cancelled', hstands'⟩ := running_act hw (hreach.sessions_le hstands) hstands hrunning hstep
      have hcustody : (w.after actions).custody? (.session id) = some (.loopback, stage.custody) := by
        simp only [custody?, hstands, Option.map_some, hfabric]
      have hholding := mem_holdings_of_custody hcustody (hheld actions stage hholds hrunning)
      exact ⟨cancelled', stage, hstands', hothers actions action stage hholds hrunning hstep
        (isQuiet_others hw ht hstands hrunning hholding hstep)⟩

theorem Advertises.mem_custody {stage : Stage}
    (h : w.Advertises id session binding endpoint region actions stage) (hrunning : stage.result? = none) :
    .endpoint endpoint.handle ∈ stage.custody.handles := by
  cases h with
  | announce | send | awaitAck | wipe => exact mem_handles_of_endpoint rfl
  | short | faulted | ended => contradiction

theorem advertises_after (h : w.Reachable)
    (hsession : w.sessions[id]? = some { session with stage := .announce binding endpoint region })
    (hfabric : session.fabric = .loopback) (actions : List Action) (hbusy : w.IsBusy id actions) :
    ∃ cancelled stage, (w.after actions).sessions[id]? = some { session with cancelled, stage } ∧
      w.Advertises id session binding endpoint region actions stage := by
  refine holds_of_isBusy endpoint.handle h hsession hfabric (.announce (.nil ..) rfl) ?_ ?_ ?_ actions hbusy
  · exact fun actions stage had hrunning => had.mem_custody hrunning
  · exact fun actions cancelled stage expired had hrunning hstands =>
      had.move h hstands hfabric hrunning expired
  · exact fun actions action stage had hrunning hstep hquiet => had.others hrunning hstep hquiet

def IsInterrupted (w : World) (id : SessionId) (session : Session) (actions : List Action) : Prop :=
  session.config.ackTimeout.isReachable w.now = false ∨ ∃ failure, w.Interruption id session actions failure

structure Acknowledged (w : World) (id : SessionId) (session : Session) (k : ConnectionId) (stage : Stage)
    (actions front : List Action) (expired : Bool) (rest : List Action) (own : Completion)
    (message? : Option (List UInt8)) : Prop where
  posted : w.HasPosted id k stage actions front expired rest own message?
  -- If the queue had room, the session needs four moves, and one more for each completion that was there.
  ends : (w.after front).net.isFull k = false → actions.countP (·.isStepOf id) ≤
    ((w.after front).net.completions k).length + 4
  -- The first completion decides that passes for the one of the message.
  decided : ∀ result, (w.after actions).result? (.session id) = some result →
    session.config.ackTimeout.isReachable w.now = false ∧ result = .error .faulted ∨
      ∃ outcome, w.Decides id session k actions outcome ∧ result = outcome.mapError .failed
  -- If the queue had room and held no other of that number, this is the one of the message.
  faithful : (w.after front).net.isFull k = false →
    (∀ completion ∈ (w.after front).net.completions k, completion.isAck = false) →
    ∀ result, (w.after actions).result? (.session id) = some result →
      (¬w.IsInterrupted id session actions → (result = .ok () ↔ message?.isSome)) ∧
        ∀ status request, result = .error (.failed (.completion status request)) →
          status = own.status ∧ request = own.request

/--
What is known of an advertisement after some actions.
-/
inductive Advertisement (w : World) (id : SessionId) (session : Session) (binding : Binding)
    (endpoint : Endpoint) (region : Region) (actions : List Action) : Prop
  | unsent (hsilent : w.Silent endpoint.handle actions) (hmoves : actions.countP (·.isStepOf id) ≤ 1)
    (hresult : ∀ result, (w.after actions).result? (.session id) = some result →
      region.length < Metadata.wireLength ∧
        result = .error (.failed (.config (.regionTooSmall region.length Metadata.wireLength))))
  | sent {front rest : List Action} {expired : Bool} {own : Completion} {message? : Option (List UInt8)}
    (h : w.Acknowledged id session endpoint.handle (.send binding endpoint region) actions front expired rest
      own message?)

theorem HasPosted.seen_eq {stage : Stage} {front rest : List Action} {expired : Bool} {own : Completion}
    {message? : Option (List UInt8)} (h : w.HasPosted id k stage actions front expired rest own message?)
    (hroom : (w.after front).net.isFull k = false) :
    ∃ later, w.seen k actions = (w.after front).net.completions k ++ own :: later := by
  have hqueued := h.queued
  rw [hroom, if_neg Bool.false_ne_true] at hqueued
  refine ⟨(w.after (front ++ [.step (.session id) expired])).observe (World.queued k) rest, ?_⟩
  rw [h.run, seen, observe_append, observe, hqueued, after_concat, h.silent.completions, seen, List.append_assoc]
  rfl

theorem findIdx_le_length {before later : List Completion} {completion : Completion} (hack : completion.isAck) :
    (before ++ completion :: later).findIdx Completion.isAck ≤ before.length := by
  rw [List.findIdx_append]
  split
  · exact List.findIdx_le_length
  · rw [List.findIdx_cons, hack]
    exact Nat.le_of_eq (Nat.zero_add _)

theorem HasPosted.acknowledged {stage : Stage} {front rest : List Action} {expired : Bool} {own : Completion}
    {message? : Option (List UInt8)} (h : w.HasPosted id k stage actions front expired rest own message?)
    (hends : (w.after front).net.isFull k = false → actions.countP (·.isStepOf id) ≤
      (w.seen k actions).findIdx Completion.isAck + 4)
    (hdecided : ∀ result, (w.after actions).result? (.session id) = some result →
      session.config.ackTimeout.isReachable w.now = false ∧ result = .error .faulted ∨
        ∃ outcome, w.Decides id session k actions outcome ∧ result = outcome.mapError .failed) :
    w.Acknowledged id session k stage actions front expired rest own message? := by
  refine ⟨h, fun hroom => ?_, hdecided, fun hroom hforeign result hresult => ?_⟩
  · obtain ⟨later, hseen⟩ := h.seen_eq hroom
    refine Nat.le_trans (hends hroom) (Nat.add_le_add_right ?_ 4)
    rw [hseen]
    exact findIdx_le_length h.isAck
  obtain ⟨later, hseen⟩ := h.seen_eq hroom
  have hown : (w.seen k actions).find? Completion.isAck = some own := by
    rw [hseen]
    exact find?_of_passed hforeign h.isAck
  rcases hdecided result hresult with ⟨hclock, rfl⟩ | ⟨outcome, hdecides, rfl⟩
  · exact ⟨fun hnot => absurd (.inl hclock) hnot, fun status request heq => by injection heq; contradiction⟩
  · rcases hdecides with ⟨completion, hfind, rfl⟩ | ⟨failure, hinterruption, rfl⟩
    · rw [hown] at hfind
      injection hfind with hfind
      subst hfind
      rw [← h.delivered]
      by_cases hsuccess : own.status = .success
      · simp [Completion.verdict, hsuccess, Except.mapError]
      · simp [Completion.verdict, hsuccess, Except.mapError, eq_comm]
    · refine ⟨fun hnot => absurd (.inr ⟨failure, hinterruption⟩) hnot, fun status request heq => ?_⟩
      injection heq with heq
      injection heq with heq
      subst heq
      cases hinterruption

theorem act_startSession_of_start {operation : Operation} {stage : Stage} (hsession : w.sessions[id]? = some session)
    (hresult : session.stage.result?.isSome) (hblock : operation.block? = none)
    (hstart : operation.start session.phase = .ok stage) :
    w.act (.startSession id operation) = { w with sessions := w.sessions.insert id { session with stage } } := by
  have hrest : w.isAtRest (.session id) = true := by simpa only [isAtRest, result?, hsession] using hresult
  simp only [act, hrest, hblock, startSession, hsession, hstart]
  rfl

theorem act_startSession_advertise {earlier : Except Halt Unit} (hsession : w.sessions[id]? = some session)
    (hstage : session.stage = .rest (.registered binding endpoint region) earlier) :
    w.act (.startSession id .advertise) = { w with
      sessions := w.sessions.insert id { session with stage := .announce binding endpoint region } } := by
  refine act_startSession_of_start hsession (by rw [hstage]; rfl) rfl ?_
  rw [Session.phase, hstage]
  rfl

theorem advertisement_decided (h : w.Reachable) (hsession : w.sessions[id]? = some session)
    (hfabric : session.fabric = .loopback) {earlier : Except Halt Unit}
    (hstage : session.stage = .rest (.registered binding endpoint region) earlier) {actions : List Action}
    (hbusy : (w.act (.startSession id .advertise)).IsBusy id actions) :
    (w.act (.startSession id .advertise)).net = w.net ∧
      (w.act (.startSession id .advertise)).Advertisement id session binding endpoint region actions := by
  have hact := act_startSession_advertise hsession hstage
  have hstarted : (w.act (.startSession id .advertise)).sessions[id]? =
      some { session with stage := .announce binding endpoint region } := by
    rw [hact]
    exact TreeMap.getElem?_insert_self
  refine ⟨by rw [hact], ?_⟩
  obtain ⟨cancelled, stage, hstands, had⟩ :=
    advertises_after (h.act (.startSession id .advertise)) hstarted hfabric actions hbusy
  have hresult : ∀ result, ((w.act (.startSession id .advertise)).after actions).result? (.session id) =
      some result → stage.result? = some result := by
    intro result hresult
    simp only [result?, hstands] at hresult
    exact hresult
  cases had with
  | announce hsilent hmoves =>
    exact .unsent hsilent (hmoves ▸ Nat.zero_le 1) fun result heq => by have := hresult result heq; contradiction
  | send hsilent hmoves =>
    exact .unsent hsilent (Nat.le_of_eq hmoves) fun result heq => by have := hresult result heq; contradiction
  | short hsilent hmoves hshort =>
    refine .unsent hsilent (Nat.le_of_eq hmoves) fun result heq => ?_
    have heq := hresult result heq
    injection heq with heq
    exact ⟨hshort, heq.symm⟩
  | awaitAck hposted passed hpassed hforeign hmoves =>
    refine .sent (hposted.acknowledged (fun hroom => ?_) fun result heq => ?_)
    · rw [(hmoves hroom).2, hpassed]
      exact Nat.le_trans (Nat.add_le_add_right (length_le_findIdx _ hforeign) 2)
        (Nat.add_le_add_left (by decide) _)
    · have := hresult result heq
      contradiction
  | wipe hposted hdecides hmoves =>
    refine .sent (hposted.acknowledged (fun hroom => Nat.le_succ_of_le (hmoves hroom)) fun result heq => ?_)
    have := hresult result heq
    contradiction
  | faulted hposted hclock hmoves =>
    refine .sent (hposted.acknowledged hmoves fun result heq => ?_)
    have heq := hresult result heq
    injection heq with heq
    exact .inl ⟨hclock, heq.symm⟩
  | ended hposted hdecides hmoves =>
    refine .sent (hposted.acknowledged hmoves fun result heq => ?_)
    have heq := hresult result heq
    injection heq with heq
    exact .inr ⟨_, hdecides, heq.symm⟩

def sampleSession : Session :=
  { name := "session"
    config := {}
    fabric := .loopback
    cancelled := false
    stage := .rest (.registered ⟨1, 7000⟩ ⟨2, 3⟩ ⟨⟨0, 4096, 64⟩, ⟨4, 4⟩⟩) (.ok ()) }

def sampleSteps (n : Nat) : List Action := List.replicate n (.step (.session 1) false)

def sampleRegistered : World :=
  (initial (.above 4096 4096) .zero).after
    ([.createSession "session" {} .loopback, .startSession 1 (.listen 7000)] ++ sampleSteps 3 ++
      [.connect 7000] ++ sampleSteps 3 ++
      [.allocate .standard 64, .startSession 1 (.register ⟨0, 4096, 64⟩)] ++ sampleSteps 1)

theorem reachable_sampleRegistered : sampleRegistered.Reachable := ⟨.above 4096 4096, .zero, _, rfl⟩

set_option maxRecDepth 10000 in
theorem advertisement_decided_refusal :
    let w := sampleRegistered.act (.write 2 9 0 0 [7])
    w.Reachable ∧ w.sessions[1]? = some sampleSession ∧ sampleSession.fabric = .loopback ∧
      sampleSession.stage = .rest (.registered ⟨1, 7000⟩ ⟨2, 3⟩ ⟨⟨0, 4096, 64⟩, ⟨4, 4⟩⟩) (.ok ()) ∧
      (w.act (.startSession 1 .advertise)).IsBusy 1 (sampleSteps 5) ∧
      (w.act (.startSession 1 .advertise)).net = w.net ∧
      (w.act (.startSession 1 .advertise)).Advertisement 1 sampleSession ⟨1, 7000⟩ ⟨2, 3⟩
        ⟨⟨0, 4096, 64⟩, ⟨4, 4⟩⟩ (sampleSteps 5) := by
  intro w
  have hreach : w.Reachable := reachable_sampleRegistered.act _
  have hsession : w.sessions[1]? = some sampleSession := by rfl
  have hbusy : ((sampleRegistered.act (.write 2 9 0 0 [7])).act (.startSession 1 .advertise)).IsBusy 1
      (sampleSteps 5) :=
    ⟨rfl, rfl, rfl, rfl, rfl, True.intro⟩
  exact ⟨hreach, hsession, rfl, rfl, hbusy, advertisement_decided hreach hsession rfl rfl hbusy⟩

set_option maxRecDepth 10000 in
theorem advertisement_ends_with_refusal :
    let w := sampleRegistered.act (.write 2 advertiseRequest 0 0 [7])
    let started := w.act (.startSession 1 .advertise)
    w.Reachable ∧ w.sessions[1]? = some sampleSession ∧ started.IsBusy 1 (sampleSteps 4) ∧
      started.observe (told 2) (sampleSteps 4) = [Metadata.encode ⟨4096, 64, 4⟩] ∧
      (started.after (sampleSteps 4)).result? (.session 1) =
        some (.error (.failed (.completion .remoteAccessError advertiseRequest))) := by
  intro w started
  have hsession : w.sessions[1]? = some sampleSession := by rfl
  have hbusy : ((sampleRegistered.act (.write 2 1 0 0 [7])).act (.startSession 1 .advertise)).IsBusy 1
      (sampleSteps 4) :=
    ⟨rfl, rfl, rfl, rfl, True.intro⟩
  have htold : ((sampleRegistered.act (.write 2 1 0 0 [7])).act (.startSession 1 .advertise)).observe (told 2)
      (sampleSteps 4) = [Metadata.encode ⟨4096, 64, 4⟩] := by
    decide +kernel
  have hresult : (((sampleRegistered.act (.write 2 1 0 0 [7])).act (.startSession 1 .advertise)).after
      (sampleSteps 4)).result? (.session 1) =
      some (.error (.failed (.completion .remoteAccessError advertiseRequest))) := by
    rfl
  exact ⟨reachable_sampleRegistered.act _, hsession, hbusy, htold, hresult⟩

set_option maxRecDepth 10000 in
example :
    let cancelled := sampleRegistered.after ([.cancelSession 1 true, .startSession 1 .advertise] ++ sampleSteps 4)
    let started := cancelled.after [.cancelSession 1 false, .hangUp 2, .startSession 1 .advertise]
    started.observe (told 2) (sampleSteps 4) = [] ∧
      (started.after (sampleSteps 4)).result? (.session 1) = some (.ok ()) :=
  ⟨rfl, rfl⟩

end World

end RemoteSlots
