import Mathlib.Data.List.Induction
import RemoteSlots.Proofs.Session.Custody
import RemoteSlots.Proofs.Session.Fields

/-!
This module shows how the fields of a transport session keep step with its state, whatever the fabric answers
and in whichever order the operations are called: an operation that passed its check misses no field.
-/

namespace RemoteSlots

structure Answers where
  reply : (request : Request) → Except Failure request.Reply
  map : PagePolicy → Nat → Except Halt Extent

namespace Move

def resolve (answers : Answers) : Move σ → σ
  | ask request resume => resume (answers.reply request)
  | map pages length resume => resume (answers.map pages length)
  | write _ _ _ next | clear _ next | pass next => next

def refusal? (answers : Answers) : Move σ → Option Failure
  | ask request _ =>
    match answers.reply request with
    | .ok _ => none
    | .error failure => some failure
  | _ => none

theorem resolve_embed (answers : Answers) (f : σ → τ) (move : Move σ) :
    (move.embed f).resolve answers = f (move.resolve answers) := by
  cases move <;> rfl

theorem refusal?_embed (answers : Answers) (f : σ → τ) (move : Move σ) :
    (move.embed f).refusal? answers = move.refusal? answers := by
  cases move <;> rfl

theorem leads_resolve (answers : Answers) (move : Move σ) :
    ∃ acquired, move.Leads acquired (move.resolve answers) := by
  cases move with
  | ask request resume => exact ⟨_, .ask request resume _⟩
  | map pages length resume =>
    simp only [resolve]
    rcases answers.map pages length with halt | extent
    · exact ⟨_, .unmapped pages length resume halt⟩
    · exact ⟨_, .mapped pages length resume extent⟩
  | write block start words next => exact ⟨_, .write block start words next⟩
  | clear block next => exact ⟨_, .clear block next⟩
  | pass next => exact ⟨_, .pass next⟩

end Move

def Failure.isInvalidState : Failure → Bool
  | invalidState .. => true
  | _ => false

inductive Turn where
  | call (operation : Operation)
  | move (expired : Bool) (now : Duration) (answers : Answers)
  | cancel (cancelled : Bool)
  | pollOnce
  | transportInfo

def Turn.isCall : Turn → Bool
  | call _ => true
  | _ => false

namespace Frame

variable (name : String) (config : SessionConfig)

def turn (frame : Frame) : Turn → Frame
  | .call operation =>
    match frame.point, frame.start operation with
    | .rest _, .ok started => started
    | _, _ => frame
  | .move expired now answers => (frame.next name config expired now).resolve answers
  | .cancel cancelled => { frame with fields := { frame.fields with cancelled } }
  | .pollOnce | .transportInfo => frame

def after (frame : Frame) (turns : List Turn) : Frame := turns.foldl (turn name config) frame

def refusals (frame : Frame) : List Turn → List Failure
  | [] => []
  | .move expired now answers :: turns =>
    ((frame.next name config expired now).refusal? answers).toList ++
      refusals (frame.turn name config (.move expired now answers)) turns
  | turn :: turns => refusals (frame.turn name config turn) turns

end Frame

namespace Session

def turn (session : Session) : Turn → Session
  | .call operation =>
    match session.stage.result?, operation.start session.phase with
    | some _, .ok stage => { session with stage }
    | _, _ => session
  | .move expired now answers =>
    let signals := { cancelled := session.cancelled, expired, now }
    { session with stage := (session.stage.next session.name session.config signals).resolve answers }
  | .cancel cancelled => { session with cancelled }
  | .pollOnce | .transportInfo => session

def after (session : Session) (turns : List Turn) : Session := turns.foldl turn session

def frame (session : Session) : Frame := session.stage.frame session.cancelled

variable {session : Session}

theorem frame_turn (session : Session) (turn : Turn) :
    (session.turn turn).frame = session.frame.turn session.name session.config turn := by
  cases turn with
  | call operation =>
    obtain ⟨name, config, fabric, cancelled, stage⟩ := session
    cases stage with
    | rest phase result =>
      have hstart := Operation.start_frame cancelled operation phase result
      simp only [Session.turn, Frame.turn, frame, Session.phase, Stage.phase, Stage.result?, hstart]
      rcases operation.start phase with failure | stage
      · rfl
      · rfl
    | _ => rfl
  | move expired now answers =>
    simp only [Session.turn, Frame.turn, frame, Stage.next_frame, Move.resolve_embed]
  | cancel | pollOnce | transportInfo => rfl

theorem turn_eq (session : Session) (turn : Turn) :
    (session.turn turn).name = session.name ∧ (session.turn turn).config = session.config ∧
      (session.turn turn).fabric = session.fabric := by
  cases turn with
  | call operation =>
    simp only [Session.turn]
    split <;> exact ⟨rfl, rfl, rfl⟩
  | _ => exact ⟨rfl, rfl, rfl⟩

theorem frame_after (session : Session) (turns : List Turn) :
    (session.after turns).frame = session.frame.after session.name session.config turns := by
  induction turns generalizing session with
  | nil => rfl
  | cons turn turns ih =>
    obtain ⟨hname, hconfig, -⟩ := session.turn_eq turn
    refine (ih (session.turn turn)).trans ?_
    rw [frame_turn, hname, hconfig]
    rfl

end Session

namespace Stage

variable {name : String} {config : SessionConfig} {signals : Signals} {stage stage' : Stage}
  {acquired : List Handle}

theorem state_le_of_leads (h : (stage.next name config signals).Leads acquired stage') :
    stage.phase.state ≤ stage'.phase.state := by
  cases stage with
  | awaitRequest binding =>
    simp only [next] at h
    obtain ⟨-, rfl | ⟨halt, rfl⟩ | ⟨event, rfl⟩⟩ := await_leads h
    · exact Nat.le_refl _
    · exact Nat.le_refl _
    · exact Nat.le_succ _
  | awaitEstablished binding endpoint =>
    simp only [next] at h
    obtain ⟨-, rfl | ⟨halt, rfl⟩ | ⟨event, rfl⟩⟩ := await_leads h
    · exact Nat.le_refl _
    · exact Nat.le_refl _
    · exact Nat.le_succ _
  | awaitAck binding endpoint region =>
    simp only [next] at h
    obtain ⟨-, rfl | rfl | ⟨result, rfl⟩⟩ := awaitCompletion_leads h <;> exact Nat.le_refl _
  | announce binding endpoint region =>
    simp only [next] at h
    split at h <;> cases h <;> exact Nat.le_refl _
  | wipe binding endpoint region result =>
    cases h
    rcases result with failure | ⟨⟩
    · exact Nat.le_refl _
    · exact Nat.le_succ _
  | giveUp channel failure =>
    cases h with
    | ask _ _ reply => exact Nat.le_refl _
  | rest phase result =>
    cases h
    exact Nat.le_refl _
  | openChannel | bind | accept | send =>
    cases h with
    | ask _ _ reply => rcases reply with _ | _ <;> exact Nat.le_refl _
  | listen | register | capture =>
    cases h with
    | ask _ _ reply =>
      rcases reply with _ | _
      · exact Nat.le_refl _
      · exact Nat.le_succ _

def isSetup : Stage → Bool
  | register .. | announce .. | send .. | awaitAck .. | wipe .. | capture .. => true
  | _ => false

theorem phase_of_leads (hsetup : stage.isSetup) (h : (stage.next name config signals).Leads acquired stage') :
    stage'.isSetup ∧ stage'.phase = stage.phase ∨ (∃ halt, stage' = rest stage.phase (.error halt)) ∨
      ∃ phase, stage' = rest phase (.ok ()) := by
  cases stage with
  | awaitAck binding endpoint region =>
    simp only [next] at h
    obtain ⟨-, rfl | rfl | ⟨result, rfl⟩⟩ := awaitCompletion_leads h
    · exact .inl ⟨rfl, rfl⟩
    · exact .inr (.inl ⟨_, rfl⟩)
    · exact .inl ⟨rfl, rfl⟩
  | announce binding endpoint region =>
    simp only [next] at h
    split at h
    · cases h
      exact .inr (.inl ⟨_, rfl⟩)
    · cases h
      exact .inl ⟨rfl, rfl⟩
  | wipe binding endpoint region result =>
    cases h
    rcases result with failure | ⟨⟩
    · exact .inr (.inl ⟨_, rfl⟩)
    · exact .inr (.inr ⟨_, rfl⟩)
  | send binding endpoint region =>
    cases h with
    | ask _ _ reply => rcases reply with _ | _ <;> exact .inl ⟨rfl, rfl⟩
  | register | capture =>
    cases h with
    | ask _ _ reply =>
      rcases reply with _ | _
      · exact .inr (.inl ⟨_, rfl⟩)
      · exact .inr (.inr ⟨_, rfl⟩)
  | _ => contradiction

def failure? : Stage → Option Failure
  | giveUp _ failure | wipe _ _ _ (.error failure) | rest _ (.error (.failed failure)) => some failure
  | _ => none

theorem failure?_of_point {cancelled : Bool} {failure : Failure}
    (h : (stage.frame cancelled).point = .rest (.error (.failed failure))) : stage.failure? = some failure := by
  cases stage with
  | rest phase result =>
    injection h with h
    rw [h]
    rfl
  | _ => injection h

theorem await_resolve (answers : Answers) (name : String) (config : SessionConfig) (signals : Signals)
    (channel : ChannelId) (kind : EventKind) (waiting : Stage) (ended : Halt → Stage) (found : Event → Stage) :
    let move := await name config signals channel kind waiting ended found
    move.resolve answers = waiting ∨ move.resolve answers = ended .faulted ∨
      (∃ event, move.resolve answers = found event) ∨
      ∃ failure, move.resolve answers = ended (.failed failure) ∧
        (failure.isInvalidState → move.refusal? answers = some failure) := by
  intro move
  have hmove : move = await name config signals channel kind waiting ended found := rfl
  unfold await at hmove
  split at hmove
  · rw [hmove]
    exact .inr (.inl rfl)
  · split at hmove
    · rw [hmove]
      exact .inr (.inr (.inr ⟨.cancelled, rfl, fun h => by contradiction⟩))
    · split at hmove
      · rw [hmove]
        exact .inr (.inr (.inr ⟨_, rfl, fun h => by contradiction⟩))
      · rw [hmove]
        simp only [Move.resolve, Move.refusal?]
        rcases answers.reply (.nextEvent channel) with failure | _ | event
        · exact .inr (.inr (.inr ⟨failure, rfl, fun _ => rfl⟩))
        · exact .inl rfl
        · dsimp only
          split
          · exact .inr (.inr (.inr ⟨_, rfl, fun h => by contradiction⟩))
          · split
            · exact .inr (.inr (.inr ⟨_, rfl, fun h => by contradiction⟩))
            · exact .inr (.inr (.inl ⟨event, rfl⟩))

theorem awaitCompletion_resolve (answers : Answers) (name : String) (config : SessionConfig)
    (signals : Signals) (endpoint : Endpoint) (request : UInt64) (waiting faulted : Stage)
    (ended : Except Failure Unit → Stage) :
    let move := awaitCompletion name config signals endpoint request waiting faulted ended
    move.resolve answers = waiting ∨ move.resolve answers = faulted ∨ move.resolve answers = ended (.ok ()) ∨
      ∃ failure, move.resolve answers = ended (.error failure) ∧
        (failure.isInvalidState → move.refusal? answers = some failure) := by
  intro move
  have hmove : move = awaitCompletion name config signals endpoint request waiting faulted ended := rfl
  unfold awaitCompletion at hmove
  split at hmove
  · rw [hmove]
    exact .inr (.inl rfl)
  · split at hmove
    · rw [hmove]
      exact .inr (.inr (.inr ⟨.cancelled, rfl, fun h => by contradiction⟩))
    · rw [hmove]
      simp only [Move.resolve, Move.refusal?]
      rcases answers.reply (.poll endpoint) with failure | completion?
      · exact .inr (.inr (.inr ⟨failure, rfl, fun _ => rfl⟩))
      · dsimp only
        split
        · split
          · exact .inr (.inr (.inl rfl))
          · exact .inr (.inr (.inr ⟨_, rfl, fun h => by contradiction⟩))
        · split
          · exact .inr (.inr (.inr ⟨_, rfl, fun h => by contradiction⟩))
          · exact .inl rfl

theorem failure?_resolve {answers : Answers} {failure : Failure} (hstate : failure.isInvalidState)
    (h : ((stage.next name config signals).resolve answers).failure? = some failure) :
    stage.failure? = some failure ∨ (stage.next name config signals).refusal? answers = some failure := by
  cases stage with
  | awaitRequest binding =>
    simp only [next] at h ⊢
    rcases await_resolve answers name config signals binding.channel .connectRequest (.awaitRequest binding)
      (fun halt => rest (.listening binding) (.error halt)) (fun event => .accept binding event.connection) with
      heq | heq | ⟨event, heq⟩ | ⟨own, heq, hown⟩ <;> rw [heq] at h
    · contradiction
    · contradiction
    · contradiction
    · injection h with h
      subst h
      exact .inr (hown hstate)
  | awaitEstablished binding endpoint =>
    simp only [next] at h ⊢
    rcases await_resolve answers name config signals binding.channel .established
      (.awaitEstablished binding endpoint) (fun halt => rest (.requested binding (some endpoint)) (.error halt))
      (fun _ => .rest (.accepted binding endpoint) (.ok ())) with
      heq | heq | ⟨event, heq⟩ | ⟨own, heq, hown⟩ <;> rw [heq] at h
    · contradiction
    · contradiction
    · contradiction
    · injection h with h
      subst h
      exact .inr (hown hstate)
  | awaitAck binding endpoint region =>
    simp only [next] at h ⊢
    rcases awaitCompletion_resolve answers name config signals endpoint advertiseRequest
      (.awaitAck binding endpoint region) (.rest (.registered binding endpoint region) (.error .faulted))
      (.wipe binding endpoint region) with heq | heq | heq | ⟨own, heq, hown⟩ <;> rw [heq] at h
    · contradiction
    · contradiction
    · contradiction
    · injection h with h
      subst h
      exact .inr (hown hstate)
  | announce binding endpoint region =>
    simp only [next] at h
    split at h
    · injection h with h
      rw [← h] at hstate
      contradiction
    · contradiction
  | giveUp | rest => exact .inl h
  | wipe binding endpoint region result =>
    rcases result with own | ⟨⟩
    · exact .inl h
    · contradiction
  | openChannel | bind | listen | accept | register | send | capture =>
    simp only [next, Move.resolve, Move.refusal?] at h ⊢
    split at h
    · contradiction
    · next heq =>
      injection h with h
      subst h
      rw [heq]
      exact .inr rfl

end Stage

theorem Operation.phase_of_start {operation : Operation} {phase : Phase} {stage : Stage}
    (h : operation.start phase = .ok stage) : stage.phase = phase ∧ stage.failure? = none ∧
      ((∀ port, operation ≠ listen port) → stage.isSetup) := by
  cases operation with
  | listen port =>
    cases phase with
    | unbound =>
      injection h with h
      subst h
      exact ⟨rfl, rfl, fun hport => absurd rfl (hport port)⟩
    | _ => contradiction
  | register extent =>
    cases phase with
    | accepted =>
      injection h with h
      subst h
      exact ⟨rfl, rfl, fun _ => rfl⟩
    | _ => contradiction
  | advertise =>
    cases phase with
    | registered =>
      injection h with h
      subst h
      exact ⟨rfl, rfl, fun _ => rfl⟩
    | _ => contradiction
  | capture =>
    cases phase with
    | advertised =>
      injection h with h
      subst h
      exact ⟨rfl, rfl, fun _ => rfl⟩
    | _ => contradiction

namespace Session

theorem state_le_turn (session : Session) (turn : Turn) :
    session.phase.state ≤ (session.turn turn).phase.state := by
  cases turn with
  | call operation =>
    simp only [Session.turn]
    split
    · next stage hresult hstart =>
      rw [← (Operation.phase_of_start hstart).1]
      exact Nat.le_refl _
    · exact Nat.le_refl _
  | move expired now answers =>
    obtain ⟨acquired, hleads⟩ := Move.leads_resolve answers
      (session.stage.next session.name session.config { cancelled := session.cancelled, expired, now })
    exact Stage.state_le_of_leads hleads
  | cancel | pollOnce | transportInfo => exact Nat.le_refl _

theorem state_le_after (session : Session) (turns : List Turn) :
    session.phase.state ≤ (session.after turns).phase.state := by
  induction turns generalizing session with
  | nil => exact Nat.le_refl _
  | cons turn turns ih => exact Nat.le_trans (session.state_le_turn turn) (ih (session.turn turn))

theorem after_eq (session : Session) (turns : List Turn) :
    (session.after turns).name = session.name ∧ (session.after turns).config = session.config := by
  induction turns generalizing session with
  | nil => exact ⟨rfl, rfl⟩
  | cons turn turns ih =>
    obtain ⟨hname, hconfig, -⟩ := session.turn_eq turn
    obtain ⟨hname', hconfig'⟩ := ih (session.turn turn)
    exact ⟨hname'.trans hname, hconfig'.trans hconfig⟩

theorem setup_after (session : Session) (hsetup : session.stage.isSetup) (turns : List Turn)
    (hcalls : ∀ turn ∈ turns, !turn.isCall) :
    (session.after turns).stage.isSetup ∧ (session.after turns).phase = session.phase ∨
      (∃ halt, (session.after turns).stage = .rest session.phase (.error halt)) ∨
      ∃ phase, (session.after turns).stage = .rest phase (.ok ()) := by
  induction turns using List.reverseRecOn with
  | nil => exact .inl ⟨hsetup, rfl⟩
  | append_singleton turns turn ih =>
    have hstep : session.after (turns ++ [turn]) = (session.after turns).turn turn := List.foldl_append
    rw [hstep]
    have ih := ih fun other hother => hcalls other (List.mem_append_left _ hother)
    have hcall := hcalls turn (List.mem_append_right _ (List.mem_singleton_self _))
    cases turn with
    | call operation => contradiction
    | move expired now answers =>
      simp only [Session.turn, phase] at ih ⊢
      rcases ih with ⟨hsetup, hphase⟩ | ⟨halt, hrest⟩ | ⟨phase, hrest⟩
      · obtain ⟨acquired, hleads⟩ := Move.leads_resolve answers ((session.after turns).stage.next
          (session.after turns).name (session.after turns).config ⟨(session.after turns).cancelled, expired, now⟩)
        rw [← hphase]
        exact Stage.phase_of_leads hsetup hleads
      · rw [hrest]
        exact .inr (.inl ⟨halt, rfl⟩)
      · rw [hrest]
        exact .inr (.inr ⟨phase, rfl⟩)
    | cancel | pollOnce | transportInfo => exact ih

theorem failure?_after (session : Session) {failure : Failure} (hstate : failure.isInvalidState)
    (turns : List Turn) (hcalls : ∀ turn ∈ turns, !turn.isCall)
    (h : (session.after turns).stage.failure? = some failure) :
    session.stage.failure? = some failure ∨
      failure ∈ session.frame.refusals session.name session.config turns := by
  induction turns generalizing session with
  | nil => exact .inl h
  | cons turn turns ih =>
    have hcall := hcalls turn (List.mem_cons_self ..)
    have ih := ih (session.turn turn)
      (fun other hother => hcalls other (List.mem_cons_of_mem _ hother)) h
    obtain ⟨hname, hconfig, -⟩ := session.turn_eq turn
    rw [frame_turn, hname, hconfig] at ih
    cases turn with
    | call operation => contradiction
    | move expired now answers =>
      rcases ih with hmoved | hmem
      · rcases Stage.failure?_resolve hstate hmoved with hbefore | hrefused
        · exact .inl hbefore
        · refine .inr (List.mem_append_left _ ?_)
          simp only [frame, Stage.next_frame, Move.refusal?_embed, hrefused, Option.toList_some,
            List.mem_singleton]
      · exact .inr (List.mem_append_right _ hmem)
    | cancel | pollOnce | transportInfo => exact ih

theorem start_eq_ok {session : Session} {operation : Operation} {result : Except Halt Unit} {started : Frame}
    (hrest : session.frame.point = .rest result) (hstart : session.frame.start operation = .ok started) :
    ∃ stage, operation.start session.phase = .ok stage ∧ started = stage.frame session.cancelled := by
  obtain ⟨name, config, fabric, cancelled, stage⟩ := session
  cases stage with
  | rest phase result' =>
    simp only [frame, Operation.start_frame] at hstart
    rcases hphase : operation.start phase with failure | stage
    · rw [hphase] at hstart
      contradiction
    · rw [hphase] at hstart
      injection hstart with hstart
      exact ⟨stage, hphase, hstart.symm⟩
  | _ => contradiction

end Session

structure Fields.Consistent (fields : Fields) : Prop where
  channel : fields.channel.isSome ↔ .listening ≤ fields.state
  port : fields.port.isSome ↔ .listening ≤ fields.state
  endpoint : fields.endpoint.isSome → .connectRequestReceived ≤ fields.state
  connected : .accepted ≤ fields.state → fields.endpoint.isSome
  region : fields.region.isSome ↔ .regionRegistered ≤ fields.state
  buffer : fields.buffer.isSome ↔ .regionRegistered ≤ fields.state
  baseline : fields.baseline.isSome ↔ fields.state = .ready

theorem Phase.consistent_fields (cancelled : Bool) (phase : Phase) : (phase.fields cancelled).Consistent := by
  cases phase <;> constructor <;>
    simp [fields, state, binding?, endpoint?, region?, baseline?, SessionState.le_iff_rank, SessionState.rank]

theorem Phase.pollOnce_cases (cancelled : Bool) (phase : Phase) :
    let fields := phase.fields cancelled
    fields.state < .accepted ∧ fields.pollOnce = .pass (.error (fields.missing .accepted)) ∨
      .accepted ≤ fields.state ∧ ∃ endpoint, fields.endpoint = some endpoint ∧
        fields.pollOnce = .ask (.poll endpoint) fun reply => reply.map Poll.ofCompletion? := by
  cases phase with
  | unbound | listening | requested => exact .inl ⟨Nat.lt_of_succ_le (Nat.le_of_ble_eq_true rfl), rfl⟩
  | accepted _ endpoint | registered _ endpoint | advertised _ endpoint | ready _ endpoint =>
    exact .inr ⟨Nat.le_of_ble_eq_true rfl, endpoint, rfl, rfl⟩

theorem Phase.transportInfo_cases (cancelled : Bool) (phase : Phase) :
    let fields := phase.fields cancelled
    fields.state ≠ .ready ∧ fields.transportInfo = .pass (.error (fields.missing .ready)) ∨
      fields.state = .ready ∧ ∃ endpoint region baseline, fields.endpoint = some endpoint ∧
        fields.region = some region ∧ fields.baseline = some baseline ∧
        fields.transportInfo = .ask (.receivePsn endpoint) fun reply => reply.map fun psn =>
          { queuePair := endpoint.queuePair, keys := region.keys, receivePsn := .ofWord psn, baseline } := by
  cases phase with
  | ready binding endpoint region baseline =>
    exact .inr ⟨rfl, endpoint, region, baseline, rfl, rfl, rfl, rfl⟩
  | _ => exact .inl ⟨fun heq => by contradiction, rfl⟩

/--
What is known of a session after any turns.
-/
structure Frame.Lifecycle (name : String) (config : SessionConfig) (frame : Frame) : Prop where
  -- The fields keep step with the state.
  consistent : frame.fields.Consistent
  -- The session never goes back to an earlier state.
  grows : ∀ later, frame.fields.state ≤ (frame.after name config later).fields.state
  -- An operation that is called in another state than its own is refused, and nothing changes.
  refused : ∀ operation, frame.fields.state ≠ operation.needs →
    frame.start operation =
        .error (.invalidState operation.needs.name frame.fields.state.name) ∧
      frame.turn name config (.call operation) = frame
  -- Any operation but the first leaves all fields as they were when it fails.
  kept : ∀ operation result started later halt, (∀ port, operation ≠ .listen port) →
    frame.point = .rest result → frame.start operation = .ok started → (∀ turn ∈ later, !turn.isCall) →
    (started.after name config later).point = .rest (.error halt) →
    (started.after name config later).fields =
      { frame.fields with cancelled := (started.after name config later).fields.cancelled }
  -- An operation that passed its check is not told of a wrong state by anybody but the fabric.
  supplied : ∀ operation result started later failure,
    frame.point = .rest result → frame.start operation = .ok started → (∀ turn ∈ later, !turn.isCall) →
    (started.after name config later).point = .rest (.error (.failed failure)) → failure.isInvalidState →
    failure ∈ started.refusals name config later
  -- Looking at the completion queue is refused, or asks the fabric.
  polls :
    frame.fields.state < .accepted ∧ frame.fields.pollOnce = .pass (.error (frame.fields.missing .accepted)) ∨
    .accepted ≤ frame.fields.state ∧ ∃ endpoint, frame.fields.endpoint = some endpoint ∧
      frame.fields.pollOnce = .ask (.poll endpoint) fun reply => reply.map Poll.ofCompletion?
  -- Looking at the transport is refused, or asks the fabric, with region and baseline at hand.
  inspects :
    frame.fields.state ≠ .ready ∧ frame.fields.transportInfo = .pass (.error (frame.fields.missing .ready)) ∨
    frame.fields.state = .ready ∧ ∃ endpoint region baseline, frame.fields.endpoint = some endpoint ∧
      frame.fields.region = some region ∧ frame.fields.baseline = some baseline ∧
      frame.fields.transportInfo = .ask (.receivePsn endpoint) fun reply => reply.map fun psn =>
        { queuePair := endpoint.queuePair, keys := region.keys, receivePsn := .ofWord psn, baseline }

namespace Session

variable (session : Session)

theorem point_of_isSetup {stage : Stage} (cancelled : Bool) (h : stage.isSetup) (result : Except Halt Unit) :
    (stage.frame cancelled).point ≠ .rest result := by
  cases stage with
  | register | announce | send | awaitAck | wipe | capture => exact fun heq => by injection heq
  | _ => contradiction

theorem kept {operation : Operation} {result : Except Halt Unit} {started : Frame} {later : List Turn}
    {halt : Halt} (hlisten : ∀ port, operation ≠ .listen port) (hrest : session.frame.point = .rest result)
    (hstart : session.frame.start operation = .ok started) (hcalls : ∀ turn ∈ later, !turn.isCall)
    (hfailed : (started.after session.name session.config later).point = .rest (.error halt)) :
    (started.after session.name session.config later).fields =
      { session.frame.fields with
        cancelled := (started.after session.name session.config later).fields.cancelled } := by
  obtain ⟨stage, hstage, rfl⟩ := start_eq_ok hrest hstart
  obtain ⟨hphase, -, hsetup⟩ := Operation.phase_of_start hstage
  have hafter : Frame.after session.name session.config (stage.frame session.cancelled) later =
      (Session.after { session with stage } later).frame := (frame_after { session with stage } later).symm
  rw [hafter] at hfailed ⊢
  rcases setup_after { session with stage } (hsetup hlisten) later hcalls with
    ⟨hsetup', -⟩ | ⟨halt', hrest'⟩ | ⟨phase', hrest'⟩
  · exact absurd hfailed (point_of_isSetup _ hsetup' _)
  · have hphase' : (Session.after { session with stage } later).phase = session.phase := by
      simp only [phase] at hrest' hphase ⊢
      rw [hrest']
      exact hphase
    have hfields : ∀ other : Session, other.frame.fields = other.phase.fields other.cancelled := fun _ => rfl
    rw [hfields, hfields, hphase']
    rfl
  · simp only [frame, hrest', Stage.frame, Stage.point] at hfailed
    injection hfailed with hfailed
    contradiction

theorem supplied {operation : Operation} {result : Except Halt Unit} {started : Frame} {later : List Turn}
    {failure : Failure} (hrest : session.frame.point = .rest result)
    (hstart : session.frame.start operation = .ok started) (hcalls : ∀ turn ∈ later, !turn.isCall)
    (hfailed : (started.after session.name session.config later).point = .rest (.error (.failed failure)))
    (hstate : failure.isInvalidState) : failure ∈ started.refusals session.name session.config later := by
  obtain ⟨stage, hstage, rfl⟩ := start_eq_ok hrest hstart
  obtain ⟨-, hnone, -⟩ := Operation.phase_of_start hstage
  have hafter : Frame.after session.name session.config (stage.frame session.cancelled) later =
      (Session.after { session with stage } later).frame := (frame_after { session with stage } later).symm
  rw [hafter] at hfailed
  have hfailure : (Session.after { session with stage } later).stage.failure? = some failure :=
    Stage.failure?_of_point hfailed
  rcases failure?_after _ hstate later hcalls hfailure with hbefore | hmem
  · exact absurd (hnone.symm.trans hbefore) (by simp)
  · exact hmem

end Session

theorem Frame.lifecycle (name : String) (config : SessionConfig) (turns : List Turn) :
    (fresh.after name config turns).Lifecycle name config ∧
      ∀ fabric, ((Session.new name config fabric).after turns).frame = fresh.after name config turns := by
  have hruns : ∀ fabric, ((Session.new name config fabric).after turns).frame = fresh.after name config turns :=
    fun fabric => Session.frame_after _ turns
  refine ⟨?_, hruns⟩
  obtain ⟨hname, hconfig⟩ := (Session.new name config .loopback).after_eq turns
  rw [← hruns .loopback]
  generalize (Session.new name config .loopback).after turns = session at hname hconfig
  obtain rfl : session.name = name := hname
  obtain rfl : session.config = config := hconfig
  constructor
  case consistent => exact Phase.consistent_fields ..
  case grows =>
    intro later
    rw [← Session.frame_after]
    exact session.state_le_after later
  case refused =>
    intro operation hstate
    have hstart : session.frame.start operation = .error (session.frame.fields.missing operation.needs) :=
      if_pos hstate
    refine ⟨hstart, ?_⟩
    simp only [turn, hstart]
    split
    · contradiction
    · rfl
  case kept =>
    intro operation result started later halt hlisten hrest hstart hcalls hfailed
    exact session.kept hlisten hrest hstart hcalls hfailed
  case supplied =>
    intro operation result started later failure hrest hstart hcalls hfailed hstate
    exact session.supplied hrest hstart hcalls hfailed hstate
  case polls => exact Phase.pollOnce_cases ..
  case inspects => exact Phase.transportInfo_cases ..

theorem Session.looked_at (w : World) (name : String) (config : SessionConfig) (fabric : FabricId)
    (turns : List Turn) :
    let phase := ((new name config fabric).after turns).phase
    let fields := (Frame.fresh.after name config turns).fields
    w.pollOnce fabric phase =
        ((w.perform fabric fields.pollOnce).1, (w.perform fabric fields.pollOnce).2.2) ∧
      w.transportInfo fabric phase =
        ((w.perform fabric fields.transportInfo).1, (w.perform fabric fields.transportInfo).2.2) := by
  intro phase fields
  have hframe : ((new name config fabric).after turns).frame = Frame.fresh.after name config turns :=
    frame_after _ turns
  have hfields : fields = phase.fields ((new name config fabric).after turns).cancelled :=
    (congrArg Frame.fields hframe).symm
  rw [hfields]
  exact ⟨w.pollOnce_fields fabric _ phase, w.transportInfo_fields fabric _ phase⟩

end RemoteSlots
