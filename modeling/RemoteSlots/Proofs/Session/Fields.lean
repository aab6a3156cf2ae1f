import RemoteSlots.Proofs.World.Action
import RemoteSlots.World.Sessions

/-!
This module describes a transport session field by field: a state next to optional fields, where nothing but
the checks in the operations keeps the fields in step with the state, and where an operation that misses a
field fails. It shows that this is how a session runs: every move is the one that `Stage.next` makes.
-/

namespace RemoteSlots

structure Fields where
  state : SessionState
  channel : Option ChannelId
  port : Option UInt16
  endpoint : Option Endpoint
  region : Option Region
  buffer : Option Extent
  baseline : Option Psn
  cancelled : Bool
  deriving DecidableEq, Repr

inductive Point where
  | openChannel (port : UInt16)
  | bind (channel : ChannelId) (port : UInt16)
  | listen (channel : ChannelId) (port : UInt16)
  | giveUp (channel : ChannelId) (failure : Failure)
  | awaitRequest
  | accept (connection : ConnectionId)
  | awaitEstablished
  | register (buffer : Extent)
  | announce
  | send (buffer : Extent) (region : Region)
  | awaitAck (buffer : Extent) (region : Region)
  | wipe (buffer : Extent) (region : Region) (result : Except Failure Unit)
  | capture
  | rest (result : Except Halt Unit)

structure Frame where
  fields : Fields
  point : Point

namespace Operation

def needs : Operation → SessionState
  | listen _ => .unbound
  | register _ => .accepted
  | advertise => .regionRegistered
  | capture => .metadataAdvertised

def entry : Operation → Point
  | listen port => .openChannel port
  | register extent => .register extent
  | advertise => .announce
  | capture => .capture

end Operation

namespace Fields

def fresh : Fields :=
  { state := .unbound
    channel := none
    port := none
    endpoint := none
    region := none
    buffer := none
    baseline := none
    cancelled := false }

def missing (fields : Fields) (expected : SessionState) : Failure :=
  .invalidState expected.name fields.state.name

def pollOnce (fields : Fields) : Move (Except Failure Poll) :=
  if fields.state < .accepted then
    .pass (.error (fields.missing .accepted))
  else
    match fields.endpoint with
    | none => .pass (.error (fields.missing .accepted))
    | some endpoint => .ask (.poll endpoint) fun reply => reply.map Poll.ofCompletion?

def transportInfo (fields : Fields) : Move (Except Failure TransportInfo) :=
  if fields.state ≠ .ready then
    .pass (.error (fields.missing .ready))
  else
    match fields.endpoint, fields.region with
    | none, _ => .pass (.error (fields.missing .accepted))
    | some _, none => .pass (.error (.invalidState "Ready" "no region"))
    | some endpoint, some region =>
      .ask (.receivePsn endpoint) fun reply =>
        reply.map fun psn =>
          { queuePair := endpoint.queuePair
            keys := region.keys
            receivePsn := .ofWord psn
            baseline := fields.baseline.getD (.ofWord psn) }

end Fields

namespace Frame

def fresh : Frame := { fields := .fresh, point := .rest (.ok ()) }

def goto (frame : Frame) (point : Point) : Frame := { frame with point }

def stop (frame : Frame) (halt : Halt) : Frame := frame.goto (.rest (.error halt))

def fail (frame : Frame) (failure : Failure) : Frame := frame.stop (.failed failure)

def start (frame : Frame) (operation : Operation) : Except Failure Frame :=
  if frame.fields.state ≠ operation.needs then .error (frame.fields.missing operation.needs)
  else .ok (frame.goto operation.entry)

def await (name : String) (config : SessionConfig) (expired : Bool) (now : Duration) (frame : Frame)
    (expected : EventKind) (found : Event → Frame) : Move Frame :=
  if config.eventTimeout.any (!·.isReachable now) then
    .pass (frame.stop .faulted)
  else if frame.fields.cancelled then
    .pass (frame.fail .cancelled)
  else
    match Stage.outOfTime config.eventTimeout { cancelled := frame.fields.cancelled, expired, now } with
    | some limit => .pass (frame.fail (.timeout (.event expected name limit)))
    | none =>
      match frame.fields.channel with
      | none => .pass (frame.fail (frame.fields.missing .listening))
      | some channel =>
        .ask (.nextEvent channel) fun
          | .error failure => frame.fail failure
          | .ok none => frame
          | .ok (some event) =>
            if event.kind ≠ expected then
              frame.fail (.unexpectedEvent expected event.kind)
            else if event.status ≠ 0 then
              frame.fail (.transport (.faultyEvent event.kind name event.status))
            else
              found event

def awaitCompletion (name : String) (config : SessionConfig) (expired : Bool) (now : Duration)
    (frame : Frame) (request : UInt64) (ended : Except Failure Unit → Frame) : Move Frame :=
  if !config.ackTimeout.isReachable now then
    .pass (frame.stop .faulted)
  else if frame.fields.cancelled then
    .pass (ended (.error .cancelled))
  else
    match frame.fields.endpoint with
    | none => .pass (ended (.error (frame.fields.missing .accepted)))
    | some endpoint =>
      .ask (.poll endpoint) fun
        | .error failure => ended (.error failure)
        | .ok completion? =>
          match completion?.filter (·.request = request) with
          | some completion =>
            if completion.status = .success then
              ended (.ok ())
            else
              ended (.error (.completion completion.status completion.request))
          | none =>
            if config.ackTimeout.nanos = 0 || expired then
              ended (.error (.timeout (.acknowledgement name request config.ackTimeout)))
            else
              frame

def next (name : String) (config : SessionConfig) (expired : Bool) (now : Duration) (frame : Frame) : Move Frame :=
  let fields := frame.fields
  match frame.point with
  | .openChannel port =>
    .ask .createChannel fun
      | .ok channel => frame.goto (.bind channel port)
      | .error failure => frame.fail failure
  | .bind channel port =>
    .ask (.bind channel port) fun
      | .ok () => frame.goto (.listen channel port)
      | .error failure => frame.goto (.giveUp channel failure)
  | .listen channel port =>
    .ask (.listen channel config.backlog) fun
      | .ok () =>
        { fields := { fields with channel := some channel, port := some port, state := .listening }
          point := .awaitRequest }
      | .error failure => frame.goto (.giveUp channel failure)
  | .giveUp channel failure => .ask (.closeChannel channel) fun _ => frame.fail failure
  | .awaitRequest =>
    await name config expired now frame .connectRequest fun event =>
      { fields := { fields with state := .connectRequestReceived }, point := .accept event.connection }
  | .accept connection =>
    match fields.channel with
    | none => .pass (frame.fail (fields.missing .listening))
    | some channel =>
      .ask (.accept channel connection config.queues) fun
        | .ok endpoint =>
          { fields := { fields with endpoint := some endpoint }, point := .awaitEstablished }
        | .error failure => frame.fail failure
  | .awaitEstablished =>
    await name config expired now frame .established fun _ =>
      { fields := { fields with state := .accepted }, point := .rest (.ok ()) }
  | .register buffer =>
    match fields.endpoint with
    | none => .pass (frame.fail (fields.missing .accepted))
    | some endpoint =>
      .ask (.register endpoint buffer .full) fun
        | .ok keys =>
          { fields :=
              { fields with
                region := some { buffer with keys }, buffer := some buffer, state := .regionRegistered }
            point := .rest (.ok ()) }
        | .error failure => frame.fail failure
  | .announce =>
    match fields.region, fields.buffer with
    | none, _ => .pass (frame.fail (.invalidState "RegionRegistered" "no region"))
    | some _, none => .pass (frame.fail (.invalidState "RegionRegistered" "no buffer"))
    | some region, some buffer =>
      if buffer.length < Metadata.wireLength then
        .pass (frame.fail (.config (.regionTooSmall buffer.length Metadata.wireLength)))
      else
        .write buffer.block 0 (Stage.metadata region).toWords (frame.goto (.send buffer region))
  | .send buffer region =>
    match fields.endpoint with
    | none => .pass (frame.goto (.wipe buffer region (.error (fields.missing .accepted))))
    | some endpoint =>
      .ask (.send endpoint advertiseRequest (Stage.element region) true) fun
        | .ok () => frame.goto (.awaitAck buffer region)
        | .error failure => frame.goto (.wipe buffer region (.error failure))
  | .awaitAck buffer region =>
    awaitCompletion name config expired now frame advertiseRequest fun result =>
      frame.goto (.wipe buffer region result)
  | .wipe buffer _ result =>
    .write buffer.block 0 [0, 0, 0, 0]
      (match result with
      | .ok () => { fields := { fields with state := .metadataAdvertised }, point := .rest (.ok ()) }
      | .error failure => frame.fail failure)
  | .capture =>
    match fields.endpoint with
    | none => .pass (frame.fail (fields.missing .accepted))
    | some endpoint =>
      .ask (.receivePsn endpoint) fun
        | .ok psn =>
          { fields := { fields with baseline := some (.ofWord psn), state := .ready }
            point := .rest (.ok ()) }
        | .error failure => frame.fail failure
  | .rest _ => .pass frame

end Frame

def Phase.fields (cancelled : Bool) (phase : Phase) : Fields :=
  { state := phase.state
    channel := phase.binding?.map (·.channel)
    port := phase.binding?.map (·.port)
    endpoint := phase.endpoint?
    region := phase.region?
    buffer := phase.region?.map (·.toExtent)
    baseline := phase.baseline?
    cancelled }

def Stage.point : Stage → Point
  | openChannel port => .openChannel port
  | bind binding => .bind binding.channel binding.port
  | listen binding => .listen binding.channel binding.port
  | giveUp channel failure => .giveUp channel failure
  | awaitRequest _ => .awaitRequest
  | accept _ connection => .accept connection
  | awaitEstablished .. => .awaitEstablished
  | register _ _ extent => .register extent
  | announce .. => .announce
  | send _ _ region => .send region.toExtent region
  | awaitAck _ _ region => .awaitAck region.toExtent region
  | wipe _ _ region result => .wipe region.toExtent region result
  | capture .. => .capture
  | rest _ result => .rest result

def Stage.frame (cancelled : Bool) (stage : Stage) : Frame :=
  { fields := stage.phase.fields cancelled, point := stage.point }

section Agreement

variable (name : String) (config : SessionConfig) (cancelled expired : Bool) (now : Duration)

theorem Stage.await_frame (stage : Stage) {binding : Binding}
    (hbinding : stage.phase.binding? = some binding) (expected : EventKind) (found : Event → Stage) :
    Frame.await name config expired now (stage.frame cancelled) expected
        (fun event => (found event).frame cancelled) =
      (Stage.await name config { cancelled, expired, now } binding.channel expected stage
        (fun halt => rest stage.phase (.error halt)) found).embed (Stage.frame cancelled) := by
  have hchannel : (stage.frame cancelled).fields.channel = some binding.channel := by
    simp only [Stage.frame, Phase.fields, hbinding, Option.map_some]
  have hcancelled : (stage.frame cancelled).fields.cancelled = cancelled := rfl
  unfold Frame.await Stage.await
  rw [hcancelled, hchannel]
  split
  · rfl
  · split
    · rfl
    · rcases Stage.outOfTime config.eventTimeout { cancelled, expired, now } with _ | limit
      · refine congrArg (Move.ask (.nextEvent binding.channel)) (funext fun reply => ?_)
        rcases reply with failure | _ | event
        · rfl
        · rfl
        · dsimp only
          split
          · rfl
          · split
            · rfl
            · rfl
      · rfl

theorem Stage.awaitCompletion_frame (stage : Stage) {endpoint : Endpoint}
    (hendpoint : stage.phase.endpoint? = some endpoint) (request : UInt64)
    (ended : Except Failure Unit → Stage) :
    Frame.awaitCompletion name config expired now (stage.frame cancelled) request
        (fun result => (ended result).frame cancelled) =
      (Stage.awaitCompletion name config { cancelled, expired, now } endpoint request stage
        (rest stage.phase (.error .faulted)) ended).embed (Stage.frame cancelled) := by
  have hendpoint' : (stage.frame cancelled).fields.endpoint = some endpoint := hendpoint
  have hcancelled : (stage.frame cancelled).fields.cancelled = cancelled := rfl
  unfold Frame.awaitCompletion Stage.awaitCompletion
  rw [hcancelled, hendpoint']
  split
  · rfl
  · split
    · rfl
    · refine congrArg (Move.ask (.poll endpoint)) (funext fun reply => ?_)
      rcases reply with failure | completion?
      · rfl
      · dsimp only
        cases completion?.filter (·.request = request) with
        | some completion => exact (apply_ite (Stage.frame cancelled) ..).symm
        | none => exact (apply_ite (Stage.frame cancelled) ..).symm

theorem Stage.next_frame (stage : Stage) :
    (stage.frame cancelled).next name config expired now =
      (stage.next name config { cancelled, expired, now }).embed (Stage.frame cancelled) := by
  cases stage with
  | awaitRequest binding =>
    exact await_frame name config cancelled expired now (.awaitRequest binding) rfl .connectRequest
      fun event => .accept binding event.connection
  | awaitEstablished binding endpoint =>
    exact await_frame name config cancelled expired now (.awaitEstablished binding endpoint) rfl
      .established fun _ => .rest (.accepted binding endpoint) (.ok ())
  | awaitAck binding endpoint region =>
    exact awaitCompletion_frame name config cancelled expired now (.awaitAck binding endpoint region) rfl
      advertiseRequest (.wipe binding endpoint region)
  | announce binding endpoint region =>
    simp only [Stage.next]
    split
    · next hshort => exact if_pos hshort
    · next hlong => exact if_neg hlong
  | wipe binding endpoint region result => rcases result with failure | ⟨⟩ <;> rfl
  | giveUp | rest => rfl
  | openChannel | bind | listen | accept | register | send | capture =>
    refine congrArg (Move.ask _) (funext fun reply => ?_)
    rcases reply with failure | _ <;> rfl

theorem Operation.start_frame (operation : Operation) (phase : Phase) (result : Except Halt Unit) :
    ((Stage.rest phase result).frame cancelled).start operation =
      (operation.start phase).map (Stage.frame cancelled) := by
  cases operation <;> cases phase <;> rfl

end Agreement

namespace World

variable (w : World) (fabric : FabricId) (cancelled : Bool) (phase : Phase)

theorem pollOnce_fields :
    w.pollOnce fabric phase =
      ((w.perform fabric (phase.fields cancelled).pollOnce).1,
        (w.perform fabric (phase.fields cancelled).pollOnce).2.2) := by
  cases phase with
  | unbound | listening | requested => rfl
  | accepted _ endpoint | registered _ endpoint | advertised _ endpoint | ready _ endpoint =>
    change _ = ((w.serve fabric (.poll endpoint)).1.map Poll.ofCompletion?, (w.serve fabric (.poll endpoint)).2)
    simp only [pollOnce]
    generalize w.serve fabric (.poll endpoint) = out
    rcases out with ⟨failure | completion?, w'⟩
    · rfl
    · rfl

theorem transportInfo_fields :
    w.transportInfo fabric phase =
      ((w.perform fabric (phase.fields cancelled).transportInfo).1,
        (w.perform fabric (phase.fields cancelled).transportInfo).2.2) := by
  cases phase with
  | ready binding endpoint region baseline =>
    change _ = ((w.serve fabric (.receivePsn endpoint)).1.map fun psn =>
      (⟨endpoint.queuePair, region.keys, .ofWord psn, baseline⟩ : TransportInfo),
      (w.serve fabric (.receivePsn endpoint)).2)
    simp only [transportInfo]
    generalize w.serve fabric (.receivePsn endpoint) = out
    rcases out with ⟨failure | psn, w'⟩
    · rfl
    · rfl
  | unbound | listening | requested | accepted | registered | advertised => rfl

end World

end RemoteSlots
