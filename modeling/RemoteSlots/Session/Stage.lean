import RemoteSlots.Metadata
import RemoteSlots.Session.Basic
import RemoteSlots.Session.Move

/-!
This module contains the operations of a transport session, move by move:
- `listen` opens an event channel, binds and listens, and accepts exactly one peer,
- `register` registers a block of memory for every kind of access,
- `advertise` sends the peer the metadata of the region,
- `capture` takes the baseline of the sequence numbers.

An operation in progress is a `Stage`. The last stage, `rest`, holds what the session came to and how
the operation ended; it is also how a session that runs no operation is represented.
-/

namespace RemoteSlots

def advertiseRequest : UInt64 := 1

inductive Stage where
  | openChannel (port : UInt16)
  | bind (binding : Binding)
  | listen (binding : Binding)
  -- Close a channel that cannot be bound or listened on.
  | giveUp (channel : ChannelId) (failure : Failure)
  | awaitRequest (binding : Binding)
  | accept (binding : Binding) (connection : ConnectionId)
  | awaitEstablished (binding : Binding) (endpoint : Endpoint)
  | register (binding : Binding) (endpoint : Endpoint) (extent : Extent)
  -- Write the metadata into the front of the region.
  | announce (binding : Binding) (endpoint : Endpoint) (region : Region)
  | send (binding : Binding) (endpoint : Endpoint) (region : Region)
  | awaitAck (binding : Binding) (endpoint : Endpoint) (region : Region)
  -- Zero the front of the region, however the advertisement went.
  | wipe (binding : Binding) (endpoint : Endpoint) (region : Region) (result : Except Failure Unit)
  | capture (binding : Binding) (endpoint : Endpoint) (region : Region)
  | rest (phase : Phase) (result : Except Halt Unit)

namespace Stage

def phase : Stage → Phase
  | openChannel _ | bind _ | listen _ | giveUp .. => .unbound
  | awaitRequest binding => .listening binding
  | accept binding _ => .requested binding none
  | awaitEstablished binding endpoint => .requested binding (some endpoint)
  | register binding endpoint _ => .accepted binding endpoint
  | announce binding endpoint region | send binding endpoint region
  | awaitAck binding endpoint region | wipe binding endpoint region _ =>
    .registered binding endpoint region
  | capture binding endpoint region => .advertised binding endpoint region
  | rest phase _ => phase

def result? : Stage → Option (Except Halt Unit)
  | rest _ result => some result
  | _ => none

def metadata (region : Region) : Metadata :=
  { address := UInt64.ofNat region.address
    length := UInt32.ofNat region.length
    key := region.keys.localKey }

def element (region : Region) : SendElement :=
  { address := region.address, length := Metadata.wireLength, key := region.keys.localKey }

def outOfTime (limit : Option Duration) (signals : Signals) : Option Duration :=
  match limit with
  | none => none
  | some limit => if limit.nanos = 0 || signals.expired then some limit else none

def await (name : String) (config : SessionConfig) (signals : Signals) (channel : ChannelId)
    (expected : EventKind) (waiting : Stage) (ended : Halt → Stage) (found : Event → Stage) :
    Move Stage :=
  if config.eventTimeout.any (!·.isReachable signals.now) then
    .pass (ended .faulted)
  else if signals.cancelled then
    .pass (ended (.failed .cancelled))
  else
    match outOfTime config.eventTimeout signals with
    | some limit => .pass (ended (.failed (.timeout (.event expected name limit))))
    | none =>
      .ask (.nextEvent channel) fun
        | .error failure => ended (.failed failure)
        | .ok none => waiting
        | .ok (some event) =>
          if event.kind ≠ expected then
            ended (.failed (.unexpectedEvent expected event.kind))
          else if event.status ≠ 0 then
            ended (.failed (.transport (.faultyEvent event.kind name event.status)))
          else
            found event

/--
One round of waiting for the acknowledgement: a time limit that the clock cannot tell is a fault,
cancellation comes next, then the queue, then the time limit. Completions of other work requests are
passed over.
-/
def awaitCompletion (name : String) (config : SessionConfig) (signals : Signals)
    (endpoint : Endpoint) (request : UInt64) (waiting faulted : Stage)
    (ended : Except Failure Unit → Stage) : Move Stage :=
  if !config.ackTimeout.isReachable signals.now then
    .pass faulted
  else if signals.cancelled then
    .pass (ended (.error .cancelled))
  else
    .ask (.poll endpoint) fun
      | .error failure => ended (.error failure)
      | .ok completion? =>
        match completion?.filter (·.request = request) with
        | some completion =>
          if completion.status = .success then
            ended (.ok ())
          else
            ended (.error (.completion completion.status completion.request))
        | none =>
          if config.ackTimeout.nanos = 0 || signals.expired then
            ended (.error (.timeout (.acknowledgement name request config.ackTimeout)))
          else
            waiting

def next (name : String) (config : SessionConfig) (signals : Signals) (stage : Stage) : Move Stage :=
  match stage with
  | openChannel port =>
    .ask .createChannel fun
      | .ok channel => bind { channel, port }
      | .error failure => rest .unbound (.error (.failed failure))
  | bind binding =>
    .ask (.bind binding.channel binding.port) fun
      | .ok () => listen binding
      | .error failure => giveUp binding.channel failure
  | listen binding =>
    .ask (.listen binding.channel config.backlog) fun
      | .ok () => awaitRequest binding
      | .error failure => giveUp binding.channel failure
  | giveUp channel failure =>
    .ask (.closeChannel channel) fun _ => rest .unbound (.error (.failed failure))
  | awaitRequest binding =>
    await name config signals binding.channel .connectRequest stage
      (fun halt => rest (.listening binding) (.error halt))
      (fun event => accept binding event.connection)
  | accept binding connection =>
    .ask (.accept binding.channel connection config.queues) fun
      | .ok endpoint => awaitEstablished binding endpoint
      | .error failure => rest (.requested binding none) (.error (.failed failure))
  | awaitEstablished binding endpoint =>
    await name config signals binding.channel .established stage
      (fun halt => rest (.requested binding (some endpoint)) (.error halt))
      (fun _ => rest (.accepted binding endpoint) (.ok ()))
  | register binding endpoint extent =>
    .ask (.register endpoint extent .full) fun
      | .ok keys => rest (.registered binding endpoint { extent with keys }) (.ok ())
      | .error failure => rest (.accepted binding endpoint) (.error (.failed failure))
  | announce binding endpoint region =>
    if region.length < Metadata.wireLength then
      .pass (rest (.registered binding endpoint region)
        (.error (.failed (.config (.regionTooSmall region.length Metadata.wireLength)))))
    else
      .write region.block 0 (metadata region).toWords (send binding endpoint region)
  | send binding endpoint region =>
    .ask (.send endpoint advertiseRequest (element region) true) fun
      | .ok () => awaitAck binding endpoint region
      | .error failure => wipe binding endpoint region (.error failure)
  | awaitAck binding endpoint region =>
    awaitCompletion name config signals endpoint advertiseRequest stage
      (rest (.registered binding endpoint region) (.error .faulted)) (wipe binding endpoint region)
  | wipe binding endpoint region result =>
    .write region.block 0 [0, 0, 0, 0]
      (match result with
      | .ok () => rest (.advertised binding endpoint region) (.ok ())
      | .error failure => rest (.registered binding endpoint region) (.error (.failed failure)))
  | capture binding endpoint region =>
    .ask (.receivePsn endpoint) fun
      | .ok psn => rest (.ready binding endpoint region (.ofWord psn)) (.ok ())
      | .error failure => rest (.advertised binding endpoint region) (.error (.failed failure))
  | rest phase result => .pass (rest phase result)

def startListen (phase : Phase) (port : UInt16) : Except Failure Stage :=
  match phase with
  | .unbound => .ok (openChannel port)
  | phase => .error (phase.unexpected .unbound)

def startRegister (phase : Phase) (extent : Extent) : Except Failure Stage :=
  match phase with
  | .accepted binding endpoint => .ok (register binding endpoint extent)
  | phase => .error (phase.unexpected .accepted)

def startAdvertise (phase : Phase) : Except Failure Stage :=
  match phase with
  | .registered binding endpoint region => .ok (announce binding endpoint region)
  | phase => .error (phase.unexpected .regionRegistered)

def startCapture (phase : Phase) : Except Failure Stage :=
  match phase with
  | .advertised binding endpoint region => .ok (capture binding endpoint region)
  | phase => .error (phase.unexpected .metadataAdvertised)

end Stage

end RemoteSlots
