import RemoteSlots.Fabric.Loopback.Basic
import RemoteSlots.Memory.Basic
import RemoteSlots.Word

/-!
This module contains the server's side of the loopback fabric: the operations on event channels and
on accepted endpoints, and `Loopback.serve`, which answers the requests of a session with them.

An operation that fails leaves the fabric as it was, with one exception: a connection whose accept
fails because the peer went away does not wait to be accepted any more.
-/

namespace RemoteSlots

namespace Loopback

def createChannel (net : Loopback) : ChannelId × Loopback :=
  let id := net.lastId + 1
  (id, { net with lastId := id, channels := net.channels.insert id { port := none, events := [] } })

def bind (net : Loopback) (channel : ChannelId) (port : UInt16) : Except Failure Loopback :=
  match net.channels[channel]? with
  | none => .error (.transport .channelClosed)
  | some c =>
    if c.port.isSome then
      .error (.transport .alreadyBound)
    else if net.listeners.contains port then
      .error (.addressInUse port)
    else
      .ok { net with
        channels := net.channels.insert channel { c with port := some port }
        listeners := net.listeners.insert port { channel, listening := false } }

def listen (net : Loopback) (channel : ChannelId) : Except Failure Loopback :=
  match net.channels[channel]? with
  | none => .error (.transport .channelClosed)
  | some c =>
    match c.port with
    | none => .error (.transport .listenBeforeBind)
    | some port =>
      match net.listeners[port]? with
      | some listener =>
        if listener.channel = channel then
          .ok { net with listeners := net.listeners.insert port { listener with listening := true } }
        else
          .error (.transport (.portNotHeld port))
      | none => .error (.transport (.portNotHeld port))

def nextEvent (net : Loopback) (channel : ChannelId) : Except Failure (Option Event) × Loopback :=
  match net.channels[channel]? with
  | none => (.error (.transport .channelClosed), net)
  | some c =>
    match c.events with
    | [] => (.ok none, net)
    | event :: events =>
      (.ok (some event), { net with channels := net.channels.insert channel { c with events } })

/--
Accept a connection that waits for it, on whichever channel. The bound on the completion queue counts
from here on, and the accepting channel is told that the connection is established.
-/
def accept (net : Loopback) (channel : ChannelId) (id : ConnectionId) (queues : QueueSizes) :
    Except Failure Endpoint × Loopback :=
  match net.links[id]? with
  | none => (.error (.transport (.noPendingConnection id)), net)
  | some link =>
    if id ∈ net.pending then
      let net := { net with pending := net.pending.erase id }
      if link.peerClosed then
        (.error (.transport (.peerWentAway id)), net)
      else
        let net := net.modifyLink id fun link =>
          { link with queueSize := queues.completions.toNat, acceptedBy := some channel }
        (.ok { handle := id, queuePair := link.queuePair },
          net.deliver channel { kind := .established, connection := id, status := 0 })
    else
      (.error (.transport (.noPendingConnection id)), net)

def register (net : Loopback) (id : ConnectionId) (extent : Extent) (access : Access) :
    Except Failure (RegionKeys × Loopback) :=
  match net.links[id]? with
  | none => .error (.transport .endpointDisconnected)
  | some link =>
    if link.serverClosed then
      .error (.transport .endpointDisconnected)
    else if extent.address % 4 ≠ 0 then
      .error (.transport (.misalignedRegion extent.address))
    else
      let key := UInt32.ofNat (net.lastId + 1)
      let net := { net with lastId := net.lastId + 1 }
      .ok ({ localKey := key, remoteKey := key },
        net.modifyLink id fun link =>
          { link with regions := link.regions ++ [⟨extent, key, access⟩] })

def deregister (net : Loopback) (id : ConnectionId) (key : UInt32) : Except Failure Loopback :=
  match net.links[id]? with
  | none => .error (.transport (.unknownRegion key))
  | some link =>
    if link.regions.any (·.key = key) then
      .ok (net.modifyLink id fun link =>
        { link with regions := link.regions.filter (·.key ≠ key) })
    else
      .error (.transport (.unknownRegion key))

def payload? (memory : Memory) (link : Link) (element : SendElement) : Option (List UInt8) :=
  match link.regions.find? fun r => r.key = element.key && r.covers element.address element.length with
  | some region =>
    if element.length % 4 = 0 then
      some (bytesOfWords (memory.loadAt region.extent.block element.address (element.length / 4)))
    else
      none
  | none => none

def send (net : Loopback) (memory : Memory) (id : ConnectionId) (request : UInt64)
    (element : SendElement) (signaled : Bool) : Except Failure Loopback :=
  match net.links[id]? with
  | none => .error (.transport .endpointDisconnected)
  | some link =>
    if link.serverClosed then
      .error (.transport .endpointDisconnected)
    else
      .ok <| net.modifyLink id fun link =>
        match payload? memory link element with
        | none => link.complete { request, status := .localProtectionError, opcode := .send }
        | some message =>
          if link.peerClosed then
            link.complete { request, status := .retryExceeded, opcode := .send }
          else
            let link := { link with inbox := link.inbox ++ [message] }
            if signaled then
              link.complete { request, status := .success, opcode := .send }
            else
              link

def poll (net : Loopback) (id : ConnectionId) : Option Completion × Loopback :=
  match net.links[id]? with
  | none => (none, net)
  | some link =>
    (link.completions.head?,
      net.modifyLink id fun link => { link with completions := link.completions.tail })

def receivePsn (net : Loopback) (id : ConnectionId) : Psn :=
  match net.links[id]? with
  | none => 0
  | some link => link.psn

def disconnect (net : Loopback) (id : ConnectionId) : Loopback :=
  net.modifyLink id Link.closeServer

def closeChannel (net : Loopback) (channel : ChannelId) : Loopback :=
  match net.channels[channel]? with
  | none => net
  | some c =>
    { net with
      channels := net.channels.erase channel
      listeners :=
        match c.port with
        | none => net.listeners
        | some port =>
          if net.listeners[port]?.any (·.channel = channel) then net.listeners.erase port
          else net.listeners
      pending := net.pending.filter fun id => !net.links[id]?.any (·.channel = channel) }

def answer (net : Loopback) : Except Failure Loopback → Except Failure Unit × Loopback
  | .ok net => (.ok (), net)
  | .error failure => (.error failure, net)

def serve (net : Loopback) (memory : Memory) :
    (request : Request) → Except Failure request.Reply × Loopback
  | .createChannel =>
    let (id, net) := net.createChannel
    (.ok id, net)
  | .bind channel port => net.answer (net.bind channel port)
  | .listen channel _ => net.answer (net.listen channel)
  | .nextEvent channel => net.nextEvent channel
  | .accept channel connection queues => net.accept channel connection queues
  | .register endpoint extent access =>
    match net.register endpoint.handle extent access with
    | .ok (keys, net) => (.ok keys, net)
    | .error failure => (.error failure, net)
  | .deregister endpoint keys => net.answer (net.deregister endpoint.handle keys.remoteKey)
  | .send endpoint request element signaled =>
    net.answer (net.send memory endpoint.handle request element signaled)
  | .poll endpoint =>
    let (completion, net) := net.poll endpoint.handle
    (.ok completion, net)
  | .receivePsn endpoint => (.ok (net.receivePsn endpoint.handle).toWord, net)
  | .disconnect endpoint => (.ok (), net.disconnect endpoint.handle)
  | .closeChannel channel => (.ok (), net.closeChannel channel)

end Loopback

end RemoteSlots
