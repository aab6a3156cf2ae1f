import RemoteSlots.Fabric.Loopback.Basic
import RemoteSlots.Memory.Basic
import RemoteSlots.Metadata

/-!
This module contains the peer's side of the loopback fabric: connecting, receiving messages and
reading and writing the regions of the server directly.
-/

namespace RemoteSlots

namespace Loopback

def initialPsn (queuePair : UInt32) : Psn := Psn.ofWord (queuePair * 7919)

def connect (net : Loopback) (port : UInt16) : Except Failure (ConnectionId × Loopback) :=
  match net.listeners[port]? with
  | none => .error (.transport (.connectionRefused port))
  | some listener =>
    if listener.listening then
      let id := net.lastId + 1
      let queuePair := UInt32.ofNat (net.lastId + 2)
      let link : Link :=
        { channel := listener.channel
          queuePair
          regions := []
          completions := []
          queueSize := 0
          inbox := []
          psn := initialPsn queuePair
          acceptedBy := none
          serverClosed := false
          peerClosed := false }
      let net :=
        { net with
          lastId := net.lastId + 2
          links := net.links.insert id link
          pending := net.pending ++ [id] }
      .ok (id, net.deliver listener.channel { kind := .connectRequest, connection := id, status := 0 })
    else
      .error (.transport (.connectionRefused port))

def inject (net : Loopback) (port : UInt16) (kind : EventKind) (status : Int) :
    Except Failure Loopback :=
  match net.listeners[port]? with
  | none => .error (.transport (.nothingBound port))
  | some listener => .ok (net.deliver listener.channel { kind, connection := 0, status })

/--
Take the oldest message from a peer's inbox. Without one the peer has waited for all of `limit`. It does
not have to wait if nobody is left who could send one; a connection can, as long as there is one, even
after its server's side was closed.
-/
def receive (net : Loopback) (id : ConnectionId) (limit : Duration) :
    Except Failure (List UInt8) × Loopback :=
  match net.links[id]? with
  | none => (.error (.transport .serverGone), net)
  | some link =>
    match link.inbox with
    | [] => (.error (.timeout (.message limit)), net)
    | message :: _ =>
      (.ok message, net.modifyLink id fun link => { link with inbox := link.inbox.tail })

def target (link : Link) (address : UInt64) (key : UInt32) (words bytes : Nat) (granted : Access → Bool) :
    Except Failure Registration :=
  if link.serverClosed then
    .error (.remoteAccess .connectionClosed)
  else
    match link.regions.find? (·.key = key) with
    | none => .error (.remoteAccess (.unknownKey key))
    | some region =>
      if !granted region.access then
        .error (.remoteAccess (.notGranted key))
      else if !region.covers address.toNat bytes then
        .error (.remoteAccess (.outsideRegion words address.toNat key))
      else
        .ok region

def write (net : Loopback) (memory : Memory) (id : ConnectionId) (request : UInt64)
    (address : UInt64) (key : UInt32) (words : List UInt32) :
    Except Failure Unit × Memory × Loopback :=
  match net.links[id]? with
  | none => (.error (.remoteAccess .connectionClosed), memory, net)
  | some link =>
    match target link address key words.length (4 * words.length) (·.remoteWrite) with
    | .ok region =>
      (.ok (), memory.storeAt region.extent.block address.toNat words,
        net.modifyLink id fun link => { link with psn := link.psn + 1 })
    | .error failure =>
      (.error failure, memory,
        net.modifyLink id
          (·.complete { request, status := .remoteAccessError, opcode := .remoteWrite }))

/--
Read `count` words of the server's memory. The number of their bytes is a product of 64 bits: one that
overflows is checked as what is left of it, and no list has room for the words.
-/
def read (net : Loopback) (memory : Memory) (id : ConnectionId) (address : UInt64) (key : UInt32)
    (count : UInt64) : Except Halt (List UInt32) :=
  match net.links[id]? with
  | none => .error (.failed (.remoteAccess .connectionClosed))
  | some link =>
    match target link address key count.toNat (4 * count).toNat (·.remoteRead) with
    | .error failure => .error (.failed failure)
    | .ok region =>
      if 4 * count.toNat < addressLimit then
        .ok (memory.loadAt region.extent.block address.toNat count.toNat)
      else
        .error .faulted

def writeSlot (net : Loopback) (memory : Memory) (id : ConnectionId) (metadata : Metadata)
    (index : UInt64) (size : Nat) (words : List UInt32) : Except Failure Unit × Memory × Loopback :=
  net.write memory id 0 (metadata.slotAddress index size) metadata.key words

def readSlot (net : Loopback) (memory : Memory) (id : ConnectionId) (metadata : Metadata)
    (index : UInt64) (size : Nat) : Except Halt (List UInt32) :=
  net.read memory id (metadata.slotAddress index size) metadata.key (.ofNat (size / 4))

def hangUp (net : Loopback) (id : ConnectionId) : Loopback :=
  match net.links[id]? with
  | none => net
  | some link =>
    if link.peerClosed then net
    else
      let net := net.modifyLink id fun link => { link with peerClosed := true }
      match link.acceptedBy with
      | none => net
      | some channel => net.deliver channel { kind := .disconnected, connection := id, status := 0 }

end Loopback

end RemoteSlots
