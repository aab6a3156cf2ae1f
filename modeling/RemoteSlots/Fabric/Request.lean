import RemoteSlots.Config
import RemoteSlots.Failure.Basic
import RemoteSlots.Memory.Block

/-!
This module contains what a session asks of its fabric, request by request, and what the fabric
replies to each. The fabric answers every request with a reply of its type or with a failure; a
session that is written against requests runs on any fabric.
-/

namespace RemoteSlots

abbrev ChannelId := Nat

structure Access where
  localWrite : Bool
  remoteRead : Bool
  remoteWrite : Bool
  remoteAtomic : Bool
  deriving DecidableEq, Repr

def Access.full : Access :=
  { localWrite := true, remoteRead := true, remoteWrite := true, remoteAtomic := true }

structure RegionKeys where
  localKey : UInt32
  remoteKey : UInt32
  deriving DecidableEq, Repr

/--
A stretch of memory: `length` bytes from `address` on, inside `block`.
-/
structure Extent where
  block : Nat
  address : Nat
  length : Nat
  deriving DecidableEq, Repr

structure Region extends Extent where
  keys : RegionKeys
  deriving DecidableEq, Repr

structure SendElement where
  address : Nat
  length : Nat
  key : UInt32
  deriving DecidableEq, Repr

structure Endpoint where
  handle : Nat
  queuePair : UInt32
  deriving DecidableEq, Repr

inductive Request where
  | createChannel
  | bind (channel : ChannelId) (port : UInt16)
  | listen (channel : ChannelId) (backlog : UInt32)
  | nextEvent (channel : ChannelId)
  | accept (channel : ChannelId) (connection : ConnectionId) (queues : QueueSizes)
  | register (endpoint : Endpoint) (extent : Extent) (access : Access)
  | deregister (endpoint : Endpoint) (keys : RegionKeys)
  | send (endpoint : Endpoint) (request : UInt64) (element : SendElement) (signaled : Bool)
  | poll (endpoint : Endpoint)
  | receivePsn (endpoint : Endpoint)
  | disconnect (endpoint : Endpoint)
  | closeChannel (channel : ChannelId)
  deriving DecidableEq, Repr

abbrev Request.Reply : Request → Type
  | createChannel => ChannelId
  | nextEvent _ => Option Event
  | accept .. => Endpoint
  | register .. => RegionKeys
  | poll _ => Option Completion
  | receivePsn _ => UInt32
  | bind .. | listen .. | deregister .. | send .. | disconnect _ | closeChannel _ => Unit

end RemoteSlots
