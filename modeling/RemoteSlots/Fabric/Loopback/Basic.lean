import RemoteSlots.Fabric.Psn
import RemoteSlots.Fabric.Request
import Std.Data.TreeMap

/-!
This module contains the state of the loopback fabric, which connects sessions and peers of one
process:
- event channels, each of which may hold one port,
- the listeners, that is which channel holds which port,
- the connections, which are called links here, and which of them wait to be accepted.

All of them are numbered from one counter, so that no number is ever used twice.
-/

namespace RemoteSlots

structure Registration where
  extent : Extent
  key : UInt32
  access : Access
  deriving DecidableEq, Repr

def Registration.covers (registration : Registration) (address length : Nat) : Bool :=
  registration.extent.address ≤ address &&
    address + length ≤ registration.extent.address + registration.extent.length &&
    address % 4 = 0

structure Channel where
  port : Option UInt16
  events : List Event
  deriving DecidableEq, Repr

structure Listener where
  channel : ChannelId
  listening : Bool
  deriving DecidableEq, Repr

/--
A connection between an endpoint on the server's side and a peer.
-/
structure Link where
  -- The channel that was asked for the connection.
  channel : ChannelId
  queuePair : UInt32
  regions : List Registration
  -- The completions that were not polled yet, oldest first.
  completions : List Completion
  -- The bound on the completions; zero stands for no bound.
  queueSize : Nat
  -- The messages that the peer did not receive yet, oldest first.
  inbox : List (List UInt8)
  psn : Psn
  -- The channel that accepted the connection.
  acceptedBy : Option ChannelId
  serverClosed : Bool
  peerClosed : Bool
  deriving DecidableEq, Repr

namespace Link

def complete (link : Link) (completion : Completion) : Link :=
  if 0 < link.queueSize ∧ link.queueSize ≤ link.completions.length then link
  else { link with completions := link.completions ++ [completion] }

def closeServer (link : Link) : Link :=
  { link with serverClosed := true, regions := [] }

end Link

structure Loopback where
  lastId : Nat
  channels : Std.TreeMap ChannelId Channel
  listeners : Std.TreeMap UInt16 Listener
  -- The connections that wait to be accepted.
  pending : List ConnectionId
  links : Std.TreeMap ConnectionId Link

namespace Loopback

def empty : Loopback :=
  { lastId := 0, channels := ∅, listeners := ∅, pending := [], links := ∅ }

instance : Inhabited Loopback := ⟨empty⟩

def name : String := "loopback"

def isBound (net : Loopback) (port : UInt16) : Bool :=
  net.listeners.contains port

def deliver (net : Loopback) (channel : ChannelId) (event : Event) : Loopback :=
  { net with
    channels := net.channels.modify channel fun c => { c with events := c.events ++ [event] } }

def modifyLink (net : Loopback) (id : ConnectionId) (f : Link → Link) : Loopback :=
  { net with links := net.links.modify id f }

end Loopback

end RemoteSlots
