import RemoteSlots.Addressing
import RemoteSlots.Fabric.Loopback.Peer
import RemoteSlots.World.Basic

/-!
This module contains what peers can do in a world: connecting, receiving the advertisement of a
region, and reading and writing the region without the server taking part.
-/

namespace RemoteSlots

namespace World

def connect (w : World) (port : UInt16) : Except Failure (ConnectionId × World) := do
  let (peer, net) ← w.net.connect port
  return (peer, { w with net })

def inject (w : World) (port : UInt16) (kind : EventKind) (status : Int) : Except Failure World := do
  let net ← w.net.inject port kind status
  return { w with net }

def receive (w : World) (peer : ConnectionId) (limit : Duration) :
    Except Failure (List UInt8) × World :=
  let (message, net) := w.net.receive peer limit
  (message, { w with net })

def receiveMetadata (w : World) (peer : ConnectionId) (limit : Duration) :
    Except Failure Metadata × World :=
  let (message, w) := w.receive peer limit
  (message.bind Metadata.decode, w)

def write (w : World) (peer : ConnectionId) (request : UInt64) (address : UInt64) (key : UInt32)
    (words : List UInt32) : Except Failure Unit × World :=
  let (result, memory, net) := w.net.write w.memory peer request address key words
  (result, { w with memory, net })

/--
Write words at an address several times over. The last attempt counts.
-/
def writeTimes (w : World) (peer : ConnectionId) (request : UInt64) (address : UInt64)
    (key : UInt32) (words : List UInt32) : (times : Nat) → Except Failure Unit × World
  | 0 => (.ok (), w)
  | 1 => w.write peer request address key words
  | times + 2 =>
    (w.write peer request address key words).2.writeTimes peer request address key words (times + 1)

def read (w : World) (peer : ConnectionId) (address : UInt64) (key : UInt32) (count : UInt64) :
    Except Halt (List UInt32) :=
  w.net.read w.memory peer address key count

def writeSlot (w : World) (peer : ConnectionId) (metadata : Metadata) (index : UInt64) (size : Nat)
    (words : List UInt32) : Except Failure Unit × World :=
  w.write peer 0 (metadata.slotAddress index size) metadata.key words

def readSlot (w : World) (peer : ConnectionId) (metadata : Metadata) (index : UInt64) (size : Nat) :
    Except Halt (List UInt32) :=
  w.read peer (metadata.slotAddress index size) metadata.key (.ofNat (size / 4))

def writeSlots (w : World) (peer : ConnectionId) (metadata : Metadata) :
    (slots : List (Nat × Slot layout)) → Except Failure Unit × World
  | [] => (.ok (), w)
  | (index, slot) :: slots =>
    match w.writeSlot peer metadata (UInt64.ofNat index) layout.size slot.toWords with
    | (.ok (), w) => w.writeSlots peer metadata slots
    | (.error failure, w) => (.error failure, w)

def entriesOf (key value : UInt32) (redundancy : UInt8) (capacity : Nat) :
    List (Nat × Slot .keyValue) :=
  (probeSequence key redundancy capacity).map (·, .entry (keyChecksum key) value)

def entriesOf? (key value : UInt32) (redundancy : UInt8) (capacity : Nat) :
    Option (List (Nat × Slot .keyValue)) :=
  (probeSequence? key redundancy capacity).map fun indexes =>
    indexes.map (·, .entry (keyChecksum key) value)

def hangUp (w : World) (peer : ConnectionId) : World :=
  { w with net := w.net.hangUp peer }

def allocate (w : World) (pages : PagePolicy) (length : Nat) : Except Halt (BlockId × World) := do
  let (block, memory) ← w.memory.allocate pages length
  return (block, { w with memory })

end World

end RemoteSlots
