import RemoteSlots.Console.Collector
import RemoteSlots.World.Peers
import RemoteSlots.World.Quiet

/-!
This module contains the synthetic peers of the collector. Each connects to one store and writes made
up slots as soon as it learns where the region of the store is.
-/

namespace RemoteSlots

namespace Console

def syntheticEntries (count : Nat) (redundancy : UInt8) (capacity : Nat) :
    List (Nat × Slot .keyValue) :=
  (List.range' 1 count).flatMap fun key =>
    World.entriesOf (UInt32.ofNat key) (UInt32.ofNat key * 10) redundancy capacity

def syntheticPostcards (count capacity : Nat) : List (Nat × Slot .postcard) :=
  (List.range (min count capacity)).map fun i =>
    (i, .postcard ((List.range' (5 * i + 1) 5).map UInt32.ofNat))

def syntheticLog (count capacity : Nat) : List (Nat × Slot .append) :=
  (List.range' 1 count).map fun value => ((value - 1) % capacity, .logged (UInt32.ofNat value))

def syntheticWrites (collector : Collector) (store : Store) (w : World) (peer : ConnectionId)
    (metadata : Metadata) : World :=
  let count := collector.arguments.syntheticEntries
  let capacity := store.config.capacity
  match store.layout with
  | .keyValue => (w.writeSlots peer metadata (syntheticEntries count collector.redundancy capacity)).2
  | .postcard => (w.writeSlots peer metadata (syntheticPostcards count capacity)).2
  | .append => (w.writeSlots peer metadata (syntheticLog count capacity)).2

def peerTimeout : Duration := .ofSeconds 30

/--
Initiate a store, with a synthetic peer if one is wanted. The peer connects when the store listens,
and makes all its writes right after the metadata was sent to it. A store that waits for a peer
without a time limit is left where it waits.
-/
def initiate (collector : Collector) (w : World) (id : StoreId) :
    Option (Except Halt Unit) × World :=
  match w.stores[id]? with
  | none => (none, w)
  | some store =>
    let (call, w) := w.startInitiation id
    let task := Task.call call
    let w := w.runUntil task (·.waiting task)
    let w :=
      if collector.arguments.synthetic && w.waiting task then
        match w.connect store.config.port with
        | .error _ => w
        | .ok (peer, w) =>
          let w := w.runUntil task fun w => w.net.links[peer]?.any (!·.inbox.isEmpty)
          match w.receiveMetadata peer peerTimeout with
          | (.error _, w) => w
          | (.ok metadata, w) => syntheticWrites collector store w peer metadata
      else
        w
    let w := w.run task
    match w.result? task with
    | none => (none, w)
    | some result => (some result, w.endCall call)

def initiateAll (collector : Collector) (w : World) :
    List StoreId → List (Option (Except Halt Unit)) × World
  | [] => ([], w)
  | id :: ids =>
    let (result, w) := initiate collector w id
    let (results, w) := initiateAll collector w ids
    (result :: results, w)

end Console

end RemoteSlots
