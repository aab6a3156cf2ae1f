import RemoteSlots.Scan.Analysis
import RemoteSlots.Scan.Gap
import RemoteSlots.Scan.Span
import RemoteSlots.Store.Cursor
import RemoteSlots.Store.Lookup
import RemoteSlots.World.Sessions

/-!
This module contains what can be done with stores: initiating, reading, inspecting and dropping them.
Everything that needs the storage is refused until the store is ready.
-/

namespace RemoteSlots

namespace World

def createStore (w : World) (layout : Layout) (config : StoreConfig) (fabric : FabricId) :
    Except Failure (StoreId × World) := do
  let store ← Store.new layout config fabric
  let id := w.lastId + 1
  return (id, { w with lastId := id, stores := w.stores.insert id store })

def startInitiation (w : World) (id : StoreId) : CallId × World :=
  let call := w.lastId + 1
  (call, { w with lastId := call, calls := w.calls.insert call { store := id, stage := .check } })

def spawnInitiation (w : World) (id : StoreId) : Except Halt (CallId × World) :=
  if w.stores[id]?.any (·.config.name.contains '\x00') then .error .faulted
  else .ok (w.startInitiation id)

def isCalled (w : World) (id : StoreId) : Bool :=
  w.calls.any fun _ call => call.store = id

/--
Remove a store that was dropped, unless a call still holds on to it. What it acquired is given back.
-/
def reap (w : World) (id : StoreId) : World :=
  match w.stores[id]? with
  | none => w
  | some store =>
    if store.dropped && !w.isCalled id then
      let w :=
        match store.active with
        | none => w
        | some active => w.serveAll store.fabric active.phase.release
      { w with stores := w.stores.erase id }
    else
      w

def dropStore (w : World) (id : StoreId) : World :=
  { w with stores := w.stores.modify id fun store => { store with dropped := true } }.reap id

def endCall (w : World) (id : CallId) : World :=
  match w.calls[id]? with
  | none => w
  | some call => { w with calls := w.calls.erase id }.reap call.store

def setCancelled (w : World) (id : StoreId) (cancelled : Bool) : World :=
  { w with stores := w.stores.modify id fun store => { store with cancelled } }

variable (w : World) (store : Store)

def allocateSpare : Except Halt (BlockId × World) := do
  let (storage, memory) ←
    Storage.allocate w.memory store.config.pages store.layout store.config.capacity
  return (storage.block, { w with memory })

def clearStorage : Bool × World :=
  match store.storage store.layout with
  | .ok storage => (true, { w with memory := storage.clear w.memory })
  | .error _ => (false, w)

def analyze : Except Failure Analysis := do
  let storage ← store.storage store.layout
  return (Analysis.scan store.config.progressInterval (storage.slots w.memory)).1

def snapshot (layout : Layout) (start limit : Nat) : Except Failure (List (Slot layout)) := do
  let storage ← store.storage layout
  return storage.snapshot w.memory start limit

def storeInfo : Except Failure TransportInfo × World :=
  match store.active? with
  | .ok active => w.transportInfo store.fabric active.phase
  | .error failure => (.error failure, w)

def storePoll : Except Failure Poll × World :=
  match store.active? with
  | .ok active => w.pollOnce store.fabric active.phase
  | .error failure => (.error failure, w)

def getSlot (layout : Layout) (index : Nat) : Except Failure (Option (Slot layout)) := do
  let storage ← store.storage layout
  return storage.get? w.memory index

def putSlot {layout : Layout} (index : Nat) (slot : Slot layout) : Except Failure World := do
  let storage ← store.storage layout
  let memory ← storage.put w.memory index slot
  return { w with memory }

def query (key : UInt32) (redundancy : UInt8) : Except Failure UInt32 := do
  let storage ← store.storage .keyValue
  return storage.query w.memory key redundancy

def locate (key : UInt32) (redundancy : UInt8) : Except Failure (Option (Nat × UInt32)) := do
  let storage ← store.storage .keyValue
  return storage.locate w.memory key redundancy

def benchmarkQueries (threads queries : Nat) (redundancy : UInt8) :
    Except Failure QueryBenchmark :=
  match Storage.benchmarkFault? threads queries with
  | some fault => .error (.config fault)
  | none => do
    let storage ← store.storage .keyValue
    return storage.benchmark w.memory threads queries redundancy

def record (index : Nat) : Except Failure (Slot .postcard) := do
  let storage ← store.storage .postcard
  match storage.get? w.memory index with
  | some slot => return slot
  | none => throw (.indexOutOfRange index storage.capacity)

def pull (id : StoreId) : Except Failure (UInt32 × World) := do
  let storage ← store.storage .append
  let (value, tail) := Cursor.pull w.memory storage store.tail
  return (value, { w with stores := w.stores.insert id { store with tail } })

def pullAt (position : Nat) : Except Failure (UInt32 × Nat) := do
  let storage ← store.storage .append
  return Cursor.pull w.memory storage position

def openCursor : Except Failure Nat := do
  let storage ← store.storage .append
  return storage.capacity

def gaps : Except Failure (List Gap) := do
  let storage ← store.storage .append
  return Gap.ofSlots (storage.slots w.memory)

def emptyRuns (circular : Bool) : Except Failure (List Span) := do
  let storage ← store.storage store.layout
  return Span.emptyRuns circular (storage.slots w.memory)

def pullMany (w : World) (pulls : Nat) (id : StoreId) : World :=
  { w with
    stores := w.stores.modify id fun store =>
      { store with tail := Cursor.advanceBy store.config.capacity pulls store.tail } }

def benchmarkLog (id : StoreId) (pulls : Nat) : Except Failure (PullBenchmark × World) :=
  if pulls ≠ 0 ∧ !store.isReady then
    .error (.notReady store.config.name)
  else
    .ok ({ logs := 1, pullsPerLog := pulls }, w.pullMany pulls id)

def benchmarkLogs (w : World) (ids : List StoreId) (pulls : Nat) :
    Except Failure (PullBenchmark × World) :=
  match (ids.filterMap (w.stores[·]?)).find? (!·.isReady) with
  | some store => .error (.notReady store.config.name)
  | none => .ok ({ logs := ids.length, pullsPerLog := pulls }, ids.foldl (pullMany · pulls) w)

end World

end RemoteSlots
