import RemoteSlots.Console.Collector
import RemoteSlots.Text.Fixed

/-!
This module contains the report that the collector prints: for every ready store its transport, its
first slots, how full it is, and the oldest completion of its queue, which the report takes from it.
-/

namespace RemoteSlots

namespace Console

def entryLine (index : Nat) (slot : Slot .keyValue) : String :=
  s!"{Text.rightAligned 5 index}: (" ++ Text.zeroPadded 10 slot.checksum.toNat ++ "," ++
    Text.zeroPadded 10 slot.value.toNat ++ ")"

def postcardLine (index : Nat) (slot : Slot .postcard) : String :=
  s!"{Text.rightAligned 5 index}: (" ++
    ",".intercalate (slot.hops.map fun hop => Text.zeroPadded 10 hop.toNat) ++ ")"

def loggedLine (index : Nat) (slot : Slot .append) : String :=
  s!"{Text.rightAligned 5 index}: (" ++ Text.zeroPadded 10 slot.loggedValue.toNat ++ ")"

example : loggedLine 4 (.logged 5) = "    4: (0000000005)" := by decide +kernel

def infoLine (name : String) (info : TransportInfo) : String :=
  s!"'{name}': QP {info.queuePair} lkey {info.keys.localKey} rkey {info.keys.remoteKey} " ++
    s!"rq_psn {info.receivePsn.toNat} (diff {info.drift.toNat} from initial PSN)"

def analysisLine (analysis : Analysis) : String :=
  s!"Memory slots in use: {analysis.occupied} / {analysis.capacity} " ++
    s!"(load factor {Text.fixed 2 analysis.loadPercent}%)"

def slotLines (name : String) (line : Nat → Slot layout → String) (slots : List (Slot layout)) :
    List String :=
  s!"Storage of '{name}':" :: slots.mapIdx line

def lineOf (text : α → String) : Except Failure α → List String
  | .ok result => [text result]
  | .error _ => []

def storeLines (w : World) (id : StoreId) (layout : Layout) (limit : Nat)
    (line : Nat → Slot layout → String) (more : World → Store → List String) :
    List String × World :=
  match w.stores[id]? with
  | none => ([], w)
  | some store =>
    let name := store.config.name
    if store.isReady then
      let (info, w) := w.storeInfo store
      let slots :=
        match w.snapshot store layout 0 limit with
        | .ok slots => slotLines name line slots
        | .error _ => []
      let analysis := w.analyze store
      let (poll, w) := w.storePoll store
      (lineOf (infoLine name) info ++ slots ++ lineOf analysisLine analysis ++
        lineOf (fun poll => s!"Completion queue: {poll.text}") poll ++ more w store, w)
    else
      ([s!"{name} is not ready yet, skipping."], w)

def linesOfAll (lines : World → StoreId → List String × World) (w : World) :
    List StoreId → List String × World
  | [] => ([], w)
  | id :: ids =>
    let (first, w) := lines w id
    let (rest, w) := linesOfAll lines w ids
    (first ++ rest, w)

namespace Collector

/--
The lines of a report: the append logs, each with its empty runs, the postcards, and the key/value
store with the value of the key one.
-/
def report (collector : Collector) (w : World) : List String × World :=
  let limit := collector.arguments.printLimit
  let (lists, w) :=
    linesOfAll
      (fun w id =>
        storeLines w id .append limit loggedLine fun w store =>
          lineOf (fun spans => s!"Empty spans: {Span.listText spans}") (w.emptyRuns store true))
      w collector.lists
  let (postcards, w) := storeLines w collector.postcard .postcard limit postcardLine fun _ _ => []
  let (entries, w) :=
    storeLines w collector.keyValue .keyValue limit entryLine fun w store =>
      lineOf (fun value => s!"Query result for key 1: {value}")
        (w.query store 1 collector.redundancy)
  (lists ++ postcards ++ entries, w)

end Collector

end Console

end RemoteSlots
