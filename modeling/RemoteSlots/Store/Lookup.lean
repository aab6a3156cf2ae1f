import RemoteSlots.Addressing
import RemoteSlots.Benchmark.Rate
import RemoteSlots.Slot.Storage

/-!
This module contains lookups in key/value storages. A lookup walks the candidate slots of a key in
probe order and stops at the first one that carries the checksum of the key.
-/

namespace RemoteSlots

namespace Storage

def valueAt? (memory : Memory) (storage : Storage .keyValue) (checksum : UInt32) (index : Nat) :
    Option (Nat × UInt32) :=
  match storage.get? memory index with
  | some slot => if slot.checksum = checksum then some (index, slot.value) else none
  | none => none

def locate (memory : Memory) (storage : Storage .keyValue) (key : UInt32) (redundancy : UInt8) :
    Option (Nat × UInt32) :=
  (probeSequence key redundancy storage.capacity).findSome? (storage.valueAt? memory (keyChecksum key))

/--
The value of `key`. Zero stands for a key that was not found.
-/
def query (memory : Memory) (storage : Storage .keyValue) (key : UInt32) (redundancy : UInt8) :
    UInt32 :=
  ((storage.locate memory key redundancy).map (·.2)).getD 0

def keyCount : Nat := 1 <<< 32

def stridedHits (memory : Memory) (storage : Storage .keyValue) (redundancy : UInt8)
    (stride queries key : Nat) : Nat :=
  if h : 0 < stride ∧ key < queries then
    (if (storage.locate memory (UInt32.ofNat key) redundancy).isSome then 1 else 0) +
      stridedHits memory storage redundancy stride queries (key + stride)
  else
    0
termination_by queries - key

def benchmark (memory : Memory) (storage : Storage .keyValue) (threads queries : Nat)
    (redundancy : UInt8) : QueryBenchmark :=
  { threads
    queries
    hits :=
      (List.range threads).foldl
        (fun hits thread => hits + stridedHits memory storage redundancy threads queries thread) 0 }

def benchmarkFault? (threads queries : Nat) : Option ConfigFailure :=
  if threads = 0 then some .noThreads
  else if keyCount < queries then some (.tooManyQueries queries keyCount)
  else none

end Storage

end RemoteSlots
