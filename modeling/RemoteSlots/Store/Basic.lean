import RemoteSlots.Metadata
import RemoteSlots.Session.Basic
import RemoteSlots.Slot.Storage

/-!
This module contains slot stores. A store is configured first; it becomes ready when an initiation
published what it acquired, and stays ready until it is dropped.
-/

namespace RemoteSlots

inductive FabricId where
  | loopback
  | script (id : Nat)
  deriving DecidableEq, Repr

structure Active where
  binding : Binding
  endpoint : Endpoint
  region : Region
  baseline : Psn
  deriving DecidableEq, Repr

def Active.phase (active : Active) : Phase :=
  .ready active.binding active.endpoint active.region active.baseline

structure Store where
  layout : Layout
  config : StoreConfig
  fabric : FabricId
  -- Whether initiations are to give up.
  cancelled : Bool
  -- Whether an initiation is under way.
  initiating : Bool
  active : Option Active
  -- The slot that the cursor shared by all readers of an append log read last.
  tail : Nat
  -- Whether the store was given up and only waits for its last initiation.
  dropped : Bool
  deriving Repr

namespace Store

def zeroesFirst : Layout → Bool
  | .keyValue | .append => true
  | .postcard => false

/--
The store of a configuration. The capacity has to be a power of two, and the storage has to have room
for the metadata that advertises it. The shared cursor starts behind the last slot, so that the first
pull reads slot zero.
-/
def new (layout : Layout) (config : StoreConfig) (fabric : FabricId) : Except Failure Store :=
  if config.capacity = 0 ∨ 1 <<< config.capacity.log2 ≠ config.capacity then
    .error (.config (.capacityNotPowerOfTwo config.name config.capacity))
  else if config.capacity * layout.size < Metadata.wireLength then
    .error (.config (.storageTooSmall config.name Metadata.wireLength))
  else
    .ok
      { layout
        config
        fabric
        cancelled := false
        initiating := false
        active := none
        tail := config.capacity
        dropped := false }

def isReady (store : Store) : Bool := store.active.isSome

def bufferSize (store : Store) : Nat := store.config.capacity * store.layout.size

def active? (store : Store) : Except Failure Active :=
  match store.active with
  | some active => .ok active
  | none => .error (.notReady store.config.name)

def storage (store : Store) (layout : Layout) : Except Failure (Storage layout) :=
  match store.active? with
  | .ok active => .ok { capacity := store.config.capacity, block := active.region.block }
  | .error failure => .error failure

end Store

end RemoteSlots
