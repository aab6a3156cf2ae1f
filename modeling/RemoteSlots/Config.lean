import RemoteSlots.Text.Duration

/-!
This module contains the configuration of stores and of the transport sessions that serve them,
with the defaults of a deployment.
-/

namespace RemoteSlots

def standardPageSize : Nat := 4096

def hugePageSize : Nat := 1 <<< 30

inductive PagePolicy where
  | huge (size : Nat)
  | standard
  deriving DecidableEq, Repr

def PagePolicy.pageSize : PagePolicy → Nat
  | huge size => size
  | standard => standardPageSize

instance : Inhabited PagePolicy := ⟨.huge hugePageSize⟩

/--
The queue sizes requested when a connection is accepted. A completion queue of size zero is
unbounded.
-/
structure QueueSizes where
  completions : UInt32 := 128
  sendRequests : UInt32 := 32
  receiveRequests : UInt32 := 32
  sendElements : UInt32 := 32
  receiveElements : UInt32 := 32
  deriving DecidableEq, Repr

structure SessionConfig where
  backlog : UInt32 := 1
  queues : QueueSizes := {}
  eventTimeout : Option Duration := none
  pollInterval : Duration := .ofMillis 10
  ackTimeout : Duration := .ofSeconds 2
  settle : Duration := .zero
  deriving DecidableEq, Repr

structure StoreConfig where
  name : String := "store"
  port : UInt16 := 1337
  capacity : Nat := 256
  pages : PagePolicy := .huge hugePageSize
  progressInterval : Nat := 1000000
  session : SessionConfig := {}
  deriving DecidableEq, Repr

namespace StoreConfig

def withProgressInterval (config : StoreConfig) (interval : Nat) : StoreConfig :=
  { config with progressInterval := max interval 1 }

def withEventTimeout (config : StoreConfig) (limit : Duration) : StoreConfig :=
  { config with session := { config.session with eventTimeout := some limit } }

def withAckTimeout (config : StoreConfig) (limit : Duration) : StoreConfig :=
  { config with session := { config.session with ackTimeout := limit } }

def withSettle (config : StoreConfig) (delay : Duration) : StoreConfig :=
  { config with session := { config.session with settle := delay } }

end StoreConfig

end RemoteSlots
