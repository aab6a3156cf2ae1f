import RemoteSlots.Failure.SystemError
import RemoteSlots.Fabric.Completion
import RemoteSlots.Fabric.Event
import RemoteSlots.Text.Duration

/-!
This module contains the failures that operations report. A failure is its cause; the wording is
found in the `text` of its parts and in `Failure.message`. Every part that has a wording also has a
constructor `other` for a cause that somebody else worded.
-/

namespace RemoteSlots

inductive AllocationFailure where
  | emptyBuffer
  | bufferTooLong (length : Nat)
  | tooManySlots (capacity size : Nat)
  | other (text : String)
  deriving DecidableEq, Repr

def AllocationFailure.text : AllocationFailure → String
  | .emptyBuffer => "Cannot allocate an empty buffer"
  | .bufferTooLong length => s!"Buffer of {length} bytes overflows the address space"
  | .tooManySlots capacity size =>
    s!"{capacity} slots of {size} bytes do not fit the address space"
  | .other text => text

inductive TransportFailure where
  | connectionRefused (port : UInt16)
  | nothingBound (port : UInt16)
  | alreadyBound
  | listenBeforeBind
  | portNotHeld (port : UInt16)
  | channelClosed
  | noPendingConnection (id : ConnectionId)
  | peerWentAway (id : ConnectionId)
  | endpointDisconnected
  | misalignedRegion (address : Nat)
  | unknownRegion (key : UInt32)
  | serverGone
  | faultyEvent (kind : EventKind) (session : String) (status : Int)
  | other (text : String)
  deriving DecidableEq, Repr

def TransportFailure.text : TransportFailure → String
  | .connectionRefused port => s!"Connection refused on port {port}"
  | .nothingBound port => s!"No channel bound to port {port}"
  | .alreadyBound => "Channel is already bound"
  | .listenBeforeBind => "Listen before bind"
  | .portNotHeld port => s!"Port {port} is not bound by this channel"
  | .channelClosed => "Event channel closed"
  | .noPendingConnection id => s!"No pending connection with id {id}"
  | .peerWentAway id => s!"Peer of connection {id} went away before accept"
  | .endpointDisconnected => "Endpoint is disconnected"
  | .misalignedRegion address => s!"Region at {Text.hexadecimal address} is not word aligned"
  | .unknownRegion key => s!"No region registered with key {key}"
  | .serverGone => "Server side is gone"
  | .faultyEvent kind session status =>
    s!"{kind.name} event for '{session}' carried error {status}"
  | .other text => text

inductive Overdue where
  | event (kind : EventKind) (session : String) (limit : Duration)
  | acknowledgement (session : String) (request : UInt64) (limit : Duration)
  | message (limit : Duration)
  | other (text : String)
  deriving DecidableEq, Repr

def Overdue.text : Overdue → String
  | .event kind session limit => s!"no {kind.name} event for '{session}' within {limit.text}"
  | .acknowledgement session request limit =>
    s!"peer of '{session}' did not acknowledge work request {request} within {limit.text}"
  | .message limit => s!"no message from server within {limit.text}"
  | .other text => text

inductive AccessFailure where
  | connectionClosed
  | unknownKey (key : UInt32)
  | notGranted (key : UInt32)
  | outsideRegion (words : Nat) (address : Nat) (key : UInt32)
  | other (text : String)
  deriving DecidableEq, Repr

def AccessFailure.text : AccessFailure → String
  | .connectionClosed => "Connection is closed"
  | .unknownKey key => s!"Unknown rkey {key}"
  | .notGranted key => s!"Region {key} does not grant this access"
  | .outsideRegion words address key =>
    s!"{words} words at {Text.hexadecimal address} fall outside region {key} or are misaligned"
  | .other text => text

inductive ProtocolFailure where
  | shortMetadata (expected actual : Nat)
  | other (text : String)
  deriving DecidableEq, Repr

def ProtocolFailure.text : ProtocolFailure → String
  | .shortMetadata expected actual =>
    s!"Metadata too short: expected {expected} bytes, got {actual}"
  | .other text => text

inductive ConfigFailure where
  | capacityNotPowerOfTwo (store : String) (capacity : Nat)
  | storageTooSmall (store : String) (needed : Nat)
  | regionTooSmall (length needed : Nat)
  | noThreads
  | tooManyQueries (queries keys : Nat)
  | other (text : String)
  deriving DecidableEq, Repr

def ConfigFailure.text : ConfigFailure → String
  | .capacityNotPowerOfTwo store capacity =>
    s!"Capacity of '{store}' must be a power of two, got {capacity}"
  | .storageTooSmall store needed =>
    s!"'{store}' needs at least {needed} bytes of storage to advertise its region"
  | .regionTooSmall length needed =>
    s!"Region of {length} bytes cannot carry {needed} bytes of metadata"
  | .noThreads => "Benchmark needs at least one thread"
  | .tooManyQueries queries keys =>
    s!"Benchmark of {queries} queries exceeds the {keys} distinct keys"
  | .other text => text

inductive Failure where
  | io (text : String)
  | mapping (error : SystemError)
  | allocation (cause : AllocationFailure)
  | transport (cause : TransportFailure)
  | addressInUse (port : UInt16)
  | unexpectedEvent (expected actual : EventKind)
  | timeout (overdue : Overdue)
  | cancelled
  | invalidState (expected actual : String)
  | completion (status : WorkStatus) (request : UInt64)
  | remoteAccess (cause : AccessFailure)
  | protocol (cause : ProtocolFailure)
  | notReady (store : String)
  | indexOutOfRange (index capacity : Nat)
  | worker (text : String)
  | config (cause : ConfigFailure)
  deriving DecidableEq, Repr

def Failure.message : Failure → String
  | io text => "IO error: " ++ text
  | mapping error => "Memory mapping failed: " ++ error.text
  | allocation cause => "Allocation error: " ++ cause.text
  | transport cause => "Transport error: " ++ cause.text
  | addressInUse port => s!"Port {port} is already bound"
  | unexpectedEvent expected actual =>
    s!"Unexpected connection manager event: expected {expected.name}, got {actual.name}"
  | timeout overdue => "Timed out: " ++ overdue.text
  | cancelled => "Operation cancelled"
  | invalidState expected actual =>
    s!"Invalid session state: expected {expected}, found {actual}"
  | completion status request => s!"Work request {request} completed with status {status.name}"
  | remoteAccess cause => "Remote access error: " ++ cause.text
  | protocol cause => "Protocol error: " ++ cause.text
  | notReady store => s!"Store '{store}' is not ready"
  | indexOutOfRange index capacity => s!"Slot index {index} out of range (capacity {capacity})"
  | worker text => "Worker thread failed: " ++ text
  | config cause => "Configuration error: " ++ cause.text

/--
How an operation ends when it has no result: it reports a failure, or it breaks off on a fault and
nothing that stands after the fault is done any more.
-/
inductive Halt where
  | failed (failure : Failure)
  | faulted
  deriving DecidableEq, Repr

end RemoteSlots
