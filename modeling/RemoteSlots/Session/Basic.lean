import RemoteSlots.Fabric.Psn
import RemoteSlots.Fabric.Request
import RemoteSlots.Session.State

/-!
This module contains what a transport session holds at each point of its life. The channel, the
endpoint, the region and the baseline of the sequence numbers are acquired in this order and only
given back all together, when the session is released.
-/

namespace RemoteSlots

structure Binding where
  channel : ChannelId
  port : UInt16
  deriving DecidableEq, Repr

inductive Phase where
  | unbound
  | listening (binding : Binding)
  | requested (binding : Binding) (endpoint : Option Endpoint)
  | accepted (binding : Binding) (endpoint : Endpoint)
  | registered (binding : Binding) (endpoint : Endpoint) (region : Region)
  | advertised (binding : Binding) (endpoint : Endpoint) (region : Region)
  | ready (binding : Binding) (endpoint : Endpoint) (region : Region) (baseline : Psn)
  deriving DecidableEq, Repr

namespace Phase

def state : Phase → SessionState
  | unbound => .unbound
  | listening .. => .listening
  | requested .. => .connectRequestReceived
  | accepted .. => .accepted
  | registered .. => .regionRegistered
  | advertised .. => .metadataAdvertised
  | ready .. => .ready

def binding? : Phase → Option Binding
  | unbound => none
  | listening binding | requested binding _ | accepted binding _ | registered binding _ _
  | advertised binding _ _ | ready binding _ _ _ => some binding

def endpoint? : Phase → Option Endpoint
  | unbound | listening _ => none
  | requested _ endpoint => endpoint
  | accepted _ endpoint | registered _ endpoint _ | advertised _ endpoint _
  | ready _ endpoint _ _ => some endpoint

def region? : Phase → Option Region
  | unbound | listening _ | requested .. | accepted .. => none
  | registered _ _ region | advertised _ _ region | ready _ _ region _ => some region

def baseline? : Phase → Option Psn
  | ready _ _ _ baseline => some baseline
  | _ => none

def unexpected (phase : Phase) (expected : SessionState) : Failure :=
  .invalidState expected.name phase.state.name

/--
The requests that give back what a session holds, in this order: the region before the connection,
and the connection before the channel. Whatever the fabric replies, the next one follows.
-/
def release (phase : Phase) : List Request :=
  (match phase.endpoint? with
  | none => []
  | some endpoint =>
    (match phase.region? with
    | none => []
    | some region => [.deregister endpoint region.keys]) ++ [.disconnect endpoint]) ++
  (match phase.binding? with
  | none => []
  | some binding => [.closeChannel binding.channel])

end Phase

structure TransportInfo where
  queuePair : UInt32
  keys : RegionKeys
  receivePsn : Psn
  baseline : Psn
  deriving DecidableEq, Repr

def TransportInfo.drift (info : TransportInfo) : Psn :=
  Psn.drift info.receivePsn info.baseline

end RemoteSlots
