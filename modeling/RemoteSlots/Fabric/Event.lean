/-!
This module contains the events that a connection manager delivers to a listening channel.
-/

namespace RemoteSlots

abbrev ConnectionId := Nat

/--
What an event reports. Kinds without a name of their own carry their code.
-/
inductive EventKind where
  | connectRequest
  | established
  | rejected
  | unreachable
  | disconnected
  | other (code : UInt32)
  deriving DecidableEq, Repr

def EventKind.name : EventKind → String
  | .connectRequest => "ConnectRequest"
  | .established => "Established"
  | .rejected => "Rejected"
  | .unreachable => "Unreachable"
  | .disconnected => "Disconnected"
  | .other code => s!"Other({code})"

structure Event where
  kind : EventKind
  connection : ConnectionId
  status : Int
  deriving DecidableEq, Repr

end RemoteSlots
