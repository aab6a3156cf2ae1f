import RemoteSlots.World.Basic

/-!
This module contains what can be done with transport sessions: running their operations, looking at
their transport, cancelling and dropping them.
-/

namespace RemoteSlots

namespace World

def pollOnce (w : World) (fabric : FabricId) (phase : Phase) : Except Failure Poll × World :=
  match phase with
  | .accepted _ endpoint | .registered _ endpoint _ | .advertised _ endpoint _
  | .ready _ endpoint _ _ =>
    match w.serve fabric (.poll endpoint) with
    | (.ok completion?, w) => (.ok (Poll.ofCompletion? completion?), w)
    | (.error failure, w) => (.error failure, w)
  | phase => (.error (phase.unexpected .accepted), w)

def transportInfo (w : World) (fabric : FabricId) (phase : Phase) :
    Except Failure TransportInfo × World :=
  match phase with
  | .ready _ endpoint region baseline =>
    match w.serve fabric (.receivePsn endpoint) with
    | (.ok psn, w) =>
      (.ok
        { queuePair := endpoint.queuePair
          keys := region.keys
          receivePsn := .ofWord psn
          baseline }, w)
    | (.error failure, w) => (.error failure, w)
  | phase => (.error (phase.unexpected .ready), w)

def createSession (w : World) (name : String) (config : SessionConfig) (fabric : FabricId) :
    SessionId × World :=
  let id := w.lastId + 1
  (id, { w with lastId := id, sessions := w.sessions.insert id (.new name config fabric) })

def startSession (w : World) (id : SessionId) (start : Phase → Except Failure Stage) :
    Except Failure World :=
  match w.sessions[id]? with
  | none => .ok w
  | some session => do
    let stage ← start session.phase
    return { w with sessions := w.sessions.insert id { session with stage } }

def extentOf (w : World) (block : BlockId) : Extent :=
  { block, address := w.memory.base block, length := w.memory.length block }

def setSessionCancelled (w : World) (id : SessionId) (cancelled : Bool) : World :=
  { w with sessions := w.sessions.modify id fun session => { session with cancelled } }

def dropSession (w : World) (id : SessionId) : World :=
  match w.sessions[id]? with
  | none => w
  | some session =>
    let w := w.serveAll session.fabric session.phase.release
    { w with sessions := w.sessions.erase id }

def createScript (w : World) (script : Script) : Nat × World :=
  let id := w.lastId + 1
  (id, { w with lastId := id, scripts := w.scripts.insert id script })

def takeEntries (w : World) (id : Nat) : List Script.Entry × World :=
  match w.scripts[id]? with
  | none => ([], w)
  | some script =>
    (script.entries, { w with scripts := w.scripts.insert id { script with entries := [] } })

end World

end RemoteSlots
