import RemoteSlots.Proofs.World.Handle
import RemoteSlots.World.Peers
import RemoteSlots.World.Stores

/-!
This module contains everything that can happen in a world, action by action. Between two moves of an
operation any actions of anybody else may come, so a list of actions is one interleaving of all parties.
The guards of an action are what ownership rules out: an operation is not broken off, a session runs one
operation at a time, and nobody uses a handle that belongs to somebody else.
-/

namespace RemoteSlots

inductive Operation where
  | listen (port : UInt16)
  | register (extent : Extent)
  | advertise
  | capture
  deriving DecidableEq, Repr

def Operation.start : Operation → Phase → Except Failure Stage
  | listen port, phase => Stage.startListen phase port
  | register extent, phase => Stage.startRegister phase extent
  | advertise, phase => Stage.startAdvertise phase
  | capture, phase => Stage.startCapture phase

def Operation.block? : Operation → Option BlockId
  | register extent => some extent.block
  | _ => none

inductive Action where
  | step (task : Task) (expired : Bool)
  | createStore (layout : Layout) (config : StoreConfig) (fabric : FabricId)
  | initiate (store : StoreId)
  | endCall (call : CallId)
  | dropStore (store : StoreId)
  | cancelStore (store : StoreId) (cancelled : Bool)
  | clearStore (store : StoreId)
  | putSlot (store : StoreId) (index : Nat) (words : List UInt32)
  | pull (store : StoreId)
  | pullLogs (stores : List StoreId) (pulls : Nat)
  | pollStore (store : StoreId)
  | inspectStore (store : StoreId)
  | allocateSpare (store : StoreId)
  | createSession (name : String) (config : SessionConfig) (fabric : FabricId)
  | startSession (session : SessionId) (operation : Operation)
  | cancelSession (session : SessionId) (cancelled : Bool)
  | pollSession (session : SessionId)
  | inspectSession (session : SessionId)
  | dropSession (session : SessionId)
  | createScript (script : Script)
  | takeEntries (script : Nat)
  | allocate (pages : PagePolicy) (length : Nat)
  | fill (block : BlockId) (start : Nat) (words : List UInt32)
  | zero (block : BlockId)
  -- The last party that could reach a block lets go of it.
  | unmap (block : BlockId)
  | connect (port : UInt16)
  | inject (port : UInt16) (kind : EventKind) (status : Int)
  | receive (peer : ConnectionId) (limit : Duration)
  -- A one-sided write of a peer, at whichever address and under whichever key.
  | write (peer : ConnectionId) (request : UInt64) (address : UInt64) (key : UInt32)
    (words : List UInt32)
  | hangUp (peer : ConnectionId)
  -- A request on a channel or an endpoint that no session has.
  | request (request : Request)

namespace World

def isOpenTo (w : World) (request : Request) : Bool :=
  request.handles.all fun
    | .channel id => id ≤ w.net.lastId && !w.isHeld (.channel id)
    | .endpoint id => w.net.links[id]?.any (·.acceptedBy.isSome) && !w.isHeld (.endpoint id)
    | .block id => w.isShared id

def isAtRest (w : World) (task : Task) : Bool := (w.result? task).isSome

def withStore (w : World) (id : StoreId) (f : Store → World) : World :=
  match w.stores[id]? with
  | none => w
  | some store => f store

def withSession (w : World) (id : SessionId) (f : Session → World) : World :=
  match w.sessions[id]? with
  | none => w
  | some session => if w.isAtRest (.session id) then f session else w

def orElse (w : World) : Except ε World → World
  | .ok w => w
  | .error _ => w

def act (w : World) : Action → World
  | .step task expired => (w.step task expired).2
  | .createStore layout config fabric => w.orElse ((w.createStore layout config fabric).map (·.2))
  | .initiate store => w.withStore store fun _ => (w.startInitiation store).2
  | .endCall call => if w.isAtRest (.call call) then w.endCall call else w
  | .dropStore store => w.dropStore store
  | .cancelStore store cancelled => w.setCancelled store cancelled
  | .clearStore store => w.withStore store fun store => (w.clearStorage store).2
  | .putSlot store index words =>
    w.withStore store fun store =>
      w.orElse (w.putSlot store index (Slot.load words : Slot store.layout))
  | .pull id => w.withStore id fun store => w.orElse ((w.pull store id).map (·.2))
  | .pullLogs stores pulls => w.orElse ((w.benchmarkLogs stores pulls).map (·.2))
  | .pollStore store => w.withStore store fun store => (w.storePoll store).2
  | .inspectStore store => w.withStore store fun store => (w.storeInfo store).2
  | .allocateSpare store =>
    w.withStore store fun store => w.orElse ((w.allocateSpare store).map (·.2))
  | .createSession name config fabric => (w.createSession name config fabric).2
  | .startSession session operation =>
    if w.isAtRest (.session session) && operation.block?.all w.isShared then
      w.orElse (w.startSession session operation.start)
    else w
  | .cancelSession session cancelled => w.setSessionCancelled session cancelled
  | .pollSession id => w.withSession id fun session => (w.pollOnce session.fabric session.phase).2
  | .inspectSession id =>
    w.withSession id fun session => (w.transportInfo session.fabric session.phase).2
  | .dropSession id => w.withSession id fun _ => w.dropSession id
  | .createScript script => (w.createScript script).2
  | .takeEntries script => (w.takeEntries script).2
  | .allocate pages length => w.orElse ((w.allocate pages length).map (·.2))
  | .fill block start words =>
    if w.isShared block then { w with memory := w.memory.store block start words } else w
  | .zero block => if w.isShared block then { w with memory := w.memory.clear block } else w
  | .unmap block => if w.isLoose block then { w with memory := w.memory.unmap block } else w
  | .connect port => w.orElse ((w.connect port).map (·.2))
  | .inject port kind status => w.orElse (w.inject port kind status)
  | .receive peer limit => (w.receive peer limit).2
  | .write peer request address key words => (w.write peer request address key words).2
  | .hangUp peer => w.hangUp peer
  | .request request => if w.isOpenTo request then (w.serve .loopback request).2 else w

def after (w : World) (actions : List Action) : World := actions.foldl act w

def observe (look : World → Action → List α) (w : World) : List Action → List α
  | [] => []
  | action :: actions => look w action ++ observe look (w.act action) actions

def initial (mapper : Mapper) (now : Duration) : World :=
  { World.empty with now, memory := .emptyOf mapper }

/--
Whether a world can come about.
-/
def Reachable (w : World) : Prop := ∃ mapper now actions, w = (initial mapper now).after actions

end World

end RemoteSlots
