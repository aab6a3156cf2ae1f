import RemoteSlots.Fabric.Loopback.Server
import RemoteSlots.Fabric.Script
import RemoteSlots.Store.Initiation

/-!
This module contains the world in which stores, sessions and peers live: one memory, one loopback
fabric, any number of scripted fabrics, and the operations in progress. `World.step` makes one move
of one operation; whatever happens between two moves is up to everybody else.

A move makes one request at most, and a fabric answers a request in one piece. What others could do
while an answer is still being worked out is not a part of any run.
-/

namespace RemoteSlots

abbrev StoreId := Nat

abbrev SessionId := Nat

abbrev CallId := Nat

structure Session where
  name : String
  config : SessionConfig
  fabric : FabricId
  -- Whether waits are to give up.
  cancelled : Bool
  stage : Stage

namespace Session

def new (name : String) (config : SessionConfig) (fabric : FabricId) : Session :=
  { name, config, fabric, cancelled := false, stage := .rest .unbound (.ok ()) }

def phase (session : Session) : Phase := session.stage.phase

end Session

/--
The state of everything. Stores, sessions, scripts and calls are numbered from one counter.
-/
structure World where
  -- What the clock shows. The time that passes meanwhile only matters as limits that expire.
  now : Duration
  memory : Memory
  net : Loopback
  lastId : Nat
  scripts : Std.TreeMap Nat Script
  sessions : Std.TreeMap SessionId Session
  stores : Std.TreeMap StoreId Store
  -- The calls that initiate a store, and how far each of them is.
  calls : Std.TreeMap CallId Call

inductive Task where
  | call (id : CallId)
  | session (id : SessionId)
  deriving DecidableEq, Repr

structure Exchange where
  request : Request
  reply : Except Failure request.Reply

def Exchange.fulfilled (exchange : Exchange) : Bool := exchange.reply.isOk

namespace World

def empty : World :=
  { now := .zero
    memory := .empty
    net := .empty
    lastId := 0
    scripts := ∅
    sessions := ∅
    stores := ∅
    calls := ∅ }

instance : Inhabited World := ⟨empty⟩

def serve (w : World) (fabric : FabricId) (request : Request) :
    Except Failure request.Reply × World :=
  match fabric with
  | .loopback =>
    let (reply, net) := w.net.serve w.memory request
    (reply, { w with net })
  | .script id =>
    match w.scripts[id]? with
    | none => (.error (.transport .channelClosed), w)
    | some script =>
      let (reply, script) := script.serve w.memory request
      (reply, { w with scripts := w.scripts.insert id script })

def serveAll (w : World) (fabric : FabricId) (requests : List Request) : World :=
  requests.foldl (fun w request => (w.serve fabric request).2) w

def perform (w : World) (fabric : FabricId) (move : Move σ) : σ × Option Exchange × World :=
  match move with
  | .ask request resume =>
    let (reply, w) := w.serve fabric request
    (resume reply, some ⟨request, reply⟩, w)
  | .write block start words next =>
    (next, none, { w with memory := w.memory.store block start words })
  | .map pages length resume =>
    match w.memory.allocate pages length with
    | .ok (block, memory) =>
      (resume (.ok { block, address := memory.base block, length }), none, { w with memory })
    | .error halt => (resume (.error halt), none, w)
  | .clear block next => (next, none, { w with memory := w.memory.clear block })
  | .pass next => (next, none, w)

def setStage (w : World) (id : CallId) (call : Call) (stage : CallStage) : World :=
  { w with calls := w.calls.insert id { call with stage } }

def stepCall (w : World) (id : CallId) (call : Call) (store : Store) (expired : Bool) :
    Option Exchange × World :=
  match call.stage with
  | .check =>
    if store.isReady then
      (none, w.setStage id call (.over (.error (.failed (Call.tooLate "Ready")))))
    else
      (none, w.setStage id call .claim)
  | .claim =>
    if store.initiating then
      (none, w.setStage id call (.over (.error (.failed (Call.tooLate "initiating")))))
    else
      let w := { w with stores := w.stores.insert call.store { store with initiating := true } }
      (none, w.setStage id call (.initiate (.start store.config)))
  | .initiate (.finished (.ok active)) => (none, w.setStage id call (.free (.ok active)))
  | .initiate (.finished (.error (.failed failure))) =>
    (none, w.setStage id call (.free (.error failure)))
  | .initiate (.finished (.error .faulted)) =>
    (none, w.setStage id call (.over (.error .faulted)))
  | .initiate initiation =>
    let signals := { cancelled := store.cancelled, expired, now := w.now }
    let (initiation, exchange, w) :=
      w.perform store.fabric (initiation.next store.layout store.config signals)
    (exchange, w.setStage id call (.initiate initiation))
  | .free result =>
    let w := { w with stores := w.stores.insert call.store { store with initiating := false } }
    match result with
    | .ok active => (none, w.setStage id call (.publish active))
    | .error failure => (none, w.setStage id call (.over (.error (.failed failure))))
  | .publish active =>
    if store.isReady then
      (none, w.setStage id call (.discard active.phase.release))
    else
      let w := { w with stores := w.stores.insert call.store { store with active := some active } }
      (none, w.setStage id call (.over (.ok ())))
  | .discard (request :: requests) =>
    let (reply, w) := w.serve store.fabric request
    (some ⟨request, reply⟩, w.setStage id call (.discard requests))
  | .discard [] => (none, w.setStage id call (.over (.error (.failed (Call.tooLate "Ready")))))
  | .over _ => (none, w)

def stepSession (w : World) (id : SessionId) (session : Session) (expired : Bool) :
    Option Exchange × World :=
  let signals := { cancelled := session.cancelled, expired, now := w.now }
  let (stage, exchange, w) :=
    w.perform session.fabric (session.stage.next session.name session.config signals)
  (exchange, { w with sessions := w.sessions.insert id { session with stage } })

def step (w : World) (task : Task) (expired : Bool) : Option Exchange × World :=
  match task with
  | .call id =>
    match w.calls[id]? with
    | none => (none, w)
    | some call =>
      match w.stores[call.store]? with
      | none => (none, w)
      | some store => w.stepCall id call store expired
  | .session id =>
    match w.sessions[id]? with
    | none => (none, w)
    | some session => w.stepSession id session expired

def result? (w : World) (task : Task) : Option (Except Halt Unit) :=
  match task with
  | .call id =>
    match w.calls[id]? with
    | none => some (.ok ())
    | some call => call.result?
  | .session id =>
    match w.sessions[id]? with
    | none => some (.ok ())
    | some session => session.stage.result?

def stage? (w : World) (task : Task) : Option (Stage × SessionConfig × FabricId × Bool) :=
  match task with
  | .call id => do
    let call ← w.calls[id]?
    let store ← w.stores[call.store]?
    let stage ← call.sessionStage?
    return (stage, store.config.session, store.fabric, store.cancelled)
  | .session id => do
    let session ← w.sessions[id]?
    return (session.stage, session.config, session.fabric, session.cancelled)

def upcoming? (w : World) (task : Task) : Option Request := do
  let (stage, config, _, cancelled) ← w.stage? task
  (stage.next "" config { cancelled, expired := false, now := w.now }).request?

end World

end RemoteSlots
