import RemoteSlots.Fabric.Request
import RemoteSlots.Memory.Basic

/-!
This module contains the scripted fabric, which answers requests from lists that were written down
beforehand, fails the requests it was told to fail, and keeps a record of what it was asked.
-/

namespace RemoteSlots

namespace Script

inductive Call where
  | createChannel
  | bind
  | listen
  | nextEvent
  | accept
  | register
  | deregister
  | send
  | poll
  | receivePsn
  | disconnect
  deriving DecidableEq, Repr

def Call.ofRequest? : Request → Option Call
  | .createChannel => some createChannel
  | .bind .. => some bind
  | .listen .. => some listen
  | .nextEvent _ => some nextEvent
  | .accept .. => some accept
  | .register .. => some register
  | .deregister .. => some deregister
  | .send .. => some send
  | .poll _ => some poll
  | .receivePsn _ => some receivePsn
  | .disconnect _ => some disconnect
  | .closeChannel _ => none

def Call.isRecorded : Call → Bool
  | nextEvent | poll | receivePsn => false
  | _ => true

/--
A recorded request: for a message also the address of the region that its endpoint registered last
and the first words that stood in memory at the address it was sent from.
-/
structure Entry where
  request : Request
  regionAddress : Nat
  words : List UInt32
  deriving Repr

end Script

structure Script where
  -- What looking for an event finds, look by look; afterwards nothing.
  events : List (Option Event)
  -- What looking for a completion finds, look by look; afterwards nothing.
  completions : List (Option Completion)
  -- Whether the first of the completions is found for ever.
  chatter : Bool
  -- The sequence numbers in turn; the last one stays.
  psns : List UInt32
  queuePair : UInt32
  keys : RegionKeys
  -- The calls that fail, with the text of their failure.
  faults : List (Script.Call × String)
  -- The number of the endpoints that were accepted; each is known by its place among them.
  accepted : Nat := 0
  -- The addresses of the regions that were registered, each with its endpoint, newest first.
  regions : List (Nat × Nat) := []
  -- The recorded requests, oldest first.
  entries : List Script.Entry := []
  deriving Repr

namespace Script

def fault? (script : Script) (request : Request) : Option Failure := do
  let call ← Call.ofRequest? request
  let text ← script.faults.lookup call
  return .transport (.other text)

def record (script : Script) (memory : Memory) (request : Request) : Script :=
  match Call.ofRequest? request with
  | none => script
  | some call =>
    if call.isRecorded then
      let entry : Entry :=
        match request with
        | .send endpoint _ element _ =>
          { request
            regionAddress := (script.regions.lookup endpoint.handle).getD 0
            words := wordsAt element.address }
        | _ => { request, regionAddress := 0, words := [] }
      { script with entries := script.entries ++ [entry] }
    else
      script
where
  -- The four words at an address, in whichever block it lies that is mapped.
  wordsAt (address : Nat) : List UInt32 :=
    match memory.blocks.findIdx? fun b => b.live && b.base ≤ address && address < b.base + b.length with
    | some block => memory.loadAt block address 4
    | none => []

def nextCompletion (script : Script) : Option Completion × Script :=
  match script.completions with
  | [] => (none, script)
  | completion :: rest =>
    (completion, if script.chatter then script else { script with completions := rest })

def nextPsn (script : Script) : UInt32 × Script :=
  match script.psns with
  | [] => (0, script)
  | [psn] => (psn, script)
  | psn :: rest => (psn, { script with psns := rest })

def reply (script : Script) : (request : Request) → request.Reply × Script
  | .createChannel => (0, script)
  | .nextEvent _ =>
    match script.events with
    | [] => (none, script)
    | event :: events => (event, { script with events })
  | .accept .. =>
    ({ handle := script.accepted, queuePair := script.queuePair },
      { script with accepted := script.accepted + 1 })
  | .register endpoint extent _ =>
    (script.keys, { script with regions := (endpoint.handle, extent.address) :: script.regions })
  | .poll _ => script.nextCompletion
  | .receivePsn _ => script.nextPsn
  | .bind .. | .listen .. | .deregister .. | .send .. | .disconnect _ | .closeChannel _ =>
    ((), script)

def serve (script : Script) (memory : Memory) (request : Request) :
    Except Failure request.Reply × Script :=
  let script := script.record memory request
  match script.fault? request with
  | some failure => (.error failure, script)
  | none =>
    let (reply, script) := script.reply request
    (.ok reply, script)

end Script

end RemoteSlots
