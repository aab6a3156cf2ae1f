import RemoteSlots.Session.Stage
import RemoteSlots.Store.Basic

/-!
This module contains the initiation of a store, move by move. It runs the operations of a session one
after the other, allocates the storage in between, and either ends with everything that makes the
store ready or gives everything back.
-/

namespace RemoteSlots

inductive Initiation where
  | run (stage : Stage)
  -- A peer is connected, and the storage is to be allocated.
  | allocate (binding : Binding) (endpoint : Endpoint)
  -- The storage is to be zeroed.
  | clear (binding : Binding) (endpoint : Endpoint) (extent : Extent)
  | giveBack (requests : List Request) (halt : Halt)
  | finished (result : Except Halt Active)

namespace Initiation

def start (config : StoreConfig) : Initiation :=
  run (.openChannel config.port)

def abandon (phase : Phase) (halt : Halt) : Initiation :=
  giveBack phase.release halt

def after (phase : Phase) (result : Except Halt Unit) : Initiation :=
  match result, phase with
  | .ok (), .accepted binding endpoint => allocate binding endpoint
  | .ok (), .registered binding endpoint region => run (.announce binding endpoint region)
  | .ok (), .advertised binding endpoint region => run (.capture binding endpoint region)
  | .ok (), .ready binding endpoint region baseline =>
    finished (.ok { binding, endpoint, region, baseline })
  | .ok (), phase => abandon phase (.failed (phase.unexpected .accepted))
  | .error halt, phase => abandon phase halt

def next (layout : Layout) (config : StoreConfig) (signals : Signals) :
    Initiation → Move Initiation
  | run (.rest phase result) => .pass (after phase result)
  | run stage => (stage.next config.name config.session signals).embed run
  | allocate binding endpoint =>
    match Storage.byteSize layout config.capacity with
    | .error failure => .pass (abandon (.accepted binding endpoint) (.failed failure))
    | .ok size =>
      .map config.pages size fun
        | .error halt => abandon (.accepted binding endpoint) halt
        | .ok extent =>
          if Store.zeroesFirst layout then clear binding endpoint extent
          else run (.register binding endpoint extent)
  | clear binding endpoint extent => .clear extent.block (run (.register binding endpoint extent))
  | giveBack (request :: requests) halt => .ask request fun _ => giveBack requests halt
  | giveBack [] halt => .pass (finished (.error halt))
  | finished result => .pass (finished result)

end Initiation

/--
Where a call that initiates a store stands. The store is claimed before the initiation starts, and
given free again before what it acquired is published.
-/
inductive CallStage where
  -- The store must not be ready.
  | check
  -- The store must not be claimed by another call.
  | claim
  | initiate (initiation : Initiation)
  -- Give the store free again.
  | free (result : Except Failure Active)
  -- Make the store ready, unless it became ready in the meantime.
  | publish (active : Active)
  | discard (requests : List Request)
  | over (result : Except Halt Unit)

structure Call where
  store : Nat
  stage : CallStage

namespace Call

def tooLate (actual : String) : Failure := .invalidState "not initiated" actual

def result? (call : Call) : Option (Except Halt Unit) :=
  match call.stage with
  | .over result => some result
  | _ => none

def sessionStage? (call : Call) : Option Stage :=
  match call.stage with
  | .initiate (.run stage) => some stage
  | _ => none

end Call

end RemoteSlots
