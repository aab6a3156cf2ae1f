import RemoteSlots.World.Basic

/-!
This module contains the handles that the parties of a world hold: event channels, accepted endpoints
and blocks of memory. What a party holds is what it would give back, and the block of its region.
-/

namespace RemoteSlots

inductive Handle where
  | channel (id : ChannelId)
  | endpoint (id : ConnectionId)
  | block (id : BlockId)
  deriving DecidableEq, Repr

def Handle.isBlock : Handle → Bool
  | block _ => true
  | _ => false

namespace Request

def handles : Request → List Handle
  | createChannel => []
  | bind channel _ | listen channel _ | nextEvent channel | accept channel _ _
  | closeChannel channel => [.channel channel]
  | register endpoint extent _ => [.endpoint endpoint.handle, .block extent.block]
  | deregister endpoint _ | send endpoint _ _ _ | poll endpoint | receivePsn endpoint
  | disconnect endpoint => [.endpoint endpoint.handle]

def acquired : (request : Request) → Except Failure request.Reply → List Handle
  | createChannel, .ok channel => [.channel channel]
  | accept .., .ok endpoint => [.endpoint endpoint.handle]
  | _, _ => []

def givesBack? : Request → Option Handle
  | disconnect endpoint => some (.endpoint endpoint.handle)
  | closeChannel channel => some (.channel channel)
  | _ => none

end Request

structure Custody where
  release : List Request
  blocks : List BlockId
  deriving Repr

namespace Custody

def empty : Custody := { release := [], blocks := [] }

def handles (custody : Custody) : List Handle :=
  custody.release.flatMap Request.handles ++ custody.blocks.map .block

theorem mem_handles_of_mem_blocks {custody : Custody} {block : BlockId} (h : block ∈ custody.blocks) :
    .block block ∈ custody.handles :=
  List.mem_append_right _ (List.mem_map.mpr ⟨block, h, rfl⟩)

theorem mem_handles_of_mem_release {custody : Custody} {request : Request} {handle : Handle}
    (h : request ∈ custody.release) (hhandle : handle ∈ request.handles) : handle ∈ custody.handles :=
  List.mem_append_left _ (List.mem_flatMap.mpr ⟨request, h, hhandle⟩)

end Custody

def Phase.custody (phase : Phase) : Custody :=
  { release := phase.release, blocks := phase.region?.toList.map (·.block) }

def Stage.custody : Stage → Custody
  | openChannel _ => .empty
  | bind binding | listen binding => { release := [.closeChannel binding.channel], blocks := [] }
  | giveUp channel _ => { release := [.closeChannel channel], blocks := [] }
  | register binding endpoint extent =>
    { release := (Phase.accepted binding endpoint).release, blocks := [extent.block] }
  | stage => stage.phase.custody

def Initiation.custody : Initiation → Custody
  | run stage => stage.custody
  | allocate binding endpoint => (Phase.accepted binding endpoint).custody
  | clear binding endpoint extent =>
    { release := (Phase.accepted binding endpoint).release, blocks := [extent.block] }
  | giveBack requests _ => { release := requests, blocks := [] }
  | finished (.ok active) => active.phase.custody
  | finished (.error _) => .empty

def CallStage.custody : CallStage → Custody
  | check | claim | .over _ | free (.error _) => .empty
  | initiate initiation => initiation.custody
  | free (.ok active) | publish active => active.phase.custody
  | discard requests => { release := requests, blocks := [] }

def Store.custody (store : Store) : Custody :=
  match store.active with
  | none => .empty
  | some active => active.phase.custody

def FabricId.visible (fabric : FabricId) (handles : List Handle) : List Handle :=
  handles.filter fun handle => fabric = .loopback || handle.isBlock

/--
Whoever can hold handles: a call that initiates a store, a session, or a store that is ready.
-/
inductive Party where
  | call (id : CallId)
  | session (id : SessionId)
  | store (id : StoreId)
  deriving DecidableEq, Repr

namespace World

def custody? (w : World) : Party → Option (FabricId × Custody)
  | .call id => do
    let call ← w.calls[id]?
    let store ← w.stores[call.store]?
    return (store.fabric, call.stage.custody)
  | .session id => w.sessions[id]?.map fun session => (session.fabric, session.stage.custody)
  | .store id => w.stores[id]?.map fun store => (store.fabric, store.custody)

def holdings (w : World) (party : Party) : List Handle :=
  match w.custody? party with
  | none => []
  | some (fabric, custody) => fabric.visible custody.handles

def isHeld (w : World) (handle : Handle) : Bool :=
  w.calls.any (fun id _ => handle ∈ w.holdings (.call id)) ||
    w.sessions.any (fun id _ => handle ∈ w.holdings (.session id)) ||
    w.stores.any (fun id _ => handle ∈ w.holdings (.store id))

def isPrivate (w : World) (block : BlockId) : Bool :=
  w.calls.any fun id _ => .block block ∈ w.holdings (.call id)

def isShared (w : World) (block : BlockId) : Bool :=
  w.memory.isLive block && !w.isPrivate block

def isRegistered (w : World) (block : BlockId) : Bool :=
  w.net.links.any fun _ link => link.regions.any (·.extent.block = block)

def isLoose (w : World) (block : BlockId) : Bool :=
  !w.isHeld (.block block) && !w.isRegistered block

end World

end RemoteSlots
