import RemoteSlots.Proofs.Fabric.CompletionQueue
import RemoteSlots.Proofs.World.Upkeep

/-!
This module follows the completion queue of a connection from the moment its peer connects: completions are taken
in the order in which they were posted, each at most once, and from the moment the connection is accepted one is
lost exactly if the queue is full. What was posted before that moment may already exceed the bound.
-/

namespace RemoteSlots

open Std

def Phase.look? (phase : Phase) (fabric : FabricId) : Option Request :=
  match fabric, phase with
  | .loopback, accepted _ endpoint | .loopback, registered _ endpoint _ | .loopback, advertised _ endpoint _
  | .loopback, ready _ endpoint _ _ => some (.poll endpoint)
  | _, _ => none

theorem Phase.isAside_of_mem_release (phase : Phase) : ∀ request ∈ phase.release, request.isAside := by
  unfold Phase.release
  rcases phase.endpoint? with _ | endpoint <;> rcases phase.region? with _ | region <;>
    rcases phase.binding? with _ | binding <;> simp [Request.isAside]

namespace World

variable {w : World} {k : ConnectionId}

def fabric? (w : World) : Task → Option FabricId
  | .call id => w.calls[id]?.bind fun call => w.stores[call.store]?.map (·.fabric)
  | .session id => w.sessions[id]?.map (·.fabric)

def served? (w : World) : Action → Option Request
  | .step task expired => if w.fabric? task = some .loopback then (w.step task expired).1.map (·.request) else none
  | .pollStore id => w.stores[id]?.bind fun store => store.active.bind fun active => active.phase.look? store.fabric
  | .pollSession id =>
    if w.isAtRest (.session id) then w.sessions[id]?.bind fun session => session.phase.look? session.fabric else none
  | .request request => if w.isOpenTo request then some request else none
  | _ => none

def taken? (k : ConnectionId) (w : World) (action : Action) : Option Completion :=
  (w.served? action).bind (w.net.taken? k)

def posted? (k : ConnectionId) (w : World) : Action → Option Completion
  | .write peer request address key words =>
    if peer = k then w.net.links[k]?.bind (·.refusal? request address key words.length) else none
  | action => (w.served? action).bind (w.net.posted? w.memory k)

def taken (k : ConnectionId) (w : World) (action : Action) : List Completion := (w.taken? k action).toList

def posted (k : ConnectionId) (w : World) (action : Action) : List Completion := (w.posted? k action).toList

def kept (k : ConnectionId) (w : World) (action : Action) : List Completion :=
  if w.net.isFull k then [] else w.posted k action

theorem net_pollOnce (w : World) (fabric : FabricId) (phase : Phase) :
    (w.pollOnce fabric phase).2.net =
      (phase.look? fabric).elim w.net fun request => (w.net.serve w.memory request).2 := by
  have hask : ∀ endpoint : Endpoint, ((w.serve fabric (.poll endpoint)).2).net =
      (match fabric with | .loopback => some (.poll endpoint) | _ => none : Option Request).elim w.net
        fun request => (w.net.serve w.memory request).2 := by
    intro endpoint
    cases fabric with
    | loopback => rfl
    | script id => exact net_serve_script w _ id
  cases phase with
  | unbound | listening | requested => cases fabric <;> rfl
  | accepted binding endpoint | registered binding endpoint | advertised binding endpoint
  | ready binding endpoint =>
    have hlook := hask endpoint
    simp only [pollOnce]
    split <;> next h => rw [h] at hlook; cases fabric <;> exact hlook

inductive Asks (w : World) (action : Action) : Prop
  | peer (hpeer : action.isPeer)
  | one {request : Request} (hserved : w.served? action = some request)
    (hnet : (w.act action).net = (w.net.serve w.memory request).2)
  | aside {requests : List Request} (hserved : w.served? action = none)
    (haside : ∀ request ∈ requests, request.isAside)
    (hnet : (w.act action).net = w.net.serveAll w.memory requests)

theorem Asks.of_net_eq {action : Action} (hserved : w.served? action = none) (hnet : (w.act action).net = w.net) :
    w.Asks action := by
  have hnone : ∀ request ∈ ([] : List Request), request.isAside := fun _ hmem => by contradiction
  exact .aside hserved hnone hnet

theorem Asks.of_served {action : Action}
    (hnet : (w.act action).net =
      (w.served? action).elim w.net fun request => (w.net.serve w.memory request).2) : w.Asks action := by
  rcases hserved : w.served? action with _ | request
  · exact .of_net_eq hserved (by rw [hnet, hserved]; rfl)
  · exact .one hserved (by rw [hnet, hserved]; rfl)

theorem net_perform_elim (w : World) (fabric : FabricId) (move : Move σ) :
    (w.perform fabric move).2.2.net =
      (if fabric = .loopback then (w.perform fabric move).2.1.map (·.request) else none).elim w.net
        fun request => (w.net.serve w.memory request).2 := by
  cases fabric with
  | loopback =>
    cases move with
    | map pages length resume =>
      simp only [perform]
      split <;> rfl
    | _ => rfl
  | script id =>
    cases move with
    | ask request resume => exact net_serve_script w request id
    | map pages length resume =>
      simp only [perform]
      split <;> rfl
    | _ => rfl

theorem asks_step (w : World) (task : Task) (expired : Bool) : w.Asks (.step task expired) := by
  apply Asks.of_served
  cases task with
  | session id =>
    rcases hsession : w.sessions[id]? with _ | session
    · simp [served?, fabric?, act, step, hsession]
    · simp only [served?, fabric?, act, step, hsession, Option.map_some, Option.some.injEq]
      exact net_perform_elim w session.fabric _
  | call id =>
    rcases hcall : w.calls[id]? with _ | call
    · simp [served?, fabric?, act, step, hcall]
    · rcases hstore : w.stores[call.store]? with _ | store
      · simp [served?, fabric?, act, step, hcall, hstore]
      · have hspec := stepCall_spec hcall hstore expired
        simp only [served?, fabric?, act, step, hcall, hstore, Option.bind_some, Option.map_some,
          Option.some.injEq]
        rw [hspec.net, hspec.exchange]
        exact net_perform_elim w store.fabric _

theorem net_serveAll_script (w : World) (id : Nat) (requests : List Request) :
    (w.serveAll (.script id) requests).net = w.net := by
  unfold serveAll
  induction requests generalizing w with
  | nil => rfl
  | cons request requests ih => exact (ih _).trans (net_serve_script w request id)

theorem Asks.of_release {action : Action} {w' : World} {fabric : FabricId} {phase : Phase}
    (hact : (w.act action).net = (w'.serveAll fabric phase.release).net) (hserved : w.served? action = none)
    (hnet : w'.net = w.net) (hmemory : w'.memory = w.memory) : w.Asks action := by
  cases fabric with
  | loopback =>
    exact .aside hserved phase.isAside_of_mem_release (by rw [hact, net_serveAll, hnet, hmemory])
  | script id => exact .of_net_eq hserved (by rw [hact, net_serveAll_script, hnet])

theorem Asks.of_reap {action : Action} {w' : World} {id : StoreId} (hact : (w.act action).net = (w'.reap id).net)
    (hserved : w.served? action = none) (hnet : w'.net = w.net) (hmemory : w'.memory = w.memory) :
    w.Asks action := by
  rcases reap_eq w' id with heq | ⟨store, -, -, heq⟩
  · exact .of_net_eq hserved (by rw [hact, heq, hnet])
  · rw [heq] at hact
    rcases hactive : store.active with _ | active
    · have hempty : store.custody.release = [] := by simp [Store.custody, hactive, Custody.empty]
      rw [hempty] at hact
      exact .of_net_eq hserved (hact.trans hnet)
    · have hrelease : store.custody.release = active.phase.release := by simp [Store.custody, hactive, Phase.custody]
      rw [hrelease] at hact
      exact .of_release hact hserved hnet hmemory

theorem net_transportInfo (w : World) (fabric : FabricId) (phase : Phase) :
    (w.transportInfo fabric phase).2.net = w.net := by
  cases phase with
  | ready binding endpoint region baseline =>
    have hnet : (w.serve fabric (.receivePsn endpoint)).2.net = w.net := by
      cases fabric with
      | loopback => rfl
      | script id => exact net_serve_script w _ id
    simp only [transportInfo]
    split <;> next h => rw [h] at hnet; exact hnet
  | _ => rfl

theorem asks_act (w : World) (action : Action) : w.Asks action := by
  cases action with
  | connect | inject | receive | write | hangUp | unmap => exact .peer rfl
  | step task expired => exact asks_step w task expired
  | pollStore id =>
    apply Asks.of_served
    simp only [served?, act, withStore]
    rcases w.stores[id]? with _ | store
    · rfl
    · simp only [storePoll, Store.active?, Option.bind_some]
      rcases store.active with _ | active
      · rfl
      · exact net_pollOnce w store.fabric active.phase
  | pollSession id =>
    apply Asks.of_served
    simp only [served?, act, withSession]
    rcases w.sessions[id]? with _ | session
    · simp
    · by_cases hrest : w.isAtRest (.session id)
      · simp only [hrest, if_true]
        exact net_pollOnce w session.fabric session.phase
      · simp [hrest]
  | inspectStore id =>
    apply Asks.of_net_eq rfl
    simp only [act, withStore]
    split
    · rfl
    · next store _ =>
      simp only [storeInfo]
      split
      · exact net_transportInfo w store.fabric _
      · rfl
  | inspectSession id =>
    apply Asks.of_net_eq rfl
    simp only [act]
    rcases withSession_eq w id fun session => (w.transportInfo session.fabric session.phase).2 with
      heq | ⟨session, -, -, heq⟩
    · rw [heq]
    · rw [heq]
      exact net_transportInfo w session.fabric session.phase
  | endCall id =>
    by_cases hrest : w.isAtRest (.call id)
    · rcases hcall : w.calls[id]? with _ | call
      · exact .of_net_eq rfl (by simp [act, hrest, endCall, hcall])
      · have hact : (w.act (.endCall id)).net = (World.reap { w with calls := w.calls.erase id } call.store).net := by
          simp only [act, hrest, if_true, endCall, hcall]
        exact .of_reap hact rfl rfl rfl
    · exact .of_net_eq rfl (by simp [act, hrest])
  | dropStore id =>
    have hact : (w.act (.dropStore id)).net = (World.reap { w with
        stores := w.stores.modify id fun store => { store with dropped := true } } id).net := rfl
    exact .of_reap hact rfl rfl rfl
  | dropSession id =>
    rcases act_dropSession w id with heq | ⟨session, -, -, heq⟩
    · exact .of_net_eq rfl (by rw [heq])
    · have hact : (w.act (.dropSession id)).net = (w.serveAll session.fabric session.phase.release).net := by
        rw [heq]
      exact .of_release hact rfl rfl rfl
  | request request =>
    apply Asks.of_served
    simp only [served?, act]
    split <;> rfl
  | startSession id operation =>
    rcases act_startSession w id operation with heq | ⟨_, _, -, -, -, heq⟩
    · exact .of_net_eq rfl (by rw [heq])
    · exact .of_net_eq rfl (by rw [heq])
  | pullLogs ids pulls =>
    apply Asks.of_net_eq rfl
    simp only [act, benchmarkLogs]
    split
    · rfl
    · exact (carries_pullMany w pulls ids).2.2.2
  | createStore layout config fabric =>
    apply Asks.of_net_eq rfl
    simp only [act, createStore]
    rcases Store.new layout config fabric with failure | store <;> rfl
  | initiate id | clearStore id =>
    apply Asks.of_net_eq rfl
    simp only [act, withStore, clearStorage]
    split
    · rfl
    · first | rfl | (split <;> rfl)
  | cancelStore | createSession | cancelSession | createScript => exact .of_net_eq rfl rfl
  | putSlot id index words =>
    apply Asks.of_net_eq rfl
    simp only [act, withStore]
    split
    · rfl
    · next store _ =>
      simp only [putSlot]
      rcases store.storage store.layout with failure | storage
      · rfl
      · dsimp only [bind, Except.bind]
        rcases storage.put w.memory index _ with failure | memory <;> rfl
  | pull id =>
    apply Asks.of_net_eq rfl
    simp only [act, withStore]
    split
    · rfl
    · next store _ =>
      simp only [pull]
      rcases store.storage .append with failure | storage <;> rfl
  | allocateSpare id =>
    apply Asks.of_net_eq rfl
    simp only [act, withStore]
    split
    · rfl
    · next store _ =>
      simp only [allocateSpare]
      rcases Storage.allocate w.memory store.config.pages store.layout store.config.capacity with halt | ⟨_, _⟩ <;> rfl
  | takeEntries script =>
    apply Asks.of_net_eq rfl
    simp only [act, takeEntries]
    split <;> rfl
  | allocate pages length =>
    apply Asks.of_net_eq rfl
    simp only [act, World.allocate]
    rcases w.memory.allocate pages length with halt | ⟨_, _⟩ <;> rfl
  | fill block start words | zero block =>
    apply Asks.of_net_eq rfl
    simp only [act]
    split <;> rfl

theorem passes_peer (h : w.Sound) {action : Action} (hpeer : action.isPeer) {link : Link}
    (hlink : w.net.links[k]? = some link) : w.net.Passes (w.act action).net k none (w.posted? k action) := by
  have hlink' := links_peer h hpeer hlink
  refine .post hlink hlink' ?_ ?_
  · cases action with
    | connect port | inject port kind status | unmap block => simp [Action.effectOn, posted?, served?]
    | receive peer limit | hangUp peer =>
      simp only [Action.effectOn, posted?, served?, Option.bind_none, Option.toList_none, ite_self, List.append_nil]
      split <;> rfl
    | write peer request address key words =>
      simp only [Action.effectOn, posted?]
      by_cases heq : peer = k
      · rw [if_pos heq, if_pos heq, hlink, Option.bind_some, Loopback.writeEffect, Link.refusal?]
        rcases Loopback.target link address key words.length (4 * words.length) (·.remoteWrite) with failure | region
        · exact Link.completions_complete ..
        · simp
      · simp [heq]
    | _ => contradiction
  · cases action with
    | connect port | inject port kind status | unmap block => rfl
    | receive peer limit | hangUp peer =>
      simp only [Action.effectOn]
      split <;> rfl
    | write peer request address key words =>
      simp only [Action.effectOn, Loopback.writeEffect]
      split
      · split
        · rfl
        · exact Link.queueSize_complete ..
      · rfl
    | _ => contradiction

theorem taken?_of_isPeer {action : Action} (hpeer : action.isPeer) : w.taken? k action = none := by
  cases action with
  | connect | inject | receive | write | hangUp | unmap => rfl
  | _ => contradiction

theorem posted?_of_served {action : Action} {request : Request} (hserved : w.served? action = some request) :
    w.posted? k action = w.net.posted? w.memory k request := by
  cases action with
  | write => contradiction
  | _ => simp only [posted?, hserved, Option.bind_some]

theorem posted?_of_unserved {action : Action} (hserved : w.served? action = none) (hpeer : ¬action.isPeer) :
    w.posted? k action = none := by
  cases action with
  | write => exact absurd rfl hpeer
  | _ => simp only [posted?, hserved, Option.bind_none]

theorem passes_act (h : w.Sound) (hlink : (w.net.links[k]?).isSome) (action : Action) :
    w.net.Passes (w.act action).net k (w.taken? k action) (w.posted? k action) := by
  obtain ⟨link, hlink⟩ := Option.isSome_iff_exists.mp hlink
  by_cases hpeer : action.isPeer
  · rw [taken?_of_isPeer hpeer]
    exact passes_peer h hpeer hlink
  · cases asks_act w action with
    | peer hpeer' => exact absurd hpeer' hpeer
    | @one request hserved hnet =>
      rw [taken?, hserved, Option.bind_some, posted?_of_served hserved, hnet]
      exact .serve h.net w.memory request
    | @aside requests hserved haside hnet =>
      rw [taken?, hserved, Option.bind_none, posted?_of_unserved hserved hpeer, hnet]
      exact (Loopback.SameQueue.serveAll haside).passes

theorem Reachable.isSome_links (h : w.Reachable) (hlink : (w.net.links[k]?).isSome) (actions : List Action) :
    ((w.after actions).net.links[k]?).isSome := by
  obtain ⟨link, hlink⟩ := Option.isSome_iff_exists.mp hlink
  obtain ⟨link', hlink', -⟩ := (h.evolves actions).links k link hlink
  exact Option.isSome_of_eq_some hlink'

theorem Reachable.mem_pending (h : w.Reachable) (hlink : (w.net.links[k]?).isSome) {actions : List Action}
    (hpending : k ∈ (w.after actions).net.pending) : k ∈ w.net.pending := by
  obtain ⟨link, hlink⟩ := Option.isSome_iff_exists.mp hlink
  rcases (h.evolves actions).pending k hpending with hold | hnew
  · exact hold
  · exact absurd (h.sound.1.net.link_bounds k link hlink).2 (Nat.not_le_of_lt hnew)

theorem Reachable.taken_in_order (h : w.Reachable) (hlink : (w.net.links[k]?).isSome) (actions : List Action) :
    w.observe (taken k) actions ++ (w.after actions).net.completions k =
      w.net.completions k ++ w.observe (kept k) actions := by
  induction actions using List.reverseRecOn with
  | nil => exact (List.append_nil _).symm
  | append_singleton actions action ih =>
    have hpasses := passes_act (h.after actions).sound.1 (h.isSome_links hlink actions) action
    have hstep : (w.after actions).taken k action ++ ((w.after actions).act action).net.completions k =
        (w.after actions).net.completions k ++ (w.after actions).kept k action := hpasses.completions
    rw [observe_concat, observe_concat, after_concat, List.append_assoc, hstep, ← List.append_assoc, ih,
      List.append_assoc]

theorem Reachable.queueSize_after (h : w.Reachable) (hlink : (w.net.links[k]?).isSome) (actions : List Action)
    (hpending : k ∈ w.net.pending → k ∈ (w.after actions).net.pending) :
    (w.after actions).net.queueSize k = w.net.queueSize k := by
  induction actions using List.reverseRecOn with
  | nil => rfl
  | append_singleton actions action ih =>
    rw [after_concat] at hpending ⊢
    have hreach := h.after actions
    have hlink' := h.isSome_links hlink actions
    have hpasses := passes_act hreach.sound.1 hlink' action
    rw [hpasses.queueSize fun hwaits => hpending (h.mem_pending hlink hwaits)]
    refine ih fun hwaits => ?_
    have hlast : k ∈ ((w.after actions).after [action]).net.pending := hpending hwaits
    exact hreach.mem_pending hlink' hlast

theorem Reachable.length_completions_le (h : w.Reachable) (hlink : (w.net.links[k]?).isSome)
    (haccepted : k ∉ w.net.pending) (hsize : 0 < w.net.queueSize k) (actions : List Action) :
    ((w.after actions).net.completions k).length ≤ max (w.net.queueSize k) (w.net.completions k).length := by
  induction actions using List.reverseRecOn with
  | nil => exact Nat.le_max_right ..
  | append_singleton actions action ih =>
    have hpasses := passes_act (h.after actions).sound.1 (h.isSome_links hlink actions) action
    have hbound := h.queueSize_after hlink actions fun hwaits => absurd hwaits haccepted
    have hlength := congrArg List.length hpasses.completions
    rw [Loopback.isFull_eq_decide, hbound, List.length_append, List.length_append] at hlength
    rw [after_concat]
    have hposted : ((w.after actions).posted? k action).toList.length ≤ 1 := by
      cases (w.after actions).posted? k action <;> simp
    split at hlength
    · simp only [List.length_nil] at hlength
      omega
    · next hroom =>
      simp only [decide_eq_true_eq, not_and, Nat.not_le] at hroom
      have hroom := hroom hsize
      omega

structure IsBounded (w : World) (k : ConnectionId) (size : Nat) : Prop where
  length_le : ∀ actions, ((w.after actions).net.completions k).length ≤ size
  lost : ∀ actions action completion, (w.after actions).posted? k action = some completion →
    (w.after actions).kept k action = [] → ((w.after actions).net.completions k).length = size

/--
The discipline of the completion queue of a connection that was requested in a world, and accepted with room for
`size` completions by the last of some actions.
-/
structure KeepsQueue (w : World) (k : ConnectionId) (untilAccepted : List Action) (size : Nat) : Prop where
  -- At any time the completions that were taken and those that are queued are all that were kept, in this order.
  ordered : ∀ actions, w.observe (taken k) actions ++ (w.after actions).net.completions k = w.observe (kept k) actions
  -- Nothing is lost until the connection is accepted.
  early : w.observe (kept k) untilAccepted = w.observe (posted k) untilAccepted
  -- From then on a completion is lost exactly if `size` of them, or more, are queued.
  late : ∀ later action, (w.after (untilAccepted ++ later)).kept k action =
    if size ≤ ((w.after (untilAccepted ++ later)).net.completions k).length then []
    else (w.after (untilAccepted ++ later)).posted k action
  -- The bound holds from then on exactly if it holds at that moment.
  bounded : (w.after untilAccepted).IsBounded k size ↔ ((w.after untilAccepted).net.completions k).length ≤ size

theorem observe_kept_eq (h : w.Reachable) (hlink : (w.net.links[k]?).isSome) (hunbounded : w.net.queueSize k = 0)
    (actions : List Action) (hpending : k ∈ (w.after actions).net.pending) :
    w.observe (kept k) actions = w.observe (posted k) actions := by
  induction actions using List.reverseRecOn with
  | nil => rfl
  | append_singleton actions action ih =>
    have hlast : k ∈ ((w.after actions).after [action]).net.pending := by rwa [← after_append]
    have hwaits := (h.after actions).mem_pending (h.isSome_links hlink actions) hlast
    have hfull : (w.after actions).net.isFull k = false := by
      rw [Loopback.isFull_eq_decide, h.queueSize_after hlink actions fun _ => hwaits, hunbounded]
      simp
    rw [observe_concat, observe_concat, ih hwaits, kept, hfull, if_neg Bool.false_ne_true]

theorem isBounded_iff (h : w.Reachable) (hlink : (w.net.links[k]?).isSome) (haccepted : k ∉ w.net.pending)
    (hsize : 0 < w.net.queueSize k) :
    w.IsBounded k (w.net.queueSize k) ↔ (w.net.completions k).length ≤ w.net.queueSize k := by
  refine ⟨fun hbounded => hbounded.length_le [], fun hinitial => ?_⟩
  have hlength : ∀ actions, ((w.after actions).net.completions k).length ≤ w.net.queueSize k := fun actions =>
    Nat.le_trans (h.length_completions_le hlink haccepted hsize actions) (Nat.max_le.mpr ⟨Nat.le_refl _, hinitial⟩)
  refine ⟨hlength, fun actions action completion hposted hlost => ?_⟩
  rw [kept, posted, hposted, Loopback.isFull_eq_decide,
    h.queueSize_after hlink actions fun hwaits => absurd hwaits haccepted] at hlost
  split at hlost
  · next hfull => exact Nat.le_antisymm (hlength actions) (of_decide_eq_true hfull).2
  · contradiction

theorem completion_queue_discipline (h : w.Reachable) {w₀ : World} {port : UInt16}
    (hconnect : w.connect port = .ok (k, w₀)) {early : List Action} {accepting : Action} {channel : ChannelId}
    {queues : QueueSizes} (hserved : (w₀.after early).served? accepting = some (.accept channel k queues))
    (haccepted : ((w₀.after early).net.accept channel k queues).1.isOk) (hsize : 0 < queues.completions.toNat) :
    w₀.KeepsQueue k (early ++ [accepting]) queues.completions.toNat := by
  have hreach : w₀.Reachable := act_connect hconnect ▸ h.act (.connect port)
  obtain ⟨net, hnet, heq⟩ := connect_eq_ok hconnect
  have heq : w₀.net = net := congrArg World.net heq
  obtain ⟨-, hempty, hunbounded, hlink⟩ := Loopback.connect_queue hnet
  rw [← heq] at hempty hunbounded hlink
  -- The connection waits up to the moment it is accepted, and never again.
  have hearly := hreach.after early
  obtain ⟨hwaits, hgone, hbound⟩ := Loopback.queueSize_accept hearly.sound.1.net haccepted
  have hnet' : (w₀.after (early ++ [accepting])).net = ((w₀.after early).net.accept channel k queues).2 := by
    rw [after_concat]
    cases asks_act (w₀.after early) accepting with
    | peer hpeer => cases accepting <;> contradiction
    | one hserved' hnet' =>
      obtain rfl := Option.some.inj (hserved.symm.trans hserved')
      exact hnet'
    | aside hserved' => exact absurd (hserved.symm.trans hserved') (by simp)
  rw [← hnet'] at hgone hbound
  have hlate := hreach.after (early ++ [accepting])
  have hlink' := hreach.isSome_links hlink (early ++ [accepting])
  refine ⟨fun actions => ?_, ?_, fun later action => ?_, ?_⟩
  · rw [hreach.taken_in_order hlink, hempty, List.nil_append]
  · have hnone : (w₀.after early).posted? k accepting = none := posted?_of_served hserved
    rw [observe_concat, observe_concat, observe_kept_eq hreach hlink hunbounded early hwaits]
    simp [kept, posted, hnone]
  · have hsize' : (w₀.after ((early ++ [accepting]) ++ later)).net.queueSize k = queues.completions.toNat := by
      rw [after_append, hlate.queueSize_after hlink' later fun hwaits => absurd hwaits hgone, hbound]
    simp only [kept, Loopback.isFull_eq_decide, hsize', hsize, true_and, decide_eq_true_eq]
  · rw [← hbound]
    exact isBounded_iff hlate hlink' hgone (hbound ▸ hsize)

def sampleListening : World :=
  (initial (.above 4096 4096) .zero).after
    ([.createSession "session" { queues := { completions := 1 } } .loopback, .startSession 1 (.listen 7000)] ++
      sampleSteps 3)

theorem reachable_sampleListening : sampleListening.Reachable := ⟨.above 4096 4096, .zero, _, rfl⟩

set_option maxRecDepth 10000 in
theorem completion_queue_discipline_lost :
    let w₀ := sampleListening.act (.connect 7000)
    let early := .write 2 8 0 0 [7] :: sampleSteps 1
    sampleListening.connect 7000 = .ok (2, w₀) ∧
      (w₀.after early).served? (.step (.session 1) false) = some (.accept 1 2 { completions := 1 }) ∧
      ((w₀.after early).net.accept 1 2 { completions := 1 }).1.isOk ∧
      w₀.KeepsQueue 2 (early ++ sampleSteps 1) 1 ∧ (w₀.after (early ++ sampleSteps 1)).IsBounded 2 1 ∧
      (w₀.after (early ++ sampleSteps 1)).kept 2 (.write 2 9 0 0 [7]) = [] := by
  intro w₀ early
  have hconnect : sampleListening.connect 7000 = .ok (2, w₀) := by rfl
  have hserved : (w₀.after early).served? (.step (.session 1) false) = some (.accept 1 2 { completions := 1 }) := by
    rfl
  have haccepted : ((w₀.after early).net.accept 1 2 { completions := 1 }).1.isOk := by rfl
  have hkeeps := completion_queue_discipline reachable_sampleListening hconnect hserved haccepted (by decide)
  have hone : ((w₀.after (early ++ sampleSteps 1)).net.completions 2).length ≤ 1 := by decide +kernel
  have hlost : (w₀.after (early ++ sampleSteps 1)).kept 2 (.write 2 9 0 0 [7]) = [] := by decide +kernel
  exact ⟨hconnect, hserved, haccepted, hkeeps, hkeeps.bounded.mpr hone, hlost⟩

set_option maxRecDepth 10000 in
theorem accepted_queue_above_bound :
    let w₀ := sampleListening.act (.connect 7000)
    let early := [.write 2 8 0 0 [7], .write 2 9 0 0 [7]] ++ sampleSteps 1
    sampleListening.Reachable ∧ sampleListening.connect 7000 = .ok (2, w₀) ∧
      (w₀.after early).served? (.step (.session 1) false) = some (.accept 1 2 { completions := 1 }) ∧
      ((w₀.after early).net.accept 1 2 { completions := 1 }).1.isOk ∧
      (w₀.after (early ++ sampleSteps 1)).net.completions 2 =
        [⟨8, .remoteAccessError, .remoteWrite⟩, ⟨9, .remoteAccessError, .remoteWrite⟩] := by
  intro w₀ early
  have hconnect : sampleListening.connect 7000 = .ok (2, w₀) := by rfl
  have hserved : (w₀.after early).served? (.step (.session 1) false) = some (.accept 1 2 { completions := 1 }) := by
    rfl
  have haccepted : ((w₀.after early).net.accept 1 2 { completions := 1 }).1.isOk := by rfl
  exact ⟨reachable_sampleListening, hconnect, hserved, haccepted, by decide +kernel⟩

end World

end RemoteSlots
