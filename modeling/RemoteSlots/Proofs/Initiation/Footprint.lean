import RemoteSlots.Proofs.Initiation.UnderWay

/-!
This module contains the footprint of a call on the loopback fabric: the handles that it gets with its moves,
and what stays as it is outside of them.
-/

namespace RemoteSlots

open Std

def Exchange.acquired (exchange : Exchange) : List Handle := exchange.request.acquired exchange.reply

namespace World

def gained (id : CallId) (w : World) : Action → List Handle
  | .step (.call other) expired =>
    if other = id then
      ((w.step (.call id) expired).1.map Exchange.acquired).getD [] ++
        (List.range' w.memory.blocks.size
          ((w.step (.call id) expired).2.memory.blocks.size - w.memory.blocks.size)).map .block
    else []
  | _ => []

/--
Whether nothing changes but what belongs to the listed handles, one call, and its store.
-/
structure ChangesOnly (w w' : World) (id : CallId) (s : StoreId) (own : List Handle) : Prop where
  channels : ∀ c : ChannelId, .channel c ∉ own → w'.net.channels[c]? = w.net.channels[c]?
  listeners : ∀ (port : UInt16) (l : Listener), .channel l.channel ∉ own →
    (w'.net.listeners[port]? = some l ↔ w.net.listeners[port]? = some l)
  pending : ∀ k : ConnectionId, (∀ link, w.net.links[k]? = some link → .channel link.channel ∉ own) →
    (k ∈ w'.net.pending ↔ k ∈ w.net.pending)
  links : ∀ k : ConnectionId, .endpoint k ∉ own → w'.net.links[k]? = w.net.links[k]?
  blocks : ∀ b : BlockId, .block b ∉ own → w'.memory.blocks[b]? = w.memory.blocks[b]?
  stores : ∀ other : StoreId, other ≠ s → w'.stores[other]? = w.stores[other]?
  calls : ∀ other : CallId, other ≠ id → w'.calls[other]? = w.calls[other]?
  sessions : w'.sessions = w.sessions
  scripts : w'.scripts = w.scripts

variable {w : World}

theorem net_perform (w : World) (move : Move σ) :
    (w.perform .loopback move).2.2.net =
      match move with
      | .ask request _ => (w.net.serve w.memory request).2
      | _ => w.net := by
  cases move with
  | map pages length resume =>
    simp only [perform]
    split <;> rfl
  | _ => rfl

theorem scripts_perform (w : World) (move : Move σ) :
    (w.perform .loopback move).2.2.scripts = w.scripts := by
  cases move with
  | map pages length resume =>
    simp only [perform]
    split <;> rfl
  | _ => rfl

theorem gained_eq_nil {id : CallId} {action : Action} (hmove : ¬action.IsMoveOf id) :
    w.gained id action = [] := by
  unfold gained
  split
  · next other expired =>
    rw [if_neg]
    rintro rfl
    exact hmove ⟨expired, rfl⟩
  · rfl

theorem gained_step {id : CallId} {call : Call} {store : Store} (hcall : w.calls[id]? = some call)
    (hstore : w.stores[call.store]? = some store) (expired : Bool) :
    w.gained id (.step (.call id) expired) =
      w.acquired store.fabric (call.stage.next store { cancelled := store.cancelled, expired, now := w.now }) := by
  have hspec := stepCall_spec hcall hstore expired
  have hstep : w.step (.call id) expired = w.stepCall id call store expired := by
    simp only [step, hcall, hstore]
  simp only [gained, if_pos, hstep]
  rw [hspec.exchange, hspec.memory]
  cases call.stage.next store { cancelled := store.cancelled, expired, now := w.now } with
  | ask request resume => simp [perform, acquired, Exchange.acquired]
  | map pages length resume =>
    simp only [perform, acquired]
    rcases hallocate : w.memory.allocate pages length with halt | ⟨block, memory⟩
    · simp
    · have hfresh := Memory.allocate_fresh hallocate
      simp [hfresh.size_eq, hfresh.block_eq]
  | write block start words next => simp [perform, acquired]
  | clear block next => simp [perform, acquired]
  | pass next => simp [perform, acquired]

theorem UnderWay.gained_eq {id : CallId} {s : StoreId} {setup store : Store} {stage : CallStage}
    {signals : Signals} {expired : Bool} (h : w.UnderWay id s setup stage) (hstore : w.stores[s]? = some store)
    (hsetup : setup.SameSetup store)
    (hnext : stage.next store { cancelled := store.cancelled, expired, now := w.now } = stage.next setup signals) :
    w.gained id (.step (.call id) expired) = w.acquired .loopback (stage.next setup signals) := by
  rw [gained_step h.calls hstore, hnext, hsetup.fabric, h.fabric]

theorem blocks_perform (w : World) {fabric : FabricId} {move : Move σ} {b : BlockId}
    (huses : .block b ∉ move.uses) (hacquired : .block b ∉ w.acquired fabric move) :
    (w.perform fabric move).2.2.memory.blocks[b]? = w.memory.blocks[b]? := by
  cases move with
  | ask request resume => exact congrArg (·.blocks[b]?) (memory_serve ..)
  | write block start words next =>
    apply Memory.getElem?_store_of_ne
    rintro rfl
    exact huses (List.mem_singleton_self _)
  | clear block next =>
    apply Memory.getElem?_clear_of_ne
    rintro rfl
    exact huses (List.mem_singleton_self _)
  | pass next => rfl
  | map pages length resume =>
    simp only [perform, acquired] at hacquired ⊢
    rcases hallocate : w.memory.allocate pages length with halt | ⟨block, memory⟩
    · rfl
    · apply (Memory.allocate_fresh hallocate).getElem?_of_ne
      rintro rfl
      simp [hallocate] at hacquired

theorem stepCall_changesOnly (h : w.Sound) {id : CallId} {call : Call} {store : Store} {own : List Handle}
    (hcall : w.calls[id]? = some call) (hstore : w.stores[call.store]? = some store)
    (hfabric : store.fabric = .loopback) {expired : Bool}
    (huses : ∀ handle ∈ (call.stage.next store { cancelled := store.cancelled, expired, now := w.now }).uses,
      handle ∈ own)
    (hacquired : ∀ handle ∈ w.acquired .loopback
      (call.stage.next store { cancelled := store.cancelled, expired, now := w.now }), handle ∈ own)
    (haccept : ∀ channel j queues,
      (call.stage.next store { cancelled := store.cancelled, expired, now := w.now }).request? =
        some (.accept channel j queues) → ∀ link, w.net.links[j]? = some link → link.channel = channel) :
    w.ChangesOnly (w.stepCall id call store expired).2 id call.store own := by
  have hspec := stepCall_spec hcall hstore expired
  rw [hfabric] at hspec
  have hnet := hspec.net
  rw [net_perform] at hnet
  refine ⟨?_, ?_, ?_, ?_, ?_, ?_, ?_, hspec.sessions, ?_⟩
  · intro c hc
    rw [hnet]
    split
    · next request resume heq =>
      rw [heq] at huses hacquired
      exact Loopback.serve_channels_of_ne (fun hmem => hc (huses _ hmem)) fun hmem => hc (hacquired _ hmem)
    · rfl
  · intro port l hl
    rw [hnet]
    split
    · next request resume heq =>
      rw [heq] at huses
      exact Loopback.serve_listeners_of_ne h.net fun hmem => hl (huses _ hmem)
    · rfl
  · intro k hk
    rw [hnet]
    split
    · next request resume heq =>
      rw [heq] at huses haccept
      rcases hlink : w.net.links[k]? with _ | link
      · have hnone : k ∉ w.net.pending := by
          intro hmem
          obtain ⟨link, hsome, -⟩ := h.net.pending k hmem
          rw [hlink] at hsome
          contradiction
        exact ⟨fun hmem => absurd (Loopback.mem_pending_of_serve hmem) hnone, fun hmem => absurd hmem hnone⟩
      · refine Loopback.serve_pending_of_ne h.net hlink (fun hmem => hk link hlink (huses _ hmem)) ?_
        intro channel j queues hrequest
        exact haccept channel j queues (congrArg some hrequest)
    · rfl
  · intro k hk
    rw [hnet]
    split
    · next request resume heq =>
      rw [heq] at huses hacquired
      exact Loopback.serve_links_of_ne (fun hmem => hk (huses _ hmem)) fun hmem => hk (hacquired _ hmem)
    · rfl
  · intro b hb
    rw [hspec.memory]
    exact blocks_perform w (fun hmem => hb (huses _ hmem)) fun hmem => hb (hacquired _ hmem)
  · intro other hne
    rw [hspec.stores, if_neg (Ne.symm hne)]
  · intro other hne
    rw [hspec.calls, if_neg (Ne.symm hne)]
  · rw [hspec.scripts, scripts_perform]

end World

end RemoteSlots
