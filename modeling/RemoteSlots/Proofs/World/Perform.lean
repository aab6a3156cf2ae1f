import RemoteSlots.Proofs.Session.Custody
import RemoteSlots.Proofs.World.Effects

/-!
This module shows what a single move does to a world: it touches nothing but memory and fabrics, it uses
no other handles than the move names, and what it acquires was nobody's before.
-/

namespace RemoteSlots

theorem FabricId.mem_visible {fabric : FabricId} {handles : List Handle} {handle : Handle} :
    handle ∈ fabric.visible handles ↔ handle ∈ handles ∧ (fabric = .loopback ∨ handle.isBlock) := by
  simp [visible]

namespace World

section Serve

variable (w : World) (fabric : FabricId) (request : Request)

@[simp]
theorem memory_serve : (w.serve fabric request).2.memory = w.memory := by
  unfold serve
  split
  · rfl
  · split <;> rfl

@[simp]
theorem lastId_serve : (w.serve fabric request).2.lastId = w.lastId := by
  unfold serve
  split
  · rfl
  · split <;> rfl

@[simp]
theorem now_serve : (w.serve fabric request).2.now = w.now := by
  unfold serve
  split
  · rfl
  · split <;> rfl

@[simp]
theorem sessions_serve : (w.serve fabric request).2.sessions = w.sessions := by
  unfold serve
  split
  · rfl
  · split <;> rfl

@[simp]
theorem stores_serve : (w.serve fabric request).2.stores = w.stores := by
  unfold serve
  split
  · rfl
  · split <;> rfl

@[simp]
theorem calls_serve : (w.serve fabric request).2.calls = w.calls := by
  unfold serve
  split
  · rfl
  · split <;> rfl

theorem net_serve_script (id : Nat) : (w.serve (.script id) request).2.net = w.net := by
  unfold serve
  dsimp only
  split <;> rfl

variable {allowed : Handle → Prop} {memory : Memory} {net : Loopback}

theorem effects_serve {w : World} (h : Effects allowed memory net w.memory w.net)
    (hrequest : ∀ handle ∈ fabric.visible request.handles, allowed handle) :
    Effects allowed memory net w.memory (w.serve fabric request).2.net := by
  cases fabric with
  | loopback =>
    apply h.serve request
    intro handle hmem
    exact hrequest handle (FabricId.mem_visible.mpr ⟨hmem, .inl rfl⟩)
  | script id =>
    rw [net_serve_script]
    exact h

theorem effects_serveAll {w : World} (h : Effects allowed memory net w.memory w.net)
    (requests : List Request)
    (hrequests : ∀ request ∈ requests, ∀ handle ∈ fabric.visible request.handles, allowed handle) :
    Effects allowed memory net (w.serveAll fabric requests).memory (w.serveAll fabric requests).net := by
  unfold serveAll
  induction requests generalizing w with
  | nil => exact h
  | cons request requests ih =>
    apply ih
    · rw [memory_serve]
      exact effects_serve fabric request h (hrequests request (List.mem_cons_self ..))
    · intro r hr
      exact hrequests r (List.mem_cons_of_mem _ hr)

end Serve

section Perform

variable (w : World) (fabric : FabricId) (move : Move σ)

@[simp]
theorem lastId_perform : (w.perform fabric move).2.2.lastId = w.lastId := by
  cases move with
  | ask request resume => exact lastId_serve ..
  | map pages length resume =>
    simp only [perform]
    split <;> rfl
  | _ => rfl

@[simp]
theorem now_perform : (w.perform fabric move).2.2.now = w.now := by
  cases move with
  | ask request resume => exact now_serve ..
  | map pages length resume =>
    simp only [perform]
    split <;> rfl
  | _ => rfl

@[simp]
theorem sessions_perform : (w.perform fabric move).2.2.sessions = w.sessions := by
  cases move with
  | ask request resume => exact sessions_serve ..
  | map pages length resume =>
    simp only [perform]
    split <;> rfl
  | _ => rfl

@[simp]
theorem stores_perform : (w.perform fabric move).2.2.stores = w.stores := by
  cases move with
  | ask request resume => exact stores_serve ..
  | map pages length resume =>
    simp only [perform]
    split <;> rfl
  | _ => rfl

@[simp]
theorem calls_perform : (w.perform fabric move).2.2.calls = w.calls := by
  cases move with
  | ask request resume => exact calls_serve ..
  | map pages length resume =>
    simp only [perform]
    split <;> rfl
  | _ => rfl

theorem perform_embed (f : σ → τ) :
    w.perform fabric (move.embed f) =
      (f (w.perform fabric move).1, (w.perform fabric move).2.1, (w.perform fabric move).2.2) := by
  cases move with
  | map pages length resume =>
    simp only [Move.embed, perform]
    split <;> rfl
  | _ => rfl

def acquired : Move σ → List Handle
  | .ask request _ => request.acquired (w.serve fabric request).1
  | .map pages length _ =>
    match w.memory.allocate pages length with
    | .ok (block, _) => [.block block]
    | .error _ => []
  | .write .. | .clear .. | .pass _ => []

theorem acquired_embed (f : σ → τ) : w.acquired fabric (move.embed f) = w.acquired fabric move := by
  cases move <;> rfl

theorem perform_leads : move.Leads (w.acquired fabric move) (w.perform fabric move).1 := by
  cases move with
  | ask request resume => exact .ask ..
  | write block start words next => exact .write ..
  | clear block next => exact .clear ..
  | pass next => exact .pass ..
  | map pages length resume =>
    rcases hallocate : w.memory.allocate pages length with halt | ⟨block, memory⟩
    · simp only [perform, acquired, hallocate]
      exact .unmapped ..
    · simp only [perform, acquired, hallocate]
      exact .mapped pages length resume ⟨block, memory.base block, length⟩

theorem perform_effects :
    Effects (· ∈ fabric.visible move.uses) w.memory w.net
      (w.perform fabric move).2.2.memory (w.perform fabric move).2.2.net := by
  cases move with
  | ask request resume =>
    simp only [perform, memory_serve]
    exact effects_serve fabric request .refl fun handle hmem => hmem
  | write block start words next =>
    apply Effects.store block start words .refl
    exact FabricId.mem_visible.mpr ⟨List.mem_singleton_self _, .inr rfl⟩
  | clear block next =>
    apply Effects.clear block .refl
    exact FabricId.mem_visible.mpr ⟨List.mem_singleton_self _, .inr rfl⟩
  | pass next => exact .refl
  | map pages length resume =>
    simp only [perform]
    split
    · next hallocate => exact .allocate .refl hallocate
    · exact .refl

theorem serve_of_acquired {w : World} {fabric : FabricId} {request : Request} {handle : Handle}
    (h : handle ∈ fabric.visible (request.acquired (w.serve fabric request).1)) :
    fabric = .loopback ∧ handle ∈ request.acquired (w.net.serve w.memory request).1 := by
  obtain ⟨hmem, hvisible⟩ := FabricId.mem_visible.mp h
  rcases hvisible with rfl | hblock
  · exact ⟨rfl, hmem⟩
  · cases request with
    | createChannel | accept =>
      unfold Request.acquired at hmem
      split at hmem
      all_goals simp_all [Handle.isBlock]
    | _ => contradiction

theorem not_isIssued_of_acquired {w : World} {fabric : FabricId} {move : Move σ} {handle : Handle}
    (h : handle ∈ fabric.visible (w.acquired fabric move)) : ¬handle.IsIssued w.memory w.net := by
  cases move with
  | ask request resume =>
    obtain ⟨rfl, hmem⟩ := serve_of_acquired h
    exact Handle.not_isIssued_of_acquired hmem
  | map pages length resume =>
    obtain ⟨hmem, -⟩ := FabricId.mem_visible.mp h
    simp only [acquired] at hmem
    split at hmem
    · next block memory hallocate =>
      obtain rfl := List.mem_singleton.mp hmem
      simp only [Handle.IsIssued]
      rw [(Memory.allocate_fresh hallocate).block_eq]
      exact Nat.lt_irrefl _
    · contradiction
  | write | clear | pass => simp [acquired, FabricId.visible] at h

theorem isIssued_of_acquired {w : World} (hnet : w.net.Sound) {fabric : FabricId} {move : Move σ}
    {handle : Handle} (h : handle ∈ fabric.visible (w.acquired fabric move)) :
    handle.IsIssued (w.perform fabric move).2.2.memory (w.perform fabric move).2.2.net := by
  cases move with
  | ask request resume =>
    obtain ⟨rfl, hmem⟩ := serve_of_acquired h
    exact Handle.isIssued_of_acquired hnet hmem
  | map pages length resume =>
    obtain ⟨hmem, -⟩ := FabricId.mem_visible.mp h
    rcases hallocate : w.memory.allocate pages length with halt | ⟨block, memory⟩
    · simp [acquired, hallocate] at hmem
    · simp only [acquired, hallocate] at hmem
      obtain rfl := List.mem_singleton.mp hmem
      have hfresh := Memory.allocate_fresh hallocate
      simp only [perform, hallocate, Handle.IsIssued]
      rw [hfresh.size_eq, hfresh.block_eq]
      exact Nat.lt_succ_self _
  | write | clear | pass => simp [acquired, FabricId.visible] at h

theorem isLive_of_acquired {w : World} {fabric : FabricId} {move : Move σ} {handle : Handle}
    (h : handle ∈ fabric.visible (w.acquired fabric move)) :
    handle.IsLive (w.perform fabric move).2.2.memory := by
  cases move with
  | ask request resume =>
    obtain ⟨-, hmem⟩ := serve_of_acquired h
    rcases Loopback.acquired_serve hmem with rfl | ⟨k, -, rfl⟩ <;> trivial
  | map pages length resume =>
    obtain ⟨hmem, -⟩ := FabricId.mem_visible.mp h
    rcases hallocate : w.memory.allocate pages length with halt | ⟨block, memory⟩
    · simp [acquired, hallocate] at hmem
    · simp only [acquired, hallocate] at hmem
      obtain rfl := List.mem_singleton.mp hmem
      simp only [perform, hallocate]
      exact (Memory.allocate_fresh hallocate).isLive_self
  | write | clear | pass => simp [acquired, FabricId.visible] at h

end Perform

theorem perform_await (w : World) (name : String) (config : SessionConfig) (signals : Signals)
    (channel : ChannelId) (expected : EventKind) (waiting : Stage) (ended : Halt → Stage)
    (found : Event → Stage) :
    let out := w.perform .loopback (Stage.await name config signals channel expected waiting ended found)
    out.2.2.net.links = w.net.links ∧ out.2.2.memory = w.memory ∧
      (out.1 = waiting ∨ (∃ halt, out.1 = ended halt) ∨
        ∃ c event, w.net.channels[channel]? = some c ∧ event ∈ c.events ∧ event.kind = expected ∧
          out.1 = found event) := by
  intro out
  rcases Stage.await_cases name config signals channel expected waiting ended found with
    ⟨halt, heq⟩ | ⟨resume, heq, hresume⟩
  · have hout : out = (ended halt, none, w) := congrArg (w.perform .loopback) heq
    rw [hout]
    exact ⟨rfl, rfl, .inr (.inl ⟨halt, rfl⟩)⟩
  · have hout : out = w.perform .loopback (.ask (.nextEvent channel) resume) :=
      congrArg (w.perform .loopback) heq
    have hlinks : (w.net.nextEvent channel).2.links = w.net.links := by
      unfold Loopback.nextEvent
      split
      · rfl
      · split <;> rfl
    rw [hout]
    refine ⟨hlinks, rfl, ?_⟩
    rcases hresume (w.net.nextEvent channel).1 with hwaiting | hended | ⟨event, hreply, hkind, hfound⟩
    · exact .inl hwaiting
    · exact .inr (.inl hended)
    · unfold Loopback.nextEvent at hreply
      split at hreply
      · contradiction
      · next c hchannel =>
        split at hreply
        · injection hreply with hreply
          contradiction
        · next events hevents =>
          injection hreply with hreply
          injection hreply with hreply
          refine .inr (.inr ⟨c, event, hchannel, ?_, hkind, hfound⟩)
          rw [hevents, hreply]
          exact List.mem_cons_self ..

end World

end RemoteSlots
