import RemoteSlots.Proofs.Initiation.Progress

/-!
This module follows an initiation to the point where the storage is registered: it listens, a connection is
accepted, and the storage is mapped.
-/

namespace RemoteSlots

namespace World

/--
What a move of a call does to memory and fabric, and what the call gets with it.
-/
structure Moved (w : World) (id : CallId) (expired : Bool) (move : Move σ) : Prop where
  net : (w.act (.step (.call id) expired)).net = (w.perform .loopback move).2.2.net
  memory : (w.act (.step (.call id) expired)).memory = (w.perform .loopback move).2.2.memory
  gained : w.gained id (.step (.call id) expired) = w.acquired .loopback move

theorem Moved.of_embed {w : World} {id : CallId} {expired : Bool} {move : Move σ} {f : σ → τ}
    (h : w.Moved id expired (move.embed f)) : w.Moved id expired move := by
  obtain ⟨hnet, hmemory, hgained⟩ := h
  rw [perform_embed] at hnet hmemory
  rw [acquired_embed] at hgained
  exact ⟨hnet, hmemory, hgained⟩

theorem UnderWay.moved {w : World} {id : CallId} {s : StoreId} {setup : Store} {stage : CallStage}
    (h : w.UnderWay id s setup stage) (hidle : ∀ active, stage = .publish active → w.IsIdle s)
    (expired : Bool) :
    ∃ signals, w.Moved id expired (stage.next setup signals) ∧
      (w.act (.step (.call id) expired)).calls[id]? =
        some ⟨s, (w.perform .loopback (stage.next setup signals)).1⟩ := by
  obtain ⟨store, signals, hstore, hsetup, hnext, -, hspec⟩ := h.step hidle expired
  exact ⟨signals, ⟨hspec.net, hspec.memory, h.gained_eq hstore hsetup hnext⟩,
    (hspec.calls id).trans (if_pos rfl)⟩

variable {w : World} {id : CallId} {s : StoreId} {setup : Store} {actions : List Action}
  {milestone : Milestone} {message : Option (List UInt8)} {expired : Bool}

theorem Moved.links {w : World} {move : Move σ} (h : w.Moved id expired move)
    (huses : ∀ k, .endpoint k ∉ move.uses) (hacquired : ∀ k, .endpoint k ∉ w.acquired .loopback move)
    (k : ConnectionId) : (w.act (.step (.call id) expired)).net.links[k]? = w.net.links[k]? := by
  rw [h.net, net_perform]
  split
  · next request resume => exact Loopback.serve_links_of_ne (huses k) (hacquired k)
  · rfl

namespace Holds

theorem stay_of_moved (h : w.Holds id s setup actions milestone message) {move : Move σ}
    (hmoved : (w.after actions).Moved id expired move) (huses : ∀ k, .endpoint k ∉ move.uses)
    (hacquired : ∀ k, .endpoint k ∉ (w.after actions).acquired .loopback move)
    (hmemory : ((w.after actions).perform .loopback move).2.2.memory = (w.after actions).memory) :
    w.Holds id s setup (actions ++ [.step (.call id) expired]) milestone message := by
  apply h.stay
  · exact hmoved.links huses hacquired
  · rw [hmoved.memory, hmemory]
  · rw [hmoved.gained]
    exact hacquired

theorem stay_of_pass (h : w.Holds id s setup actions milestone message) {state : σ}
    (hmoved : (w.after actions).Moved id expired (.pass state)) :
    w.Holds id s setup (actions ++ [.step (.call id) expired]) milestone message :=
  h.stay_of_moved hmoved (fun _ => List.not_mem_nil) (fun _ => List.not_mem_nil) rfl

theorem of_unsent (hunsent : milestone.isUnsent)
    (hannounced : ∀ endpoint region, milestone ≠ .announced endpoint region)
    (hown : ∀ j, .endpoint j ∈ w.observe (gained id) actions ↔ milestone.endpoint?.map (·.handle) = some j)
    (hlink : ∀ endpoint, milestone.endpoint? = some endpoint →
      ∃ link, (w.after actions).net.links[endpoint.handle]? = some link ∧ link.serverClosed = false ∧
        link.regions = milestone.registrations ∧ ∀ c ∈ link.completions, c.status ≠ .success)
    (hbacks : ∀ extent, milestone.extent? = some extent →
      (w.after actions).memory.Backs extent ∧ extent.length = setup.bufferSize)
    (hwords : ∀ endpoint extent, milestone.endpoint? = some endpoint → milestone.extent? = some extent →
      w.Keeps actions endpoint.handle extent.block milestone.expected)
    (hquiet : ∀ k, w.observe (delivered id k) actions = []) :
    w.Holds id s setup actions milestone none where
  own := hown
  link := by
    intro endpoint hendpoint
    obtain ⟨link, hlink, hclosed, hregions, hsuccess⟩ := hlink endpoint hendpoint
    exact ⟨link, hlink, hclosed, hregions, fun _ => hsuccess⟩
  backs := hbacks
  words := hwords
  quiet := fun _ => hquiet
  announced := fun endpoint region heq => absurd heq (hannounced endpoint region)
  unsent := fun _ => rfl
  acknowledged := by
    intro hacknowledged
    cases milestone <;> contradiction
  sent := fun _ _ _ hnone => by contradiction
  captured := by
    intro endpoint baseline _ hbaseline
    cases milestone <;> contradiction

def Leads (w : World) (id : CallId) (s : StoreId) (setup : Store) (actions : List Action) (expired : Bool)
    (milestone? : Option Milestone) : Prop :=
  ∀ milestone', milestone? = some milestone' →
    ∃ message', w.Holds id s setup (actions ++ [.step (.call id) expired]) milestone' message'

theorem leads_of_same (h : w.Holds id s setup (actions ++ [.step (.call id) expired]) milestone message)
    {milestone? : Option Milestone}
    (hsame : ∀ milestone', milestone? = some milestone' → milestone' = milestone) :
    Leads w id s setup actions expired milestone? := by
  intro milestone' heq
  rw [hsame milestone' heq]
  exact ⟨message, h⟩

variable {name : String} {config : SessionConfig} {signals : Signals} {binding : Binding}
  {endpoint : Endpoint} {extent : Extent} {region : Region}

theorem awaits (h : w.Holds id s setup actions milestone message) {channel : ChannelId}
    {expected : EventKind} {waiting : Stage} {ended : Halt → Stage} {found : Event → Stage}
    (hmoved : (w.after actions).Moved id expired
      (Stage.await name config signals channel expected waiting ended found))
    (hwaiting : waiting.milestone? = some milestone) (hended : ∀ halt, (ended halt).milestone? = none)
    (hfound : ∀ event, (found event).milestone? = some milestone) :
    Leads w id s setup actions expired ((w.after actions).perform .loopback
      (Stage.await name config signals channel expected waiting ended found)).1.milestone? := by
  obtain ⟨hlinks, hmemory, hstage⟩ :=
    perform_await (w.after actions) name config signals channel expected waiting ended found
  have hleads := Stage.await_leads (perform_leads (w.after actions) .loopback
    (Stage.await name config signals channel expected waiting ended found))
  have hsame : w.Holds id s setup (actions ++ [.step (.call id) expired]) milestone message := by
    apply h.stay_of_moved hmoved
    · intro k hk
      have heq := Stage.uses_await hk
      contradiction
    · intro k hk
      rw [hleads.1] at hk
      contradiction
    · exact hmemory
  apply hsame.leads_of_same
  intro milestone' heq
  rcases hstage with hstage | ⟨halt, hstage⟩ | ⟨_, event, -, -, -, hstage⟩
  · rw [hstage, hwaiting] at heq
    injection heq with heq
    exact heq.symm
  · rw [hstage, hended] at heq
    contradiction
  · rw [hstage, hfound] at heq
    injection heq with heq
    exact heq.symm

theorem listens (h : w.Holds id s setup actions milestone message) {request : Request}
    {resume : Except Failure request.Reply → Stage}
    (hmoved : (w.after actions).Moved id expired (.ask request resume))
    (hhandles : ∀ k, .endpoint k ∉ request.handles)
    (hacquired : ∀ k reply, .endpoint k ∉ request.acquired reply)
    (hresume : ∀ reply milestone', (resume reply).milestone? = some milestone' → milestone' = milestone) :
    Leads w id s setup actions expired
      ((w.after actions).perform .loopback (.ask request resume)).1.milestone? := by
  have hsame : w.Holds id s setup (actions ++ [.step (.call id) expired]) milestone message :=
    h.stay_of_moved hmoved hhandles (fun k => hacquired k _) (memory_serve (w.after actions) .loopback request)
  exact hsame.leads_of_same (hresume _)

theorem accepts (h : w.Holds id s setup actions .listening message) (hnet : (w.after actions).net.Sound)
    {k : ConnectionId}
    (hmoved : (w.after actions).Moved id expired ((Stage.accept binding k).next name config signals)) :
    Leads w id s setup actions expired ((w.after actions).perform .loopback
      ((Stage.accept binding k).next name config signals)).1.milestone? := by
  obtain ⟨hmovedNet, hmovedMemory, hmovedGained⟩ := hmoved
  simp only [Stage.next, perform, serve, Loopback.serve, acquired] at hmovedNet hmovedMemory hmovedGained ⊢
  rcases Loopback.accept_cases (w.after actions).net binding.channel k config.queues with
    ⟨failure, heq⟩ | ⟨failure, heq⟩ | ⟨link, hlink, hmem, hclosed, heq⟩
  · rw [heq]
    exact fun _ hnone => by contradiction
  · rw [heq]
    exact fun _ hnone => by contradiction
  · rw [heq] at hmovedNet hmovedGained
    rw [heq]
    intro milestone' hmilestone'
    injection hmilestone' with hmilestone'
    subst hmilestone'
    -- A connection that waits has no regions and no completions.
    obtain ⟨link', hlink', hfresh, -⟩ := hnet.pending k hmem
    rw [hlink] at hlink'
    injection hlink' with hlink'
    subst hlink'
    have hlinks : ∀ j : ConnectionId, ((w.after actions).act (.step (.call id) expired)).net.links[j]? =
        if k = j then (w.after actions).net.links[j]?.map fun link =>
          { link with queueSize := config.queues.completions.toNat, acceptedBy := some binding.channel }
        else (w.after actions).net.links[j]? := by
      intro j
      rw [hmovedNet]
      exact Loopback.getElem?_modifyLink ..
    refine ⟨none, of_unsent rfl (fun _ _ hnone => by contradiction) ?_ ?_ ?_ ?_ ?_⟩
    · intro j
      rw [observe_concat, List.mem_append, h.own j, hmovedGained]
      simp [Request.acquired, Milestone.endpoint?, eq_comm]
    · rintro endpoint ⟨⟩
      refine ⟨{ link with queueSize := config.queues.completions.toNat, acceptedBy := some binding.channel },
        ?_, hfresh.serverClosed, hfresh.regions, hfresh.completions⟩
      rw [after_concat, hlinks, if_pos rfl, hlink]
      rfl
    · exact fun _ hnone => by contradiction
    · exact fun _ _ _ hnone => by contradiction
    · intro j
      have hinbox : ((w.after actions).act (.step (.call id) expired)).net.inbox j =
          (w.after actions).net.inbox j := Loopback.inbox_eq_of_map hlinks (fun _ _ => rfl) j
      rw [observe_concat, h.quiet (h.unsent rfl), delivered, if_pos rfl, hinbox]
      exact List.drop_length

theorem maps (h : w.Holds id s setup actions (.connected endpoint) message)
    (hmoved : (w.after actions).Moved id expired
      ((Initiation.allocate binding endpoint).next setup.layout setup.config signals)) :
    Leads w id s setup actions expired (CallStage.initiate ((w.after actions).perform .loopback
      ((Initiation.allocate binding endpoint).next setup.layout setup.config signals)).1).milestone? := by
  obtain ⟨hmovedNet, hmovedMemory, hmovedGained⟩ := hmoved
  simp only [Initiation.next, Storage.byteSize] at hmovedNet hmovedMemory hmovedGained ⊢
  by_cases hlimit : addressLimit ≤ setup.config.capacity * setup.layout.size
  · simp only [if_pos hlimit]
    exact fun _ hnone => by contradiction
  · simp only [if_neg hlimit, perform, acquired] at hmovedNet hmovedMemory hmovedGained ⊢
    rcases hallocate : (w.after actions).memory.allocate setup.config.pages
        (setup.config.capacity * setup.layout.size) with halt | ⟨block, memory⟩
    · exact fun _ hnone => by contradiction
    · simp only [hallocate] at hmovedNet hmovedMemory hmovedGained ⊢
      have hfresh := Memory.allocate_fresh hallocate
      intro milestone' hmilestone'
      obtain rfl : milestone' = .mapped endpoint
          { block, address := memory.base block, length := setup.bufferSize } := by
        split at hmilestone'
        · injection hmilestone' with hmilestone'
          exact hmilestone'.symm
        · injection hmilestone' with hmilestone'
          exact hmilestone'.symm
      have hlinks : ∀ k : ConnectionId, ((w.after actions).act (.step (.call id) expired)).net.links[k]? =
          (w.after actions).net.links[k]? := fun k => by rw [hmovedNet]
      refine ⟨message, h.next rfl (Loopback.inbox_eq hlinks) (Link.offers_of_eq hlinks) ?_ rfl rfl
        (fun _ _ hnone => by contradiction) (fun _ => rfl) (fun hnone => by contradiction) ?_ ?_
        (fun _ hnone => by contradiction) (fun hnone => by contradiction) (fun _ _ _ hnone => by contradiction)⟩
      · rw [hmovedGained]
        simp
      · rintro extent ⟨⟩
        rw [hmovedMemory]
        obtain ⟨base, mapped, hblock, -, hle, hlimit⟩ := hfresh.getElem?_self
        refine ⟨⟨rfl, hfresh.length_eq, ?_, ?_⟩, rfl⟩
        · unfold Memory.mapped
          rw [hblock]
          exact hle
        · unfold Memory.base
          rw [hblock]
          exact Nat.le_trans (Nat.add_le_add_left hle base) hlimit
      · rintro endpoint' extent ⟨⟩ ⟨⟩ i -
        rw [after_concat, hmovedMemory]
        exact hfresh.word_eq_zero i

theorem clears (h : w.Holds id s setup actions (.mapped endpoint extent) message)
    (hmoved : (w.after actions).Moved id expired
      ((Initiation.clear binding endpoint extent).next setup.layout setup.config signals)) :
    Leads w id s setup actions expired (CallStage.initiate ((w.after actions).perform .loopback
      ((Initiation.clear binding endpoint extent).next setup.layout setup.config signals)).1).milestone? := by
  obtain ⟨hmovedNet, hmovedMemory, hmovedGained⟩ := hmoved
  simp only [Initiation.next, perform, acquired] at hmovedNet hmovedMemory hmovedGained ⊢
  rintro milestone' ⟨⟩
  have hlinks : ∀ k : ConnectionId, ((w.after actions).act (.step (.call id) expired)).net.links[k]? =
      (w.after actions).net.links[k]? := fun k => by rw [hmovedNet]
  refine ⟨message, h.next rfl (Loopback.inbox_eq hlinks) (Link.offers_of_eq hlinks) ?_ rfl rfl
    (fun _ _ hnone => by contradiction) (fun _ => rfl) (fun hnone => by contradiction) ?_ ?_
    (fun _ hnone => by contradiction) (fun hnone => by contradiction) (fun _ _ _ hnone => by contradiction)⟩
  · rw [hmovedGained]
    exact fun _ => List.not_mem_nil
  · rintro extent' ⟨⟩
    obtain ⟨hbacks, hlength⟩ := h.backs extent rfl
    rw [hmovedMemory]
    exact ⟨hbacks.clear _, hlength⟩
  · rintro endpoint' extent' ⟨⟩ ⟨⟩
    apply (h.words endpoint extent rfl rfl).concat
    intro i _ hword
    rw [hmovedMemory, Memory.word_clear]
    split
    · rfl
    · exact hword

theorem registers (h : w.Holds id s setup actions (.mapped endpoint extent) message)
    (hmoved : (w.after actions).Moved id expired
      ((Stage.register binding endpoint extent).next name config signals)) :
    Leads w id s setup actions expired ((w.after actions).perform .loopback
      ((Stage.register binding endpoint extent).next name config signals)).1.milestone? := by
  obtain ⟨hmovedNet, hmovedMemory, hmovedGained⟩ := hmoved
  obtain ⟨link, hlink, hclosed, hregions, hsuccess⟩ := h.link endpoint rfl
  simp only [Stage.next, perform, serve, Loopback.serve, acquired, Loopback.register, hlink, hclosed]
    at hmovedNet hmovedMemory hmovedGained ⊢
  by_cases halign : extent.address % 4 ≠ 0
  · simp only [if_pos halign]
    exact fun _ hnone => by contradiction
  · simp only [if_neg halign] at hmovedNet hmovedGained ⊢
    intro milestone' hmilestone'
    injection hmilestone' with hmilestone'
    subst hmilestone'
    have hlinks : ∀ j : ConnectionId, ((w.after actions).act (.step (.call id) expired)).net.links[j]? =
        if endpoint.handle = j then (w.after actions).net.links[j]?.map fun link =>
          { link with regions := link.regions ++
            [⟨extent, UInt32.ofNat ((w.after actions).net.lastId + 1), .full⟩] }
        else (w.after actions).net.links[j]? := by
      intro j
      rw [hmovedNet]
      exact Loopback.getElem?_modifyLink ..
    refine ⟨none, of_unsent rfl (fun _ _ hnone => by contradiction) ?_ ?_ ?_ ?_ ?_⟩
    · intro j
      rw [observe_concat, List.mem_append, h.own j, hmovedGained]
      simp [Request.acquired, Milestone.endpoint?]
    · rintro endpoint' ⟨⟩
      refine ⟨{ link with regions := link.regions ++
        [⟨extent, UInt32.ofNat ((w.after actions).net.lastId + 1), .full⟩] },
        ?_, hclosed, ?_, hsuccess (h.unsent rfl)⟩
      · rw [after_concat, hlinks, if_pos rfl, hlink]
        rfl
      · rw [hregions]
        rfl
    · rintro extent' ⟨⟩
      rw [after_concat, hmovedMemory]
      exact h.backs extent rfl
    · rintro endpoint' extent' ⟨⟩ ⟨⟩
      apply (h.words endpoint extent rfl rfl).concat
      rw [hmovedMemory]
      exact fun i _ hword => hword
    · intro j
      have hinbox : ((w.after actions).act (.step (.call id) expired)).net.inbox j =
          (w.after actions).net.inbox j := Loopback.inbox_eq_of_map hlinks (fun _ _ => rfl) j
      rw [observe_concat, h.quiet (h.unsent rfl), delivered, if_pos rfl, hinbox]
      exact List.drop_length

end Holds

end World

end RemoteSlots
