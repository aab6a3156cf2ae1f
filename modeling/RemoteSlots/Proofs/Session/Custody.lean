import RemoteSlots.Proofs.World.Handle

/-!
This module shows how what an operation holds changes from move to move: a move only uses handles that are
held, nothing is held that was not acquired, and nothing is let go without being given back.
-/

namespace RemoteSlots

namespace Custody

inductive Step : Custody → Option Request → List Handle → Custody → Prop
  | keep (custody : Custody) (request : Option Request) : Step custody request [] custody
  | created (c : ChannelId) :
    Step .empty (some .createChannel) [.channel c] { release := [.closeChannel c], blocks := [] }
  | accepted (c : ChannelId) (k : ConnectionId) (queues : QueueSizes) (endpoint : Endpoint) :
    Step { release := [.closeChannel c], blocks := [] } (some (.accept c k queues))
      [.endpoint endpoint.handle] { release := [.disconnect endpoint, .closeChannel c], blocks := [] }
  | mapped (release : List Request) (block : BlockId) :
    Step { release, blocks := [] } none [.block block] { release, blocks := [block] }
  | registered (request : Option Request) (endpoint : Endpoint) (keys : RegionKeys)
      (release : List Request) (block : BlockId) :
    Step { release := .disconnect endpoint :: release, blocks := [block] } request []
      { release := .deregister endpoint keys :: .disconnect endpoint :: release, blocks := [block] }
  | unmapped (request : Option Request) (custody : Custody) :
    Step custody request [] { custody with blocks := [] }
  | given (request : Request) (release : List Request) (reply : Except Failure request.Reply) :
    Step { release := request :: release, blocks := [] } (some request) (request.acquired reply)
      { release, blocks := [] }

def IsRelease (custody : Custody) : Prop :=
  ∀ r ∈ custody.release, ∀ reply, r.acquired reply = []

namespace Step

variable {before after : Custody} {request : Option Request} {acquired : List Handle}

theorem mem_handles (h : Step before request acquired after) {handle : Handle}
    (hmem : handle ∈ after.handles) : handle ∈ before.handles ∨ handle ∈ acquired := by
  cases h with
  | keep => exact .inl hmem
  | created => exact .inr hmem
  | accepted c k queues endpoint =>
    simp only [handles, Request.handles, List.flatMap_cons, List.flatMap_nil] at hmem ⊢
    simp only [List.mem_append, List.mem_singleton, List.map_nil, List.not_mem_nil] at hmem ⊢
    grind
  | mapped =>
    simp only [handles, List.map_nil, List.map_cons] at hmem ⊢
    simp only [List.mem_append, List.mem_singleton, List.not_mem_nil] at hmem ⊢
    grind
  | registered =>
    simp only [handles, Request.handles, List.flatMap_cons] at hmem ⊢
    simp only [List.mem_append, List.mem_singleton] at hmem ⊢
    grind
  | unmapped =>
    simp only [handles, List.map_nil, List.append_nil] at hmem
    exact .inl (List.mem_append_left _ hmem)
  | given request release reply =>
    simp only [handles, List.map_nil, List.append_nil, List.flatMap_cons] at hmem ⊢
    exact .inl (List.mem_append_right _ hmem)

theorem mem_release (h : Step before request acquired after) {r : Request} (hmem : r ∈ before.release) :
    r ∈ after.release ∨ request = some r := by
  cases h with
  | keep | unmapped | mapped => exact .inl hmem
  | created => contradiction
  | accepted => exact .inl (List.mem_cons_of_mem _ hmem)
  | registered => exact .inl (List.mem_cons_of_mem _ hmem)
  | given request release reply =>
    rcases List.mem_cons.mp hmem with rfl | hold
    · exact .inr rfl
    · exact .inl hold

theorem mem_blocks (h : Step before request acquired after) {block : BlockId}
    (hmem : block ∈ after.blocks) :
    .block block ∈ acquired ∨
      block ∈ before.blocks ∧ ∀ k, .endpoint k ∈ before.handles → .endpoint k ∈ after.handles := by
  cases h with
  | keep => exact .inr ⟨hmem, fun _ h => h⟩
  | created | accepted | unmapped | given => contradiction
  | mapped => exact .inl (List.mem_singleton.mp hmem ▸ List.mem_singleton_self _)
  | registered =>
    refine .inr ⟨hmem, fun k hk => ?_⟩
    simp only [handles, List.flatMap_cons, List.mem_append] at hk ⊢
    grind

theorem isRelease (h : Step before request acquired after) (hrelease : before.IsRelease) :
    after.IsRelease := by
  cases h with
  | keep | unmapped | mapped => exact hrelease
  | created | accepted => simp [IsRelease, Request.acquired]
  | registered =>
    intro r hr reply
    rcases List.mem_cons.mp hr with rfl | hr
    · rfl
    · exact hrelease r hr reply
  | given request release reply => exact fun r hr => hrelease r (List.mem_cons_of_mem _ hr)

theorem exists_givesBack (h : Step before request acquired after) (hrelease : before.IsRelease)
    {handle : Handle} (hmem : handle ∈ acquired) (hblock : handle.isBlock = false) :
    ∃ r ∈ after.release, r.givesBack? = some handle := by
  cases h with
  | keep | registered | unmapped => contradiction
  | given request release reply =>
    rw [hrelease request (List.mem_cons_self ..) reply] at hmem
    contradiction
  | mapped => simp_all [Handle.isBlock]
  | created c => exact ⟨.closeChannel c, List.mem_singleton_self _, List.mem_singleton.mp hmem ▸ rfl⟩
  | accepted c k queues endpoint =>
    exact ⟨.disconnect endpoint, List.mem_cons_self .., List.mem_singleton.mp hmem ▸ rfl⟩

end Step

end Custody

namespace Move

def uses : Move σ → List Handle
  | ask request _ => request.handles
  | write block _ _ _ | clear block _ => [.block block]
  | map .. | pass _ => []

inductive Leads : Move σ → List Handle → σ → Prop
  | ask (request : Request) (resume : Except Failure request.Reply → σ)
      (reply : Except Failure request.Reply) :
    Leads (.ask request resume) (request.acquired reply) (resume reply)
  | write (block start : Nat) (words : List UInt32) (next : σ) : Leads (.write block start words next) [] next
  | mapped (pages : PagePolicy) (length : Nat) (resume : Except Halt Extent → σ) (extent : Extent) :
    Leads (.map pages length resume) [.block extent.block] (resume (.ok extent))
  | unmapped (pages : PagePolicy) (length : Nat) (resume : Except Halt Extent → σ) (halt : Halt) :
    Leads (.map pages length resume) [] (resume (.error halt))
  | clear (block : Nat) (next : σ) : Leads (.clear block next) [] next
  | pass (next : σ) : Leads (.pass next) [] next

theorem uses_embed (f : σ → τ) (move : Move σ) : (move.embed f).uses = move.uses := by
  cases move <;> rfl

theorem request?_embed (f : σ → τ) (move : Move σ) : (move.embed f).request? = move.request? := by
  cases move <;> rfl

theorem leads_embed {f : σ → τ} {move : Move σ} {acquired : List Handle} {state : τ}
    (h : (move.embed f).Leads acquired state) : ∃ inner, move.Leads acquired inner ∧ state = f inner := by
  cases move with
  | ask request resume =>
    cases h with
    | ask _ _ reply => exact ⟨_, .ask request resume reply, rfl⟩
  | write block start words next =>
    cases h
    exact ⟨_, .write block start words next, rfl⟩
  | map pages length resume =>
    cases h with
    | mapped _ _ _ extent => exact ⟨_, .mapped pages length resume extent, rfl⟩
    | unmapped _ _ _ halt => exact ⟨_, .unmapped pages length resume halt, rfl⟩
  | clear block next =>
    cases h
    exact ⟨_, .clear block next, rfl⟩
  | pass next =>
    cases h
    exact ⟨_, .pass next, rfl⟩

end Move

namespace Stage

variable {name : String} {config : SessionConfig} {signals : Signals}

theorem await_cases (name : String) (config : SessionConfig) (signals : Signals) (channel : ChannelId)
    (expected : EventKind) (waiting : Stage) (ended : Halt → Stage) (found : Event → Stage) :
    (∃ halt, await name config signals channel expected waiting ended found = .pass (ended halt)) ∨
      ∃ resume, await name config signals channel expected waiting ended found =
          .ask (.nextEvent channel) resume ∧
        ∀ reply, resume reply = waiting ∨ (∃ halt, resume reply = ended halt) ∨
          ∃ event, reply = .ok (some event) ∧ event.kind = expected ∧ resume reply = found event := by
  unfold await
  split
  · exact .inl ⟨_, rfl⟩
  · split
    · exact .inl ⟨_, rfl⟩
    · split
      · exact .inl ⟨_, rfl⟩
      · refine .inr ⟨_, rfl, ?_⟩
        intro reply
        rcases reply with failure | _ | event
        · exact .inr (.inl ⟨_, rfl⟩)
        · exact .inl rfl
        · dsimp only
          split
          · exact .inr (.inl ⟨_, rfl⟩)
          · next hkind =>
            split
            · exact .inr (.inl ⟨_, rfl⟩)
            · exact .inr (.inr ⟨event, rfl, Decidable.not_not.mp hkind, rfl⟩)

theorem awaitCompletion_cases (name : String) (config : SessionConfig) (signals : Signals)
    (endpoint : Endpoint) (request : UInt64) (waiting faulted : Stage)
    (ended : Except Failure Unit → Stage) :
    (∃ stage, awaitCompletion name config signals endpoint request waiting faulted ended = .pass stage ∧
        (stage = faulted ∨ ∃ failure, stage = ended (.error failure))) ∨
      ∃ resume, awaitCompletion name config signals endpoint request waiting faulted ended =
          .ask (.poll endpoint) resume ∧
        ∀ reply, resume reply = waiting ∨ (∃ failure, resume reply = ended (.error failure)) ∨
          ∃ completion, reply = .ok (some completion) ∧ completion.status = .success ∧
            resume reply = ended (.ok ()) := by
  unfold awaitCompletion
  split
  · exact .inl ⟨_, rfl, .inl rfl⟩
  · split
    · exact .inl ⟨_, rfl, .inr ⟨_, rfl⟩⟩
    · refine .inr ⟨_, rfl, ?_⟩
      intro reply
      rcases reply with failure | completion?
      · exact .inr (.inl ⟨_, rfl⟩)
      · dsimp only
        split
        · next completion hfilter =>
          split
          · next hstatus =>
            obtain ⟨hsome, -⟩ := Option.filter_eq_some_iff.mp hfilter
            rw [hsome]
            exact .inr (.inr ⟨completion, rfl, hstatus, rfl⟩)
          · exact .inr (.inl ⟨_, rfl⟩)
        · split
          · exact .inr (.inl ⟨_, rfl⟩)
          · exact .inl rfl

theorem await_leads {channel : ChannelId} {expected : EventKind} {waiting stage' : Stage}
    {ended : Halt → Stage} {found : Event → Stage} {acquired : List Handle}
    (h : (await name config signals channel expected waiting ended found).Leads acquired stage') :
    acquired = [] ∧
      (stage' = waiting ∨ (∃ halt, stage' = ended halt) ∨ ∃ event, stage' = found event) := by
  rcases await_cases name config signals channel expected waiting ended found with
    ⟨halt, heq⟩ | ⟨resume, heq, hresume⟩
  · rw [heq] at h
    cases h
    exact ⟨rfl, .inr (.inl ⟨halt, rfl⟩)⟩
  · rw [heq] at h
    cases h with
    | ask _ _ reply =>
      refine ⟨rfl, ?_⟩
      rcases hresume reply with hwaiting | hended | ⟨event, -, -, hfound⟩
      · exact .inl hwaiting
      · exact .inr (.inl hended)
      · exact .inr (.inr ⟨event, hfound⟩)

theorem awaitCompletion_leads {endpoint : Endpoint} {request : UInt64}
    {waiting faulted stage' : Stage} {ended : Except Failure Unit → Stage} {acquired : List Handle}
    (h : (awaitCompletion name config signals endpoint request waiting faulted ended).Leads
      acquired stage') :
    acquired = [] ∧ (stage' = waiting ∨ stage' = faulted ∨ ∃ result, stage' = ended result) := by
  rcases awaitCompletion_cases name config signals endpoint request waiting faulted ended with
    ⟨stage, heq, hstage⟩ | ⟨resume, heq, hresume⟩
  · rw [heq] at h
    cases h
    refine ⟨rfl, .inr ?_⟩
    rcases hstage with hfaulted | ⟨failure, hended⟩
    · exact .inl hfaulted
    · exact .inr ⟨_, hended⟩
  · rw [heq] at h
    cases h with
    | ask _ _ reply =>
      refine ⟨rfl, ?_⟩
      rcases hresume reply with hwaiting | ⟨failure, hended⟩ | ⟨completion, -, -, hended⟩
      · exact .inl hwaiting
      · exact .inr (.inr ⟨_, hended⟩)
      · exact .inr (.inr ⟨_, hended⟩)

/--
One round of waiting for the acknowledgement, with the time limit of the wait: a fault, an end without a look, or a
look at the queue. A look that comes too late ends the wait whatever it finds.
-/
inductive Round (config : SessionConfig) (signals : Signals) (endpoint : Endpoint) (waiting faulted : Stage)
    (ended : Except Failure Unit → Stage) : Move Stage → Prop
  | fault (hclock : config.ackTimeout.isReachable signals.now = false) :
    Round config signals endpoint waiting faulted ended (.pass faulted)
  | cancelled (hclock : config.ackTimeout.isReachable signals.now = true) (result : Except Failure Unit) :
    Round config signals endpoint waiting faulted ended (.pass (ended result))
  | look (hclock : config.ackTimeout.isReachable signals.now = true) (hcancelled : signals.cancelled = false)
    (resume : Except Failure (Option Completion) → Stage)
    (hresume : ∀ reply, (∃ result, resume reply = ended result) ∨
      (config.ackTimeout.nanos = 0 || signals.expired) = false ∧ resume reply = waiting) :
    Round config signals endpoint waiting faulted ended (.ask (.poll endpoint) resume)

theorem round_awaitCompletion {endpoint : Endpoint} {request : UInt64} {waiting faulted : Stage}
    {ended : Except Failure Unit → Stage} : Round config signals endpoint waiting faulted ended
      (awaitCompletion name config signals endpoint request waiting faulted ended) := by
  unfold awaitCompletion
  split
  · next hclock =>
    apply Round.fault
    simpa using hclock
  · next hclock =>
    have hreachable : config.ackTimeout.isReachable signals.now = true := by simpa using hclock
    split
    · exact .cancelled hreachable _
    · next hcancelled =>
      apply Round.look hreachable (by simpa using hcancelled)
      intro reply
      rcases reply with failure | completion?
      · exact .inl ⟨_, rfl⟩
      · dsimp only
        split
        · split
          · exact .inl ⟨_, rfl⟩
          · exact .inl ⟨_, rfl⟩
        · split
          · exact .inl ⟨_, rfl⟩
          · next hwaits => exact .inr ⟨by simpa using hwaits, rfl⟩

theorem Round.leads {endpoint : Endpoint} {waiting faulted stage' : Stage} {ended : Except Failure Unit → Stage}
    {move : Move Stage} {acquired : List Handle} (h : Round config signals endpoint waiting faulted ended move)
    (hleads : move.Leads acquired stage') :
    ¬config.ackTimeout.isReachable signals.now ∧ stage' = faulted ∨ config.ackTimeout.isReachable signals.now ∧
      (stage' = waiting ∧ signals.cancelled = false ∧ (config.ackTimeout.nanos = 0 || signals.expired) = false ∨
        ∃ result, stage' = ended result) := by
  cases h with
  | fault hclock =>
    cases hleads
    exact .inl ⟨Bool.eq_false_iff.mp hclock, rfl⟩
  | cancelled hclock result =>
    cases hleads
    exact .inr ⟨hclock, .inr ⟨result, rfl⟩⟩
  | look hclock hcancelled resume hresume =>
    cases hleads with
    | ask _ _ reply =>
      rcases hresume reply with hended | ⟨hlimit, heq⟩
      · exact .inr ⟨hclock, .inr hended⟩
      · exact .inr ⟨hclock, .inl ⟨heq, hcancelled, hlimit⟩⟩

theorem uses_await {channel : ChannelId} {expected : EventKind} {waiting : Stage}
    {ended : Halt → Stage} {found : Event → Stage} {handle : Handle}
    (h : handle ∈ (await name config signals channel expected waiting ended found).uses) :
    handle = .channel channel := by
  rcases await_cases name config signals channel expected waiting ended found with
    ⟨halt, heq⟩ | ⟨resume, heq, -⟩
  · rw [heq] at h
    contradiction
  · rw [heq] at h
    exact List.mem_singleton.mp h

theorem uses_awaitCompletion {endpoint : Endpoint} {request : UInt64} {waiting faulted : Stage}
    {ended : Except Failure Unit → Stage} {handle : Handle}
    (h : handle ∈ (awaitCompletion name config signals endpoint request waiting faulted ended).uses) :
    handle = .endpoint endpoint.handle := by
  rcases awaitCompletion_cases name config signals endpoint request waiting faulted ended with
    ⟨stage, heq, -⟩ | ⟨resume, heq, -⟩
  · rw [heq] at h
    contradiction
  · rw [heq] at h
    exact List.mem_singleton.mp h

theorem mem_handles_of_uses {stage : Stage} {handle : Handle}
    (h : handle ∈ (stage.next name config signals).uses) : handle ∈ stage.custody.handles := by
  cases stage with
  | awaitRequest binding =>
    simp only [next] at h
    obtain rfl := uses_await h
    exact List.mem_singleton_self _
  | awaitEstablished binding endpoint =>
    simp only [next] at h
    obtain rfl := uses_await h
    exact List.mem_cons_of_mem _ (List.mem_singleton_self _)
  | awaitAck binding endpoint region =>
    simp only [next] at h
    obtain rfl := uses_awaitCompletion h
    exact List.mem_cons_self ..
  | announce binding endpoint region =>
    simp only [next] at h
    split at h
    · contradiction
    · obtain rfl := List.mem_singleton.mp h
      apply Custody.mem_handles_of_mem_blocks
      exact List.mem_singleton_self _
  | openChannel | rest => contradiction
  | bind | listen | giveUp | accept => exact h
  | send | capture =>
    obtain rfl := List.mem_singleton.mp h
    exact List.mem_cons_self ..
  | wipe =>
    obtain rfl := List.mem_singleton.mp h
    apply Custody.mem_handles_of_mem_blocks
    exact List.mem_singleton_self _
  | register binding endpoint extent =>
    rcases List.mem_cons.mp h with rfl | h
    · exact List.mem_cons_self ..
    · obtain rfl := List.mem_singleton.mp h
      apply Custody.mem_handles_of_mem_blocks
      exact List.mem_singleton_self _

theorem custody_step {stage stage' : Stage} {acquired : List Handle}
    (h : (stage.next name config signals).Leads acquired stage') :
    Custody.Step stage.custody (stage.next name config signals).request? acquired stage'.custody := by
  cases stage with
  | awaitRequest binding =>
    simp only [next] at h
    obtain ⟨rfl, rfl | ⟨halt, rfl⟩ | ⟨event, rfl⟩⟩ := await_leads h
    · exact .keep ..
    · exact .keep ..
    · exact .keep ..
  | awaitEstablished binding endpoint =>
    simp only [next] at h
    obtain ⟨rfl, rfl | ⟨halt, rfl⟩ | ⟨event, rfl⟩⟩ := await_leads h
    · exact .keep ..
    · exact .keep ..
    · exact .keep ..
  | awaitAck binding endpoint region =>
    simp only [next] at h
    obtain ⟨rfl, rfl | rfl | ⟨result, rfl⟩⟩ := awaitCompletion_leads h
    · exact .keep ..
    · exact .keep ..
    · exact .keep ..
  | announce binding endpoint region =>
    simp only [next] at h ⊢
    split at h
    · cases h
      exact .keep ..
    · cases h
      exact .keep ..
  | wipe binding endpoint region result =>
    cases h
    rcases result with _ | _
    · exact .keep ..
    · exact .keep ..
  | rest phase result =>
    cases h
    exact .keep ..
  | openChannel port =>
    cases h with
    | ask _ _ reply =>
      rcases reply with _ | channel
      · exact .keep ..
      · exact .created channel
  | bind binding | listen binding =>
    cases h with
    | ask _ _ reply =>
      rcases reply with _ | _
      · exact .keep ..
      · exact .keep ..
  | giveUp channel failure =>
    cases h with
    | ask _ _ reply => exact .given ..
  | accept binding connection =>
    cases h with
    | ask _ _ reply =>
      rcases reply with _ | endpoint
      · exact .keep ..
      · exact .accepted binding.channel connection config.queues endpoint
  | register binding endpoint extent =>
    cases h with
    | ask _ _ reply =>
      rcases reply with _ | keys
      · exact .unmapped ..
      · exact .registered ..
  | send binding endpoint region | capture binding endpoint region =>
    cases h with
    | ask _ _ reply =>
      rcases reply with _ | _
      · exact .keep ..
      · exact .keep ..

end Stage

namespace Initiation

variable {layout : Layout} {config : StoreConfig} {signals : Signals}

theorem next_run {stage : Stage} (h : stage.result? = none) :
    (run stage).next layout config signals =
      (stage.next config.name config.session signals).embed run := by
  cases stage with
  | rest phase result => contradiction
  | _ => rfl

theorem custody_after (phase : Phase) (result : Except Halt Unit) :
    Custody.Step phase.custody none [] (after phase result).custody := by
  unfold after
  split
  · exact .keep ..
  · exact .keep ..
  · exact .keep ..
  · exact .keep ..
  · exact .unmapped ..
  · exact .unmapped ..

theorem mem_handles_of_uses {initiation : Initiation} {handle : Handle}
    (h : handle ∈ (initiation.next layout config signals).uses) :
    handle ∈ initiation.custody.handles := by
  cases initiation with
  | run stage =>
    rcases hrest : stage.result? with _ | result
    · rw [next_run hrest, Move.uses_embed] at h
      exact Stage.mem_handles_of_uses h
    · cases stage with
      | rest phase result => contradiction
      | _ => contradiction
  | allocate binding endpoint =>
    simp only [next] at h
    split at h
    · contradiction
    · contradiction
  | clear binding endpoint extent =>
    obtain rfl := List.mem_singleton.mp h
    apply Custody.mem_handles_of_mem_blocks
    exact List.mem_singleton_self _
  | giveBack requests halt =>
    cases requests with
    | nil => contradiction
    | cons request requests => exact Custody.mem_handles_of_mem_release (List.mem_cons_self ..) h
  | finished result => contradiction

theorem custody_step {initiation initiation' : Initiation} {acquired : List Handle}
    (h : (initiation.next layout config signals).Leads acquired initiation') :
    Custody.Step initiation.custody (initiation.next layout config signals).request? acquired
      initiation'.custody := by
  cases initiation with
  | run stage =>
    rcases hrest : stage.result? with _ | result
    · rw [next_run hrest] at h ⊢
      obtain ⟨stage', hstage, rfl⟩ := Move.leads_embed h
      rw [Move.request?_embed]
      exact Stage.custody_step hstage
    · cases stage with
      | rest phase result =>
        cases h
        exact custody_after phase result
      | _ => contradiction
  | allocate binding endpoint =>
    simp only [next] at h ⊢
    split at h
    · cases h
      exact .keep ..
    · next size hsize =>
      cases h with
      | mapped _ _ _ extent =>
        dsimp only
        split
        · exact .mapped ..
        · exact .mapped ..
      | unmapped _ _ _ halt => exact .keep ..
  | clear binding endpoint extent =>
    cases h
    exact .keep ..
  | giveBack requests halt =>
    cases requests with
    | nil =>
      cases h
      exact .keep ..
    | cons request requests =>
      cases h with
      | ask _ _ reply => exact .given ..
  | finished result =>
    cases h
    exact .keep ..

end Initiation

end RemoteSlots
