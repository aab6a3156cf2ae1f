import RemoteSlots.Proofs.World.Succession

/-!
This module shows what becomes of time limits that the clock cannot tell: no initiation ends well with one, and an
initiation that broke off because of one is the only reason why a store stays claimed when no call has it.
-/

namespace RemoteSlots

open Std

namespace SessionConfig

def TellsEvents (config : SessionConfig) (now : Duration) : Prop :=
  ∀ limit, config.eventTimeout = some limit → limit.isReachable now

structure IsTimely (config : SessionConfig) (now : Duration) : Prop where
  event : config.TellsEvents now
  ack : config.ackTimeout.isReachable now

variable {config : SessionConfig} {now : Duration}

theorem any_unreachable_iff : config.eventTimeout.any (!·.isReachable now) ↔ ¬config.TellsEvents now := by
  unfold TellsEvents
  cases config.eventTimeout <;> simp

theorem IsTimely.any_unreachable (h : config.IsTimely now) : config.eventTimeout.any (!·.isReachable now) = false :=
  Bool.eq_false_iff.mpr fun hany => any_unreachable_iff.mp hany h.event

end SessionConfig

structure StoreConfig.IsSound (config : StoreConfig) (now : Duration) : Prop where
  timely : config.session.IsTimely now
  pages : config.pages.pageSize ≠ 0

def Phase.Tells (config : SessionConfig) (now : Duration) : Phase → Prop
  | unbound | listening _ => True
  | requested .. | accepted .. | registered .. => config.TellsEvents now
  | advertised .. | ready .. => config.IsTimely now

def Stage.Tells (config : SessionConfig) (now : Duration) (stage : Stage) : Prop :=
  stage.phase.Tells config now ∧
    match stage with
    | wipe _ _ _ (.ok ()) => config.IsTimely now
    | rest _ (.error .faulted) => ¬config.IsTimely now
    | _ => True

def StoreConfig.TellsOf (config : StoreConfig) (now : Duration) : Except Halt α → Prop
  | .ok _ => config.session.IsTimely now
  | .error (.failed _) => True
  | .error .faulted => ¬config.IsSound now

def Initiation.Tells (config : StoreConfig) (now : Duration) : Initiation → Prop
  | run stage => stage.Tells config.session now
  | allocate .. | clear .. => config.session.TellsEvents now
  | giveBack _ halt => config.TellsOf now (.error halt : Except Halt Unit)
  | finished result => config.TellsOf now result

def CallStage.Tells (config : StoreConfig) (now : Duration) : CallStage → Prop
  | initiate initiation => initiation.Tells config now
  | free (.ok _) | publish _ => config.session.IsTimely now
  | .over result => config.TellsOf now result
  | check | claim | free (.error _) | discard _ => True

theorem CallStage.tells_initiate {config : StoreConfig} {now : Duration} {initiation : Initiation} :
    (initiate initiation).Tells config now ↔ initiation.Tells config now := Iff.rfl

section Moves

variable {name : String} {signals : Signals} {acquired : List Handle}

theorem Stage.await_tells {config : SessionConfig} {channel : ChannelId} {expected : EventKind}
    {waiting stage' : Stage} {ended : Halt → Stage} {found : Event → Stage}
    (h : (await name config signals channel expected waiting ended found).Leads acquired stage') :
    ¬config.TellsEvents signals.now ∧ stage' = ended .faulted ∨ config.TellsEvents signals.now ∧
      (stage' = waiting ∧ signals.cancelled = false ∧ outOfTime config.eventTimeout signals = none ∨
        (∃ failure, stage' = ended (.failed failure)) ∨ ∃ event, stage' = found event) := by
  unfold await at h
  split at h
  · next hunreachable =>
    cases h
    exact .inl ⟨SessionConfig.any_unreachable_iff.mp hunreachable, rfl⟩
  · next hreachable =>
    refine .inr ⟨Classical.not_not.mp (mt SessionConfig.any_unreachable_iff.mpr hreachable), ?_⟩
    split at h
    · cases h
      exact .inr (.inl ⟨_, rfl⟩)
    · next hcancelled =>
      split at h
      · cases h
        exact .inr (.inl ⟨_, rfl⟩)
      · next hlimit =>
        cases h with
        | ask _ _ reply =>
          rcases reply with failure | _ | event
          · exact .inr (.inl ⟨_, rfl⟩)
          · exact .inl ⟨rfl, by simpa using hcancelled, hlimit⟩
          · dsimp only
            split
            · exact .inr (.inl ⟨_, rfl⟩)
            · split
              · exact .inr (.inl ⟨_, rfl⟩)
              · exact .inr (.inr ⟨event, rfl⟩)

theorem Stage.tells_of_leads {config : SessionConfig} {stage stage' : Stage} (h : stage.Tells config signals.now)
    (hleads : (stage.next name config signals).Leads acquired stage') : stage'.Tells config signals.now := by
  cases stage with
  | awaitRequest binding =>
    simp only [next] at hleads
    rcases await_tells hleads with ⟨huntold, rfl⟩ | ⟨htold, ⟨rfl, -⟩ | ⟨failure, rfl⟩ | ⟨event, rfl⟩⟩
    · exact ⟨trivial, fun htimely => huntold htimely.event⟩
    · exact h
    · exact ⟨trivial, trivial⟩
    · exact ⟨htold, trivial⟩
  | awaitEstablished binding endpoint =>
    simp only [next] at hleads
    rcases await_tells hleads with ⟨huntold, rfl⟩ | ⟨htold, ⟨rfl, -⟩ | ⟨failure, rfl⟩ | ⟨event, rfl⟩⟩
    · exact ⟨h.1, fun htimely => huntold htimely.event⟩
    · exact h
    · exact ⟨h.1, trivial⟩
    · exact ⟨h.1, trivial⟩
  | awaitAck binding endpoint region =>
    simp only [next] at hleads
    rcases round_awaitCompletion.leads hleads with ⟨huntold, rfl⟩ | ⟨htold, ⟨rfl, -⟩ | ⟨result, rfl⟩⟩
    · exact ⟨h.1, fun htimely => huntold htimely.ack⟩
    · exact h
    · rcases result with failure | ⟨⟩
      · exact ⟨h.1, trivial⟩
      · exact ⟨h.1, h.1, htold⟩
  | announce binding endpoint region =>
    simp only [next] at hleads
    split at hleads
    · cases hleads
      exact ⟨h.1, trivial⟩
    · cases hleads
      exact ⟨h.1, trivial⟩
  | wipe binding endpoint region result =>
    cases hleads
    rcases result with failure | ⟨⟩
    · exact ⟨h.1, trivial⟩
    · exact ⟨h.2, trivial⟩
  | rest phase result =>
    cases hleads
    exact h
  | openChannel | bind | listen | giveUp | accept | register | send | capture =>
    cases hleads with
    | ask _ _ reply =>
      rcases reply with failure | reply
      · exact ⟨h.1, trivial⟩
      · exact ⟨h.1, trivial⟩

theorem Memory.allocate_ne_faulted {memory : Memory} {pages : PagePolicy} {length : Nat} (h : pages.pageSize ≠ 0) :
    memory.allocate pages length ≠ .error .faulted := by
  unfold allocate pagesFor?
  rw [if_neg h]
  dsimp only
  split
  · simp
  · split
    · simp
    · split <;> simp

theorem Memory.pageSize_ne_zero_of_allocate {memory : Memory} {pages : PagePolicy} {length : Nat}
    {out : BlockId × Memory} (h : memory.allocate pages length = .ok out) : pages.pageSize ≠ 0 := by
  intro hzero
  unfold allocate pagesFor? at h
  rw [if_pos hzero] at h
  split at h <;> contradiction

theorem Initiation.tells_abandon {config : StoreConfig} {now : Duration} (phase : Phase) (failure : Failure) :
    (abandon phase (.failed failure)).Tells config now := trivial

theorem World.tells_allocate {w : World} {fabric : FabricId} {layout : Layout} {config : StoreConfig}
    {binding : Binding} {endpoint : Endpoint} (h : config.session.TellsEvents signals.now) :
    (w.perform fabric ((Initiation.allocate binding endpoint).next layout config signals)).1.Tells config
      signals.now := by
  simp only [Initiation.next]
  split
  · exact Initiation.tells_abandon ..
  · next size hsize =>
    simp only [perform]
    split
    · dsimp only
      split
      · exact h
      · exact ⟨h, trivial⟩
    · next halt hhalt =>
      cases halt with
      | failed failure => exact Initiation.tells_abandon ..
      | faulted => exact fun hsound => Memory.allocate_ne_faulted hsound.pages hhalt

theorem World.tells_initiation {w : World} {fabric : FabricId} {layout : Layout} {config : StoreConfig}
    {initiation : Initiation} (h : initiation.Tells config signals.now) :
    (w.perform fabric (initiation.next layout config signals)).1.Tells config signals.now := by
  cases initiation with
  | run stage =>
    rcases hrest : stage.result? with _ | result
    · rw [Initiation.next_run hrest, perform_embed]
      exact Stage.tells_of_leads h (perform_leads ..)
    · obtain ⟨phase, rfl⟩ : ∃ phase, stage = .rest phase result := by
        cases stage <;> simp_all [Stage.result?]
      rcases result with (failure | _) | ⟨⟩
      · exact Initiation.tells_abandon ..
      · exact fun hsound => h.2 hsound.timely
      · cases phase with
        | unbound | listening | requested => exact Initiation.tells_abandon ..
        | accepted | ready => exact h.1
        | registered | advertised => exact ⟨h.1, trivial⟩
  | allocate binding endpoint => exact tells_allocate h
  | clear binding endpoint extent => exact ⟨h, trivial⟩
  | giveBack requests halt =>
    rcases requests with _ | ⟨request, requests⟩
    · cases halt <;> exact h
    · exact h
  | finished result => exact h

theorem World.tells_call {w : World} {fabric : FabricId} {store : Store} {stage : CallStage}
    (h : stage.Tells store.config signals.now) :
    (w.perform fabric (stage.next store signals)).1.Tells store.config signals.now := by
  cases stage with
  | check =>
    simp only [CallStage.next, perform]
    split <;> trivial
  | claim =>
    simp only [CallStage.next, perform]
    split
    · trivial
    · exact ⟨trivial, trivial⟩
  | publish =>
    simp only [CallStage.next, perform]
    split
    · trivial
    · exact h
  | initiate initiation =>
    cases initiation with
    | finished result =>
      rcases result with (failure | _) | active
      · trivial
      · exact h
      · exact h
    | run | allocate | clear | giveBack =>
      rw [CallStage.tells_initiate] at h
      simp only [CallStage.next, perform_embed, CallStage.tells_initiate]
      exact tells_initiation h
  | free result =>
    rcases result with failure | active
    · trivial
    · exact h
  | discard requests =>
    rcases requests with _ | ⟨request, requests⟩
    · trivial
    · trivial
  | _ => exact h

end Moves

def CallStage.claims : CallStage → Bool
  | initiate _ | free _ => true
  | check | claim | publish _ | discard _ | .over _ => false

theorem Store.long_new {layout : Layout} {config : StoreConfig} {fabric : FabricId} {store : Store}
    (h : Store.new layout config fabric = .ok store) :
    store.initiating = false ∧ Metadata.wireLength ≤ store.bufferSize := by
  obtain ⟨hlong, rfl⟩ := Store.eq_of_new h
  exact ⟨rfl, hlong⟩

namespace World

variable {w : World}

def HasClaimant (w : World) (s : StoreId) : Prop :=
  ∃ (id : CallId) (stage : CallStage), w.calls[id]? = some ⟨s, stage⟩ ∧ stage.claims

/--
What the calls of a world tell about their stores, and why a store is claimed: a call has it, or had it when it broke
off.
-/
structure Clocked (w : World) : Prop where
  calls : ∀ (id : CallId) (call : Call) (store : Store), w.calls[id]? = some call →
    w.stores[call.store]? = some store → call.stage.Tells store.config w.now
  stores : ∀ (s : StoreId) (store : Store), w.stores[s]? = some store → store.initiating →
    w.HasClaimant s ∨ ¬store.config.IsSound w.now
  long : ∀ (s : StoreId) (store : Store), w.stores[s]? = some store → Metadata.wireLength ≤ store.bufferSize

theorem Clocked.tells_act (hc : w.Clocked) (h : w.Sound) (ht : w.Tidy) {action : Action} {id : CallId} {call' : Call}
    {store' : Store} (hcall' : (w.act action).calls[id]? = some call')
    (hstore' : (w.act action).stores[call'.store]? = some store') :
    call'.stage.Tells store'.config (w.act action).now := by
  rw [now_act h ht]
  cases callSource_act h ht hcall' with
  | kept hcall =>
    obtain ⟨store, hstore⟩ := Option.isSome_iff_exists.mp (ht.called id call' hcall)
    rw [(retains_act h ht hstore hstore').setup.config]
    exact hc.calls id call' store hcall hstore
  | started hstage =>
    rw [hstage]
    trivial
  | @moved call store expired hmove hcall hstore hstage =>
    subst hstage
    rw [(retains_act h ht hstore hstore').setup.config]
    exact tells_call (hc.calls id call store hcall hstore)

theorem Clocked.claimed_act (hc : w.Clocked) (h : w.Sound) (ht : w.Tidy) {action : Action} {s : StoreId}
    {store store' : Store} (hstore : w.stores[s]? = some store) (hclaimed : store.initiating)
    (hstore' : (w.act action).stores[s]? = some store') (hclaimed' : store'.initiating) :
    (w.act action).HasClaimant s ∨ ¬store'.config.IsSound (w.act action).now := by
  rw [now_act h ht]
  have hconfig := (retains_act h ht hstore hstore').setup.config
  rcases hc.stores s store hstore hclaimed with ⟨id, stage, hcall, hclaims⟩ | hbroken
  · by_cases hmove : action.IsMoveOf id
    · obtain ⟨expired, rfl⟩ := hmove
      have hspec := stepCall_spec hcall hstore expired
      have hcalls := hspec.calls id
      have hstores := hspec.stores s
      rw [← act_step hcall hstore, if_pos rfl] at hcalls hstores
      obtain rfl := Option.some.inj (hstores.symm.trans hstore')
      have hfollows := CallStage.follows_of_leads (perform_leads w store.fabric
        (stage.next store { cancelled := store.cancelled, expired, now := w.now }))
      have htells := hc.calls id _ store hcall hstore
      revert hfollows hcalls
      generalize (w.perform store.fabric
        (stage.next store { cancelled := store.cancelled, expired, now := w.now })).1 = stage'
      intro hcalls hfollows
      cases hfollows with
      | run | acquired | failed => exact .inl ⟨id, _, hcalls, rfl⟩
      | faulted => exact .inr htells
      | _ => contradiction
    · have hresult : (⟨s, stage⟩ : Call).result? = none := by
        cases stage <;> first | rfl | contradiction
      exact .inl ⟨id, stage, World.calls_act h ht hcall hresult hmove, hclaims⟩
  · exact .inr (hconfig ▸ hbroken)

theorem Clocked.act (hc : w.Clocked) (h : w.Sound) (ht : w.Tidy) (action : Action) : (w.act action).Clocked where
  calls := fun _ _ _ hcall' hstore' => hc.tells_act h ht hcall' hstore'
  stores := by
    intro s store' hstore' hclaimed'
    cases storeSource_act h ht hstore' with
    | kept hstore hsame => exact hc.claimed_act h ht hstore (hsame.initiating ▸ hclaimed') hstore' hclaimed'
    | created _ hnew =>
      rw [(Store.long_new hnew).1] at hclaimed'
      contradiction
    | @moved id call store expired hmove hcall hown hstore hupdate =>
      by_cases hclaimed : store.initiating
      · exact hc.claimed_act h ht hstore hclaimed hstore' hclaimed'
      -- The store was free, so the move claims it.
      · subst hmove hupdate hown
        obtain ⟨s, stage⟩ := call
        have hcalls := (stepCall_spec hcall hstore expired).calls id
        rw [← act_step hcall hstore, if_pos rfl] at hcalls
        cases stage with
        | claim =>
          simp only [CallStage.next, perform, if_neg hclaimed] at hcalls
          exact .inl ⟨id, _, hcalls, rfl⟩
        | free result => contradiction
        | _ => exact absurd hclaimed' hclaimed
  long := by
    intro s store' hstore'
    cases storeSource_act h ht hstore' with
    | kept hstore hsame =>
      have hlong := hc.long s _ hstore
      rwa [Store.bufferSize, ← hsame.config, ← hsame.layout] at hlong
    | created _ hnew => exact (Store.long_new hnew).2
    | @moved id call store expired _ _ _ hstore hupdate =>
      have hlong := hc.long s store hstore
      have hsetup := sameSetup_update call.stage store
      rwa [Store.bufferSize, ← hsetup.config, ← hsetup.layout, ← hupdate] at hlong

theorem Reachable.clocked (h : w.Reachable) : w.Clocked := by
  induction w, h using Reachable.induct with
  | initial mapper now => constructor <;> simp [World.initial, empty]
  | act w action _ hsound htidy ih => exact ih.act hsound htidy action

end World

end RemoteSlots
