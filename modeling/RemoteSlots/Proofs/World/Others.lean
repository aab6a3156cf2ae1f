import RemoteSlots.Proofs.World.Reachable

/-!
This module shows what everybody else can do to a call that initiates a store: its connection only changes
by what the peer does, its block only by accepted writes of the peer, and the store keeps its setup.
-/

namespace RemoteSlots

def Action.IsMoveOf (id : CallId) (action : Action) : Prop :=
  ∃ expired, action = .step (.call id) expired

/--
What an action does to a connection that is in use: only its peer can do something to it from outside.
-/
def Action.effectOn (k : ConnectionId) (action : Action) (link : Link) : Link :=
  match action with
  | receive peer _ => if peer = k then { link with inbox := link.inbox.tail } else link
  | write peer id address key words =>
    if peer = k then Loopback.writeEffect id address key words.length link else link
  | hangUp peer => if peer = k then { link with peerClosed := true } else link
  | _ => link

namespace World

variable {w : World}

theorem effects_step (task : Task) (expired : Bool) :
    Effects (w.MayUse (some task.party)) w.memory w.net (w.step task expired).2.memory
      (w.step task expired).2.net := by
  cases task with
  | session id =>
    simp only [step]
    split
    · exact .refl
    · next session hsession =>
      refine (perform_effects w session.fabric _).mono fun handle hmem => ?_
      obtain ⟨hmem, hvisible⟩ := FabricId.mem_visible.mp hmem
      simp only [MayUse, Task.party, holdings, custody?, hsession, Option.map_some]
      exact FabricId.mem_visible.mpr ⟨Stage.mem_handles_of_uses hmem, hvisible⟩
  | call id =>
    simp only [step]
    split
    · exact .refl
    · next call hcall =>
      split
      · exact .refl
      · next store hstore =>
        have hspec := stepCall_spec hcall hstore expired
        rw [hspec.memory, hspec.net]
        refine (perform_effects w store.fabric _).mono fun handle hmem => ?_
        obtain ⟨hmem, hvisible⟩ := FabricId.mem_visible.mp hmem
        simp only [MayUse, Task.party, holdings, custody?_of_call hcall hstore]
        exact FabricId.mem_visible.mpr ⟨CallStage.mem_handles_of_uses hmem, hvisible⟩

theorem effects_act (h : w.Sound) (ht : w.Tidy) {action : Action} (hpeer : ¬action.isPeer) :
    Effects (w.MayUse (w.actor? action)) w.memory w.net (w.act action).memory (w.act action).net := by
  by_cases hplain : action.isPlain
  · exact (act_plain h hplain hpeer).effects
  · by_cases hstep : ∃ task expired, action = .step task expired
    · obtain ⟨task, expired, rfl⟩ := hstep
      exact effects_step task expired
    · by_cases hstart : ∃ id operation, action = .startSession id operation
      · obtain ⟨id, operation, rfl⟩ := hstart
        rcases act_startSession w id operation with heq | ⟨session, stage, -, -, -, heq⟩
        · rw [heq]
          exact .refl
        · rw [heq]
          exact .refl
      · exact (act_registry ht hplain (fun task expired heq => hstep ⟨task, expired, heq⟩)
          fun id operation heq => hstart ⟨id, operation, heq⟩).2.2

theorem isMoveOf_of_actor? {action : Action} {id : CallId} (h : w.actor? action = some (.call id)) :
    action.IsMoveOf id := by
  cases action with
  | step task expired =>
    cases task with
    | call other =>
      injection h with h
      injection h with h
      exact ⟨expired, by rw [h]⟩
    | session other => simp [actor?, Task.party] at h
  | _ => simp [actor?] at h

theorem act_evolves (h : w.Sound) (ht : w.Tidy) (action : Action) : w.net.Evolves (w.act action).net := by
  by_cases hpeer : action.isPeer
  · exact (act_peer h hpeer).2.evolves
  · exact ((effects_act h ht hpeer).advances h.net fun handle huse => h.isIssued_of_mayUse huse).evolves

def MovesOn (w : World) (s : StoreId) (action : Action) : Prop :=
  ∃ other expired call, action = .step (.call other) expired ∧ w.calls[other]? = some call ∧ call.store = s

theorem calls_act (h : w.Sound) (ht : w.Tidy) {action : Action} {id : CallId} {call : Call}
    (hcall : w.calls[id]? = some call) (hresult : call.result? = none) (hmove : ¬action.IsMoveOf id) :
    (w.act action).calls[id]? = some call := by
  by_cases hstep : ∃ task expired, action = .step task expired
  · obtain ⟨task, expired, rfl⟩ := hstep
    cases task with
    | session other =>
      simp only [act, step]
      split
      · exact hcall
      · next session _ =>
        have hcalls : (w.stepSession other session expired).2.calls = w.calls := calls_perform ..
        rw [hcalls]
        exact hcall
    | call other =>
      have hne : other ≠ id := fun heq => hmove ⟨expired, by rw [heq]⟩
      simp only [act, step]
      split
      · exact hcall
      · next call' hcall' =>
        split
        · exact hcall
        · next store hstore =>
          rw [(stepCall_spec hcall' hstore expired).calls, if_neg hne]
          exact hcall
  · have hcarries := carries_act h ht fun task expired heq => hstep ⟨task, expired, heq⟩
    rcases hcarries.ended id call hcall with hsame | hsome
    · exact hsame
    · rw [hresult] at hsome
      contradiction

theorem sameSetup_update (stage : CallStage) (store : Store) : store.SameSetup (stage.update store) := by
  unfold CallStage.update
  split <;> exact ⟨rfl, rfl, rfl⟩

theorem stores_act (h : w.Sound) (ht : w.Tidy) {action : Action} {id : CallId} {call : Call} {store : Store}
    (hcall : w.calls[id]? = some call) (hstore : w.stores[call.store]? = some store)
    (hcall' : (w.act action).calls[id]? = some call) :
    ∃ store', (w.act action).stores[call.store]? = some store' ∧ store.SameSetup store' ∧
      (¬w.MovesOn call.store action → store.SameAs store') := by
  have hsame : ∀ store', (w.act action).stores[call.store]? = some store' → store.SameAs store' →
      ∃ store', (w.act action).stores[call.store]? = some store' ∧ store.SameSetup store' ∧
        (¬w.MovesOn call.store action → store.SameAs store') :=
    fun store' hstore' hsame => ⟨store', hstore', hsame.setup, fun _ => hsame⟩
  by_cases hstep : ∃ task expired, action = .step task expired
  · obtain ⟨task, expired, rfl⟩ := hstep
    cases task with
    | session other =>
      apply hsame store _ (.refl store)
      simp only [act, step]
      split
      · exact hstore
      · next session _ =>
        have hstores : (w.stepSession other session expired).2.stores = w.stores := stores_perform ..
        rw [hstores]
        exact hstore
    | call other =>
      rcases hother : w.calls[other]? with _ | call'
      · apply hsame store _ (.refl store)
        simp only [act, step, hother]
        exact hstore
      · rcases hstore' : w.stores[call'.store]? with _ | store'
        · apply hsame store _ (.refl store)
          simp only [act, step, hother, hstore']
          exact hstore
        · have hstores := (stepCall_spec hother hstore' expired).stores call.store
          by_cases heq : call'.store = call.store
          · rw [if_pos heq] at hstores
            rw [heq, hstore] at hstore'
            injection hstore' with hstore'
            subst hstore'
            refine ⟨_, ?_, sameSetup_update call'.stage store,
              fun hquiet => absurd ⟨other, expired, call', rfl, hother, heq⟩ hquiet⟩
            simp only [act, step, hother, heq, hstore]
            exact hstores
          · rw [if_neg heq, hstore] at hstores
            apply hsame store _ (.refl store)
            simp only [act, step, hother, hstore']
            exact hstores
  · have hcarries := carries_act h ht fun task expired heq => hstep ⟨task, expired, heq⟩
    have hsome := hcarries.called id call hcall' hcall (by rw [hstore]; rfl)
    obtain ⟨store', hstore'⟩ := Option.isSome_iff_exists.mp hsome
    rcases hcarries.stores call.store store' hstore' with ⟨old, hold, hsameAs⟩ | ⟨hlt, -⟩
    · rw [hstore] at hold
      injection hold with hold
      exact hsame store' hstore' (hold ▸ hsameAs)
    · exact absurd (ht.stores_le _ store hstore) (Nat.not_le_of_lt hlt)

theorem effectOn_of_not_isPeer {action : Action} (h : ¬action.isPeer) (k : ConnectionId) (link : Link) :
    action.effectOn k link = link := by
  cases action with
  | unmap | connect | inject | receive | write | hangUp => exact absurd rfl h
  | _ => rfl

theorem links_peer_of_ne (w : World) {action : Action} (hpeer : action.isPeer)
    (hconnect : ∀ port, action ≠ .connect port) (k : ConnectionId) :
    (w.act action).net.links[k]? = w.net.links[k]?.map (action.effectOn k) := by
  cases action with
  | unmap b =>
    rw [net_act_unmap]
    exact Option.map_id_apply.symm
  | connect port => exact absurd rfl (hconnect port)
  | inject port kind status =>
    have hlinks : (w.act (.inject port kind status)).net.links = w.net.links := by
      simp only [act, World.inject]
      rcases hinject : w.net.inject port kind status with failure | net
      · rfl
      · obtain ⟨channel, rfl⟩ := Loopback.inject_eq_ok hinject
        rfl
    rw [hlinks]
    exact Option.map_id_apply.symm
  | receive peer limit =>
    refine (Loopback.receive_links ..).trans ?_
    rcases w.net.links[k]? with _ | link <;> by_cases heq : peer = k <;> simp [Action.effectOn, heq]
  | write peer request address key words =>
    refine (Loopback.write_links ..).trans ?_
    rcases w.net.links[k]? with _ | link <;> by_cases heq : peer = k <;> simp [Action.effectOn, heq]
  | hangUp peer =>
    refine (Loopback.hangUp_links ..).trans ?_
    rcases w.net.links[k]? with _ | link <;> by_cases heq : peer = k <;> simp [Action.effectOn, heq]
  | _ => contradiction

theorem links_peer (h : w.Sound) {action : Action} (hpeer : action.isPeer) {k : ConnectionId} {link : Link}
    (hlink : w.net.links[k]? = some link) :
    (w.act action).net.links[k]? = some (action.effectOn k link) := by
  by_cases hconnect : ∃ port, action = .connect port
  · obtain ⟨port, rfl⟩ := hconnect
    simp only [act, World.connect]
    rcases hconnect : w.net.connect port with failure | ⟨other, net⟩
    · exact hlink
    · exact Loopback.connect_links h.net hconnect hlink
  · rw [links_peer_of_ne w hpeer (fun port heq => hconnect ⟨port, heq⟩), hlink, Option.map_some]

theorem listeners_peer (w : World) {action : Action} (hpeer : action.isPeer) :
    (w.act action).net.listeners = w.net.listeners := by
  cases action with
  | unmap b => rw [net_act_unmap]
  | connect port =>
    simp only [act, World.connect]
    rcases hconnect : w.net.connect port with failure | ⟨other, net⟩
    · rfl
    · obtain ⟨_, _, _, _, _, _, rfl⟩ := Loopback.connect_eq_ok hconnect
      rfl
  | inject port kind status =>
    simp only [act, World.inject]
    rcases hinject : w.net.inject port kind status with failure | net
    · rfl
    · obtain ⟨channel, rfl⟩ := Loopback.inject_eq_ok hinject
      rfl
  | receive peer limit =>
    simp only [act, World.receive, Loopback.receive]
    split
    · rfl
    · split <;> rfl
  | write peer request address key words =>
    simp only [act, World.write, Loopback.write]
    split
    · rfl
    · split <;> rfl
  | hangUp peer =>
    simp only [act, World.hangUp, Loopback.hangUp]
    split
    · rfl
    · split
      · rfl
      · split <;> rfl
  | _ => contradiction

theorem links_act_of_actor (h : w.Sound) (ht : w.Tidy) {action : Action} {party : Party} {k : ConnectionId}
    (hheld : .endpoint k ∈ w.holdings party) (hactor : w.actor? action ≠ some party) :
    (w.act action).net.links[k]? = w.net.links[k]?.map (action.effectOn k) := by
  have hissued := h.issued _ _ hheld
  obtain ⟨link, hlink⟩ := Option.isSome_iff_exists.mp hissued.1
  -- Peers act on links and memory by themselves; all others only use what they hold.
  by_cases hpeer : action.isPeer
  · rw [links_peer h hpeer hlink, hlink, Option.map_some]
  · have hsame := (effects_act h ht hpeer).links_of_not_allowed h.net
      (fun handle huse => h.isIssued_of_mayUse huse) hissued
      fun huse => hactor (h.actor_eq huse (.inl rfl) hheld)
    rw [hsame, hlink, Option.map_some, effectOn_of_not_isPeer hpeer]

theorem links_act (h : w.Sound) (ht : w.Tidy) {action : Action} {id : CallId} {k : ConnectionId}
    (hheld : .endpoint k ∈ w.holdings (.call id)) (hmove : ¬action.IsMoveOf id) :
    (w.act action).net.links[k]? = w.net.links[k]?.map (action.effectOn k) :=
  links_act_of_actor h ht hheld fun hactor => hmove (isMoveOf_of_actor? hactor)

theorem memory_act (h : w.Sound) (ht : w.Tidy) {action : Action} {id : CallId} {fabric : FabricId}
    {custody : Custody} {b : BlockId} (hcustody : w.custody? (.call id) = some (fabric, custody))
    (hb : b ∈ custody.blocks) (hmove : ¬action.IsMoveOf id) :
    (w.act action).memory.blocks[b]? = w.memory.blocks[b]? ∨
      ∃ k request address key words region, action = .write k request address key words ∧
        .endpoint k ∈ w.holdings (.call id) ∧
        w.net.target? k address key words.length = some region ∧ region.extent.block = b ∧
        (w.act action).memory = w.memory.storeAt b address.toNat words := by
  have hheld := mem_holdings_of_mem_blocks hcustody hb
  by_cases hpeer : action.isPeer
  · cases action with
    | unmap c =>
      rcases act_unmap w c with heq | ⟨hloose, heq⟩
      · exact .inl (congrArg (·.memory.blocks[b]?) heq)
      · have hne : c ≠ b := fun heq => not_mem_holdings_of_isLoose hloose _ (heq ▸ hheld)
        exact .inl ((congrArg (·.memory.blocks[b]?) heq).trans (Memory.getElem?_unmap_of_ne hne))
    | connect port =>
      simp only [act, World.connect]
      rcases w.net.connect port with failure | ⟨other, net⟩
      · exact .inl rfl
      · exact .inl rfl
    | inject port kind status =>
      simp only [act, World.inject]
      rcases w.net.inject port kind status with failure | net
      · exact .inl rfl
      · exact .inl rfl
    | receive peer limit => exact .inl rfl
    | hangUp peer => exact .inl rfl
    | write peer request address key words =>
      have hmemory : (w.act (.write peer request address key words)).memory = _ :=
        Loopback.write_memory w.net w.memory peer request address key words
      rcases htarget : w.net.target? peer address key words.length with _ | region
      · rw [htarget] at hmemory
        exact .inl (congrArg (·.blocks[b]?) hmemory)
      · rw [htarget] at hmemory
        by_cases hblock : region.extent.block = b
        · subst hblock
          -- A region in the block of the call can only stand on the connection of the call.
          obtain ⟨link, hlink, -, hregion, -⟩ := Loopback.target?_eq_some htarget
          have hk := (h.reach peer link hlink region hregion).2 id fabric custody hcustody hb
          exact .inr ⟨peer, request, address, key, words, region, rfl, hk, htarget, rfl, hmemory⟩
        · refine .inl ((congrArg (·.blocks[b]?) hmemory).trans ?_)
          exact Memory.getElem?_storeAt_of_ne hblock
    | _ => contradiction
  · refine .inl ((effects_act h ht hpeer).blocks_of_not_allowed h.net
      (fun handle huse => h.isIssued_of_mayUse huse) (h.issued _ _ hheld) ?_)
    exact fun huse => hmove (isMoveOf_of_actor? (h.actor_eq huse (Party.owns_call id _) hheld))

end World

end RemoteSlots
