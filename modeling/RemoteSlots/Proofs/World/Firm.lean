import RemoteSlots.Proofs.World.Foothold
import RemoteSlots.Proofs.World.Landing

/-!
This module shows that in every world that can come about the fabric has what a store counts on, and what a
call counts on that initiates a store: whoever else acts does not take any of it away.
-/

namespace RemoteSlots

open Std

theorem Phase.mem_custody_of_foothold {phase : Phase} {handle : Handle}
    (h : handle ∈ phase.foothold.handles) : handle ∈ phase.custody.handles := by
  rcases List.mem_append.mp h with hport | hlink
  · obtain ⟨⟨_, _⟩, hbinding, rfl⟩ := List.mem_map.mp hport
    obtain ⟨binding, heq, hbinding⟩ := Option.map_eq_some_iff.mp (Option.mem_toList.mp hbinding)
    obtain ⟨rfl, -⟩ := Prod.mk.inj hbinding
    have hmem : .closeChannel binding.channel ∈ phase.custody.release := by
      simp [Phase.custody, Phase.release, heq]
    exact Custody.mem_handles_of_mem_release hmem (List.mem_singleton_self _)
  · obtain ⟨⟨endpoint, regions⟩, hendpoint, rfl⟩ := List.mem_map.mp hlink
    obtain ⟨_, heq, hendpoint⟩ := Option.map_eq_some_iff.mp (Option.mem_toList.mp hendpoint)
    obtain ⟨rfl, -⟩ := Prod.mk.inj hendpoint
    exact World.mem_handles_of_endpoint heq

theorem Stage.mem_custody_of_foothold {stage : Stage} {handle : Handle}
    (h : handle ∈ stage.foothold.handles) : handle ∈ stage.custody.handles := by
  cases stage with
  | openChannel | bind | giveUp => contradiction
  | listen binding =>
    rw [List.mem_singleton.mp h]
    exact List.mem_singleton_self _
  | register binding endpoint extent =>
    have hmem : handle ∈ (Phase.accepted binding endpoint).custody.handles := Phase.mem_custody_of_foothold h
    rcases List.mem_append.mp hmem with hrelease | hblock
    · exact List.mem_append_left _ hrelease
    · contradiction
  | _ => exact Phase.mem_custody_of_foothold h

theorem CallStage.mem_custody_of_foothold {stage : CallStage} {handle : Handle}
    (h : handle ∈ stage.foothold.handles) : handle ∈ stage.custody.handles := by
  cases stage with
  | initiate initiation =>
    cases initiation with
    | run stage => exact Stage.mem_custody_of_foothold h
    | allocate binding endpoint => exact Phase.mem_custody_of_foothold h
    | clear binding endpoint extent =>
      have hmem : handle ∈ (Stage.register binding endpoint extent).custody.handles :=
        Stage.mem_custody_of_foothold h
      exact hmem
    | giveBack => contradiction
    | finished result =>
      rcases result with halt | active
      · contradiction
      · exact Phase.mem_custody_of_foothold h
  | free result =>
    rcases result with failure | active
    · contradiction
    · exact Phase.mem_custody_of_foothold h
  | publish active => exact Phase.mem_custody_of_foothold h
  | _ => contradiction

theorem Foothold.not_isBlock_of_mem {foothold : Foothold} {handle : Handle} (h : handle ∈ foothold.handles) :
    handle.isBlock = false := by
  rcases List.mem_append.mp h with hport | hlink
  · obtain ⟨_, -, rfl⟩ := List.mem_map.mp hport
    rfl
  · obtain ⟨_, -, rfl⟩ := List.mem_map.mp hlink
    rfl

namespace World

variable {w : World}

theorem mem_holdings_of_custody {party : Party} {custody : Custody} {handle : Handle}
    (h : w.custody? party = some (.loopback, custody)) (hmem : handle ∈ custody.handles) :
    handle ∈ w.holdings party :=
  (mem_holdings_iff h).mpr ⟨hmem, .inl rfl⟩

theorem isFirm_peer (h : w.Sound) {action : Action} (hpeer : action.isPeer) {foothold : Foothold}
    (hfirm : foothold.IsFirm w.net) : foothold.IsFirm (w.act action).net := by
  apply hfirm.mono
  · rw [listeners_peer w hpeer]
    exact fun _ _ _ hport => hport
  · intro endpoint _ _ link hlink
    exact ⟨_, links_peer h hpeer hlink, Action.serverClosed_effectOn .., Action.regions_effectOn ..⟩

theorem isFirm_of_effects (h : w.Sound) {w' : World} {actor : Option Party} {party : Party}
    {custody : Custody} {foothold : Foothold} (hcustody : w.custody? party = some (.loopback, custody))
    (hheld : ∀ handle ∈ foothold.handles, handle ∈ custody.handles) (hfirm : foothold.IsFirm w.net)
    (heffects : Effects (w.MayUse actor) w.memory w.net w'.memory w'.net) (hactor : actor ≠ some party) :
    foothold.IsFirm w'.net := by
  have hmem : ∀ handle ∈ foothold.handles, handle ∈ w.holdings party :=
    fun handle hhandle => mem_holdings_of_custody hcustody (hheld handle hhandle)
  refine hfirm.effects heffects h.net (fun handle huse => h.isIssued_of_mayUse huse)
    (fun handle hhandle => h.issued party handle (hmem handle hhandle)) ?_
  intro handle hhandle huse
  exact hactor (h.actor_eq huse (.inl (Foothold.not_isBlock_of_mem hhandle)) (hmem handle hhandle))

theorem isFirm_serve {fabric : FabricId} {request : Request} {foothold : Foothold}
    (hfirm : foothold.IsFirm w.net) (hlistening : foothold.IsListening) (hmild : request.isMild) :
    foothold.IsFirm (w.serve fabric request).2.net := by
  cases fabric with
  | loopback => exact hfirm.serve hlistening hmild
  | script id =>
    simp only [serve]
    split
    · exact hfirm
    · exact hfirm

theorem isFirm_asks {w' : World} {fabric : FabricId} {custody : Custody} {foothold : Foothold}
    (hfirm : foothold.IsFirm w.net) (hlistening : foothold.IsListening)
    (hasks : w' = w ∨ ∃ request : Request, request.isMild ∧
      (∀ handle ∈ request.handles, handle ∈ custody.handles) ∧ w' = (w.serve fabric request).2) :
    foothold.IsFirm w'.net := by
  rcases hasks with rfl | ⟨request, hmild, -, rfl⟩
  · exact hfirm
  · exact isFirm_serve hfirm hlistening hmild

theorem reap_eq_or (w : World) (id : StoreId) : w.reap id = w ∨ (w.reap id).stores[id]? = none := by
  rcases reap_eq w id with heq | ⟨store, -, -, heq⟩
  · exact .inl heq
  · rw [heq]
    exact .inr TreeMap.getElem?_erase_self

theorem isFirm_own {action : Action} {s : StoreId} {foothold : Foothold}
    (hactor : w.actor? action = some (.store s)) (hkept : ((w.act action).stores[s]?).isSome)
    (hfirm : foothold.IsFirm w.net) (hlistening : foothold.IsListening) :
    foothold.IsFirm (w.act action).net := by
  have hreap : ∀ {v : World}, (v.reap s).stores[s]?.isSome → v.net = w.net →
      foothold.IsFirm (v.reap s).net := by
    intro v hsome hnet
    rcases reap_eq_or v s with heq | hnone
    · rw [heq, hnet]
      exact hfirm
    · rw [hnone] at hsome
      contradiction
  cases action with
  | clearStore id =>
    simp only [act, withStore]
    split
    · exact hfirm
    · simp only [clearStorage]
      split <;> exact hfirm
  | putSlot id index words =>
    simp only [act, withStore]
    split
    · exact hfirm
    · next store _ =>
      rcases hput : w.putSlot store index (Slot.load words : Slot store.layout) with failure | w'
      · exact hfirm
      · simp only [putSlot, bind, Except.bind] at hput
        split at hput
        · contradiction
        · split at hput
          · contradiction
          · injection hput with hput
            rw [← hput]
            exact hfirm
  | pollStore id =>
    simp only [act, withStore]
    split
    · exact hfirm
    · next store _ =>
      simp only [storePoll]
      split
      · exact isFirm_asks hfirm hlistening (pollOnce_eq ..)
      · exact hfirm
  | inspectStore id =>
    simp only [act, withStore]
    split
    · exact hfirm
    · next store _ =>
      simp only [storeInfo]
      split
      · exact isFirm_asks hfirm hlistening (transportInfo_eq ..)
      · exact hfirm
  | dropStore id =>
    injection hactor with hactor
    injection hactor with hactor
    subst hactor
    exact hreap hkept rfl
  | endCall id =>
    obtain ⟨call, hcall, heq⟩ := Option.map_eq_some_iff.mp hactor
    injection heq with heq
    subst heq
    simp only [act, endCall, hcall] at hkept ⊢
    split at hkept
    · next hrest =>
      rw [if_pos hrest]
      exact hreap hkept rfl
    · next hrest =>
      rw [if_neg hrest]
      exact hfirm
  | step task expired => cases task <;> simp [actor?, Task.party] at hactor
  | _ => simp [actor?] at hactor

/--
Whether the loopback fabric has what the stores on it and their calls count on, each at the port of its store.
-/
structure Firm (w : World) : Prop where
  calls : ∀ (id : CallId) (call : Call) (store : Store), w.calls[id]? = some call →
    w.stores[call.store]? = some store → store.fabric = .loopback →
    call.stage.foothold.IsFirm w.net ∧ ∀ port, call.stage.aim? = some port → port = store.config.port
  stores : ∀ (s : StoreId) (store : Store) (active : Active), w.stores[s]? = some store →
    store.fabric = .loopback → store.active = some active →
    active.phase.foothold.IsFirm w.net ∧ active.binding.port = store.config.port

theorem isFirm_call_act (h : w.Sound) (ht : w.Tidy) {action : Action} {id : CallId} {call : Call}
    {store : Store} (hcall : w.calls[id]? = some call) (hstore : w.stores[call.store]? = some store)
    (hfabric : store.fabric = .loopback) (hmove : ¬action.IsMoveOf id)
    (hfirm : call.stage.foothold.IsFirm w.net) : call.stage.foothold.IsFirm (w.act action).net := by
  by_cases hpeer : action.isPeer
  · exact isFirm_peer h hpeer hfirm
  · have hcustody := custody?_of_call hcall hstore
    rw [hfabric] at hcustody
    exact isFirm_of_effects h hcustody (fun handle => CallStage.mem_custody_of_foothold) hfirm
      (effects_act h ht hpeer) fun hactor => hmove (isMoveOf_of_actor? hactor)

theorem isFirm_store_act (h : w.Sound) (ht : w.Tidy) {action : Action} {s : StoreId} {store : Store}
    {active : Active} (hstore : w.stores[s]? = some store) (hfabric : store.fabric = .loopback)
    (hactive : store.active = some active) (hkept : ((w.act action).stores[s]?).isSome)
    (hfirm : active.phase.foothold.IsFirm w.net) : active.phase.foothold.IsFirm (w.act action).net := by
  by_cases hpeer : action.isPeer
  · exact isFirm_peer h hpeer hfirm
  · by_cases hactor : w.actor? action = some (.store s)
    · exact isFirm_own hactor hkept hfirm (Phase.isListening_foothold active.phase)
    · have hcustody := custody?_of_active hstore hactive
      rw [hfabric] at hcustody
      exact isFirm_of_effects h hcustody (fun handle => Phase.mem_custody_of_foothold) hfirm
        (effects_act h ht hpeer) hactor

theorem Firm.act_of_carries (hf : w.Firm) (h : w.Sound) (ht : w.Tidy) {action : Action}
    (hstep : ∀ task expired, action ≠ .step task expired) : (w.act action).Firm := by
  have hcarries := carries_act h ht hstep
  constructor
  · intro id call store' hcall' hstore' hfabric
    rcases hcarries.calls id call hcall' with hcall | ⟨-, -, hstage, -⟩
    · obtain ⟨old, hold⟩ := Option.isSome_iff_exists.mp (ht.called id call hcall)
      rcases hcarries.stores call.store store' hstore' with ⟨store, hstore, hsame⟩ | ⟨hlt, -⟩
      · have hloopback := hsame.fabric.symm.trans hfabric
        obtain ⟨hfirm, haim⟩ := hf.calls id call store hcall hstore hloopback
        refine ⟨isFirm_call_act h ht hcall hstore hloopback (fun ⟨_, heq⟩ => hstep _ _ heq) hfirm, ?_⟩
        rw [hsame.config]
        exact haim
      · exact absurd (ht.stores_le _ old hold) (Nat.not_le_of_lt hlt)
    · rw [hstage]
      exact ⟨Foothold.isFirm_none _, fun _ hnone => by contradiction⟩
  · intro s store' active hstore' hfabric hactive
    rcases hcarries.stores s store' hstore' with ⟨store, hstore, hsame⟩ | ⟨-, -, hnone⟩
    · have hloopback := hsame.fabric.symm.trans hfabric
      have hactive' := hsame.active.symm.trans hactive
      obtain ⟨hfirm, hport⟩ := hf.stores s store active hstore hloopback hactive'
      rw [hsame.config]
      exact ⟨isFirm_store_act h ht hstore hloopback hactive' (by rw [hstore']; rfl) hfirm, hport⟩
    · rw [hnone] at hactive
      contradiction

theorem Firm.stepSession (hf : w.Firm) (h : w.Sound) (ht : w.Tidy) (id : SessionId) (expired : Bool) :
    (w.act (.step (.session id) expired)).Firm := by
  have hregistry : (w.act (.step (.session id) expired)).calls = w.calls ∧
      (w.act (.step (.session id) expired)).stores = w.stores := by
    simp only [World.act, step]
    split
    · exact ⟨rfl, rfl⟩
    · exact ⟨calls_perform .., stores_perform ..⟩
  constructor
  · intro other call store hcall hstore hfabric
    rw [hregistry.1] at hcall
    rw [hregistry.2] at hstore
    obtain ⟨hfirm, haim⟩ := hf.calls other call store hcall hstore hfabric
    refine ⟨isFirm_call_act h ht hcall hstore hfabric ?_ hfirm, haim⟩
    rintro ⟨_, heq⟩
    injection heq
    contradiction
  · intro s store active hstore hfabric hactive
    have hkept := hstore
    rw [hregistry.2] at hstore
    obtain ⟨hfirm, hport⟩ := hf.stores s store active hstore hfabric hactive
    exact ⟨isFirm_store_act h ht hstore hfabric hactive (by rw [hkept]; rfl) hfirm, hport⟩

theorem active_update {stage : CallStage} {store : Store} {active : Active}
    (h : (stage.update store).active = some active) :
    store.active = some active ∨ store.active = none ∧ stage = .publish active := by
  cases stage with
  | publish new =>
    rcases hactive : store.active with _ | old
    · simp only [CallStage.update, hactive, Option.getD_none, Option.some.injEq] at h
      exact .inr ⟨rfl, h ▸ rfl⟩
    · simp only [CallStage.update, hactive, Option.getD_some] at h
      exact .inl h
  | _ => exact .inl h

theorem Firm.stepCall (hf : w.Firm) (h : w.Sound) (ht : w.Tidy) {id : CallId} {call : Call} {store : Store}
    (hcall : w.calls[id]? = some call) (hstore : w.stores[call.store]? = some store) (expired : Bool) :
    (w.act (.step (.call id) expired)).Firm := by
  have hspec := stepCall_spec hcall hstore expired
  have hact := act_step hcall hstore expired
  have hold : ∀ (s : StoreId) (store' : Store), (w.act (.step (.call id) expired)).stores[s]? = some store' →
      ∃ old, w.stores[s]? = some old ∧ old.SameSetup store' ∧
        (store' = old ∨ s = call.store ∧ old = store ∧ store' = call.stage.update store) := by
    intro s store' hstore'
    rw [hact, hspec.stores] at hstore'
    split at hstore'
    · next heq =>
      subst heq
      injection hstore' with hstore'
      subst hstore'
      exact ⟨store, hstore, sameSetup_update .., .inr ⟨rfl, rfl, rfl⟩⟩
    · exact ⟨store', hstore', ⟨rfl, rfl, rfl⟩, .inl rfl⟩
  constructor
  · intro other call' store' hcall' hstore' hfabric
    obtain ⟨old, hold, hsetup, -⟩ := hold call'.store store' hstore'
    have hloopback := hsetup.fabric.symm.trans hfabric
    rw [hact, hspec.calls] at hcall'
    rw [hsetup.config]
    split at hcall'
    · injection hcall' with hcall'
      subst hcall'
      rw [hstore] at hold
      injection hold with hold
      subst hold
      obtain ⟨hfirm, haim⟩ := hf.calls id call store hcall hstore hloopback
      rw [hact, hspec.net, hloopback]
      refine ⟨isFirm_call h.net hfirm, fun port hport => ?_⟩
      rcases CallStage.aim?_of_leads (perform_leads ..) hport with hsame | hconfig
      · exact haim port hsame
      · exact hconfig
    · next hne =>
      obtain ⟨hfirm, haim⟩ := hf.calls other call' old hcall' hold hloopback
      refine ⟨isFirm_call_act h ht hcall' hold hloopback ?_ hfirm, haim⟩
      rintro ⟨_, heq⟩
      injection heq with heq
      injection heq with heq
      exact hne heq
  · intro s store' active hstore' hfabric hactive
    have hkept : ((w.act (.step (.call id) expired)).stores[s]?).isSome := by rw [hstore']; rfl
    obtain ⟨old, hold, hsetup, hupdate⟩ := hold s store' hstore'
    have hloopback := hsetup.fabric.symm.trans hfabric
    rw [hsetup.config]
    have hstay : old.active = some active → active.phase.foothold.IsFirm (w.act (.step (.call id) expired)).net ∧
        active.binding.port = old.config.port := by
      intro hactive
      obtain ⟨hfirm, hport⟩ := hf.stores s old active hold hloopback hactive
      exact ⟨isFirm_store_act h ht hold hloopback hactive hkept hfirm, hport⟩
    rcases hupdate with rfl | ⟨rfl, rfl, rfl⟩
    · exact hstay hactive
    · rcases active_update hactive with hactive | ⟨hnone, hpublish⟩
      · exact hstay hactive
      -- The store is made ready: it counts on what the call counted on.
      · obtain ⟨hfirm, haim⟩ := hf.calls id call old hcall hstore hloopback
        have hnet := hspec.net
        rw [hpublish] at hfirm haim hnet
        rw [hact, hnet]
        exact ⟨hfirm, haim _ rfl⟩

theorem Firm.act (hf : w.Firm) (h : w.Sound) (ht : w.Tidy) (action : Action) : (w.act action).Firm := by
  by_cases hstep : ∃ task expired, action = .step task expired
  · obtain ⟨task, expired, rfl⟩ := hstep
    cases task with
    | session id => exact hf.stepSession h ht id expired
    | call id =>
      rcases hcall : w.calls[id]? with _ | call
      · simpa only [World.act, step, hcall] using hf
      · obtain ⟨store, hstore⟩ := Option.isSome_iff_exists.mp (ht.called id call hcall)
        exact hf.stepCall h ht hcall hstore expired
  · exact hf.act_of_carries h ht fun task expired heq => hstep ⟨task, expired, heq⟩

theorem firm_initial (mapper : Mapper) (now : Duration) : (initial mapper now).Firm := by
  constructor <;> simp [initial, empty]

theorem Reachable.firm (h : w.Reachable) : w.Firm := by
  induction w, h using Reachable.induct with
  | initial mapper now => exact firm_initial mapper now
  | act w action _ hsound htidy ih => exact ih.act hsound htidy action

end World

end RemoteSlots
