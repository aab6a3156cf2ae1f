import RemoteSlots.Proofs.Initiation.Exclusive
import RemoteSlots.Proofs.Session.Turns
import RemoteSlots.Proofs.World.CompletionQueue
import RemoteSlots.Proofs.World.Isolation
import RemoteSlots.Proofs.World.Succession

/-!
This module shows what the receive PSN of a connection counts: the writes of its peer that are accepted. So a ready
session tells how many there were since it took its baseline, as far as 24 bits go.
-/

namespace RemoteSlots

open Std

def CallStage.ready? : CallStage → Option Active
  | initiate (.run (.rest (.ready binding endpoint region baseline) _)) =>
    some { binding, endpoint, region, baseline }
  | stage => stage.active?

theorem Stage.ready_of_leads {name : String} {config : SessionConfig} {signals : Signals} {stage stage' : Stage}
    {acquired : List Handle} {active : Active} (h : (stage.next name config signals).Leads acquired stage')
    (hready : stage'.phase = active.phase) :
    stage.phase = active.phase ∨ stage = .capture active.binding active.endpoint active.region := by
  cases stage with
  | awaitRequest binding =>
    simp only [next] at h
    obtain ⟨-, rfl | ⟨halt, rfl⟩ | ⟨event, rfl⟩⟩ := await_leads h <;> contradiction
  | awaitEstablished binding endpoint =>
    simp only [next] at h
    obtain ⟨-, rfl | ⟨halt, rfl⟩ | ⟨event, rfl⟩⟩ := await_leads h <;> contradiction
  | awaitAck binding endpoint region =>
    simp only [next] at h
    obtain ⟨-, rfl | rfl | ⟨result, rfl⟩⟩ := awaitCompletion_leads h <;> contradiction
  | announce binding endpoint region =>
    simp only [next] at h
    split at h <;> cases h <;> contradiction
  | wipe binding endpoint region result =>
    cases h
    rcases result with failure | _ <;> contradiction
  | rest phase result =>
    cases h
    exact .inl hready
  | capture binding endpoint region =>
    cases h with
    | ask _ _ reply =>
      rcases reply with failure | psn
      · contradiction
      · injection hready with hbinding hendpoint hregion
        rw [hbinding, hendpoint, hregion]
        exact .inr rfl
  | openChannel | bind | listen | giveUp | accept | register | send =>
    cases h with
    | ask _ _ reply => rcases reply with failure | value <;> contradiction

theorem CallStage.phase_of_ready? {stage : Stage} {active : Active}
    (h : (initiate (.run stage)).ready? = some active) : stage.phase = active.phase ∧ stage.result?.isSome := by
  cases stage with
  | rest phase result =>
    cases phase with
    | ready binding endpoint region baseline =>
      injection h with h
      subst h
      exact ⟨rfl, rfl⟩
    | _ => contradiction
  | _ => contradiction

theorem Initiation.ready_of_leads {layout : Layout} {config : StoreConfig} {signals : Signals}
    {initiation initiation' : Initiation} {acquired : List Handle} {active : Active}
    (h : (initiation.next layout config signals).Leads acquired initiation')
    (hready : (CallStage.initiate initiation').ready? = some active) :
    (CallStage.initiate initiation).ready? = some active ∨
      initiation = .run (.capture active.binding active.endpoint active.region) := by
  cases initiation with
  | run stage =>
    rcases hrest : stage.result? with _ | result
    · rw [next_run hrest] at h
      obtain ⟨stage', hstage, rfl⟩ := Move.leads_embed h
      rcases Stage.ready_of_leads hstage (CallStage.phase_of_ready? hready).1 with hphase | rfl
      · cases stage with
        | rest => contradiction
        | _ => cases hphase
      · exact .inr rfl
    · cases stage with
      | rest phase result =>
        cases h
        unfold after at hready
        split at hready
        · contradiction
        · contradiction
        · contradiction
        · exact .inl hready
        · contradiction
        · contradiction
      | _ => contradiction
  | allocate binding endpoint =>
    simp only [next] at h
    split at h
    · cases h
      contradiction
    · cases h with
      | mapped _ _ _ extent =>
        dsimp only at hready
        split at hready <;> contradiction
      | unmapped => contradiction
  | clear =>
    cases h
    contradiction
  | giveBack requests halt =>
    rcases requests with _ | ⟨request, requests⟩ <;> cases h <;> contradiction
  | finished result =>
    cases h
    exact .inl hready

theorem CallStage.ready_of_leads {store : Store} {signals : Signals} {stage stage' : CallStage}
    {acquired : List Handle} {active : Active} (h : (stage.next store signals).Leads acquired stage')
    (hready : stage'.ready? = some active) :
    stage.ready? = some active ∨
      stage = .initiate (.run (.capture active.binding active.endpoint active.region)) := by
  cases stage with
  | initiate initiation =>
    cases initiation with
    | finished result =>
      rcases result with (_ | failure) | active'
      · cases h
        contradiction
      · cases h
        contradiction
      · cases h
        exact .inl hready
    | run | allocate | clear | giveBack =>
      simp only [next] at h
      obtain ⟨initiation', hleads, rfl⟩ := Move.leads_embed h
      rcases Initiation.ready_of_leads hleads hready with hold | hcapture
      · exact .inl hold
      · rw [hcapture]
        exact .inr rfl
  | check | claim | publish =>
    simp only [next] at h
    split at h <;> cases h <;> contradiction
  | free result =>
    rcases result with failure | active'
    · cases h
      contradiction
    · cases h
      exact .inl hready
  | discard requests =>
    rcases requests with _ | ⟨request, requests⟩ <;> cases h <;> contradiction
  | «over» =>
    cases h
    contradiction

theorem Effects.psn_eq {allowed : Handle → Prop} {memory memory' : Memory} {net net' : Loopback}
    (h : Effects allowed memory net memory' net') {k : ConnectionId} {link : Link} (hlink : net.links[k]? = some link) :
    ∃ link', net'.links[k]? = some link' ∧ link'.psn = link.psn := by
  induction h with
  | refl => exact ⟨link, hlink, rfl⟩
  | serve request _ _ ih =>
    obtain ⟨link', hlink', hpsn⟩ := ih
    obtain ⟨link'', hlink'', hsame | ⟨channel, queues, -, -, rfl⟩⟩ := Loopback.serve_standing hlink'
    · exact ⟨link'', hlink'', hsame.psn.trans hpsn⟩
    · exact ⟨_, hlink'', hpsn⟩
  | store _ _ _ _ _ ih => exact ih
  | clear _ _ _ ih => exact ih
  | allocate _ _ ih => exact ih

namespace World

variable {w start : World} {k : ConnectionId}

def acceptedWrites (k : ConnectionId) (w : World) : Action → List Action
  | .write peer request address key words =>
    if peer = k ∧ (w.write peer request address key words).1.isOk then [.write peer request address key words] else []
  | _ => []

theorem receivePsn_eq {link : Link} (h : w.net.links[k]? = some link) : w.net.receivePsn k = link.psn := by
  rw [Loopback.receivePsn, h]

theorem acceptedWrites_eq_nil {action : Action} (h : ¬action.isPeer) : w.acceptedWrites k action = [] := by
  cases action with
  | write => exact absurd rfl h
  | _ => rfl

theorem receivePsn_peer (h : w.Sound) {action : Action} (hpeer : action.isPeer) {link : Link}
    (hlink : w.net.links[k]? = some link) :
    (w.act action).net.receivePsn k = link.psn + BitVec.ofNat 24 (w.acceptedWrites k action).length := by
  rw [receivePsn_eq (links_peer h hpeer hlink)]
  cases action with
  | connect | inject | unmap => exact (BitVec.add_zero _).symm
  | receive peer limit | hangUp peer =>
    simp only [Action.effectOn, acceptedWrites, List.length_nil]
    split <;> exact (BitVec.add_zero _).symm
  | write peer request address key words =>
    by_cases hk : peer = k
    · subst hk
      simp only [Action.effectOn, if_pos, Loopback.writeEffect, acceptedWrites, World.write, Loopback.write, hlink,
        true_and]
      rcases Loopback.target link address key words.length (4 * words.length) (·.remoteWrite) with failure | region
      · exact (Link.psn_complete ..).trans (BitVec.add_zero _).symm
      · rfl
    · simp only [Action.effectOn, acceptedWrites, hk, if_false, false_and, List.length_nil]
      exact (BitVec.add_zero _).symm
  | _ => contradiction

theorem receivePsn_act (h : w.Sound) (ht : w.Tidy) (hlink : (w.net.links[k]?).isSome) (action : Action) :
    (w.act action).net.receivePsn k = w.net.receivePsn k + BitVec.ofNat 24 (w.acceptedWrites k action).length := by
  obtain ⟨link, hlink⟩ := Option.isSome_iff_exists.mp hlink
  rw [receivePsn_eq hlink]
  by_cases hpeer : action.isPeer
  · exact receivePsn_peer h hpeer hlink
  · obtain ⟨link', hlink', hpsn⟩ := (effects_act h ht hpeer).psn_eq hlink
    rw [acceptedWrites_eq_nil hpeer, receivePsn_eq hlink', hpsn]
    exact (BitVec.add_zero _).symm

theorem Reachable.receivePsn_after (h : w.Reachable) (hlink : (w.net.links[k]?).isSome) (actions : List Action) :
    (w.after actions).net.receivePsn k =
      w.net.receivePsn k + BitVec.ofNat 24 (w.observe (acceptedWrites k) actions).length := by
  induction actions using List.reverseRecOn with
  | nil => exact (BitVec.add_zero _).symm
  | append_singleton actions action ih =>
    obtain ⟨hw, ht⟩ := (h.after actions).sound
    rw [after_concat, receivePsn_act hw ht (h.isSome_links hlink actions), ih, observe_concat, List.length_append,
      BitVec.ofNat_add, BitVec.add_assoc]

inductive IsReady (w : World) (active : Active) : Party → Prop
  | store {s : StoreId} {store : Store} (hstore : w.stores[s]? = some store) (hfabric : store.fabric = .loopback)
    (hactive : store.active = some active) : IsReady w active (.store s)
  | session {s : SessionId} {session : Session} (hsession : w.sessions[s]? = some session)
    (hfabric : session.fabric = .loopback) (hphase : session.phase = active.phase) : IsReady w active (.session s)

inductive Captures (w : World) (active : Active) : Party → Task → Prop
  | call {s : StoreId} {id : CallId} (hcall : w.calls[id]? =
      some ⟨s, .initiate (.run (.capture active.binding active.endpoint active.region))⟩) :
    Captures w active (.store s) (.call id)
  | session {s : SessionId} {session : Session} (hsession : w.sessions[s]? = some session)
    (hstage : session.stage = .capture active.binding active.endpoint active.region) :
    Captures w active (.session s) (.session s)

def info? (w : World) : Party → Option (Except Failure TransportInfo)
  | .store s => w.stores[s]?.map fun store => (w.storeInfo store).1
  | .session s => w.sessions[s]?.map fun session => (w.transportInfo session.fabric session.phase).1
  | .call _ => none

def HasBaseline (start : World) (party : Party) (active : Active) (actions : List Action) : Prop :=
  ∃ before task expired since, actions = before ++ .step task expired :: since ∧
    (start.after before).Captures active party task ∧
    ((start.after before).net.links[active.endpoint.handle]?).isSome ∧
    active.baseline = (start.after before).net.receivePsn active.endpoint.handle

theorem HasBaseline.concat {party : Party} {active : Active} {actions : List Action}
    (h : start.HasBaseline party active actions) (action : Action) :
    start.HasBaseline party active (actions ++ [action]) := by
  obtain ⟨before, task, expired, since, rfl, hspec⟩ := h
  exact ⟨before, task, expired, since ++ [action], by rw [List.append_assoc, List.cons_append], hspec⟩

structure Baselines (start : World) (actions : List Action) : Prop where
  calls : ∀ (id : CallId) (s : StoreId) (stage : CallStage) (store : Store) (active : Active),
    (start.after actions).calls[id]? = some ⟨s, stage⟩ → (start.after actions).stores[s]? = some store →
      store.fabric = .loopback → stage.ready? = some active → start.HasBaseline (.store s) active actions
  stores : ∀ (s : StoreId) (store : Store) (active : Active), (start.after actions).stores[s]? = some store →
    store.fabric = .loopback → store.active = some active → start.HasBaseline (.store s) active actions
  sessions : ∀ (s : SessionId) (session : Session) (active : Active),
    (start.after actions).sessions[s]? = some session → session.fabric = .loopback →
      session.phase = active.phase → start.HasBaseline (.session s) active actions

section Step

variable {actions : List Action} {action : Action} {active : Active}

theorem Baselines.calls_concat (h : start.Baselines actions) (hreach : start.Reachable) {id : CallId} {s : StoreId}
    {stage' : CallStage} {store' : Store}
    (hcall' : ((start.after actions).act action).calls[id]? = some ⟨s, stage'⟩)
    (hstore' : ((start.after actions).act action).stores[s]? = some store') (hfabric : store'.fabric = .loopback)
    (hready : stage'.ready? = some active) : start.HasBaseline (.store s) active (actions ++ [action]) := by
  obtain ⟨hw, ht⟩ := (hreach.after actions).sound
  cases callSource_act hw ht hcall' with
  | kept hcall =>
    obtain ⟨store, hstore⟩ := Option.isSome_iff_exists.mp (ht.called id _ hcall)
    have hretains := retains_act hw ht hstore hstore'
    have hloopback := hretains.setup.fabric.symm.trans hfabric
    exact (h.calls id s stage' store active hcall hstore hloopback hready).concat action
  | started hstage =>
    obtain rfl : stage' = .check := hstage
    contradiction
  | @moved call store expired hmove hcall hstore hstage =>
    obtain ⟨s', stage⟩ := call
    injection hstage with hs hstage
    subst hs
    have hretains := retains_act hw ht hstore hstore'
    have hloopback := hretains.setup.fabric.symm.trans hfabric
    have hleads := perform_leads (start.after actions) store.fabric
      (stage.next store { cancelled := store.cancelled, expired, now := (start.after actions).now })
    rw [← hstage] at hleads
    rcases CallStage.ready_of_leads hleads hready with hold | rfl
    · exact (h.calls id s stage store active hcall hstore hloopback hold).concat action
    · -- This is the move that takes the baseline.
      rw [hloopback] at hstage
      obtain rfl : stage' = .initiate (.run (.rest (.ready active.binding active.endpoint active.region
          (.ofWord ((start.after actions).net.receivePsn active.endpoint.handle).toWord)) (.ok ()))) := hstage
      have hcustody := custody?_of_call hcall hstore
      rw [hloopback] at hcustody
      have hheld := mem_holdings_of_custody hcustody (mem_handles_of_endpoint rfl)
      refine ⟨actions, .call id, expired, [], by rw [hmove], .call hcall, (hw.issued _ _ hheld).1, ?_⟩
      injection hready with hready
      rw [← hready]
      exact Psn.ofWord_toWord _

theorem Baselines.stores_concat (h : start.Baselines actions) (hreach : start.Reachable) {s : StoreId} {store' : Store}
    (hstore' : ((start.after actions).act action).stores[s]? = some store') (hfabric : store'.fabric = .loopback)
    (hactive : store'.active = some active) : start.HasBaseline (.store s) active (actions ++ [action]) := by
  obtain ⟨hw, ht⟩ := (hreach.after actions).sound
  cases storeSource_act hw ht hstore' with
  | @kept store hstore hsame =>
    have hactive' : store.active = some active := hsame.active.symm.trans hactive
    exact (h.stores s store active hstore (hsame.setup.fabric.symm.trans hfabric) hactive').concat action
  | created _ hnew =>
    rw [active_new hnew] at hactive
    contradiction
  | @moved id call store expired hmove hcall hown hstore hupdate =>
    obtain ⟨s', stage⟩ := call
    subst hown hupdate
    have hfabric' : store.fabric = .loopback := (sameSetup_update stage store).fabric.symm.trans hfabric
    rcases hready : store.active with _ | old
    · cases stage with
      | publish published =>
        simp only [CallStage.update, hready, Option.getD_none] at hactive
        exact (h.calls id s' _ store active hcall hstore hfabric' hactive).concat action
      | _ => exact absurd (hready.symm.trans hactive) (by simp)
    · have hkept : (stage.update store).active = some old := by
        cases stage with
        | publish => simp [CallStage.update, hready]
        | _ => exact hready
      obtain rfl : old = active := Option.some.inj (hkept.symm.trans hactive)
      exact (h.stores s' store old hstore hfabric' hready).concat action

theorem Baselines.sessions_concat (h : start.Baselines actions) (hreach : start.Reachable) {s : SessionId}
    {session' : Session} (hsession' : ((start.after actions).act action).sessions[s]? = some session')
    (hfabric : session'.fabric = .loopback) (hphase : session'.phase = active.phase) :
    start.HasBaseline (.session s) active (actions ++ [action]) := by
  obtain ⟨hw, ht⟩ := (hreach.after actions).sound
  have hleaves := (start.after actions).sessions_act hw action s
  rw [hsession'] at hleaves
  generalize hold : (start.after actions).sessions[s]? = old at hleaves
  cases hleaves with
  | same => exact (h.sessions s session' active hold hfabric hphase).concat _
  | @move session expired =>
    obtain ⟨acquired, hleads⟩ := Move.leads_resolve ((start.after actions).answers session.fabric)
      (session.stage.next session.name session.config
        { cancelled := session.cancelled, expired, now := (start.after actions).now })
    rcases Stage.ready_of_leads hleads hphase with hready | hcapture
    · exact (h.sessions s session active hold hfabric hready).concat _
    · -- This is the move that takes the baseline.
      obtain ⟨name, config, fabric, cancelled, stage⟩ := session
      obtain rfl : fabric = .loopback := hfabric
      obtain rfl : stage = .capture active.binding active.endpoint active.region := hcapture
      have hcustody : (start.after actions).custody? (.session s) =
          some (.loopback, (Stage.capture active.binding active.endpoint active.region).custody) := by
        simp only [custody?, hold, Option.map_some]
      have hheld := mem_holdings_of_custody hcustody (mem_handles_of_endpoint rfl)
      refine ⟨actions, .session s, expired, [], rfl, .session hold rfl, (hw.issued _ _ hheld).1, ?_⟩
      injection hphase with _ _ _ hbaseline
      rw [← hbaseline]
      exact Psn.ofWord_toWord _
  | @call session operation =>
    refine (h.sessions s session active hold (hfabric ▸ (session.turn_eq _).2.2.symm) ?_).concat _
    simp only [Session.turn] at hphase
    split at hphase
    · next stage _ hstart => exact (Operation.phase_of_start hstart).1.symm.trans hphase
    · exact hphase
  | @cancel session cancelled => exact (h.sessions s session active hold hfabric hphase).concat _
  | create => contradiction

end Step

theorem baselines_after (mapper : Mapper) (now : Duration) (actions : List Action) :
    (initial mapper now).Baselines actions := by
  induction actions using List.reverseRecOn with
  | nil =>
    constructor
    · intro id s stage store active hcall
      contradiction
    · intro s store active hstore
      contradiction
    · intro s session active hsession
      contradiction
  | append_singleton actions action ih =>
    have hreach : (initial mapper now).Reachable := ⟨mapper, now, [], rfl⟩
    constructor
    · intro id s stage store active hcall hstore
      rw [after_concat] at hcall hstore
      exact ih.calls_concat hreach hcall hstore
    · intro s store active hstore
      rw [after_concat] at hstore
      exact ih.stores_concat hreach hstore
    · intro s session active hsession
      rw [after_concat] at hsession
      exact ih.sessions_concat hreach hsession

/--
Whether a session reports how many writes of its peer were accepted since the move that took its baseline.
-/
structure Counts (w : World) (since : List Action) (k : ConnectionId) (info : TransportInfo) : Prop where
  baseline : info.baseline = w.net.receivePsn k
  drift : info.drift.toNat = (w.observe (acceptedWrites k) since).length % 2 ^ 24
  receivePsn : info.receivePsn.toNat = (info.baseline.toNat + (w.observe (acceptedWrites k) since).length) % 2 ^ 24

theorem IsReady.info?_eq {party : Party} {active : Active} (h : w.IsReady active party) :
    w.info? party = some (.ok
      { queuePair := active.endpoint.queuePair
        keys := active.region.keys
        receivePsn := w.net.receivePsn active.endpoint.handle
        baseline := active.baseline }) := by
  have hinfo : (w.transportInfo .loopback active.phase).1 = .ok
      { queuePair := active.endpoint.queuePair
        keys := active.region.keys
        receivePsn := w.net.receivePsn active.endpoint.handle
        baseline := active.baseline } := by
    simp only [transportInfo, Active.phase, serve, Loopback.serve, Psn.ofWord_toWord]
  cases h with
  | store hstore hfabric hactive =>
    simp only [info?, hstore, Option.map_some, storeInfo, Store.active?, hactive, hfabric, hinfo]
  | session hsession hfabric hphase => simp only [info?, hsession, Option.map_some, hfabric, hphase, hinfo]

theorem Baselines.hasBaseline {actions : List Action} (h : start.Baselines actions) {party : Party} {active : Active}
    (hready : (start.after actions).IsReady active party) : start.HasBaseline party active actions := by
  cases hready with
  | store hstore hfabric hactive => exact h.stores _ _ _ hstore hfabric hactive
  | session hsession hfabric hphase => exact h.sessions _ _ _ hsession hfabric hphase

theorem drift_counts_accepted {mapper : Mapper} {now : Duration} {actions : List Action} {party : Party}
    {active : Active} (hready : ((initial mapper now).after actions).IsReady active party) :
    ∃ before task expired since info, actions = before ++ .step task expired :: since ∧
      ((initial mapper now).after before).Captures active party task ∧
      ((initial mapper now).after actions).info? party = some (.ok info) ∧
      ((initial mapper now).after before).Counts (.step task expired :: since) active.endpoint.handle info := by
  obtain ⟨before, task, expired, since, rfl, hcaptures, hlink, hbaseline⟩ :=
    (baselines_after mapper now actions).hasBaseline hready
  have hreach : ((initial mapper now).after before).Reachable := ⟨mapper, now, before, rfl⟩
  have hpsn := hreach.receivePsn_after hlink (.step task expired :: since)
  rw [← after_append, ← hbaseline] at hpsn
  refine ⟨before, task, expired, since, _, rfl, hcaptures, hready.info?_eq, hbaseline, ?_, ?_⟩
  · rw [TransportInfo.drift, Psn.drift, hpsn, BitVec.add_comm, BitVec.add_sub_cancel, BitVec.toNat_ofNat]
  · rw [hpsn, BitVec.toNat_add, BitVec.toNat_ofNat, Nat.add_mod_mod]

def sampleWrites : List Action :=
  sampleNeighbours ++ [.write 2 0 4104 4 [7, 7], .write 2 1 0 0 [7], .write 6 0 12288 8 [7], .write 2 0 4096 4 [1, 2]]

set_option maxRecDepth 10000 in
theorem drift_counts_accepted_two :
    let w := (initial (.above 4096 4096) .zero).after sampleWrites
    w.IsReady sampleActive (.store 1) ∧
      (w.info? (.store 1)).map (·.toOption.map fun info => (info.receivePsn, info.drift)) =
        some (some (0x5ccf#24, 2#24)) ∧
      ∃ before task expired since info, sampleWrites = before ++ .step task expired :: since ∧
        ((initial (.above 4096 4096) .zero).after before).Captures sampleActive (.store 1) task ∧
        w.info? (.store 1) = some (.ok info) ∧
        ((initial (.above 4096 4096) .zero).after before).Counts (.step task expired :: since) 2 info := by
  intro w
  obtain ⟨store, hstore, hfabric, hactive⟩ : ∃ store, w.stores[1]? = some store ∧ store.fabric = .loopback ∧
      store.active = some sampleActive := ⟨_, rfl, rfl, rfl⟩
  have hready : w.IsReady sampleActive (.store 1) := .store hstore hfabric hactive
  have hdrift : (w.info? (.store 1)).map (·.toOption.map fun info => (info.receivePsn, info.drift)) =
      some (some (0x5ccf#24, 2#24)) := by decide +kernel
  exact ⟨hready, hdrift, drift_counts_accepted hready⟩

end World

end RemoteSlots
