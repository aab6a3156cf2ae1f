import RemoteSlots.Proofs.Session.Foothold
import RemoteSlots.Proofs.World.Call

/-!
This module shows that a session keeps its foothold with every move it makes, up to the point where it gives
back what it holds, and that a call which initiates a store keeps to the port of the store.
-/

namespace RemoteSlots

open Std

def Phase.registrations (phase : Phase) : List Registration :=
  phase.region?.toList.map fun region => ⟨region.toExtent, region.keys.localKey, .full⟩

def Phase.foothold (phase : Phase) : Foothold :=
  { port := phase.binding?.map (·, true)
    link := phase.endpoint?.map (·, phase.registrations) }

def Stage.foothold : Stage → Foothold
  | listen binding => { port := some (binding, false), link := none }
  | stage => stage.phase.foothold

def Initiation.foothold : Initiation → Foothold
  | run stage => stage.foothold
  | allocate binding endpoint | clear binding endpoint _ => (Phase.accepted binding endpoint).foothold
  | finished (.ok active) => active.phase.foothold
  | giveBack .. | finished (.error _) => .none

def CallStage.foothold : CallStage → Foothold
  | initiate initiation => initiation.foothold
  | free (.ok active) | publish active => active.phase.foothold
  | check | claim | free (.error _) | discard _ | .over _ => .none

theorem Phase.isListening_foothold (phase : Phase) : phase.foothold.IsListening := by
  intro binding h
  obtain ⟨_, -, heq⟩ := Option.map_eq_some_iff.mp h
  injection heq
  contradiction

def Stage.aim? : Stage → Option UInt16
  | openChannel port => some port
  | bind binding | listen binding => some binding.port
  | stage => stage.phase.binding?.map (·.port)

def Initiation.aim? : Initiation → Option UInt16
  | run stage => stage.aim?
  | allocate binding _ | clear binding _ _ => some binding.port
  | finished (.ok active) => some active.binding.port
  | giveBack .. | finished (.error _) => none

def CallStage.aim? : CallStage → Option UInt16
  | initiate initiation => initiation.aim?
  | free (.ok active) | publish active => some active.binding.port
  | check | claim | free (.error _) | discard _ | .over _ => none

section Aim

variable {port : UInt16} {acquired : List Handle}

theorem Stage.aim?_of_leads {name : String} {config : SessionConfig} {signals : Signals}
    {stage stage' : Stage} (h : (stage.next name config signals).Leads acquired stage')
    (haim : stage'.aim? = some port) : stage.aim? = some port := by
  cases stage with
  | awaitRequest binding =>
    simp only [next] at h
    obtain ⟨-, rfl | ⟨halt, rfl⟩ | ⟨event, rfl⟩⟩ := await_leads h
    · exact haim
    · exact haim
    · exact haim
  | awaitEstablished binding endpoint =>
    simp only [next] at h
    obtain ⟨-, rfl | ⟨halt, rfl⟩ | ⟨event, rfl⟩⟩ := await_leads h
    · exact haim
    · exact haim
    · exact haim
  | awaitAck binding endpoint region =>
    simp only [next] at h
    obtain ⟨-, rfl | rfl | ⟨result, rfl⟩⟩ := awaitCompletion_leads h
    · exact haim
    · exact haim
    · exact haim
  | announce binding endpoint region =>
    simp only [next] at h
    split at h
    · cases h
      exact haim
    · cases h
      exact haim
  | wipe binding endpoint region result =>
    cases h
    rcases result with _ | _
    · exact haim
    · exact haim
  | rest phase result =>
    cases h
    exact haim
  | giveUp channel failure =>
    cases h with
    | ask _ _ reply => contradiction
  | openChannel | bind | listen =>
    cases h with
    | ask _ _ reply =>
      rcases reply with _ | _
      · contradiction
      · exact haim
  | accept | register | send | capture =>
    cases h with
    | ask _ _ reply =>
      rcases reply with _ | _
      · exact haim
      · exact haim

theorem Initiation.aim?_of_leads {layout : Layout} {config : StoreConfig} {signals : Signals}
    {initiation initiation' : Initiation} (h : (initiation.next layout config signals).Leads acquired initiation')
    (haim : initiation'.aim? = some port) : initiation.aim? = some port := by
  cases initiation with
  | run stage =>
    rcases hrest : stage.result? with _ | result
    · rw [next_run hrest] at h
      obtain ⟨stage', hstage, rfl⟩ := Move.leads_embed h
      exact Stage.aim?_of_leads hstage haim
    · cases stage with
      | rest phase result =>
        cases h
        rcases result with halt | ⟨⟩
        · contradiction
        · cases phase with
          | unbound | listening | requested => contradiction
          | accepted | registered | advertised | ready => exact haim
      | _ => contradiction
  | allocate binding endpoint =>
    simp only [next] at h
    split at h
    · cases h
      contradiction
    · cases h with
      | mapped _ _ _ extent =>
        dsimp only at haim
        split at haim
        · exact haim
        · exact haim
      | unmapped _ _ _ halt => contradiction
  | clear binding endpoint extent =>
    cases h
    exact haim
  | giveBack requests halt =>
    rcases requests with _ | ⟨request, requests⟩
    · cases h
      contradiction
    · cases h
      contradiction
  | finished result =>
    cases h
    exact haim

theorem CallStage.aim?_of_leads {store : Store} {signals : Signals} {stage stage' : CallStage}
    (h : (stage.next store signals).Leads acquired stage') (haim : stage'.aim? = some port) :
    stage.aim? = some port ∨ port = store.config.port := by
  cases stage with
  | check =>
    cases h
    split at haim
    · contradiction
    · contradiction
  | claim =>
    cases h
    split at haim
    · contradiction
    · injection haim with haim
      exact .inr haim.symm
  | initiate initiation =>
    cases initiation with
    | finished result =>
      rcases result with (_ | failure) | active
      · cases h
        contradiction
      · cases h
        contradiction
      · cases h
        exact .inl haim
    | run | allocate | clear | giveBack =>
      simp only [next] at h
      obtain ⟨initiation', hinitiation, rfl⟩ := Move.leads_embed h
      exact .inl (Initiation.aim?_of_leads hinitiation haim)
  | free result =>
    rcases result with failure | active
    · cases h
      contradiction
    · cases h
      exact .inl haim
  | publish active =>
    cases h
    split at haim
    · contradiction
    · contradiction
  | discard requests =>
    rcases requests with _ | ⟨request, requests⟩
    · cases h
      contradiction
    · cases h with
      | ask _ _ reply => contradiction
  | _ =>
    cases h
    contradiction

end Aim

namespace World

variable {w : World} {name : String} {config : SessionConfig} {signals : Signals}

theorem isFirm_perform {move : Move σ} {foothold : Foothold} (h : foothold.IsFirm w.net)
    (hlistening : foothold.IsListening) (hmild : ∀ request, move.request? = some request → request.isMild) :
    foothold.IsFirm (w.perform .loopback move).2.2.net := by
  cases move with
  | ask request resume => exact h.serve hlistening (hmild request rfl)
  | map pages length resume =>
    simp only [perform]
    split
    · exact h
    · exact h
  | write | clear | pass => exact h

theorem isMild_await {channel : ChannelId} {expected : EventKind} {waiting : Stage} {ended : Halt → Stage}
    {found : Event → Stage} {request : Request}
    (h : (Stage.await name config signals channel expected waiting ended found).request? = some request) :
    request.isMild := by
  rcases Stage.await_cases name config signals channel expected waiting ended found with
    ⟨halt, heq⟩ | ⟨resume, heq, -⟩
  · rw [heq] at h
    contradiction
  · rw [heq] at h
    injection h with h
    rw [← h]
    rfl

theorem isMild_awaitCompletion {endpoint : Endpoint} {id : UInt64} {waiting faulted : Stage}
    {ended : Except Failure Unit → Stage} {request : Request}
    (h : (Stage.awaitCompletion name config signals endpoint id waiting faulted ended).request? =
      some request) : request.isMild := by
  rcases Stage.awaitCompletion_cases name config signals endpoint id waiting faulted ended with
    ⟨stage, heq, -⟩ | ⟨resume, heq, -⟩
  · rw [heq] at h
    contradiction
  · rw [heq] at h
    injection h with h
    rw [← h]
    rfl

theorem isFirm_perform_same {f : σ → Foothold} {move : Move σ} {foothold : Foothold}
    (h : foothold.IsFirm w.net) (hlistening : foothold.IsListening)
    (hmild : ∀ request, move.request? = some request → request.isMild)
    (hleads : ∀ acquired state, move.Leads acquired state → f state = foothold) :
    (f (w.perform .loopback move).1).IsFirm (w.perform .loopback move).2.2.net := by
  rw [hleads _ _ (perform_leads w .loopback move)]
  exact isFirm_perform h hlistening hmild

theorem isFirm_bind (w : World) (binding : Binding) :
    (w.perform .loopback ((Stage.bind binding).next name config signals)).1.foothold.IsFirm
      (w.perform .loopback ((Stage.bind binding).next name config signals)).2.2.net := by
  simp only [Stage.next, perform, serve, Loopback.serve, Loopback.answer]
  rcases hbind : w.net.bind binding.channel binding.port with failure | net
  · exact Foothold.isFirm_none _
  · refine ⟨?_, fun _ _ hnone => by contradiction⟩
    rintro _ _ ⟨⟩
    unfold Loopback.bind at hbind
    split at hbind
    · contradiction
    · split at hbind
      · contradiction
      · split at hbind
        · contradiction
        · injection hbind with hbind
          rw [← hbind, TreeMap.getElem?_insert_self]

theorem isFirm_listen (hnet : w.net.Sound) {binding : Binding}
    (h : (Stage.listen binding).foothold.IsFirm w.net) :
    (w.perform .loopback ((Stage.listen binding).next name config signals)).1.foothold.IsFirm
      (w.perform .loopback ((Stage.listen binding).next name config signals)).2.2.net := by
  have hport := h.port binding false rfl
  obtain ⟨channel, hchannel, heq⟩ := hnet.listener binding.port _ hport
  simp only [Stage.next, perform, serve, Loopback.serve, Loopback.answer, Loopback.listen, hchannel, heq,
    hport, if_pos]
  refine ⟨?_, fun _ _ hnone => by contradiction⟩
  rintro _ _ ⟨⟩
  exact TreeMap.getElem?_insert_self

theorem isFirm_accept (hnet : w.net.Sound) {binding : Binding} {k : ConnectionId}
    (h : (Stage.accept binding k).foothold.IsFirm w.net) :
    (w.perform .loopback ((Stage.accept binding k).next name config signals)).1.foothold.IsFirm
      (w.perform .loopback ((Stage.accept binding k).next name config signals)).2.2.net := by
  have hmild : ∀ request, ((Stage.accept binding k).next name config signals).request? = some request →
      request.isMild := by
    rintro _ ⟨⟩
    rfl
  have hkept := isFirm_perform h (Phase.isListening_foothold (.requested binding none)) hmild
  simp only [Stage.next, perform, serve, Loopback.serve] at hkept ⊢
  rcases Loopback.accept_cases w.net binding.channel k config.queues with
    ⟨failure, heq⟩ | ⟨failure, heq⟩ | ⟨link, hlink, hmem, -, heq⟩
  · rw [heq] at hkept ⊢
    exact hkept
  · rw [heq] at hkept ⊢
    exact hkept
  · rw [heq] at hkept ⊢
    refine ⟨hkept.port, ?_⟩
    rintro _ _ ⟨⟩
    obtain ⟨link', hlink', hfresh, -⟩ := hnet.pending k hmem
    rw [hlink] at hlink'
    injection hlink' with hlink'
    subst hlink'
    refine ⟨{ link with queueSize := config.queues.completions.toNat, acceptedBy := some binding.channel },
      ?_, hfresh.serverClosed, hfresh.regions⟩
    refine (Loopback.getElem?_modifyLink ..).trans ?_
    rw [if_pos rfl, hlink]
    rfl

theorem isFirm_register {binding : Binding} {endpoint : Endpoint} {extent : Extent}
    (h : (Stage.register binding endpoint extent).foothold.IsFirm w.net) :
    (w.perform .loopback ((Stage.register binding endpoint extent).next name config signals)).1.foothold.IsFirm
      (w.perform .loopback ((Stage.register binding endpoint extent).next name config signals)).2.2.net := by
  obtain ⟨link, hlink, hclosed, hregions⟩ := h.link endpoint [] rfl
  simp only [Stage.next, perform, serve, Loopback.serve, Loopback.register, hlink, hclosed]
  by_cases halign : extent.address % 4 ≠ 0
  · simp only [if_pos halign]
    exact h
  · simp only [if_neg halign]
    refine ⟨h.port, ?_⟩
    rintro _ _ ⟨⟩
    refine ⟨{ link with regions := link.regions ++ [⟨extent, UInt32.ofNat (w.net.lastId + 1), .full⟩] },
      ?_, hclosed, ?_⟩
    · refine (Loopback.getElem?_modifyLink ..).trans ?_
      rw [if_pos rfl, hlink]
      rfl
    · rw [hregions]
      rfl

theorem isFirm_stage (hnet : w.net.Sound) {stage : Stage} (h : stage.foothold.IsFirm w.net) :
    (w.perform .loopback (stage.next name config signals)).1.foothold.IsFirm
      (w.perform .loopback (stage.next name config signals)).2.2.net := by
  cases stage with
  | openChannel port => exact Foothold.isFirm_none _
  | bind binding => exact isFirm_bind w binding
  | listen binding => exact isFirm_listen hnet h
  | giveUp channel failure => exact Foothold.isFirm_none _
  | accept binding k => exact isFirm_accept hnet h
  | register binding endpoint extent => exact isFirm_register h
  | awaitRequest binding =>
    apply isFirm_perform_same h (Phase.isListening_foothold (.listening binding))
    · intro request hrequest
      simp only [Stage.next] at hrequest
      exact isMild_await hrequest
    · intro acquired stage' hleads
      simp only [Stage.next] at hleads
      obtain ⟨-, rfl | ⟨halt, rfl⟩ | ⟨event, rfl⟩⟩ := Stage.await_leads hleads <;> rfl
  | awaitEstablished binding endpoint =>
    apply isFirm_perform_same h (Phase.isListening_foothold (.requested binding (some endpoint)))
    · intro request hrequest
      simp only [Stage.next] at hrequest
      exact isMild_await hrequest
    · intro acquired stage' hleads
      simp only [Stage.next] at hleads
      obtain ⟨-, rfl | ⟨halt, rfl⟩ | ⟨event, rfl⟩⟩ := Stage.await_leads hleads <;> rfl
  | awaitAck binding endpoint region =>
    apply isFirm_perform_same h (Phase.isListening_foothold (.registered binding endpoint region))
    · intro request hrequest
      simp only [Stage.next] at hrequest
      exact isMild_awaitCompletion hrequest
    · intro acquired stage' hleads
      simp only [Stage.next] at hleads
      obtain ⟨-, rfl | rfl | ⟨result, rfl⟩⟩ := Stage.awaitCompletion_leads hleads <;> rfl
  | announce binding endpoint region =>
    apply isFirm_perform_same h (Phase.isListening_foothold (.registered binding endpoint region))
    · intro request hrequest
      simp only [Stage.next] at hrequest
      split at hrequest <;> contradiction
    · intro acquired stage' hleads
      simp only [Stage.next] at hleads
      split at hleads <;> cases hleads <;> rfl
  | send binding endpoint region =>
    apply isFirm_perform_same h (Phase.isListening_foothold (.registered binding endpoint region))
    · rintro request ⟨⟩
      rfl
    · intro acquired stage' hleads
      cases hleads with
      | ask _ _ reply => rcases reply with _ | _ <;> rfl
  | capture binding endpoint region =>
    apply isFirm_perform_same h (Phase.isListening_foothold (.advertised binding endpoint region))
    · rintro request ⟨⟩
      rfl
    · intro acquired stage' hleads
      cases hleads with
      | ask _ _ reply => rcases reply with _ | _ <;> rfl
  | wipe binding endpoint region result => rcases result with failure | ⟨⟩ <;> exact h
  | rest phase result => exact h

theorem isFirm_initiation (hnet : w.net.Sound) {layout : Layout} {config : StoreConfig}
    {initiation : Initiation} (h : initiation.foothold.IsFirm w.net) :
    (w.perform .loopback (initiation.next layout config signals)).1.foothold.IsFirm
      (w.perform .loopback (initiation.next layout config signals)).2.2.net := by
  cases initiation with
  | run stage =>
    rcases hrest : stage.result? with _ | result
    · rw [Initiation.next_run hrest, perform_embed]
      exact isFirm_stage hnet h
    · cases stage with
      | rest phase result =>
        rcases result with halt | ⟨⟩
        · exact Foothold.isFirm_none _
        · cases phase with
          | unbound | listening | requested => exact Foothold.isFirm_none _
          | accepted | registered | advertised | ready => exact h
      | _ => contradiction
  | allocate binding endpoint =>
    simp only [Initiation.next]
    split
    · exact Foothold.isFirm_none _
    · simp only [perform]
      split
      · dsimp only
        split
        · exact h
        · exact h
      · exact Foothold.isFirm_none _
  | clear binding endpoint extent => exact h
  | giveBack requests halt =>
    rcases requests with _ | ⟨request, requests⟩ <;> exact Foothold.isFirm_none _
  | finished result => exact h

theorem isFirm_call (hnet : w.net.Sound) {store : Store} {stage : CallStage}
    (h : stage.foothold.IsFirm w.net) :
    (w.perform .loopback (stage.next store signals)).1.foothold.IsFirm
      (w.perform .loopback (stage.next store signals)).2.2.net := by
  cases stage with
  | check | claim | publish =>
    simp only [CallStage.next, perform]
    split <;> exact Foothold.isFirm_none _
  | initiate initiation =>
    cases initiation with
    | finished result =>
      rcases result with (_ | failure) | active
      · exact Foothold.isFirm_none _
      · exact Foothold.isFirm_none _
      · exact h
    | run | allocate | clear | giveBack =>
      simp only [CallStage.next, perform_embed]
      exact isFirm_initiation hnet h
  | free result =>
    rcases result with failure | active
    · exact Foothold.isFirm_none _
    · exact h
  | discard requests =>
    rcases requests with _ | ⟨request, requests⟩ <;> exact Foothold.isFirm_none _
  | _ => exact Foothold.isFirm_none _

end World

end RemoteSlots
