import RemoteSlots.Proofs.Initiation.UnderWay

/-!
This module shows where a call accepts connections, and that it only accepts what was requested from the
channel it waits on.
-/

namespace RemoteSlots

open Std

theorem Stage.awaitRequest_of_leads {name : String} {config : SessionConfig} {signals : Signals}
    {stage : Stage} {acquired : List Handle} {binding : Binding} {k : ConnectionId}
    (h : (stage.next name config signals).Leads acquired (.accept binding k)) :
    stage = .awaitRequest binding := by
  cases stage with
  | awaitRequest binding' =>
    simp only [next] at h
    obtain ⟨-, heq | ⟨halt, heq⟩ | ⟨event, heq⟩⟩ := await_leads h
    · contradiction
    · contradiction
    · injection heq with heq
      rw [heq]
  | awaitEstablished binding' endpoint =>
    simp only [next] at h
    obtain ⟨-, heq | ⟨halt, heq⟩ | ⟨event, heq⟩⟩ := await_leads h <;> contradiction
  | awaitAck binding' endpoint region =>
    simp only [next] at h
    obtain ⟨-, heq | heq | ⟨result, heq⟩⟩ := awaitCompletion_leads h <;> contradiction
  | announce binding' endpoint region =>
    simp only [next] at h
    split at h <;> cases h
  | wipe binding' endpoint region result =>
    rcases result with failure | _ <;> cases h
  | rest => cases h
  | openChannel | bind | listen | giveUp | accept | register | send | capture =>
    generalize hstage : Stage.accept binding k = stage' at h
    cases h with
    | ask _ _ reply => rcases reply with failure | value <;> contradiction

theorem Initiation.awaitRequest_of_leads {layout : Layout} {config : StoreConfig} {signals : Signals}
    {initiation : Initiation} {acquired : List Handle} {binding : Binding} {k : ConnectionId}
    (h : (initiation.next layout config signals).Leads acquired (.run (.accept binding k))) :
    initiation = .run (.awaitRequest binding) := by
  generalize hinitiation : Initiation.run (.accept binding k) = initiation' at h
  cases initiation with
  | run stage =>
    rcases hrest : stage.result? with _ | result
    · rw [next_run hrest] at h
      obtain ⟨stage', hstage, rfl⟩ := Move.leads_embed h
      injection hinitiation with heq
      subst heq
      rw [Stage.awaitRequest_of_leads hstage]
    · cases stage with
      | rest phase result =>
        cases h
        unfold after at hinitiation
        split at hinitiation <;> cases hinitiation
      | _ => contradiction
  | allocate binding' endpoint =>
    simp only [next] at h
    split at h
    · cases h
      contradiction
    · cases h with
      | mapped _ _ _ extent =>
        dsimp only at hinitiation
        split at hinitiation <;> cases hinitiation
      | unmapped _ _ _ halt => contradiction
  | clear binding' endpoint extent =>
    cases h
    injection hinitiation
    contradiction
  | giveBack requests halt =>
    rcases requests with _ | ⟨request, requests⟩ <;> cases h <;> cases hinitiation
  | finished result =>
    cases h
    contradiction

theorem CallStage.awaitRequest_of_leads {store : Store} {signals : Signals} {stage : CallStage}
    {acquired : List Handle} {binding : Binding} {k : ConnectionId}
    (h : (stage.next store signals).Leads acquired (.initiate (.run (.accept binding k)))) :
    stage = .initiate (.run (.awaitRequest binding)) := by
  obtain ⟨initiation, rfl⟩ : ∃ initiation, stage = .initiate initiation := by
    cases stage with
    | initiate initiation => exact ⟨initiation, rfl⟩
    | check | claim | publish =>
      simp only [next] at h
      split at h <;> cases h
    | free result => rcases result with failure | active <;> cases h
    | discard requests =>
      generalize hstage : CallStage.initiate (.run (.accept binding k)) = stage' at h
      rcases requests with _ | ⟨request, requests⟩
      · cases h
        contradiction
      · cases h
        contradiction
    | _ => cases h
  cases initiation with
  | finished result => rcases result with (failure | _) | active <;> cases h
  | allocate | clear | giveBack | run =>
    simp only [next] at h
    obtain ⟨initiation', hleads, heq⟩ := Move.leads_embed h
    injection heq with heq
    subst heq
    rw [Initiation.awaitRequest_of_leads hleads]

theorem Stage.accept_of_request {name : String} {config : SessionConfig} {signals : Signals} {stage : Stage}
    {channel : ChannelId} {k : ConnectionId} {queues : QueueSizes}
    (h : (stage.next name config signals).request? = some (.accept channel k queues)) :
    ∃ binding, stage = .accept binding k ∧ binding.channel = channel := by
  cases stage with
  | accept binding connection =>
    injection h with h
    injection h with hchannel hk
    subst hk
    exact ⟨binding, rfl, hchannel⟩
  | awaitRequest binding | awaitEstablished binding endpoint =>
    simp only [next] at h
    unfold await at h
    grind [Move.request?]
  | awaitAck binding endpoint region =>
    simp only [next] at h
    unfold awaitCompletion at h
    grind [Move.request?]
  | announce binding endpoint region =>
    simp only [next] at h
    split at h <;> contradiction
  | openChannel | bind | listen | giveUp | register | send | wipe | capture | rest =>
    simp [next, Move.request?] at h

theorem CallStage.accept_of_request {store : Store} {signals : Signals} {stage : CallStage}
    {channel : ChannelId} {k : ConnectionId} {queues : QueueSizes} (hrelease : stage.custody.IsRelease)
    (h : (stage.next store signals).request? = some (.accept channel k queues)) :
    ∃ binding, stage = .initiate (.run (.accept binding k)) ∧ binding.channel = channel := by
  have hgiven : ∀ requests, Request.accept channel k queues ∈ requests → stage.custody.release ≠ requests := by
    rintro requests hmem rfl
    have hnone := hrelease _ hmem (.ok ⟨k, 0⟩)
    contradiction
  cases stage with
  | initiate initiation =>
    cases initiation with
    | run stage =>
      rcases hrest : stage.result? with _ | result
      · simp only [next, Move.request?_embed, Initiation.next_run hrest] at h
        obtain ⟨binding, rfl, hchannel⟩ := Stage.accept_of_request h
        exact ⟨binding, rfl, hchannel⟩
      · cases stage with
        | rest phase result => contradiction
        | _ => contradiction
    | allocate binding endpoint =>
      simp only [next, Initiation.next] at h
      split at h <;> contradiction
    | clear => contradiction
    | giveBack requests halt =>
      rcases requests with _ | ⟨request, requests⟩
      · contradiction
      · injection h with h
        exact absurd rfl (hgiven (request :: requests) (h ▸ List.mem_cons_self ..))
    | finished result => rcases result with (failure | _) | active <;> contradiction
  | discard requests =>
    rcases requests with _ | ⟨request, requests⟩
    · contradiction
    · injection h with h
      exact absurd rfl (hgiven (request :: requests) (h ▸ List.mem_cons_self ..))
  | free result => rcases result with failure | active <;> contradiction
  | _ => contradiction

namespace World

variable {w : World}

theorem channel_of_awaitRequest (hnet : w.net.Sound) {name : String} {config : SessionConfig}
    {signals : Signals} {binding : Binding} {k : ConnectionId}
    (h : (w.perform .loopback ((Stage.awaitRequest binding).next name config signals)).1 =
      .accept binding k) :
    k = 0 ∨ ∃ link, (w.perform .loopback
      ((Stage.awaitRequest binding).next name config signals)).2.2.net.links[k]? = some link ∧
        link.channel = binding.channel := by
  obtain ⟨hlinks, -, heq | ⟨halt, heq⟩ | ⟨channel, event, hchannel, hmem, hkind, heq⟩⟩ :=
    perform_await w name config signals binding.channel .connectRequest (.awaitRequest binding)
      (fun halt => .rest (.listening binding) (.error halt)) fun event => .accept binding event.connection
  · rw [Stage.next, heq] at h
    contradiction
  · rw [Stage.next, heq] at h
    contradiction
  · rw [Stage.next, heq] at h
    rw [Stage.next, hlinks]
    injection h with _ hk
    subst hk
    by_cases hzero : event.connection = 0
    · exact .inl hzero
    · exact .inr (hnet.asked binding.channel channel event hchannel hmem hkind hzero)

end World

end RemoteSlots
