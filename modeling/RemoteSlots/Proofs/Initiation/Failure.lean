import RemoteSlots.Proofs.Initiation.Accounts

/-!
This module shows that an initiation is all or nothing: one that fails leaves its store neither ready nor
claimed, gives back every channel and every connection it got, and never touches what is not its own.
-/

namespace RemoteSlots

open Std

theorem CallStage.free_of_leads {store : Store} {signals : Signals} {stage : CallStage}
    {acquired : List Handle} {failure : Failure} (h : stage.isUnderWay)
    (hleads : (stage.next store signals).Leads acquired (.over (.error (.failed failure)))) :
    stage = .free (.error failure) := by
  cases follows_of_leads hleads with
  | ended => rfl
  | ready | claimed | discarded | stays => contradiction

namespace World

variable {w : World}

/--
Whether nothing is left of what a call got, and its store can be initiated again.
-/
structure NothingLeft (w : World) (s : StoreId) (own : List Handle) : Prop where
  store : ∃ store, w.stores[s]? = some store ∧ store.isReady = false ∧ store.initiating = false
  listeners : ∀ c, .channel c ∈ own → ∀ (port : UInt16) l, w.net.listeners[port]? = some l → l.channel ≠ c
  pending : ∀ c, .channel c ∈ own → ∀ k ∈ w.net.pending, ∀ link, w.net.links[k]? = some link →
    link.channel ≠ c
  links : ∀ k, .endpoint k ∈ own →
    ∃ link, w.net.links[k]? = some link ∧ link.serverClosed = true ∧ link.regions = []

theorem Accounts.nothingLeft (h : w.Sound) (ht : w.Tidy) {id : CallId} {s : StoreId} {setup : Store}
    {stage : CallStage} {own : List Handle} (hown : w.Accounts id s setup stage own) (hidle : w.IsIdle s)
    {expired : Bool} {failure : Failure}
    (hfailed : (w.act (.step (.call id) expired)).result? (.call id) = some (.error (.failed failure))) :
    (w.act (.step (.call id) expired)).NothingLeft s (own ++ w.gained id (.step (.call id) expired)) := by
  obtain ⟨store, signals, hstore, hsetup, hnext, -, hspec⟩ := hown.step (fun _ _ => hidle) expired
  have hgained := hown.gained_eq hstore hsetup hnext
  have hcall := hspec.calls id
  rw [if_pos rfl] at hcall
  have hover : (w.perform .loopback (stage.next setup signals)).1 = .over (.error (.failed failure)) := by
    simp only [result?, act, hcall, Call.result?] at hfailed
    split at hfailed
    · next heq =>
      injection hfailed with hfailed
      rw [heq, hfailed]
    · contradiction
  have hleads := perform_leads w .loopback (stage.next setup signals)
  rw [hover] at hleads
  have hfree := CallStage.free_of_leads hown.started hleads
  have hcustody := hown.custody_act h ht (fun active heq => by rw [hfree] at heq; contradiction) hspec
  rw [hover, ← hgained] at hcustody
  -- The call has ended, so nothing that it got is left to be given back.
  have hgone : ∀ handle ∈ own ++ w.gained id (.step (.call id) expired), handle.isBlock = false →
      handle.IsGone (w.act (.step (.call id) expired)).net := by
    intro handle hmem hblock
    rcases hcustody.back handle hmem hblock with hgone | ⟨r, hr, -⟩
    · exact hgone
    · contradiction
  have hnet := (act_sound h ht (.step (.call id) expired)).1.net
  refine ⟨?_, ?_, ?_, ?_⟩
  · refine ⟨stage.update store, (hspec.stores s).trans (if_pos rfl), ?_, ?_⟩
    · rw [hfree]
      simp [CallStage.update, Store.isReady, hidle store hstore]
    · rw [hfree]
      rfl
  · rintro c hc port l hl rfl
    obtain ⟨channel, hchannel, -⟩ := hnet.listener port l hl
    rw [(hgone _ hc rfl).2] at hchannel
    contradiction
  · rintro c hc k hk link hlink rfl
    obtain ⟨link', hlink', -, hsome⟩ := hnet.pending k hk
    rw [hlink] at hlink'
    injection hlink' with hlink'
    rw [← hlink', (hgone _ hc rfl).2] at hsome
    contradiction
  · intro k hk
    obtain ⟨link, hlink, hclosed, hregions⟩ := hgone _ hk rfl
    exact ⟨link, hlink, hclosed, hregions⟩

theorem initiation_all_or_nothing (h : w.Reachable) {id : CallId} {s : StoreId} {store : Store}
    (hclaimed : w.HasClaimed id s store) {actions : List Action} (halone : w.IsAlone id s actions)
    (hrunning : (w.after actions).result? (.call id) = none) {expired : Bool} {failure : Failure}
    (hfailed : (w.after (actions ++ [.step (.call id) expired])).result? (.call id) =
      some (.error (.failed failure))) :
    (w.after (actions ++ [.step (.call id) expired])).NothingLeft s
        (w.observe (gained id) (actions ++ [.step (.call id) expired])) ∧
      ∀ before moved rest, actions ++ [.step (.call id) expired] = before ++ .step (.call id) moved :: rest →
        (w.after before).ChangesOnly (w.after (before ++ [.step (.call id) moved])) id s
          (w.observe (gained id) (before ++ [.step (.call id) moved])) := by
  obtain ⟨hw, ht⟩ := h.sound
  have hid := ht.calls_le id _ hclaimed.calls
  refine ⟨?_, ?_⟩
  · obtain ⟨hidle, stage, hstage⟩ := accounts_after hw ht hclaimed actions halone hrunning
    obtain ⟨hw', ht', -⟩ := after_spec hw ht actions
    rw [after_concat] at hfailed ⊢
    rw [observe_concat]
    exact hstage.nothingLeft hw' ht' hidle hfailed
  · intro before moved rest heq
    obtain ⟨after, rfl⟩ := prefix_of_concat_eq heq
    obtain ⟨hidle, stage, hstage⟩ := accounts_after hw ht hclaimed before halone.of_append
      (running_of_after hw ht hid hrunning)
    rw [after_concat, observe_concat]
    exact hstage.changesOnly (after_spec hw ht before).1 (fun _ _ => hidle) moved

set_option maxRecDepth 10000 in
theorem initiation_all_or_nothing_hangUp :
    let actions := sampleMoves 3 ++ [.connect 7000] ++ sampleMoves 8 ++ [.hangUp 2] ++ sampleMoves 10
    sample.Reachable ∧ sample.HasClaimed 2 1 sampleStore ∧ sample.IsAlone 2 1 actions ∧
      (sample.after actions).result? (.call 2) = none ∧
      (sample.after (actions ++ [.step (.call 2) false])).result? (.call 2) =
        some (.error (.failed (.completion .retryExceeded advertiseRequest))) ∧
      (sample.after (actions ++ [.step (.call 2) false])).NothingLeft 1
        [.channel 1, .endpoint 2, .block 0] := by
  intro actions
  have halone : sample.IsAlone 2 1 actions := by
    apply IsAlone.of_forall
    simp [actions, sampleMoves]
  have hrunning : (sample.after actions).result? (.call 2) = none := by rfl
  have hfailed : (sample.after (actions ++ [.step (.call 2) false])).result? (.call 2) =
      some (.error (.failed (.completion .retryExceeded advertiseRequest))) := by rfl
  have hown : sample.observe (gained 2) (actions ++ [.step (.call 2) false]) =
      [.channel 1, .endpoint 2, .block 0] := by rfl
  refine ⟨reachable_sample, hasClaimed_sample, halone, hrunning, hfailed, ?_⟩
  rw [← hown]
  exact (initiation_all_or_nothing reachable_sample hasClaimed_sample halone hrunning hfailed).1

end World

end RemoteSlots
