import RemoteSlots.Proofs.Initiation.Acceptance
import RemoteSlots.Proofs.Initiation.Footprint

/-!
This module keeps account of what a call got: it still holds a handle, or it has given it back for good.
-/

namespace RemoteSlots

open Std

def Handle.IsGone (net : Loopback) : Handle → Prop
  | channel c => c ≤ net.lastId ∧ net.channels[c]? = none
  | endpoint k => ∃ link, net.links[k]? = some link ∧ link.IsClosed
  | block _ => True

theorem Handle.IsGone.evolves {net net' : Loopback} {handle : Handle} (h : handle.IsGone net)
    (hevolves : net.Evolves net') : handle.IsGone net' := by
  cases handle with
  | channel c => exact ⟨Nat.le_trans h.1 hevolves.lastId_le, hevolves.channels c h.1 h.2⟩
  | endpoint k =>
    obtain ⟨link, hlink, hclosed⟩ := h
    obtain ⟨link', hlink', hev⟩ := hevolves.links k link hlink
    exact ⟨link', hlink', hev.closed hclosed⟩
  | block b => trivial

theorem Handle.isGone_of_givesBack {memory : Memory} {net : Loopback} {request : Request} {handle : Handle}
    (h : request.givesBack? = some handle) (hissued : handle.IsIssued memory net) :
    handle.IsGone (net.serve memory request).2 := by
  cases request with
  | disconnect endpoint =>
    injection h with h
    subst h
    obtain ⟨link, hlink⟩ := Option.isSome_iff_exists.mp hissued.1
    refine ⟨link.closeServer, ?_, rfl, rfl⟩
    refine (Loopback.getElem?_modifyLink ..).trans ?_
    rw [if_pos rfl, hlink]
    rfl
  | closeChannel c =>
    injection h with h
    subst h
    refine ⟨?_, ?_⟩
    · exact Nat.le_trans hissued (Nat.le_of_eq (Loopback.lastId_closeChannel ..).symm)
    · exact (Loopback.getElem?_closeChannel ..).trans (if_pos rfl)
  | _ => contradiction

structure Custody.Accounts (custody : Custody) (net : Loopback) (own : List Handle) : Prop where
  held : ∀ handle ∈ custody.handles, handle ∈ own
  release : custody.IsRelease
  back : ∀ handle ∈ own, handle.isBlock = false →
    handle.IsGone net ∨ ∃ r ∈ custody.release, r.givesBack? = some handle

theorem Custody.Accounts.step {net net' : Loopback} {before after : Custody} {request : Option Request}
    {acquired own : List Handle} (h : before.Accounts net own)
    (hstep : Custody.Step before request acquired after) (hevolves : net.Evolves net')
    (hgone : ∀ r handle, request = some r → r.givesBack? = some handle → handle.IsGone net') :
    after.Accounts net' (own ++ acquired) where
  held := by
    intro handle hmem
    rcases hstep.mem_handles hmem with hold | hnew
    · exact List.mem_append_left _ (h.held handle hold)
    · exact List.mem_append_right _ hnew
  release := hstep.isRelease h.release
  back := by
    intro handle hmem hblock
    rcases List.mem_append.mp hmem with hold | hnew
    · rcases h.back handle hold hblock with hold | ⟨r, hr, hback⟩
      · exact .inl (hold.evolves hevolves)
      · rcases hstep.mem_release hr with hkept | hserved
        · exact .inr ⟨r, hkept, hback⟩
        · exact .inl (hgone r handle hserved hback)
    · exact .inr (hstep.exists_givesBack h.release hnew hblock)

theorem Request.mem_handles_of_givesBack {request : Request} {handle : Handle}
    (h : request.givesBack? = some handle) : handle ∈ request.handles := by
  cases request with
  | disconnect | closeChannel =>
    injection h with h
    subst h
    exact List.mem_singleton_self _
  | _ => contradiction

theorem Move.eq_ask {σ : Type} {move : Move σ} {request : Request} (h : move.request? = some request) :
    ∃ resume, move = .ask request resume := by
  cases move with
  | ask request' resume =>
    injection h with h
    subst h
    exact ⟨resume, rfl⟩
  | _ => contradiction

namespace World

variable {w : World}

/--
A call that is under way and owes what it got. It accepts no connection that was requested elsewhere.
-/
structure Accounts (w : World) (id : CallId) (s : StoreId) (setup : Store) (stage : CallStage)
    (own : List Handle) : Prop extends w.UnderWay id s setup stage where
  custody : stage.custody.Accounts w.net own
  asked : ∀ binding k, stage = .initiate (.run (.accept binding k)) →
    k = 0 ∨ ∃ link, w.net.links[k]? = some link ∧ link.channel = binding.channel

namespace Accounts

variable {id : CallId} {s : StoreId} {setup : Store} {stage : CallStage} {own : List Handle}

theorem others (h : w.Accounts id s setup stage own) (hw : w.Sound) (ht : w.Tidy) {action : Action}
    (hmove : ¬action.IsMoveOf id) :
    (w.act action).Accounts id s setup stage own := by
  have hevolves := act_evolves hw ht action
  refine { (h.toUnderWay.others hw ht hmove).1 with custody := ?_, asked := ?_ }
  · refine ⟨h.custody.held, h.custody.release, ?_⟩
    intro handle hmem hblock
    rcases h.custody.back handle hmem hblock with hgone | howed
    · exact .inl (hgone.evolves hevolves)
    · exact .inr howed
  · intro binding k hstage
    rcases h.asked binding k hstage with hzero | ⟨link, hlink, hchannel⟩
    · exact .inl hzero
    · obtain ⟨link', hlink', hev⟩ := hevolves.links k link hlink
      exact .inr ⟨link', hlink', hev.channel.trans hchannel⟩

theorem custody_act (h : w.Accounts id s setup stage own) (hw : w.Sound) (ht : w.Tidy)
    (hpublish : ∀ active, stage ≠ .publish active) {expired : Bool} {store' : Store} {signals : Signals}
    (hspec : w.CallStep id ⟨s, stage⟩ .loopback (stage.next setup signals) store'
      (w.step (.call id) expired)) :
    (w.perform .loopback (stage.next setup signals)).1.custody.Accounts (w.act (.step (.call id) expired)).net
      (own ++ w.acquired .loopback (stage.next setup signals)) := by
  have hleads := perform_leads w .loopback (stage.next setup signals)
  have hstep := CallStage.custody_step hleads fun active heq => absurd heq (hpublish active)
  refine h.custody.step hstep (act_evolves hw ht _) ?_
  intro r handle hrequest hback
  obtain ⟨resume, hask⟩ := Move.eq_ask hrequest
  have huse : handle ∈ (stage.next setup signals).uses := by
    rw [hask]
    exact Request.mem_handles_of_givesBack hback
  have hissued := hw.issued (.call id) handle
    (h.mem_holdings.mpr (CallStage.mem_handles_of_uses huse))
  have hnet : (w.act (.step (.call id) expired)).net = (w.net.serve w.memory r).2 := by
    refine hspec.net.trans ?_
    rw [hask]
    rfl
  rw [hnet]
  exact Handle.isGone_of_givesBack hback hissued

theorem move (h : w.Accounts id s setup stage own) (hw : w.Sound) (ht : w.Tidy)
    (hidle : ∀ active, stage = .publish active → w.IsIdle s) {expired : Bool}
    (hrunning : (w.act (.step (.call id) expired)).result? (.call id) = none) :
    ∃ stage', (w.act (.step (.call id) expired)).Accounts id s setup stage'
      (own ++ w.gained id (.step (.call id) expired)) := by
  obtain ⟨store, signals, hstore, hsetup, hnext, -, hspec⟩ := h.step hidle expired
  have hunder := h.toUnderWay.move hrunning hsetup hspec
  have hpublish : ∀ active, stage ≠ .publish active := by
    rintro active rfl
    have hstarted := hunder.started
    simp only [CallStage.next, perform] at hstarted
    rw [if_neg (by simp [Store.isReady, h.idle])] at hstarted
    contradiction
  have hgained := h.gained_eq hstore hsetup hnext
  refine ⟨_, { hunder with custody := ?_, asked := ?_ }⟩
  · rw [hgained]
    exact h.custody_act hw ht hpublish hspec
  · intro binding k heq
    have hleads := perform_leads w .loopback (stage.next setup signals)
    rw [heq] at hleads
    have hstage := CallStage.awaitRequest_of_leads hleads
    subst hstage
    have hnet : (w.act (.step (.call id) expired)).net =
        (w.perform .loopback ((Stage.awaitRequest binding).next setup.config.name setup.config.session
          signals)).2.2.net := by
      refine hspec.net.trans ?_
      simp only [CallStage.next, Initiation.next, perform_embed]
    rw [hnet]
    apply channel_of_awaitRequest hw.net
    simp only [CallStage.next, Initiation.next, perform_embed] at heq
    injection heq with heq
    injection heq

theorem changesOnly (h : w.Accounts id s setup stage own) (hw : w.Sound)
    (hidle : ∀ active, stage = .publish active → w.IsIdle s) (expired : Bool) :
    w.ChangesOnly (w.act (.step (.call id) expired)) id s (own ++ w.gained id (.step (.call id) expired)) := by
  obtain ⟨store, signals, hstore, hsetup, hnext, hstep, -⟩ := h.step hidle expired
  have hfabric : store.fabric = .loopback := hsetup.fabric.trans h.fabric
  have hgained := h.gained_eq hstore hsetup hnext
  have hact : w.act (.step (.call id) expired) = (w.stepCall id ⟨s, stage⟩ store expired).2 :=
    congrArg (·.2) hstep
  rw [hact, hgained]
  apply stepCall_changesOnly hw h.calls hstore hfabric
  · intro handle hmem
    exact List.mem_append_left _ (h.custody.held handle (CallStage.mem_handles_of_uses hmem))
  · rw [hnext]
    exact fun handle hmem => List.mem_append_right _ hmem
  · intro channel k queues hrequest link hlink
    obtain ⟨binding, hstage, rfl⟩ := CallStage.accept_of_request h.custody.release hrequest
    -- What is accepted was requested from the channel of the call, so it waited for nobody else.
    rcases h.asked binding k hstage with rfl | ⟨link', hlink', hchannel⟩
    · exact absurd (hw.net.link_bounds 0 link hlink).1 (Nat.lt_irrefl 0)
    · rw [hlink] at hlink'
      injection hlink' with hlink'
      rw [hlink', hchannel]

end Accounts

theorem HasClaimed.accounts {id : CallId} {s : StoreId} {store : Store} (h : w.HasClaimed id s store) :
    w.Accounts id s store (.initiate (.start store.config)) [] where
  toUnderWay := h.underWay
  custody := by
    refine ⟨fun handle hmem => ?_, fun r hr => ?_, fun handle hmem => ?_⟩
    · contradiction
    · contradiction
    · contradiction
  asked := by
    intro binding k heq
    injection heq with heq
    injection heq with heq
    contradiction

theorem accounts_after (h : w.Sound) (ht : w.Tidy) {id : CallId} {s : StoreId} {store : Store}
    (hclaimed : w.HasClaimed id s store) (actions : List Action)
    (halone : w.IsAlone id s actions) (hrunning : (w.after actions).result? (.call id) = none) :
    (w.after actions).IsIdle s ∧
      ∃ stage, (w.after actions).Accounts id s store stage (w.observe (gained id) actions) := by
  revert halone
  apply run_induction h ht (ht.calls_le id _ hclaimed.calls) (motive := fun actions => w.IsAlone id s actions →
    (w.after actions).IsIdle s ∧
      ∃ stage, (w.after actions).Accounts id s store stage (w.observe (gained id) actions))
  · exact fun _ => ⟨hclaimed.isIdle, _, hclaimed.accounts⟩
  · intro actions expired hw' ht' hrunning' ih halone
    obtain ⟨hidle, stage, hstage⟩ := ih halone.of_append
    rw [after_concat] at hrunning' ⊢
    rw [observe_concat]
    exact ⟨hstage.isIdle_move hidle hrunning', hstage.move hw' ht' (fun _ _ => hidle) hrunning'⟩
  · intro actions action hw' ht' _ hmove ih halone
    obtain ⟨hidle, stage, hstage⟩ := ih halone.of_append
    rw [after_concat, observe_concat, gained_eq_nil hmove, List.append_nil]
    exact ⟨(hstage.toUnderWay.others hw' ht' hmove).2 hidle (halone.last hmove), stage,
      hstage.others hw' ht' hmove⟩
  · exact hrunning

end World

end RemoteSlots
