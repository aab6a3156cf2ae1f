import RemoteSlots.Proofs.Initiation.Once
import RemoteSlots.Proofs.Initiation.Retry
import RemoteSlots.Proofs.World.Upkeep

/-!
This module shows that an initiation can be called off until its advertisement is acknowledged. If its store is
cancelled by then, it ends after a few more moves of its own, never well, and whatever its peer was told of is out of
reach.
-/

namespace RemoteSlots

open Std

def Phase.isRevocable : Phase → Bool
  | advertised .. | ready .. => false
  | _ => true

namespace Stage

def isRevocable : Stage → Bool
  | wipe _ _ _ result => !result.isOk
  | stage => stage.phase.isRevocable

def remaining : Stage → Nat
  | rest (.accepted ..) (.ok ()) => 16
  | register .. => 13
  | rest (.registered ..) (.ok ()) => 12
  | openChannel _ | announce .. => 11
  | bind _ | send .. => 10
  | listen _ | accept .. | awaitAck .. => 9
  | giveUp .. | awaitRequest _ | awaitEstablished .. | wipe .. => 8
  | capture .. | rest .. => 7

variable {name : String} {config : SessionConfig} {signals : Signals}

theorem await_cancelled (h : signals.cancelled) (channel : ChannelId) (expected : EventKind) (waiting : Stage)
    (ended : Halt → Stage) (found : Event → Stage) :
    ∃ halt, await name config signals channel expected waiting ended found = .pass (ended halt) := by
  unfold await
  split
  · exact ⟨_, rfl⟩
  · exact ⟨_, rfl⟩

theorem awaitCompletion_cancelled (h : signals.cancelled) (endpoint : Endpoint) (request : UInt64)
    (waiting faulted : Stage) (ended : Except Failure Unit → Stage) :
    awaitCompletion name config signals endpoint request waiting faulted ended = .pass faulted ∨
      ∃ failure, awaitCompletion name config signals endpoint request waiting faulted ended =
        .pass (ended (.error failure)) := by
  unfold awaitCompletion
  split
  · exact .inl rfl
  · exact .inr ⟨_, rfl⟩

theorem le_remaining (stage : Stage) : 7 ≤ stage.remaining := by
  unfold remaining
  split <;> simp

theorem revocable_of_leads {stage stage' : Stage} {acquired : List Handle} (hcancelled : signals.cancelled)
    (h : stage.isRevocable) (hrest : stage.result? = none)
    (hleads : (stage.next name config signals).Leads acquired stage') :
    stage'.isRevocable ∧ stage'.remaining < stage.remaining := by
  cases stage with
  | awaitRequest binding =>
    obtain ⟨halt, heq⟩ := await_cancelled hcancelled binding.channel .connectRequest _ _ _
    rw [next, heq] at hleads
    cases hleads
    exact ⟨rfl, by simp [remaining]⟩
  | awaitEstablished binding endpoint =>
    obtain ⟨halt, heq⟩ := await_cancelled hcancelled binding.channel .established _ _ _
    rw [next, heq] at hleads
    cases hleads
    exact ⟨rfl, by simp [remaining]⟩
  | awaitAck binding endpoint region =>
    rcases awaitCompletion_cancelled hcancelled endpoint advertiseRequest _ _ _ with heq | ⟨failure, heq⟩
    · rw [next, heq] at hleads
      cases hleads
      exact ⟨rfl, by simp [remaining]⟩
    · rw [next, heq] at hleads
      cases hleads
      exact ⟨rfl, by simp [remaining]⟩
  | announce binding endpoint region =>
    simp only [next] at hleads
    split at hleads
    · cases hleads
      exact ⟨rfl, by simp [remaining]⟩
    · cases hleads
      exact ⟨rfl, by simp [remaining]⟩
  | wipe binding endpoint region result =>
    rcases result with failure | ⟨⟩
    · cases hleads
      exact ⟨rfl, by simp [remaining]⟩
    · contradiction
  | capture => contradiction
  | rest => contradiction
  | openChannel | bind | listen | giveUp | accept | register | send =>
    cases hleads with
    | ask _ _ reply =>
      rcases reply with failure | reply
      · exact ⟨rfl, by simp [remaining]⟩
      · exact ⟨rfl, by simp [remaining]⟩

end Stage

theorem Phase.length_release_le (phase : Phase) : phase.release.length ≤ 3 := by
  cases phase with
  | requested binding endpoint => cases endpoint <;> simp [release, endpoint?, region?, binding?]
  | _ => simp [release, endpoint?, region?, binding?]

namespace Initiation

def isRevocable : Initiation → Bool
  | run stage => stage.isRevocable
  | allocate .. | clear .. | giveBack .. => true
  | finished result => !result.isOk

def remaining : Initiation → Nat
  | run stage => stage.remaining
  | allocate .. => 15
  | clear .. => 14
  | giveBack requests _ => requests.length + 3
  | finished _ => 2

theorem remaining_abandon_lt (phase : Phase) (halt : Halt) : (abandon phase halt).remaining < 7 :=
  Nat.add_lt_add_right (Nat.lt_succ_of_le phase.length_release_le) 3

theorem remaining_pos (initiation : Initiation) : 0 < initiation.remaining := by
  cases initiation with
  | run stage => exact Nat.lt_of_lt_of_le (by decide) stage.le_remaining
  | allocate | clear | giveBack | finished => exact Nat.succ_pos _

theorem revocable_after {phase : Phase} {result : Except Halt Unit} (h : phase.isRevocable) :
    (after phase result).isRevocable ∧
      (after phase result).remaining < (Stage.rest phase result).remaining := by
  rcases result with halt | ⟨⟩
  · exact ⟨rfl, Nat.lt_of_lt_of_le (remaining_abandon_lt phase halt) (Stage.le_remaining _)⟩
  · cases phase with
    | unbound | listening | requested => exact ⟨rfl, remaining_abandon_lt _ _⟩
    | accepted | registered => exact ⟨rfl, by simp [after, remaining, Stage.remaining]⟩
    | advertised | ready => contradiction

theorem revocable_of_leads {layout : Layout} {config : StoreConfig} {signals : Signals}
    {initiation initiation' : Initiation} {acquired : List Handle} (hcancelled : signals.cancelled)
    (h : initiation.isRevocable) (hrest : ∀ result, initiation ≠ finished result)
    (hleads : (initiation.next layout config signals).Leads acquired initiation') :
    initiation'.isRevocable ∧ initiation'.remaining < initiation.remaining := by
  cases initiation with
  | run stage =>
    rcases hresult : stage.result? with _ | result
    · rw [next_run hresult] at hleads
      obtain ⟨stage', hstage, rfl⟩ := Move.leads_embed hleads
      exact Stage.revocable_of_leads hcancelled h hresult hstage
    · cases stage with
      | rest phase result =>
        cases hleads
        exact revocable_after h
      | _ => contradiction
  | allocate binding endpoint =>
    have hgivesUp := fun halt => Nat.lt_trans (remaining_abandon_lt (.accepted binding endpoint) halt)
      (by decide : 7 < 15)
    simp only [next] at hleads
    split at hleads
    · cases hleads
      exact ⟨rfl, hgivesUp _⟩
    · cases hleads with
      | mapped _ _ _ extent =>
        dsimp only
        split
        · exact ⟨rfl, Nat.lt_succ_self 14⟩
        · exact ⟨rfl, by simp [remaining, Stage.remaining]⟩
      | unmapped => exact ⟨rfl, hgivesUp _⟩
  | clear binding endpoint extent =>
    cases hleads
    exact ⟨rfl, Nat.lt_succ_self 13⟩
  | giveBack requests halt =>
    rcases requests with _ | ⟨request, requests⟩
    · cases hleads
      exact ⟨rfl, Nat.lt_succ_self 2⟩
    · cases hleads with
      | ask => exact ⟨rfl, Nat.lt_succ_self _⟩
  | finished result => exact absurd rfl (hrest result)

end Initiation

namespace CallStage

def isRevocable : CallStage → Bool
  | initiate initiation => initiation.isRevocable
  | free result => !result.isOk
  | check | claim | publish _ | discard _ | .over _ => false

def remaining : CallStage → Nat
  | initiate initiation => initiation.remaining
  | free _ => 1
  | check | claim | publish _ | discard _ | .over _ => 0

variable {stage : CallStage}

theorem remaining_pos (h : stage.isRevocable) : 0 < stage.remaining := by
  cases stage with
  | initiate initiation => exact initiation.remaining_pos
  | free => exact Nat.one_pos
  | _ => contradiction

theorem revocable_of_leads {store : Store} {signals : Signals} {stage' : CallStage} {acquired : List Handle}
    (hcancelled : signals.cancelled) (h : stage.isRevocable)
    (hleads : (stage.next store signals).Leads acquired stage') :
    stage'.isRevocable ∧ stage'.remaining < stage.remaining ∨ ∃ halt, stage' = .over (.error halt) := by
  cases stage with
  | initiate initiation =>
    by_cases hfinished : ∃ result, initiation = .finished result
    · obtain ⟨result, rfl⟩ := hfinished
      rcases result with (failure | _) | active
      · cases hleads
        exact .inl ⟨rfl, Nat.lt_succ_self 1⟩
      · cases hleads
        exact .inr ⟨_, rfl⟩
      · contradiction
    · have hrest : ∀ result, initiation ≠ .finished result := fun result heq => hfinished ⟨result, heq⟩
      rw [next_initiate hrest] at hleads
      obtain ⟨initiation', hinitiation, rfl⟩ := Move.leads_embed hleads
      exact .inl (Initiation.revocable_of_leads hcancelled h hrest hinitiation)
  | free result =>
    rcases result with failure | active
    · cases hleads
      exact .inr ⟨_, rfl⟩
    · contradiction
  | _ => contradiction

def isUnpublished : CallStage → Bool
  | check | claim | initiate _ | free _ => true
  | publish _ | discard _ | .over _ => false

theorem isUnpublished_of_isRevocable (h : stage.isRevocable) : stage.isUnpublished := by
  cases stage <;> first | rfl | contradiction

theorem isUnpublished_of_leads {store : Store} {signals : Signals} {stage' : CallStage} {acquired : List Handle}
    (hleads : (stage.next store signals).Leads acquired stage') (h : stage'.isUnpublished) :
    stage.isUnpublished := by
  cases follows_of_leads hleads <;> first | rfl | contradiction

end CallStage

namespace Action

def isMove (id : CallId) : Action → Bool
  | .step (.call other) _ => other = id
  | _ => false

theorem isMove_iff {action : Action} {id : CallId} : action.isMove id ↔ action.IsMoveOf id := by
  constructor
  · intro h
    cases action with
    | step task expired =>
      cases task with
      | call other => exact ⟨expired, by rw [of_decide_eq_true h]⟩
      | session => contradiction
    | _ => contradiction
  · rintro ⟨expired, rfl⟩
    exact decide_eq_true rfl

end Action

namespace World

variable {w : World} {id : CallId} {s : StoreId} {store : Store} {stage : CallStage} {action : Action}

structure CalledOff (w : World) (id : CallId) (s : StoreId) (store : Store) (stage : CallStage) : Prop
    extends w.Stands id s store stage where
  cancelled : store.cancelled
  revocable : stage.isRevocable

theorem cancelled_act (h : w.Sound) (ht : w.Tidy) {store' : Store} (hstore : w.stores[s]? = some store)
    (hstore' : (w.act action).stores[s]? = some store') (hcancelled : store.cancelled)
    (hreset : action ≠ .cancelStore s false) : store'.cancelled := by
  have hchanges := changes_act h ht hstore action
  rw [hstore'] at hchanges
  cases hchanges with
  | same | dropped | pulled => exact hcancelled
  | moved stage => exact (stage.cancelled_update store).trans hcancelled
  | cancelled value =>
    cases value with
    | false => exact absurd rfl hreset
    | true => rfl

namespace CalledOff

theorem result?_eq (h : w.CalledOff id s store stage) : (⟨s, stage⟩ : Call).result? = none := by
  have hrevocable := h.revocable
  cases stage <;> first | rfl | contradiction

theorem move (h : w.CalledOff id s store stage) (expired : Bool) :
    (∃ stage', (w.act (.step (.call id) expired)).CalledOff id s (stage.update store) stage' ∧
        stage'.remaining < stage.remaining) ∨
      ∃ halt, (w.act (.step (.call id) expired)).calls[id]? = some ⟨s, .over (.error halt)⟩ := by
  have hspec := stepCall_spec h.calls h.stores expired
  have hcall := hspec.calls id
  have hstore := hspec.stores s
  rw [if_pos rfl, ← act_step h.calls h.stores] at hcall hstore
  have hleads := perform_leads w store.fabric (stage.next store { cancelled := store.cancelled, expired, now := w.now })
  rcases CallStage.revocable_of_leads h.cancelled h.revocable hleads with ⟨hrevocable, hlt⟩ | ⟨halt, heq⟩
  · have hcancelled := (stage.cancelled_update store).trans h.cancelled
    exact .inl ⟨_, ⟨⟨hcall, hstore⟩, hcancelled, hrevocable⟩, hlt⟩
  · exact .inr ⟨halt, heq ▸ hcall⟩

theorem others (h : w.CalledOff id s store stage) (hw : w.Sound) (ht : w.Tidy) (hmove : ¬action.IsMoveOf id)
    (hreset : action ≠ .cancelStore s false) : ∃ store', (w.act action).CalledOff id s store' stage := by
  have hcall' := calls_act hw ht h.calls h.result?_eq hmove
  obtain ⟨store', hstore', -⟩ := stores_act hw ht h.calls h.stores hcall'
  exact ⟨store', ⟨hcall', hstore'⟩, cancelled_act hw ht h.stores hstore' h.cancelled hreset, h.revocable⟩

end CalledOff

theorem CalledOff.after (h : w.Sound) (ht : w.Tidy) (hoff : w.CalledOff id s store stage) {actions : List Action}
    (hreset : .cancelStore s false ∉ actions) (hrunning : (w.after actions).result? (.call id) = none) :
    ∃ store' stage', (w.after actions).CalledOff id s store' stage' ∧
      actions.countP (·.isMove id) + stage'.remaining ≤ stage.remaining := by
  revert hreset
  apply run_induction h ht (ht.calls_le id _ hoff.calls) (motive := fun actions => .cancelStore s false ∉ actions →
    ∃ store' stage', (w.after actions).CalledOff id s store' stage' ∧
      actions.countP (·.isMove id) + stage'.remaining ≤ stage.remaining)
  · exact fun _ => ⟨store, stage, hoff, Nat.le_of_eq (Nat.zero_add _)⟩
  · intro actions expired _ _ hrunning' ih hreset
    obtain ⟨store', stage', hoff', hle⟩ := ih fun hmem => hreset (List.mem_append_left _ hmem)
    rw [after_concat] at hrunning' ⊢
    rcases hoff'.move expired with ⟨stage'', hoff'', hlt⟩ | ⟨halt, hover⟩
    · refine ⟨_, stage'', hoff'', ?_⟩
      have hcount : [Action.step (.call id) expired].countP (·.isMove id) = 1 :=
        List.countP_singleton.trans (if_pos (Action.isMove_iff.mpr ⟨expired, rfl⟩))
      rw [List.countP_append, hcount]
      omega
    · simp only [result?, hover, Call.result?] at hrunning'
      contradiction
  · intro actions action hw' ht' _ hmove ih hreset
    obtain ⟨store', stage', hoff', hle⟩ := ih fun hmem => hreset (List.mem_append_left _ hmem)
    obtain ⟨store'', hoff''⟩ := hoff'.others hw' ht' hmove fun heq => hreset (heq ▸ List.mem_append_right _ (by simp))
    rw [after_concat]
    refine ⟨store'', stage', hoff'', ?_⟩
    have hcount : [action].countP (·.isMove id) = 0 :=
      List.countP_singleton.trans (if_neg (mt Action.isMove_iff.mp hmove))
    rwa [List.countP_append, hcount]
  · exact hrunning

theorem unpublished_of_act (h : w.Sound) (ht : w.Tidy) (hid : id ≤ w.lastId) {stage' : CallStage}
    (hcall' : (w.act action).calls[id]? = some ⟨s, stage'⟩) (hstage' : stage'.isUnpublished) :
    ∃ stage, w.calls[id]? = some ⟨s, stage⟩ ∧ stage.isUnpublished := by
  by_cases hmove : action.IsMoveOf id
  · obtain ⟨expired, rfl⟩ := hmove
    rcases hcall : w.calls[id]? with _ | ⟨s', stage⟩
    · simp only [act, step, hcall] at hcall'
      contradiction
    · obtain ⟨store, hstore⟩ := Option.isSome_iff_exists.mp (ht.called id _ hcall)
      rw [act_step hcall hstore, (stepCall_spec hcall hstore expired).calls, if_pos rfl] at hcall'
      injection hcall' with hcall'
      injection hcall' with hs hnext
      obtain rfl : s' = s := hs
      have hleads := perform_leads w store.fabric (stage.next store ⟨store.cancelled, expired, w.now⟩)
      rw [hnext] at hleads
      exact ⟨stage, rfl, CallStage.isUnpublished_of_leads hleads hstage'⟩
  · rcases calls_of_act h ht hcall' hmove with hcall | hlt
    · exact ⟨stage', hcall, hstage'⟩
    · exact absurd hid (Nat.not_le_of_lt hlt)

theorem unpublished_of_after (h : w.Reachable) (hid : id ≤ w.lastId) {actions : List Action}
    (hcall' : (w.after actions).calls[id]? = some ⟨s, stage⟩) (hstage : stage.isUnpublished) :
    ∃ stage, w.calls[id]? = some ⟨s, stage⟩ ∧ stage.isUnpublished := by
  induction actions using List.reverseRecOn generalizing stage with
  | nil => exact ⟨stage, hcall', hstage⟩
  | append_singleton actions action ih =>
    obtain ⟨hw, ht⟩ := h.sound
    obtain ⟨h', ht', hle⟩ := after_spec hw ht actions
    rw [after_concat] at hcall'
    obtain ⟨stage', hcall, hstage'⟩ := unpublished_of_act h' ht' (Nat.le_trans hid hle) hcall' hstage
    exact ih hcall hstage'

theorem Tidy.le_of_held (ht : w.Tidy) {handle : Handle} (hheld : handle ∈ w.holdings (.call id)) :
    id ≤ w.lastId := by
  rcases hcall : w.calls[id]? with _ | call
  · simp [holdings, custody?, hcall] at hheld
  · exact ht.calls_le id call hcall

theorem held_or_gone_act (h : w.Reachable) {handle : Handle} (hblock : handle.isBlock = false)
    (hheld : handle ∈ w.holdings (.call id)) (hcall : w.calls[id]? = some ⟨s, stage⟩) (hstage : stage.isUnpublished)
    (action : Action) :
    handle ∈ (w.act action).holdings (.call id) ∨ handle.IsGone (w.act action).net := by
  obtain ⟨hw, ht⟩ := h.sound
  obtain ⟨store, hstore⟩ := Option.isSome_iff_exists.mp (ht.called id _ hcall)
  by_cases hkept : handle ∈ (w.act action).holdings (.call id)
  · exact .inl hkept
  · refine .inr (h.isGone hblock hheld fun q hq => ?_)
    have hne : q ≠ .call id := fun heq => hkept (heq ▸ hq)
    by_cases hmove : action.IsMoveOf id
    · obtain ⟨expired, rfl⟩ := hmove
      have hsame : (w.act (.step (.call id) expired)).custody? q = w.custody? q := by
        rw [act_step hcall hstore]
        refine custody?_stepCall hcall hstore (fun active heq => ?_) expired hne
        rw [show stage = .publish active from heq] at hstage
        contradiction
      rw [holdings_eq hsame] at hq
      exact hne (hw.exclusive _ _ handle hheld hq (Party.owns_call id handle)).symm
    · have hresult : (⟨s, stage⟩ : Call).result? = none := by
        cases stage <;> first | rfl | contradiction
      have hcall' := calls_act hw ht hcall hresult hmove
      obtain ⟨store', hstore', hsetup, -⟩ := stores_act hw ht hcall hstore hcall'
      have hsame : (w.act action).custody? (.call id) = w.custody? (.call id) := by
        rw [custody?_of_call hcall' hstore', custody?_of_call hcall hstore, hsetup.fabric]
      exact hkept (by rwa [holdings_eq hsame])

theorem held_or_gone (h : w.Reachable) {handle : Handle} (hblock : handle.isBlock = false)
    (hheld : handle ∈ w.holdings (.call id)) {actions : List Action}
    (hcall : (w.after actions).calls[id]? = some ⟨s, stage⟩) (hstage : stage.isUnpublished) :
    handle ∈ (w.after actions).holdings (.call id) ∨ handle.IsGone (w.after actions).net := by
  induction actions using List.reverseRecOn generalizing stage with
  | nil => exact .inl hheld
  | append_singleton actions action ih =>
    obtain ⟨hw, ht⟩ := h.sound
    obtain ⟨h', ht', hle⟩ := after_spec hw ht actions
    rw [after_concat] at hcall ⊢
    obtain ⟨stage', hcall', hstage'⟩ := unpublished_of_act h' ht' (Nat.le_trans (ht.le_of_held hheld) hle) hcall hstage
    rcases ih hcall' hstage' with hheld' | hgone
    · exact held_or_gone_act (h.after actions) hblock hheld' hcall' hstage' action
    · exact .inr (hgone.evolves (act_evolves h' ht' action))

theorem ready_of_act (h : w.Sound) (ht : w.Tidy) {store' : Store} (hstore' : (w.act action).stores[s]? = some store')
    (hready : store'.isReady) :
    (∃ store, w.stores[s]? = some store ∧ store.isReady) ∨
      ∃ other active, w.calls[other]? = some ⟨s, .publish active⟩ ∧ other ∈ w.succeeded s action := by
  cases storeSource_act h ht hstore' with
  | kept hstore hsame => exact .inl ⟨_, hstore, by rwa [Store.isReady, ← hsame.active]⟩
  | created _ hnew =>
    rw [Store.isReady, active_new hnew] at hready
    contradiction
  | @moved other call store expired hmove hcall hown hstore hupdate =>
    by_cases hbefore : store.isReady
    · exact .inl ⟨store, hstore, hbefore⟩
    · subst hmove hupdate hown
      obtain ⟨s, stage⟩ := call
      cases stage with
      | publish active =>
        have hcall' := (stepCall_spec hcall hstore expired).calls other
        rw [if_pos rfl, ← act_step hcall hstore] at hcall'
        simp only [CallStage.next, perform, if_neg hbefore] at hcall'
        refine .inr ⟨other, active, hcall, ?_⟩
        simp [succeeded, hcall, result?, hcall', Call.result?, Except.isOk, Except.toBool]
      | _ => exact absurd hready hbefore

theorem succeeded_of_ready (h : w.Reachable) (hidle : w.IsIdle s) {actions : List Action} {store' : Store}
    (hstore' : (w.after actions).stores[s]? = some store') (hready : store'.isReady) :
    ∃ other ∈ w.observe (succeeded s) actions, ∃ before rest active, actions = before ++ rest ∧
      (w.after before).calls[other]? = some ⟨s, .publish active⟩ := by
  induction actions using List.reverseRecOn generalizing store' with
  | nil =>
    rw [Store.isReady, hidle store' hstore'] at hready
    contradiction
  | append_singleton actions action ih =>
    obtain ⟨hw, ht⟩ := (h.after actions).sound
    rw [after_concat] at hstore'
    rw [observe_concat]
    rcases ready_of_act hw ht hstore' hready with ⟨store, hstore, hbefore⟩ | ⟨other, active, hcall, hsucceeded⟩
    · obtain ⟨other, hother, before, rest, active, rfl, hcall⟩ := ih hstore hbefore
      exact ⟨other, List.mem_append_left _ hother, before, rest ++ [action], active, List.append_assoc .., hcall⟩
    · exact ⟨other, List.mem_append_right _ hsucceeded, actions, [action], active, rfl, hcall⟩

def HasHeld (w : World) (id : CallId) (actions : List Action) (handle : Handle) : Prop :=
  ∃ before rest, actions = before ++ rest ∧ handle ∈ (w.after before).holdings (.call id)

/--
What it means that a call ended without effect: it failed, its store is not ready unless another call made it so, and
nothing passes through a connection that the call ever held. It only breaks off where a configuration makes it.
-/
structure CutShort (w : World) (id : CallId) (s : StoreId) (config : StoreConfig) (actions : List Action)
    (result : Except Halt Unit) : Prop where
  failed : ∃ halt, result = .error halt ∧ (config.IsSound w.now → ∃ failure, halt = .failed failure)
  notReady : ∃ store, (w.after actions).stores[s]? = some store ∧
    (store.isReady → ∃ other ∈ w.observe (succeeded s) actions, other ≠ id)
  shut : ∀ k, w.HasHeld id actions (.endpoint k) → ∀ later, ((w.after actions).after later).net.IsShut k

theorem HasHeld.of_concat {actions : List Action} {handle : Handle}
    (h : w.HasHeld id (actions ++ [action]) handle) :
    handle ∈ (w.after (actions ++ [action])).holdings (.call id) ∨ w.HasHeld id actions handle := by
  obtain ⟨before, rest, heq, hheld⟩ := h
  rcases rest with _ | ⟨next, rest⟩
  · rw [List.append_nil] at heq
    exact .inl (heq ▸ hheld)
  · obtain ⟨after, rfl⟩ := prefix_of_concat_eq heq
    exact .inr ⟨before, after, rfl, hheld⟩

theorem HasHeld.isGone (h : w.Reachable) {actions : List Action} {handle : Handle} (hblock : handle.isBlock = false)
    (hcall : (w.after actions).calls[id]? = some ⟨s, stage⟩) (hstage : stage.isUnpublished)
    (hover : handle ∉ (w.after (actions ++ [action])).holdings (.call id))
    (hever : w.HasHeld id (actions ++ [action]) handle) : handle.IsGone (w.after (actions ++ [action])).net := by
  obtain ⟨hw, ht⟩ := (h.after actions).sound
  obtain ⟨before, rest, rfl, hheld⟩ := hever.of_concat.resolve_left hover
  rw [after_concat] at hover ⊢
  rw [after_append] at hcall hover hw ht ⊢
  rcases held_or_gone (h.after before) hblock hheld hcall hstage with hkept | hgone
  · exact (held_or_gone_act ((h.after before).after rest) hblock hkept hcall hstage action).resolve_left hover
  · exact hgone.evolves (act_evolves hw ht action)

theorem ne_of_publish (h : w.Reachable) {other : CallId} {s' : StoreId} {active : Active} {before rest : List Action}
    (hpublish : (w.after before).calls[other]? = some ⟨s', .publish active⟩)
    (hcall : (w.after (before ++ rest)).calls[id]? = some ⟨s, stage⟩) (hstage : stage.isUnpublished) :
    other ≠ id := by
  rintro rfl
  rw [after_append] at hcall
  have hreach := h.after before
  obtain ⟨stage', hcall', hstage'⟩ := unpublished_of_after hreach (hreach.sound.2.calls_le _ _ hpublish) hcall hstage
  obtain ⟨-, rfl⟩ := Call.mk.inj (Option.some.inj (hpublish.symm.trans hcall'))
  contradiction

theorem CalledOff.cutShort (h : w.Reachable) (hidle : w.IsIdle s) {actions : List Action}
    (hoff : (w.after actions).CalledOff id s store stage) {expired : Bool} {result : Except Halt Unit}
    (hresult : (w.after (actions ++ [.step (.call id) expired])).result? (.call id) = some result) :
    w.CutShort id s store.config (actions ++ [.step (.call id) expired]) result := by
  obtain ⟨hw, ht⟩ := (h.after actions).sound
  have hunpublished := CallStage.isUnpublished_of_isRevocable hoff.revocable
  have hreach := h.after (actions ++ [.step (.call id) expired])
  rcases hoff.move expired with ⟨stage', hoff', -⟩ | ⟨halt, hover⟩
  · rw [after_concat, result?, hoff'.calls] at hresult
    exact absurd (hresult.symm.trans hoff'.result?_eq) (Option.some_ne_none _)
  rw [← after_concat] at hover
  obtain ⟨store', hstore'⟩ := Option.isSome_iff_exists.mp (hreach.sound.2.called id _ hover)
  refine ⟨⟨halt, ?_, fun hsound => ?_⟩, ⟨store', hstore', fun hready => ?_⟩, fun k hheld later => ?_⟩
  · simp only [result?, hover, Call.result?] at hresult
    exact (Option.some.inj hresult).symm
  · have hconfig := (retains_act hw ht hoff.stores (after_concat .. ▸ hstore')).setup.config
    cases halt with
    | failed failure => exact ⟨failure, rfl⟩
    | faulted =>
      rw [← hconfig, ← h.now_after (actions ++ [.step (.call id) expired])] at hsound
      exact absurd hsound (hreach.clocked.calls id _ store' hover hstore')
  · obtain ⟨other, hother, before, rest, active, heq, hcall⟩ := succeeded_of_ready h hidle hstore' hready
    refine ⟨other, hother, ?_⟩
    rcases rest with _ | ⟨action, rest⟩
    · rintro rfl
      rw [List.append_nil] at heq
      exact absurd (hover.symm.trans (heq ▸ hcall)) (by simp)
    · obtain ⟨after, rfl⟩ := prefix_of_concat_eq heq
      exact ne_of_publish h hcall hoff.calls hunpublished
  · have hnothing : .endpoint k ∉ (w.after (actions ++ [.step (.call id) expired])).holdings (.call id) := by
      intro hmem
      have hnone := ((mem_holdings_iff (custody?_of_call hover hstore')).mp hmem).1
      contradiction
    obtain ⟨link, hlink, hclosed⟩ := hheld.isGone h rfl hoff.calls hunpublished hnothing
    exact hreach.isShut hlink hclosed.1 later

theorem cancellation_effective (mapper : Mapper) (now : Duration) {early late : List Action}
    (hoff : ((initial mapper now).after early).CalledOff id s store stage)
    (hreset : .cancelStore s false ∉ late)
    (hrunning : ((initial mapper now).after (early ++ late)).result? (.call id) = none) :
    late.countP (·.isMove id) < stage.remaining ∧
      ∀ expired result,
        ((initial mapper now).after (early ++ late ++ [.step (.call id) expired])).result? (.call id) = some result →
          (initial mapper now).CutShort id s store.config (early ++ late ++ [.step (.call id) expired]) result := by
  have h : (initial mapper now).Reachable := ⟨mapper, now, [], rfl⟩
  have hidle : (initial mapper now).IsIdle s := by
    intro store hstore
    simp [initial, empty] at hstore
  obtain ⟨hw, ht⟩ := (h.after early).sound
  rw [after_append] at hrunning
  obtain ⟨store', stage', hoff', hle⟩ := hoff.after hw ht hreset hrunning
  refine ⟨Nat.lt_of_lt_of_le (Nat.lt_add_of_pos_right (CallStage.remaining_pos hoff'.revocable)) hle, ?_⟩
  intro expired result hresult
  have hconfig : store'.config = store.config := by
    rcases retains_after hw ht hoff.stores late with ⟨store'', hstore'', hretains, -⟩ | ⟨hnone, -⟩
    · obtain rfl := Option.some.inj (hoff'.stores.symm.trans hstore'')
      exact hretains.setup.config
    · exact absurd (hoff'.stores.symm.trans hnone) (Option.some_ne_none _)
  rw [← hconfig]
  exact CalledOff.cutShort h hidle (after_append .. ▸ hoff') hresult

set_option maxRecDepth 10000 in
theorem cancellation_effective_told :
    let early := [.createStore .keyValue sampleStore.config .loopback, .initiate 1] ++ sampleMoves 5 ++
      [.connect 7000] ++ sampleMoves 10 ++ [.receive 2 (.ofSeconds 0), .write 2 9 4096 4 [7], .cancelStore 1 true]
    let ended := (initial (.above 4096 4096) .zero).after (early ++ sampleMoves 8 ++ [.step (.call 2) false])
    ∃ store stage, ((initial (.above 4096 4096) .zero).after early).CalledOff 2 1 store stage ∧ stage.remaining = 9 ∧
      .cancelStore 1 false ∉ sampleMoves 8 ∧
      ((initial (.above 4096 4096) .zero).after (early ++ sampleMoves 8)).result? (.call 2) = none ∧
      (sampleMoves 8).countP (·.isMove 2) < stage.remaining ∧
      ended.result? (.call 2) = some (.error (.failed .cancelled)) ∧ ∀ later, (ended.after later).net.IsShut 2 := by
  intro early ended
  obtain ⟨store, stage, hoff, hstage⟩ : ∃ store stage,
      ((initial (.above 4096 4096) .zero).after early).CalledOff 2 1 store stage ∧ stage.remaining = 9 :=
    ⟨_, _, ⟨⟨rfl, rfl⟩, rfl, rfl⟩, rfl⟩
  have hreset : .cancelStore 1 false ∉ sampleMoves 8 := by simp [sampleMoves]
  have hrunning : ((initial (.above 4096 4096) .zero).after (early ++ sampleMoves 8)).result? (.call 2) = none := by rfl
  have hended : ended.result? (.call 2) = some (.error (.failed .cancelled)) := by rfl
  have hheld : .endpoint 2 ∈ ((initial (.above 4096 4096) .zero).after early).holdings (.call 2) := by decide +kernel
  obtain ⟨hcount, hcut⟩ := cancellation_effective (.above 4096 4096) .zero hoff hreset hrunning
  have hshut := (hcut false _ hended).shut 2 ⟨early, _, List.append_assoc .., hheld⟩
  exact ⟨store, stage, hoff, hstage, hreset, hrunning, hcount, hended, hshut⟩

set_option maxRecDepth 10000 in
theorem cancelled_wait_breaks_off :
    let early := [.createStore .keyValue sampleEndless.config .loopback, .cancelStore 1 true, .initiate 1] ++
      sampleMoves 2
    let ended := (initial (.above 4096 4096) .zero).after (early ++ sampleMoves 7 ++ [.step (.call 2) false])
    ∃ store stage, ((initial (.above 4096 4096) .zero).after early).CalledOff 2 1 store stage ∧
      .cancelStore 1 false ∉ sampleMoves 7 ∧
      ((initial (.above 4096 4096) .zero).after (early ++ sampleMoves 7)).result? (.call 2) = none ∧
      ended.result? (.call 2) = some (.error .faulted) ∧
      (¬∃ failure, ended.result? (.call 2) = some (.error (.failed failure))) ∧
      ((ended.act (.initiate 1)).after (moves 3 [false, false])).result? (.call 3) =
        some (.error (.failed (Call.tooLate "initiating"))) := by
  intro early ended
  have hended : ended.result? (.call 2) = some (.error .faulted) := by decide +kernel
  have hclaimed : ((ended.act (.initiate 1)).after (moves 3 [false, false])).result? (.call 3) =
      some (.error (.failed (Call.tooLate "initiating"))) := by decide +kernel
  refine ⟨_, _, ⟨⟨rfl, rfl⟩, rfl, rfl⟩, by simp [sampleMoves], by decide +kernel, hended, ?_, hclaimed⟩
  rintro ⟨failure, hfailed⟩
  exact absurd (hended.symm.trans hfailed) (by simp)

end World

end RemoteSlots
