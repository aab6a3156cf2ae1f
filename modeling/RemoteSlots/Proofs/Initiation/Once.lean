import RemoteSlots.Proofs.Initiation.Exclusive
import RemoteSlots.Proofs.Initiation.UnderWay

/-!
This module shows that a store becomes ready at most once: one call on it ends well, those that fail a check
have touched nothing, and nobody takes away from a session what it needs.
-/

namespace RemoteSlots

open Std

variable {s : StoreId} {store : Store}

namespace CallStage

theorem check_of_leads {signals : Signals} {stage stage' : CallStage} {acquired : List Handle}
    (hleads : (stage.next store signals).Leads acquired stage') (hearly : stage' = .check ∨ stage' = .claim) :
    stage = .check := by
  have hfollows := follows_of_leads hleads
  rcases hearly with rfl | rfl
  · cases hfollows
  · cases hfollows
    rfl

end CallStage

namespace World

variable {w : World}

def succeeded (s : StoreId) (w : World) : Action → List CallId
  | .step (.call id) expired =>
    if (w.calls[id]?.any fun call => call.store = s && call.result?.isNone) &&
        ((w.act (.step (.call id) expired)).result? (.call id)).any (·.isOk) then [id]
    else []
  | _ => []

theorem succeeded_eq (ht : w.Tidy) (s : StoreId) (action : Action) :
    w.succeeded s action = [] ∨ (∃ id, w.succeeded s action = [id]) ∧
      (∃ store, w.stores[s]? = some store ∧ store.active = none) ∧
      ∃ store', (w.act action).stores[s]? = some store' ∧ store'.active.isSome := by
  cases action with
  | step task expired =>
    cases task with
    | session id => exact .inl rfl
    | call id =>
      simp only [succeeded]
      split
      · next hguard =>
        simp only [Bool.and_eq_true, Option.any_eq_true, decide_eq_true_eq, Option.isNone_iff_eq_none]
          at hguard
        obtain ⟨⟨⟨s', stage⟩, hcall, heq, hresult⟩, result, hresult', hok⟩ := hguard
        obtain rfl : s' = s := heq
        obtain ⟨store, hstore⟩ := Option.isSome_iff_exists.mp (ht.called id _ hcall)
        have hspec := stepCall_spec hcall hstore expired
        have hcall' := hspec.calls id
        have hstore' := hspec.stores s'
        rw [if_pos rfl] at hcall' hstore'
        rw [act_step hcall hstore expired] at hresult' ⊢
        have hover : (w.perform store.fabric (stage.next store ⟨store.cancelled, expired, w.now⟩)).1 =
            .over (.ok ()) := by
          rcases result with halt | ⟨⟩
          · contradiction
          · simp only [result?, hcall', Call.result?] at hresult'
            split at hresult'
            · next heq =>
              injection hresult' with hresult'
              rw [heq, hresult']
            · contradiction
        have hleads := perform_leads w store.fabric (stage.next store ⟨store.cancelled, expired, w.now⟩)
        rw [hover] at hleads
        obtain ⟨hidle, active, rfl⟩ := CallStage.publish_of_leads (by rintro rfl; contradiction) hleads
        refine .inr ⟨⟨id, rfl⟩, ⟨store, hstore, hidle⟩, _, hstore', ?_⟩
        rfl
      · exact .inl rfl
  | _ => exact .inl rfl

theorem length_succeeded_le_one (mapper : Mapper) (now : Duration) (s : StoreId) (actions : List Action) :
    ((initial mapper now).observe (succeeded s) actions).length ≤ 1 := by
  have hcount : (initial mapper now).observe (succeeded s) actions = [] ∨
      ((initial mapper now).observe (succeeded s) actions).length = 1 ∧
        s ≤ ((initial mapper now).after actions).lastId ∧
        ∀ store, ((initial mapper now).after actions).stores[s]? = some store → store.active.isSome := by
    induction actions using List.reverseRecOn with
    | nil => exact .inl rfl
    | append_singleton actions action ih =>
      obtain ⟨hw, ht⟩ := Reachable.sound ⟨mapper, now, actions, rfl⟩
      have hle := lastId_le_act hw ht action
      rw [observe_concat, after_concat]
      rcases succeeded_eq ht s action with hnone | ⟨⟨id, hone⟩, ⟨store, hstore, hidle⟩, store', hstore', hready⟩
      · rw [hnone, List.append_nil]
        refine ih.imp_right fun ⟨hlength, hs, hready⟩ => ⟨hlength, Nat.le_trans hs hle, ?_⟩
        intro store' hstore'
        rcases hstore : ((initial mapper now).after actions).stores[s]? with _ | store
        · rw [gone_act hw ht hs hstore action] at hstore'
          contradiction
        · obtain ⟨active, hactive⟩ := Option.isSome_iff_exists.mp (hready store hstore)
          rw [(retains_act hw ht hstore hstore').active active hactive]
          rfl
      · rcases ih with hempty | ⟨-, -, hready'⟩
        · rw [hempty, hone]
          refine .inr ⟨rfl, Nat.le_trans (ht.stores_le s store hstore) hle, fun other hother => ?_⟩
          rw [hstore'] at hother
          injection hother with hother
          exact hother ▸ hready
        · have hsome := hready' store hstore
          rw [hidle] at hsome
          contradiction
  rcases hcount with hempty | ⟨hlength, -⟩
  · rw [hempty]
    exact Nat.zero_le 1
  · exact Nat.le_of_eq hlength

def asked (id : CallId) (w : World) : Action → List Exchange
  | .step (.call other) expired => if other = id then (w.step (.call other) expired).1.toList else []
  | _ => []

inductive Rejects (w : World) (id : CallId) : Failure → Prop
  | ready {s : StoreId} {store : Store} (hcall : w.calls[id]? = some ⟨s, .check⟩)
    (hstore : w.stores[s]? = some store) (hready : store.isReady) : Rejects w id (Call.tooLate "Ready")
  | claimed {s : StoreId} {store : Store} (hcall : w.calls[id]? = some ⟨s, .claim⟩)
    (hstore : w.stores[s]? = some store) (hclaimed : store.initiating) :
    Rejects w id (Call.tooLate "initiating")

theorem calls_of_act (h : w.Sound) (ht : w.Tidy) {action : Action} {id : CallId} {call : Call}
    (hcall : (w.act action).calls[id]? = some call) (hmove : ¬action.IsMoveOf id) :
    w.calls[id]? = some call ∨ w.lastId < id := by
  by_cases hstep : ∃ task expired, action = .step task expired
  · obtain ⟨task, expired, rfl⟩ := hstep
    cases task with
    | session other =>
      simp only [act, step] at hcall
      split at hcall
      · exact .inl hcall
      · exact .inl ((congrArg (·[id]?) (calls_perform ..)).symm.trans hcall)
    | call other =>
      have hne : other ≠ id := fun heq => hmove ⟨expired, by rw [heq]⟩
      rcases hother : w.calls[other]? with _ | call'
      · simp only [act, step, hother] at hcall
        exact .inl hcall
      · obtain ⟨store, hstore⟩ := Option.isSome_iff_exists.mp (ht.called other call' hother)
        rw [act_step hother hstore expired, (stepCall_spec hother hstore expired).calls, if_neg hne] at hcall
        exact .inl hcall
  · have hcarries := carries_act h ht fun task expired heq => hstep ⟨task, expired, heq⟩
    exact (hcarries.calls id call hcall).imp_right And.left

theorem asked_eq_nil {action : Action} {id : CallId} (hmove : ¬action.IsMoveOf id) : w.asked id action = [] := by
  cases action with
  | step task expired =>
    cases task with
    | session other => rfl
    | call other =>
      simp only [asked]
      exact if_neg fun heq => hmove ⟨expired, by rw [heq]⟩
  | _ => rfl

theorem asked_step {id : CallId} {call : Call} (hcall : w.calls[id]? = some call)
    (hstore : w.stores[call.store]? = some store) (expired : Bool)
    (hpass : (call.stage.next store ⟨store.cancelled, expired, w.now⟩).request? = none) :
    w.asked id (.step (.call id) expired) = [] := by
  simp only [asked, if_pos, step, hcall, hstore, (stepCall_spec hcall hstore expired).exchange]
  generalize call.stage.next store ⟨store.cancelled, expired, w.now⟩ = move at hpass
  cases move with
  | ask => contradiction
  | map pages length resume =>
    simp only [perform]
    split <;> rfl
  | _ => rfl

def IsEarly (w : World) (id : CallId) : Prop :=
  w.lastId < id ∨ ∃ s stage, w.calls[id]? = some ⟨s, stage⟩ ∧ (stage = .check ∨ stage = .claim)

def IsOver (w : World) (id : CallId) : Prop :=
  id ≤ w.lastId ∧ ∀ call, w.calls[id]? = some call → call.result?.isSome

theorem IsOver.act (h : w.Sound) (ht : w.Tidy) {id : CallId} (hover : w.IsOver id) (action : Action) :
    (w.act action).IsOver id ∧ w.asked id action = [] := by
  obtain ⟨hid, hresult⟩ := hover
  by_cases hmove : action.IsMoveOf id
  · obtain ⟨expired, rfl⟩ := hmove
    have hstay : (w.step (.call id) expired) = (none, w) := by
      simp only [step]
      split
      · rfl
      · next call hcall =>
        split
        · rfl
        · next store hstore =>
          obtain ⟨s, stage⟩ := call
          cases stage with
          | «over» => rfl
          | _ => have hsome := hresult _ hcall; contradiction
    simp only [World.act, asked, if_pos, hstay]
    exact ⟨⟨hid, hresult⟩, rfl⟩
  · refine ⟨⟨Nat.le_trans hid (lastId_le_act h ht action), fun call hcall => ?_⟩, asked_eq_nil hmove⟩
    rcases calls_of_act h ht hcall hmove with hold | hlt
    · exact hresult call hold
    · exact absurd hid (Nat.not_le_of_lt hlt)

theorem IsEarly.of_act (h : w.Sound) (ht : w.Tidy) {id : CallId} {action : Action}
    (hearly : (w.act action).IsEarly id) : w.IsEarly id ∧ w.asked id action = [] := by
  have hnew : w.lastId < id → w.IsEarly id ∧ w.asked id action = [] := by
    intro hlt
    refine ⟨.inl hlt, ?_⟩
    by_cases hmove : action.IsMoveOf id
    · obtain ⟨expired, rfl⟩ := hmove
      have hcall : w.calls[id]? = none := by
        rcases hcall : w.calls[id]? with _ | call
        · rfl
        · exact absurd (ht.calls_le id call hcall) (Nat.not_le_of_lt hlt)
      simp only [asked, if_pos, step, hcall, Option.toList_none]
    · exact asked_eq_nil hmove
  rcases hearly with hlt | ⟨s, stage', hcall', hstage'⟩
  · exact hnew (Nat.lt_of_le_of_lt (lastId_le_act h ht action) hlt)
  · by_cases hmove : action.IsMoveOf id
    · obtain ⟨expired, rfl⟩ := hmove
      rcases hcall : w.calls[id]? with _ | call
      · simp only [act, step, hcall] at hcall'
        contradiction
      · obtain ⟨store, hstore⟩ := Option.isSome_iff_exists.mp (ht.called id call hcall)
        rw [act_step hcall hstore expired, (stepCall_spec hcall hstore expired).calls, if_pos rfl] at hcall'
        injection hcall' with hcall'
        injection hcall' with hs hnext
        have hleads := perform_leads w store.fabric (call.stage.next store ⟨store.cancelled, expired, w.now⟩)
        rw [hnext] at hleads
        have hcheck := CallStage.check_of_leads hleads hstage'
        refine ⟨.inr ⟨call.store, call.stage, hcall, .inl hcheck⟩, asked_step hcall hstore expired ?_⟩
        rw [hcheck]
        rfl
    · rcases calls_of_act h ht hcall' hmove with hold | hlt
      · exact ⟨.inr ⟨s, stage', hold, hstage'⟩, asked_eq_nil hmove⟩
      · exact hnew hlt

theorem asked_before (h : w.Sound) (ht : w.Tidy) {id : CallId} (actions : List Action)
    (hearly : (w.after actions).IsEarly id) : w.observe (asked id) actions = [] := by
  induction actions using List.reverseRecOn with
  | nil => rfl
  | append_singleton actions action ih =>
    obtain ⟨h', ht', -⟩ := after_spec h ht actions
    rw [after_concat] at hearly
    obtain ⟨hbefore, hasked⟩ := IsEarly.of_act h' ht' hearly
    rw [observe_concat, ih hbefore, hasked, List.append_nil]

theorem IsOver.asked_after (h : w.Sound) (ht : w.Tidy) {id : CallId} (hover : w.IsOver id)
    (actions : List Action) : w.observe (asked id) actions = [] := by
  induction actions generalizing w with
  | nil => rfl
  | cons action actions ih =>
    obtain ⟨hover', hasked⟩ := hover.act h ht action
    obtain ⟨h', ht'⟩ := act_sound h ht action
    rw [observe, hasked, ih h' ht' hover', List.nil_append]

theorem Rejects.act {id : CallId} {failure : Failure} (h : w.Rejects id failure) (expired : Bool) :
    ∃ call, w.calls[id]? = some call ∧
      w.act (.step (.call id) expired) = w.setStage id call (.over (.error (.failed failure))) ∧
      w.asked id (.step (.call id) expired) = [] := by
  cases h with
  | ready hcall hstore hready =>
    refine ⟨_, hcall, ?_, asked_step hcall hstore expired rfl⟩
    simp only [World.act, step, hcall, hstore, stepCall, if_pos hready]
  | claimed hcall hstore hclaimed =>
    refine ⟨_, hcall, ?_, asked_step hcall hstore expired rfl⟩
    simp only [World.act, step, hcall, hstore, stepCall, if_pos hclaimed]

theorem Rejects.asked_eq_nil (h : w.Sound) (ht : w.Tidy) {id : CallId} {failure : Failure}
    {before later : List Action} (hrejects : (w.after before).Rejects id failure) (expired : Bool) :
    w.observe (asked id) (before ++ .step (.call id) expired :: later) = [] := by
  obtain ⟨h', ht', -⟩ := after_spec h ht before
  obtain ⟨call, hcall, hact, hasked⟩ := hrejects.act expired
  obtain ⟨h'', ht''⟩ := act_sound h' ht' (.step (.call id) expired)
  have hearly : (w.after before).IsEarly id := by
    cases hrejects with
    | ready hcall => exact .inr ⟨_, _, hcall, .inl rfl⟩
    | claimed hcall => exact .inr ⟨_, _, hcall, .inr rfl⟩
  have hover : ((w.after before).act (.step (.call id) expired)).IsOver id := by
    rw [hact]
    refine ⟨ht'.calls_le id call hcall, fun call' hcall' => ?_⟩
    simp only [setStage, TreeMap.getElem?_insert_self, Option.some.injEq] at hcall'
    rw [← hcall']
    rfl
  rw [observe_append, observe, asked_before h ht before hearly, hasked, hover.asked_after h'' ht'']
  rfl

/--
What is known of the calls that initiate one store along a run.
-/
structure ReadyOnce (w : World) (s : StoreId) (actions : List Action) : Prop where
  -- At most one call ends well.
  one : (w.observe (succeeded s) actions).length ≤ 1
  -- A call that is rejected makes no request and changes nothing.
  rejected : ∀ before id expired later failure, actions = before ++ .step (.call id) expired :: later →
    (w.after before).Rejects id failure →
    w.observe (asked id) actions = [] ∧ ∃ call, (w.after before).calls[id]? = some call ∧
      (w.after before).act (.step (.call id) expired) =
        (w.after before).setStage id call (.over (.error (.failed failure)))
  -- On the loopback fabric, a session that is published or about to be is the only one, and it is up.
  up : ∀ before later store party active, actions = before ++ later →
    (w.after before).stores[s]? = some store → store.fabric = .loopback →
    (w.after before).HasSession s active party →
    active.IsUp (w.after before).net ∧ active.binding.port = store.config.port ∧
      ∀ other active', (w.after before).HasSession s active' other → other = party ∧ active' = active
  -- Nothing but dropping the store keeps such a session from being published, and from staying so.
  lasts : ∀ before later store party active, actions = before ++ later →
    (w.after before).stores[s]? = some store → store.fabric = .loopback →
    (w.after before).HasSession s active party →
    (∃ other, (w.after actions).HasSession s active other) ∨
      (w.after actions).stores[s]? = none ∧ (store.dropped ∨ .dropStore s ∈ later)
  -- A store that is ready stays ready with the same session and storage until it is dropped.
  stays : ∀ before later store active, actions = before ++ later →
    (w.after before).stores[s]? = some store → store.active = some active →
    (∃ store', (w.after actions).stores[s]? = some store' ∧ store'.active = some active ∧
        ∀ layout, store'.storage layout = store.storage layout) ∨
      (w.after actions).stores[s]? = none ∧ (store.dropped ∨ .dropStore s ∈ later)

theorem ready_once (mapper : Mapper) (now : Duration) (s : StoreId) (actions : List Action) :
    (initial mapper now).ReadyOnce s actions where
  one := length_succeeded_le_one mapper now s actions
  rejected := by
    rintro before id expired later failure rfl hrejects
    obtain ⟨hw, ht⟩ := sound_initial mapper now
    obtain ⟨call, hcall, hact, -⟩ := hrejects.act expired
    exact ⟨hrejects.asked_eq_nil hw ht expired, call, hcall, hact⟩
  up := by
    rintro before later store party active rfl hstore hfabric hsession
    have hreach : ((initial mapper now).after before).Reachable := ⟨mapper, now, before, rfl⟩
    obtain ⟨hup, hport⟩ := hreach.firm.isUp hsession hstore hfabric
    exact ⟨hup, hport, fun other active' hother =>
      hreach.firm.hasSession_unique hreach.sound.1 hstore hfabric hsession hother⟩
  lasts := by
    rintro before later store party active rfl hstore hfabric hsession
    have hreach : ((initial mapper now).after before).Reachable := ⟨mapper, now, before, rfl⟩
    obtain ⟨hw, ht⟩ := hreach.sound
    rw [after_append]
    rcases hreach.hasSession_after hstore hfabric hsession later with hsession' | hgone
    · exact .inl hsession'
    · rcases retains_after hw ht hstore later with ⟨store', hstore', -⟩ | hgone'
      · rw [hgone] at hstore'
        contradiction
      · exact .inr hgone'
  stays := by
    rintro before later store active rfl hstore hactive
    have hreach : ((initial mapper now).after before).Reachable := ⟨mapper, now, before, rfl⟩
    obtain ⟨hw, ht⟩ := hreach.sound
    rw [after_append]
    rcases retains_after hw ht hstore later with ⟨store', hstore', hretains, -⟩ | hgone
    · refine .inl ⟨store', hstore', hretains.active active hactive, fun layout => ?_⟩
      simp only [Store.storage, Store.active?, hactive, hretains.active active hactive, hretains.setup.config]
    · exact .inr hgone

set_option maxRecDepth 10000 in
example :
    let given := sample.after (sampleMoves 3 ++ [.connect 7000] ++ sampleMoves 17)
    let last := given.after (.initiate 1 :: List.replicate 9 (.step (.call 3) false) ++ sampleMoves 1)
    last.result? (.call 3) = some (.error (.failed (.addressInUse 7000))) ∧
      last.result? (.call 2) = some (.ok ()) :=
  ⟨rfl, rfl⟩

end World

end RemoteSlots
