import Mathlib.Data.List.Induction
import RemoteSlots.Proofs.World.Others

/-!
This module contains runs: worlds after lists of actions, what is observed on the way, and the induction
that follows one call while everybody else acts in between.
-/

namespace RemoteSlots

open Std

namespace World

theorem after_append (w : World) (before after : List Action) :
    w.after (before ++ after) = (w.after before).after after :=
  List.foldl_append

theorem after_concat (w : World) (actions : List Action) (action : Action) :
    w.after (actions ++ [action]) = (w.after actions).act action :=
  after_append ..

theorem observe_append (look : World → Action → List α) (w : World) (before after : List Action) :
    observe look w (before ++ after) = observe look w before ++ observe look (w.after before) after := by
  induction before generalizing w with
  | nil => rfl
  | cons action before ih =>
    rw [List.cons_append, observe, observe, ih, List.append_assoc]
    rfl

theorem observe_concat (look : World → Action → List α) (w : World) (actions : List Action)
    (action : Action) :
    observe look w (actions ++ [action]) = observe look w actions ++ look (w.after actions) action := by
  rw [observe_append, observe, observe, List.append_nil]

theorem prefix_of_concat_eq {actions before rest : List Action} {x y : Action}
    (h : actions ++ [x] = before ++ y :: rest) : ∃ after, actions = before ++ after := by
  rcases List.append_eq_append_iff.mp h with ⟨between, heq, hlast⟩ | ⟨after, heq, -⟩
  · rcases between with _ | ⟨action, between⟩
    · exact ⟨[], by simpa using heq.symm⟩
    · simp at hlast
  · exact ⟨after, heq⟩

variable {w : World}

theorem Reachable.act (h : w.Reachable) (action : Action) : (w.act action).Reachable := by
  obtain ⟨mapper, now, actions, rfl⟩ := h
  exact ⟨mapper, now, actions ++ [action], (after_concat ..).symm⟩

theorem Reachable.after (h : w.Reachable) (actions : List Action) : (w.after actions).Reachable := by
  obtain ⟨mapper, now, before, rfl⟩ := h
  exact ⟨mapper, now, before ++ actions, (after_append ..).symm⟩

-- What holds at first and is kept by every action holds always. The invariants of ownership come with every world.
theorem Reachable.induct {motive : (w : World) → w.Reachable → Prop}
    (initial : ∀ mapper now, motive (initial mapper now) ⟨mapper, now, [], rfl⟩)
    (act : ∀ w action (h : w.Reachable), w.Sound → w.Tidy → motive w h → motive (w.act action) (h.act action))
    (w : World) (h : w.Reachable) : motive w h := by
  obtain ⟨mapper, now, actions, rfl⟩ := h
  induction actions using List.reverseRecOn with
  | nil => exact initial mapper now
  | append_singleton actions action ih =>
    have hreach : ((World.initial mapper now).after actions).Reachable := ⟨mapper, now, actions, rfl⟩
    obtain ⟨hsound, htidy⟩ := hreach.sound
    simp only [after_concat]
    exact act _ action hreach hsound htidy ih

theorem lastId_le_act (h : w.Sound) (ht : w.Tidy) (action : Action) : w.lastId ≤ (w.act action).lastId := by
  by_cases hstep : ∃ task expired, action = .step task expired
  · obtain ⟨task, expired, rfl⟩ := hstep
    simp only [act, step]
    split
    · split
      · exact Nat.le_refl _
      · next call hcall =>
        split
        · exact Nat.le_refl _
        · next store hstore => exact Nat.le_of_eq (stepCall_spec hcall hstore expired).lastId.symm
    · split
      · exact Nat.le_refl _
      · exact Nat.le_of_eq (lastId_perform ..).symm
  · exact (carries_act h ht fun task expired heq => hstep ⟨task, expired, heq⟩).lastId_le

theorem act_step {id : CallId} {call : Call} {store : Store} (hcall : w.calls[id]? = some call)
    (hstore : w.stores[call.store]? = some store) (expired : Bool) :
    w.act (.step (.call id) expired) = (w.stepCall id call store expired).2 := by
  simp only [act, step, hcall, hstore]

theorem act_connect {port : UInt16} {peer : ConnectionId} {connected : World}
    (h : w.connect port = .ok (peer, connected)) : w.act (.connect port) = connected := by
  rw [act, h]
  rfl

theorem connect_eq_ok {port : UInt16} {peer : ConnectionId} {connected : World}
    (h : w.connect port = .ok (peer, connected)) :
    ∃ net, w.net.connect port = .ok (peer, net) ∧ connected = { w with net } := by
  unfold World.connect at h
  rcases hnet : w.net.connect port with failure | ⟨id, net⟩
  · rw [hnet] at h
    contradiction
  · rw [hnet] at h
    injection h with h
    injection h with hid hworld
    exact ⟨net, by rw [hid], hworld.symm⟩

theorem running_of_act (h : w.Sound) (ht : w.Tidy) {action : Action} {id : CallId} (hid : id ≤ w.lastId)
    (hrunning : (w.act action).result? (.call id) = none) : w.result? (.call id) = none := by
  simp only [result?] at hrunning ⊢
  rcases hcall' : (w.act action).calls[id]? with _ | call'
  · rw [hcall'] at hrunning
    contradiction
  · rw [hcall'] at hrunning
    by_cases hstep : ∃ task expired, action = .step task expired
    · obtain ⟨task, expired, rfl⟩ := hstep
      cases task with
      | session other =>
        simp only [act, step] at hcall'
        split at hcall'
        · rw [hcall']
          exact hrunning
        · next session _ =>
          have hcalls : (w.stepSession other session expired).2.calls = w.calls := calls_perform ..
          rw [hcalls] at hcall'
          rw [hcall']
          exact hrunning
      | call other =>
        rcases hother : w.calls[other]? with _ | call
        · simp only [act, step, hother] at hcall'
          rw [hcall']
          exact hrunning
        · rcases hstore : w.stores[call.store]? with _ | store
          · simp only [act, step, hother, hstore] at hcall'
            rw [hcall']
            exact hrunning
          · rw [act_step hother hstore] at hcall'
            by_cases hne : other = id
            · subst hne
              rw [hother]
              rcases hresult : call.result? with _ | result
              · exact hresult
              · obtain ⟨s, stage⟩ := call
                obtain ⟨ended, rfl⟩ : ∃ ended, stage = .over ended := by
                  cases stage with
                  | check | claim | initiate | free | publish | discard => contradiction
                  | _ => exact ⟨_, rfl⟩
                rw [show (w.stepCall other ⟨s, .over ended⟩ store expired).2 = w from rfl, hother] at hcall'
                injection hcall' with hcall'
                rw [← hcall'] at hrunning
                contradiction
            · rw [(stepCall_spec hother hstore expired).calls, if_neg hne] at hcall'
              rw [hcall']
              exact hrunning
    · have hcarries := carries_act h ht fun task expired heq => hstep ⟨task, expired, heq⟩
      rcases hcarries.calls id call' hcall' with hold | ⟨hlt, -⟩
      · rw [hold]
        exact hrunning
      · exact absurd hid (Nat.not_le_of_lt hlt)

theorem after_spec (h : w.Sound) (ht : w.Tidy) (actions : List Action) :
    (w.after actions).Sound ∧ (w.after actions).Tidy ∧ w.lastId ≤ (w.after actions).lastId := by
  induction actions using List.reverseRecOn with
  | nil => exact ⟨h, ht, Nat.le_refl _⟩
  | append_singleton actions action ih =>
    obtain ⟨h', ht', hle⟩ := ih
    rw [after_concat]
    obtain ⟨h'', ht''⟩ := act_sound h' ht' action
    exact ⟨h'', ht'', Nat.le_trans hle (lastId_le_act h' ht' action)⟩

theorem running_of_after (h : w.Sound) (ht : w.Tidy) {id : CallId} (hid : id ≤ w.lastId)
    {before after : List Action} (hrunning : (w.after (before ++ after)).result? (.call id) = none) :
    (w.after before).result? (.call id) = none := by
  induction after using List.reverseRecOn with
  | nil =>
    rw [List.append_nil] at hrunning
    exact hrunning
  | append_singleton after action ih =>
    apply ih
    obtain ⟨h', ht', hle⟩ := after_spec h ht (before ++ after)
    rw [← List.append_assoc, after_concat] at hrunning
    exact running_of_act h' ht' (Nat.le_trans hid hle) hrunning

theorem run_induction (h : w.Sound) (ht : w.Tidy) {id : CallId} (hid : id ≤ w.lastId)
    {motive : List Action → Prop} (start : motive [])
    (move : ∀ actions expired, (w.after actions).Sound → (w.after actions).Tidy →
      (w.after (actions ++ [.step (.call id) expired])).result? (.call id) = none → motive actions →
      motive (actions ++ [.step (.call id) expired]))
    (others : ∀ actions action, (w.after actions).Sound → (w.after actions).Tidy →
      (w.after actions).result? (.call id) = none → ¬action.IsMoveOf id → motive actions →
      motive (actions ++ [action]))
    (actions : List Action) (hrunning : (w.after actions).result? (.call id) = none) : motive actions := by
  induction actions using List.reverseRecOn with
  | nil => exact start
  | append_singleton actions action ih =>
    obtain ⟨h', ht', -⟩ := after_spec h ht actions
    have hbefore := running_of_after h ht hid hrunning
    -- The last action is a move of the call, or it leaves the call where it is.
    by_cases hmove : action.IsMoveOf id
    · obtain ⟨expired, rfl⟩ := hmove
      exact move actions expired h' ht' hrunning (ih hbefore)
    · exact others actions action h' ht' hbefore hmove (ih hbefore)

end World

end RemoteSlots
