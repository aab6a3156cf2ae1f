import RemoteSlots.Proofs.Session.Lifecycle
import RemoteSlots.Proofs.World.Firm

/-!
This module shows what everything that can happen in a world comes to for one session: it takes a turn, it is
dropped after its operation ended, or it stays as it is. What it counts on in the fabric is there all the time.
-/

namespace RemoteSlots

open Std

theorem Operation.foothold_of_start {operation : Operation} {phase : Phase} {stage : Stage}
    (h : operation.start phase = .ok stage) : stage.foothold = phase.foothold := by
  cases operation with
  | listen port =>
    cases phase with
    | unbound =>
      injection h with h
      exact h ▸ rfl
    | _ => contradiction
  | register extent =>
    cases phase with
    | accepted =>
      injection h with h
      exact h ▸ rfl
    | _ => contradiction
  | advertise =>
    cases phase with
    | registered =>
      injection h with h
      exact h ▸ rfl
    | _ => contradiction
  | capture =>
    cases phase with
    | advertised =>
      injection h with h
      exact h ▸ rfl
    | _ => contradiction

theorem Stage.foothold_of_result? {stage : Stage} (h : stage.result?.isSome) :
    stage.foothold = stage.phase.foothold ∧ stage.foothold.IsListening := by
  cases stage with
  | rest phase result => exact ⟨rfl, Phase.isListening_foothold phase⟩
  | _ => contradiction

namespace World

variable {w : World} {id : SessionId} {session session' : Session}

def answers (w : World) (fabric : FabricId) : Answers where
  reply := fun request => (w.serve fabric request).1
  map := fun pages length =>
    (w.memory.allocate pages length).map fun (block, memory) => { block, address := memory.base block, length }

theorem perform_eq_resolve (w : World) (fabric : FabricId) (move : Move σ) :
    (w.perform fabric move).1 = move.resolve (w.answers fabric) := by
  cases move with
  | map pages length resume =>
    simp only [perform, Move.resolve, answers]
    rcases w.memory.allocate pages length with halt | ⟨block, memory⟩ <;> rfl
  | _ => rfl

/--
What an action makes of a session, or of the number of one.
-/
inductive Leaves (w : World) (id : SessionId) : Action → Option Session → Option Session → Prop
  | same {action : Action} {session : Option Session} : Leaves w id action session session
  | move {session : Session} (expired : Bool) :
    Leaves w id (.step (.session id) expired) (some session)
      (some (session.turn (.move expired w.now (w.answers session.fabric))))
  | call {session : Session} (operation : Operation) :
    Leaves w id (.startSession id operation) (some session) (some (session.turn (.call operation)))
  | cancel {session : Session} (cancelled : Bool) :
    Leaves w id (.cancelSession id cancelled) (some session) (some (session.turn (.cancel cancelled)))
  | create (name : String) (config : SessionConfig) (fabric : FabricId) (hid : id = w.lastId + 1)
    {session : Option Session} :
    Leaves w id (.createSession name config fabric) session (some (.new name config fabric))
  | drop {session : Session} (hrest : session.stage.result?.isSome) :
    Leaves w id (.dropSession id) (some session) none

theorem Leaves.of_eq {action : Action} {session session' : Option Session} (h : session' = session) :
    w.Leaves id action session session' :=
  h ▸ .same

theorem sessions_step (w : World) (task : Task) (expired : Bool) (id : SessionId) :
    w.Leaves id (.step task expired) w.sessions[id]? (w.act (.step task expired)).sessions[id]? := by
  cases task with
  | call other =>
    simp only [act, step]
    split
    · exact .same
    · next call hcall =>
      split
      · exact .same
      · next store hstore => exact .of_eq (congrArg (·[id]?) (stepCall_spec hcall hstore expired).sessions)
  | session other =>
    rcases hsession : w.sessions[other]? with _ | session
    · simp only [act, step, hsession]
      exact .same
    · have hact : (w.act (.step (.session other) expired)).sessions[id]? = if other = id then
          some (session.turn (.move expired w.now (w.answers session.fabric))) else w.sessions[id]? := by
        simp only [act, step, hsession, stepSession, sessions_perform, getElem?_insert_sessions,
          perform_eq_resolve]
        rfl
      rw [hact]
      split
      · next heq =>
        rw [← heq, hsession]
        exact .move expired
      · exact .same

theorem sessions_startSession (w : World) (other : SessionId) (operation : Operation) (id : SessionId) :
    w.Leaves id (.startSession other operation) w.sessions[id]?
      (w.act (.startSession other operation)).sessions[id]? := by
  simp only [act]
  split
  · next hguard =>
    simp only [Bool.and_eq_true] at hguard
    rcases hsession : w.sessions[other]? with _ | session
    · simp only [startSession, hsession, orElse]
      exact .same
    · have hrest := hguard.1
      simp only [isAtRest, result?, hsession] at hrest
      obtain ⟨result, hresult⟩ := Option.isSome_iff_exists.mp hrest
      rcases hstart : operation.start session.phase with failure | stage
      · simp only [startSession, hsession, hstart]
        exact .same
      · have hturn : session.turn (.call operation) = { session with stage } := by
          simp only [Session.turn, hresult, hstart]
        have hact : (w.orElse (w.startSession other operation.start)).sessions[id]? =
            if other = id then some (session.turn (.call operation)) else w.sessions[id]? := by
          simp only [startSession, hsession, hstart, hturn]
          exact getElem?_insert_sessions ..
        rw [hact]
        split
        · next heq =>
          subst heq
          rw [hsession]
          exact .call operation
        · exact .same
  · exact .same

theorem sessions_act (h : w.Sound) (action : Action) (id : SessionId) :
    w.Leaves id action w.sessions[id]? (w.act action).sessions[id]? := by
  by_cases hplain : action.isPlain
  · obtain ⟨_, _, _, heq⟩ := h.sameRegistry_act hplain
    exact .of_eq (by rw [heq])
  · cases action with
    | step task expired => exact w.sessions_step task expired id
    | startSession other operation => exact w.sessions_startSession other operation id
    | createStore layout config fabric =>
      simp only [act, createStore]
      rcases Store.new layout config fabric with failure | store <;> exact .same
    | initiate store =>
      simp only [act, withStore]
      split <;> exact .same
    | endCall call =>
      simp only [act, endCall]
      split
      · split
        · exact .same
        · exact .of_eq (congrArg (·[id]?) (sessions_reap ..))
      · exact .same
    | dropStore store => exact .of_eq (congrArg (·[id]?) (sessions_reap ..))
    | cancelStore | createScript => exact .same
    | pull store =>
      simp only [act, withStore]
      split
      · exact .same
      · next store _ =>
        simp only [pull]
        rcases store.storage .append with failure | storage <;> exact .same
    | pullLogs stores pulls =>
      simp only [act, benchmarkLogs]
      split
      · exact .same
      · exact .of_eq (congrArg (·[id]?) (carries_pullMany w pulls stores).2.1)
    | createSession name config fabric =>
      simp only [act, createSession, getElem?_insert_sessions]
      split
      · next heq => exact .create name config fabric heq.symm
      · exact .same
    | cancelSession other cancelled =>
      simp only [act, setSessionCancelled, TreeMap.getElem?_modify, Std.compare_eq_iff_eq]
      split
      · next heq =>
        subst heq
        rcases w.sessions[other]? with _ | session
        · exact .same
        · exact .cancel cancelled
      · exact .same
    | dropSession other =>
      rcases act_dropSession w other with heq | ⟨session, hsession, hrest, heq⟩
      · rw [heq]
        exact .same
      · simp only [isAtRest, result?, hsession] at hrest
        simp only [heq, TreeMap.getElem?_erase, Std.compare_eq_iff_eq]
        split
        · next heq =>
          subst heq
          rw [hsession]
          exact .drop hrest
        · exact .same
    | _ => exact absurd rfl hplain

theorem sessions_le_act (h : w.Sound) (ht : w.Tidy)
    (hle : ∀ session, w.sessions[id]? = some session → id ≤ w.lastId) {action : Action}
    (hsession' : (w.act action).sessions[id]? = some session') : id ≤ (w.act action).lastId := by
  have hmono := lastId_le_act h ht action
  have hleaves := w.sessions_act h action id
  rw [hsession'] at hleaves
  rcases hsession : w.sessions[id]? with _ | session
  · rw [hsession] at hleaves
    cases hleaves with
    | create name config fabric hid => exact Nat.le_of_eq hid
  · exact Nat.le_trans (hle session hsession) hmono

theorem Reachable.sessions_le (h : w.Reachable) (hsession : w.sessions[id]? = some session) :
    id ≤ w.lastId := by
  induction w, h using Reachable.induct generalizing session with
  | initial mapper now => simp [World.initial, empty] at hsession
  | act w action _ hw ht ih => exact sessions_le_act hw ht (fun _ => ih) hsession

theorem Reachable.exists_turns (h : w.Reachable) (hsession : w.sessions[id]? = some session) :
    ∃ turns, session = (Session.new session.name session.config session.fabric).after turns := by
  induction w, h using Reachable.induct generalizing session with
  | initial mapper now => simp [World.initial, empty] at hsession
  | act w action _ hw _ ih =>
    have hleaves := w.sessions_act hw action id
    have hturn : ∀ {before : Session} {turn : Turn}, w.sessions[id]? = some before → session = before.turn turn →
        ∃ turns, session = (Session.new session.name session.config session.fabric).after turns := by
      rintro before turn hbefore rfl
      obtain ⟨turns, hturns⟩ := ih hbefore
      obtain ⟨hname, hconfig, hfabric⟩ := before.turn_eq turn
      refine ⟨turns ++ [turn], ?_⟩
      rw [hname, hconfig, hfabric, Session.after, List.foldl_append]
      exact congrArg (·.turn turn) hturns
    rw [hsession] at hleaves
    generalize hbefore : w.sessions[id]? = before? at hleaves
    cases hleaves with
    | same => exact ih hbefore
    | create name config fabric hid => exact ⟨[], rfl⟩
    | move | call | cancel => exact hturn hbefore rfl

theorem running_act_cases (h : w.Sound) (hle : id ≤ w.lastId) (hsession : w.sessions[id]? = some session)
    (hrunning : session.stage.result? = none) {action : Action}
    (hstep : ∀ expired, action ≠ .step (.session id) expired) :
    (w.act action).sessions[id]? = some session ∨ ∃ cancelled, action = .cancelSession id cancelled ∧
      (w.act action).sessions[id]? = some { session with cancelled } := by
  have hleaves := w.sessions_act h action id
  generalize (w.act action).sessions[id]? = after? at hleaves ⊢
  rw [hsession] at hleaves
  cases hleaves with
  | same => exact .inl rfl
  | move expired => exact absurd rfl (hstep expired)
  | cancel cancelled => exact .inr ⟨cancelled, rfl, rfl⟩
  | create name config fabric hid => exact absurd (hid ▸ hle) (Nat.not_succ_le_self _)
  | drop hrest =>
    rw [hrunning] at hrest
    contradiction
  | call operation =>
    refine .inl ?_
    simp only [Session.turn, hrunning]

theorem running_act (h : w.Sound) (hle : id ≤ w.lastId) (hsession : w.sessions[id]? = some session)
    (hrunning : session.stage.result? = none) {action : Action}
    (hstep : ∀ expired, action ≠ .step (.session id) expired) :
    ∃ cancelled, (w.act action).sessions[id]? = some { session with cancelled } := by
  rcases running_act_cases h hle hsession hrunning hstep with hsame | ⟨cancelled, -, hcancelled⟩
  · exact ⟨session.cancelled, hsame⟩
  · exact ⟨cancelled, hcancelled⟩

theorem eq_of_actor?_session {action : Action} (hactor : w.actor? action = some (.session id)) :
    (∃ expired, action = .step (.session id) expired) ∨ action = .pollSession id ∨
      action = .inspectSession id ∨ action = .dropSession id := by
  cases action with
  | step task expired =>
    cases task with
    | call other => simp [actor?, Task.party] at hactor
    | session other =>
      injection hactor with hactor
      injection hactor with hactor
      exact .inl ⟨expired, hactor ▸ rfl⟩
  | pollSession other =>
    injection hactor with hactor
    injection hactor with hactor
    exact .inr (.inl (hactor ▸ rfl))
  | inspectSession other =>
    injection hactor with hactor
    injection hactor with hactor
    exact .inr (.inr (.inl (hactor ▸ rfl)))
  | dropSession other =>
    injection hactor with hactor
    injection hactor with hactor
    exact .inr (.inr (.inr (hactor ▸ rfl)))
  | endCall other =>
    obtain ⟨call, -, heq⟩ := Option.map_eq_some_iff.mp hactor
    contradiction
  | _ => simp [actor?] at hactor

theorem isFirm_session_others (h : w.Sound) (ht : w.Tidy) (hsession : w.sessions[id]? = some session)
    (hfabric : session.fabric = .loopback) {action : Action}
    (hstep : ∀ expired, action ≠ .step (.session id) expired)
    (hkept : ((w.act action).sessions[id]?).isSome) (hfirm : session.stage.foothold.IsFirm w.net) :
    session.stage.foothold.IsFirm (w.act action).net := by
  by_cases hpeer : action.isPeer
  · exact isFirm_peer h hpeer hfirm
  · by_cases hactor : w.actor? action = some (.session id)
    · obtain ⟨expired, rfl⟩ | rfl | rfl | rfl := eq_of_actor?_session hactor
      · exact absurd rfl (hstep expired)
      · simp only [act, withSession, hsession, isAtRest, result?]
        split
        · next hrest => exact isFirm_asks hfirm (Stage.foothold_of_result? hrest).2 (pollOnce_eq ..)
        · exact hfirm
      · simp only [act, withSession, hsession, isAtRest, result?]
        split
        · next hrest => exact isFirm_asks hfirm (Stage.foothold_of_result? hrest).2 (transportInfo_eq ..)
        · exact hfirm
      · simp only [act, withSession, hsession, dropSession] at hkept ⊢
        split
        · next hrest => simp [if_pos hrest] at hkept
        · exact hfirm
    · have hcustody : w.custody? (.session id) = some (.loopback, session.stage.custody) := by
        simp only [custody?, hsession, Option.map_some, hfabric]
      exact isFirm_of_effects h hcustody (fun handle => Stage.mem_custody_of_foothold) hfirm
        (effects_act h ht hpeer) hactor

theorem isFirm_session_act (h : w.Sound) (ht : w.Tidy) {action : Action}
    (hold : ∀ session, w.sessions[id]? = some session → session.fabric = .loopback →
      session.stage.foothold.IsFirm w.net)
    (hsession' : (w.act action).sessions[id]? = some session') (hfabric' : session'.fabric = .loopback) :
    session'.stage.foothold.IsFirm (w.act action).net := by
  have hothers : ∀ session, w.sessions[id]? = some session → session.fabric = .loopback →
      (∀ expired, action ≠ .step (.session id) expired) →
      session.stage.foothold.IsFirm (w.act action).net := fun session hsession hfabric hstep =>
    isFirm_session_others h ht hsession hfabric hstep (by rw [hsession']; rfl) (hold session hsession hfabric)
  by_cases hstep : ∃ expired, action = .step (.session id) expired
  · obtain ⟨expired, rfl⟩ := hstep
    rcases hsession : w.sessions[id]? with _ | session
    · simp only [act, step, hsession] at hsession'
      contradiction
    · simp only [act, step, hsession, stepSession, TreeMap.getElem?_insert_self, Option.some.injEq]
        at hsession' ⊢
      subst hsession'
      have hfabric : session.fabric = .loopback := hfabric'
      rw [hfabric]
      exact isFirm_stage h.net (hold session hsession hfabric)
  · have hstep : ∀ expired, action ≠ .step (.session id) expired := fun expired heq => hstep ⟨expired, heq⟩
    have hleaves := w.sessions_act h action id
    rw [hsession'] at hleaves
    generalize hbefore : w.sessions[id]? = before? at hleaves
    cases hleaves with
    | same => exact hothers session' hbefore hfabric' hstep
    | move expired => exact absurd rfl (hstep expired)
    | create name config fabric hid => exact Foothold.isFirm_none _
    | @cancel session cancelled => exact hothers session hbefore hfabric' hstep
    | @call session operation =>
      have hfirm := hothers session hbefore ((session.turn_eq _).2.2.symm.trans hfabric') hstep
      simp only [Session.turn]
      split
      · next result stage hresult hstart =>
        have hfoothold : stage.foothold = session.stage.foothold := by
          rw [Operation.foothold_of_start hstart]
          exact (Stage.foothold_of_result? (by rw [hresult]; rfl)).1.symm
        rw [hfoothold]
        exact hfirm
      · exact hfirm

theorem Reachable.isFirm_session (h : w.Reachable) (hsession : w.sessions[id]? = some session)
    (hfabric : session.fabric = .loopback) : session.stage.foothold.IsFirm w.net := by
  induction w, h using Reachable.induct generalizing session with
  | initial mapper now => simp [World.initial, empty] at hsession
  | act w action _ hw ht ih =>
    exact isFirm_session_act hw ht (fun _ hold hloopback => ih hold hloopback) hsession hfabric

end World

end RemoteSlots
