import RemoteSlots.Proofs.Initiation.Message

/-!
This module shows what is known of an initiation wherever it stands, and what it left behind when it ended
well.
-/

namespace RemoteSlots

open Std

theorem Stage.milestone?_of_leads {name : String} {config : SessionConfig} {signals : Signals}
    {stage stage' : Stage} {acquired : List Handle} (hrest : stage.result? = none)
    (hnone : stage.milestone? = none) (h : (stage.next name config signals).Leads acquired stage') :
    stage'.milestone? = none := by
  cases stage with
  | giveUp channel failure =>
    cases h with
    | ask _ _ reply => rfl
  | wipe binding endpoint region result =>
    rcases result with failure | ⟨⟩
    · cases h
      rfl
    · contradiction
  | rest | openChannel | bind | listen | awaitRequest | accept | awaitEstablished | register | announce | send
  | awaitAck | capture => contradiction

theorem Initiation.milestone?_of_leads {layout : Layout} {config : StoreConfig} {signals : Signals}
    {initiation initiation' : Initiation} {acquired : List Handle}
    (hnone : (CallStage.initiate initiation).milestone? = none)
    (hfinished : ∀ result, initiation ≠ finished result)
    (h : (initiation.next layout config signals).Leads acquired initiation') :
    (CallStage.initiate initiation').milestone? = none := by
  cases initiation with
  | run stage =>
    rcases hrest : stage.result? with _ | result
    · rw [next_run hrest] at h
      obtain ⟨stage', hstage, rfl⟩ := Move.leads_embed h
      exact Stage.milestone?_of_leads hrest hnone hstage
    · cases stage with
      | rest phase result =>
        cases h
        rcases result with halt | ⟨⟩
        · cases phase <;> rfl
        · cases phase with
          | unbound | listening | requested => rfl
          | accepted | registered | advertised | ready => contradiction
      | _ => contradiction
  | giveBack requests halt =>
    rcases requests with _ | ⟨request, requests⟩
    · cases h
      rfl
    · cases h
      rfl
  | finished result => exact absurd rfl (hfinished result)
  | allocate | clear => contradiction

theorem CallStage.milestone?_of_leads {store : Store} {signals : Signals} {stage stage' : CallStage}
    {acquired : List Handle} (hunder : stage.isUnderWay) (hnone : stage.milestone? = none)
    (h : (stage.next store signals).Leads acquired stage') : stage'.milestone? = none := by
  cases stage with
  | initiate initiation =>
    cases initiation with
    | finished result =>
      rcases result with (failure | _) | active
      · cases h
        rfl
      · cases h
        rfl
      · contradiction
    | run | allocate | clear | giveBack =>
      simp only [next] at h
      obtain ⟨initiation', hleads, rfl⟩ := Move.leads_embed h
      exact Initiation.milestone?_of_leads hnone (fun _ heq => by contradiction) hleads
  | free result =>
    rcases result with failure | active
    · cases h
      rfl
    · contradiction
  | publish active => contradiction
  | _ => contradiction

namespace World

variable {w : World} {id : CallId} {s : StoreId} {store : Store} {expired : Bool}

/--
Whether a call found its store ready and gives back what it cannot publish.
-/
def IsDiscarding (w : World) (id : CallId) (s : StoreId) : Prop :=
  ∃ requests, w.calls[id]? = some ⟨s, .discard requests⟩

theorem IsDiscarding.move (h : w.IsDiscarding id s) (expired : Bool) :
    (w.act (.step (.call id) expired)).IsDiscarding id s ∨
      ∃ failure, (w.act (.step (.call id) expired)).result? (.call id) = some (.error (.failed failure)) := by
  obtain ⟨requests, hcall⟩ := h
  rcases hstore : w.stores[s]? with _ | store
  · have hact : w.act (.step (.call id) expired) = w := by simp only [act, step, hcall, hstore]
    rw [hact]
    exact .inl ⟨requests, hcall⟩
  · have hspec := (stepCall_spec hcall hstore expired).calls id
    rw [if_pos rfl, ← act_step hcall hstore] at hspec
    rcases requests with _ | ⟨request, requests⟩
    · refine .inr ⟨Call.tooLate "Ready", ?_⟩
      simp only [result?, hspec]
      rfl
    · exact .inl ⟨requests, hspec⟩

theorem IsDiscarding.others (h : w.IsDiscarding id s) (hw : w.Sound) (ht : w.Tidy) {action : Action}
    (hmove : ¬action.IsMoveOf id) : (w.act action).IsDiscarding id s := by
  obtain ⟨requests, hcall⟩ := h
  exact ⟨requests, calls_act hw ht hcall rfl hmove⟩

theorem UnderWay.publish {active : Active} (h : w.UnderWay id s store (.publish active)) (expired : Bool) :
    (w.act (.step (.call id) expired)).IsDiscarding id s ∨ w.IsIdle s ∧
      (w.act (.step (.call id) expired)).result? (.call id) = some (.ok ()) ∧
      ∃ store', (w.act (.step (.call id) expired)).stores[s]? = some store' ∧ store.SameSetup store' ∧
        store'.active = some active := by
  obtain ⟨found, hfound, hsetup⟩ := h.stores
  have hspec := stepCall_spec h.calls hfound expired
  have hcalls := hspec.calls id
  have hstores := hspec.stores s
  rw [if_pos rfl, ← act_step h.calls hfound] at hcalls hstores
  rcases hactive : found.active with _ | old
  · refine .inr ⟨?_, ?_, _, hstores, ?_, ?_⟩
    · intro other hother
      rw [hfound] at hother
      injection hother with hother
      rw [← hother, hactive]
    · simp only [CallStage.next, perform] at hcalls
      rw [if_neg (by simp [Store.isReady, hactive])] at hcalls
      simp only [result?, hcalls]
      rfl
    · have hupdate := sameSetup_update (.publish active) found
      exact ⟨hupdate.layout.trans hsetup.layout, hupdate.config.trans hsetup.config,
        hupdate.fabric.trans hsetup.fabric⟩
    · simp [CallStage.update, hactive]
  · simp only [CallStage.next, perform] at hcalls
    rw [if_pos (by simp [Store.isReady, hactive])] at hcalls
    exact .inl ⟨_, hcalls⟩

theorem Holds.start (w : World) (id : CallId) (s : StoreId) (store : Store) :
    w.Holds id s store [] .listening none := by
  apply Holds.of_unsent
  · rfl
  · exact fun _ _ hnone => by contradiction
  · intro j
    exact ⟨fun hmem => by contradiction, fun hnone => by contradiction⟩
  · exact fun _ hnone => by contradiction
  · exact fun _ hnone => by contradiction
  · exact fun _ _ hnone => by contradiction
  · exact fun _ => rfl

theorem Accounts.progress {actions : List Action} {stage : CallStage}
    (h : (w.after actions).Accounts id s store stage (w.observe (gained id) actions))
    (hw : (w.after actions).Sound) (ht : (w.after actions).Tidy)
    (hpublish : ∀ active, stage ≠ .publish active)
    (hmilestone : ∀ milestone, stage.milestone? = some milestone →
      ∃ message, w.Holds id s store actions milestone message)
    (hrunning : ((w.after actions).act (.step (.call id) expired)).result? (.call id) = none) :
    ∃ stage', ((w.after actions).act (.step (.call id) expired)).Accounts id s store stage'
        (w.observe (gained id) (actions ++ [.step (.call id) expired])) ∧
      ∀ milestone, stage'.milestone? = some milestone →
        ∃ message, w.Holds id s store (actions ++ [.step (.call id) expired]) milestone message := by
  have hidle : ∀ active, stage = .publish active → (w.after actions).IsIdle s :=
    fun active heq => absurd heq (hpublish active)
  obtain ⟨stage', hstage'⟩ := h.move hw ht hidle hrunning
  obtain ⟨signals, hmoved, hcall⟩ := h.moved hidle expired
  rw [hstage'.calls] at hcall
  injection hcall with hcall
  injection hcall with _ hstage
  rw [observe_concat]
  refine ⟨stage', hstage', ?_⟩
  rw [hstage]
  -- A call that has failed does not come back to a milestone.
  rcases hbefore : stage.milestone? with _ | milestone
  · intro milestone' heq
    rw [CallStage.milestone?_of_leads h.started hbefore (perform_leads ..)] at heq
    contradiction
  · obtain ⟨message, hholds⟩ := hmilestone milestone hbefore
    exact hholds.advances h.toUnderWay hw.net hbefore hmoved

theorem holds_after (h : w.Sound) (ht : w.Tidy) (hclaimed : w.HasClaimed id s store) (actions : List Action)
    (hrunning : (w.after actions).result? (.call id) = none) :
    (w.after actions).IsDiscarding id s ∨ ∃ stage,
      (w.after actions).Accounts id s store stage (w.observe (gained id) actions) ∧
        ∀ milestone, stage.milestone? = some milestone →
          ∃ message, w.Holds id s store actions milestone message := by
  apply run_induction h ht (ht.calls_le id _ hclaimed.calls) (motive := fun actions =>
    (w.after actions).IsDiscarding id s ∨ ∃ stage,
      (w.after actions).Accounts id s store stage (w.observe (gained id) actions) ∧
        ∀ milestone, stage.milestone? = some milestone →
          ∃ message, w.Holds id s store actions milestone message)
  · refine .inr ⟨_, hclaimed.accounts, ?_⟩
    rintro milestone ⟨⟩
    exact ⟨none, Holds.start w id s store⟩
  · intro actions expired hw' ht' hrunning' ih
    rw [after_concat] at hrunning' ⊢
    rcases ih with hdiscards | ⟨stage, haccounts, hmilestone⟩
    · rcases hdiscards.move expired with hdiscards' | ⟨failure, hfailed⟩
      · exact .inl hdiscards'
      · rw [hrunning'] at hfailed
        contradiction
    -- Where the call publishes it ends, unless its store became ready meanwhile.
    · by_cases hpublish : ∃ active, stage = .publish active
      · obtain ⟨active, rfl⟩ := hpublish
        rcases haccounts.publish expired with hdiscards | ⟨-, hended, -⟩
        · exact .inl hdiscards
        · rw [hrunning'] at hended
          contradiction
      · exact .inr (haccounts.progress hw' ht' (fun active heq => hpublish ⟨active, heq⟩) hmilestone hrunning')
  · intro actions action hw' ht' _ hmove ih
    rw [after_concat]
    rcases ih with hdiscards | ⟨stage, haccounts, hmilestone⟩
    · exact .inl (hdiscards.others hw' ht' hmove)
    · refine .inr ⟨stage, ?_, ?_⟩
      · rw [observe_concat, gained_eq_nil hmove, List.append_nil]
        exact haccounts.others hw' ht' hmove
      · intro milestone heq
        obtain ⟨message, hholds⟩ := hmilestone milestone heq
        exact ⟨message, hholds.others hw' ht' haccounts heq hmove⟩
  · exact hrunning

theorem holds_of_succeeded (h : w.Sound) (ht : w.Tidy) (hclaimed : w.HasClaimed id s store)
    {actions : List Action} (hrunning : (w.after actions).result? (.call id) = none)
    (hsucceeded : (w.after (actions ++ [.step (.call id) expired])).result? (.call id) = some (.ok ())) :
    ∃ active message, (∃ store', (w.after (actions ++ [.step (.call id) expired])).stores[s]? = some store' ∧
        store.SameSetup store' ∧ store'.active = some active) ∧
      w.Holds id s store (actions ++ [.step (.call id) expired])
        (.captured active.endpoint active.region active.baseline) (some message) := by
  rw [after_concat] at hsucceeded ⊢
  rcases holds_after h ht hclaimed actions hrunning with hdiscards | ⟨stage, haccounts, hmilestone⟩
  · rcases hdiscards.move expired with ⟨requests, hcall⟩ | ⟨failure, hfailed⟩
    · simp only [result?, hcall] at hsucceeded
      contradiction
    · rw [hsucceeded] at hfailed
      injection hfailed
      contradiction
  · by_cases hpublish : ∃ active, stage = .publish active
    · obtain ⟨active, rfl⟩ := hpublish
      rcases haccounts.publish expired with ⟨requests, hcall⟩ | ⟨hidle, -, hstore⟩
      · simp only [result?, hcall] at hsucceeded
        contradiction
      · obtain ⟨message?, hholds⟩ := hmilestone _ rfl
        obtain ⟨message, rfl⟩ := Option.isSome_iff_exists.mp (hholds.acknowledged rfl)
        obtain ⟨signals, hmoved, -⟩ := haccounts.moved (fun _ _ => hidle) expired
        exact ⟨active, message, hstore, hholds.stay_of_pass hmoved⟩
    · obtain ⟨signals, -, hcall⟩ := haccounts.moved (fun active heq => absurd ⟨active, heq⟩ hpublish) expired
      simp only [result?, hcall, Call.result?] at hsucceeded
      split at hsucceeded
      · next result heq =>
        injection hsucceeded with hsucceeded
        subst hsucceeded
        have hleads := perform_leads (w.after actions) .loopback (stage.next store signals)
        rw [heq] at hleads
        have hrunning : stage ≠ .over (.ok ()) := by
          rintro rfl
          exact haccounts.started
        exact absurd (CallStage.publish_of_leads hrunning hleads).2 hpublish
      · contradiction

end World

end RemoteSlots
