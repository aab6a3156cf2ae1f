import RemoteSlots.Proofs.Initiation.Claim

/-!
This module shows that an initiation returns, whatever becomes of its handshake, if the clock can tell the time limits
of its store and the pages have a size. It ends after a bounded number of moves, not counting those with which it goes
on waiting in good time. It ends well or with a failure, and the store can be initiated again.
-/

namespace RemoteSlots

open Std

namespace Stage

def mayWait (config : SessionConfig) (signals : Signals) : Stage → Bool
  | awaitRequest _ | awaitEstablished .. =>
    !signals.cancelled && (outOfTime config.eventTimeout signals).isNone
  | awaitAck .. => !signals.cancelled && !(config.ackTimeout.nanos = 0 || signals.expired)
  | _ => false

def toGo : Stage → Nat
  | openChannel _ => 29
  | bind _ => 28
  | listen _ => 27
  | awaitRequest _ => 26
  | accept .. => 25
  | awaitEstablished .. => 24
  | rest (.accepted ..) (.ok ()) => 23
  | register .. => 20
  | rest (.registered ..) (.ok ()) => 19
  | announce .. => 18
  | send .. => 17
  | awaitAck .. => 16
  | wipe .. => 15
  | rest (.advertised ..) (.ok ()) => 14
  | capture .. | giveUp .. => 13
  | rest .. => 12

variable {name : String} {config : SessionConfig} {signals : Signals} {acquired : List Handle}

theorem le_toGo (stage : Stage) : 12 ≤ stage.toGo := by
  unfold toGo
  split <;> simp

theorem toGo_of_leads {stage stage' : Stage} (hrest : stage.result? = none)
    (hleads : (stage.next name config signals).Leads acquired stage') :
    stage'.toGo < stage.toGo ∨ stage' = stage ∧ stage.mayWait config signals := by
  cases stage with
  | awaitRequest | awaitEstablished =>
    simp only [next] at hleads
    rcases await_tells hleads with ⟨-, rfl⟩ | ⟨-, ⟨heq, hcancelled, hlimit⟩ | ⟨failure, rfl⟩ | ⟨event, rfl⟩⟩
    · exact .inl (by simp [toGo])
    · exact .inr ⟨heq, by simp [mayWait, hcancelled, hlimit]⟩
    · exact .inl (by simp [toGo])
    · exact .inl (by simp [toGo])
  | awaitAck binding endpoint region =>
    simp only [next] at hleads
    rcases round_awaitCompletion.leads hleads with ⟨-, rfl⟩ | ⟨-, ⟨heq, hcancelled, hlimit⟩ | ⟨result, rfl⟩⟩
    · exact .inl (by simp [toGo])
    · exact .inr ⟨heq, by rw [mayWait, hcancelled, hlimit]; rfl⟩
    · exact .inl (by simp [toGo])
  | announce binding endpoint region =>
    simp only [next] at hleads
    split at hleads
    · cases hleads
      exact .inl (by simp [toGo])
    · cases hleads
      exact .inl (by simp [toGo])
  | wipe binding endpoint region result =>
    cases hleads
    rcases result with failure | ⟨⟩
    · exact .inl (by simp [toGo])
    · exact .inl (by simp [toGo])
  | rest => contradiction
  | openChannel | bind | listen | giveUp | accept | register | send | capture =>
    cases hleads with
    | ask _ _ reply =>
      rcases reply with failure | reply
      · exact .inl (by simp [toGo])
      · exact .inl (by simp [toGo])

end Stage

namespace Initiation

def toGo : Initiation → Nat
  | run stage => stage.toGo
  | allocate .. => 22
  | clear .. => 21
  | giveBack requests _ => requests.length + 8
  | finished _ => 7

def mayWait (config : StoreConfig) (signals : Signals) : Initiation → Bool
  | run stage => stage.mayWait config.session signals
  | _ => false

theorem toGo_abandon_lt (phase : Phase) (halt : Halt) : (abandon phase halt).toGo < 12 :=
  Nat.add_lt_add_right (Nat.lt_succ_of_le phase.length_release_le) 8

theorem toGo_after_lt (phase : Phase) (result : Except Halt Unit) :
    (after phase result).toGo < (Stage.rest phase result).toGo := by
  rcases result with halt | ⟨⟩
  · exact Nat.lt_of_lt_of_le (toGo_abandon_lt phase halt) (Stage.le_toGo _)
  · cases phase with
    | unbound | listening | requested => exact toGo_abandon_lt _ _
    | accepted | registered | advertised | ready => simp [after, toGo, Stage.toGo]

theorem toGo_of_leads {layout : Layout} {config : StoreConfig} {signals : Signals}
    {initiation initiation' : Initiation} {acquired : List Handle} (hrest : ∀ result, initiation ≠ finished result)
    (hleads : (initiation.next layout config signals).Leads acquired initiation') :
    initiation'.toGo < initiation.toGo ∨ initiation' = initiation ∧ initiation.mayWait config signals := by
  cases initiation with
  | run stage =>
    rcases hresult : stage.result? with _ | result
    · rw [next_run hresult] at hleads
      obtain ⟨stage', hstage, rfl⟩ := Move.leads_embed hleads
      rcases Stage.toGo_of_leads hresult hstage with hlt | ⟨rfl, hwait⟩
      · exact .inl hlt
      · exact .inr ⟨rfl, hwait⟩
    · cases stage with
      | rest phase result =>
        cases hleads
        exact .inl (toGo_after_lt phase _)
      | _ => contradiction
  | allocate binding endpoint =>
    have hgivesUp := fun halt => Nat.lt_trans (toGo_abandon_lt (.accepted binding endpoint) halt)
      (by decide : 12 < 22)
    simp only [next] at hleads
    split at hleads
    · cases hleads
      exact .inl (hgivesUp _)
    · cases hleads with
      | mapped _ _ _ extent =>
        dsimp only
        split
        · exact .inl (Nat.lt_succ_self 21)
        · exact .inl (by simp [toGo, Stage.toGo])
      | unmapped => exact .inl (hgivesUp _)
  | clear binding endpoint extent =>
    cases hleads
    exact .inl (Nat.lt_succ_self 20)
  | giveBack requests halt =>
    rcases requests with _ | ⟨request, requests⟩
    · cases hleads
      exact .inl (Nat.lt_succ_self 7)
    · cases hleads with
      | ask => exact .inl (Nat.lt_succ_self _)
  | finished result => exact absurd rfl (hrest result)

end Initiation

namespace CallStage

def toGo : CallStage → Nat
  | check => 31
  | claim => 30
  | initiate initiation => initiation.toGo
  | free _ => 6
  | publish _ => 5
  | discard requests => requests.length + 1
  | .over _ => 0

def mayWait (store : Store) (expired : Bool) (now : Duration) : CallStage → Bool
  | initiate initiation => initiation.mayWait store.config { cancelled := store.cancelled, expired, now }
  | _ => false

theorem toGo_pos {s : StoreId} {stage : CallStage} (h : (⟨s, stage⟩ : Call).result? = none) : 0 < stage.toGo := by
  cases stage with
  | initiate initiation =>
    cases initiation with
    | run stage => exact Nat.lt_of_lt_of_le (by decide) stage.le_toGo
    | allocate | clear | giveBack | finished => exact Nat.succ_pos _
  | check | claim | free | publish | discard => exact Nat.succ_pos _
  | «over» => contradiction

theorem toGo_of_leads {store : Store} {expired : Bool} {now : Duration} {stage stage' : CallStage}
    {acquired : List Handle} (hover : ∀ result, stage ≠ .over result)
    (hleads : (stage.next store { cancelled := store.cancelled, expired, now }).Leads acquired stage') :
    stage'.toGo < stage.toGo ∨ stage' = stage ∧ stage.mayWait store expired now := by
  by_cases hrun : ∃ initiation, stage = initiate initiation ∧ ∀ result, initiation ≠ .finished result
  · obtain ⟨initiation, rfl, hrest⟩ := hrun
    rw [next_initiate hrest] at hleads
    obtain ⟨initiation', hinitiation, rfl⟩ := Move.leads_embed hleads
    rcases Initiation.toGo_of_leads hrest hinitiation with hlt | ⟨rfl, hwait⟩
    · exact .inl hlt
    · exact .inr ⟨rfl, hwait⟩
  · refine .inl ?_
    cases follows_of_leads hleads with
    | run initiation' hrest => exact absurd ⟨_, rfl, hrest⟩ hrun
    | stays result => exact absurd rfl (hover result)
    | start => exact Nat.lt_succ_self 29
    | late active => exact Nat.succ_lt_succ (Nat.lt_succ_of_le active.phase.length_release_le)
    | discard request requests => exact Nat.lt_succ_self _
    | _ => simp [toGo, Initiation.toGo]

end CallStage

namespace World

variable {w : World} {id : CallId} {s : StoreId} {store : Store} {stage : CallStage}

def mayWait (w : World) (id : CallId) (expired : Bool) : Bool :=
  match w.calls[id]? with
  | none => false
  | some call => w.stores[call.store]?.any (call.stage.mayWait · expired w.now)

def pressing (id : CallId) (w : World) (action : Action) : List Action :=
  match action with
  | .step (.call other) expired => if other = id ∧ !w.mayWait id expired then [action] else []
  | _ => []

theorem pressing_eq_nil {action : Action} (hmove : ¬action.IsMoveOf id) : w.pressing id action = [] := by
  cases action with
  | step task expired =>
    cases task with
    | call other =>
      simp only [pressing]
      rw [if_neg]
      rintro ⟨rfl, -⟩
      exact hmove ⟨expired, rfl⟩
    | session => rfl
  | _ => rfl

theorem pressing_move (h : w.Stands id s store stage) (expired : Bool) :
    w.pressing id (.step (.call id) expired) =
      if stage.mayWait store expired w.now then [] else [.step (.call id) expired] := by
  simp only [pressing, mayWait, h.calls, h.stores, Option.any_some, true_and]
  cases stage.mayWait store expired w.now <;> rfl

theorem toGo_after (h : w.Sound) (ht : w.Tidy) (hcall : w.calls[id]? = some ⟨s, stage⟩) {actions : List Action}
    (hrunning : (w.after actions).result? (.call id) = none) :
    ∃ stage', (w.after actions).calls[id]? = some ⟨s, stage'⟩ ∧
      (w.observe (pressing id) actions).length + stage'.toGo ≤ stage.toGo := by
  apply run_induction h ht (ht.calls_le id _ hcall) (motive := fun actions =>
    ∃ stage', (w.after actions).calls[id]? = some ⟨s, stage'⟩ ∧
      (w.observe (pressing id) actions).length + stage'.toGo ≤ stage.toGo)
  · exact ⟨stage, hcall, Nat.le_of_eq (Nat.zero_add _)⟩
  · intro actions expired hw' ht' hrunning' ⟨stage', hcall', hle⟩
    obtain ⟨store, hstore⟩ := Option.isSome_iff_exists.mp (ht'.called id _ hcall')
    have hstands : (w.after actions).Stands id s store stage' := ⟨hcall', hstore⟩
    have hnext := (hstands.step expired).calls
    have hover : ∀ result, stage' ≠ .over result := by
      rintro result rfl
      rw [after_concat] at hrunning'
      simp [result?, hnext, CallStage.next, perform, Call.result?] at hrunning'
    rw [after_concat, observe_concat, List.length_append, pressing_move hstands]
    refine ⟨_, hnext, ?_⟩
    have hleads := perform_leads (w.after actions) store.fabric (stage'.next store
      ⟨store.cancelled, expired, (w.after actions).now⟩)
    rcases CallStage.toGo_of_leads hover hleads with hlt | ⟨heq, hwait⟩
    · have hone : (if stage'.mayWait store expired (w.after actions).now then []
          else [Action.step (.call id) expired]).length ≤ 1 := by
        split <;> simp
      exact Nat.le_trans (by omega) hle
    · rw [heq, if_pos hwait]
      exact hle
  · intro actions action hw' ht' hrunning' hmove ⟨stage', hcall', hle⟩
    have hresult : (⟨s, stage'⟩ : Call).result? = none := by
      rwa [result?, hcall'] at hrunning'
    rw [after_concat, observe_concat, pressing_eq_nil hmove, List.append_nil]
    exact ⟨stage', calls_act hw' ht' hcall' hresult hmove, hle⟩
  · exact hrunning

theorem Stands.begins (h : w.Stands id s store .check) (hidle : store.active = none)
    (hfree : store.initiating = false) (first second : Bool) :
    (w.after (moves id [first, second])).Stands id s store.claimed (.initiate (.start store.config)) := by
  have hclaim : (w.act (.step (.call id) first)).Stands id s store .claim := by
    have hstep := h.step first
    simp only [CallStage.next, Store.isReady, hidle, Option.isSome_none, Bool.false_eq_true, if_false] at hstep
    exact hstep
  have hstep := hclaim.step second
  simp only [CallStage.next, hfree, Bool.false_eq_true, if_false] at hstep
  exact hstep

theorem Reachable.startInitiation (h : w.Reachable) (hstore : w.stores[s]? = some store) :
    (w.startInitiation s).2.Reachable := by
  have hact : w.act (.initiate s) = (w.startInitiation s).2 := by simp only [World.act, withStore, hstore]
  exact hact ▸ h.act (.initiate s)

theorem stands_startInitiation (hstore : w.stores[s]? = some store) :
    (w.startInitiation s).2.Stands (w.startInitiation s).1 s store .check :=
  ⟨TreeMap.getElem?_insert_self, hstore⟩

/--
What it means that a call on a store returns. It ends after a bounded number of moves, not counting those with which it
goes on waiting. It ends well or with a failure. From then on the store is claimed only by calls that are under way,
and if there are none, the next one passes its checks.
-/
structure Returns (w : World) (id : CallId) (s : StoreId) (actions : List Action) : Prop where
  ends : 31 ≤ (w.observe (pressing id) actions).length → ((w.after actions).result? (.call id)).isSome
  whole : ∀ result, (w.after actions).calls[id]? = some ⟨s, .over result⟩ →
    result = .ok () ∨ ∃ failure, result = .error (.failed failure)
  claimed : ∀ store, (w.after actions).stores[s]? = some store →
    (store.initiating ↔ ∃ other, (w.after actions).Claims other s)
  again : ∀ store first second, (w.after actions).stores[s]? = some store → store.active = none →
    (∀ other, ¬(w.after actions).Claims other s) →
      let next := (w.after actions).startInitiation s
      (next.2.after (moves next.1 [first, second])).Stands next.1 s store.claimed (.initiate (.start store.config))

theorem calls_of_faulted (hstore : w.calls[id]?.any (·.store = s))
    (hfaulted : w.result? (.call id) = some (.error .faulted)) :
    w.calls[id]? = some ⟨s, .over (.error .faulted)⟩ := by
  obtain ⟨⟨s', stage⟩, hcall, hs⟩ := (Option.any_eq_true ..).mp hstore
  obtain rfl : s' = s := of_decide_eq_true hs
  rw [result?, hcall] at hfaulted
  obtain rfl : stage = .over (.error .faulted) := by
    cases stage <;> first | contradiction | rw [Option.some.inj hfaulted]
  exact hcall

theorem Returns.calls_ne {actions : List Action} (h : w.Returns id s actions) :
    (w.after actions).calls[id]? ≠ some ⟨s, .over (.error .faulted)⟩ := by
  intro hcall
  rcases h.whole _ hcall with heq | ⟨failure, heq⟩
  · contradiction
  · injection heq with heq
    contradiction

theorem initiation_returns (h : w.Reachable) (hstore : w.stores[s]? = some store) (hsound : store.config.IsSound w.now)
    (actions : List Action) : (w.startInitiation s).2.Returns (w.startInitiation s).1 s actions := by
  have hstands := stands_startInitiation hstore
  have hstarted := h.startInitiation hstore
  have hsound' : store.config.IsSound (w.startInitiation s).2.now := hsound
  revert hstands hstarted hsound'
  generalize (w.startInitiation s).1 = id, (w.startInitiation s).2 = started
  intro hstands hstarted hsound'
  obtain ⟨hw, ht⟩ := hstarted.sound
  have hclocked := (hstarted.after actions).clocked
  have hconfig : ∀ store', (started.after actions).stores[s]? = some store' →
      store'.config.IsSound (started.after actions).now := by
    intro store' hstore'
    rcases retains_after hw ht hstands.stores actions with ⟨_, hkept, hretains, -⟩ | ⟨hgone, -⟩
    · obtain rfl := Option.some.inj (hkept.symm.trans hstore')
      rwa [hretains.setup.config, hstarted.now_after]
    · exact absurd (hstore'.symm.trans hgone) (Option.some_ne_none _)
  have hclaimed : ∀ store', (started.after actions).stores[s]? = some store' →
      (store'.initiating ↔ ∃ other, (started.after actions).Claims other s) := by
    intro store' hstore'
    constructor
    · intro hinitiating
      exact (hclocked.stores s store' hstore' hinitiating).resolve_right fun hnot => hnot (hconfig store' hstore')
    · rintro ⟨other, hclaims⟩
      exact (hstarted.after actions).claimed.initiating other s store' hclaims hstore'
  refine ⟨fun hlong => ?_, fun result hover => ?_, hclaimed, fun store' first second hstore' hidle hnone => ?_⟩
  · rw [← Option.ne_none_iff_isSome]
    intro hrunning
    obtain ⟨stage, hcall, hle⟩ := toGo_after hw ht hstands.calls hrunning
    have hpos : 0 < stage.toGo := CallStage.toGo_pos (s := s) (by rwa [result?, hcall] at hrunning)
    exact Nat.not_lt.mpr hlong (Nat.lt_of_lt_of_le (Nat.lt_add_of_pos_right hpos) hle)
  · obtain ⟨store', hstore'⟩ := Option.isSome_iff_exists.mp ((hstarted.after actions).sound.2.called id _ hover)
    have htells : store'.config.TellsOf (started.after actions).now result := hclocked.calls id _ store' hover hstore'
    rcases result with (failure | _) | ⟨⟩
    · exact .inr ⟨failure, rfl⟩
    · exact absurd (hconfig store' hstore') htells
    · exact .inl rfl
  · have hfree : store'.initiating = false := by
      rw [← Bool.not_eq_true, hclaimed store' hstore']
      exact not_exists.mpr hnone
    exact (stands_startInitiation hstore').begins hidle hfree first second

set_option maxRecDepth 10000 in
theorem initiation_returns_after_hangUp :
    let store := { sampleStore with initiating := false }
    let w := (initial (.above 4096 4096) .zero).after [.createStore .keyValue sampleStore.config .loopback]
    let started := (w.startInitiation 1).2
    let actions := sampleMoves 5 ++ [.connect 7000, .hangUp 2] ++ sampleMoves 7
    let next := (started.after actions).startInitiation 1
    w.Reachable ∧ w.stores[1]? = some store ∧ store.config.IsSound w.now ∧ started.Returns 2 1 actions ∧
      (started.after actions).result? (.call 2) = some (.error (.failed (.transport (.peerWentAway 2)))) ∧
      ∃ store' : Store, store'.initiating = false ∧
        (next.2.after (moves next.1 [false, false])).Stands next.1 1 store'.claimed
          (.initiate (.start store'.config)) := by
  intro store w started actions next
  have hreach : w.Reachable := ⟨.above 4096 4096, .zero, _, rfl⟩
  have hstore : w.stores[1]? = some store := by rfl
  have hsound : store.config.IsSound w.now := ⟨⟨by rintro limit ⟨⟩, by decide +kernel⟩, by decide⟩
  have hreturns : started.Returns 2 1 actions := initiation_returns hreach hstore hsound actions
  have hfailed : (started.after actions).result? (.call 2) =
      some (.error (.failed (.transport (.peerWentAway 2)))) := by decide +kernel
  have hended : (started.after actions).stores[1]?.any fun store => !store.initiating && store.active.isNone := by
    decide +kernel
  obtain ⟨store', hstore', hidle⟩ := (Option.any_eq_true ..).mp hended
  simp only [Bool.and_eq_true, Bool.not_eq_true', Option.isNone_iff_eq_none] at hidle
  have hnone : ∀ other, ¬(started.after actions).Claims other 1 := by
    intro other hclaims
    rw [(hreturns.claimed store' hstore').mpr ⟨other, hclaims⟩] at hidle
    exact Bool.false_ne_true hidle.1.symm
  have hagain := hreturns.again store' false false hstore' hidle.2 hnone
  exact ⟨hreach, hstore, hsound, hreturns, hfailed, store', hidle.1, hagain⟩

end World

end RemoteSlots
