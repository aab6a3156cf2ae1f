import RemoteSlots.Proofs.World.Run

/-!
This module shows that a store stays until it is dropped, and that a ready one keeps what it became ready
with.
-/

namespace RemoteSlots

open Std

structure Store.Retains (store store' : Store) : Prop where
  setup : store.SameSetup store'
  active : ∀ active, store.active = some active → store'.active = some active

theorem Store.Retains.refl (store : Store) : store.Retains store := ⟨⟨rfl, rfl, rfl⟩, fun _ h => h⟩

theorem Store.Retains.trans {a b c : Store} (hab : a.Retains b) (hbc : b.Retains c) : a.Retains c where
  setup :=
    { layout := hbc.setup.layout.trans hab.setup.layout
      config := hbc.setup.config.trans hab.setup.config
      fabric := hbc.setup.fabric.trans hab.setup.fabric }
  active := fun active h => hbc.active active (hab.active active h)

/--
What an action can make of a store.
-/
inductive Store.Changes (s : StoreId) (store : Store) : Action → Option Store → Prop
  | same {action : Action} : Changes s store action (some store)
  | moved {task : Task} {expired : Bool} (stage : CallStage) :
    Changes s store (.step task expired) (some (stage.update store))
  | cancelled (cancelled : Bool) : Changes s store (.cancelStore s cancelled) (some { store with cancelled })
  | dropped : Changes s store (.dropStore s) (some { store with dropped := true })
  | pulled {action : Action} (tail : Nat) : Changes s store action (some { store with tail })
  | gone {action : Action} (h : store.dropped ∨ action = .dropStore s) : Changes s store action none

theorem CallStage.dropped_update (stage : CallStage) (store : Store) :
    (stage.update store).dropped = store.dropped := by
  unfold update
  split <;> rfl

theorem CallStage.cancelled_update (stage : CallStage) (store : Store) :
    (stage.update store).cancelled = store.cancelled := by
  unfold update
  split <;> rfl

namespace World

variable {w : World} {s : StoreId} {store : Store}

theorem stores_step (ht : w.Tidy) (task : Task) (expired : Bool) (s : StoreId) :
    (w.act (.step task expired)).stores[s]? = w.stores[s]? ∨
      ∃ (store : Store) (stage : CallStage), w.stores[s]? = some store ∧
        (w.act (.step task expired)).stores[s]? = some (stage.update store) := by
  cases task with
  | session id =>
    simp only [act, step]
    split
    · exact .inl rfl
    · exact .inl (congrArg (·[s]?) (stores_perform ..))
  | call id =>
    rcases hcall : w.calls[id]? with _ | call
    · simp only [act, step, hcall]
      exact .inl True.intro
    · obtain ⟨store, hstore⟩ := Option.isSome_iff_exists.mp (ht.called id call hcall)
      rw [act_step hcall hstore expired, (stepCall_spec hcall hstore expired).stores]
      split
      · next heq => exact .inr ⟨store, call.stage, heq ▸ hstore, rfl⟩
      · exact .inl rfl

theorem stores_reap (w : World) (id s : StoreId) :
    (w.reap id).stores[s]? = w.stores[s]? ∨
      (w.reap id).stores[s]? = none ∧ id = s ∧ ∃ store, w.stores[s]? = some store ∧ store.dropped := by
  unfold reap
  rcases hstore : w.stores[id]? with _ | store
  · exact .inl rfl
  · dsimp only
    split
    · next hguard =>
      simp only [Bool.and_eq_true, Bool.not_eq_true'] at hguard
      have herased : (w.stores.erase id)[s]? = w.stores[s]? ∨
          (w.stores.erase id)[s]? = none ∧ id = s ∧ ∃ store, w.stores[s]? = some store ∧ store.dropped := by
        rw [TreeMap.getElem?_erase]
        split
        · next heq =>
          obtain rfl := Std.compare_eq_iff_eq.mp heq
          exact .inr ⟨rfl, rfl, store, hstore, hguard.1⟩
        · exact .inl rfl
      rcases store.active with _ | active
      · exact herased
      · obtain ⟨_, _, _, hserve⟩ := sameRegistry_serveAll w store.fabric active.phase.release
        simpa only [hserve] using herased
    · exact .inl rfl

theorem changes_modify (hstore : w.stores[s]? = some store) {action : Action} (id : StoreId) {f : Store → Store}
    (hf : id = s → store.Changes s action (some (f store))) :
    store.Changes s action (w.stores.modify id f)[s]? := by
  rw [TreeMap.getElem?_modify]
  split
  · next hid =>
    obtain rfl := Std.compare_eq_iff_eq.mp hid
    exact hstore ▸ hf rfl
  · exact hstore ▸ .same

theorem changes_pullMany (pulls : Nat) (ids : List StoreId) {action : Action}
    (hstore : ∃ tail, w.stores[s]? = some { store with tail }) :
    store.Changes s action (ids.foldl (pullMany · pulls) w).stores[s]? := by
  induction ids generalizing w with
  | nil =>
    obtain ⟨tail, hstore⟩ := hstore
    exact hstore ▸ .pulled tail
  | cons id ids ih =>
    obtain ⟨tail, hstore⟩ := hstore
    apply ih
    simp only [pullMany, TreeMap.getElem?_modify]
    split
    · next hid =>
      rw [Std.compare_eq_iff_eq.mp hid, hstore]
      exact ⟨_, rfl⟩
    · exact ⟨tail, hstore⟩

theorem changes_act (h : w.Sound) (ht : w.Tidy) (hstore : w.stores[s]? = some store) (action : Action) :
    store.Changes s action (w.act action).stores[s]? := by
  have hsame : ∀ {w' : World}, w'.stores[s]? = w.stores[s]? → store.Changes s action w'.stores[s]? := by
    intro w' heq
    rw [heq, hstore]
    exact .same
  by_cases hplain : action.isPlain
  · obtain ⟨_, _, _, heq⟩ := h.sameRegistry_act hplain
    exact hsame (by rw [heq])
  · cases action with
    | step task expired =>
      rcases stores_step ht task expired s with heq | ⟨old, stage, hold, heq⟩
      · exact hsame heq
      · obtain rfl := Option.some.inj (hstore.symm.trans hold)
        exact heq ▸ .moved stage
    | createStore layout config fabric =>
      simp only [act, createStore]
      rcases Store.new layout config fabric with failure | store'
      · exact hsame rfl
      · apply hsame
        have hle := ht.stores_le s store hstore
        simp only [orElse, bind, Except.bind, pure, Except.pure, Except.map, getElem?_insert_stores]
        exact if_neg (Nat.ne_of_gt (Nat.lt_succ_of_le hle))
    | initiate id =>
      simp only [act, withStore]
      split
      · exact hsame rfl
      · exact hsame rfl
    | endCall id =>
      simp only [act, endCall]
      split
      · split
        · exact hsame rfl
        · next call _ =>
          rcases stores_reap { w with calls := w.calls.erase id } call.store s with
            heq | ⟨hnone, -, old, hold, hdropped⟩
          · exact hsame heq
          · obtain rfl := Option.some.inj (hstore.symm.trans hold)
            exact hnone ▸ .gone (.inl hdropped)
      · exact hsame rfl
    | dropStore id =>
      simp only [act, dropStore]
      rcases stores_reap { w with
        stores := w.stores.modify id fun store => { store with dropped := true } } id s with heq | ⟨hnone, rfl, -⟩
      · rw [heq]
        exact changes_modify hstore id fun heq => heq ▸ .dropped
      · exact hnone ▸ .gone (.inr rfl)
    | cancelStore id cancelled => exact changes_modify hstore id fun heq => heq ▸ .cancelled cancelled
    | pull id =>
      simp only [act, withStore]
      split
      · exact hsame rfl
      · next store' hstore' =>
        simp only [pull]
        rcases store'.storage .append with failure | storage
        · exact hsame rfl
        · simp only [orElse, bind, Except.bind, pure, Except.pure, Except.map, getElem?_insert_stores]
          split
          · next heq =>
            obtain rfl := Option.some.inj (hstore.symm.trans (heq ▸ hstore'))
            exact .pulled _
          · exact hstore ▸ .same
    | pullLogs ids pulls =>
      simp only [act, benchmarkLogs]
      split
      · exact hsame rfl
      · exact changes_pullMany pulls ids ⟨store.tail, hstore⟩
    | startSession id operation =>
      rcases act_startSession w id operation with heq | ⟨_, _, -, -, -, heq⟩
      · exact hsame (by rw [heq])
      · exact hsame (by rw [heq])
    | createSession | cancelSession | createScript => exact hsame rfl
    | dropSession id => exact hsame (by rw [stores_act_dropSession])
    | _ => exact absurd rfl hplain

theorem stays_act (h : w.Sound) (ht : w.Tidy) (hstore : w.stores[s]? = some store)
    (hdropped : store.dropped = false) {action : Action} (hdrop : action ≠ .dropStore s) :
    ∃ store', (w.act action).stores[s]? = some store' ∧ store'.dropped = false := by
  have hchanges := changes_act h ht hstore action
  revert hchanges
  generalize (w.act action).stores[s]? = store'?
  intro hchanges
  cases hchanges with
  | same => exact ⟨store, rfl, hdropped⟩
  | moved stage => exact ⟨_, rfl, (stage.dropped_update store).trans hdropped⟩
  | cancelled | pulled => exact ⟨_, rfl, hdropped⟩
  | dropped => exact absurd rfl hdrop
  | gone hgone =>
    rcases hgone with htrue | heq
    · rw [hdropped] at htrue
      contradiction
    · exact absurd heq hdrop

theorem retains_update (stage : CallStage) (store : Store) : store.Retains (stage.update store) := by
  refine ⟨sameSetup_update .., fun active hactive => ?_⟩
  cases stage with
  | publish new => simp only [CallStage.update, hactive, Option.getD_some]
  | _ => exact hactive

theorem retains_act (h : w.Sound) (ht : w.Tidy) {action : Action} {store' : Store}
    (hstore : w.stores[s]? = some store) (hstore' : (w.act action).stores[s]? = some store') :
    store.Retains store' := by
  have hchanges := changes_act h ht hstore action
  rw [hstore'] at hchanges
  cases hchanges with
  | same => exact .refl store
  | moved stage => exact retains_update stage store
  | cancelled | dropped | pulled => exact ⟨⟨rfl, rfl, rfl⟩, fun _ hactive => hactive⟩

theorem gone_act (h : w.Sound) (ht : w.Tidy) (hs : s ≤ w.lastId) (hgone : w.stores[s]? = none)
    (action : Action) : (w.act action).stores[s]? = none := by
  rcases hstore' : (w.act action).stores[s]? with _ | store'
  · rfl
  · by_cases hstep : ∃ task expired, action = .step task expired
    · obtain ⟨task, expired, rfl⟩ := hstep
      rcases stores_step ht task expired s with heq | ⟨old, stage, hold, -⟩
      · exact hstore'.symm.trans (heq.trans hgone)
      · exact absurd (hold.symm.trans hgone) (by simp)
    · have hcarries := carries_act h ht fun task expired heq => hstep ⟨task, expired, heq⟩
      rcases hcarries.stores s store' hstore' with ⟨old, hold, -⟩ | ⟨hlt, -⟩
      · exact absurd (hold.symm.trans hgone) (by simp)
      · exact absurd hs (Nat.not_le_of_lt hlt)

theorem retains_after (h : w.Sound) (ht : w.Tidy) (hstore : w.stores[s]? = some store) (actions : List Action) :
    (∃ store', (w.after actions).stores[s]? = some store' ∧ store.Retains store' ∧
        (store.dropped = false → .dropStore s ∉ actions → store'.dropped = false)) ∨
      (w.after actions).stores[s]? = none ∧ (store.dropped ∨ .dropStore s ∈ actions) := by
  induction actions using List.reverseRecOn with
  | nil => exact .inl ⟨store, hstore, .refl store, fun hdropped _ => hdropped⟩
  | append_singleton actions action ih =>
    obtain ⟨h', ht', hle⟩ := after_spec h ht actions
    rw [after_concat]
    rcases ih with ⟨store', hstore', hretains, hdropped⟩ | ⟨hgone, hdropped⟩
    · by_cases hdrop : store.dropped = false ∧ .dropStore s ∉ actions ++ [action]
      · obtain ⟨hstay, hnot⟩ := hdrop
        simp only [List.mem_append, List.mem_singleton, not_or] at hnot
        obtain ⟨store'', hstore'', hdropped'⟩ := stays_act h' ht' hstore'
          (hdropped hstay hnot.1) (Ne.symm hnot.2)
        exact .inl ⟨store'', hstore'', hretains.trans (retains_act h' ht' hstore' hstore''), fun _ _ => hdropped'⟩
      · rcases hstore'' : ((w.after actions).act action).stores[s]? with _ | store''
        · refine .inr ⟨rfl, ?_⟩
          by_cases hstay : store.dropped = false
          · exact .inr (Classical.not_not.mp fun hnot => hdrop ⟨hstay, hnot⟩)
          · exact .inl (by simpa using hstay)
        · exact .inl ⟨store'', rfl, hretains.trans (retains_act h' ht' hstore' hstore''),
            fun hstay hnot => absurd ⟨hstay, hnot⟩ hdrop⟩
    · refine .inr ⟨gone_act h' ht' (Nat.le_trans (ht.stores_le s store hstore) hle) hgone action, ?_⟩
      exact hdropped.imp_right fun hmem => List.mem_append_left _ hmem

end World

end RemoteSlots
