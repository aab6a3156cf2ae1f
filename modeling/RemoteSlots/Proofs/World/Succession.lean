import RemoteSlots.Proofs.World.Stays

/-!
This module shows where the stores and calls of a world come from: each of them was there before the last action,
came into being with it, or made the move that the action is.
-/

namespace RemoteSlots

open Std

namespace World

variable {w : World}

inductive CallSource (w : World) (action : Action) (id : CallId) (call' : Call) : Prop
  | kept (hcall : w.calls[id]? = some call')
  | started (hstage : call'.stage = .check)
  | moved {call : Call} {store : Store} {expired : Bool} (hmove : action = .step (.call id) expired)
    (hcall : w.calls[id]? = some call) (hstore : w.stores[call.store]? = some store)
    (hstage : call' = { call with
      stage :=
        (w.perform store.fabric (call.stage.next store { cancelled := store.cancelled, expired, now := w.now })).1 })

/--
Where a store comes from that is there after an action.
-/
inductive StoreSource (w : World) (action : Action) (s : StoreId) (store' : Store) : Prop
  | kept {store : Store} (hstore : w.stores[s]? = some store) (hsame : store.SameAs store')
  | created {layout : Layout} {config : StoreConfig} {fabric : FabricId}
    (hcreate : action = .createStore layout config fabric) (hnew : Store.new layout config fabric = .ok store')
  | moved {id : CallId} {call : Call} {store : Store} {expired : Bool}
    (hmove : action = .step (.call id) expired) (hcall : w.calls[id]? = some call) (hown : call.store = s)
    (hstore : w.stores[s]? = some store) (hupdate : store' = call.stage.update store)

theorem callSource_act (h : w.Sound) (ht : w.Tidy) {action : Action} {id : CallId} {call' : Call}
    (hcall' : (w.act action).calls[id]? = some call') : w.CallSource action id call' := by
  by_cases hstep : ∃ task expired, action = .step task expired
  · obtain ⟨task, expired, rfl⟩ := hstep
    cases task with
    | session other =>
      apply CallSource.kept
      simp only [act, step] at hcall'
      split at hcall'
      · exact hcall'
      · next session _ =>
        have hcalls : (w.stepSession other session expired).2.calls = w.calls := calls_perform ..
        rwa [hcalls] at hcall'
    | call other =>
      rcases hcall : w.calls[other]? with _ | call
      · simp only [act, step, hcall] at hcall'
        exact .kept hcall'
      · obtain ⟨store, hstore⟩ := Option.isSome_iff_exists.mp (ht.called other call hcall)
        rw [act_step hcall hstore, (stepCall_spec hcall hstore expired).calls] at hcall'
        split at hcall'
        · next heq =>
          subst heq
          exact .moved rfl hcall hstore (Option.some.inj hcall').symm
        · exact .kept hcall'
  · have hcarries := carries_act h ht fun task expired heq => hstep ⟨task, expired, heq⟩
    rcases hcarries.calls id call' hcall' with hcall | ⟨-, -, hstage, -⟩
    · exact .kept hcall
    · exact .started hstage

theorem isSome_stores_modify (stores : TreeMap StoreId Store) (id s : StoreId) (f : Store → Store) :
    (stores.modify id f)[s]?.isSome = stores[s]?.isSome := by
  rw [TreeMap.getElem?_modify]
  split
  · next heq => rw [Std.compare_eq_iff_eq.mp heq, Option.isSome_map]
  · rfl

theorem isSome_stores_pullMany (pulls : Nat) (ids : List StoreId) (s : StoreId) :
    (ids.foldl (pullMany · pulls) w).stores[s]?.isSome = w.stores[s]?.isSome := by
  induction ids generalizing w with
  | nil => rfl
  | cons id ids ih => exact ih.trans (isSome_stores_modify ..)

theorem isSome_of_reap {id s : StoreId} (h : (w.reap id).stores[s]?.isSome) : w.stores[s]?.isSome := by
  rcases reap_eq w id with heq | ⟨store, -, -, heq⟩
  · rwa [heq] at h
  · obtain ⟨_, _, _, hserve⟩ := sameRegistry_serveAll w store.fabric store.custody.release
    rw [heq, hserve, TreeMap.getElem?_erase] at h
    split at h
    · contradiction
    · exact h

theorem isSome_of_act (h : w.Sound) (ht : w.Tidy) {action : Action} {s : StoreId}
    (hcreate : ∀ layout config fabric, action ≠ .createStore layout config fabric)
    (hsome : (w.act action).stores[s]?.isSome) : w.stores[s]?.isSome := by
  by_cases hplain : action.isPlain
  · obtain ⟨_, _, _, heq⟩ := h.sameRegistry_act hplain
    rwa [heq] at hsome
  · cases action with
    | step task expired =>
      rcases stores_step ht task expired s with heq | ⟨store, stage, hstore, -⟩
      · rwa [heq] at hsome
      · rw [hstore]
        rfl
    | createStore layout config fabric => exact absurd rfl (hcreate layout config fabric)
    | initiate id =>
      simp only [act, withStore] at hsome
      split at hsome <;> exact hsome
    | endCall id =>
      simp only [act, endCall] at hsome
      split at hsome
      · split at hsome
        · exact hsome
        · have hreaped : ({ w with calls := w.calls.erase id } : World).stores[s]?.isSome := isSome_of_reap hsome
          exact hreaped
      · exact hsome
    | dropStore id =>
      have hmodified := isSome_of_reap hsome
      rwa [isSome_stores_modify] at hmodified
    | cancelStore id cancelled =>
      simp only [act, setCancelled] at hsome
      rwa [isSome_stores_modify] at hsome
    | pull id =>
      simp only [act, withStore] at hsome
      split at hsome
      · exact hsome
      · next store hstore =>
        simp only [pull] at hsome
        rcases hstorage : store.storage .append with failure | storage
        · rwa [hstorage] at hsome
        · rw [hstorage] at hsome
          simp only [orElse, bind, Except.bind, pure, Except.pure, Except.map, getElem?_insert_stores] at hsome
          split at hsome
          · next heq =>
            rw [← heq, hstore]
            rfl
          · exact hsome
    | pullLogs ids pulls =>
      simp only [act, benchmarkLogs] at hsome
      split at hsome
      · exact hsome
      · simpa only [orElse, Except.map, isSome_stores_pullMany] using hsome
    | startSession id operation =>
      rcases act_startSession w id operation with heq | ⟨_, _, -, -, -, heq⟩
      · rwa [heq] at hsome
      · rwa [heq] at hsome
    | createSession | cancelSession | createScript => exact hsome
    | dropSession id => rwa [stores_act_dropSession] at hsome
    | _ => exact absurd rfl hplain

theorem storeSource_act (h : w.Sound) (ht : w.Tidy) {action : Action} {s : StoreId} {store' : Store}
    (hstore' : (w.act action).stores[s]? = some store') : w.StoreSource action s store' := by
  by_cases hstep : ∃ task expired, action = .step task expired
  · obtain ⟨task, expired, rfl⟩ := hstep
    cases task with
    | session id =>
      have hstores : (w.act (.step (.session id) expired)).stores = w.stores := by
        simp only [act, step]
        split
        · rfl
        · exact stores_perform ..
      rw [hstores] at hstore'
      exact .kept hstore' (.refl store')
    | call id =>
      rcases hcall : w.calls[id]? with _ | call
      · simp only [act, step, hcall] at hstore'
        exact .kept hstore' (.refl store')
      · obtain ⟨store, hstore⟩ := Option.isSome_iff_exists.mp (ht.called id call hcall)
        rw [act_step hcall hstore, (stepCall_spec hcall hstore expired).stores] at hstore'
        split at hstore'
        · next hown =>
          rw [hown] at hstore
          exact .moved rfl hcall hown hstore (Option.some.inj hstore').symm
        · exact .kept hstore' (.refl store')
  · rcases hstore : w.stores[s]? with _ | store
    · by_cases hcreate : ∃ layout config fabric, action = .createStore layout config fabric
      · obtain ⟨layout, config, fabric, rfl⟩ := hcreate
        simp only [act, createStore] at hstore'
        rcases hnew : Store.new layout config fabric with failure | store
        · rw [hnew] at hstore'
          exact absurd (hstore'.symm.trans hstore) (Option.some_ne_none _)
        · rw [hnew] at hstore'
          simp only [orElse, bind, Except.bind, pure, Except.pure, Except.map, getElem?_insert_stores] at hstore'
          split at hstore'
          · injection hstore' with hstore'
            exact .created rfl (hstore' ▸ hnew)
          · rw [hstore] at hstore'
            contradiction
      · have hsome := isSome_of_act h ht (fun layout config fabric heq => hcreate ⟨layout, config, fabric, heq⟩)
          (Option.isSome_of_eq_some hstore')
        rw [hstore] at hsome
        contradiction
    · have hcarries := carries_act h ht fun task expired heq => hstep ⟨task, expired, heq⟩
      rcases hcarries.stores s store' hstore' with ⟨old, hold, hsame⟩ | ⟨hlt, -⟩
      · exact .kept hold hsame
      · exact absurd (ht.stores_le s store hstore) (Nat.not_le_of_lt hlt)

end World

end RemoteSlots
