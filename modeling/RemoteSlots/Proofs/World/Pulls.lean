import RemoteSlots.Proofs.World.Stays

/-!
This module shows what moves the cursor that all readers of a log share: pulls of this log, one by one or many at once,
and nothing else.
-/

namespace RemoteSlots

open Std

namespace Cursor

theorem advanceBy_add (capacity m n position : Nat) :
    advanceBy capacity (m + n) position = advanceBy capacity n (advanceBy capacity m position) := by
  induction m generalizing position with
  | zero => rw [Nat.zero_add, advanceBy]
  | succ m ih => rw [Nat.add_right_comm, advanceBy, advanceBy, ih]

end Cursor

namespace Store

def pulled (store : Store) (pulls : Nat) : Store :=
  { store with tail := Cursor.advanceBy store.config.capacity pulls store.tail }

theorem pulled_zero (store : Store) : store.pulled 0 = store := rfl

theorem pulled_pulled (store : Store) (m n : Nat) : (store.pulled m).pulled n = store.pulled (m + n) := by
  simp only [pulled, Cursor.advanceBy_add]

end Store

theorem CallStage.tail_update (stage : CallStage) (store : Store) : (stage.update store).tail = store.tail := by
  unfold update
  split <;> rfl

namespace World

variable {w : World} {s : StoreId} {store store' : Store} {action : Action}

def isReady (w : World) (s : StoreId) : Bool := w.stores[s]?.any (·.isReady)

def areReady (w : World) (ids : List StoreId) : Bool := ids.all fun id => w.stores[id]?.all (·.isReady)

def pullsOf (s : StoreId) (w : World) : Action → Nat
  | .pull id => if id = s && w.isReady s then 1 else 0
  | .pullLogs ids pulls => if w.isReady s && w.areReady ids then pulls * ids.count s else 0
  | _ => 0

theorem stores_pullMany (pulls : Nat) (ids : List StoreId) :
    (ids.foldl (pullMany · pulls) w).stores[s]? = w.stores[s]?.map (·.pulled (pulls * ids.count s)) := by
  induction ids generalizing w with
  | nil => simp [Store.pulled_zero]
  | cons id ids ih =>
    rw [List.foldl_cons, ih, pullMany, TreeMap.getElem?_modify]
    split
    · next hid =>
      rw [Std.compare_eq_iff_eq.mp hid, List.count_cons_self, Option.map_map]
      congr 1
      funext store
      exact (store.pulled_pulled ..).trans (by rw [Nat.mul_succ, Nat.add_comm])
    · next hid =>
      rw [List.count_cons_of_ne (by simpa using hid)]

theorem benchmarkLogs_of_ready {ids : List StoreId} (h : w.areReady ids) (pulls : Nat) :
    w.benchmarkLogs ids pulls =
      .ok ({ logs := ids.length, pullsPerLog := pulls }, ids.foldl (pullMany · pulls) w) := by
  have hnone : (ids.filterMap (w.stores[·]?)).find? (!·.isReady) = none := by
    rw [List.find?_eq_none]
    intro store hstore
    obtain ⟨id, hid, hfound⟩ := List.mem_filterMap.mp hstore
    have hready := List.all_eq_true.mp h id hid
    rw [hfound] at hready
    simpa using hready
  rw [benchmarkLogs, hnone]

theorem benchmarkLogs_of_not_ready {ids : List StoreId} (h : ¬w.areReady ids) (pulls : Nat) :
    ∃ id ∈ ids, ∃ store, w.stores[id]? = some store ∧ store.isReady = false ∧
      w.benchmarkLogs ids pulls = .error (.notReady store.config.name) := by
  rcases hfind : (ids.filterMap (w.stores[·]?)).find? (!·.isReady) with _ | store
  · refine absurd (List.all_eq_true.mpr fun id hid => ?_) h
    rcases hstore : w.stores[id]? with _ | store
    · rfl
    · have hready := List.find?_eq_none.mp hfind store (List.mem_filterMap.mpr ⟨id, hid, hstore⟩)
      simpa using hready
  · have hready := List.find?_some hfind
    obtain ⟨id, hid, hstore⟩ := List.mem_filterMap.mp (List.mem_of_find?_eq_some hfind)
    refine ⟨id, hid, store, hstore, by simpa using hready, ?_⟩
    rw [benchmarkLogs, hfind]

theorem storage_of_ready (h : store.isReady) :
    ∃ storage : Storage .append, store.storage .append = .ok storage ∧ storage.capacity = store.config.capacity := by
  obtain ⟨active, hactive⟩ := Option.isSome_iff_exists.mp h
  exact ⟨_, storage_of_active hactive .append, rfl⟩

theorem storage_of_not_ready (h : store.isReady = false) (layout : Layout) :
    store.storage layout = .error (.notReady store.config.name) := by
  have hactive : store.active = none := Option.isSome_eq_false_iff.mp h |> Option.isNone_iff_eq_none.mp
  simp only [Store.storage, Store.active?, hactive]

theorem stores_pull (hstore : w.stores[s]? = some store) (hready : store.isReady) :
    (w.act (.pull s)).stores = w.stores.insert s (store.pulled 1) := by
  obtain ⟨storage, hstorage, hcapacity⟩ := storage_of_ready hready
  simp only [act, withStore, hstore, pull, hstorage, bind, Except.bind, pure, Except.pure, Except.map, orElse,
    Cursor.pull, hcapacity]
  rfl

theorem act_pull_of_not_ready (h : w.isReady s = false) : w.act (.pull s) = w := by
  simp only [act, withStore]
  rcases hstore : w.stores[s]? with _ | store
  · rfl
  · rw [isReady, hstore] at h
    simp only [pull, storage_of_not_ready h]
    rfl

theorem act_pullLogs_of_not_ready {ids : List StoreId} (h : ¬w.areReady ids) (pulls : Nat) :
    w.act (.pullLogs ids pulls) = w := by
  obtain ⟨_, _, _, -, -, hrefused⟩ := benchmarkLogs_of_not_ready h pulls
  simp only [act, hrefused]
  rfl

theorem act_pullLogs_of_ready {ids : List StoreId} (h : w.areReady ids) (pulls : Nat) :
    w.act (.pullLogs ids pulls) = ids.foldl (pullMany · pulls) w := by
  simp only [act, benchmarkLogs_of_ready h]
  rfl

theorem tail_act_of_not_pull (h : w.Sound) (ht : w.Tidy) (hpull : ∀ id, action ≠ .pull id)
    (hpulls : ∀ ids pulls, action ≠ .pullLogs ids pulls) (hstore : w.stores[s]? = some store)
    (hstore' : (w.act action).stores[s]? = some store') : store'.tail = store.tail := by
  have hsame : ∀ w' : World, w'.stores[s]? = w.stores[s]? → w'.stores[s]? = some store' →
      store'.tail = store.tail := by
    intro w' heq hfound
    rw [Option.some.inj (hfound.symm.trans (heq.trans hstore))]
  have hmodify : ∀ (w' : World) (id : StoreId) (f : Store → Store), (∀ store, (f store).tail = store.tail) →
      w'.stores = w.stores.modify id f → w'.stores[s]? = some store' → store'.tail = store.tail := by
    intro w' id f hf heq hfound
    rw [heq, TreeMap.getElem?_modify] at hfound
    split at hfound
    · next hid =>
      rw [Std.compare_eq_iff_eq.mp hid, hstore] at hfound
      rw [← Option.some.inj hfound]
      exact hf store
    · rw [Option.some.inj (hfound.symm.trans hstore)]
  have hreap : ∀ (w' : World) (id : StoreId), (w'.reap id).stores[s]? = some store' →
      w'.stores[s]? = some store' := by
    intro w' id hfound
    rcases stores_reap w' id s with heq | ⟨hnone, -⟩
    · exact heq.symm.trans hfound
    · rw [hnone] at hfound
      contradiction
  by_cases hplain : action.isPlain
  · obtain ⟨_, _, _, heq⟩ := h.sameRegistry_act hplain
    exact hsame _ (by rw [heq]) hstore'
  · cases action with
    | pull id => exact absurd rfl (hpull id)
    | pullLogs ids pulls => exact absurd rfl (hpulls ids pulls)
    | step task expired =>
      rcases stores_step ht task expired s with heq | ⟨old, stage, hold, heq⟩
      · exact hsame _ heq hstore'
      · obtain rfl := Option.some.inj (hstore.symm.trans hold)
        rw [← Option.some.inj (heq.symm.trans hstore')]
        exact stage.tail_update store
    | createStore layout config fabric =>
      refine hsame _ ?_ hstore'
      simp only [act, createStore]
      rcases Store.new layout config fabric with failure | store'
      · rfl
      · have hle := ht.stores_le s store hstore
        simp only [orElse, bind, Except.bind, pure, Except.pure, Except.map, getElem?_insert_stores]
        exact if_neg (Nat.ne_of_gt (Nat.lt_succ_of_le hle))
    | initiate id =>
      refine hsame _ ?_ hstore'
      simp only [act, withStore]
      split <;> rfl
    | endCall id =>
      simp only [act, endCall] at hstore'
      split at hstore'
      · split at hstore'
        · exact hsame _ rfl hstore'
        · exact hsame { w with calls := w.calls.erase id } rfl (hreap _ _ hstore')
      · exact hsame _ rfl hstore'
    | dropStore id =>
      exact hmodify _ id (fun store => { store with dropped := true }) (fun _ => rfl) rfl (hreap _ _ hstore')
    | cancelStore id cancelled =>
      exact hmodify _ id (fun store => { store with cancelled }) (fun _ => rfl) rfl hstore'
    | startSession id operation =>
      rcases act_startSession w id operation with heq | ⟨_, _, -, -, -, heq⟩
      · exact hsame _ (by rw [heq]) hstore'
      · exact hsame _ (by rw [heq]) hstore'
    | createSession | cancelSession | createScript => exact hsame _ rfl hstore'
    | dropSession id => exact hsame _ (by rw [stores_act_dropSession]) hstore'
    | _ => exact absurd rfl hplain

theorem isReady_eq (hstore : w.stores[s]? = some store) : w.isReady s = store.isReady := by
  rw [isReady, hstore, Option.any_some]

theorem tail_act (h : w.Sound) (ht : w.Tidy) (hstore : w.stores[s]? = some store)
    (hstore' : (w.act action).stores[s]? = some store') :
    store'.tail = (store.pulled (w.pullsOf s action)).tail := by
  -- One pull, many pulls, and all other actions, which pull nothing.
  by_cases hpull : ∃ id, action = .pull id
  · obtain ⟨id, rfl⟩ := hpull
    simp only [pullsOf]
    rcases hready : w.isReady id with _ | _
    · rw [act_pull_of_not_ready hready, hstore] at hstore'
      obtain rfl := Option.some.inj hstore'
      rw [if_neg]
      · rfl
      · simp only [Bool.and_eq_true, decide_eq_true_eq, not_and]
        rintro rfl hready'
        rw [hready] at hready'
        contradiction
    · obtain ⟨log, hlog, hlogReady⟩ := Option.any_eq_true _ _ |>.mp hready
      rw [stores_pull hlog hlogReady, getElem?_insert_stores] at hstore'
      split at hstore'
      · next heq =>
        subst heq
        obtain rfl := Option.some.inj (hstore.symm.trans hlog)
        rw [← Option.some.inj hstore', if_pos (by simp [hready])]
      · next hne =>
        rw [if_neg (by simp [hne]), ← Option.some.inj (hstore.symm.trans hstore')]
        rfl
  · by_cases hpulls : ∃ ids pulls, action = .pullLogs ids pulls
    · obtain ⟨ids, pulls, rfl⟩ := hpulls
      simp only [pullsOf]
      by_cases hready : w.areReady ids
      · rw [act_pullLogs_of_ready hready, stores_pullMany, hstore] at hstore'
        rw [← Option.some.inj hstore']
        by_cases hmem : s ∈ ids
        · have hlog := List.all_eq_true.mp hready s hmem
          rw [hstore] at hlog
          rw [if_pos]
          simp [isReady_eq hstore, hready, show store.isReady from hlog]
        · rw [List.count_eq_zero_of_not_mem hmem, Nat.mul_zero, ite_self]
      · rw [act_pullLogs_of_not_ready hready, hstore] at hstore'
        rw [← Option.some.inj hstore', if_neg (by simp [hready])]
        rfl
    · have hzero : w.pullsOf s action = 0 := by
        unfold pullsOf
        split
        · exact absurd ⟨_, rfl⟩ hpull
        · exact absurd ⟨_, _, rfl⟩ hpulls
        · rfl
      rw [hzero]
      exact tail_act_of_not_pull h ht (fun id heq => hpull ⟨id, heq⟩)
        (fun ids pulls heq => hpulls ⟨ids, pulls, heq⟩) hstore hstore'

/--
Whether two worlds agree in everything that can be looked up.
-/
structure Tallies (w w' : World) : Prop where
  stores : ∀ s : StoreId, w'.stores[s]? = w.stores[s]?
  rest : { w' with stores := w.stores } = w

theorem stores_act_pull {id : StoreId} (hready : w.stores[id]?.all (·.isReady)) :
    (w.act (.pull id)).stores[s]? = w.stores[s]?.map (·.pulled (if id = s then 1 else 0)) := by
  rcases hlog : w.stores[id]? with _ | log
  · have hsame : w.act (.pull id) = w := by
      simp only [act, withStore, hlog]
    rw [hsame]
    split
    · next heq =>
      rw [← heq, hlog]
      rfl
    · simp [Store.pulled_zero]
  · rw [hlog] at hready
    rw [stores_pull hlog hready, getElem?_insert_stores]
    split
    · next heq =>
      rw [← heq, hlog]
      rfl
    · simp [Store.pulled_zero]

theorem areReady_act_pull {id : StoreId} {ids : List StoreId} (hid : w.stores[id]?.all (·.isReady))
    (hready : w.areReady ids) : (w.act (.pull id)).areReady ids := by
  refine List.all_eq_true.mpr fun other hother => ?_
  have hlog := List.all_eq_true.mp hready other hother
  rw [stores_act_pull hid]
  rcases hstore : w.stores[other]? with _ | store
  · rfl
  · rw [hstore] at hlog
    exact hlog

theorem stores_pulls {singles : List StoreId} (hready : w.areReady singles) :
    (w.after (singles.map .pull)).stores[s]? = w.stores[s]?.map (·.pulled (singles.count s)) := by
  induction singles generalizing w with
  | nil => simp [after, Store.pulled_zero]
  | cons id singles ih =>
    obtain ⟨hid, hrest⟩ := Bool.and_eq_true _ _ |>.mp (List.all_cons.symm.trans hready)
    have hnext : (w.after ((id :: singles).map .pull)).stores[s]? =
        ((w.act (.pull id)).after (singles.map .pull)).stores[s]? := rfl
    rw [hnext, ih (areReady_act_pull hid hrest), stores_act_pull hid, Option.map_map]
    congr 1
    funext store
    refine (store.pulled_pulled ..).trans (congrArg _ ?_)
    rw [List.count_cons, Nat.add_comm]
    simp

theorem rest_act_pull (w : World) (id : StoreId) : { w.act (.pull id) with stores := w.stores } = w := by
  simp only [act, withStore]
  split
  · rfl
  · next store _ =>
    rcases hstorage : store.storage .append with failure | storage
    · simp only [pull, hstorage]
      rfl
    · simp only [pull, hstorage]
      rfl

theorem rest_pulls (w : World) (singles : List StoreId) :
    { w.after (singles.map .pull) with stores := w.stores } = w := by
  induction singles generalizing w with
  | nil => rfl
  | cons id singles ih =>
    have hfirst := rest_act_pull w id
    have hrest := congrArg (fun w' : World => { w' with stores := w.stores }) (ih (w.act (.pull id)))
    exact hrest.trans hfirst

theorem rest_pullMany (w : World) (pulls : Nat) (ids : List StoreId) :
    { ids.foldl (pullMany · pulls) w with stores := w.stores } = w := by
  induction ids generalizing w with
  | nil => rfl
  | cons id ids ih => exact congrArg (fun w' : World => { w' with stores := w.stores }) (ih (w.pullMany pulls id))

theorem count_flatMap_replicate (s : StoreId) (ids : List StoreId) (pulls : Nat) :
    (ids.flatMap (List.replicate pulls)).count s = pulls * ids.count s := by
  induction ids with
  | nil => rfl
  | cons id ids ih =>
    rw [List.flatMap_cons, List.count_append, ih, List.count_replicate, List.count_cons]
    split
    · rw [Nat.mul_succ, Nat.add_comm]
    · rw [Nat.zero_add, Nat.add_zero]

theorem tallies_pulls {ids : List StoreId} (hready : w.areReady ids) (pulls : Nat) {singles : List StoreId}
    (hperm : singles.Perm (ids.flatMap (List.replicate pulls))) :
    (w.act (.pullLogs ids pulls)).Tallies (w.after (singles.map .pull)) := by
  have hsingles : w.areReady singles := by
    refine List.all_eq_true.mpr fun id hid => ?_
    obtain ⟨other, hother, hmem⟩ := List.mem_flatMap.mp (hperm.mem_iff.mp hid)
    obtain rfl := (List.mem_replicate.mp hmem).2
    exact List.all_eq_true.mp hready id hother
  rw [act_pullLogs_of_ready hready]
  constructor
  · intro s
    rw [stores_pulls hsingles, stores_pullMany, hperm.count_eq, count_flatMap_replicate]
  · -- Both worlds are the old one but for the stores.
    have hsingle := congrArg (fun w' : World => { w' with stores := (ids.foldl (pullMany · pulls) w).stores })
      (rest_pulls w singles)
    have hmany := congrArg (fun w' : World => { w' with stores := (ids.foldl (pullMany · pulls) w).stores })
      (rest_pullMany w pulls ids)
    exact hsingle.trans hmany.symm

theorem benchmarkLog_cases (hstore : w.stores[s]? = some store) (pulls : Nat) :
    (store.isReady ∧ w.benchmarkLog store s pulls =
        .ok ({ logs := 1, pullsPerLog := pulls }, w.act (.pullLogs [s] pulls))) ∨
      (store.isReady = false ∧ pulls ≠ 0 ∧
        w.benchmarkLog store s pulls = .error (.notReady store.config.name)) ∨
      (store.isReady = false ∧ pulls = 0 ∧ ∃ w', w.benchmarkLog store s pulls =
        .ok ({ logs := 1, pullsPerLog := pulls }, w') ∧ w.Tallies w') := by
  rcases hready : store.isReady with _ | _
  · by_cases hzero : pulls = 0
    · subst hzero
      refine .inr (.inr ⟨rfl, rfl, w.pullMany 0 s, by simp [benchmarkLog], fun s' => ?_, rfl⟩)
      have hsame := stores_pullMany (w := w) (s := s') 0 [s]
      rw [Nat.zero_mul] at hsame
      simpa [Store.pulled_zero] using hsame
    · exact .inr (.inl ⟨rfl, hzero, by simp [benchmarkLog, hready, hzero]⟩)
  · have hall : w.areReady [s] := by simp [areReady, hstore, hready]
    refine .inl ⟨rfl, ?_⟩
    rw [act_pullLogs_of_ready hall]
    simp [benchmarkLog, hready]

end World

end RemoteSlots
