import RemoteSlots.Proofs.World.Registry

/-!
This module shows that the invariant of ownership holds in every world that can come about.
-/

namespace RemoteSlots

open Std

structure Store.SameSetup (store store' : Store) : Prop where
  layout : store'.layout = store.layout
  config : store'.config = store.config
  fabric : store'.fabric = store.fabric

structure Store.SameAs (store store' : Store) : Prop where
  layout : store'.layout = store.layout
  config : store'.config = store.config
  fabric : store'.fabric = store.fabric
  initiating : store'.initiating = store.initiating
  active : store'.active = store.active

theorem Store.SameAs.setup {store store' : Store} (h : store.SameAs store') : store.SameSetup store' :=
  ⟨h.layout, h.config, h.fabric⟩

theorem Store.SameAs.refl (store : Store) : store.SameAs store := ⟨rfl, rfl, rfl, rfl, rfl⟩

theorem Store.SameAs.trans {a b c : Store} (hab : a.SameAs b) (hbc : b.SameAs c) : a.SameAs c where
  layout := hbc.layout.trans hab.layout
  config := hbc.config.trans hab.config
  fabric := hbc.fabric.trans hab.fabric
  initiating := hbc.initiating.trans hab.initiating
  active := hbc.active.trans hab.active

theorem Store.eq_of_new {layout : Layout} {config : StoreConfig} {fabric : FabricId} {store : Store}
    (h : Store.new layout config fabric = .ok store) :
    Metadata.wireLength ≤ config.capacity * layout.size ∧ store =
      { layout
        config
        fabric
        cancelled := false
        initiating := false
        active := none
        tail := config.capacity
        dropped := false } := by
  unfold Store.new at h
  split at h
  · contradiction
  · split at h
    · contradiction
    · next hlong => exact ⟨Nat.not_lt.mp hlong, (Except.ok.inj h).symm⟩

namespace World

structure Tidy (w : World) : Prop where
  stores_le : ∀ (s : StoreId) (store : Store), w.stores[s]? = some store → s ≤ w.lastId
  calls_le : ∀ (id : CallId) (call : Call), w.calls[id]? = some call → id ≤ w.lastId
  called : ∀ (id : CallId) (call : Call), w.calls[id]? = some call → (w.stores[call.store]?).isSome

/--
What actions that are no moves do to stores and calls: new ones hold nothing, old ones stay as they are
until they are gone, and no store goes before its calls.
-/
structure Carries (w w' : World) : Prop where
  now : w'.now = w.now
  lastId_le : w.lastId ≤ w'.lastId
  stores : ∀ (s : StoreId) (store' : Store), w'.stores[s]? = some store' →
    (∃ store, w.stores[s]? = some store ∧ store.SameAs store') ∨
      w.lastId < s ∧ s ≤ w'.lastId ∧ store'.active = none
  calls : ∀ (id : CallId) (call' : Call), w'.calls[id]? = some call' → w.calls[id]? = some call' ∨
    w.lastId < id ∧ id ≤ w'.lastId ∧ call'.stage = .check ∧ (w'.stores[call'.store]?).isSome
  called : ∀ (id : CallId) (call : Call), w'.calls[id]? = some call → w.calls[id]? = some call →
    (w.stores[call.store]?).isSome → (w'.stores[call.store]?).isSome
  ended : ∀ (id : CallId) (call : Call), w.calls[id]? = some call →
    w'.calls[id]? = some call ∨ call.result?.isSome

namespace Carries

variable {w : World}

theorem refl (w : World) : w.Carries w where
  now := rfl
  lastId_le := Nat.le_refl _
  stores := fun _ store h => .inl ⟨store, h, .refl store⟩
  calls := fun _ _ h => .inl h
  called := fun _ _ _ _ h => h
  ended := fun _ _ h => .inl h

theorem trans {a b c : World} (hab : a.Carries b) (hbc : b.Carries c) : a.Carries c where
  now := hbc.now.trans hab.now
  lastId_le := Nat.le_trans hab.lastId_le hbc.lastId_le
  stores := by
    intro s store'' hstore
    rcases hbc.stores s store'' hstore with ⟨store', hstore', hsame⟩ | ⟨hlt, hle, hactive⟩
    · rcases hab.stores s store' hstore' with ⟨store, hstore, hsame'⟩ | ⟨hlt, hle, hactive⟩
      · exact .inl ⟨store, hstore, hsame'.trans hsame⟩
      · exact .inr ⟨hlt, Nat.le_trans hle hbc.lastId_le, hsame.active.trans hactive⟩
    · exact .inr ⟨Nat.lt_of_le_of_lt hab.lastId_le hlt, hle, hactive⟩
  calls := by
    intro id call hcall
    rcases hbc.calls id call hcall with hb | ⟨hlt, hle, hstage, hsome⟩
    · rcases hab.calls id call hb with ha | ⟨hlt, hle, hstage, hsome⟩
      · exact .inl ha
      · exact .inr ⟨hlt, Nat.le_trans hle hbc.lastId_le, hstage, hbc.called id call hcall hb hsome⟩
    · exact .inr ⟨Nat.lt_of_le_of_lt hab.lastId_le hlt, hle, hstage, hsome⟩
  called := by
    intro id call hc ha hsome
    rcases hbc.calls id call hc with hb | ⟨-, -, -, hsome'⟩
    · exact hbc.called id call hc hb (hab.called id call hb ha hsome)
    · exact hsome'
  ended := by
    intro id call ha
    rcases hab.ended id call ha with hb | hresult
    · exact hbc.ended id call hb
    · exact .inr hresult

theorem of_sameRegistry {w' : World} (h : w.SameRegistry w') : w.Carries w' := by
  obtain ⟨_, _, _, rfl⟩ := h
  exact ⟨rfl, Nat.le_refl _, fun _ store h => .inl ⟨store, h, .refl store⟩, fun _ _ h => .inl h,
    fun _ _ _ _ h => h, fun _ _ h => .inl h⟩

theorem modifyStore (w : World) (id : StoreId) {f : Store → Store}
    (hf : ∀ store : Store, store.SameAs (f store)) :
    w.Carries { w with stores := w.stores.modify id f } := by
  have hstores : ∀ s : StoreId, (w.stores.modify id f)[s]? =
      if id = s then w.stores[s]?.map f else w.stores[s]? := by
    intro s
    rw [TreeMap.getElem?_modify]
    simp only [Std.compare_eq_iff_eq]
    split
    · next h => rw [h]
    · rfl
  refine ⟨rfl, Nat.le_refl _, ?_, fun _ _ h => .inl h, ?_, fun _ _ h => .inl h⟩
  · intro s store' hstore
    simp only [hstores] at hstore
    split at hstore
    · rw [Option.map_eq_some_iff] at hstore
      obtain ⟨store, hstore, rfl⟩ := hstore
      exact .inl ⟨store, hstore, hf store⟩
    · exact .inl ⟨store', hstore, .refl store'⟩
  · intro _ call _ _ hsome
    simp only [hstores]
    split
    · simpa using hsome
    · exact hsome

theorem insertStore {id : StoreId} {store store' : Store} (hstore : w.stores[id]? = some store)
    (hsame : store.SameAs store') : w.Carries { w with stores := w.stores.insert id store' } := by
  refine ⟨rfl, Nat.le_refl _, ?_, fun _ _ h => .inl h, ?_, fun _ _ h => .inl h⟩
  · intro s other hother
    simp only [getElem?_insert_stores] at hother
    split at hother
    · next heq =>
      injection hother with hother
      exact .inl ⟨store, heq ▸ hstore, hother ▸ hsame⟩
    · exact .inl ⟨other, hother, .refl other⟩
  · intro _ call _ _ hsome
    simp only [getElem?_insert_stores]
    split
    · rfl
    · exact hsome

theorem createStore (w : World) {store : Store} (hactive : store.active = none) :
    w.Carries { w with lastId := w.lastId + 1, stores := w.stores.insert (w.lastId + 1) store } := by
  refine ⟨rfl, Nat.le_succ _, ?_, fun _ _ h => .inl h, ?_, fun _ _ h => .inl h⟩
  · intro s other hother
    simp only [getElem?_insert_stores] at hother
    split at hother
    · next heq =>
      injection hother with hother
      exact .inr ⟨heq ▸ Nat.lt_succ_self _, Nat.le_of_eq heq.symm, hother ▸ hactive⟩
    · exact .inl ⟨other, hother, .refl other⟩
  · intro _ call _ _ hsome
    simp only [getElem?_insert_stores]
    split
    · rfl
    · exact hsome

theorem startInitiation (hw : w.Tidy) {id : StoreId} (hstore : (w.stores[id]?).isSome) :
    w.Carries (w.startInitiation id).2 := by
  have hcalls : ∀ other : CallId, (w.startInitiation id).2.calls[other]? =
      if w.lastId + 1 = other then some { store := id, stage := .check } else w.calls[other]? := by
    intro other
    simp only [World.startInitiation, TreeMap.getElem?_insert, Std.compare_eq_iff_eq]
  refine ⟨rfl, Nat.le_succ _, fun _ store h => .inl ⟨store, h, .refl store⟩, ?_, fun _ _ _ _ h => h, ?_⟩
  · intro other call hcall
    rw [hcalls] at hcall
    split at hcall
    · next heq =>
      injection hcall with hcall
      subst hcall
      exact .inr ⟨heq ▸ Nat.lt_succ_self _, Nat.le_of_eq heq.symm, rfl, hstore⟩
    · exact .inl hcall
  · intro other call hcall
    have hle := hw.calls_le other call hcall
    rw [hcalls, if_neg (Nat.ne_of_gt (Nat.lt_succ_of_le hle))]
    exact .inl hcall

theorem eraseCall (w : World) {id : CallId} {call : Call} (hcall : w.calls[id]? = some call)
    (hrest : call.result?.isSome) : w.Carries { w with calls := w.calls.erase id } := by
  have hcalls : ∀ other : CallId, (w.calls.erase id)[other]? =
      if id = other then none else w.calls[other]? := by
    intro other
    simp only [TreeMap.getElem?_erase, Std.compare_eq_iff_eq]
  refine ⟨rfl, Nat.le_refl _, fun _ store h => .inl ⟨store, h, .refl store⟩, ?_, fun _ _ _ _ h => h, ?_⟩
  · intro other call' hcall'
    simp only [hcalls] at hcall'
    split at hcall'
    · contradiction
    · exact .inl hcall'
  · intro other call' hcall'
    simp only [hcalls]
    split
    · next heq =>
      rw [← heq, hcall] at hcall'
      injection hcall' with hcall'
      exact .inr (hcall' ▸ hrest)
    · exact .inl hcall'

theorem eraseStore (w : World) {id : StoreId}
    (hcalled : ∀ (other : CallId) (call : Call), w.calls[other]? = some call → call.store ≠ id) :
    w.Carries { w with stores := w.stores.erase id } := by
  have hstores : ∀ other : StoreId, (w.stores.erase id)[other]? =
      if id = other then none else w.stores[other]? := by
    intro other
    simp only [TreeMap.getElem?_erase, Std.compare_eq_iff_eq]
  refine ⟨rfl, Nat.le_refl _, ?_, fun _ _ h => .inl h, ?_, fun _ _ h => .inl h⟩
  · intro other store hstore
    simp only [hstores] at hstore
    split at hstore
    · contradiction
    · exact .inl ⟨store, hstore, .refl store⟩
  · intro other call hcall _ hsome
    simp only [hstores]
    rw [if_neg (Ne.symm (hcalled other call hcall))]
    exact hsome

theorem of_eq {w' : World} (hnow : w'.now = w.now) (hlastId : w.lastId ≤ w'.lastId)
    (hstores : w'.stores = w.stores) (hcalls : w'.calls = w.calls) : w.Carries w' where
  now := hnow
  lastId_le := hlastId
  stores := by
    rw [hstores]
    exact fun _ store h => .inl ⟨store, h, .refl store⟩
  calls := by
    rw [hcalls]
    exact fun _ _ h => .inl h
  called := by
    rw [hstores]
    exact fun _ _ _ _ h => h
  ended := by
    rw [hcalls]
    exact fun _ _ h => .inl h

end Carries

variable {w : World}

theorem reap_eq (w : World) (id : StoreId) :
    w.reap id = w ∨ ∃ store, w.stores[id]? = some store ∧ w.isCalled id = false ∧
      w.reap id = { w.serveAll store.fabric store.custody.release with
        stores := (w.serveAll store.fabric store.custody.release).stores.erase id } := by
  unfold reap
  rcases hstore : w.stores[id]? with _ | store
  · exact .inl rfl
  · dsimp only
    split
    · next hdropped =>
      simp only [Bool.and_eq_true, Bool.not_eq_true'] at hdropped
      refine .inr ⟨store, rfl, hdropped.2, ?_⟩
      rcases hactive : store.active with _ | active
      · simp [Store.custody, hactive, Custody.empty, serveAll]
      · simp [Store.custody, hactive, Phase.custody]
    · exact .inl rfl

theorem carries_reap (w : World) (id : StoreId) : w.Carries (w.reap id) := by
  rcases reap_eq w id with heq | ⟨store, hstore, hcalled, heq⟩
  · rw [heq]
    exact .refl w
  · rw [heq]
    have hregistry := sameRegistry_serveAll w store.fabric store.custody.release
    refine (Carries.of_sameRegistry hregistry).trans (.eraseStore _ ?_)
    obtain ⟨_, _, _, hserve⟩ := hregistry
    rw [hserve]
    rintro other call hcall rfl
    rw [isCalled, any_of_getElem? hcall (by simp)] at hcalled
    contradiction

theorem effects_reap (w : World) (id : StoreId) :
    Effects (w.MayUse (some (.store id))) w.memory w.net (w.reap id).memory (w.reap id).net := by
  rcases reap_eq w id with heq | ⟨store, hstore, -, heq⟩
  · rw [heq]
    exact .refl
  · rw [heq]
    have hcustody : w.custody? (.store id) = some (store.fabric, store.custody) := by
      simp [custody?, hstore]
    exact (Acts.serveAll hcustody fun request hrequest handle hhandle =>
      Custody.mem_handles_of_mem_release hrequest hhandle).effects

theorem active_new {layout : Layout} {config : StoreConfig} {fabric : FabricId} {store : Store}
    (h : Store.new layout config fabric = .ok store) : store.active = none := by
  rw [(Store.eq_of_new h).2]

theorem carries_pullMany (w : World) (pulls : Nat) (ids : List StoreId) :
    w.Carries (ids.foldl (pullMany · pulls) w) ∧
      (ids.foldl (pullMany · pulls) w).sessions = w.sessions ∧
      (ids.foldl (pullMany · pulls) w).memory = w.memory ∧
      (ids.foldl (pullMany · pulls) w).net = w.net := by
  induction ids generalizing w with
  | nil => exact ⟨.refl w, rfl, rfl, rfl⟩
  | cons id ids ih =>
    obtain ⟨hcarries, hsessions, hmemory, hnet⟩ := ih (w.pullMany pulls id)
    refine ⟨Carries.trans (.modifyStore w id ?_) hcarries, hsessions, hmemory, hnet⟩
    exact fun store => ⟨rfl, rfl, rfl, rfl, rfl⟩

theorem getElem?_insert_sessions (w : World) (id other : SessionId) (session : Session) :
    (w.sessions.insert id session)[other]? = if id = other then some session else w.sessions[other]? := by
  rw [TreeMap.getElem?_insert]
  simp only [Std.compare_eq_iff_eq]

def Dismisses (w w' : World) : Prop :=
  ∀ id : SessionId, w'.custody? (.session id) = w.custody? (.session id) ∨
    w'.custody? (.session id) = none ∨ ∃ fabric, w'.custody? (.session id) = some (fabric, .empty)

theorem Dismisses.of_eq {w' : World} (h : w'.sessions = w.sessions) : w.Dismisses w' := by
  intro id
  simp only [custody?, h]
  exact .inl True.intro

theorem sessions_reap (w : World) (id : StoreId) : (w.reap id).sessions = w.sessions := by
  rcases reap_eq w id with heq | ⟨store, -, -, heq⟩
  · rw [heq]
  · rw [heq]
    obtain ⟨_, _, _, hserve⟩ := sameRegistry_serveAll w store.fabric store.custody.release
    rw [hserve]

theorem act_registry (ht : w.Tidy) {action : Action} (hplain : ¬action.isPlain)
    (hstep : ∀ task expired, action ≠ .step task expired)
    (hstart : ∀ id operation, action ≠ .startSession id operation) :
    w.Carries (w.act action) ∧ w.Dismisses (w.act action) ∧
      Effects (w.MayUse (w.actor? action)) w.memory w.net (w.act action).memory (w.act action).net := by
  have hnone : ∀ {w' : World} {actor : Option Party}, w.Carries w' → w.Dismisses w' →
      w'.memory = w.memory → w'.net = w.net →
      w.Carries w' ∧ w.Dismisses w' ∧ Effects (w.MayUse actor) w.memory w.net w'.memory w'.net := by
    intro w' actor hcarries hdismisses hmemory hnet
    refine ⟨hcarries, hdismisses, ?_⟩
    rw [hmemory, hnet]
    exact .refl
  have hrefl : ∀ {actor : Option Party}, w.Carries w ∧ w.Dismisses w ∧
      Effects (w.MayUse actor) w.memory w.net w.memory w.net := hnone (.refl w) (.of_eq rfl) rfl rfl
  cases action with
  | step task expired => exact absurd rfl (hstep task expired)
  | startSession id operation => exact absurd rfl (hstart id operation)
  | createStore layout config fabric =>
    simp only [act, createStore]
    rcases hstore : Store.new layout config fabric with failure | store
    · exact hrefl
    · exact hnone (.createStore w (active_new hstore)) (.of_eq rfl) rfl rfl
  | initiate id =>
    simp only [act, withStore]
    split
    · exact hrefl
    · next store hstore =>
      exact hnone (.startInitiation ht (by rw [hstore]; rfl)) (.of_eq rfl) rfl rfl
  | endCall id =>
    simp only [act]
    split
    · next hrest =>
      simp only [endCall]
      split
      · exact hrefl
      · next call hcall =>
        simp only [isAtRest, result?, hcall] at hrest
        refine ⟨(Carries.eraseCall w hcall hrest).trans (carries_reap _ _), .of_eq (sessions_reap ..), ?_⟩
        simp only [actor?, hcall]
        exact effects_reap { w with calls := w.calls.erase id } call.store
    · exact hrefl
  | dropStore id =>
    simp only [act, dropStore]
    have hmodify : w.Carries { w with
        stores := w.stores.modify id fun store => { store with dropped := true } } :=
      .modifyStore w id fun store => ⟨rfl, rfl, rfl, rfl, rfl⟩
    refine ⟨hmodify.trans (carries_reap _ id), .of_eq (sessions_reap ..), ?_⟩
    apply (effects_reap { w with
      stores := w.stores.modify id fun store => { store with dropped := true } } id).mono
    intro handle hmem
    have hcustody : World.custody? { w with
        stores := w.stores.modify id fun store => { store with dropped := true } } (.store id) =
          w.custody? (.store id) := by
      simp only [custody?, TreeMap.getElem?_modify_self, Option.map_map]
      rfl
    simp only [MayUse, holdings, hcustody] at hmem
    exact hmem
  | cancelStore id cancelled =>
    exact hnone (.modifyStore w id fun _ => ⟨rfl, rfl, rfl, rfl, rfl⟩) (.of_eq rfl) rfl rfl
  | pull id =>
    simp only [act, withStore]
    split
    · exact hrefl
    · next store hstore =>
      simp only [pull]
      rcases store.storage .append with failure | storage
      · exact hrefl
      · exact hnone (.insertStore hstore ⟨rfl, rfl, rfl, rfl, rfl⟩) (.of_eq rfl) rfl rfl
  | pullLogs ids pulls =>
    simp only [act, benchmarkLogs]
    split
    · exact hrefl
    · obtain ⟨hcarries, hsessions, hmemory, hnet⟩ := carries_pullMany w pulls ids
      exact hnone hcarries (.of_eq hsessions) hmemory hnet
  | createSession name config fabric =>
    refine hnone (.of_eq rfl (Nat.le_succ _) rfl rfl) ?_ rfl rfl
    intro other
    simp only [custody?, act, createSession, getElem?_insert_sessions]
    split
    · exact .inr (.inr ⟨fabric, rfl⟩)
    · exact .inl rfl
  | cancelSession id cancelled =>
    refine hnone (.of_eq rfl (Nat.le_refl _) rfl rfl) ?_ rfl rfl
    intro other
    simp only [custody?, act, setSessionCancelled, TreeMap.getElem?_modify, Std.compare_eq_iff_eq]
    split
    · next heq =>
      subst heq
      simp only [Option.map_map]
      exact .inl rfl
    · exact .inl rfl
  | dropSession id =>
    simp only [act]
    rcases withSession_eq w id fun _ => w.dropSession id with
      heq | ⟨session, hsession, hcustody, heq⟩
    · rw [heq]
      exact hrefl
    · rw [heq]
      simp only [dropSession, hsession]
      have hacts : w.Acts (w.serveAll session.fabric session.phase.release) (some (.session id)) :=
        .serveAll hcustody fun request hrequest handle hhandle =>
          Custody.mem_handles_of_mem_release hrequest hhandle
      obtain ⟨_, _, _, hserve⟩ := hacts.registry
      refine ⟨?_, ?_, hacts.effects⟩
      · rw [hserve]
        exact .of_eq rfl (Nat.le_refl w.lastId) rfl rfl
      · rw [hserve]
        intro other
        simp only [custody?, TreeMap.getElem?_erase, Std.compare_eq_iff_eq]
        split
        · exact .inr (.inl rfl)
        · exact .inl rfl
  | createScript script => exact hnone (.of_eq rfl (Nat.le_succ _) rfl rfl) (.of_eq rfl) rfl rfl
  | _ => exact absurd rfl hplain

theorem Tidy.carries {w' : World} (ht : w.Tidy) (h : w.Carries w') : w'.Tidy where
  stores_le := by
    intro s store' hstore'
    rcases h.stores s store' hstore' with ⟨store, hstore, -⟩ | ⟨-, hle, -⟩
    · exact Nat.le_trans (ht.stores_le s store hstore) h.lastId_le
    · exact hle
  calls_le := by
    intro id call hcall
    rcases h.calls id call hcall with hold | ⟨-, hle, -⟩
    · exact Nat.le_trans (ht.calls_le id call hold) h.lastId_le
    · exact hle
  called := by
    intro id call hcall
    rcases h.calls id call hcall with hold | ⟨-, -, -, hsome⟩
    · exact h.called id call hcall hold (ht.called id call hold)
    · exact hsome

theorem Carries.inherits {w' : World} (h : w.Carries w') (hsessions : w.Dismisses w') (ht : w.Tidy)
    (party : Party) : w.Inherits w' party [] := by
  cases party with
  | call id =>
    rcases hcall' : w'.calls[id]? with _ | call
    · exact .of_custody_eq_none (by simp [custody?, hcall'])
    · rcases hstore' : w'.stores[call.store]? with _ | store'
      · exact .of_custody_eq_none (by simp [custody?, hcall', hstore'])
      · have hcustody := custody?_of_call hcall' hstore'
        rcases h.calls id call hcall' with hcall | ⟨-, -, hstage, -⟩
        · obtain ⟨old, hold⟩ := Option.isSome_iff_exists.mp (ht.called id call hcall)
          rcases h.stores call.store store' hstore' with ⟨store, hstore, hsame⟩ | ⟨hlt, -⟩
          · apply Inherits.of_custody_eq
            rw [hcustody, custody?_of_call hcall hstore, hsame.fabric]
          · exact absurd (ht.stores_le _ old hold) (Nat.not_le_of_lt hlt)
        · rw [hstage] at hcustody
          exact .of_empty hcustody
  | session id =>
    rcases hsessions id with heq | hnone | ⟨fabric, hempty⟩
    · exact .of_custody_eq heq
    · exact .of_custody_eq_none hnone
    · exact .of_empty hempty
  | store id =>
    rcases hstore' : w'.stores[id]? with _ | store'
    · exact .of_custody_eq_none (by simp [custody?, hstore'])
    · rcases h.stores id store' hstore' with ⟨store, hstore, hsame⟩ | ⟨-, -, hactive⟩
      · apply Inherits.of_custody_eq
        simp [custody?, hstore', hstore, hsame.fabric, Store.custody, hsame.active]
      · have hempty : w'.custody? (.store id) = some (store'.fabric, .empty) := by
          simp [custody?, hstore', Store.custody, hactive]
        exact .of_empty hempty

theorem custody_start {operation : Operation} {phase : Phase} {stage : Stage}
    (h : operation.start phase = .ok stage) :
    stage.custody = phase.custody ∨ ∃ extent, operation = .register extent ∧
      stage.custody = { phase.custody with blocks := [extent.block] } := by
  cases operation with
  | listen port =>
    simp only [Operation.start, Stage.startListen] at h
    split at h
    · injection h with h
      exact .inl (h ▸ rfl)
    · contradiction
  | register extent =>
    simp only [Operation.start, Stage.startRegister] at h
    split at h
    · injection h with h
      exact .inr ⟨extent, rfl, h ▸ rfl⟩
    · contradiction
  | advertise =>
    simp only [Operation.start, Stage.startAdvertise] at h
    split at h
    · injection h with h
      exact .inl (h ▸ rfl)
    · contradiction
  | capture =>
    simp only [Operation.start, Stage.startCapture] at h
    split at h
    · injection h with h
      exact .inl (h ▸ rfl)
    · contradiction

theorem act_startSession (w : World) (id : SessionId) (operation : Operation) :
    w.act (.startSession id operation) = w ∨ ∃ (session : Session) (stage : Stage),
      w.custody? (.session id) = some (session.fabric, session.phase.custody) ∧
      (∀ b, operation.block? = some b → w.isShared b) ∧
      operation.start session.phase = .ok stage ∧
      w.act (.startSession id operation) =
        { w with sessions := w.sessions.insert id { session with stage } } := by
  simp only [act]
  split
  · next hguard =>
    simp only [Bool.and_eq_true, Option.all_eq_true] at hguard
    rcases hsession : w.sessions[id]? with _ | session
    · simp only [World.startSession, hsession, orElse]
      exact .inl True.intro
    · simp only [World.startSession, hsession]
      rcases hstart : operation.start session.phase with failure | stage
      · exact .inl rfl
      · exact .inr ⟨session, stage, custody?_of_isAtRest hsession hguard.1, hguard.2, hstart, rfl⟩
  · exact .inl rfl

theorem Sound.of_custody_eq (h : w.Sound) {w' : World} (hmemory : w'.memory = w.memory)
    (hnet : w'.net = w.net) (hsame : ∀ party, w'.custody? party = w.custody? party) : w'.Sound := by
  have hadvances : Advances (w.MayUse none) w.memory w.net w'.memory w'.net := by
    rw [hmemory, hnet]
    exact Effects.refl.advances h.net fun handle huse => h.isIssued_of_mayUse huse
  exact h.settle hadvances (fun _ hb => hmemory ▸ hb) fun party => .of_custody_eq (hsame party)

theorem Sound.share (h : w.Sound) {w' : World} (hmemory : w'.memory = w.memory) (hnet : w'.net = w.net)
    {id : SessionId} {fabric : FabricId} {before : Custody} {b : BlockId} (hshared : w.isShared b)
    (hbefore : w.custody? (.session id) = some (fabric, before))
    (hafter : w'.custody? (.session id) = some (fabric, { before with blocks := [b] }))
    (hothers : ∀ q, q ≠ .session id → w'.custody? q = w.custody? q) : w'.Sound := by
  have huse := mayUse_of_isShared hshared
  have hadvances : Advances (w.MayUse none) w.memory w.net w'.memory w'.net := by
    rw [hmemory, hnet]
    exact Effects.refl.advances h.net fun handle huse => h.isIssued_of_mayUse huse
  apply h.inherit hadvances fun _ hb => hmemory ▸ hb
  intro party
  by_cases hparty : party = .session id
  · subst hparty
    refine ⟨[.block b], ⟨?_, ?_⟩, ?_⟩
    · intro handle hmem
      simp only [holdings, hafter, hbefore, FabricId.mem_visible, Custody.handles, List.map_cons,
        List.map_nil, List.mem_append] at hmem ⊢
      obtain ⟨hmem | hmem, hvisible⟩ := hmem
      · exact .inl ⟨.inl hmem, hvisible⟩
      · exact .inr hmem
    · intro fabric' custody hcustody c hc
      rw [hafter] at hcustody
      obtain ⟨rfl, rfl⟩ := Prod.mk.inj (Option.some.inj hcustody)
      rw [List.mem_singleton.mp hc]
      exact .inl (List.mem_singleton_self _)
    · intro handle hmem
      obtain rfl := List.mem_singleton.mp hmem
      refine ⟨?_, ?_, ?_⟩
      · rw [hmemory, hnet]
        exact huse.1
      · rintro q hq ((hblock | ⟨_, hcall⟩) | howns)
        · contradiction
        · contradiction
        · by_cases hne : q = .session id
          · exact hne
          · rw [holdings_eq (hothers q hne)] at hq
            exact absurd hq (huse.2 q howns)
      · rintro ⟨_, hcall⟩
        contradiction
  · exact ⟨[], .of_custody_eq (hothers party hparty), fun _ hmem => by contradiction⟩

theorem Sound.startSession (h : w.Sound) (id : SessionId) (operation : Operation) :
    (w.act (.startSession id operation)).Sound := by
  rcases act_startSession w id operation with heq | ⟨session, stage, hbefore, hshared, hstart, heq⟩
  · rw [heq]
    exact h
  · rw [heq]
    have hafter : World.custody? { w with sessions := w.sessions.insert id { session with stage } }
        (.session id) = some (session.fabric, stage.custody) := by
      simp [custody?]
    have hothers : ∀ q, q ≠ .session id → World.custody? { w with
        sessions := w.sessions.insert id { session with stage } } q = w.custody? q := by
      intro q hq
      cases q with
      | call other => rfl
      | store other => rfl
      | session other =>
        have hne : id ≠ other := fun heq => hq (heq ▸ rfl)
        simp only [custody?, getElem?_insert_sessions, if_neg hne]
    rcases custody_start hstart with hsame | ⟨extent, rfl, hblock⟩
    · refine h.of_custody_eq rfl rfl fun party => ?_
      by_cases hparty : party = .session id
      · rw [hparty, hafter, hbefore, hsame]
      · exact hothers party hparty
    · rw [hblock] at hafter
      exact h.share rfl rfl (hshared extent.block rfl) hbefore hafter hothers

theorem Tidy.step (ht : w.Tidy) (task : Task) (expired : Bool) : (w.step task expired).2.Tidy := by
  cases task with
  | session id =>
    simp only [World.step]
    split
    · exact ht
    · next session hsession =>
      have hcalls : (w.stepSession id session expired).2.calls = w.calls := calls_perform ..
      have hstores : (w.stepSession id session expired).2.stores = w.stores := stores_perform ..
      have hlastId : (w.stepSession id session expired).2.lastId = w.lastId := lastId_perform ..
      refine ⟨?_, ?_, ?_⟩
      · rw [hstores, hlastId]
        exact ht.stores_le
      · rw [hcalls, hlastId]
        exact ht.calls_le
      · rw [hcalls, hstores]
        exact ht.called
  | call id =>
    simp only [World.step]
    split
    · exact ht
    · next call hcall =>
      split
      · exact ht
      · next store hstore =>
        have hspec := stepCall_spec hcall hstore expired
        have hsome : ∀ s : StoreId, (w.stores[s]?).isSome →
            ((w.stepCall id call store expired).2.stores[s]?).isSome := by
          intro s hs
          rw [hspec.stores]
          split
          · rfl
          · exact hs
        refine ⟨?_, ?_, ?_⟩
        · intro s store' hstore'
          rw [hspec.stores] at hstore'
          rw [hspec.lastId]
          split at hstore'
          · next heq => exact heq ▸ ht.stores_le _ store hstore
          · exact ht.stores_le s store' hstore'
        · intro other call' hcall'
          rw [hspec.calls] at hcall'
          rw [hspec.lastId]
          split at hcall'
          · next heq => exact heq ▸ ht.calls_le _ call hcall
          · exact ht.calls_le other call' hcall'
        · intro other call' hcall'
          rw [hspec.calls] at hcall'
          apply hsome
          split at hcall'
          · injection hcall' with hcall'
            rw [← hcall']
            exact ht.called id call hcall
          · exact ht.called other call' hcall'

theorem carries_act (h : w.Sound) (ht : w.Tidy) {action : Action}
    (hstep : ∀ task expired, action ≠ .step task expired) : w.Carries (w.act action) := by
  by_cases hplain : action.isPlain
  · exact .of_sameRegistry (h.sameRegistry_act hplain)
  · by_cases hstart : ∃ id operation, action = .startSession id operation
    · obtain ⟨id, operation, rfl⟩ := hstart
      rcases act_startSession w id operation with heq | ⟨session, stage, -, -, -, heq⟩
      · rw [heq]
        exact .refl w
      · rw [heq]
        exact .of_eq rfl (Nat.le_refl w.lastId) rfl rfl
    · exact (act_registry ht hplain hstep fun id operation heq => hstart ⟨id, operation, heq⟩).1

theorem now_step (w : World) (task : Task) (expired : Bool) : (w.step task expired).2.now = w.now := by
  cases task with
  | call id =>
    simp only [step]
    split
    · rfl
    · next call hcall =>
      split
      · rfl
      · next store hstore => exact (stepCall_spec hcall hstore expired).now
  | session id =>
    simp only [step]
    split
    · rfl
    · next session hsession => exact now_perform ..

theorem now_act (h : w.Sound) (ht : w.Tidy) (action : Action) : (w.act action).now = w.now := by
  by_cases hstep : ∃ task expired, action = .step task expired
  · obtain ⟨task, expired, rfl⟩ := hstep
    exact now_step w task expired
  · exact (carries_act h ht fun task expired heq => hstep ⟨task, expired, heq⟩).now

theorem act_sound (h : w.Sound) (ht : w.Tidy) (action : Action) :
    (w.act action).Sound ∧ (w.act action).Tidy := by
  by_cases hstep : ∃ task expired, action = .step task expired
  · obtain ⟨task, expired, rfl⟩ := hstep
    exact ⟨h.step task expired, ht.step task expired⟩
  · have hstep : ∀ task expired, action ≠ .step task expired :=
      fun task expired heq => hstep ⟨task, expired, heq⟩
    refine ⟨?_, ht.carries (carries_act h ht hstep)⟩
    by_cases hplain : action.isPlain
    · exact h.act_plain hplain
    · by_cases hstart : ∃ id operation, action = .startSession id operation
      · obtain ⟨id, operation, rfl⟩ := hstart
        exact h.startSession id operation
      · obtain ⟨hcarries, hsessions, heffects⟩ := act_registry ht hplain hstep
          fun id operation heq => hstart ⟨id, operation, heq⟩
        have hadvances := heffects.advances h.net fun handle huse => h.isIssued_of_mayUse huse
        exact h.settle hadvances (fun _ => heffects.isLive) (hcarries.inherits hsessions ht)

theorem sound_initial (mapper : Mapper) (now : Duration) :
    (initial mapper now).Sound ∧ (initial mapper now).Tidy := by
  have hholdings : ∀ party, (initial mapper now).holdings party = [] := by
    intro party
    cases party <;> simp [holdings, custody?, initial, empty]
  refine ⟨⟨Loopback.Sound.empty, ?_, ?_, ?_, ?_, ?_⟩, ⟨?_, ?_, ?_⟩⟩
  · intro party handle hmem
    rw [hholdings] at hmem
    contradiction
  · intro party handle hmem
    rw [hholdings] at hmem
    contradiction
  · intro p q handle hmem
    rw [hholdings] at hmem
    contradiction
  · simp [initial, empty, Loopback.empty]
  · simp [initial, empty, Loopback.empty]
  · simp [initial, empty]
  · simp [initial, empty]
  · simp [initial, empty]

theorem after_sound (h : w.Sound) (ht : w.Tidy) (actions : List Action) :
    (w.after actions).Sound ∧ (w.after actions).Tidy := by
  unfold after
  induction actions generalizing w with
  | nil => exact ⟨h, ht⟩
  | cons action actions ih =>
    obtain ⟨h', ht'⟩ := act_sound h ht action
    exact ih h' ht'

theorem now_after (h : w.Sound) (ht : w.Tidy) (actions : List Action) : (w.after actions).now = w.now := by
  unfold after
  induction actions generalizing w with
  | nil => rfl
  | cons action actions ih =>
    obtain ⟨h', ht'⟩ := act_sound h ht action
    exact (ih h' ht').trans (now_act h ht action)

theorem Reachable.sound (h : w.Reachable) : w.Sound ∧ w.Tidy := by
  obtain ⟨mapper, now, actions, rfl⟩ := h
  obtain ⟨hsound, htidy⟩ := sound_initial mapper now
  exact after_sound hsound htidy actions

theorem Reachable.now_after (h : w.Reachable) (actions : List Action) : (w.after actions).now = w.now :=
  World.now_after h.sound.1 h.sound.2 actions

end World

end RemoteSlots
