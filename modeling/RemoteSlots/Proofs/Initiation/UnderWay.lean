import RemoteSlots.Proofs.World.Run

/-!
This module follows a call that has claimed its store: while it is under way, its store keeps its setup, and
with every move it makes the call stays under way or ends.
-/

namespace RemoteSlots

def CallStage.isUnderWay : CallStage → Prop
  | initiate _ | free _ | publish _ => True
  | check | claim | discard _ | .over _ => False

namespace CallStage

variable {store : Store} {signals : Signals}

theorem next_eq {setup : Store} (hsetup : setup.SameSetup store) (hidle : setup.active = none)
    (signals : Signals) {stage : CallStage} (h : stage.isUnderWay)
    (hactive : ∀ active, stage = publish active → store.active = none) :
    stage.next store signals = stage.next setup signals := by
  cases stage with
  | initiate initiation =>
    cases initiation with
    | finished result => rcases result with (_ | failure) | active <;> rfl
    | run | allocate | clear | giveBack =>
      simp only [next]
      rw [hsetup.layout, hsetup.config]
  | free result => rcases result with failure | active <;> rfl
  | publish active =>
    simp only [next]
    rw [if_neg (by simp [Store.isReady, hactive active rfl]), if_neg (by simp [Store.isReady, hidle])]
  | _ => contradiction

theorem isUnderWay_of_leads (hidle : store.active = none) {stage stage' : CallStage}
    {acquired : List Handle} (h : stage.isUnderWay)
    (hleads : (stage.next store signals).Leads acquired stage') :
    stage'.isUnderWay ∨ ∃ result, stage' = .over result := by
  cases stage with
  | initiate initiation =>
    cases initiation with
    | finished result =>
      rcases result with (failure | _) | active
      · cases hleads
        exact .inl True.intro
      · cases hleads
        exact .inr ⟨_, rfl⟩
      · cases hleads
        exact .inl True.intro
    | run | allocate | clear | giveBack =>
      simp only [next] at hleads
      obtain ⟨initiation', -, rfl⟩ := Move.leads_embed hleads
      exact .inl True.intro
  | free result =>
    rcases result with failure | active
    · cases hleads
      exact .inr ⟨_, rfl⟩
    · cases hleads
      exact .inl True.intro
  | publish active =>
    cases hleads
    rw [if_neg (by simp [Store.isReady, hidle])]
    exact .inr ⟨_, rfl⟩
  | _ => contradiction

theorem active_update {stage : CallStage} (h : ∀ active, stage ≠ publish active) (store : Store) :
    (stage.update store).active = store.active := by
  unfold update
  split
  · rfl
  · rfl
  · next active => exact absurd rfl (h active)
  · rfl

end CallStage

namespace World

def IsAlone (w : World) (id : CallId) (s : StoreId) (actions : List Action) : Prop :=
  ∀ before action after, actions = before ++ action :: after →
    (w.after before).MovesOn s action → action.IsMoveOf id

variable {w : World} {id : CallId} {s : StoreId}

theorem IsAlone.of_forall {actions : List Action}
    (h : ∀ task expired, .step task expired ∈ actions → task = .call id) : w.IsAlone id s actions := by
  rintro before action after rfl ⟨other, expired, call, rfl, -, -⟩
  have htask := h (.call other) expired (by simp)
  exact ⟨expired, by rw [htask]⟩

theorem IsAlone.of_append {before after : List Action} (h : w.IsAlone id s (before ++ after)) :
    w.IsAlone id s before := by
  intro front action rest heq
  apply h front action (rest ++ after)
  rw [heq, List.append_assoc, List.cons_append]

theorem IsAlone.last {actions : List Action} {action : Action}
    (h : w.IsAlone id s (actions ++ [action])) (hmove : ¬action.IsMoveOf id) :
    ¬(w.after actions).MovesOn s action :=
  fun hmoves => hmove (h actions action [] rfl hmoves)

def IsIdle (w : World) (s : StoreId) : Prop :=
  ∀ store, w.stores[s]? = some store → store.active = none

structure UnderWay (w : World) (id : CallId) (s : StoreId) (setup : Store) (stage : CallStage) : Prop where
  calls : w.calls[id]? = some ⟨s, stage⟩
  stores : ∃ store, w.stores[s]? = some store ∧ setup.SameSetup store
  started : stage.isUnderWay
  fabric : setup.fabric = .loopback
  idle : setup.active = none

namespace UnderWay

variable {setup : Store} {stage : CallStage}

theorem custody?_eq (h : w.UnderWay id s setup stage) :
    w.custody? (.call id) = some (.loopback, stage.custody) := by
  obtain ⟨store, hstore, hsetup⟩ := h.stores
  rw [custody?_of_call h.calls hstore, hsetup.fabric, h.fabric]

theorem holdings_eq (h : w.UnderWay id s setup stage) :
    w.holdings (.call id) = FabricId.visible .loopback stage.custody.handles := by
  unfold holdings
  rw [h.custody?_eq]

theorem mem_holdings (h : w.UnderWay id s setup stage) {handle : Handle} :
    handle ∈ w.holdings (.call id) ↔ handle ∈ stage.custody.handles := by
  rw [h.holdings_eq, FabricId.mem_visible]
  simp

theorem step (h : w.UnderWay id s setup stage) (hidle : ∀ active, stage = .publish active → w.IsIdle s)
    (expired : Bool) :
    ∃ store signals, w.stores[s]? = some store ∧ setup.SameSetup store ∧
      stage.next store { cancelled := store.cancelled, expired, now := w.now } = stage.next setup signals ∧
      w.step (.call id) expired = w.stepCall id ⟨s, stage⟩ store expired ∧
      w.CallStep id ⟨s, stage⟩ .loopback (stage.next setup signals) (stage.update store)
        (w.step (.call id) expired) := by
  obtain ⟨store, hstore, hsetup⟩ := h.stores
  have hstep : w.step (.call id) expired = w.stepCall id ⟨s, stage⟩ store expired := by
    simp only [World.step, h.calls, hstore]
  have hspec := stepCall_spec h.calls hstore expired
  have hnext := CallStage.next_eq hsetup h.idle { cancelled := store.cancelled, expired, now := w.now } h.started
    fun active heq => hidle active heq store hstore
  refine ⟨store, _, hstore, hsetup, hnext, hstep, ?_⟩
  rw [hsetup.fabric, h.fabric] at hspec
  rw [hstep, ← hnext]
  exact hspec

theorem move (h : w.UnderWay id s setup stage) {expired : Bool}
    (hrunning : (w.act (.step (.call id) expired)).result? (.call id) = none) {store : Store}
    {signals : Signals} (hsetup : setup.SameSetup store)
    (hspec : w.CallStep id ⟨s, stage⟩ .loopback (stage.next setup signals) (stage.update store)
      (w.step (.call id) expired)) :
    (w.act (.step (.call id) expired)).UnderWay id s setup
      (w.perform .loopback (stage.next setup signals)).1 := by
  have hcall := hspec.calls id
  rw [if_pos rfl] at hcall
  refine ⟨hcall, ⟨stage.update store, ?_, ?_⟩, ?_, h.fabric, h.idle⟩
  · exact (hspec.stores s).trans (if_pos rfl)
  · have hupdate := sameSetup_update stage store
    exact ⟨hupdate.layout.trans hsetup.layout, hupdate.config.trans hsetup.config,
      hupdate.fabric.trans hsetup.fabric⟩
  · have hleads := perform_leads w .loopback (stage.next setup signals)
    rcases CallStage.isUnderWay_of_leads h.idle h.started hleads with hstarted | ⟨result, heq⟩
    · exact hstarted
    · rw [heq] at hcall
      simp only [World.result?, act, hcall, Call.result?] at hrunning
      contradiction

theorem isIdle_move (h : w.UnderWay id s setup stage) (hidle : w.IsIdle s) {expired : Bool}
    (hrunning : (w.act (.step (.call id) expired)).result? (.call id) = none) :
    (w.act (.step (.call id) expired)).IsIdle s := by
  obtain ⟨store, signals, hstore, -, -, -, hspec⟩ := h.step (fun _ _ => hidle) expired
  intro store' hstore'
  rw [act, hspec.stores, if_pos rfl] at hstore'
  injection hstore' with hstore'
  subst hstore'
  rw [CallStage.active_update]
  · exact hidle store hstore
  -- A call that publishes in an idle store ends.
  · rintro active rfl
    have hcall := hspec.calls id
    rw [if_pos rfl] at hcall
    simp only [World.result?, act, hcall, CallStage.next, perform] at hrunning
    rw [if_neg (by simp [Store.isReady, h.idle])] at hrunning
    contradiction

theorem others (h : w.UnderWay id s setup stage) (hw : w.Sound) (ht : w.Tidy) {action : Action}
    (hmove : ¬action.IsMoveOf id) :
    (w.act action).UnderWay id s setup stage ∧
      (w.IsIdle s → ¬w.MovesOn s action → (w.act action).IsIdle s) := by
  obtain ⟨store, hstore, hsetup⟩ := h.stores
  have hresult : (⟨s, stage⟩ : Call).result? = none := by
    have hstarted := h.started
    cases stage with
    | initiate | free | publish => rfl
    | _ => contradiction
  have hcall' := calls_act hw ht h.calls hresult hmove
  obtain ⟨store', hstore', hkept, hsame⟩ := stores_act hw ht h.calls hstore hcall'
  refine ⟨⟨hcall', ⟨store', hstore', ?_⟩, h.started, h.fabric, h.idle⟩, ?_⟩
  · exact ⟨hkept.layout.trans hsetup.layout, hkept.config.trans hsetup.config,
      hkept.fabric.trans hsetup.fabric⟩
  · intro hidle halone other hother
    rw [hstore'] at hother
    injection hother with hother
    rw [← hother, (hsame halone).active, hidle store hstore]

end UnderWay

/--
Whether a call has just passed the checks for its store on the loopback fabric and claimed it.
-/
structure HasClaimed (w : World) (id : CallId) (s : StoreId) (store : Store) : Prop where
  calls : w.calls[id]? = some ⟨s, .initiate (.start store.config)⟩
  stores : w.stores[s]? = some store
  notReady : store.isReady = false
  fabric : store.fabric = .loopback

theorem HasClaimed.underWay {store : Store} (h : w.HasClaimed id s store) :
    w.UnderWay id s store (.initiate (.start store.config)) where
  calls := h.calls
  stores := ⟨store, h.stores, rfl, rfl, rfl⟩
  started := True.intro
  fabric := h.fabric
  idle := by simpa [Store.isReady] using h.notReady

theorem HasClaimed.isIdle {store : Store} (h : w.HasClaimed id s store) : w.IsIdle s := by
  intro other hother
  rw [h.stores] at hother
  injection hother with hother
  rw [← hother]
  exact h.underWay.idle

def sampleStore : Store :=
  { layout := .keyValue
    config := { name := "kv", port := 7000, capacity := 16, pages := .standard }
    fabric := .loopback
    cancelled := false
    initiating := true
    active := none
    tail := 16
    dropped := false }

def sampleMoves (n : Nat) : List Action := List.replicate n (.step (.call 2) false)

def sample : World :=
  (initial (.above 4096 4096) .zero).after
    ([.createStore .keyValue sampleStore.config .loopback, .initiate 1] ++ sampleMoves 2)

theorem reachable_sample : sample.Reachable := ⟨.above 4096 4096, .zero, _, rfl⟩

theorem hasClaimed_sample : sample.HasClaimed 2 1 sampleStore := ⟨rfl, rfl, rfl, rfl⟩

end World

end RemoteSlots
