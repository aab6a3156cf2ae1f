import RemoteSlots.Proofs.Initiation.Cancellation

/-!
This module shows that at most one call at a time has claimed a store, and that the store is claimed meanwhile.
-/

namespace RemoteSlots

open Std

theorem CallStage.claims_of_follows {store : Store} {stage stage' : CallStage} (h : Follows store stage stage')
    (hclaims : stage'.claims) :
    stage = .claim ∧ store.initiating = false ∨ stage.claims ∧ stage.update store = store := by
  cases h with
  | start hfree => exact .inl ⟨rfl, hfree⟩
  | run | acquired | failed => exact .inr ⟨rfl, rfl⟩
  | _ => contradiction

namespace World

variable {w : World} {id : CallId} {s : StoreId} {store : Store} {stage : CallStage} {action : Action}

theorem Stands.step (h : w.Stands id s store stage) (expired : Bool) :
    (w.act (.step (.call id) expired)).Stands id s (stage.update store)
      (w.perform store.fabric (stage.next store { cancelled := store.cancelled, expired, now := w.now })).1 := by
  have hspec := stepCall_spec h.calls h.stores expired
  rw [act_step h.calls h.stores]
  exact ⟨(hspec.calls id).trans (if_pos rfl), (hspec.stores s).trans (if_pos rfl)⟩

theorem Stands.follows (h : w.Stands id s store stage) (expired : Bool) :
    ∃ stage', (w.act (.step (.call id) expired)).Stands id s (stage.update store) stage' ∧
      CallStage.Follows store stage stage' :=
  ⟨_, h.step expired, CallStage.follows_of_leads (perform_leads ..)⟩

def Claims (w : World) (id : CallId) (s : StoreId) : Prop :=
  ∃ stage : CallStage, w.calls[id]? = some ⟨s, stage⟩ ∧ stage.claims

theorem claims_of_act (h : w.Sound) (ht : w.Tidy) (hclaims : (w.act action).Claims id s) :
    ∃ store stage, w.Stands id s store stage ∧
      (stage.claims ∨ store.initiating = false ∧ action.IsMoveOf id) := by
  obtain ⟨stage', hcall', hstage'⟩ := hclaims
  cases callSource_act h ht hcall' with
  | kept hcall =>
    obtain ⟨store, hstore⟩ := Option.isSome_iff_exists.mp (ht.called id _ hcall)
    exact ⟨store, stage', ⟨hcall, hstore⟩, .inl hstage'⟩
  | started hstage =>
    obtain rfl : stage' = .check := hstage
    contradiction
  | @moved call store expired hmove hcall hstore hstage =>
    obtain ⟨s', stage⟩ := call
    obtain ⟨rfl, rfl⟩ := Call.mk.inj hstage
    refine ⟨store, stage, ⟨hcall, hstore⟩, ?_⟩
    rcases CallStage.claims_of_follows (CallStage.follows_of_leads (perform_leads ..)) hstage' with
      ⟨-, hfree⟩ | ⟨hstage, -⟩
    · exact .inr ⟨hfree, expired, hmove⟩
    · exact .inl hstage

theorem initiating_act (h : w.Sound) (ht : w.Tidy) {store' : Store} (hstore : w.stores[s]? = some store)
    (hclaimed : store.initiating)
    (hkeep : ∀ other result, action.IsMoveOf other → w.calls[other]? ≠ some ⟨s, .free result⟩)
    (hstore' : (w.act action).stores[s]? = some store') : store'.initiating := by
  cases storeSource_act h ht hstore' with
  | kept hold hsame =>
    obtain rfl := Option.some.inj (hstore.symm.trans hold)
    exact hsame.initiating.trans hclaimed
  | created hcreate hnew =>
    have hchanges := changes_act h ht hstore action
    rw [hstore'] at hchanges
    subst hcreate
    cases hchanges with
    | same | pulled => exact hclaimed
  | @moved other call _ expired hmove hcall hown hold hupdate =>
    obtain rfl := Option.some.inj (hstore.symm.trans hold)
    obtain ⟨s, stage⟩ := call
    subst hown hupdate
    cases stage with
    | free result => exact absurd hcall (hkeep other result ⟨expired, hmove⟩)
    | claim => rfl
    | _ => exact hclaimed

/--
That a store is claimed while a call has it, and that only one call has it.
-/
structure Claimed (w : World) : Prop where
  initiating : ∀ (id : CallId) (s : StoreId) (store : Store), w.Claims id s → w.stores[s]? = some store →
    store.initiating
  unique : ∀ (id other : CallId) (s : StoreId), w.Claims id s → w.Claims other s → id = other

theorem Claimed.not_free (hc : w.Claimed) (hclaims : w.Claims id s) (hstore : w.stores[s]? = some store) :
    store.initiating ≠ false := by
  rw [hc.initiating id s store hclaims hstore]
  exact Ne.symm Bool.false_ne_true

theorem Claimed.act (hc : w.Claimed) (h : w.Sound) (ht : w.Tidy) (action : Action) : (w.act action).Claimed where
  initiating := by
    intro id s store' hclaims hstore'
    obtain ⟨store, stage, hstands, hstage⟩ := claims_of_act h ht hclaims
    by_cases hmove : action.IsMoveOf id
    · obtain ⟨expired, rfl⟩ := hmove
      obtain ⟨stage', hstands', hfollows⟩ := hstands.follows expired
      obtain ⟨_, hcall', hstage'⟩ := hclaims
      obtain ⟨-, rfl⟩ := Call.mk.inj (Option.some.inj (hstands'.calls.symm.trans hcall'))
      obtain rfl := Option.some.inj (hstands'.stores.symm.trans hstore')
      rcases CallStage.claims_of_follows hfollows hstage' with ⟨rfl, -⟩ | ⟨hbefore, hupdate⟩
      · rfl
      · rw [hupdate]
        exact hc.initiating id s store ⟨stage, hstands.calls, hbefore⟩ hstands.stores
    · have hclaims' : w.Claims id s := ⟨stage, hstands.calls, hstage.resolve_right fun hstart => hmove hstart.2⟩
      refine initiating_act h ht hstands.stores (hc.initiating id s store hclaims' hstands.stores) ?_ hstore'
      intro other result hother hfree
      -- Only a call that has the store gives it free, so the action would be a move of this one.
      obtain rfl := hc.unique id other s hclaims' ⟨_, hfree, rfl⟩
      exact hmove hother
  unique := by
    intro id other s hclaims hclaims'
    obtain ⟨store, stage, hstands, hstage⟩ := claims_of_act h ht hclaims
    obtain ⟨store', stage', hstands', hstage'⟩ := claims_of_act h ht hclaims'
    obtain rfl := Option.some.inj (hstands.stores.symm.trans hstands'.stores)
    rcases hstage with hstage | ⟨hfree, hmove⟩
    · have hbefore : w.Claims id s := ⟨stage, hstands.calls, hstage⟩
      rcases hstage' with hstage' | ⟨hfree, -⟩
      · exact hc.unique id other s hbefore ⟨stage', hstands'.calls, hstage'⟩
      · exact absurd hfree (hc.not_free hbefore hstands.stores)
    · rcases hstage' with hstage' | ⟨-, hmove'⟩
      · exact absurd hfree (hc.not_free ⟨stage', hstands'.calls, hstage'⟩ hstands.stores)
      · obtain ⟨expired, rfl⟩ := hmove
        obtain ⟨expired', heq⟩ := hmove'
        injection heq with heq
        injection heq

theorem Reachable.claimed (h : w.Reachable) : w.Claimed := by
  induction w, h using Reachable.induct with
  | initial mapper now => constructor <;> simp [World.initial, empty, Claims]
  | act w action _ hsound htidy ih => exact ih.act hsound htidy action

end World

end RemoteSlots
