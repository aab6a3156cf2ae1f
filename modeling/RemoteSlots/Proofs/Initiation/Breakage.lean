import RemoteSlots.Proofs.Initiation.Totality

/-!
This module shows what an initiation that breaks off leaves behind: its store stays claimed although no call has it, so
no other call ever initiates it.
-/

namespace RemoteSlots

open Std

namespace World

variable {w : World} {id : CallId} {s : StoreId} {store : Store}

/--
Whether a store is claimed although no call has it.
-/
structure IsStuck (w : World) (s : StoreId) : Prop where
  known : s ≤ w.lastId
  unclaimed : ∀ id, ¬w.Claims id s
  initiating : ∀ store, w.stores[s]? = some store → store.initiating

theorem IsStuck.act (h : w.Sound) (ht : w.Tidy) (hstuck : w.IsStuck s) (action : Action) :
    (w.act action).IsStuck s where
  known := Nat.le_trans hstuck.known (lastId_le_act h ht action)
  unclaimed := by
    intro id hclaims
    obtain ⟨store, stage, hstands, hstage | ⟨hfree, -⟩⟩ := claims_of_act h ht hclaims
    · exact hstuck.unclaimed id ⟨stage, hstands.calls, hstage⟩
    · rw [hstuck.initiating store hstands.stores] at hfree
      contradiction
  initiating := by
    intro store' hstore'
    rcases hstore : w.stores[s]? with _ | store
    · exact absurd (hstore'.symm.trans (gone_act h ht hstuck.known hstore action)) (Option.some_ne_none _)
    · refine initiating_act h ht hstore (hstuck.initiating store hstore) ?_ hstore'
      exact fun id result _ hcall => hstuck.unclaimed id ⟨_, hcall, rfl⟩

theorem Claimed.isStuck_of_faulted (hc : w.Claimed) (h : w.Sound) (ht : w.Tidy)
    (hstands : w.Stands id s store (.initiate (.finished (.error .faulted)))) (expired : Bool) :
    (w.act (.step (.call id) expired)).IsStuck s := by
  have hclaims : w.Claims id s := ⟨_, hstands.calls, rfl⟩
  have hstep := hstands.step expired
  refine ⟨Nat.le_trans (ht.stores_le s store hstands.stores) (lastId_le_act h ht _), fun other hother => ?_, ?_⟩
  · obtain ⟨store', stage, hstands', hstage | ⟨hfree, -⟩⟩ := claims_of_act h ht hother
    · obtain rfl := hc.unique id other s hclaims ⟨stage, hstands'.calls, hstage⟩
      obtain ⟨stage', hcall', hstage'⟩ := hother
      obtain ⟨-, rfl⟩ := Call.mk.inj (Option.some.inj (hstep.calls.symm.trans hcall'))
      contradiction
    · exact absurd hfree (hc.not_free hclaims hstands'.stores)
  · intro store' hstore'
    obtain rfl := Option.some.inj (hstep.stores.symm.trans hstore')
    exact hc.initiating id s store hclaims hstands.stores

theorem Reachable.isStuck (h : w.Reachable) (hcall : w.calls[id]? = some ⟨s, .over (.error .faulted)⟩) :
    w.IsStuck s := by
  induction w, h using Reachable.induct with
  | initial mapper now => simp [World.initial, empty] at hcall
  | act w action h hw ht ih =>
    cases callSource_act hw ht hcall with
    | kept hkept => exact (ih hkept).act hw ht action
    | started hstage => contradiction
    | @moved call store expired hmove hbefore hstore hstage =>
      obtain ⟨s', stage⟩ := call
      obtain ⟨rfl, hnext⟩ := Call.mk.inj hstage
      have hfollows := CallStage.follows_of_leads (perform_leads w store.fabric
        (stage.next store ⟨store.cancelled, expired, w.now⟩))
      rw [← hnext] at hfollows
      cases hfollows with
      | faulted => exact hmove ▸ h.claimed.isStuck_of_faulted hw ht ⟨hbefore, hstore⟩ expired
      | stays => exact (ih hbefore).act hw ht action

theorem stuck_after (h : w.Reachable) (hcall : w.calls[id]? = some ⟨s, .over (.error .faulted)⟩)
    (actions : List Action) : (w.after actions).IsStuck s := by
  induction actions using List.reverseRecOn with
  | nil => exact h.isStuck hcall
  | append_singleton actions action ih =>
    obtain ⟨hw, ht⟩ := (h.after actions).sound
    rw [after_concat]
    exact ih.act hw ht action

set_option maxRecDepth 10000 in
theorem pageless_initiation_breaks_off :
    let config := { sampleStore.config with pages := .huge 0 }
    let w := (initial (.above 4096 4096) .zero).after [.createStore .keyValue config .loopback]
    let started := (w.startInitiation 1).2
    let actions := sampleMoves 5 ++ [.connect 7000] ++ sampleMoves 18
    let broken := started.after actions
    w.Reachable ∧ (Store.new .keyValue config .loopback).isOk ∧ (Storage.byteSize .keyValue config.capacity).isOk ∧
      config.session.IsTimely w.now ∧ broken.result? (.call 2) = some (.error .faulted) ∧ ¬started.Returns 2 1 actions ∧
        ((broken.act (.initiate 1)).after (moves 3 [false, false])).result? (.call 3) =
          some (.error (.failed (Call.tooLate "initiating"))) ∧
        ∀ later, (broken.after later).IsStuck 1 := by
  intro config w started actions broken
  have hbroken : broken.result? (.call 2) = some (.error .faulted) := by decide +kernel
  have hclaimed : ((broken.act (.initiate 1)).after (moves 3 [false, false])).result? (.call 3) =
      some (.error (.failed (Call.tooLate "initiating"))) := by decide +kernel
  have hstore : broken.calls[2]?.any (·.store = 1) := by decide +kernel
  have hcall := calls_of_faulted hstore hbroken
  have hreach : w.Reachable := ⟨.above 4096 4096, .zero, _, rfl⟩
  have hcreated : w.stores[1]?.isSome := by decide +kernel
  obtain ⟨store, hstored⟩ := Option.isSome_iff_exists.mp hcreated
  have hstarted : started.Reachable := hreach.startInitiation hstored
  have htimely : config.session.IsTimely w.now := ⟨by rintro limit ⟨⟩, by decide +kernel⟩
  exact ⟨hreach, by decide +kernel, by decide +kernel, htimely, hbroken,
    fun hreturns => hreturns.calls_ne hcall, hclaimed, stuck_after (hstarted.after actions) hcall⟩

end World

end RemoteSlots
