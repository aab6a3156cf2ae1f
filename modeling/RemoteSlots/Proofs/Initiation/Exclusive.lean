import RemoteSlots.Proofs.World.Firm
import RemoteSlots.Proofs.World.Stays

/-!
This module shows that at most one session is ready for a store or about to be, however many calls initiate the
store at a time: the first call that acquires a session in full has its port, so that no other gets that far.
-/

namespace RemoteSlots

open Std

def CallStage.active? : CallStage → Option Active
  | initiate (.finished (.ok active)) | free (.ok active) | publish active => some active
  | _ => none

structure Active.IsUp (active : Active) (net : Loopback) : Prop where
  listener : net.listeners[active.binding.port]? =
    some { channel := active.binding.channel, listening := true }
  link : ∃ link, net.links[active.endpoint.handle]? = some link ∧ link.serverClosed = false ∧
    link.regions = [⟨active.region.toExtent, active.region.keys.localKey, .full⟩]

theorem Active.isUp_of_isFirm {active : Active} {net : Loopback} (h : active.phase.foothold.IsFirm net) :
    active.IsUp net :=
  ⟨h.port _ _ rfl, h.link _ _ rfl⟩

theorem CallStage.foothold_of_active? {stage : CallStage} {active : Active} (h : stage.active? = some active) :
    stage.foothold = active.phase.foothold ∧ stage.aim? = some active.binding.port ∧
      stage.custody = active.phase.custody := by
  cases stage with
  | initiate initiation =>
    cases initiation with
    | finished result =>
      rcases result with halt | active'
      · contradiction
      · injection h with h
        rw [← h]
        exact ⟨rfl, rfl, rfl⟩
    | _ => contradiction
  | free result =>
    rcases result with failure | active'
    · contradiction
    · injection h with h
      rw [← h]
      exact ⟨rfl, rfl, rfl⟩
  | publish active' =>
    injection h with h
    rw [← h]
    exact ⟨rfl, rfl, rfl⟩
  | _ => contradiction

namespace World

variable {w : World} {s : StoreId} {store : Store} {active : Active}

/--
Who has the session with which a store is ready, or is about to become ready.
-/
inductive HasSession (w : World) (s : StoreId) (active : Active) : Party → Prop
  | call {id : CallId} {stage : CallStage} (hcall : w.calls[id]? = some ⟨s, stage⟩)
    (hactive : stage.active? = some active) : HasSession w s active (.call id)
  | store {store : Store} (hstore : w.stores[s]? = some store) (hactive : store.active = some active) :
    HasSession w s active (.store s)

theorem HasSession.custody?_eq {party : Party} (h : w.HasSession s active party)
    (hstore : w.stores[s]? = some store) : w.custody? party = some (store.fabric, active.phase.custody) := by
  cases h with
  | call hcall hactive =>
    rw [custody?_of_call hcall hstore, (CallStage.foothold_of_active? hactive).2.2]
  | store hstore' hactive =>
    rw [hstore] at hstore'
    injection hstore' with hstore'
    exact custody?_of_active hstore (hstore' ▸ hactive)

theorem Firm.isUp (hf : w.Firm) {party : Party} (hsession : w.HasSession s active party)
    (hstore : w.stores[s]? = some store) (hfabric : store.fabric = .loopback) :
    active.IsUp w.net ∧ active.binding.port = store.config.port := by
  cases hsession with
  | call hcall hactive =>
    obtain ⟨hfirm, haim⟩ := hf.calls _ _ store hcall hstore hfabric
    obtain ⟨hfoothold, hport, -⟩ := CallStage.foothold_of_active? hactive
    exact ⟨Active.isUp_of_isFirm (hfoothold ▸ hfirm), haim _ hport⟩
  | store hstore' hactive =>
    rw [hstore] at hstore'
    injection hstore' with hstore'
    obtain ⟨hfirm, hport⟩ := hf.stores s store active hstore hfabric (hstore' ▸ hactive)
    exact ⟨Active.isUp_of_isFirm hfirm, hport⟩

theorem HasSession.active_eq {active' : Active} {party : Party} (h : w.HasSession s active party)
    (h' : w.HasSession s active' party) : active' = active := by
  cases h with
  | call hcall hactive =>
    cases h' with
    | call hcall' hactive' =>
      rw [hcall] at hcall'
      injection hcall' with hcall'
      injection hcall' with _ hstage
      subst hstage
      rw [hactive] at hactive'
      injection hactive' with hactive'
      exact hactive'.symm
  | store hstore hactive =>
    cases h' with
    | store hstore' hactive' =>
      rw [hstore] at hstore'
      injection hstore' with hstore'
      subst hstore'
      rw [hactive] at hactive'
      injection hactive' with hactive'
      exact hactive'.symm

theorem Firm.hasSession_unique (hf : w.Firm) (h : w.Sound) (hstore : w.stores[s]? = some store)
    (hfabric : store.fabric = .loopback) {p q : Party} {active' : Active} (hp : w.HasSession s active p)
    (hq : w.HasSession s active' q) : q = p ∧ active' = active := by
  have hchannel : active'.binding.channel = active.binding.channel := by
    obtain ⟨hup, hport⟩ := hf.isUp hp hstore hfabric
    obtain ⟨hup', hport'⟩ := hf.isUp hq hstore hfabric
    have hlistener := hup.listener
    rw [hport, ← hport', hup'.listener] at hlistener
    injection hlistener with hlistener
    injection hlistener
  have hmem : ∀ {party : Party} {a : Active}, w.HasSession s a party →
      .channel a.binding.channel ∈ w.holdings party := by
    intro party a hsession
    have hcustody := hsession.custody?_eq hstore
    rw [hfabric] at hcustody
    apply mem_holdings_of_custody hcustody
    exact Phase.mem_custody_of_foothold (by simp [Phase.foothold, Foothold.handles, Active.phase, Phase.binding?])
  have hsame : q = p := by
    refine h.exclusive q p _ (hmem hq) ?_ (.inl rfl)
    rw [hchannel]
    exact hmem hp
  subst hsame
  exact ⟨rfl, hp.active_eq hq⟩

theorem Firm.hasSession_step (hf : w.Firm) (h : w.Sound) {id : CallId} {stage : CallStage}
    (hcall : w.calls[id]? = some ⟨s, stage⟩) (hstore : w.stores[s]? = some store)
    (hfabric : store.fabric = .loopback) (hactive : stage.active? = some active) (expired : Bool) :
    ∃ q, (w.act (.step (.call id) expired)).HasSession s active q := by
  have hspec := stepCall_spec hcall hstore expired
  rw [act_step hcall hstore expired]
  have hcall' := hspec.calls id
  have hstore' := hspec.stores s
  rw [if_pos rfl] at hcall' hstore'
  cases stage with
  | initiate initiation =>
    cases initiation with
    | finished result =>
      rcases result with halt | active'
      · contradiction
      · exact ⟨_, .call hcall' hactive⟩
    | _ => contradiction
  | free result =>
    rcases result with failure | active'
    · contradiction
    · exact ⟨_, .call hcall' hactive⟩
  | publish active' =>
    injection hactive with hactive
    subst hactive
    have hidle : store.active = none := by
      rcases hready : store.active with _ | other
      · rfl
      · obtain ⟨hparty, -⟩ := hf.hasSession_unique h hstore hfabric (.call hcall rfl) (.store hstore hready)
        contradiction
    refine ⟨_, .store hstore' ?_⟩
    simp [CallStage.update, hidle]
  | _ => contradiction

theorem Firm.hasSession_act (hf : w.Firm) (h : w.Sound) (ht : w.Tidy) (hstore : w.stores[s]? = some store)
    (hfabric : store.fabric = .loopback) {party : Party} (hsession : w.HasSession s active party)
    (action : Action) :
    (∃ q, (w.act action).HasSession s active q) ∨ (w.act action).stores[s]? = none := by
  cases hsession with
  | store hstore' hactive =>
    rcases hafter : (w.act action).stores[s]? with _ | store'
    · exact .inr rfl
    · exact .inl ⟨_, .store hafter ((retains_act h ht hstore' hafter).active active hactive)⟩
  | @call id stage hcall hactive =>
    by_cases hmove : action.IsMoveOf id
    · obtain ⟨expired, rfl⟩ := hmove
      exact .inl (hf.hasSession_step h hcall hstore hfabric hactive expired)
    · have hresult : Call.result? ⟨s, stage⟩ = none := by
        cases stage with
        | initiate | free | publish => rfl
        | _ => contradiction
      exact .inl ⟨_, .call (calls_act h ht hcall hresult hmove) hactive⟩

theorem Reachable.hasSession_after (h : w.Reachable) (hstore : w.stores[s]? = some store)
    (hfabric : store.fabric = .loopback) {party : Party} (hsession : w.HasSession s active party)
    (actions : List Action) :
    (∃ q, (w.after actions).HasSession s active q) ∨ (w.after actions).stores[s]? = none := by
  obtain ⟨hw, ht⟩ := h.sound
  induction actions using List.reverseRecOn with
  | nil => exact .inl ⟨party, hsession⟩
  | append_singleton actions action ih =>
    have hreach := h.after actions
    obtain ⟨hw', ht'⟩ := hreach.sound
    rw [after_concat]
    rcases retains_after hw ht hstore actions with ⟨store', hstore', hretains, -⟩ | ⟨hgone, -⟩
    · rcases ih with ⟨q, hq⟩ | hgone
      · exact hreach.firm.hasSession_act hw' ht' hstore' (hretains.setup.fabric.trans hfabric) hq action
      · rw [hstore'] at hgone
        contradiction
    · have hle := Nat.le_trans (ht.stores_le s store hstore) (after_spec hw ht actions).2.2
      exact .inr (gone_act hw' ht' hle hgone action)

end World

end RemoteSlots
