import RemoteSlots.Proofs.Session.Turns
import RemoteSlots.Proofs.World.Stays

/-!
This module shows how the parties of a world come by what they hold and what becomes of it: with every action
one party makes a move, a session gets hold of a block that everybody may use, a call leaves everything to its
store, or parties come and go.
-/

namespace RemoteSlots

open Std

def Action.registers? : Action → Option BlockId
  | startSession _ operation => operation.block?
  | request (.register _ extent _) => some extent.block
  | _ => none

def Loopback.serveAll (net : Loopback) (memory : Memory) (requests : List Request) : Loopback :=
  requests.foldl (fun net request => (net.serve memory request).2) net

namespace World

variable {w w' : World}

theorem net_serveAll (w : World) (requests : List Request) :
    (w.serveAll .loopback requests).net = w.net.serveAll w.memory requests := by
  unfold serveAll Loopback.serveAll
  induction requests generalizing w with
  | nil => rfl
  | cons request requests ih => exact ih (w.serve .loopback request).2

def IsFree (w : World) (party : Party) : Prop :=
  ∀ fabric custody, w.custody? party = some (fabric, custody) → custody = .empty

def Releases (w w' : World) (party : Party) : Prop :=
  w'.custody? party = none ∧ ∀ custody, w.custody? party = some (.loopback, custody) →
    w'.net = w.net.serveAll w.memory custody.release

inductive Settles (w w' : World) (party : Party) : Prop
  | keeps (same : w'.custody? party = w.custody? party)
  | idles (before : w.IsFree party) (after : w'.IsFree party)
  | releases (released : w.Releases w' party)

/--
How what the parties hold can change with an action.
-/
inductive Handover (w w' : World) (action : Action) : Prop
  | moves {σ : Type} (move : Move σ) {party : Party} {fabric : FabricId} {before after : Custody}
    (actor : w.actor? action = some party) (custody : w.custody? party = some (fabric, before))
    (custody' : w'.custody? party = some (fabric, after))
    (step : Custody.Step before move.request? (w.acquired fabric move) after)
    (net : w'.net = (w.perform fabric move).2.2.net)
    (others : ∀ q, q ≠ party → w'.custody? q = w.custody? q)
  | shares {id : SessionId} {fabric : FabricId} {before : Custody} {b : BlockId}
    (registers : action.registers? = some b) (custody : w.custody? (.session id) = some (fabric, before))
    (custody' : w'.custody? (.session id) = some (fabric, { before with blocks := [b] }))
    (net : w'.net = w.net) (others : ∀ q, q ≠ .session id → w'.custody? q = w.custody? q)
  | publishes {id : CallId} {s : StoreId} {fabric : FabricId} {custody : Custody}
    (call : w.custody? (.call id) = some (fabric, custody))
    (store : w.custody? (.store s) = some (fabric, .empty))
    (call' : w'.custody? (.call id) = some (fabric, .empty))
    (store' : w'.custody? (.store s) = some (fabric, custody))
    (net : w'.net = w.net) (others : ∀ q, q ≠ .call id → q ≠ .store s → w'.custody? q = w.custody? q)
  | settles (parties : ∀ party, w.Settles w' party)

theorem Handover.of_custody_eq {action : Action} (h : ∀ party, w'.custody? party = w.custody? party) :
    w.Handover w' action :=
  .settles fun party => .keeps (h party)

theorem IsFree.of_none {party : Party} (h : w.custody? party = none) : w.IsFree party := by
  intro fabric custody hcustody
  rw [h] at hcustody
  contradiction

theorem IsFree.of_empty {party : Party} {fabric : FabricId} (h : w.custody? party = some (fabric, .empty)) :
    w.IsFree party := by
  intro fabric' custody hcustody
  rw [h] at hcustody
  injection hcustody with hcustody
  exact (Prod.mk.inj hcustody).2.symm

theorem IsFree.holdings_eq {party : Party} (h : w.IsFree party) : w.holdings party = [] := by
  unfold holdings
  split
  · rfl
  · next fabric custody hcustody =>
    rw [h fabric custody hcustody]
    rfl

theorem Releases.holdings_eq {party : Party} (h : w.Releases w' party) : w'.holdings party = [] := by
  unfold holdings
  rw [h.1]

theorem Settles.mem_holdings {party : Party} {handle : Handle} (h : w.Settles w' party)
    (hmem : handle ∈ w'.holdings party) : handle ∈ w.holdings party := by
  cases h with
  | keeps same => rwa [← World.holdings_eq same]
  | idles before after =>
    rw [after.holdings_eq] at hmem
    contradiction
  | releases released =>
    rw [released.holdings_eq] at hmem
    contradiction

theorem Handover.mem_holdings {action : Action} (h : w.Handover w' action) {party : Party} {handle : Handle}
    (hmem : handle ∈ w'.holdings party) :
    (∃ q, handle ∈ w.holdings q) ∨
      (∃ (σ : Type) (fabric : FabricId) (move : Move σ), handle ∈ fabric.visible (w.acquired fabric move) ∧
        w'.net = (w.perform fabric move).2.2.net) ∨
      ∃ b, handle = .block b ∧ action.registers? = some b := by
  cases h with
  | @moves σ move party' fabric before after actor custody custody' step net others =>
    by_cases hparty : party = party'
    · subst hparty
      obtain ⟨hhandle, hvisible⟩ := (mem_holdings_iff custody').mp hmem
      rcases step.mem_handles hhandle with hold | hnew
      · exact .inl ⟨party, (mem_holdings_iff custody).mpr ⟨hold, hvisible⟩⟩
      · exact .inr (.inl ⟨σ, fabric, move, FabricId.mem_visible.mpr ⟨hnew, hvisible⟩, net⟩)
    · rw [holdings_eq (others party hparty)] at hmem
      exact .inl ⟨party, hmem⟩
  | @shares id fabric before b registers custody custody' net others =>
    by_cases hparty : party = .session id
    · subst hparty
      obtain ⟨hhandle, hvisible⟩ := (mem_holdings_iff custody').mp hmem
      simp only [Custody.handles, List.map_cons, List.map_nil, List.mem_append, List.mem_singleton] at hhandle
      rcases hhandle with hold | rfl
      · exact .inl ⟨.session id, (mem_holdings_iff custody).mpr ⟨List.mem_append_left _ hold, hvisible⟩⟩
      · exact .inr (.inr ⟨b, rfl, registers⟩)
    · rw [holdings_eq (others party hparty)] at hmem
      exact .inl ⟨party, hmem⟩
  | @publishes id s fabric held call store call' store' net others =>
    by_cases hstore : party = .store s
    · subst hstore
      exact .inl ⟨.call id, (mem_holdings_iff call).mpr ((mem_holdings_iff store').mp hmem)⟩
    · by_cases hcall : party = .call id
      · subst hcall
        rw [(IsFree.of_empty call').holdings_eq] at hmem
        contradiction
      · rw [holdings_eq (others party hcall hstore)] at hmem
        exact .inl ⟨party, hmem⟩
  | settles parties => exact .inl ⟨party, (parties party).mem_holdings hmem⟩

theorem handover_stepSession {id : SessionId} {session : Session} (hsession : w.sessions[id]? = some session)
    (expired : Bool) :
    w.Handover (w.stepSession id session expired).2 (.step (.session id) expired) := by
  have hcalls : (w.stepSession id session expired).2.calls = w.calls := calls_perform ..
  have hstores : (w.stepSession id session expired).2.stores = w.stores := stores_perform ..
  have hsessions : ∀ other, (w.stepSession id session expired).2.sessions[other]? =
      if id = other then some { session with
        stage := (w.perform session.fabric (session.stage.next session.name session.config
          { cancelled := session.cancelled, expired, now := w.now })).1 }
      else w.sessions[other]? := by
    intro other
    simp only [World.stepSession, TreeMap.getElem?_insert, Std.compare_eq_iff_eq, sessions_perform]
  have hbefore : w.custody? (.session id) = some (session.fabric, session.stage.custody) := by
    simp only [custody?, hsession, Option.map_some]
  have hafter : (w.stepSession id session expired).2.custody? (.session id) =
      some (session.fabric, (w.perform session.fabric (session.stage.next session.name session.config
        { cancelled := session.cancelled, expired, now := w.now })).1.custody) := by
    simp only [custody?, hsessions, if_pos, Option.map_some]
  refine .moves
    (session.stage.next session.name session.config { cancelled := session.cancelled, expired, now := w.now })
    rfl hbefore hafter (Stage.custody_step (perform_leads ..)) rfl ?_
  intro q hq
  cases q with
  | call other => exact custody?_call_eq (by rw [hcalls]) (by simp [hstores])
  | session other =>
    have hne : id ≠ other := fun heq => hq (heq ▸ rfl)
    simp only [custody?, hsessions other, if_neg hne]
  | store other => simp only [custody?, hstores]

section StepCall

variable {id : CallId} {call : Call} {store : Store}

theorem custody?_stepCall_call (hcall : w.calls[id]? = some call) (hstore : w.stores[call.store]? = some store)
    (expired : Bool) {other : CallId} (hne : other ≠ id) :
    (w.stepCall id call store expired).2.custody? (.call other) = w.custody? (.call other) := by
  have hspec := stepCall_spec hcall hstore expired
  refine custody?_call_eq (by rw [hspec.calls, if_neg (Ne.symm hne)]) fun s => ?_
  rw [hspec.stores]
  split
  · next heq => rw [← heq, hstore, Option.map_some, Option.map_some, Sound.fabric_update]
  · rfl

theorem custody?_stepCall (hcall : w.calls[id]? = some call) (hstore : w.stores[call.store]? = some store)
    (hready : ∀ active, call.stage = .publish active → store.isReady) (expired : Bool) {q : Party}
    (hq : q ≠ .call id) : (w.stepCall id call store expired).2.custody? q = w.custody? q := by
  have hspec := stepCall_spec hcall hstore expired
  cases q with
  | call other => exact custody?_stepCall_call hcall hstore expired fun heq => hq (heq ▸ rfl)
  | session other => simp only [custody?, hspec.sessions]
  | store other =>
    simp only [custody?, hspec.stores]
    split
    · next heq =>
      rw [← heq, hstore, Option.map_some, Option.map_some, Sound.fabric_update, Sound.custody_update hready]
    · rfl

theorem handover_stepCall (hcall : w.calls[id]? = some call) (hstore : w.stores[call.store]? = some store)
    (expired : Bool) :
    w.Handover (w.stepCall id call store expired).2 (.step (.call id) expired) := by
  have hspec := stepCall_spec hcall hstore expired
  have hcall' := hspec.calls id
  rw [if_pos rfl] at hcall'
  have hstore' := hspec.stores call.store
  rw [if_pos rfl] at hstore'
  have hafter := custody?_of_call hcall' hstore'
  rw [Sound.fabric_update] at hafter
  by_cases hready : ∀ active, call.stage = .publish active → store.isReady
  · exact .moves (call.stage.next store { cancelled := store.cancelled, expired, now := w.now }) rfl
      (custody?_of_call hcall hstore) hafter (CallStage.custody_step (perform_leads ..) hready) hspec.net
      fun q hq => custody?_stepCall hcall hstore hready expired hq
  -- The store was not ready, so it gets what the call held.
  · simp only [Classical.not_forall, exists_prop] at hready
    obtain ⟨active, hpublish, hready⟩ := hready
    have hactive : store.active = none := by simpa [Store.isReady] using hready
    have hmove : call.stage.next store { cancelled := store.cancelled, expired, now := w.now } =
        .pass (.over (.ok ())) := by
      simp [hpublish, CallStage.next, Store.isReady, hactive]
    have hnet := hspec.net
    rw [hmove] at hnet hafter
    refine .publishes (s := call.store) (custody?_of_call hcall hstore) ?_ hafter ?_ hnet ?_
    · simp [custody?, hstore, Store.custody, hactive]
    · simp [custody?, hstore', hpublish, CallStage.update, Store.custody, CallStage.custody, hactive]
    · intro q hcallq hstoreq
      cases q with
      | call other => exact custody?_stepCall_call hcall hstore expired fun heq => hcallq (heq ▸ rfl)
      | session other => simp only [custody?, hspec.sessions]
      | store other =>
        have hne : call.store ≠ other := fun heq => hstoreq (heq ▸ rfl)
        simp only [custody?, hspec.stores, if_neg hne]

end StepCall

theorem handover_step (ht : w.Tidy) (task : Task) (expired : Bool) :
    w.Handover (w.act (.step task expired)) (.step task expired) := by
  cases task with
  | session id =>
    rcases hsession : w.sessions[id]? with _ | session
    · simp only [act, World.step, hsession]
      exact .of_custody_eq fun _ => rfl
    · simp only [act, World.step, hsession]
      exact handover_stepSession hsession expired
  | call id =>
    rcases hcall : w.calls[id]? with _ | call
    · simp only [act, World.step, hcall]
      exact .of_custody_eq fun _ => rfl
    · obtain ⟨store, hstore⟩ := Option.isSome_iff_exists.mp (ht.called id call hcall)
      rw [act_step hcall hstore expired]
      exact handover_stepCall hcall hstore expired

theorem handover_startSession (w : World) (id : SessionId) (operation : Operation) :
    w.Handover (w.act (.startSession id operation)) (.startSession id operation) := by
  rcases act_startSession w id operation with heq | ⟨session, stage, hbefore, hshared, hstart, heq⟩
  · rw [heq]
    exact .of_custody_eq fun _ => rfl
  · rw [heq]
    have hafter : World.custody? { w with sessions := w.sessions.insert id { session with stage } }
        (.session id) = some (session.fabric, stage.custody) := by
      simp [custody?]
    have hothers : ∀ q, q ≠ .session id → World.custody? { w with
        sessions := w.sessions.insert id { session with stage } } q = w.custody? q := by
      intro q hq
      cases q with
      | call other => rfl
      | store other => rfl
      | session other =>
        have hne : id ≠ other := fun heq => hq (heq ▸ rfl)
        simp only [custody?, getElem?_insert_sessions, if_neg hne]
    rcases custody_start hstart with hsame | ⟨extent, rfl, hblock⟩
    · refine .of_custody_eq fun party => ?_
      by_cases hparty : party = .session id
      · rw [hparty, hafter, hbefore, hsame]
      · exact hothers party hparty
    · rw [hblock] at hafter
      exact .shares rfl hbefore hafter rfl hothers

theorem settles_call (ht : w.Tidy) (hcarries : w.Carries w') (id : CallId) : w.Settles w' (.call id) := by
  rcases hcall' : w'.calls[id]? with _ | call'
  · have hnone : w'.custody? (.call id) = none := by simp [custody?, hcall']
    rcases hcall : w.calls[id]? with _ | call
    · exact .keeps (by simp [custody?, hcall, hcall'])
    · rcases hcarries.ended id call hcall with hkept | hresult
      · rw [hcall'] at hkept
        contradiction
      · obtain ⟨store, hstore⟩ := Option.isSome_iff_exists.mp (ht.called id call hcall)
        have hcustody := custody?_of_call hcall hstore
        unfold Call.result? at hresult
        split at hresult
        · next hstage =>
          rw [hstage] at hcustody
          exact .idles (.of_empty hcustody) (.of_none hnone)
        · contradiction
  · rcases hcarries.calls id call' hcall' with hcall | ⟨hlt, -, hstage, hsome⟩
    · obtain ⟨store, hstore⟩ := Option.isSome_iff_exists.mp (ht.called id call' hcall)
      have hsome := hcarries.called id call' hcall' hcall (by rw [hstore]; rfl)
      obtain ⟨store', hstore'⟩ := Option.isSome_iff_exists.mp hsome
      rcases hcarries.stores call'.store store' hstore' with ⟨old, hold, hsame⟩ | ⟨hlt, -⟩
      · apply Settles.keeps
        rw [custody?_of_call hcall' hstore', custody?_of_call hcall hold, hsame.fabric]
      · exact absurd (ht.stores_le _ store hstore) (Nat.not_le_of_lt hlt)
    · obtain ⟨store', hstore'⟩ := Option.isSome_iff_exists.mp hsome
      have hafter := custody?_of_call hcall' hstore'
      rw [hstage] at hafter
      refine .idles (.of_none ?_) (.of_empty hafter)
      rcases hcall : w.calls[id]? with _ | call
      · simp [custody?, hcall]
      · exact absurd (ht.calls_le id call hcall) (Nat.not_le_of_lt hlt)

theorem releases_dropSession {id : SessionId} {session : Session} (hsession : w.sessions[id]? = some session)
    (hrest : session.stage.result?.isSome) : w.Releases (w.act (.dropSession id)) (.session id) := by
  have hatRest : w.isAtRest (.session id) := by
    simp only [isAtRest, result?, hsession]
    exact hrest
  have hact : w.act (.dropSession id) = { w.serveAll session.fabric session.phase.release with
      sessions := (w.serveAll session.fabric session.phase.release).sessions.erase id } := by
    simp only [act, withSession, hsession, if_pos hatRest, dropSession]
  rw [hact]
  refine ⟨by simp [custody?], fun custody hcustody => ?_⟩
  rw [custody?_of_isAtRest hsession hatRest] at hcustody
  obtain ⟨hfabric, rfl⟩ := Prod.mk.inj (Option.some.inj hcustody)
  rw [hfabric]
  exact net_serveAll ..

theorem settles_session (h : w.Reachable) {action : Action} (hstep : ∀ task expired, action ≠ .step task expired)
    (hstart : ∀ id operation, action ≠ .startSession id operation) (id : SessionId) :
    w.Settles (w.act action) (.session id) := by
  have hleaves := sessions_act h.sound.1 action id
  generalize hbefore : w.sessions[id]? = before? at hleaves
  generalize hafter : (w.act action).sessions[id]? = after? at hleaves
  cases hleaves with
  | same => exact .keeps (by simp only [custody?, hbefore, hafter])
  | move expired => exact absurd rfl (hstep _ expired)
  | call operation => exact absurd rfl (hstart id operation)
  | cancel cancelled => exact .keeps (by simp only [custody?, hbefore, hafter, Option.map_some]; rfl)
  | create name config fabric hid =>
    have hempty : (w.act (.createSession name config fabric)).custody? (.session id) =
        some (fabric, .empty) := by
      simp only [custody?, hafter, Option.map_some]
      rfl
    refine .idles (.of_none ?_) (.of_empty hempty)
    rcases hsession : w.sessions[id]? with _ | session
    · simp [custody?, hsession]
    · exact absurd (hid ▸ h.sessions_le hsession) (Nat.not_succ_le_self _)
  | drop hrest => exact .releases (releases_dropSession hbefore hrest)

theorem releases_reap {s : StoreId} {store : Store} {id : StoreId} (hstore : w.stores[s]? = some store)
    (hgone : (w.reap id).stores[s]? = none) : w.Releases (w.reap id) (.store s) := by
  have hnone : (w.reap id).custody? (.store s) = none := by simp [custody?, hgone]
  rcases reap_eq w id with heq | ⟨reaped, hreaped, -, heq⟩
  · rw [heq, hstore] at hgone
    contradiction
  · obtain ⟨_, _, _, hserve⟩ := sameRegistry_serveAll w reaped.fabric reaped.custody.release
    have hid : id = s := by
      rw [heq] at hgone
      simp only [hserve, TreeMap.getElem?_erase, Std.compare_eq_iff_eq, hstore] at hgone
      by_contra hne
      rw [if_neg hne] at hgone
      contradiction
    subst hid
    rw [hstore] at hreaped
    injection hreaped with hreaped
    subst hreaped
    refine ⟨hnone, fun custody hcustody => ?_⟩
    simp only [custody?, hstore, Option.map_some, Option.some.injEq, Prod.mk.injEq] at hcustody
    obtain ⟨hfabric, rfl⟩ := hcustody
    rw [heq, hfabric]
    exact net_serveAll ..

theorem mem_stores_pullMany (pulls : Nat) (ids : List StoreId) {s : StoreId} (hs : s ∈ w.stores) :
    s ∈ (ids.foldl (pullMany · pulls) w).stores := by
  induction ids generalizing w with
  | nil => exact hs
  | cons id ids ih => exact ih (TreeMap.mem_modify.mpr hs)

theorem mem_stores_act (h : w.Sound) (ht : w.Tidy) {action : Action} {s : StoreId} (hs : s ∈ w.stores)
    (hend : ∀ id, action ≠ .endCall id) (hdrop : ∀ id, action ≠ .dropStore id) : s ∈ (w.act action).stores := by
  by_cases hplain : action.isPlain
  · obtain ⟨_, _, _, heq⟩ := h.sameRegistry_act hplain
    rw [heq]
    exact hs
  · cases action with
    | step task expired =>
      rw [TreeMap.mem_iff_isSome_getElem?] at hs ⊢
      rcases stores_step ht task expired s with heq | ⟨_, _, -, heq⟩
      · rwa [heq]
      · rw [heq]
        rfl
    | endCall id => exact absurd rfl (hend id)
    | dropStore id => exact absurd rfl (hdrop id)
    | createStore layout config fabric =>
      simp only [act, createStore]
      rcases Store.new layout config fabric with failure | store
      · exact hs
      · exact TreeMap.mem_insert.mpr (.inr hs)
    | initiate id =>
      simp only [act, withStore]
      split <;> exact hs
    | cancelStore id cancelled => exact TreeMap.mem_modify.mpr hs
    | pull id =>
      simp only [act, withStore]
      split
      · exact hs
      · next store _ =>
        simp only [pull]
        rcases store.storage .append with failure | storage
        · exact hs
        · exact TreeMap.mem_insert.mpr (.inr hs)
    | pullLogs ids pulls =>
      simp only [act, benchmarkLogs]
      split
      · exact hs
      · exact mem_stores_pullMany pulls ids hs
    | startSession id operation =>
      rcases act_startSession w id operation with heq | ⟨_, _, -, -, -, heq⟩
      · rwa [heq]
      · rw [heq]
        exact hs
    | createSession | cancelSession | createScript => exact hs
    | dropSession id => rwa [stores_act_dropSession]
    | _ => exact absurd rfl hplain

theorem releases_store (h : w.Sound) (ht : w.Tidy) {action : Action} {s : StoreId} {store : Store}
    (hstore : w.stores[s]? = some store) (hgone : (w.act action).stores[s]? = none) :
    w.Releases (w.act action) (.store s) := by
  by_cases hend : ∃ id, action = .endCall id
  · obtain ⟨id, rfl⟩ := hend
    simp only [act, endCall] at hgone ⊢
    split at hgone
    · next hrest =>
      split at hgone
      · rw [hstore] at hgone
        contradiction
      · next call hcall =>
        rw [if_pos hrest]
        exact releases_reap (w := { w with calls := w.calls.erase id }) hstore hgone
    · rw [hstore] at hgone
      contradiction
  · by_cases hdrop : ∃ id, action = .dropStore id
    · obtain ⟨id, rfl⟩ := hdrop
      have hmodify : ∀ other : StoreId,
          (w.stores.modify id fun store => { store with dropped := true })[other]? =
            if id = other then w.stores[other]?.map fun store => { store with dropped := true }
            else w.stores[other]? := by
        intro other
        rw [TreeMap.getElem?_modify]
        simp only [Std.compare_eq_iff_eq]
        split
        · next heq => rw [heq]
        · rfl
      have hcustody : World.custody? { w with
          stores := w.stores.modify id fun store => { store with dropped := true } } (.store s) =
            w.custody? (.store s) := by
        simp only [custody?, hmodify]
        split
        · rw [Option.map_map]
          rfl
        · rfl
      obtain ⟨dropped, hdropped⟩ : ∃ dropped,
          (w.stores.modify id fun store => { store with dropped := true })[s]? = some dropped := by
        rw [hmodify, hstore]
        split <;> exact ⟨_, rfl⟩
      obtain ⟨hnone, hnet⟩ := releases_reap (w := { w with
        stores := w.stores.modify id fun store => { store with dropped := true } }) hdropped hgone
      rw [hcustody] at hnet
      exact ⟨hnone, hnet⟩
    · have hmem := mem_stores_act h ht (TreeMap.mem_iff_isSome_getElem?.mpr (by rw [hstore]; rfl))
        (fun id heq => hend ⟨id, heq⟩) fun id heq => hdrop ⟨id, heq⟩
      rw [TreeMap.mem_iff_isSome_getElem?, hgone] at hmem
      contradiction

theorem settles_store (h : w.Sound) (ht : w.Tidy) {action : Action} (hcarries : w.Carries (w.act action))
    (s : StoreId) : w.Settles (w.act action) (.store s) := by
  rcases hstore' : (w.act action).stores[s]? with _ | store'
  · rcases hstore : w.stores[s]? with _ | store
    · exact .keeps (by simp [custody?, hstore, hstore'])
    · exact .releases (releases_store h ht hstore hstore')
  · rcases hcarries.stores s store' hstore' with ⟨store, hstore, hsame⟩ | ⟨hlt, -, hactive⟩
    · exact .keeps (by simp [custody?, hstore', hstore, hsame.fabric, Store.custody, hsame.active])
    · have hempty : (w.act action).custody? (.store s) = some (store'.fabric, .empty) := by
        simp [custody?, hstore', Store.custody, hactive]
      refine .idles (.of_none ?_) (.of_empty hempty)
      rcases hstore : w.stores[s]? with _ | store
      · simp [custody?, hstore]
      · exact absurd (ht.stores_le s store hstore) (Nat.not_le_of_lt hlt)

theorem Reachable.handover (h : w.Reachable) (action : Action) : w.Handover (w.act action) action := by
  obtain ⟨hw, ht⟩ := h.sound
  by_cases hstep : ∃ task expired, action = .step task expired
  · obtain ⟨task, expired, rfl⟩ := hstep
    exact handover_step ht task expired
  · by_cases hstart : ∃ id operation, action = .startSession id operation
    · obtain ⟨id, operation, rfl⟩ := hstart
      exact handover_startSession w id operation
    · have hstep : ∀ task expired, action ≠ .step task expired :=
        fun task expired heq => hstep ⟨task, expired, heq⟩
      have hcarries := carries_act hw ht hstep
      refine .settles fun party => ?_
      cases party with
      | call id => exact settles_call ht hcarries id
      | session id => exact settles_session h hstep (fun id operation heq => hstart ⟨id, operation, heq⟩) id
      | store s => exact settles_store hw ht hcarries s

end World

end RemoteSlots
