import RemoteSlots.Proofs.World.Call

/-!
This module contains the invariant of ownership: a channel or an endpoint is held by one party at most, a
block of an initiation under way by its call alone, and nobody but the peer of that call reaches the block.
-/

namespace RemoteSlots

open Std

def Party.Owns (party : Party) (handle : Handle) : Prop :=
  handle.isBlock = false ∨ ∃ id, party = .call id

theorem Party.owns_call (id : CallId) (handle : Handle) : (call id).Owns handle := .inr ⟨id, rfl⟩

namespace World

/--
The invariant of ownership.
-/
structure Sound (w : World) : Prop where
  net : w.net.Sound
  issued : ∀ party, ∀ handle ∈ w.holdings party, handle.IsIssued w.memory w.net
  live : ∀ party, ∀ handle ∈ w.holdings party, handle.IsLive w.memory
  exclusive : ∀ p q handle, handle ∈ w.holdings p → handle ∈ w.holdings q → p.Owns handle → p = q
  reach : ∀ (k : ConnectionId) (link : Link), w.net.links[k]? = some link → ∀ r ∈ link.regions,
    (Handle.block r.extent.block).IsIssued w.memory w.net ∧
      ∀ id fabric custody, w.custody? (.call id) = some (fabric, custody) →
        r.extent.block ∈ custody.blocks → .endpoint k ∈ w.holdings (.call id)
  mapped : ∀ (k : ConnectionId) (link : Link), w.net.links[k]? = some link → ∀ r ∈ link.regions,
    w.memory.isLive r.extent.block

def MayUse (w : World) (actor : Option Party) (handle : Handle) : Prop :=
  match actor with
  | some party => handle ∈ w.holdings party
  | none => (handle.IsIssued w.memory w.net ∧ handle.IsLive w.memory) ∧ ∀ p, p.Owns handle → handle ∉ w.holdings p

structure Inherits (w w' : World) (party : Party) (acquired : List Handle) : Prop where
  handles : ∀ handle ∈ w'.holdings party, handle ∈ w.holdings party ∨ handle ∈ acquired
  blocks : ∀ fabric custody, w'.custody? party = some (fabric, custody) → ∀ b ∈ custody.blocks,
    .block b ∈ acquired ∨ ∃ old, w.custody? party = some (fabric, old) ∧ b ∈ old.blocks ∧
      ∀ k, .endpoint k ∈ w.holdings party → .endpoint k ∈ w'.holdings party

variable {w w' : World}

theorem holdings_eq {party : Party} (h : w'.custody? party = w.custody? party) :
    w'.holdings party = w.holdings party := by
  unfold holdings
  rw [h]

theorem mem_holdings_iff {party : Party} {fabric : FabricId} {custody : Custody} {handle : Handle}
    (h : w.custody? party = some (fabric, custody)) :
    handle ∈ w.holdings party ↔ handle ∈ custody.handles ∧ (fabric = .loopback ∨ handle.isBlock) := by
  unfold holdings
  rw [h]
  exact FabricId.mem_visible

theorem mem_holdings_of_mem_blocks {party : Party} {fabric : FabricId} {custody : Custody} {b : BlockId}
    (h : w.custody? party = some (fabric, custody)) (hb : b ∈ custody.blocks) :
    .block b ∈ w.holdings party :=
  (mem_holdings_iff h).mpr ⟨Custody.mem_handles_of_mem_blocks hb, .inr rfl⟩

theorem Inherits.of_custody_eq {party : Party} (h : w'.custody? party = w.custody? party) :
    w.Inherits w' party [] := by
  have hholdings := holdings_eq h
  refine ⟨?_, ?_⟩
  · rw [hholdings]
    exact fun _ hmem => .inl hmem
  · intro fabric custody hcustody b hb
    rw [h] at hcustody
    rw [hholdings]
    exact .inr ⟨custody, hcustody, hb, fun _ hk => hk⟩

theorem Inherits.of_step {party : Party} {fabric : FabricId} {before after : Custody}
    {request : Option Request} {acquired : List Handle}
    (hbefore : w.custody? party = some (fabric, before))
    (hafter : w'.custody? party = some (fabric, after))
    (hstep : Custody.Step before request acquired after) :
    w.Inherits w' party (fabric.visible acquired) := by
  refine ⟨?_, ?_⟩
  · intro handle hmem
    obtain ⟨hmem, hvisible⟩ := (mem_holdings_iff hafter).mp hmem
    rcases hstep.mem_handles hmem with hold | hnew
    · exact .inl ((mem_holdings_iff hbefore).mpr ⟨hold, hvisible⟩)
    · exact .inr (FabricId.mem_visible.mpr ⟨hnew, hvisible⟩)
  · intro fabric' custody hcustody b hb
    rw [hafter] at hcustody
    obtain ⟨rfl, rfl⟩ := Prod.mk.inj (Option.some.inj hcustody)
    rcases hstep.mem_blocks hb with hnew | ⟨hold, hkeep⟩
    · exact .inl (FabricId.mem_visible.mpr ⟨hnew, .inr rfl⟩)
    · refine .inr ⟨before, hbefore, hold, fun k hk => ?_⟩
      obtain ⟨hk, hvisible⟩ := (mem_holdings_iff hbefore).mp hk
      exact (mem_holdings_iff hafter).mpr ⟨hkeep k hk, hvisible⟩

theorem Inherits.of_custody_eq_none {party : Party} (h : w'.custody? party = none) :
    w.Inherits w' party [] := by
  refine ⟨?_, ?_⟩
  · unfold holdings
    rw [h]
    exact fun _ hmem => by contradiction
  · rw [h]
    exact fun _ _ hnone => by contradiction

theorem Inherits.of_empty {party : Party} {fabric : FabricId}
    (h : w'.custody? party = some (fabric, .empty)) : w.Inherits w' party [] := by
  refine ⟨?_, ?_⟩
  · unfold holdings
    rw [h]
    exact fun _ hmem => by contradiction
  · intro fabric' custody hcustody b hb
    rw [h] at hcustody
    obtain ⟨rfl, rfl⟩ := Prod.mk.inj (Option.some.inj hcustody)
    contradiction

theorem custody?_call_eq {id : CallId} (hcalls : w'.calls[id]? = w.calls[id]?)
    (hstores : ∀ s : StoreId, (w'.stores[s]?).map (·.fabric) = (w.stores[s]?).map (·.fabric)) :
    w'.custody? (.call id) = w.custody? (.call id) := by
  unfold custody?
  dsimp only
  rw [hcalls]
  rcases w.calls[id]? with _ | call
  · rfl
  · have hfabric := hstores call.store
    simp only [Option.bind_eq_bind, Option.bind_some]
    rcases hstore : w.stores[call.store]? with _ | store
    · rw [hstore, Option.map_none, Option.map_eq_none_iff] at hfabric
      rw [hfabric]
    · rw [hstore, Option.map_some, Option.map_eq_some_iff] at hfabric
      obtain ⟨store', hstore', hfabric⟩ := hfabric
      rw [hstore', Option.bind_some, Option.bind_some, hfabric]

theorem custody?_of_call {id : CallId} {call : Call} {store : Store} (hcall : w.calls[id]? = some call)
    (hstore : w.stores[call.store]? = some store) :
    w.custody? (.call id) = some (store.fabric, call.stage.custody) := by
  simp [custody?, hcall, hstore]

namespace Sound

theorem isIssued_of_mayUse (h : w.Sound) {actor : Option Party} {handle : Handle}
    (huse : w.MayUse actor handle) : handle.IsIssued w.memory w.net := by
  cases actor with
  | none => exact huse.1.1
  | some party => exact h.issued party handle huse

theorem isLive_of_mayUse (h : w.Sound) {actor : Option Party} {handle : Handle} (huse : w.MayUse actor handle) :
    handle.IsLive w.memory := by
  cases actor with
  | none => exact huse.1.2
  | some party => exact h.live party handle huse

theorem actor_eq (h : w.Sound) {actor : Option Party} {party : Party} {handle : Handle}
    (huse : w.MayUse actor handle) (howns : party.Owns handle) (hmem : handle ∈ w.holdings party) :
    actor = some party := by
  cases actor with
  | none => exact absurd hmem (huse.2 party howns)
  | some p => exact congrArg some (h.exclusive party p handle hmem huse howns).symm

theorem inherit (h : w.Sound) {actor : Option Party}
    (hadvances : Advances (w.MayUse actor) w.memory w.net w'.memory w'.net)
    (hlive : ∀ b, w.memory.isLive b → w'.memory.isLive b)
    (hinherits : ∀ party, ∃ acquired, w.Inherits w' party acquired ∧ ∀ handle ∈ acquired,
      (handle.IsIssued w'.memory w'.net ∧ handle.IsLive w'.memory) ∧
      (∀ q, handle ∈ w'.holdings q → party.Owns handle ∨ q.Owns handle → q = party) ∧
      ((∃ id, party = .call id) → ¬handle.IsIssued w.memory w.net)) :
    w'.Sound where
  net := hadvances.sound
  issued := by
    intro party handle hmem
    obtain ⟨acquired, hinherit, hacquired⟩ := hinherits party
    rcases hinherit.handles handle hmem with hold | hnew
    · exact (h.issued party handle hold).mono h.net hadvances.evolves hadvances.size_le
    · exact (hacquired handle hnew).1.1
  live := by
    intro party handle hmem
    obtain ⟨acquired, hinherit, hacquired⟩ := hinherits party
    rcases hinherit.handles handle hmem with hold | hnew
    · exact (h.live party handle hold).mono hlive
    · exact (hacquired handle hnew).1.2
  exclusive := by
    intro p q handle hp hq howns
    obtain ⟨acquired, hinherit, hacquired⟩ := hinherits p
    rcases hinherit.handles handle hp with hpold | hpnew
    · obtain ⟨acquired', hinherit', hacquired'⟩ := hinherits q
      rcases hinherit'.handles handle hq with hqold | hqnew
      · exact h.exclusive p q handle hpold hqold howns
      · exact (hacquired' handle hqnew).2.1 p hp (.inr howns)
    · exact ((hacquired handle hpnew).2.1 q hq (.inl howns)).symm
  reach := by
    intro k link' hlink' r hr
    -- Either the region was there before, or somebody registered it who may use its block.
    rcases hadvances.regions k link' hlink' r hr with ⟨link, hlink, hold⟩ | ⟨hk, hblock⟩
    · obtain ⟨hissued, hcalls⟩ := h.reach k link hlink r hold
      refine ⟨hissued.mono h.net hadvances.evolves hadvances.size_le, ?_⟩
      intro id fabric custody hcustody hb
      obtain ⟨acquired, hinherit, hacquired⟩ := hinherits (.call id)
      rcases hinherit.blocks fabric custody hcustody _ hb with hnew | ⟨old, hcold, hbold, hkeep⟩
      · exact absurd hissued ((hacquired _ hnew).2.2 ⟨id, rfl⟩)
      · exact hkeep k (hcalls id fabric old hcold hbold)
    · have hissued := h.isIssued_of_mayUse hblock
      refine ⟨hissued.mono h.net hadvances.evolves hadvances.size_le, ?_⟩
      intro id fabric custody hcustody hb
      obtain ⟨acquired, hinherit, hacquired⟩ := hinherits (.call id)
      rcases hinherit.blocks fabric custody hcustody _ hb with hnew | ⟨old, hcold, hbold, hkeep⟩
      · exact absurd hissued ((hacquired _ hnew).2.2 ⟨id, rfl⟩)
      · obtain rfl := h.actor_eq hblock (Party.owns_call id _) (mem_holdings_of_mem_blocks hcold hbold)
        exact hkeep k hk
  mapped := by
    intro k link' hlink' r hr
    rcases hadvances.regions k link' hlink' r hr with ⟨link, hlink, hold⟩ | ⟨-, hblock⟩
    · exact hlive _ (h.mapped k link hlink r hold)
    · exact hlive _ (h.isLive_of_mayUse hblock)

theorem settle (h : w.Sound) {actor : Option Party}
    (hadvances : Advances (w.MayUse actor) w.memory w.net w'.memory w'.net)
    (hlive : ∀ b, w.memory.isLive b → w'.memory.isLive b) (hinherits : ∀ party, w.Inherits w' party []) : w'.Sound :=
  h.inherit hadvances hlive fun party => ⟨[], hinherits party, fun _ hmem => by contradiction⟩

theorem perform (h : w.Sound) {party : Party} {fabric : FabricId} {before after : Custody}
    {move : Move σ} (hbefore : w.custody? party = some (fabric, before))
    (huses : ∀ handle ∈ move.uses, handle ∈ before.handles)
    (hmemory : w'.memory = (w.perform fabric move).2.2.memory)
    (hnet : w'.net = (w.perform fabric move).2.2.net)
    (hafter : w'.custody? party = some (fabric, after))
    (hstep : Custody.Step before move.request? (w.acquired fabric move) after)
    (hothers : ∀ q, q ≠ party → w'.custody? q = w.custody? q) : w'.Sound := by
  have huse : ∀ handle, handle ∈ fabric.visible move.uses → w.MayUse (some party) handle := by
    intro handle hmem
    obtain ⟨hmem, hvisible⟩ := FabricId.mem_visible.mp hmem
    exact (mem_holdings_iff hbefore).mpr ⟨huses handle hmem, hvisible⟩
  have heffects := (perform_effects w fabric move).mono huse
  rw [← hmemory, ← hnet] at heffects
  apply h.inherit (heffects.advances h.net fun handle huse => h.isIssued_of_mayUse huse) fun _ => heffects.isLive
  intro q
  by_cases hq : q = party
  · subst hq
    refine ⟨_, .of_step hbefore hafter hstep, ?_⟩
    intro handle hmem
    have hfresh := not_isIssued_of_acquired hmem
    refine ⟨?_, ?_, fun _ => hfresh⟩
    · rw [hmemory, hnet]
      exact ⟨isIssued_of_acquired h.net hmem, isLive_of_acquired hmem⟩
    · intro p hp _
      by_cases hne : p = q
      · exact hne
      · rw [holdings_eq (hothers p hne)] at hp
        exact absurd (h.issued p handle hp) hfresh
  · exact ⟨[], .of_custody_eq (hothers q hq), fun _ hmem => by contradiction⟩

theorem stepSession (h : w.Sound) {id : SessionId} {session : Session}
    (hsession : w.sessions[id]? = some session) (expired : Bool) :
    (w.stepSession id session expired).2.Sound := by
  have hsessions : ∀ other, (w.stepSession id session expired).2.sessions[other]? =
      if id = other then some { session with
        stage := (w.perform session.fabric (session.stage.next session.name session.config
          { cancelled := session.cancelled, expired, now := w.now })).1 }
      else w.sessions[other]? := by
    intro other
    simp only [World.stepSession, TreeMap.getElem?_insert, Std.compare_eq_iff_eq, sessions_perform]
  have hcalls : (w.stepSession id session expired).2.calls = w.calls := calls_perform ..
  have hstores : (w.stepSession id session expired).2.stores = w.stores := stores_perform ..
  have hbefore : w.custody? (.session id) = some (session.fabric, session.stage.custody) := by
    simp [custody?, hsession]
  have hafter := hsessions id
  rw [if_pos rfl] at hafter
  refine h.perform hbefore (fun handle hmem => Stage.mem_handles_of_uses hmem) rfl rfl
    (by simp only [custody?, hafter, Option.map_some]) (Stage.custody_step (perform_leads ..)) ?_
  intro q hq
  cases q with
  | call other => exact custody?_call_eq (by rw [hcalls]) (by simp [hstores])
  | session other =>
    have hne : id ≠ other := fun heq => hq (heq ▸ rfl)
    simp only [custody?, hsessions other, if_neg hne]
  | store other => simp only [custody?, hstores]

theorem fabric_update (stage : CallStage) (store : Store) : (stage.update store).fabric = store.fabric := by
  unfold CallStage.update
  split <;> rfl

theorem custody_update {stage : CallStage} {store : Store}
    (h : ∀ active, stage = .publish active → store.isReady) :
    (stage.update store).custody = store.custody := by
  cases stage with
  | publish active =>
    have hready := h active rfl
    unfold Store.isReady at hready
    obtain ⟨old, hold⟩ := Option.isSome_iff_exists.mp hready
    simp [CallStage.update, Store.custody, hold]
  | _ => rfl

theorem publish (h : w.Sound) {id : CallId} {s : StoreId} {fabric : FabricId} {custody : Custody}
    (hmemory : w'.memory = w.memory) (hnet : w'.net = w.net)
    (hbefore : w.custody? (.call id) = some (fabric, custody))
    (hcall : w'.custody? (.call id) = some (fabric, .empty))
    (hstore : w'.custody? (.store s) = some (fabric, custody))
    (hothers : ∀ q, q ≠ .call id → q ≠ .store s → w'.custody? q = w.custody? q) : w'.Sound := by
  have hadvances : Advances (w.MayUse none) w.memory w.net w'.memory w'.net := by
    rw [hmemory, hnet]
    exact Effects.refl.advances h.net fun handle huse => h.isIssued_of_mayUse huse
  have hleft : w'.holdings (.store s) = w.holdings (.call id) := by
    unfold holdings
    rw [hstore, hbefore]
  apply h.inherit hadvances fun _ hb => hmemory ▸ hb
  intro p
  by_cases hp : p = .store s
  · subst hp
    refine ⟨w.holdings (.call id), ⟨?_, ?_⟩, ?_⟩
    · rw [hleft]
      exact fun _ hmem => .inr hmem
    · intro fabric' custody' hcustody b hb
      rw [← hleft]
      exact .inl (mem_holdings_of_mem_blocks hcustody hb)
    · intro handle hmem
      refine ⟨?_, ?_, fun ⟨other, hother⟩ => by contradiction⟩
      · rw [hmemory, hnet]
        exact ⟨h.issued _ handle hmem, h.live _ handle hmem⟩
      · intro q hq _
        by_cases hcallq : q = .call id
        · subst hcallq
          simp only [holdings, hcall] at hq
          contradiction
        · by_cases hstoreq : q = .store s
          · exact hstoreq
          · rw [holdings_eq (hothers q hcallq hstoreq)] at hq
            exact absurd (h.exclusive _ q handle hmem hq (Party.owns_call id handle)).symm hcallq
  · refine ⟨[], ?_, fun _ hmem => by contradiction⟩
    by_cases hcallp : p = .call id
    · subst hcallp
      exact .of_empty hcall
    · exact .of_custody_eq (hothers p hcallp hp)

theorem stepCall (h : w.Sound) {id : CallId} {call : Call} {store : Store}
    (hcall : w.calls[id]? = some call) (hstore : w.stores[call.store]? = some store) (expired : Bool) :
    (w.stepCall id call store expired).2.Sound := by
  have hspec := stepCall_spec hcall hstore expired
  have hbefore := custody?_of_call hcall hstore
  have hcalls := hspec.calls
  have hstores := hspec.stores
  have hfabric : ∀ s : StoreId, ((w.stepCall id call store expired).2.stores[s]?).map (·.fabric) =
      (w.stores[s]?).map (·.fabric) := by
    intro s
    rw [hstores]
    split
    · next heq => rw [← heq, hstore, Option.map_some, Option.map_some, fabric_update]
    · rfl
  have hcall' := hcalls id
  rw [if_pos rfl] at hcall'
  have hstore' := hstores call.store
  rw [if_pos rfl] at hstore'
  have hafter := custody?_of_call hcall' hstore'
  rw [fabric_update] at hafter
  have hothers : ∀ other, other ≠ id → (w.stepCall id call store expired).2.custody? (.call other) =
      w.custody? (.call other) := by
    intro other hne
    exact custody?_call_eq (by rw [hcalls, if_neg (Ne.symm hne)]) hfabric
  by_cases hready : ∀ active, call.stage = .publish active → store.isReady
  · refine h.perform hbefore (fun handle hmem => CallStage.mem_handles_of_uses hmem) hspec.memory
      hspec.net hafter (CallStage.custody_step (perform_leads ..) hready) ?_
    intro q hq
    cases q with
    | call other => exact hothers other fun heq => hq (heq ▸ rfl)
    | session other => simp only [custody?, hspec.sessions]
    | store other =>
      simp only [custody?, hstores]
      split
      · next heq => rw [← heq, hstore, Option.map_some, Option.map_some, fabric_update, custody_update hready]
      · rfl
  -- The call makes its store ready: what the call held is held by the store from now on.
  · simp only [Classical.not_forall, exists_prop] at hready
    obtain ⟨active, hpublish, hready⟩ := hready
    have hactive : store.active = none := by simpa [Store.isReady] using hready
    have hmove : call.stage.next store { cancelled := store.cancelled, expired, now := w.now } =
        .pass (.over (.ok ())) := by
      simp [hpublish, CallStage.next, Store.isReady, hactive]
    have hmemory := hspec.memory
    have hnet := hspec.net
    rw [hmove] at hmemory hnet hafter
    apply h.publish hmemory hnet hbefore hafter (s := call.store)
    · simp [custody?, hstore', hpublish, CallStage.update, Store.custody, CallStage.custody, hactive]
    · intro q hcallq hstoreq
      cases q with
      | call other => exact hothers other fun heq => hcallq (heq ▸ rfl)
      | session other => simp only [custody?, hspec.sessions]
      | store other =>
        have hne : call.store ≠ other := fun heq => hstoreq (heq ▸ rfl)
        simp only [custody?, hstores, if_neg hne]

theorem step (h : w.Sound) (task : Task) (expired : Bool) : (w.step task expired).2.Sound := by
  unfold World.step
  cases task with
  | call id =>
    dsimp only
    split
    · exact h
    · next call hcall =>
      split
      · exact h
      · next store hstore => exact h.stepCall hcall hstore expired
  | session id =>
    dsimp only
    split
    · exact h
    · next session hsession => exact h.stepSession hsession expired

end Sound

end World

end RemoteSlots
