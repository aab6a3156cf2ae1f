import RemoteSlots.Proofs.World.Handover
import RemoteSlots.Proofs.World.Landing

/-!
This module shows where the regions come from that peers can reach: a party registered memory of its own with a
connection of its own, or an action says so. Only connections that were accepted ever have regions.
-/

namespace RemoteSlots

open Std

namespace World

variable {w : World} {k : ConnectionId} {link' : Link} {r : Registration}

theorem regions_peer {action : Action} (hpeer : action.isPeer)
    (hlink : (w.act action).net.links[k]? = some link') (hr : r ∈ link'.regions) :
    ∃ link, w.net.links[k]? = some link ∧ r ∈ link.regions := by
  by_cases hconnect : ∃ port, action = .connect port
  · obtain ⟨port, rfl⟩ := hconnect
    simp only [act, World.connect] at hlink
    rcases hconnect : w.net.connect port with failure | ⟨id, net⟩
    · rw [hconnect] at hlink
      exact ⟨link', hlink, hr⟩
    · rw [hconnect] at hlink
      rcases Loopback.connect_links_cases hconnect hlink with hold | hfresh
      · exact ⟨link', hold, hr⟩
      · rw [hfresh.regions] at hr
        contradiction
  · rw [links_peer_of_ne w hpeer fun port heq => hconnect ⟨port, heq⟩] at hlink
    obtain ⟨link, hbefore, rfl⟩ := Option.map_eq_some_iff.mp hlink
    rw [action.regions_effectOn] at hr
    exact ⟨link, hbefore, hr⟩

theorem net_act_of_actor? {action : Action} (hactor : w.actor? action = none) (hpeer : ¬action.isPeer)
    (hrequest : ∀ request, action ≠ .request request) : (w.act action).net = w.net := by
  cases action with
  | createStore layout config fabric =>
    simp only [act, createStore]
    rcases Store.new layout config fabric with failure | store <;> rfl
  | initiate id =>
    simp only [act, withStore]
    split <;> rfl
  | endCall id =>
    have hcall : w.calls[id]? = none := Option.map_eq_none_iff.mp hactor
    simp only [act, endCall, hcall, ite_self]
  | cancelStore | createSession | cancelSession | createScript => rfl
  | pull id =>
    simp only [act, withStore]
    split
    · rfl
    · next store _ =>
      simp only [pull]
      rcases store.storage .append with failure | storage <;> rfl
  | pullLogs ids pulls =>
    simp only [act, benchmarkLogs]
    split
    · rfl
    · exact (carries_pullMany w pulls ids).2.2.2
  | allocateSpare id =>
    simp only [act, withStore]
    split
    · rfl
    · next store _ =>
      simp only [allocateSpare]
      rcases Storage.allocate w.memory store.config.pages store.layout store.config.capacity with
        halt | ⟨storage, memory⟩ <;> rfl
  | startSession id operation =>
    rcases act_startSession w id operation with heq | ⟨_, _, -, -, -, heq⟩ <;> rw [heq]
  | takeEntries script =>
    simp only [act, takeEntries]
    split <;> rfl
  | allocate pages length =>
    simp only [act, World.allocate]
    rcases w.memory.allocate pages length with halt | ⟨block, memory⟩ <;> rfl
  | fill | zero =>
    simp only [act]
    split <;> rfl
  | request request => exact absurd rfl (hrequest request)
  | unmap => exact w.net_act_unmap _
  | connect | inject | receive | write | hangUp => exact absurd rfl hpeer
  | _ => simp [actor?] at hactor

theorem registers?_of_handles {request : Request} {b : BlockId} (hblock : .block b ∈ request.handles) :
    (Action.request request).registers? = some b := by
  cases request with
  | register endpoint extent access =>
    simp only [Request.handles, List.mem_cons, reduceCtorEq, Handle.block.injEq, List.not_mem_nil, or_false,
      false_or] at hblock
    exact congrArg some hblock.symm
  | _ => simp [Request.handles] at hblock

theorem registered_act (h : w.Sound) (ht : w.Tidy) (action : Action)
    (hlink : (w.act action).net.links[k]? = some link') (hr : r ∈ link'.regions) :
    (∃ link, w.net.links[k]? = some link ∧ r ∈ link.regions) ∨
      (∃ party, .endpoint k ∈ w.holdings party ∧ .block r.extent.block ∈ w.holdings party) ∨
        action.registers? = some r.extent.block ∧
          ∃ link, w.net.links[k]? = some link ∧ link.acceptedBy.isSome := by
  by_cases hpeer : action.isPeer
  · exact .inl (regions_peer hpeer hlink hr)
  · rcases hactor : w.actor? action with _ | party
    · by_cases hrequest : ∃ request, action = .request request
      · obtain ⟨request, rfl⟩ := hrequest
        simp only [act] at hlink
        split at hlink
        · next hopen =>
          rcases Loopback.serve_regions hlink hr with hold | ⟨hk, hblock⟩
          · exact .inl hold
          · refine .inr (.inr ⟨registers?_of_handles hblock, ?_⟩)
            have hguard := List.all_eq_true.mp hopen _ hk
            simp only [Bool.and_eq_true, Option.any_eq_true] at hguard
            exact hguard.1
        · exact .inl ⟨link', hlink, hr⟩
      · rw [net_act_of_actor? hactor hpeer fun request heq => hrequest ⟨request, heq⟩] at hlink
        exact .inl ⟨link', hlink, hr⟩
    · have heffects := effects_act h ht hpeer
      rw [hactor] at heffects
      have hadvances := heffects.advances h.net fun handle huse => h.isIssued_of_mayUse huse
      rcases hadvances.regions k link' hlink r hr with hold | ⟨hk, hblock⟩
      · exact .inl hold
      · exact .inr (.inl ⟨party, hk, hblock⟩)

/--
Whether only accepted connections are held, and only they have regions.
-/
structure Accepted (w : World) : Prop where
  held : ∀ party k, .endpoint k ∈ w.holdings party →
    ∃ link, w.net.links[k]? = some link ∧ link.acceptedBy.isSome
  regions : ∀ (k : ConnectionId) (link : Link), w.net.links[k]? = some link → ∀ r ∈ link.regions,
    link.acceptedBy.isSome

theorem accepted_of_acquired {fabric : FabricId} {move : Move σ}
    (h : .endpoint k ∈ fabric.visible (w.acquired fabric move)) :
    ∃ link, (w.perform fabric move).2.2.net.links[k]? = some link ∧ link.acceptedBy.isSome := by
  cases move with
  | ask request resume =>
    obtain ⟨rfl, hmem⟩ := serve_of_acquired h
    obtain ⟨channel, queues, link, -, -, -, -, hlink⟩ := Loopback.serve_accepted hmem
    exact ⟨_, hlink, rfl⟩
  | map pages length resume =>
    obtain ⟨hmem, -⟩ := FabricId.mem_visible.mp h
    rcases hallocate : w.memory.allocate pages length with halt | ⟨block, memory⟩
    · simp [acquired, hallocate] at hmem
    · simp [acquired, hallocate] at hmem
  | write | clear | pass => simp [acquired, FabricId.visible] at h

theorem Accepted.act (ha : w.Accepted) (h : w.Reachable) (action : Action) : (w.act action).Accepted := by
  obtain ⟨hw, ht⟩ := h.sound
  have hevolves := act_evolves hw ht action
  have hkept : ∀ {k : ConnectionId} {link : Link}, w.net.links[k]? = some link → link.acceptedBy.isSome →
      ∃ link', (w.act action).net.links[k]? = some link' ∧ link'.acceptedBy.isSome := by
    intro k link hlink haccepted
    obtain ⟨link', hlink', hev⟩ := hevolves.links k link hlink
    exact ⟨link', hlink', hev.accepted haccepted⟩
  have hheld : ∀ party k, .endpoint k ∈ w.holdings party →
      ∃ link', (w.act action).net.links[k]? = some link' ∧ link'.acceptedBy.isSome := by
    intro party k hmem
    obtain ⟨link, hlink, haccepted⟩ := ha.held party k hmem
    exact hkept hlink haccepted
  constructor
  · intro party k hmem
    rcases (h.handover action).mem_holdings hmem with ⟨q, hold⟩ | ⟨σ, fabric, move, hnew, hnet⟩ | ⟨b, heq, -⟩
    · exact hheld q k hold
    · rw [hnet]
      exact accepted_of_acquired hnew
    · contradiction
  · intro k link' hlink' r hr
    have hexists : ∃ link', (w.act action).net.links[k]? = some link' ∧ link'.acceptedBy.isSome := by
      rcases registered_act hw ht action hlink' hr with ⟨link, hlink, hold⟩ | ⟨party, hk, -⟩ | ⟨-, link, hlink, hopen⟩
      · exact hkept hlink (ha.regions k link hlink r hold)
      · exact hheld party k hk
      · exact hkept hlink hopen
    obtain ⟨link'', hlink'', haccepted⟩ := hexists
    rw [hlink'] at hlink''
    injection hlink'' with hlink''
    exact hlink'' ▸ haccepted

theorem accepted_initial (mapper : Mapper) (now : Duration) : (initial mapper now).Accepted := by
  constructor
  · intro party k hmem
    cases party <;> simp [holdings, custody?, initial, empty] at hmem
  · simp [initial, empty, Loopback.empty]

theorem Reachable.accepted (h : w.Reachable) : w.Accepted := by
  induction w, h using Reachable.induct with
  | initial mapper now => exact accepted_initial mapper now
  | act w action h _ _ ih => exact ih.act h action

end World

end RemoteSlots
