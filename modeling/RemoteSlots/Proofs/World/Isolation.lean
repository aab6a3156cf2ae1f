import RemoteSlots.Proofs.Initiation.UnderWay
import RemoteSlots.Proofs.World.LettingGo
import RemoteSlots.Proofs.World.Registration

/-!
This module shows that the peers of different connections cannot disturb each other: the storage of a store is only
reachable through the connection that its session accepted, as long as nobody else registers it.
-/

namespace RemoteSlots

open Std

def Action.peer? : Action → Option ConnectionId
  | receive peer _ | write peer .. | hangUp peer => some peer
  | _ => none

namespace World

variable {w w' : World} {b : BlockId}

inductive Origin (w w' : World) (b : BlockId) (party : Party) : Prop
  | kept (held : .block b ∈ w.holdings party)
    (endpoints : ∀ k, .endpoint k ∈ w.holdings party → .endpoint k ∈ w'.holdings party)
  | passed {giver : Party} (held : .block b ∈ w.holdings giver) (given : .block b ∉ w'.holdings giver)
    (endpoints : ∀ k, .endpoint k ∈ w.holdings giver → .endpoint k ∈ w'.holdings party)
    (others : ∀ q, q ≠ party → .block b ∈ w'.holdings q → .block b ∈ w.holdings q)
  | acquired (fresh : ¬(Handle.block b).IsIssued w.memory w.net)
    (others : ∀ q, q ≠ party → .block b ∈ w'.holdings q → .block b ∈ w.holdings q)

theorem Origin.of_custody_eq {party : Party} (h : w'.custody? party = w.custody? party)
    (hmem : .block b ∈ w'.holdings party) : w.Origin w' b party := by
  rw [holdings_eq h] at hmem
  exact .kept hmem fun _ hk => by rwa [holdings_eq h]

theorem Redeems.mem_blocks (h : w.Redeems) {party : Party} {fabric : FabricId} {custody : Custody}
    (hcustody : w.custody? party = some (fabric, custody)) (hmem : .block b ∈ w.holdings party) :
    b ∈ custody.blocks := by
  rcases List.mem_append.mp ((mem_holdings_iff hcustody).mp hmem).1 with hrelease | hblock
  · obtain ⟨r, -, hback⟩ := (h party fabric custody hcustody).exists_givesBack hrelease
    cases r <;> simp [Request.givesBack?] at hback
  · obtain ⟨c, hc, heq⟩ := List.mem_map.mp hblock
    injection heq with heq
    exact heq ▸ hc

theorem Handover.origin {action : Action} (h : w.Handover w' action) (hredeems : w.Redeems)
    (hregisters : action.registers? ≠ some b) {party : Party} (hmem : .block b ∈ w'.holdings party) :
    w.Origin w' b party := by
  have hredeems' := h.redeems hredeems
  cases h with
  | @moves σ move mover fabric before after actor custody custody' step net others =>
    by_cases hparty : party = mover
    · subst hparty
      rcases step.mem_blocks (hredeems'.mem_blocks custody' hmem) with hnew | ⟨hold, hkept⟩
      · refine .acquired (not_isIssued_of_acquired (FabricId.mem_visible.mpr ⟨hnew, .inr rfl⟩)) fun q hq hheld => ?_
        rwa [← holdings_eq (others q hq)]
      · refine .kept (mem_holdings_of_mem_blocks custody hold) fun k hk => ?_
        obtain ⟨hk, hvisible⟩ := (mem_holdings_iff custody).mp hk
        exact (mem_holdings_iff custody').mpr ⟨hkept k hk, hvisible⟩
    · exact .of_custody_eq (others party hparty) hmem
  | @shares id fabric before c registers custody custody' net others =>
    by_cases hparty : party = .session id
    · subst hparty
      -- The session has the block that it got hold of, and no other.
      obtain rfl := List.mem_singleton.mp (hredeems'.mem_blocks custody' hmem)
      exact absurd registers hregisters
    · exact .of_custody_eq (others party hparty) hmem
  | @publishes id s fabric held call store call' store' net others =>
    by_cases hstore : party = .store s
    · subst hstore
      refine .passed ((mem_holdings_iff call).mpr ((mem_holdings_iff store').mp hmem)) ?_ ?_ ?_
      · rw [(IsFree.of_empty call').holdings_eq]
        exact List.not_mem_nil
      · exact fun k hk => (mem_holdings_iff store').mpr ((mem_holdings_iff call).mp hk)
      · intro q hq hheld
        by_cases hcall : q = .call id
        · rw [hcall, (IsFree.of_empty call').holdings_eq] at hheld
          contradiction
        · rwa [← holdings_eq (others q hcall hq)]
    · by_cases hcall : party = .call id
      · rw [hcall, (IsFree.of_empty call').holdings_eq] at hmem
        contradiction
      · exact .of_custody_eq (others party hcall hstore) hmem
  | settles parties =>
    cases parties party with
    | keeps same => exact .of_custody_eq same hmem
    | idles _ after =>
      rw [after.holdings_eq] at hmem
      contradiction
    | releases released =>
      rw [released.holdings_eq] at hmem
      contradiction

structure Secludes (w : World) (b : BlockId) : Prop where
  sole : ∀ p q, .block b ∈ w.holdings p → .block b ∈ w.holdings q → p = q
  reach : ∀ (k : ConnectionId) (link : Link), w.net.links[k]? = some link → ∀ r ∈ link.regions,
    r.extent.block = b → ∀ party, .block b ∈ w.holdings party → .endpoint k ∈ w.holdings party

theorem Secludes.eq_of_origin (h : w.Secludes b) (hw : w.Sound) {p q : Party} (hp : w.Origin w' b p)
    (hq : w.Origin w' b q) (hmemp : .block b ∈ w'.holdings p) (hmemq : .block b ∈ w'.holdings q) : p = q := by
  have hnew : ∀ {p q}, (∀ r, r ≠ p → .block b ∈ w'.holdings r → .block b ∈ w.holdings r) →
      .block b ∈ w'.holdings q → .block b ∉ w.holdings q → p = q := by
    intro p q hothers hheld hnone
    by_contra hne
    exact hnone (hothers q (Ne.symm hne) hheld)
  cases hp with
  | passed held given endpoints others =>
    refine hnew others hmemq fun hold => given ?_
    rwa [h.sole _ _ held hold]
  | acquired fresh others => exact hnew others hmemq fun hold => fresh (hw.issued q _ hold)
  | kept held endpoints =>
    cases hq with
    | kept held' endpoints' => exact h.sole p q held held'
    | passed held' given' endpoints' others' =>
      refine (hnew others' hmemp fun hold => given' ?_).symm
      rwa [h.sole _ _ held' hold]
    | acquired fresh' others' => exact (hnew others' hmemp fun hold => fresh' (hw.issued p _ hold)).symm

theorem Secludes.act (h : w.Secludes b) (hreach : w.Reachable) {action : Action}
    (hregisters : action.registers? ≠ some b) : (w.act action).Secludes b := by
  obtain ⟨hw, ht⟩ := hreach.sound
  have horigin : ∀ p, .block b ∈ (w.act action).holdings p → w.Origin (w.act action) b p :=
    fun p hmem => (hreach.handover action).origin hreach.redeems hregisters hmem
  refine ⟨fun p q hp hq => h.eq_of_origin hw (horigin p hp) (horigin q hq) hp hq, ?_⟩
  intro k link' hlink' r hr hblock party hmem
  -- Whoever held the block before the action had the endpoint of the region.
  have hbefore : (Handle.block b).IsIssued w.memory w.net ∧
      ∀ q, .block b ∈ w.holdings q → .endpoint k ∈ w.holdings q := by
    rcases registered_act hw ht action hlink' hr with ⟨link, hlink, hold⟩ | ⟨p, hk, hp⟩ | ⟨heq, -⟩
    · exact ⟨hblock ▸ (hw.reach k link hlink r hold).1, fun q hq => h.reach k link hlink r hold hblock q hq⟩
    · rw [hblock] at hp
      exact ⟨hw.issued p _ hp, fun q hq => h.sole p q hp hq ▸ hk⟩
    · exact absurd (hblock ▸ heq) hregisters
  obtain ⟨hissued, hendpoint⟩ := hbefore
  cases horigin party hmem with
  | kept held endpoints => exact endpoints k (hendpoint party held)
  | passed held given endpoints others => exact endpoints k (hendpoint _ held)
  | acquired fresh others => exact absurd hissued fresh

def ReachableSparing (w : World) (b : BlockId) : Prop :=
  ∃ mapper now actions, (∀ action ∈ actions, action.registers? ≠ some b) ∧ w = (initial mapper now).after actions

theorem ReachableSparing.act (h : w.ReachableSparing b) {action : Action}
    (hregisters : action.registers? ≠ some b) : (w.act action).ReachableSparing b := by
  obtain ⟨mapper, now, actions, hall, rfl⟩ := h
  refine ⟨mapper, now, actions ++ [action], ?_, (after_concat ..).symm⟩
  simpa [or_imp, forall_and] using ⟨hall, hregisters⟩

theorem ReachableSparing.secludes (h : w.ReachableSparing b) : w.Secludes b := by
  obtain ⟨mapper, now, actions, hall, rfl⟩ := h
  induction actions using List.reverseRecOn with
  | nil =>
    constructor
    · intro p q hp
      cases p <;> simp [holdings, custody?, World.after, initial, empty] at hp
    · simp [World.after, initial, empty, Loopback.empty]
  | append_singleton actions action ih =>
    rw [after_concat]
    have hspared := ih fun other hother => hall other (List.mem_append_left _ hother)
    exact hspared.act ⟨mapper, now, actions, rfl⟩ (hall action (by simp))

variable {s : StoreId} {store : Store} {active : Active}

theorem endpoint_mem_holdings_of_active (hstore : w.stores[s]? = some store) (hactive : store.active = some active)
    {k : ConnectionId} : .endpoint k ∈ w.holdings (.store s) ↔
      store.fabric = .loopback ∧ active.endpoint.handle = k := by
  rw [mem_holdings_iff (custody?_of_active hstore hactive)]
  simp [Active.phase, Phase.custody, Phase.release, Phase.endpoint?, Phase.region?, Phase.binding?,
    Custody.handles, Request.handles, Handle.isBlock, and_comm, eq_comm]

def IsForeign (store : Store) (active : Active) (peer : ConnectionId) : Prop :=
  store.fabric = .loopback → active.endpoint.handle ≠ peer

structure LeavesAlone (w w' : World) (store : Store) (active : Active) : Prop where
  storage : w'.memory.blocks[active.region.block]? = w.memory.blocks[active.region.block]?
  link : store.fabric = .loopback →
    w'.net.links[active.endpoint.handle]? = w.net.links[active.endpoint.handle]?
  scripts : w'.scripts = w.scripts
  stores : w'.stores = w.stores

theorem LeavesAlone.trans {w'' : World} (h : w.LeavesAlone w' store active) (h' : w'.LeavesAlone w'' store active) :
    w.LeavesAlone w'' store active where
  storage := h'.storage.trans h.storage
  link := fun hfabric => (h'.link hfabric).trans (h.link hfabric)
  scripts := h'.scripts.trans h.scripts
  stores := h'.stores.trans h.stores

theorem Secludes.block_ne (h : w.Secludes active.region.block) (hstore : w.stores[s]? = some store)
    (hactive : store.active = some active) {j : ConnectionId} (hforeign : IsForeign store active j) {link : Link}
    (hlink : w.net.links[j]? = some link) {r : Registration} (hr : r ∈ link.regions) :
    r.extent.block ≠ active.region.block := by
  intro heq
  have hheld := h.reach j link hlink r hr heq (.store s) (block_mem_holdings_of_active hstore hactive)
  obtain ⟨hfabric, hhandle⟩ := (endpoint_mem_holdings_of_active hstore hactive).mp hheld
  exact hforeign hfabric hhandle

theorem Secludes.leavesAlone (h : w.Secludes active.region.block) (hstore : w.stores[s]? = some store)
    (hactive : store.active = some active) {action : Action} {j : ConnectionId} (hpeer : action.peer? = some j)
    (hforeign : IsForeign store active j) : w.LeavesAlone (w.act action) store active := by
  have hne : store.fabric = .loopback → ¬j = active.endpoint.handle :=
    fun hfabric heq => hforeign hfabric heq.symm
  cases action with
  | receive peer limit =>
    obtain rfl := Option.some.inj hpeer
    refine ⟨rfl, fun hfabric => (Loopback.receive_links ..).trans (if_neg (hne hfabric)), rfl, rfl⟩
  | hangUp peer =>
    obtain rfl := Option.some.inj hpeer
    refine ⟨rfl, fun hfabric => (Loopback.hangUp_links ..).trans (if_neg (hne hfabric)), rfl, rfl⟩
  | write peer request address key words =>
    obtain rfl := Option.some.inj hpeer
    refine ⟨?_, fun hfabric => (Loopback.write_links ..).trans (if_neg (hne hfabric)), rfl, rfl⟩
    have hmemory : (w.act (.write peer request address key words)).memory = _ :=
      Loopback.write_memory w.net w.memory peer request address key words
    rw [hmemory]
    split
    · next region htarget =>
      obtain ⟨link, hlink, -, hregion, -⟩ := Loopback.target?_eq_some htarget
      exact Memory.getElem?_storeAt_of_ne (h.block_ne hstore hactive hforeign hlink hregion)
    · rfl
  | _ => contradiction

/--
Whether the peers of other connections have nothing to do with a ready store: they change nothing of it, wherever
and under whichever key they write, and no word of its storage has a part in what they read.
-/
structure Isolates (w : World) (store : Store) (active : Active) : Prop where
  unchanged : ∀ actions, (∀ action ∈ actions, ∃ j, action.peer? = some j ∧ IsForeign store active j) →
    w.LeavesAlone (w.after actions) store active
  unchangedBySlot : ∀ j, IsForeign store active j → ∀ metadata index size words,
    w.LeavesAlone (w.writeSlot j metadata index size words).2 store active
  unread : ∀ j, IsForeign store active j → ∀ memory : Memory,
    (∀ b, b ≠ active.region.block → memory.blocks[b]? = w.memory.blocks[b]?) →
      ∀ address key count, w.net.read memory j address key count = w.read j address key count
  unreadBySlot : ∀ j, IsForeign store active j → ∀ memory : Memory,
    (∀ b, b ≠ active.region.block → memory.blocks[b]? = w.memory.blocks[b]?) →
      ∀ metadata index size, w.net.readSlot memory j metadata index size = w.readSlot j metadata index size

theorem registers?_of_peer? {action : Action} {j : ConnectionId} (h : action.peer? = some j) :
    action.registers? = none := by
  cases action with
  | receive | write | hangUp => rfl
  | _ => contradiction

theorem ReachableSparing.leavesAlone (h : w.ReachableSparing active.region.block)
    (hstore : w.stores[s]? = some store) (hactive : store.active = some active) {actions : List Action}
    (hforeign : ∀ action ∈ actions, ∃ j, action.peer? = some j ∧ IsForeign store active j) :
    w.LeavesAlone (w.after actions) store active := by
  induction actions generalizing w with
  | nil => exact ⟨rfl, fun _ => rfl, rfl, rfl⟩
  | cons action actions ih =>
    obtain ⟨j, hpeer, hj⟩ := hforeign action (List.mem_cons_self ..)
    have hstep := h.secludes.leavesAlone hstore hactive hpeer hj
    refine hstep.trans (ih (h.act (by rw [registers?_of_peer? hpeer]; simp)) ?_ ?_)
    · rwa [hstep.stores]
    · exact fun other hother => hforeign other (List.mem_cons_of_mem _ hother)

theorem Secludes.read_eq (h : w.Secludes active.region.block) (hstore : w.stores[s]? = some store)
    (hactive : store.active = some active) {j : ConnectionId} (hforeign : IsForeign store active j)
    {memory : Memory} (hmemory : ∀ b, b ≠ active.region.block → memory.blocks[b]? = w.memory.blocks[b]?)
    (address : UInt64) (key : UInt32) (count : UInt64) :
    w.net.read memory j address key count = w.read j address key count := by
  unfold World.read Loopback.read
  split
  · rfl
  · next link hlink =>
    rcases htarget : Loopback.target link address key count.toNat (4 * count).toNat (·.remoteRead) with
      failure | region
    · rfl
    · obtain ⟨-, hregion, -⟩ := Loopback.target_eq_ok htarget
      have hblock := hmemory _ (h.block_ne hstore hactive hforeign hlink hregion)
      have hload : memory.loadAt region.extent.block address.toNat count.toNat =
          w.memory.loadAt region.extent.block address.toNat count.toNat := by
        simp only [Memory.loadAt, Memory.indexOf, Memory.base, hblock]
      simp only [hload]

theorem ready_store_isolated (h : w.ReachableSparing active.region.block) (hstore : w.stores[s]? = some store)
    (hactive : store.active = some active) : w.Isolates store active where
  unchanged := fun _ hforeign => h.leavesAlone hstore hactive hforeign
  unchangedBySlot := by
    intro j hforeign metadata index size words
    have hpeer : Action.peer? (.write j 0 (metadata.slotAddress index size) metadata.key words) = some j := rfl
    exact h.secludes.leavesAlone hstore hactive hpeer hforeign
  unread := fun _ hforeign _ hmemory => h.secludes.read_eq hstore hactive hforeign hmemory
  unreadBySlot := fun _ hforeign _ hmemory _ _ _ => h.secludes.read_eq hstore hactive hforeign hmemory ..

def sampleNeighbours : List Action :=
  [.createStore .keyValue sampleStore.config .loopback, .initiate 1] ++ sampleMoves 5 ++ [.connect 7000] ++
    sampleMoves 18 ++ [.createStore .keyValue { sampleStore.config with port := 7001 } .loopback, .initiate 3] ++
    List.replicate 5 (.step (.call 4) false) ++ [.connect 7001] ++ List.replicate 18 (.step (.call 4) false)

def sampleActive : Active := ⟨⟨1, 7000⟩, ⟨2, 3⟩, ⟨⟨0, 4096, 128⟩, ⟨4, 4⟩⟩, 0x5ccd#24⟩

set_option maxRecDepth 10000 in
theorem ready_store_isolated_neighbour :
    let w := (initial (.above 4096 4096) .zero).after sampleNeighbours
    ∃ store, w.ReachableSparing sampleActive.region.block ∧ w.stores[1]? = some store ∧
      store.active = some sampleActive ∧ IsForeign store sampleActive 6 ∧ (w.write 6 0 12288 8 [7]).1 = .ok () ∧
      w.Isolates store sampleActive := by
  intro w
  have hreach : w.ReachableSparing sampleActive.region.block :=
    ⟨.above 4096 4096, .zero, sampleNeighbours, by decide, rfl⟩
  obtain ⟨store, hstore, hactive⟩ : ∃ store, w.stores[1]? = some store ∧ store.active = some sampleActive :=
    ⟨_, rfl, rfl⟩
  have haccepted : (w.write 6 0 12288 8 [7]).1 = .ok () := by rfl
  exact ⟨store, hreach, hstore, hactive, fun _ => by decide, haccepted, ready_store_isolated hreach hstore hactive⟩

end World

end RemoteSlots
