import Mathlib.Data.List.Nodup
import RemoteSlots.Console.Report
import RemoteSlots.Proofs.Console.Collector
import RemoteSlots.Proofs.Slot.Views
import RemoteSlots.Proofs.World.SlotAccess

/-!
This module shows that a report disturbs nothing but one completion of every ready store, so that whatever it tells of
a store is what was there before the report began.
-/

namespace RemoteSlots

open Console Std

namespace World

def handleOf (w : World) (id : StoreId) : Option ConnectionId :=
  (w.stores[id]?).bind fun store => store.active.map (·.endpoint.handle)

def handlesOf (w : World) (ids : List StoreId) : List ConnectionId := ids.filterMap w.handleOf

structure HasPolled (w w' : World) (ids : List StoreId) : Prop where
  frame : ∃ links, w' = { w with net := { w.net with links } }
  links : ∀ k : ConnectionId, w'.net.links[k]? = (w.net.links[k]?).map fun link =>
    if k ∈ w.handlesOf ids then { link with completions := link.completions.tail } else link

def Hosts (w : World) (layout : Layout) (id : StoreId) : Prop :=
  ∀ store, w.stores[id]? = some store → store.layout = layout ∧ store.fabric = .loopback ∧
    ∀ active, store.active = some active → (w.net.links[active.endpoint.handle]?).isSome

variable {w w' w'' : World} {id : StoreId} {ids others : List StoreId} {layout : Layout}

theorem handlesOf_append (w : World) (ids others : List StoreId) :
    w.handlesOf (ids ++ others) = w.handlesOf ids ++ w.handlesOf others := List.filterMap_append

theorem nodup_handlesOf_left (h : (w.handlesOf (ids ++ others)).Nodup) : (w.handlesOf ids).Nodup := by
  rw [handlesOf_append] at h
  exact h.of_append_left

namespace HasPolled

theorem stores (h : w.HasPolled w' ids) : w'.stores = w.stores := by
  obtain ⟨links, rfl⟩ := h.frame
  rfl

theorem handlesOf_eq (h : w.HasPolled w' ids) (others : List StoreId) : w'.handlesOf others = w.handlesOf others := by
  unfold handlesOf handleOf
  rw [h.stores]

theorem refl (hidle : w.handlesOf ids = []) : w.HasPolled w ids where
  frame := ⟨w.net.links, rfl⟩
  links := by
    intro k
    simp [hidle]

theorem of_poll {handle : ConnectionId} (hhandle : w.handleOf id = some handle) :
    w.HasPolled { w with
      net := w.net.modifyLink handle fun link => { link with completions := link.completions.tail } } [id] where
  frame := ⟨_, rfl⟩
  links := by
    intro k
    have hhandles : w.handlesOf [id] = [handle] := by simp [World.handlesOf, hhandle]
    rw [Loopback.getElem?_modifyLink, hhandles]
    by_cases hk : handle = k
    · simp [hk]
    · simp [hk, Ne.symm hk]

theorem congr (h : w.HasPolled w' ids) (hmem : ∀ id, id ∈ ids ↔ id ∈ others) : w.HasPolled w' others where
  frame := h.frame
  links := by
    intro k
    have hhandle : k ∈ w.handlesOf others ↔ k ∈ w.handlesOf ids := by simp only [handlesOf, List.mem_filterMap, hmem]
    simp only [h.links, hhandle]

theorem trans (h : w.HasPolled w' ids) (h' : w'.HasPolled w'' others)
    (hapart : (w.handlesOf (ids ++ others)).Nodup) : w.HasPolled w'' (ids ++ others) where
  frame := by
    obtain ⟨_, rfl⟩ := h.frame
    obtain ⟨_, rfl⟩ := h'.frame
    exact ⟨_, rfl⟩
  links := by
    intro k
    rw [handlesOf_append] at hapart ⊢
    rw [h'.links, h.links, h.handlesOf_eq, Option.map_map]
    congr 1
    funext link
    have hdisjoint := List.disjoint_of_nodup_append hapart
    by_cases hfirst : k ∈ w.handlesOf ids
    · have hother : k ∉ w.handlesOf others := fun hmem => hdisjoint hfirst hmem
      simp [hfirst, hother]
    · simp [hfirst]

theorem link_eq (h : w.HasPolled w' ids) {k : ConnectionId} (hk : k ∉ w.handlesOf ids) :
    w'.net.links[k]? = w.net.links[k]? := by
  simp [h.links, hk]

theorem hosts (h : w.HasPolled w' ids) (hhosts : w.Hosts layout id) : w'.Hosts layout id := by
  intro store hstore
  rw [h.stores] at hstore
  obtain ⟨hlayout, hfabric, hlink⟩ := hhosts store hstore
  refine ⟨hlayout, hfabric, fun active hactive => ?_⟩
  rw [h.links, Option.isSome_map]
  exact hlink active hactive

end HasPolled

section Ready

variable {store : Store} {active : Active} {link : Link} (hactive : store.active = some active)

include hactive

theorem exists_snapshot (w : World) (layout : Layout) (limit : Nat) :
    ∃ slots, w.snapshot store layout 0 limit = .ok slots ∧
      slots.map (fun slot => .ok (some slot)) =
        (List.range (min limit store.config.capacity)).map (w.getSlot store layout) := by
  have hstorage := storage_of_active hactive layout
  let storage : Storage layout := ⟨store.config.capacity, active.region.block⟩
  refine ⟨storage.snapshot w.memory 0 limit, ?_, ?_⟩
  · rw [World.snapshot, hstorage]
    rfl
  · calc (storage.snapshot w.memory 0 limit).map (fun slot => .ok (some slot))
      _ = ((storage.snapshot w.memory 0 limit).map some).map .ok := List.map_map.symm
      _ = ((List.range (min limit store.config.capacity)).map (storage.get? w.memory)).map .ok := by
        rw [Storage.map_snapshot, Nat.zero_add, Nat.sub_zero, List.range_eq_range']
      _ = (List.range (min limit store.config.capacity)).map (w.getSlot store layout) := by
        rw [List.map_map]
        apply List.map_congr_left
        intro index _
        rw [getSlot, hstorage]
        rfl

theorem exists_analyze (w : World) : ∃ analysis, w.analyze store = .ok analysis := by
  rw [analyze, storage_of_active hactive store.layout]
  exact ⟨_, rfl⟩

variable (hfabric : store.fabric = .loopback)

include hfabric

theorem storeInfo_eq (hlink : w.net.links[active.endpoint.handle]? = some link) :
    w.storeInfo store = (.ok
      { queuePair := active.endpoint.queuePair
        keys := active.region.keys
        receivePsn := link.psn
        baseline := active.baseline }, w) := by
  simp only [storeInfo, Store.active?, hactive, hfabric, transportInfo, Active.phase, serve, Loopback.serve,
    Loopback.receivePsn, hlink, Psn.ofWord_toWord]

theorem storePoll_eq (hlink : w.net.links[active.endpoint.handle]? = some link) :
    w.storePoll store = (.ok (Poll.ofCompletion? link.completions.head?), { w with
      net := w.net.modifyLink active.endpoint.handle fun link =>
        { link with completions := link.completions.tail } }) := by
  simp only [storePoll, Store.active?, hactive, hfabric, pollOnce, Active.phase, serve, Loopback.serve,
    Loopback.poll, hlink]

end Ready

theorem Sound.nodup_handlesOf (h : w.Sound) (hids : ids.Nodup) (hhosts : ∀ id ∈ ids, ∃ layout, w.Hosts layout id) :
    (w.handlesOf ids).Nodup := by
  have hheld : ∀ id ∈ ids, ∀ handle ∈ w.handleOf id, .endpoint handle ∈ w.holdings (.store id) := by
    intro id hid handle hhandle
    obtain ⟨store, hstore, hhandle⟩ := Option.bind_eq_some_iff.mp hhandle
    obtain ⟨active, hactive, rfl⟩ := Option.map_eq_some_iff.mp hhandle
    obtain ⟨_, hhosts⟩ := hhosts id hid
    exact (endpoint_mem_holdings_of_active hstore hactive).mpr ⟨(hhosts store hstore).2.1, rfl⟩
  refine List.pairwise_filterMap.mpr (hids.imp_of_mem ?_)
  intro id other hid hother hne handle hhandle handle' hhandle' heq
  subst heq
  have hparty := h.exclusive _ _ _ (hheld id hid handle hhandle) (hheld other hother handle hhandle') (.inl rfl)
  injection hparty with hparty
  exact hne hparty

theorem Reachable.hosts_after (h : w.Reachable) {store : Store} (hstore : w.stores[id]? = some store)
    (hlayout : store.layout = layout) (hfabric : store.fabric = .loopback) (actions : List Action) :
    (w.after actions).Hosts layout id := by
  obtain ⟨hw, ht⟩ := h.sound
  intro store' hstore'
  rcases retains_after hw ht hstore actions with ⟨store'', hstore'', hretains, -⟩ | ⟨hgone, -⟩
  · obtain rfl := Option.some.inj (hstore'.symm.trans hstore'')
    have hfabric' := hretains.setup.fabric.trans hfabric
    refine ⟨hretains.setup.layout.trans hlayout, hfabric', fun active hactive => ?_⟩
    obtain ⟨link, hlink, -⟩ := ((h.after actions).serves hstore' hfabric' hactive).up.link
    rw [hlink]
    rfl
  · rw [hgone] at hstore'
    contradiction

end World

namespace Console

section Lines

variable (w : World) (layout : Layout) (limit : Nat) (line : Nat → Slot layout → String)
  (more : World → Store → List String)

inductive Tells (id : StoreId) : List String → Prop
  | gone (hstore : w.stores[id]? = none) : Tells id []
  | skipped {store : Store} (hstore : w.stores[id]? = some store) (hready : store.isReady = false) :
    Tells id [s!"{store.config.name} is not ready yet, skipping."]
  | told {store : Store} {active : Active} {link : Link} {slots : List (Slot layout)} {analysis : Analysis}
    (hstore : w.stores[id]? = some store) (hactive : store.active = some active)
    (hlink : w.net.links[active.endpoint.handle]? = some link)
    (hslots : slots.map (fun slot => .ok (some slot)) =
      (List.range (min limit store.config.capacity)).map (w.getSlot store layout))
    (hanalysis : w.analyze store = .ok analysis) :
    Tells id
      (infoLine store.config.name
          { queuePair := active.endpoint.queuePair
            keys := active.region.keys
            receivePsn := link.psn
            baseline := active.baseline } ::
        s!"Storage of '{store.config.name}':" :: slots.mapIdx line ++
        [analysisLine analysis, s!"Completion queue: {(Poll.ofCompletion? link.completions.head?).text}"] ++
        more w store)

end Lines

section Lines

variable {w w' : World} {layout : Layout} {limit : Nat} {line : Nat → Slot layout → String}
  {more : World → Store → List String} {id : StoreId} {ids others : List StoreId}
  (hmore : ∀ (w : World) (store : Store) (net : Loopback), more { w with net } store = more w store)

include hmore

theorem Tells.of_hasPolled {lines : List String} (h : Tells w' layout limit line more id lines)
    (hpolled : w.HasPolled w' ids) (hapart : ∀ handle ∈ w.handleOf id, handle ∉ w.handlesOf ids) :
    Tells w layout limit line more id lines := by
  have hstores := hpolled.stores
  cases h with
  | gone hstore =>
    apply Tells.gone
    rwa [hstores] at hstore
  | skipped hstore hready =>
    rw [hstores] at hstore
    apply Tells.skipped hstore hready
  | @told store active link slots analysis hstore hactive hlink hslots hanalysis =>
    rw [hstores] at hstore
    have hhandle : w.handleOf id = some active.endpoint.handle := by
      rw [World.handleOf, hstore, Option.bind_some, hactive, Option.map_some]
    rw [hpolled.link_eq (hapart _ hhandle)] at hlink
    obtain ⟨links, rfl⟩ := hpolled.frame
    rw [hmore]
    exact .told hstore hactive hlink hslots hanalysis

variable (limit line more)

theorem storeLines_spec (hhosts : w.Hosts layout id) :
    Tells w layout limit line more id (storeLines w id layout limit line more).1 ∧
      w.HasPolled (storeLines w id layout limit line more).2 [id] := by
  rcases hstore : w.stores[id]? with _ | store
  · simp only [storeLines, hstore]
    refine ⟨.gone hstore, .refl ?_⟩
    simp [World.handlesOf, World.handleOf, hstore]
  · obtain ⟨rfl, hfabric, hlinked⟩ := hhosts store hstore
    rcases hactive : store.active with _ | active
    · have hready : store.isReady = false := by rw [Store.isReady, hactive, Option.isSome_none]
      simp only [storeLines, hstore, hready, Bool.false_eq_true, if_false]
      refine ⟨.skipped hstore hready, .refl ?_⟩
      simp [World.handlesOf, World.handleOf, hstore, hactive]
    · have hready : store.isReady = true := by rw [Store.isReady, hactive, Option.isSome_some]
      obtain ⟨link, hlink⟩ := Option.isSome_iff_exists.mp (hlinked active hactive)
      obtain ⟨slots, hsnapshot, hslots⟩ := w.exists_snapshot hactive store.layout limit
      obtain ⟨analysis, hanalysis⟩ := w.exists_analyze hactive
      simp only [storeLines, hstore, hready, if_true, World.storeInfo_eq hactive hfabric hlink, hsnapshot,
        hanalysis, World.storePoll_eq hactive hfabric hlink, hmore, lineOf, slotLines]
      constructor
      · have htold : Tells w store.layout limit line more id _ := .told hstore hactive hlink hslots hanalysis
        simpa only [List.append_assoc, List.cons_append, List.nil_append] using htold
      · apply World.HasPolled.of_poll
        rw [World.handleOf, hstore, Option.bind_some, hactive, Option.map_some]

variable (hpolled : w.HasPolled w' others)

include hpolled

theorem storeLines_step (hhosts : w.Hosts layout id) (hapart : (w.handlesOf (others ++ [id])).Nodup) :
    Tells w layout limit line more id (storeLines w' id layout limit line more).1 ∧
      w.HasPolled (storeLines w' id layout limit line more).2 (others ++ [id]) := by
  obtain ⟨htells, hlast⟩ := storeLines_spec limit line more hmore (hpolled.hosts hhosts)
  refine ⟨htells.of_hasPolled hmore hpolled fun handle hhandle hmem => ?_, hpolled.trans hlast hapart⟩
  rw [World.handlesOf_append] at hapart
  apply List.disjoint_of_nodup_append hapart hmem
  simp [World.handlesOf, Option.mem_def.mp hhandle]

theorem linesOfAll_spec (hhosts : ∀ id ∈ ids, w.Hosts layout id) (hapart : (w.handlesOf (others ++ ids)).Nodup) :
    ∃ sections,
      (linesOfAll (fun w id => storeLines w id layout limit line more) w' ids).1 = sections.flatten ∧
        List.Forall₂ (Tells w layout limit line more) ids sections ∧
        w.HasPolled (linesOfAll (fun w id => storeLines w id layout limit line more) w' ids).2 (others ++ ids) := by
  -- The stores that were served move over to the others one by one.
  induction ids generalizing w' others with
  | nil => exact ⟨[], rfl, .nil, others.append_nil.symm ▸ hpolled⟩
  | cons id ids ih =>
    rw [List.append_cons] at hapart ⊢
    have hfirst := World.nodup_handlesOf_left hapart
    obtain ⟨htells, hstep⟩ := storeLines_step limit line more hmore hpolled (hhosts id List.mem_cons_self) hfirst
    obtain ⟨sections, hlines, hsections, hrest⟩ :=
      ih hstep (fun other hother => hhosts other (List.mem_cons_of_mem id hother)) hapart
    refine ⟨_ :: sections, ?_, .cons htells hsections, hrest⟩
    rw [List.flatten_cons, ← hlines]
    rfl

end Lines

namespace Collector

variable {w w' : World} {arguments : Arguments} {collector : Collector}

theorem perm_stores (collector : Collector) :
    (collector.lists ++ [collector.postcard] ++ [collector.keyValue]).Perm collector.stores :=
  (List.perm_append_singleton ..).trans ((List.perm_append_singleton ..).cons _)

def spanLines (w : World) (store : Store) : List String :=
  lineOf (fun spans => s!"Empty spans: {Span.listText spans}") (w.emptyRuns store true)

def queryLines (redundancy : UInt8) (w : World) (store : Store) : List String :=
  lineOf (fun value => s!"Query result for key 1: {value}") (w.query store 1 redundancy)

/--
Whether a report tells of every store what was there, and takes nothing but the oldest completion of every ready one.
-/
structure Reports (w : World) (arguments : Arguments) (collector : Collector) (report : List String × World) :
    Prop where
  told : ∃ lists postcards entries, report.1 = lists.flatten ++ postcards ++ entries ∧
    List.Forall₂ (Tells w .append arguments.printLimit loggedLine spanLines) collector.lists lists ∧
    Tells w .postcard arguments.printLimit postcardLine (fun _ _ => []) collector.postcard postcards ∧
    Tells w .keyValue arguments.printLimit entryLine (queryLines (.ofNat arguments.redundancy)) collector.keyValue
      entries
  polled : w.HasPolled report.2 collector.stores
  -- Every ready store has a queue of its own.
  apart : (w.handlesOf collector.stores).Nodup

theorem reports_of_hosts (h : w.Sound) (hdistinct : collector.stores.Nodup)
    (hhosts : ∀ x ∈ collector.kinds, w.Hosts x.2 x.1) :
    Reports w collector.arguments collector (collector.report w) := by
  have hhosted : ∀ id ∈ collector.stores, ∃ layout, w.Hosts layout id := by
    intro id hid
    rw [← map_fst_kinds] at hid
    obtain ⟨x, hx, rfl⟩ := List.mem_map.mp hid
    exact ⟨_, hhosts x hx⟩
  have hperm := collector.perm_stores
  have hall : (w.handlesOf (collector.lists ++ [collector.postcard] ++ [collector.keyValue])).Nodup := by
    apply h.nodup_handlesOf (hperm.nodup_iff.mpr hdistinct)
    intro id hid
    apply hhosted id (hperm.mem_iff.mp hid)
  have hfirst := World.nodup_handlesOf_left hall
  have hlists : (w.handlesOf ([] ++ collector.lists)).Nodup := World.nodup_handlesOf_left hfirst
  obtain ⟨lists, hlines, htells, hpolled⟩ := linesOfAll_spec collector.arguments.printLimit loggedLine spanLines
    (fun _ _ _ => rfl) (.refl rfl) (fun id hid => hhosts (id, .append) (by simp [kinds, hid])) hlists
  obtain ⟨hpostcards, hpolled⟩ := storeLines_step collector.arguments.printLimit postcardLine (fun _ _ => [])
    (fun _ _ _ => rfl) hpolled (hhosts (collector.postcard, .postcard) (by simp [kinds])) hfirst
  obtain ⟨hentries, hpolled⟩ := storeLines_step collector.arguments.printLimit entryLine
    (queryLines collector.redundancy) (fun _ _ _ => rfl) hpolled
    (hhosts (collector.keyValue, .keyValue) (by simp [kinds])) hall
  refine ⟨⟨lists, _, _, ?_, htells, hpostcards, hentries⟩, hpolled.congr fun _ => hperm.mem_iff, ?_⟩
  · rw [← hlines]
    rfl
  · exact h.nodup_handlesOf hdistinct hhosted

theorem report_disturbs_nothing (h : w.Reachable) (hbuild : build w arguments = .ok (collector, w'))
    (actions : List Action) :
    Reports (w'.after actions) arguments collector (collector.report (w'.after actions)) := by
  obtain ⟨rfl, hadds⟩ := adds_build hbuild
  obtain ⟨before, rfl⟩ := hadds.run
  have hreach := h.after before
  apply reports_of_hosts (hreach.after actions).sound.1
  · rw [← map_fst_kinds]
    exact hadds.distinct
  · intro x hx
    obtain ⟨store, hstore, hlayout, hfabric⟩ := hadds.stores x hx
    apply hreach.hosts_after hstore hlayout hfabric

def sampleArguments : Arguments :=
  { keyValueSlots := 16, postcardSlots := 16, lists := 1, listSlots := 16, standardPages := true, printLimit := 2 }

def sampleRefusals : List Action :=
  [.initiate 3] ++ List.replicate 5 (.step (.call 4) false) ++ [.connect 1338] ++
    List.replicate 18 (.step (.call 4) false) ++ [.write 2 7 0 0 [1], .write 2 8 0 0 [1]]

theorem report_disturbs_nothing_mixed :
    let start := World.initial (.above 4096 4096) .zero
    ∃ collector w, start.Reachable ∧ build start sampleArguments = .ok (collector, w) ∧
      (w.after sampleRefusals).handlesOf collector.stores = [2] ∧
      ((w.after sampleRefusals).net.links[2]?).map (·.completions.map (·.request)) = some [7, 8] ∧
      ((collector.report (w.after sampleRefusals)).2.net.links[2]?).map (·.completions.map (·.request)) = some [8] ∧
      Reports (w.after sampleRefusals) sampleArguments collector (collector.report (w.after sampleRefusals)) := by
  intro start
  have hreach : start.Reachable := ⟨.above 4096 4096, .zero, [], rfl⟩
  obtain ⟨collector, w, hbuild, hhandles, hbefore, hafter⟩ : ∃ collector w,
      build start sampleArguments = .ok (collector, w) ∧
        (w.after sampleRefusals).handlesOf collector.stores = [2] ∧
        ((w.after sampleRefusals).net.links[2]?).map (·.completions.map (·.request)) = some [7, 8] ∧
        ((collector.report (w.after sampleRefusals)).2.net.links[2]?).map (·.completions.map (·.request)) =
          some [8] :=
    ⟨_, _, rfl, by decide +kernel, by decide +kernel, by decide +kernel⟩
  exact ⟨collector, w, hreach, hbuild, hhandles, hbefore, hafter,
    report_disturbs_nothing hreach hbuild sampleRefusals⟩

end Collector

end Console

end RemoteSlots
