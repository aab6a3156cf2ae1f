import Mathlib.Data.List.Basic
import RemoteSlots.Proofs.Scan.EmptyRuns
import RemoteSlots.Proofs.World.Isolation
import RemoteSlots.Proofs.World.Housing

/-!
This module shows that there is one content to a storage, however it is looked at: slot by slot, in one pass, page by
page or by counting what is occupied, and whoever wrote it before.
-/

namespace RemoteSlots

theorem filterMap_getElem? (xs : List α) (first count : Nat) :
    (List.range' first count).filterMap (xs[·]?) = (xs.drop first).take count := by
  induction count generalizing first with
  | zero => rfl
  | succ count ih =>
    rw [List.range'_succ, List.filterMap_cons, ih]
    by_cases hfirst : first < xs.length
    · rw [List.getElem?_eq_getElem hfirst, List.drop_eq_getElem_cons hfirst, List.take_succ_cons]
    · rw [List.getElem?_eq_none (by omega), List.drop_eq_nil_of_le (by omega), List.drop_eq_nil_of_le (by omega),
        List.take_nil, List.take_nil]

namespace Storage

variable {layout : Layout}

inductive Edit (layout : Layout) where
  | put (index : Nat) (slot : Slot layout)
  | clear
  | write (address : Nat) (words : List UInt32)

def edit (storage : Storage layout) (memory : Memory) : Edit layout → Memory
  | .put index slot =>
    match storage.put memory index slot with
    | .ok memory => memory
    | .error _ => memory
  | .clear => storage.clear memory
  | .write address words => memory.storeAt storage.block address words

def editAll (storage : Storage layout) (memory : Memory) (edits : List (Edit layout)) : Memory :=
  edits.foldl storage.edit memory

theorem edit_put_of_le {storage : Storage layout} {index : Nat} (h : storage.capacity ≤ index) (memory : Memory)
    (slot : Slot layout) : storage.edit memory (.put index slot) = memory := by
  rw [edit, put, if_neg (Nat.not_lt.mpr h)]

theorem keeps_edit (storage : Storage layout) (memory : Memory) (edit : Edit layout) :
    memory.Keeps (storage.edit memory edit) := by
  cases edit with
  | put index slot =>
    by_cases hindex : index < storage.capacity
    · rw [Storage.edit, put_eq_ok memory hindex]
      apply Memory.Keeps.store
    · rw [edit_put_of_le (Nat.not_lt.mp hindex)]
      apply Memory.Keeps.refl
  | clear => apply Memory.Keeps.clear
  | write address words => apply Memory.Keeps.storeAt

theorem keeps_editAll (storage : Storage layout) (memory : Memory) (edits : List (Edit layout)) :
    memory.Keeps (storage.editAll memory edits) := by
  induction edits generalizing memory with
  | nil => apply Memory.Keeps.refl
  | cons edit edits ih => exact (keeps_edit storage memory edit).trans (ih _)

def pageEnd (storage : Storage layout) (start limit : UInt64) : Nat :=
  min (min (start.toNat + limit.toNat) (2 ^ 64 - 1)) storage.capacity

structure ViewsAgree (memory : Memory) (storage : Storage layout) : Prop where
  length : (storage.slots memory).length = storage.capacity
  getElem? : ∀ index, (storage.slots memory)[index]? = storage.get? memory index
  none_iff : ∀ index, storage.get? memory index = none ↔ storage.capacity ≤ index
  -- A slot that does not exist cannot be put either.
  refused_iff : ∀ index slot,
    storage.put memory index slot = .error (.indexOutOfRange index storage.capacity) ↔ storage.capacity ≤ index
  accepted_iff : ∀ index slot, (∃ memory', storage.put memory index slot = .ok memory') ↔ index < storage.capacity
  unchanged : ∀ index slot, storage.capacity ≤ index → storage.edit memory (.put index slot) = memory
  analysis : ∀ interval, (Analysis.scan interval (storage.slots memory)).1 =
    { occupied := (List.range storage.capacity).countP (storage.isOccupiedAt memory), capacity := storage.capacity }
  page : ∀ start limit : UInt64, (storage.snapshot memory start.toNat limit.toNat).map some =
    (List.range' start.toNat (storage.pageEnd start limit - start.toNat)).map (storage.get? memory)
  pageEnd_eq : ∀ start limit : UInt64,
    storage.pageEnd start limit = min (start.toNat + limit.toNat) storage.capacity
  -- A page is followed by the next one.
  append : ∀ start first second, storage.snapshot memory start (first + second) =
    storage.snapshot memory start first ++ storage.snapshot memory (start + first) second
  pages : ∀ limit count, storage.capacity ≤ count * limit →
    (List.range count).flatMap (fun page => storage.snapshot memory (page * limit) limit) = storage.slots memory

section Slots

variable {memory : Memory} {storage : Storage layout}
  (hlength : memory.length storage.block = storage.capacity * layout.size)

include hlength

theorem snapshot_eq (start limit : Nat) :
    storage.snapshot memory start limit = ((storage.slots memory).drop start).take limit := by
  have hget : storage.get? memory = ((storage.slots memory)[·]?) := by
    funext index
    rw [getElem?_slots hlength]
  rw [snapshot, hget, filterMap_getElem?, List.take_eq_take_iff, List.length_drop, length_slots hlength]
  omega

theorem snapshot_append (start first second : Nat) : storage.snapshot memory start (first + second) =
    storage.snapshot memory start first ++ storage.snapshot memory (start + first) second := by
  rw [snapshot_eq hlength, snapshot_eq hlength, snapshot_eq hlength, List.take_add, List.drop_drop]

theorem flatMap_snapshot (limit count : Nat) :
    (List.range count).flatMap (fun page => storage.snapshot memory (page * limit) limit) =
      storage.snapshot memory 0 (count * limit) := by
  induction count with
  | zero => rw [Nat.zero_mul, snapshot_eq hlength, List.take_zero]; rfl
  | succ count ih =>
    rw [List.range_succ, List.flatMap_append, ih, List.flatMap_singleton, Nat.succ_mul, snapshot_append hlength,
      Nat.zero_add]

theorem occupied_eq : (storage.slots memory).countP (!·.isEmpty) =
    (List.range storage.capacity).countP (storage.isOccupiedAt memory) := by
  calc (storage.slots memory).countP (!·.isEmpty)
    _ = ((storage.slots memory).map (·.isEmpty)).countP (!·) := by
      rw [List.countP_map]
      rfl
    _ = (List.range storage.capacity).countP fun index => !storage.isEmptyAt memory index := by
      rw [map_isEmpty_slots hlength, List.countP_map]
      rfl
    _ = _ := by
      apply List.countP_congr
      intro index hindex
      rw [Bool.not_eq_true']
      refine ⟨isOccupiedAt_of_lt (List.mem_range.mp hindex), ?_⟩
      intro hoccupied
      apply (isEmptyAt_of_isOccupiedAt hoccupied).2

end Slots

section Put

variable {memory : Memory} {storage : Storage layout} {index : Nat}

theorem get?_eq_none_iff : storage.get? memory index = none ↔ storage.capacity ≤ index := by
  rw [get?]
  split
  · next hlt => simpa using hlt
  · next hle => simpa using hle

theorem put_eq_error_iff {slot : Slot layout} :
    storage.put memory index slot = .error (.indexOutOfRange index storage.capacity) ↔ storage.capacity ≤ index := by
  rw [put]
  split
  · next hlt => simpa using hlt
  · next hle => simpa using hle

theorem exists_put_iff {slot : Slot layout} :
    (∃ memory', storage.put memory index slot = .ok memory') ↔ index < storage.capacity := by
  rw [put]
  split
  · next hlt => simpa using hlt
  · next hle => simpa using hle

theorem map_snapshot (start limit : Nat) : (storage.snapshot memory start limit).map some =
    (List.range' start (min (start + limit) storage.capacity - start)).map (storage.get? memory) := by
  have hsome : ∀ index ∈ List.range' start (min (start + limit) storage.capacity - start),
      storage.get? memory index =
        some (Slot.load (memory.load storage.block (index * layout.words) layout.words)) := by
    intro index hindex
    rw [List.mem_range'_1] at hindex
    rw [get?, if_pos (by omega)]
  rw [snapshot, List.filterMap_congr hsome, List.map_congr_left hsome, List.filterMap_eq_map', List.map_map]
  rfl

end Put

section Houses

variable {memory : Memory} {storage : Storage layout} {extent : Extent}

theorem Fills.capacity_lt (hfills : storage.Fills extent) (h : memory.Houses extent) : storage.capacity < 2 ^ 64 := by
  have hsize := Nat.le_mul_of_pos_right storage.capacity layout.size_pos
  have hlength := hfills.length
  have hpos := h.pos
  have hbound := h.bound
  have hlimit : addressLimit = 2 ^ 64 := rfl
  have hfour : layout.size = 4 * layout.words := rfl
  have hwords := layout.words_pos
  have htwo : storage.capacity * 2 ≤ storage.capacity * layout.size := Nat.mul_le_mul_left _ (by omega)
  omega

theorem Fills.viewsAgree (hfills : storage.Fills extent) (h : memory.Houses extent) :
    storage.ViewsAgree memory := by
  have hlength : memory.length storage.block = storage.capacity * layout.size := by
    rw [hfills.block, h.length, hfills.length]
  have hcapacity := hfills.capacity_lt h
  have hend : ∀ start limit : UInt64,
      storage.pageEnd start limit = min (start.toNat + limit.toNat) storage.capacity := by
    intro start limit
    unfold pageEnd
    omega
  refine {
    length := length_slots hlength
    getElem? := getElem?_slots hlength
    none_iff := fun _ => get?_eq_none_iff
    refused_iff := fun _ _ => put_eq_error_iff
    accepted_iff := fun _ _ => exists_put_iff
    unchanged := fun _ slot hindex => edit_put_of_le hindex memory slot
    analysis := ?_
    page := ?_
    pageEnd_eq := hend
    append := snapshot_append hlength
    pages := ?_ }
  · intro interval
    rw [Analysis.scan_fst, Analysis.ofSlots, occupied_eq hlength, length_slots hlength]
  · intro start limit
    rw [hend, map_snapshot]
  · intro limit count hcount
    rw [flatMap_snapshot hlength, snapshot_eq hlength, List.drop_zero, List.take_of_length_le]
    rwa [length_slots hlength]

end Houses

end Storage

namespace World

variable {w : World} {s : StoreId} {store : Store}

/--
Whether a ready store shows one content, in whichever way it is asked.
-/
structure ShowsContent (w : World) (store : Store) (storage : Storage store.layout) : Prop where
  storage_eq : store.storage store.layout = .ok storage
  capacity : storage.capacity = store.config.capacity
  viewsAgree : storage.ViewsAgree w.memory
  get : ∀ index, w.getSlot store store.layout index = .ok (storage.get? w.memory index)
  snapshot : ∀ start limit : UInt64, w.snapshot store store.layout start.toNat limit.toNat =
    .ok (storage.snapshot w.memory start.toNat limit.toNat)
  analysis : w.analyze store = .ok
    { occupied := (List.range storage.capacity).countP (storage.isOccupiedAt w.memory)
      capacity := storage.capacity }

theorem Reachable.showsContent (h : w.Reachable) (hstore : w.stores[s]? = some store) (hready : store.isReady) :
    ∃ storage, w.ShowsContent store storage := by
  obtain ⟨active, hactive⟩ := Option.isSome_iff_exists.mp hready
  have hhoused := h.housed.stores s store active hstore hactive
  have hstorage := storage_of_active hactive store.layout
  have hviews : Storage.ViewsAgree w.memory (⟨store.config.capacity, active.region.block⟩ : Storage store.layout) :=
    Storage.Fills.viewsAgree ⟨rfl, hhoused.length⟩ hhoused.houses
  refine ⟨_, hstorage, rfl, hviews, ?_, ?_, ?_⟩
  · intro index
    rw [getSlot, hstorage]
    rfl
  · intro start limit
    rw [World.snapshot, hstorage]
    rfl
  · rw [analyze, hstorage, ← hviews.analysis store.config.progressInterval]
    rfl

theorem views_agree :
    (∀ {layout : Layout} {memory memory' : Memory} {pages : PagePolicy} {capacity : Nat} {storage : Storage layout},
      Storage.allocate memory pages layout capacity = .ok (storage, memory') →
        ∀ edits, storage.capacity = capacity ∧ storage.ViewsAgree (storage.editAll memory' edits)) ∧
    ∀ {w : World} {s : StoreId} {store : Store}, w.Reachable → w.stores[s]? = some store → store.isReady →
      ∃ storage, w.ShowsContent store storage := by
  constructor
  · intro layout memory memory' pages capacity storage hallocate edits
    obtain ⟨hcapacity, hfresh⟩ := Storage.allocate_spec hallocate
    have hhouses := hfresh.houses.of_keeps (Storage.keeps_editAll storage memory' edits)
    refine ⟨hcapacity, Storage.Fills.viewsAgree ⟨rfl, ?_⟩ hhouses⟩
    rw [hcapacity]
  · intro w s store hreach hstore hready
    apply hreach.showsContent hstore hready

set_option maxRecDepth 10000 in
theorem views_agree_postcards :
    let postcards : Storage .postcard := ⟨3, 0⟩
    let edits := [.put 1 (.postcard [1, 2, 3, 4, 5]), .clear, .put 2 (.postcard [7]), .write 4100 [9], .put 3 .zero]
    let w := (initial (.above 4096 4096) .zero).after sampleNeighbours
    ∃ memory store, Storage.allocate (.emptyOf (.above 4096 0)) .standard .postcard 3 = .ok (postcards, memory) ∧
      (postcards.slots (postcards.editAll memory edits)).map (·.isEmpty) = [false, true, false] ∧
      postcards.ViewsAgree (postcards.editAll memory edits) ∧
      w.Reachable ∧ w.stores[1]? = some store ∧ store.isReady ∧ ∃ storage, w.ShowsContent store storage := by
  intro postcards edits w
  obtain ⟨memory, hallocate, hempty⟩ : ∃ memory,
      Storage.allocate (.emptyOf (.above 4096 0)) .standard .postcard 3 = .ok (postcards, memory) ∧
        (postcards.slots (postcards.editAll memory edits)).map (·.isEmpty) = [false, true, false] :=
    ⟨_, rfl, by decide +kernel⟩
  have hreach : w.Reachable := ⟨.above 4096 4096, .zero, sampleNeighbours, rfl⟩
  obtain ⟨store, hstore, hready⟩ : ∃ store, w.stores[1]? = some store ∧ store.isReady := ⟨_, rfl, rfl⟩
  exact ⟨memory, store, hallocate, hempty, (views_agree.1 hallocate edits).2, hreach, hstore, hready,
    views_agree.2 hreach hstore hready⟩

end World

end RemoteSlots
