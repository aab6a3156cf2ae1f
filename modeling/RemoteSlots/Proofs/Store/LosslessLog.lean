import RemoteSlots.Console.Synthetic
import RemoteSlots.Proofs.Scan.Laps
import RemoteSlots.Proofs.Slot.Contents
import RemoteSlots.Proofs.Store.AppendLog

/-!
This module shows what the diagnostics of an append log report after a producer went round it without losing an
entry, for every number of laps.
-/

namespace RemoteSlots

open Console

structure Memory.HasLog (memory : Memory) (block : BlockId) (capacity count : Nat) : Prop where
  recent : ∀ v, v < count → count ≤ v + capacity →
    memory.word block (v % capacity) = UInt32.ofNat (v + 1)
  unwritten : ∀ i, i < capacity → count ≤ i → memory.word block i = 0

namespace Memory.HasLog

variable {memory : Memory} {block : BlockId} {capacity count : Nat}

theorem store (h : memory.HasLog block capacity count) (hpos : 0 < capacity)
    (hlength : memory.length block = capacity * Layout.append.size) :
    (memory.store block (count % capacity) [UInt32.ofNat (count + 1)]).HasLog block capacity (count + 1) := by
  have hplace := Nat.mod_lt count hpos
  have hsize : memory.length block = capacity * 4 := hlength
  constructor
  · intro v hv hlap
    rw [Memory.word_store, List.length_singleton]
    by_cases hlast : v = count
    · subst hlast
      rw [if_pos ⟨rfl, Nat.le_refl _, by omega, by omega⟩, Nat.sub_self]
      rfl
    · have hne : v % capacity ≠ count % capacity := mod_ne_mod (by omega) (by omega)
      rw [if_neg (by omega)]
      exact h.recent v (by omega) (by omega)
  · intro i hi hle
    rw [Memory.word_store, List.length_singleton, Nat.mod_eq_of_lt (by omega), if_neg (by omega)]
    exact h.unwritten i hi (by omega)

theorem word_eq (h : memory.HasLog block capacity count) (lap : Nat) {i : Nat} (hi : i < capacity)
    (hwritten : capacity * lap + i < count) (hlap : count ≤ capacity * lap + i + capacity) :
    memory.word block i = UInt32.ofNat (capacity * lap + i + 1) := by
  have hrecent := h.recent (capacity * lap + i) hwritten hlap
  rwa [Nat.mul_add_mod, Nat.mod_eq_of_lt hi] at hrecent

theorem words_of_lt (h : memory.HasLog block capacity count) (hlt : count < capacity) :
    (List.range capacity).map (memory.word block) = lapValues capacity count := by
  have hsplit : List.range' 0 count ++ List.range' (0 + count) (capacity - count) = List.range' 0 _ :=
    List.range'_append_1
  rw [Nat.add_sub_cancel' (Nat.le_of_lt hlt), Nat.zero_add] at hsplit
  rw [lapValues, if_pos hlt, List.range_eq_range', ← hsplit, List.map_append]
  congr 1
  · refine map_eq_stretch fun i hi => ?_
    have hword := h.word_eq 0 (Nat.lt_trans hi hlt) (by omega) (by omega)
    rw [Nat.zero_add]
    rwa [Nat.mul_zero, Nat.zero_add] at hword
  · refine List.eq_replicate_iff.mpr ⟨by simp, fun word hword => ?_⟩
    obtain ⟨i, hi, rfl⟩ := List.mem_map.mp hword
    rw [List.mem_range'_1] at hi
    exact h.unwritten i (by omega) hi.1

theorem words_of_le (h : memory.HasLog block capacity count) (hpos : 0 < capacity) (hle : capacity ≤ count) :
    (List.range capacity).map (memory.word block) = lapValues capacity count := by
  have hplace := Nat.mod_lt count hpos
  have hsplit : List.range' 0 (count % capacity) ++ List.range' (0 + count % capacity) (capacity - count % capacity) =
      List.range' 0 _ := List.range'_append_1
  rw [Nat.add_sub_cancel' (Nat.le_of_lt hplace), Nat.zero_add] at hsplit
  rw [lapValues, if_neg (Nat.not_lt.mpr hle), List.range_eq_range', ← hsplit, List.map_append]
  -- The lap under way comes behind at least one complete lap.
  obtain ⟨lap, hlap⟩ : ∃ lap, count / capacity = lap + 1 := Nat.exists_eq_add_one.mpr (Nat.div_pos hle hpos)
  have hdiv := Nat.div_add_mod count capacity
  rw [hlap] at hdiv
  have hnext : capacity * (lap + 1) = capacity * lap + capacity := Nat.mul_succ ..
  congr 1
  · refine map_eq_stretch fun i hi => ?_
    have hstart : count - count % capacity = capacity * (lap + 1) := by omega
    rw [hstart, Nat.zero_add]
    exact h.word_eq _ (by omega) (by omega) (by omega)
  · refine map_eq_stretch fun i hi => ?_
    have hstart : count - capacity + i = capacity * lap + (count % capacity + i) := by omega
    rw [hstart]
    exact h.word_eq _ (by omega) (by omega) (by omega)

theorem words_eq (h : memory.HasLog block capacity count) (hpos : 0 < capacity) :
    (List.range capacity).map (memory.word block) = lapValues capacity count := by
  rcases Nat.lt_or_ge count capacity with hlt | hle
  · exact h.words_of_lt hlt
  · exact h.words_of_le hpos hle

end Memory.HasLog

theorem Storage.IsZero.hasLog {memory : Memory} {storage : Storage .append} (h : storage.IsZero memory)
    (hlength : memory.length storage.block = storage.capacity * Layout.append.size) :
    memory.HasLog storage.block storage.capacity 0 := by
  refine ⟨fun v hv => absurd hv (Nat.not_lt_zero v), fun i hi _ => ?_⟩
  have hvalue := congrArg (·[i]?) (Storage.values_slots hlength)
  simp only [List.getElem?_map, Storage.getElem?_slots hlength, h i hi, List.getElem?_range hi, Option.map_some,
    Option.some.injEq] at hvalue
  exact hvalue.symm

section Scans

variable {memory : Memory} {storage : Storage .append} {count : Nat}

theorem Gap.ofSlots_of_hasLog (hlength : memory.length storage.block = storage.capacity * Layout.append.size)
    (hpos : 0 < storage.capacity) (hcount : count < 2 ^ 32)
    (hlog : memory.HasLog storage.block storage.capacity count) :
    Gap.ofSlots (storage.slots memory) = Gap.ofLaps storage.capacity count := by
  rw [Gap.ofSlots, Storage.values_slots hlength, hlog.words_eq hpos, Gap.ofValues_lapValues hpos hcount]

theorem Storage.isEmpty_of_hasLog (hlength : memory.length storage.block = storage.capacity * Layout.append.size)
    (hpos : 0 < storage.capacity) (hcount : count < 2 ^ 32)
    (hlog : memory.HasLog storage.block storage.capacity count) :
    (storage.slots memory).map (·.isEmpty) =
      List.replicate (min count storage.capacity) false ++ List.replicate (storage.capacity - count) true := by
  rw [← isZero_lapValues hpos hcount, ← hlog.words_eq hpos, ← Storage.values_slots hlength, List.map_map]
  exact List.map_congr_left fun slot _ => slot.isEmpty_eq_loggedValue

theorem Span.emptyRuns_of_hasLog (hlength : memory.length storage.block = storage.capacity * Layout.append.size)
    (hpos : 0 < storage.capacity) (hcount : count < 2 ^ 32)
    (hlog : memory.HasLog storage.block storage.capacity count) (circular : Bool) :
    Span.emptyRuns circular (storage.slots memory) = Span.ofLaps storage.capacity count := by
  simp only [Span.emptyRuns, Storage.isEmpty_of_hasLog hlength hpos hcount hlog, Span.runs_ofLaps,
    Storage.length_slots hlength, Span.joinEnds_ofLaps, ite_self]

theorem Analysis.ofSlots_of_hasLog (hlength : memory.length storage.block = storage.capacity * Layout.append.size)
    (hpos : 0 < storage.capacity) (hcount : count < 2 ^ 32)
    (hlog : memory.HasLog storage.block storage.capacity count) :
    Analysis.ofSlots (storage.slots memory) =
      { occupied := min count storage.capacity, capacity := storage.capacity } := by
  have hoccupied : (storage.slots memory).countP (!·.isEmpty) =
      ((storage.slots memory).map (·.isEmpty)).countP (!·) := by
    rw [List.countP_map]
    rfl
  rw [Analysis.ofSlots, hoccupied, Storage.isEmpty_of_hasLog hlength hpos hcount hlog, Storage.length_slots hlength,
    List.countP_append, List.countP_replicate, List.countP_replicate]
  rfl

end Scans

namespace World

/--
Whether the diagnostics of a log report that the numbers from one to `count` went round it.
-/
structure Diagnoses (w : World) (log : Store) (count : Nat) : Prop where
  gaps : w.gaps log = .ok (Gap.ofLaps log.config.capacity count)
  emptyRuns : ∀ circular, w.emptyRuns log circular = .ok (Span.ofLaps log.config.capacity count)
  analyze : w.analyze log =
    .ok { occupied := min count log.config.capacity, capacity := log.config.capacity }

variable {w : World} {s : StoreId} {log : Store} {active : Active} {count : Nat}

theorem IsStorage.length_eq (h : IsStorage w.memory log active.region.toExtent) (hlayout : log.layout = .append) :
    w.memory.length active.region.block = log.config.capacity * Layout.append.size := by
  have hlength := h.length
  rw [Store.bufferSize, hlayout] at hlength
  exact h.houses.length.trans hlength

theorem diagnoses_of_hasLog (h : IsStorage w.memory log active.region.toExtent) (hlayout : log.layout = .append)
    (hactive : log.active = some active) (hcount : count < 2 ^ 32)
    (hlog : w.memory.HasLog active.region.block log.config.capacity count) : w.Diagnoses log count := by
  have hlength := h.length_eq hlayout
  have hpos := LogRun.IsAtWork.capacity_pos h ⟨rfl, rfl, rfl⟩
  have hstorage : ∀ layout, log.storage layout = .ok ⟨log.config.capacity, active.region.block⟩ :=
    LogRun.IsAtWork.storage_eq ⟨rfl, rfl, rfl⟩ hactive
  obtain ⟨layout, config, fabric, cancelled, initiating, phase, tail, dropped⟩ := log
  obtain rfl : layout = .append := hlayout
  let storage : Storage .append := ⟨config.capacity, active.region.block⟩
  have hlength' : w.memory.length storage.block = storage.capacity * Layout.append.size := hlength
  constructor
  · rw [World.gaps, hstorage]
    exact congrArg Except.ok (Gap.ofSlots_of_hasLog hlength' hpos hcount hlog)
  · intro circular
    rw [World.emptyRuns, hstorage]
    exact congrArg Except.ok (Span.emptyRuns_of_hasLog hlength' hpos hcount hlog circular)
  · rw [World.analyze, hstorage]
    refine congrArg Except.ok ((Analysis.scan_fst ..).trans ?_)
    exact Analysis.ofSlots_of_hasLog hlength' hpos hcount hlog

def logEntries (capacity start count : Nat) : List (Nat × Slot .append) :=
  (List.range' (start + 1) count).map fun value => ((value - 1) % capacity, .logged (UInt32.ofNat value))

theorem logEntries_succ (capacity start count : Nat) :
    logEntries capacity start (count + 1) =
      (start % capacity, .logged (UInt32.ofNat (start + 1))) :: logEntries capacity (start + 1) count := rfl

theorem putSlot_logged (w : World) (hactive : log.active = some active) {i : Nat} (hi : i < log.config.capacity)
    (value : UInt32) : w.putSlot log i (.logged value) =
      .ok { w with memory := w.memory.store active.region.block i [value] } := by
  simp only [World.putSlot, LogRun.IsAtWork.storage_eq ⟨rfl, rfl, rfl⟩ hactive, bind, Except.bind]
  rw [Storage.put_eq_ok w.memory hi, Layout.words, Nat.mul_one]
  rfl

theorem putSlots_hasLog (h : IsStorage w.memory log active.region.toExtent) (hlayout : log.layout = .append)
    (hactive : log.active = some active) {start : Nat}
    (hlog : w.memory.HasLog active.region.block log.config.capacity start) (count : Nat) :
    ∃ w', (logEntries log.config.capacity start count).foldlM (fun w entry => w.putSlot log entry.1 entry.2) w =
        .ok w' ∧
      IsStorage w'.memory log active.region.toExtent ∧
      w'.memory.HasLog active.region.block log.config.capacity (start + count) := by
  induction count generalizing w start with
  | zero => exact ⟨w, rfl, h, hlog⟩
  | succ count ih =>
    have hpos := LogRun.IsAtWork.capacity_pos h ⟨rfl, rfl, rfl⟩
    have hput := putSlot_logged w hactive (Nat.mod_lt start hpos) (UInt32.ofNat (start + 1))
    have hsum : start + (count + 1) = start + 1 + count := by omega
    simp only [logEntries_succ, List.foldlM_cons, hput, hsum]
    exact ih (h.keeps (Memory.Keeps.store _ _ _ _) ⟨rfl, rfl, rfl⟩) (hlog.store hpos (h.length_eq hlayout))

theorem writeSlots_hasLog (h : w.Serves log active) (hlayout : log.layout = .append) {start : Nat}
    (hlog : w.memory.HasLog active.region.block log.config.capacity start) (count : Nat) :
    ∃ w', w.writeSlots active.endpoint.handle (Stage.metadata active.region)
          (logEntries log.config.capacity start count) = (.ok (), w') ∧
      w'.Serves log active ∧ w'.memory.HasLog active.region.block log.config.capacity (start + count) := by
  induction count generalizing w start with
  | zero => exact ⟨w, rfl, h, hlog⟩
  | succ count ih =>
    have hpos := LogRun.IsAtWork.capacity_pos h.storage ⟨rfl, rfl, rfl⟩
    have hwrite : w.writeSlot active.endpoint.handle (Stage.metadata active.region)
        (UInt64.ofNat (start % log.config.capacity)) Layout.append.size
        (Slot.logged (UInt32.ofNat (start + 1))).toWords = _ :=
      LogRun.IsAtWork.write_entry h ⟨rfl, rfl, rfl⟩ hlayout (Nat.mod_lt start hpos) _
    have hup : active.IsUp (w.net.modifyLink active.endpoint.handle fun link => { link with psn := link.psn + 1 }) :=
      h.up.modifyLink _ fun _ => ⟨rfl, rfl⟩
    have hsum : start + (count + 1) = start + 1 + count := by omega
    simp only [logEntries_succ, writeSlots, hwrite, hsum]
    exact ih (h.keeps (Memory.Keeps.store _ _ _ _) hup) (hlog.store hpos (h.storage.length_eq hlayout))

theorem lossless_log_diagnosed (h : w.Reachable) (hstore : w.stores[s]? = some log) (hlayout : log.layout = .append)
    (hactive : log.active = some active)
    (hzero : Storage.IsZero w.memory (⟨log.config.capacity, active.region.block⟩ : Storage .append))
    (hcount : count < 2 ^ 32) :
    (∃ w', (syntheticLog count log.config.capacity).foldlM (fun w entry => w.putSlot log entry.1 entry.2) w =
        .ok w' ∧
      w'.Diagnoses log count) ∧
    (log.fabric = .loopback → ∃ w', w.writeSlots active.endpoint.handle (Stage.metadata active.region)
          (syntheticLog count log.config.capacity) = (.ok (), w') ∧
      w'.Diagnoses log count) := by
  have hstorage := h.housed.stores s log active hstore hactive
  have hlog := hzero.hasLog (hstorage.length_eq hlayout)
  constructor
  · obtain ⟨w', hput, hstorage', hlog'⟩ := putSlots_hasLog hstorage hlayout hactive hlog count
    rw [Nat.zero_add] at hlog'
    exact ⟨w', hput, diagnoses_of_hasLog hstorage' hlayout hactive hcount hlog'⟩
  · intro hfabric
    obtain ⟨w', hwrite, hserves, hlog'⟩ := writeSlots_hasLog (h.serves hstore hfabric hactive) hlayout hlog count
    rw [Nat.zero_add] at hlog'
    exact ⟨w', hwrite, diagnoses_of_hasLog hserves.storage hlayout hactive hcount hlog'⟩

set_option maxRecDepth 10000 in
theorem lossless_log_diagnosed_third_lap :
    let w := (initial (.above 4096 4096) .zero).after sampleLogStart
    let storage : Storage .append := ⟨sampleLog.config.capacity, sampleLogActive.region.block⟩
    w.Reachable ∧ w.stores[1]? = some sampleLog ∧ sampleLog.layout = .append ∧
      sampleLog.active = some sampleLogActive ∧ storage.IsZero w.memory ∧ 10 < 2 ^ 32 ∧ sampleLog.fabric = .loopback ∧
      (∃ w', w.writeSlots sampleLogActive.endpoint.handle (Stage.metadata sampleLogActive.region)
          (syntheticLog 10 sampleLog.config.capacity) = (.ok (), w') ∧
        w'.Diagnoses sampleLog 10) ∧
      Gap.ofLaps sampleLog.config.capacity 10 = [⟨0, 0, 9⟩, ⟨2, 10, 7⟩] := by
  intro w storage
  have hreach : w.Reachable := ⟨.above 4096 4096, .zero, sampleLogStart, rfl⟩
  have hstore : w.stores[1]? = some sampleLog := by rfl
  have hzero : storage.IsZero w.memory := by
    unfold Storage.IsZero
    decide +kernel
  exact ⟨hreach, hstore, rfl, rfl, hzero, by decide, rfl,
    (lossless_log_diagnosed hreach hstore rfl rfl hzero (by decide)).2 rfl, by decide⟩

end World

end RemoteSlots
