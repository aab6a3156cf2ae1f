import Mathlib.Algebra.GroupWithZero.Nat
import RemoteSlots.Proofs.Scan.Runs
import RemoteSlots.Proofs.Slot.Contents
import RemoteSlots.Scan.Analysis

/-!
This module shows that the reports of empty runs are exact, for storages of every layout and size: a report in index
order has the maximal runs of empty slots, a circular one has the runs of the ring, and both count what the fullness
scan counts.
-/

namespace RemoteSlots

namespace Storage

variable {layout : Layout}

def isEmptyAt (memory : Memory) (storage : Storage layout) (index : Nat) : Bool :=
  (storage.get? memory index).any (·.isEmpty)

def isOccupiedAt (memory : Memory) (storage : Storage layout) (index : Nat) : Bool :=
  (storage.get? memory index).any (!·.isEmpty)

def emptyIndices (memory : Memory) (storage : Storage layout) : List Nat :=
  (List.range storage.capacity).filter (storage.isEmptyAt memory)

section Contents

variable {memory : Memory} {storage : Storage layout} {index : Nat}

theorem lt_of_isEmptyAt (h : storage.isEmptyAt memory index = true) : index < storage.capacity := by
  apply Nat.lt_of_not_le
  intro hle
  rw [isEmptyAt, get?_eq_none hle] at h
  contradiction

theorem isOccupiedAt_of_lt (hindex : index < storage.capacity) (h : storage.isEmptyAt memory index = false) :
    storage.isOccupiedAt memory index = true := by
  unfold isEmptyAt get? at h
  unfold isOccupiedAt get?
  rw [if_pos hindex, Option.any_some] at h ⊢
  rw [h]
  rfl

theorem isEmptyAt_of_isOccupiedAt (h : storage.isOccupiedAt memory index = true) :
    index < storage.capacity ∧ storage.isEmptyAt memory index = false := by
  unfold isOccupiedAt at h
  rcases hslot : storage.get? memory index with _ | slot
  · rw [hslot] at h
    contradiction
  · rw [hslot, Option.any_some] at h
    rw [isEmptyAt, hslot, Option.any_some]
    exact ⟨index_lt_of_get? hslot, by simpa using h⟩

variable (hlength : memory.length storage.block = storage.capacity * layout.size)

include hlength

theorem map_isEmpty_slots :
    (storage.slots memory).map (·.isEmpty) = (List.range storage.capacity).map (storage.isEmptyAt memory) := by
  apply List.ext_getElem?
  intro index
  rw [List.getElem?_map, List.getElem?_map, getElem?_slots hlength]
  by_cases hindex : index < storage.capacity
  · rw [List.getElem?_range hindex, Option.map_some, isEmptyAt, get?, if_pos hindex]
    rfl
  · rw [get?_eq_none (by omega), List.getElem?_eq_none (by simpa using hindex)]
    rfl

theorem flagAt_isEmpty : Span.flagAt ((storage.slots memory).map (·.isEmpty)) = storage.isEmptyAt memory := by
  funext index
  rw [Span.flagAt, List.getElem?_map, getElem?_slots hlength, isEmptyAt]
  cases storage.get? memory index <;> rfl

theorem length_emptyIndices (interval : Nat) :
    (storage.emptyIndices memory).length = (Analysis.scan interval (storage.slots memory)).1.empty := by
  have hcount : (storage.slots memory).countP (·.isEmpty) = ((storage.slots memory).map (·.isEmpty)).countP id := by
    rw [List.countP_map]
    rfl
  rw [Analysis.scan_fst, Analysis.empty_ofSlots, hcount, map_isEmpty_slots hlength, List.countP_map, emptyIndices,
    ← List.countP_eq_length_filter]
  rfl

end Contents

end Storage

namespace Span

structure IsRegular (capacity : Nat) (span : Span) : Prop where
  wrapping : span.wraps = true → span.first ≤ capacity
  straight : span.wraps = false → span.first ≤ span.last
  before : 1 ≤ span.first + capacity

end Span

namespace Storage

variable {layout : Layout} {memory : Memory} {storage : Storage layout}

structure Reports (memory : Memory) (storage : Storage layout) (spans : List Span) : Prop where
  indices : (spans.flatMap (·.indices storage.capacity)).Perm (storage.emptyIndices memory)
  lengths : ∀ interval,
    (spans.map (·.length storage.capacity)).sum = (Analysis.scan interval (storage.slots memory)).1.empty
  regular : ∀ span ∈ spans, span.IsRegular storage.capacity

structure ReportsInOrder (memory : Memory) (storage : Storage layout) (spans : List Span) : Prop
    extends storage.Reports memory spans where
  maximal : ∀ span, span ∈ spans ↔ span.IsMaximal (storage.isEmptyAt memory)
  increasing : spans.Pairwise fun a b => a.last < b.first

/--
The report of a ring.
-/
structure ReportsRing (memory : Memory) (storage : Storage layout) (spans : List Span) : Prop
    extends storage.Reports memory spans where
  wraps : ∀ span ∈ spans.tail, span.wraps = false
  whole : ∀ span ∈ spans, span.neighbours storage.capacity = none ↔
    ∀ index, index < storage.capacity → storage.isEmptyAt memory index = true
  between : ∀ span ∈ spans, ∀ before behind, span.neighbours storage.capacity = some (before, behind) →
    storage.isOccupiedAt memory before = true ∧ storage.isOccupiedAt memory behind = true

section Runs

variable (hlength : memory.length storage.block = storage.capacity * layout.size)

include hlength

theorem lists_emptyRuns :
    Span.Lists (storage.isEmptyAt memory) 0 storage.capacity (Span.emptyRuns false (storage.slots memory)) := by
  have hlists := Span.lists_runs ((storage.slots memory).map (·.isEmpty))
  rwa [flagAt_isEmpty hlength, List.length_map, length_slots hlength] at hlists

theorem joins_emptyRuns :
    Span.Joins storage.capacity (Span.emptyRuns false (storage.slots memory))
      (Span.emptyRuns true (storage.slots memory)) := by
  have hjoins := Span.joins_joinEnds (lists_emptyRuns hlength) fun _ => lt_of_isEmptyAt
  rw [← length_slots hlength] at hjoins ⊢
  exact hjoins

theorem reports_of_perm {spans : List Span}
    (hperm : (spans.flatMap (·.indices storage.capacity)).Perm (storage.emptyIndices memory))
    (hbounds : ∀ span ∈ spans, span.first < storage.capacity) : storage.Reports memory spans where
  indices := hperm
  lengths := by
    intro interval
    rw [← length_emptyIndices hlength, ← hperm.length_eq, List.length_flatMap]
    congr 2
    funext span
    rw [Span.length_indices]
  regular := by
    intro span hspan
    have hfirst := hbounds span hspan
    refine ⟨?_, ?_, ?_⟩
    · intro
      omega
    · intro hwraps
      simpa [Span.wraps] using hwraps
    · omega

end Runs

theorem neighbours_of_isBetween {span : Span} (hpos : 0 < storage.capacity)
    (h : span = ⟨0, storage.capacity - 1⟩ ∧ span.IsMaximal (storage.isEmptyAt memory) ∨
      span.IsBetween (storage.isEmptyAt memory) storage.capacity) :
    (span.neighbours storage.capacity = none ↔
      ∀ index, index < storage.capacity → storage.isEmptyAt memory index = true) ∧
      ∀ before behind, span.neighbours storage.capacity = some (before, behind) →
        storage.isOccupiedAt memory before = true ∧ storage.isOccupiedAt memory behind = true := by
  rcases h with ⟨rfl, hmaximal⟩ | hbetween
  · rw [Span.neighbours_whole hpos]
    refine ⟨⟨?_, fun _ => rfl⟩, ?_⟩
    · intro _ index hindex
      apply hmaximal.inside index (Nat.zero_le index) (Nat.le_sub_one_of_lt hindex)
    · intro before behind heq
      contradiction
  · have hbefore := isOccupiedAt_of_lt (Nat.mod_lt _ hpos) hbetween.before
    have hbehind := isOccupiedAt_of_lt (Nat.mod_lt _ hpos) hbetween.behind
    rw [hbetween.neighbours_eq]
    refine ⟨⟨?_, ?_⟩, ?_⟩
    · intro heq
      contradiction
    · intro hall
      have hempty := hall _ (isEmptyAt_of_isOccupiedAt hbefore).1
      rw [hbetween.before] at hempty
      contradiction
    · intro before behind heq
      simp only [Option.some.injEq, Prod.mk.injEq] at heq
      obtain ⟨rfl, rfl⟩ := heq
      exact ⟨hbefore, hbehind⟩

theorem empty_runs_exact (hpos : 0 < storage.capacity)
    (hlength : memory.length storage.block = storage.capacity * layout.size) :
    storage.ReportsInOrder memory (Span.emptyRuns false (storage.slots memory)) ∧
      storage.ReportsRing memory (Span.emptyRuns true (storage.slots memory)) := by
  have hlists := lists_emptyRuns hlength
  have hjoins := joins_emptyRuns hlength
  have hlt : ∀ index, storage.isEmptyAt memory index = true → index < storage.capacity := fun _ => lt_of_isEmptyAt
  have hindices : (Span.emptyRuns false (storage.slots memory)).flatMap (·.indices storage.capacity) =
      storage.emptyIndices memory := by
    rw [hlists.indices, Nat.sub_zero, ← List.range_eq_range', emptyIndices]
  constructor
  · refine ⟨reports_of_perm hlength ?_ ?_, fun span => hlists.mem_iff hlt, ?_⟩
    · rw [hindices]
    · intro span hspan
      have hmaximal := hlists.maximal span hspan
      apply Nat.lt_of_le_of_lt hmaximal.le (hmaximal.last_lt hlt)
    · apply hlists.apart.imp
      intro a b hapart
      omega
  · refine ⟨reports_of_perm hlength ?_ fun span => hjoins.first_lt hlists hlt, hjoins.wraps_tail hlists, ?_, ?_⟩
    · rw [← hindices]
      apply hjoins.perm_indices hlists
    · intro span hspan
      apply (neighbours_of_isBetween hpos (hjoins.isBetween hlists hlt hspan)).1
    · intro span hspan
      apply (neighbours_of_isBetween hpos (hjoins.isBetween hlists hlt hspan)).2

theorem empty_runs_exact_ring :
    let memory := Memory.store ⟨#[Block.zeroed 4096 24 4096 .standard], default⟩ 0 0 [0, 5, 0, 0, 6, 0]
    let log : Storage .append := ⟨6, 0⟩
    0 < log.capacity ∧ memory.length log.block = log.capacity * Layout.append.size ∧
      Span.emptyRuns false (log.slots memory) = [⟨0, 0⟩, ⟨2, 3⟩, ⟨5, 5⟩] ∧
      Span.emptyRuns true (log.slots memory) = [⟨5, 0⟩, ⟨2, 3⟩] ∧
      log.ReportsInOrder memory [⟨0, 0⟩, ⟨2, 3⟩, ⟨5, 5⟩] ∧ log.ReportsRing memory [⟨5, 0⟩, ⟨2, 3⟩] := by
  intro memory log
  have hpos : 0 < log.capacity := by decide
  have hlength : memory.length log.block = log.capacity * Layout.append.size := by decide
  have hlinear : Span.emptyRuns false (log.slots memory) = [⟨0, 0⟩, ⟨2, 3⟩, ⟨5, 5⟩] := by decide +kernel
  have hring : Span.emptyRuns true (log.slots memory) = [⟨5, 0⟩, ⟨2, 3⟩] := by decide +kernel
  have hexact := empty_runs_exact hpos hlength
  rw [hlinear, hring] at hexact
  exact ⟨hpos, hlength, hlinear, hring, hexact⟩

end Storage

end RemoteSlots
