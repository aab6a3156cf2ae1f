import Mathlib.Data.List.Basic
import RemoteSlots.Proofs.Slot.Contents
import RemoteSlots.Scan.Gap

/-!
This module shows that the reports of gaps are exact: they name the entries of a log that do not follow on the entry
before them, in index order, no matter how many empty slots lie between. A log without gaps holds the numbers from one
on.
-/

namespace RemoteSlots

namespace Storage

def entries (memory : Memory) (storage : Storage .append) : List (Nat × UInt32) :=
  (List.range storage.capacity).filterMap fun index =>
    match storage.get? memory index with
    | some slot => if slot.isEmpty then none else some (index, slot.loggedValue)
    | none => none

end Storage

namespace Gap

def valueBefore (last : UInt32) (entries : List (Nat × UInt32)) : (place : Nat) → UInt32
  | 0 => last
  | place + 1 => (entries[place]?.map (·.2)).getD 0

/--
Whether gaps are the gaps of a list of entries: one for each entry that does not carry the successor of the entry
before it, where the successor of the last number is zero.
-/
structure AreOf (gaps : List Gap) (entries : List (Nat × UInt32)) : Prop where
  mem_iff : ∀ gap, gap ∈ gaps ↔ ∃ place index value, entries[place]? = some (index, value) ∧
    value ≠ valueBefore 0 entries place + 1 ∧ gap = ⟨index, valueBefore 0 entries place, value⟩
  increasing : gaps.Pairwise fun a b => a.index < b.index
  nil_iff : gaps = [] ↔ entries.map (·.2.toNat) = List.range' 1 entries.length

def written (index : Nat) : List UInt32 → List (Nat × UInt32)
  | [] => []
  | value :: values =>
    if value = 0 then written (index + 1) values else (index, value) :: written (index + 1) values

def breaks (last : UInt32) : List (Nat × UInt32) → List Gap
  | [] => []
  | (index, value) :: entries =>
    if value = last + 1 then breaks value entries else ⟨index, last, value⟩ :: breaks value entries

theorem go_eq_breaks (index : Nat) (last : UInt32) (values : List UInt32) :
    ofValues.go index last values = breaks last (written index values) := by
  induction values generalizing index last with
  | nil => rfl
  | cons value values ih =>
    rw [ofValues.go, written]
    by_cases hzero : value = 0
    · rw [if_pos hzero, if_pos hzero, ih]
    · rw [if_neg hzero, if_neg hzero, breaks, ih]

theorem written_eq_filterMap (f : Nat → UInt32) (first count : Nat) :
    written first ((List.range' first count).map f) =
      (List.range' first count).filterMap fun index => if f index = 0 then none else some (index, f index) := by
  induction count generalizing first with
  | zero => rfl
  | succ count ih =>
    rw [List.range'_succ, List.map_cons, written, List.filterMap_cons]
    by_cases hzero : f first = 0
    · rw [if_pos hzero, if_pos hzero, ih]
    · rw [if_neg hzero, if_neg hzero, ih]

theorem index_le_of_mem_written {index : Nat} {values : List UInt32} {entry : Nat × UInt32}
    (h : entry ∈ written index values) : index ≤ entry.1 ∧ entry.2 ≠ 0 := by
  induction values generalizing index with
  | nil => contradiction
  | cons value values ih =>
    rw [written] at h
    split at h
    · obtain ⟨hle, hne⟩ := ih h
      exact ⟨by omega, hne⟩
    · next hvalue =>
      rcases List.mem_cons.mp h with rfl | h
      · exact ⟨Nat.le_refl _, hvalue⟩
      · obtain ⟨hle, hne⟩ := ih h
        exact ⟨by omega, hne⟩

theorem pairwise_written (index : Nat) (values : List UInt32) :
    (written index values).Pairwise fun a b => a.1 < b.1 := by
  induction values generalizing index with
  | nil => exact List.Pairwise.nil
  | cons value values ih =>
    rw [written]
    split
    · apply ih
    · refine List.pairwise_cons.mpr ⟨?_, ih (index + 1)⟩
      intro entry hentry
      apply (index_le_of_mem_written hentry).1

theorem valueBefore_cons (last : UInt32) (entry : Nat × UInt32) (entries : List (Nat × UInt32)) (place : Nat) :
    valueBefore last (entry :: entries) (place + 1) = valueBefore entry.2 entries place := by
  cases place <;> rfl

theorem mem_breaks_iff {last : UInt32} {entries : List (Nat × UInt32)} {gap : Gap} :
    gap ∈ breaks last entries ↔ ∃ place index value, entries[place]? = some (index, value) ∧
      value ≠ valueBefore last entries place + 1 ∧ gap = ⟨index, valueBefore last entries place, value⟩ := by
  induction entries generalizing last with
  | nil => simp [breaks]
  | cons entry entries ih =>
    obtain ⟨index, value⟩ := entry
    -- The first entry is compared with what is before all entries, the others among each other.
    rw [← Nat.or_exists_add_one]
    simp only [List.getElem?_cons_zero, List.getElem?_cons_succ, valueBefore_cons, ← ih, breaks]
    by_cases hnext : value = last + 1
    · rw [if_pos hnext]
      refine ⟨.inr, ?_⟩
      rintro (⟨_, _, heq, hne, -⟩ | hgap)
      · injection heq with heq
        injection heq with _ hvalue
        exact absurd (hvalue ▸ hnext) hne
      · exact hgap
    · rw [if_neg hnext, List.mem_cons]
      refine or_congr_left ⟨?_, ?_⟩
      · rintro rfl
        exact ⟨index, value, rfl, hnext, rfl⟩
      · rintro ⟨_, _, heq, -, hgap⟩
        injection heq with heq
        injection heq with hindex hvalue
        rw [hgap, ← hindex, ← hvalue]
        rfl

theorem map_index_breaks (last : UInt32) (entries : List (Nat × UInt32)) :
    ((breaks last entries).map (·.index)).Sublist (entries.map (·.1)) := by
  induction entries generalizing last with
  | nil => exact List.Sublist.refl _
  | cons entry entries ih =>
    rw [breaks]
    split
    · exact (ih entry.2).cons _
    · exact (ih entry.2).cons_cons _

theorem eq_succ_iff {value : UInt32} (hvalue : value ≠ 0) (last : UInt32) :
    value = last + 1 ↔ value.toNat = last.toNat + 1 := by
  have hlast := last.toNat_lt
  have hpos : value.toNat ≠ 0 := fun heq => hvalue (UInt32.toNat_inj.mp heq)
  rw [← UInt32.toNat_inj, UInt32.toNat_add, UInt32.toNat_one]
  by_cases hwrap : last.toNat + 1 < 2 ^ 32
  · rw [Nat.mod_eq_of_lt hwrap]
  · have hend : last.toNat + 1 = 2 ^ 32 := by omega
    have := value.toNat_lt
    rw [hend, Nat.mod_self]
    omega

theorem breaks_eq_nil_iff {last : UInt32} {entries : List (Nat × UInt32)} (h : ∀ entry ∈ entries, entry.2 ≠ 0) :
    breaks last entries = [] ↔ entries.map (·.2.toNat) = List.range' (last.toNat + 1) entries.length := by
  induction entries generalizing last with
  | nil => simp [breaks]
  | cons entry entries ih =>
    obtain ⟨index, value⟩ := entry
    have hnext := eq_succ_iff (h _ List.mem_cons_self) last
    have hrest : breaks value entries = [] ↔ _ := ih fun entry hentry => h entry (List.mem_cons_of_mem _ hentry)
    rw [breaks, List.map_cons, List.length_cons, List.range'_succ, List.cons.injEq, ← hnext]
    by_cases heq : value = last + 1
    · rw [if_pos heq, hrest, hnext.mp heq]
      simp only [heq, true_and]
    · rw [if_neg heq]
      simp [heq]

end Gap

namespace Storage

variable {memory : Memory} {storage : Storage .append}

theorem entries_eq_written (hlength : memory.length storage.block = storage.capacity * Layout.append.size) :
    storage.entries memory = Gap.written 0 ((storage.slots memory).map (·.loggedValue)) := by
  rw [values_slots hlength, List.range_eq_range', Gap.written_eq_filterMap, ← List.range_eq_range', entries]
  apply List.filterMap_congr
  intro index hindex
  have hvalue := congrArg (·[index]?) (values_slots hlength)
  simp only [List.getElem?_map, List.getElem?_range (List.mem_range.mp hindex), getElem?_slots hlength] at hvalue
  obtain ⟨slot, hslot, hword⟩ := Option.map_eq_some_iff.mp hvalue
  simp only [hslot, Slot.isEmpty_eq_loggedValue, hword, beq_iff_eq]

theorem sequence_gaps_exact (hlength : memory.length storage.block = storage.capacity * Layout.append.size) :
    Gap.AreOf (Gap.ofSlots (storage.slots memory)) (storage.entries memory) := by
  rw [entries_eq_written hlength, Gap.ofSlots, Gap.ofValues, Gap.go_eq_breaks]
  generalize (storage.slots memory).map (·.loggedValue) = values
  refine ⟨fun gap => Gap.mem_breaks_iff, ?_, ?_⟩
  · have hindices := (List.pairwise_map.mpr (Gap.pairwise_written 0 values)).sublist (Gap.map_index_breaks 0 _)
    exact List.pairwise_map.mp hindices
  · apply Gap.breaks_eq_nil_iff
    intro entry hentry
    apply (Gap.index_le_of_mem_written hentry).2

theorem sequence_gaps_exact_wrap :
    let memory := Memory.store ⟨#[Block.zeroed 4096 24 4096 .standard], default⟩ 0 0 [1, 0, 4294967295, 0, 1, 2]
    let log : Storage .append := ⟨6, 0⟩
    memory.length log.block = log.capacity * Layout.append.size ∧
      log.entries memory = [(0, 1), (2, 4294967295), (4, 1), (5, 2)] ∧
      Gap.ofSlots (log.slots memory) = [⟨2, 1, 4294967295⟩, ⟨4, 4294967295, 1⟩] ∧
      Gap.AreOf (Gap.ofSlots (log.slots memory)) (log.entries memory) := by
  intro memory log
  have hlength : memory.length log.block = log.capacity * Layout.append.size := by decide
  have hentries : log.entries memory = [(0, 1), (2, 4294967295), (4, 1), (5, 2)] := by decide +kernel
  have hgaps : Gap.ofSlots (log.slots memory) = [⟨2, 1, 4294967295⟩, ⟨4, 4294967295, 1⟩] := by decide +kernel
  exact ⟨hlength, hentries, hgaps, sequence_gaps_exact hlength⟩

end Storage

end RemoteSlots
