import Mathlib.Algebra.GroupWithZero.Nat
import Mathlib.Data.List.Induction
import Mathlib.Data.List.Nodup
import Mathlib.Data.List.Perm.Subperm
import RemoteSlots.Proofs.World.Isolation

/-!
This module shows that a benchmark of lookups comes to looking up the keys one after the other, whatever the number of
its threads: the keys are dealt out so that every thread gets its own and none is left, and neither the words in which
the threads count nor the order in which they get their turns make a difference.
-/

namespace RemoteSlots

namespace Storage

def stridedKeys (stride queries key : Nat) : List Nat :=
  if 0 < stride ∧ key < queries then key :: stridedKeys stride queries (key + stride) else []
termination_by queries - key

section Deal

variable {stride queries key x : Nat}

theorem stridedKeys_of_lt (hstride : 0 < stride) (hkey : key < queries) :
    stridedKeys stride queries key = key :: stridedKeys stride queries (key + stride) := by
  rw [stridedKeys, if_pos ⟨hstride, hkey⟩]

theorem stridedKeys_of_le (hkey : queries ≤ key) : stridedKeys stride queries key = [] := by
  rw [stridedKeys, if_neg (by omega)]

theorem mem_stridedKeys (hstride : 0 < stride) :
    x ∈ stridedKeys stride queries key ↔ key ≤ x ∧ x < queries ∧ x % stride = key % stride := by
  fun_induction stridedKeys stride queries key with
  | case1 key h ih =>
    rw [List.mem_cons, ih, Nat.add_mod_right]
    constructor
    · rintro (rfl | ⟨hle, hlt, hmod⟩)
      · exact ⟨Nat.le_refl _, h.2, rfl⟩
      · exact ⟨by omega, hlt, hmod⟩
    · rintro ⟨hle, hlt, hmod⟩
      by_cases heq : x = key
      · exact .inl heq
      · refine .inr ⟨?_, hlt, hmod⟩
        -- The next number with the same remainder is a stride away.
        apply Nat.le_of_not_lt
        intro hnear
        have hsub : (x - key) % stride = 0 := Nat.sub_mod_eq_zero_of_mod_eq hmod
        rw [Nat.mod_eq_of_lt (by omega)] at hsub
        omega
  | case2 key h =>
    simp only [List.not_mem_nil, false_iff]
    omega

theorem nodup_stridedKeys (hstride : 0 < stride) : (stridedKeys stride queries key).Nodup := by
  fun_induction stridedKeys stride queries key with
  | case1 key h ih =>
    refine List.nodup_cons.mpr ⟨?_, ih⟩
    rw [mem_stridedKeys hstride]
    omega
  | case2 => exact List.nodup_nil

theorem dealt (hstride : 0 < stride) :
    ((List.range stride).flatMap (stridedKeys stride queries)).Perm (List.range queries) := by
  have hmem : ∀ {offset}, offset ∈ List.range stride → ∀ {x}, x ∈ stridedKeys stride queries offset →
      x < queries ∧ x % stride = offset := by
    intro offset hoffset x hx
    obtain ⟨-, hlt, hmod⟩ := (mem_stridedKeys hstride).mp hx
    rw [Nat.mod_eq_of_lt (List.mem_range.mp hoffset)] at hmod
    exact ⟨hlt, hmod⟩
  have hnodup : ((List.range stride).flatMap (stridedKeys stride queries)).Nodup := by
    rw [List.nodup_flatMap]
    refine ⟨fun _ _ => nodup_stridedKeys hstride, ?_⟩
    refine List.nodup_range.imp_of_mem fun hi hj hne => ?_
    intro x hxi hxj
    exact hne ((hmem hi hxi).2.symm.trans (hmem hj hxj).2)
  refine (List.perm_ext_iff_of_nodup hnodup List.nodup_range).mpr fun x => ?_
  rw [List.mem_flatMap, List.mem_range]
  constructor
  · rintro ⟨offset, hoffset, hx⟩
    exact (hmem hoffset hx).1
  · intro hx
    refine ⟨x % stride, List.mem_range.mpr (Nat.mod_lt x hstride), ?_⟩
    rw [mem_stridedKeys hstride, Nat.mod_mod]
    exact ⟨Nat.mod_le x stride, hx, rfl⟩

theorem length_stridedKeys_le (hstride : 0 < stride) (queries key : Nat) :
    (stridedKeys stride queries key).length ≤ queries := by
  have hsubset : stridedKeys stride queries key ⊆ List.range queries := by
    intro x hx
    rw [mem_stridedKeys hstride] at hx
    exact List.mem_range.mpr hx.2.1
  have hle := (List.subperm_of_subset (nodup_stridedKeys hstride) hsubset).length_le
  rwa [List.length_range] at hle

end Deal

variable (memory : Memory) (storage : Storage .keyValue) (redundancy : UInt8)

def isFound (key : UInt32) : Bool :=
  (storage.locate memory key redundancy).isSome

theorem stridedHits_eq (stride queries key : Nat) :
    storage.stridedHits memory redundancy stride queries key =
      (stridedKeys stride queries key).countP fun key => storage.isFound memory redundancy (UInt32.ofNat key) := by
  fun_induction stridedKeys stride queries key with
  | case1 key h ih =>
    rw [stridedHits, dif_pos h, ih, List.countP_cons, Nat.add_comm]
    rfl
  | case2 key h => rw [stridedHits, dif_neg h, List.countP_nil]

theorem hits_benchmark {threads : Nat} (hthreads : 0 < threads) (queries : Nat) :
    (storage.benchmark memory threads queries redundancy).hits =
      (List.range queries).countP fun key => storage.isFound memory redundancy (UInt32.ofNat key) := by
  calc (storage.benchmark memory threads queries redundancy).hits
    _ = ((List.range threads).map (storage.stridedHits memory redundancy threads queries)).sum := by
      rw [List.sum_eq_foldl, List.foldl_map]
      rfl
    _ = ((List.range threads).flatMap (stridedKeys threads queries)).countP
          fun key => storage.isFound memory redundancy (UInt32.ofNat key) := by
      rw [List.countP_flatMap]
      congr 2
      funext offset
      apply stridedHits_eq
    _ = _ := (dealt hthreads).countP_eq _

end Storage

structure QueryThread where
  key : UInt64
  asked : List UInt32
  hits : UInt64
  deriving DecidableEq, Repr

namespace QueryThread

variable (found : UInt32 → Bool) (threads queries : UInt64)

def start (offset : Nat) : QueryThread := { key := .ofNat offset, asked := [], hits := 0 }

def next (thread : QueryThread) : QueryThread :=
  if thread.key < queries then
    let key := thread.key.toUInt32
    { key := thread.key + threads
      asked := thread.asked ++ [key]
      hits := if found key then thread.hits + 1 else thread.hits }
  else
    thread

def isDone (thread : QueryThread) : Bool := queries ≤ thread.key

def team (turns : List Nat) : List QueryThread :=
  turns.foldl (fun team i => team.modify i (next found threads queries)) ((List.range threads.toNat).map start)

def tally (team : List QueryThread) : UInt64 :=
  team.foldl (fun hits thread => hits + thread.hits) 0

variable {found threads queries}

structure IsOnCourse (found : UInt32 → Bool) (threads queries : UInt64) (offset turns : Nat) (thread : QueryThread) :
    Prop where
  key_lt : thread.key.toNat < queries.toNat + threads.toNat
  asked : thread.asked.map (·.toNat) ++ Storage.stridedKeys threads.toNat queries.toNat thread.key.toNat =
    Storage.stridedKeys threads.toNat queries.toNat offset
  hits : thread.hits.toNat = thread.asked.countP found
  turns : turns ≤ thread.key.toNat ∨ thread.isDone queries

namespace IsOnCourse

variable {offset turns : Nat} {thread : QueryThread}

theorem start (hoffset : offset < threads.toNat) : IsOnCourse found threads queries offset 0 (start offset) := by
  have hkey : (UInt64.ofNat offset).toNat = offset := by
    apply UInt64.toNat_ofNat_of_lt'
    exact Nat.lt_trans hoffset threads.toNat_lt
  constructor
  · simp only [QueryThread.start, hkey]
    omega
  · simp only [QueryThread.start, hkey]
    rfl
  · rfl
  · exact .inl (Nat.zero_le _)

variable (hthreads : threads.toNat < 2 ^ 63) (hqueries : queries.toNat ≤ 2 ^ 32)

include hthreads hqueries

theorem next (h : IsOnCourse found threads queries offset turns thread) (hpos : 0 < threads.toNat) :
    IsOnCourse found threads queries offset (turns + 1) (thread.next found threads queries) := by
  unfold QueryThread.next
  split
  · next hlt =>
    have hkey : thread.key.toNat < queries.toNat := UInt64.lt_iff_toNat_lt.mp hlt
    have hword : thread.key.toUInt32.toNat = thread.key.toNat := by
      rw [UInt64.toNat_toUInt32, Nat.mod_eq_of_lt (by omega)]
    have hsum : (thread.key + threads).toNat = thread.key.toNat + threads.toNat := by
      rw [UInt64.toNat_add, Nat.mod_eq_of_lt (by omega)]
    have hasked := h.asked
    rw [Storage.stridedKeys_of_lt hpos hkey] at hasked
    have hroom : thread.asked.length + 1 ≤ queries.toNat := by
      have hlength := congrArg List.length hasked
      have hle := Storage.length_stridedKeys_le hpos queries.toNat offset
      simp only [List.length_append, List.length_map, List.length_cons] at hlength
      omega
    have hfound : thread.asked.countP found ≤ thread.asked.length := List.countP_le_length
    constructor
    · dsimp only
      omega
    · dsimp only
      rw [List.map_append, List.append_assoc, hsum, ← hasked]
      simp only [List.map_cons, List.map_nil, List.singleton_append, hword]
    · dsimp only
      rw [List.countP_append, List.countP_singleton, ← h.hits]
      split
      · rw [UInt64.toNat_add, h.hits, UInt64.toNat_one]
        apply Nat.mod_eq_of_lt
        omega
      · rfl
    · rcases h.turns with hturns | hdone
      · left
        dsimp only
        omega
      · simp only [isDone, decide_eq_true_eq, UInt64.le_iff_toNat_le] at hdone
        omega
  · next hle =>
    have hdone : queries.toNat ≤ thread.key.toNat := Nat.le_of_not_lt fun hlt => hle (UInt64.lt_iff_toNat_lt.mpr hlt)
    refine ⟨h.key_lt, h.asked, h.hits, .inr ?_⟩
    simpa only [isDone, decide_eq_true_eq, UInt64.le_iff_toNat_le] using hdone

omit hthreads hqueries in
theorem asked_of_isDone (h : IsOnCourse found threads queries offset turns thread) (hdone : thread.isDone queries) :
    thread.asked.map (·.toNat) = Storage.stridedKeys threads.toNat queries.toNat offset := by
  simp only [isDone, decide_eq_true_eq, UInt64.le_iff_toNat_le] at hdone
  have hasked := h.asked
  rwa [Storage.stridedKeys_of_le hdone, List.append_nil] at hasked

end IsOnCourse

theorem team_concat (turns : List Nat) (i : Nat) :
    team found threads queries (turns ++ [i]) =
      (team found threads queries turns).modify i (next found threads queries) :=
  List.foldl_concat ..

theorem length_team (turns : List Nat) : (team found threads queries turns).length = threads.toNat := by
  induction turns using List.reverseRecOn with
  | nil => simp [team]
  | append_singleton turns i ih => rw [team_concat, List.length_modify, ih]

section Turns

variable (hpos : 0 < threads.toNat) (hthreads : threads.toNat < 2 ^ 63) (hqueries : queries.toNat ≤ 2 ^ 32)
  (turns : List Nat)

include hpos hthreads hqueries

theorem isOnCourse_team {i : Nat} {thread : QueryThread} (h : (team found threads queries turns)[i]? = some thread) :
    IsOnCourse found threads queries i (turns.count i) thread := by
  induction turns using List.reverseRecOn generalizing thread with
  | nil =>
    obtain ⟨hi, rfl⟩ := List.getElem?_eq_some_iff.mp h
    simp only [team, List.foldl_nil, List.getElem_map, List.getElem_range]
    apply IsOnCourse.start
    simpa only [length_team] using hi
  | append_singleton turns j ih =>
    rw [team_concat, List.getElem?_modify] at h
    rw [List.count_append]
    obtain ⟨before, hbefore, rfl⟩ := Option.map_eq_some_iff.mp h
    by_cases heq : j = i
    · subst heq
      simp only [if_true, List.count_singleton_self]
      exact (ih hbefore).next hthreads hqueries hpos
    · rw [if_neg heq, List.count_singleton, if_neg (by simpa using heq)]
      exact ih hbefore

theorem isDone_of_turns (henough : ∀ i, i < threads.toNat → queries.toNat ≤ turns.count i) :
    ∀ thread ∈ team found threads queries turns, thread.isDone queries := by
  intro thread hthread
  obtain ⟨i, hi, rfl⟩ := List.getElem_of_mem hthread
  have hcourse := isOnCourse_team hpos hthreads hqueries turns (List.getElem?_eq_getElem hi)
  rcases hcourse.turns with hturns | hdone
  · have hqueries := henough i (by simpa only [length_team] using hi)
    simp only [isDone, decide_eq_true_eq, UInt64.le_iff_toNat_le]
    omega
  · exact hdone

variable {turns} (hdone : ∀ thread ∈ team found threads queries turns, thread.isDone queries)

include hdone

theorem asked_perm :
    (((team found threads queries turns).flatMap (·.asked)).map (·.toNat)).Perm (List.range queries.toNat) := by
  have hshares : (team found threads queries turns).map (fun thread => thread.asked.map (·.toNat)) =
      (List.range threads.toNat).map (Storage.stridedKeys threads.toNat queries.toNat) := by
    apply List.ext_getElem
    · rw [List.length_map, List.length_map, length_team, List.length_range]
    · intro i hi _
      rw [List.length_map] at hi
      rw [List.getElem_map, List.getElem_map, List.getElem_range]
      have hcourse := isOnCourse_team hpos hthreads hqueries turns (List.getElem?_eq_getElem hi)
      apply hcourse.asked_of_isDone
      apply hdone _ (List.getElem_mem hi)
  rw [List.map_flatMap, List.flatMap_def, hshares, ← List.flatMap_def]
  exact Storage.dealt hpos

theorem sum_hits : ((team found threads queries turns).map (·.hits.toNat)).sum =
    (List.range queries.toNat).countP fun key => found (UInt32.ofNat key) := by
  have hperm := asked_perm hpos hthreads hqueries hdone
  rw [← hperm.countP_eq, List.countP_map, List.countP_flatMap]
  congr 1
  apply List.map_congr_left
  intro thread hthread
  obtain ⟨i, hi, rfl⟩ := List.getElem_of_mem hthread
  have hcourse := isOnCourse_team hpos hthreads hqueries turns (List.getElem?_eq_getElem hi)
  rw [hcourse.hits]
  apply List.countP_congr
  intro key _
  simp only [Function.comp_apply, UInt32.ofNat_toNat]

end Turns

theorem toNat_tally {team : List QueryThread} (h : (team.map (·.hits.toNat)).sum < 2 ^ 64) :
    (tally team).toNat = (team.map (·.hits.toNat)).sum := by
  induction team using List.reverseRecOn with
  | nil => rfl
  | append_singleton team thread ih =>
    rw [List.map_append, List.sum_append, List.map_singleton, List.sum_singleton] at h ⊢
    rw [tally, List.foldl_concat, UInt64.toNat_add, ← ih (by omega)]
    apply Nat.mod_eq_of_lt
    rw [← tally, ih (by omega)]
    exact h

end QueryThread

namespace World

def finds (w : World) (store : Store) (redundancy : UInt8) (key : UInt32) : Bool :=
  match w.locate store key redundancy with
  | .ok found => found.isSome
  | .error _ => false

def foundBelow (w : World) (store : Store) (redundancy : UInt8) (queries : Nat) : Nat :=
  (List.range queries).countP fun key => w.finds store redundancy (UInt32.ofNat key)

/--
What is known about a benchmark of lookups.
-/
structure CountsFound (w : World) (store : Store) (threads queries : Nat) (redundancy : UInt8) : Prop where
  report : w.benchmarkQueries store threads queries redundancy =
    .ok { threads, queries, hits := w.foundBelow store redundancy queries }
  -- So does a benchmark with one thread.
  single : w.benchmarkQueries store 1 queries redundancy =
    .ok { threads := 1, queries, hits := w.foundBelow store redundancy queries }
  -- A thread counts what is found among the keys that are dealt to it.
  shares : ∀ storage : Storage .keyValue, store.storage .keyValue = .ok storage → ∀ offset,
    storage.stridedHits w.memory redundancy threads queries offset =
      (Storage.stridedKeys threads queries offset).countP fun key => w.finds store redundancy (UInt32.ofNat key)
  dealt : ((List.range threads).flatMap (Storage.stridedKeys threads queries)).Perm (List.range queries)
  exact : ∀ key, key < queries → (UInt32.ofNat key).toNat = key
  -- The threads come to an end when each of them gets its turns.
  ends : ∀ turns : List Nat, (∀ i, i < threads → queries ≤ turns.count i) →
    ∀ thread ∈ QueryThread.team (w.finds store redundancy) (.ofNat threads) (.ofNat queries) turns,
      thread.isDone (.ofNat queries)
  -- Whoever got which turn, the threads looked up every key once and found as many as the report says.
  joined : ∀ turns : List Nat,
    let team := QueryThread.team (w.finds store redundancy) (.ofNat threads) (.ofNat queries) turns
    (∀ thread ∈ team, thread.isDone (.ofNat queries)) →
      ((team.flatMap (·.asked)).map (·.toNat)).Perm (List.range queries) ∧
        (QueryThread.tally team).toNat = w.foundBelow store redundancy queries

variable {w : World} {store : Store}

theorem finds_eq {storage : Storage .keyValue} (h : store.storage .keyValue = .ok storage) (redundancy : UInt8) :
    w.finds store redundancy = storage.isFound w.memory redundancy := by
  funext key
  rw [finds, locate, h]
  rfl

theorem foundBelow_le (w : World) (store : Store) (redundancy : UInt8) (queries : Nat) :
    w.foundBelow store redundancy queries ≤ queries := by
  apply Nat.le_trans List.countP_le_length
  apply Nat.le_of_eq List.length_range

theorem benchmarkQueries_eq (hready : store.isReady) {threads queries : Nat} (hthreads : 0 < threads)
    (hqueries : queries ≤ 2 ^ 32) (redundancy : UInt8) :
    w.benchmarkQueries store threads queries redundancy =
      .ok { threads, queries, hits := w.foundBelow store redundancy queries } := by
  obtain ⟨active, hactive⟩ := Option.isSome_iff_exists.mp hready
  have hstorage := storage_of_active hactive .keyValue
  have hfault : Storage.benchmarkFault? threads queries = none := by
    have hcount : Storage.keyCount = 2 ^ 32 := rfl
    rw [Storage.benchmarkFault?, if_neg (by omega), if_neg (by omega)]
  rw [benchmarkQueries, hfault, hstorage, foundBelow, finds_eq hstorage, ← Storage.hits_benchmark _ _ _ hthreads]
  rfl

theorem benchmark_counts_found (hready : store.isReady) {threads queries : Nat} (hthreads : 1 ≤ threads)
    (hlimit : threads < 2 ^ 63) (hqueries : queries ≤ 2 ^ 32) (redundancy : UInt8) :
    w.CountsFound store threads queries redundancy := by
  have hthreads64 : (UInt64.ofNat threads).toNat = threads :=
    UInt64.toNat_ofNat_of_lt' (Nat.lt_trans hlimit (by decide))
  have hqueries64 : (UInt64.ofNat queries).toNat = queries :=
    UInt64.toNat_ofNat_of_lt' (Nat.lt_of_le_of_lt hqueries (by decide))
  have hpos : 0 < (UInt64.ofNat threads).toNat := by omega
  have hlimit64 : (UInt64.ofNat threads).toNat < 2 ^ 63 := by omega
  have hbound64 : (UInt64.ofNat queries).toNat ≤ 2 ^ 32 := by omega
  refine {
    report := benchmarkQueries_eq hready hthreads hqueries redundancy
    single := benchmarkQueries_eq hready Nat.one_pos hqueries redundancy
    shares := ?_
    dealt := Storage.dealt hthreads
    exact := fun key hkey => UInt32.toNat_ofNat_of_lt' (Nat.lt_of_lt_of_le hkey hqueries)
    ends := ?_
    joined := ?_ }
  · intro storage hstorage offset
    rw [finds_eq hstorage]
    apply Storage.stridedHits_eq
  · intro turns henough
    apply QueryThread.isDone_of_turns hpos hlimit64 hbound64
    rwa [hthreads64, hqueries64]
  · intro turns team hdone
    have hperm := QueryThread.asked_perm hpos hlimit64 hbound64 hdone
    have hsum : (team.map (·.hits.toNat)).sum = w.foundBelow store redundancy queries := by
      rw [QueryThread.sum_hits hpos hlimit64 hbound64 hdone, hqueries64]
      rfl
    have hle := foundBelow_le w store redundancy queries
    rw [hqueries64] at hperm
    refine ⟨hperm, ?_⟩
    rw [QueryThread.toNat_tally, hsum]
    omega

set_option maxRecDepth 10000 in
theorem benchmark_counts_found_two :
    let w := (initial (.above 4096 4096) .zero).after (sampleNeighbours ++
      [.putSlot 1 (probeIndex 3 0 16) [keyChecksum 3, 30], .putSlot 1 (probeIndex 4 1 16) [keyChecksum 4, 40]])
    ∃ store, w.stores[1]? = some store ∧ store.isReady ∧ 1 ≤ 3 ∧ 3 < 2 ^ 63 ∧ 5 ≤ 2 ^ 32 ∧
      w.foundBelow store 2 5 = 2 ∧ w.CountsFound store 3 5 2 := by
  intro w
  obtain ⟨store, hstore, hready, htwo⟩ :
      ∃ store, w.stores[1]? = some store ∧ store.isReady ∧ w.foundBelow store 2 5 = 2 :=
    ⟨_, rfl, rfl, by decide +kernel⟩
  exact ⟨store, hstore, hready, by decide, by decide, by decide, htwo,
    benchmark_counts_found hready (by decide) (by decide) (by decide) 2⟩

end World

end RemoteSlots
