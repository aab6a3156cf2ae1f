import Mathlib.Data.List.Nodup
import Mathlib.Data.List.Perm.Subperm
import RemoteSlots.Proofs.Store.AppendLog
import RemoteSlots.Proofs.World.Pulls

/-!
This module shows where the cursors of a log stand, the shared one and the private ones: each of them goes round the
slots on its own, lap after lap, and only its own pulls move it.
-/

namespace RemoteSlots

open Std

namespace Cursor

def trail (capacity : Nat) : (count : Nat) → (position : Nat) → List Nat
  | 0, _ => []
  | count + 1, position => advance capacity position :: trail capacity count (advance capacity position)

variable {capacity : Nat}

theorem advanceBy_place (hpos : 0 < capacity) (pulls count : Nat) :
    advanceBy capacity count (place capacity pulls) = place capacity (pulls + count) := by
  induction count generalizing pulls with
  | zero => rfl
  | succ count ih => rw [advanceBy, advance_place hpos, ih, Nat.add_assoc, Nat.add_comm 1]

theorem trail_place (hpos : 0 < capacity) (pulls count : Nat) :
    trail capacity count (place capacity pulls) = (List.range' pulls count).map (· % capacity) := by
  induction count generalizing pulls with
  | zero => rfl
  | succ count ih =>
    rw [trail, advance_place hpos, ih, List.range'_succ, List.map_cons]
    rfl

theorem lap_perm (first : Nat) :
    ((List.range' first capacity).map (· % capacity)).Perm (List.range capacity) := by
  have hnodup : ((List.range' first capacity).map (· % capacity)).Nodup := by
    refine List.Nodup.map_on (fun v hv n hn heq => ?_) List.nodup_range'
    rw [List.mem_range'_1] at hv hn
    rcases Nat.lt_trichotomy v n with hlt | heq' | hlt
    · exact absurd heq (mod_ne_mod hlt (by omega))
    · exact heq'
    · exact absurd heq.symm (mod_ne_mod hlt (by omega))
  have hsubset : (List.range' first capacity).map (· % capacity) ⊆ List.range capacity := by
    intro i hi
    obtain ⟨v, hv, rfl⟩ := List.mem_map.mp hi
    rw [List.mem_range'_1] at hv
    exact List.mem_range.mpr (Nat.mod_lt v (by omega))
  exact (List.subperm_of_subset hnodup hsubset).perm_of_length_le (by simp)

end Cursor

inductive LogCursor where
  | shared (log : StoreId)
  | own (index : Nat)
  deriving DecidableEq

inductive ReaderEvent where
  | act (action : Action)
  | openCursor (log : StoreId)
  | follow (index : Nat)

structure Readers where
  world : World
  cursors : List (StoreId × Nat)

namespace Readers

variable (r : Readers)

def log? : LogCursor → Option Store
  | .shared s => r.world.stores[s]?
  | .own i => r.cursors[i]?.bind fun cursor => r.world.stores[cursor.1]?

def position? : LogCursor → Option Nat
  | .shared s => r.world.stores[s]?.map (·.tail)
  | .own i => r.cursors[i]?.map (·.2)

def openCursor (s : StoreId) : Readers :=
  match (r.world.stores[s]?).map World.openCursor with
  | some (.ok position) => { r with cursors := r.cursors ++ [(s, position)] }
  | _ => r

def follow (i : Nat) : Readers :=
  match r.cursors[i]? with
  | none => r
  | some (s, position) =>
    match r.world.stores[s]?.map fun log => r.world.pullAt log position with
    | some (.ok (_, position)) => { r with cursors := r.cursors.set i (s, position) }
    | _ => r

def next : ReaderEvent → Readers
  | .act action => { r with world := r.world.act action }
  | .openCursor s => r.openCursor s
  | .follow i => r.follow i

def after (events : List ReaderEvent) : Readers := events.foldl next r

def pullsOf : LogCursor → ReaderEvent → Nat
  | .shared s, .act action => r.world.pullsOf s action
  | .own i, .follow j => if i = j then 1 else 0
  | _, _ => 0

def visited (cursor : LogCursor) (event : ReaderEvent) : List Nat :=
  match r.log? cursor, r.position? cursor with
  | some log, some position => Cursor.trail log.config.capacity (r.pullsOf cursor event) position
  | _, _ => []

def visits (cursor : LogCursor) (r : Readers) : List ReaderEvent → List Nat
  | [] => []
  | event :: events => r.visited cursor event ++ visits cursor (r.next event) events

theorem after_concat (r : Readers) (events : List ReaderEvent) (event : ReaderEvent) :
    r.after (events ++ [event]) = (r.after events).next event :=
  List.foldl_append

theorem visits_concat (cursor : LogCursor) (r : Readers) (events : List ReaderEvent) (event : ReaderEvent) :
    visits cursor r (events ++ [event]) = visits cursor r events ++ (r.after events).visited cursor event := by
  induction events generalizing r with
  | nil => exact List.append_nil _
  | cons first events ih =>
    rw [List.cons_append, visits, visits, ih, List.append_assoc]
    rfl

structure AreOrderly (r : Readers) : Prop where
  reachable : r.world.Reachable
  opened : ∀ (i : Nat) (s : StoreId) (position : Nat), r.cursors[i]? = some (s, position) →
    s ≤ r.world.lastId ∧ ∀ log, r.world.stores[s]? = some log → log.isReady

variable {r : Readers} {cursor : LogCursor} {log log' : Store}

theorem openCursor_cases (r : Readers) (s : StoreId) :
    r.openCursor s = r ∨ ∃ log, r.world.stores[s]? = some log ∧ log.isReady ∧
      r.openCursor s = { r with cursors := r.cursors ++ [(s, log.config.capacity)] } := by
  unfold openCursor
  rcases hlog : r.world.stores[s]? with _ | log
  · exact .inl rfl
  · rcases hready : log.isReady with _ | _
    · left
      simp only [Option.map_some, World.openCursor, World.storage_of_not_ready hready]
      rfl
    · obtain ⟨storage, hstorage, hcapacity⟩ := World.storage_of_ready hready
      right
      refine ⟨log, rfl, hready, ?_⟩
      simp only [Option.map_some, World.openCursor, hstorage, bind, Except.bind, pure, Except.pure, hcapacity]

theorem follow_eq {i : Nat} {s : StoreId} {position : Nat} (hcursor : r.cursors[i]? = some (s, position))
    (hlog : r.world.stores[s]? = some log) (hready : log.isReady) :
    r.follow i = { r with cursors := r.cursors.set i (s, Cursor.advance log.config.capacity position) } := by
  obtain ⟨storage, hstorage, hcapacity⟩ := World.storage_of_ready hready
  simp only [follow, hcursor, hlog, Option.map_some, World.pullAt, hstorage, bind, Except.bind, pure, Except.pure,
    Cursor.pull, hcapacity]

theorem follow_cases (r : Readers) (i : Nat) :
    r.follow i = r ∨ ∃ s position position', r.cursors[i]? = some (s, position) ∧
      r.follow i = { r with cursors := r.cursors.set i (s, position') } := by
  unfold follow
  rcases hcursor : r.cursors[i]? with _ | ⟨s, position⟩
  · exact .inl rfl
  · dsimp only
    split
    · exact .inr ⟨s, position, _, rfl, rfl⟩
    · exact .inl rfl

theorem stores_act_cases (h : r.world.Reachable) {action : Action} {s : StoreId}
    (hlog' : (r.world.act action).stores[s]? = some log') :
    (∃ log, r.world.stores[s]? = some log ∧ log.Retains log' ∧
        log'.tail = (log.pulled (r.world.pullsOf s action)).tail) ∨
      r.world.lastId < s ∧ log'.tail = log'.config.capacity := by
  obtain ⟨hsound, htidy⟩ := h.sound
  rcases hlog : r.world.stores[s]? with _ | log
  -- A log that was not there cannot have come back: it is new.
  · right
    constructor
    · by_contra hle
      have hgone := World.gone_act hsound htidy (Nat.not_lt.mp hle) hlog action
      rw [hgone] at hlog'
      contradiction
    · cases World.storeSource_act hsound htidy hlog' with
      | kept hstore => exact absurd (hlog.symm.trans hstore) (by simp)
      | moved _ _ _ hstore => exact absurd (hlog.symm.trans hstore) (by simp)
      | created _ hnew => rw [(Store.eq_of_new hnew).2]
  · exact .inl ⟨log, rfl, World.retains_act hsound htidy hlog hlog', World.tail_act hsound htidy hlog hlog'⟩

theorem AreOrderly.next (h : r.AreOrderly) (event : ReaderEvent) : (r.next event).AreOrderly := by
  cases event with
  | act action =>
    refine ⟨h.reachable.act action, fun i s position hcursor => ?_⟩
    obtain ⟨hle, hready⟩ := h.opened i s position hcursor
    obtain ⟨hsound, htidy⟩ := h.reachable.sound
    refine ⟨Nat.le_trans hle (World.lastId_le_act hsound htidy action), fun log' hlog' => ?_⟩
    rcases stores_act_cases h.reachable hlog' with ⟨log, hlog, hretains, -⟩ | ⟨hlt, -⟩
    · obtain ⟨active, hactive⟩ := Option.isSome_iff_exists.mp (hready log hlog)
      exact Option.isSome_of_eq_some (hretains.active active hactive)
    · exact absurd hle (Nat.not_le_of_lt hlt)
  | openCursor s =>
    rcases openCursor_cases r s with heq | ⟨log, hlog, hready, heq⟩
    · rw [Readers.next, heq]
      exact h
    · rw [Readers.next, heq]
      refine ⟨h.reachable, fun i s' position hcursor => ?_⟩
      rcases List.mem_append.mp (List.mem_of_getElem? hcursor) with hmem | hnew
      · obtain ⟨j, hj⟩ := List.mem_iff_getElem?.mp hmem
        exact h.opened j s' position hj
      · obtain ⟨rfl, rfl⟩ := Prod.mk.inj (List.mem_singleton.mp hnew)
        refine ⟨h.reachable.sound.2.stores_le s' log hlog, fun found hfound => ?_⟩
        rwa [← Option.some.inj (hlog.symm.trans hfound)]
  | follow j =>
    rcases follow_cases r j with heq | ⟨s, position, position', hcursor, heq⟩
    · rw [Readers.next, heq]
      exact h
    · rw [Readers.next, heq]
      refine ⟨h.reachable, fun i s' position'' hfound => ?_⟩
      rw [List.getElem?_set] at hfound
      split at hfound
      · split at hfound
        · obtain ⟨rfl, -⟩ := Prod.mk.inj (Option.some.inj hfound)
          exact h.opened j s position hcursor
        · contradiction
      · exact h.opened i s' position'' hfound

def IsNew (r : Readers) : LogCursor → Prop
  | .shared s => r.world.lastId < s
  | .own i => r.cursors.length ≤ i

theorem AreOrderly.log?_of_isNew (h : r.AreOrderly) (hnew : r.IsNew cursor) : r.log? cursor = none := by
  cases cursor with
  | shared s =>
    rcases hlog : r.world.stores[s]? with _ | log
    · exact hlog
    · exact absurd (h.reachable.sound.2.stores_le s log hlog) (Nat.not_le_of_lt hnew)
  | own i => rw [log?, List.getElem?_eq_none hnew, Option.bind_none]

theorem AreOrderly.isNew_of_next (h : r.AreOrderly) {event : ReaderEvent} (hnew : (r.next event).IsNew cursor) :
    r.IsNew cursor := by
  obtain ⟨hsound, htidy⟩ := h.reachable.sound
  cases event with
  | act action =>
    cases cursor with
    | shared s => exact Nat.lt_of_le_of_lt (World.lastId_le_act hsound htidy action) hnew
    | own i => exact hnew
  | openCursor s =>
    rcases openCursor_cases r s with heq | ⟨log, -, -, heq⟩
    · rwa [Readers.next, heq] at hnew
    · rw [Readers.next, heq] at hnew
      cases cursor with
      | shared s => exact hnew
      | own i =>
        simp only [IsNew, List.length_append, List.length_singleton] at hnew
        exact Nat.le_of_succ_le hnew
  | follow j =>
    rcases follow_cases r j with heq | ⟨s, position, position', -, heq⟩
    · rwa [Readers.next, heq] at hnew
    · rw [Readers.next, heq] at hnew
      cases cursor with
      | shared s => exact hnew
      | own i => simpa only [IsNew, List.length_set] using hnew

structure Moves (r : Readers) (event : ReaderEvent) (cursor : LogCursor) (log : Store) (position : Nat) : Prop where
  found : r.log? cursor = some log
  stood : r.position? cursor = some position
  ready : r.pullsOf cursor event ≠ 0 → log.isReady
  moved : (r.next event).position? cursor =
    some (Cursor.advanceBy log.config.capacity (r.pullsOf cursor event) position)

theorem isReady_of_pullsOf {w : World} {s : StoreId} {action : Action} (h : w.pullsOf s action ≠ 0)
    (hlog : w.stores[s]? = some log) : log.isReady := by
  rw [← World.isReady_eq hlog]
  unfold World.pullsOf at h
  split at h
  · by_cases hready : w.isReady s
    · exact hready
    · simp [hready] at h
  · by_cases hready : w.isReady s
    · exact hready
    · simp [hready] at h
  · contradiction

theorem log?_follow (r : Readers) (j : Nat) (cursor : LogCursor) : (r.follow j).log? cursor = r.log? cursor := by
  rcases follow_cases r j with heq | ⟨s, position, position', hcursor, heq⟩
  · rw [heq]
  · rw [heq]
    cases cursor with
    | shared s => rfl
    | own i =>
      simp only [log?, List.getElem?_set]
      split
      · next hij =>
        subst hij
        rw [if_pos (List.getElem?_eq_some_iff.mp hcursor).1, hcursor]
        rfl
      · rfl

theorem position?_follow_of_ne (r : Readers) {j : Nat} (hne : cursor ≠ .own j) :
    (r.follow j).position? cursor = r.position? cursor := by
  rcases follow_cases r j with heq | ⟨s, position, position', -, heq⟩
  · rw [heq]
  · rw [heq]
    cases cursor with
    | shared s => rfl
    | own i =>
      have hij : j ≠ i := fun heq' => hne (heq' ▸ rfl)
      simp only [position?, List.getElem?_set, if_neg hij]

theorem pullsOf_follow_of_ne (r : Readers) {j : Nat} (hne : cursor ≠ .own j) : r.pullsOf cursor (.follow j) = 0 := by
  cases cursor with
  | shared s => rfl
  | own i => exact if_neg fun heq => hne (congrArg LogCursor.own heq)

theorem exists_position (hlog : r.log? cursor = some log) : ∃ position, r.position? cursor = some position := by
  cases cursor with
  | shared s =>
    have hlog : r.world.stores[s]? = some log := hlog
    exact ⟨log.tail, by rw [position?, hlog]; rfl⟩
  | own i =>
    obtain ⟨⟨s, position⟩, hcursor, -⟩ := Option.bind_eq_some_iff.mp hlog
    have hcursor : r.cursors[i]? = some (s, position) := hcursor
    exact ⟨position, by rw [position?, hcursor]; rfl⟩

theorem Moves.of_rest {event : ReaderEvent} (hlog : r.log? cursor = some log) (hpulls : r.pullsOf cursor event = 0)
    (hposition : (r.next event).position? cursor = r.position? cursor) :
    ∃ position, r.Moves event cursor log position := by
  obtain ⟨position, hstood⟩ := exists_position hlog
  refine ⟨position, hlog, hstood, fun hne => absurd hpulls hne, ?_⟩
  rw [hpulls, hposition, hstood]
  rfl

theorem AreOrderly.moves_follow (h : r.AreOrderly) {j : Nat} (hlog : r.log? (.own j) = some log) :
    ∃ position, r.Moves (.follow j) (.own j) log position := by
  obtain ⟨⟨s, position⟩, hcursor, hfound⟩ := Option.bind_eq_some_iff.mp hlog
  have hcursor : r.cursors[j]? = some (s, position) := hcursor
  have hready := (h.opened j s position hcursor).2 log hfound
  have hpulls : r.pullsOf (.own j) (.follow j) = 1 := if_pos rfl
  refine ⟨position, hlog, by rw [position?, hcursor]; rfl, fun _ => hready, ?_⟩
  rw [hpulls, Readers.next, follow_eq hcursor hfound hready, position?,
    List.getElem?_set_self (List.getElem?_eq_some_iff.mp hcursor).1]
  rfl

theorem moves_openCursor {s : StoreId}
    (hlog' : (r.openCursor s).log? cursor = some log') :
    (∃ position, r.Moves (.openCursor s) cursor log' position) ∨
      r.IsNew cursor ∧ (r.openCursor s).position? cursor = some log'.config.capacity := by
  have hpulls : r.pullsOf cursor (.openCursor s) = 0 := by cases cursor <;> rfl
  rcases openCursor_cases r s with heq | ⟨log, hlog, -, heq⟩
  · rw [heq] at hlog'
    exact .inl (Moves.of_rest hlog' hpulls (by rw [Readers.next, heq]))
  · rw [heq] at hlog' ⊢
    cases cursor with
    | shared s' => exact .inl (Moves.of_rest hlog' hpulls (by rw [Readers.next, heq]; rfl))
    | own i =>
      -- The new cursor comes last. All others stay in their places.
      by_cases hi : i < r.cursors.length
      · have hsame : (r.cursors ++ [(s, log.config.capacity)])[i]? = r.cursors[i]? := List.getElem?_append_left hi
        rw [log?, hsame] at hlog'
        refine .inl (Moves.of_rest hlog' hpulls ?_)
        rw [Readers.next, heq, position?, hsame]
        rfl
      · refine .inr ⟨Nat.not_lt.mp hi, ?_⟩
        obtain ⟨cursor, hcursor, hfound⟩ := Option.bind_eq_some_iff.mp hlog'
        rw [List.getElem?_append_right (Nat.not_lt.mp hi)] at hcursor
        obtain rfl : cursor = (s, log.config.capacity) := List.mem_singleton.mp (List.mem_of_getElem? hcursor)
        obtain rfl := Option.some.inj (hlog.symm.trans hfound)
        rw [position?, List.getElem?_append_right (Nat.not_lt.mp hi), hcursor]
        rfl

theorem AreOrderly.moves (h : r.AreOrderly) {event : ReaderEvent} (hlog' : (r.next event).log? cursor = some log') :
    (∃ log position, r.Moves event cursor log position ∧ log'.config = log.config) ∨
      r.IsNew cursor ∧ (r.next event).position? cursor = some log'.config.capacity := by
  cases event with
  | act action =>
    cases cursor with
    | shared s =>
      rcases stores_act_cases h.reachable hlog' with ⟨log, hlog, hretains, htail⟩ | ⟨hlt, htail⟩
      · left
        refine ⟨log, log.tail, ⟨hlog, by simp [position?, hlog], fun hpulls => ?_, ?_⟩, hretains.setup.config⟩
        · exact isReady_of_pullsOf hpulls hlog
        · simp only [position?, Readers.next, show (r.world.act action).stores[s]? = some log' from hlog',
            Option.map_some, htail]
          rfl
      · right
        refine ⟨hlt, ?_⟩
        simp only [position?, Readers.next, show (r.world.act action).stores[s]? = some log' from hlog',
          Option.map_some, htail]
    | own i =>
      left
      obtain ⟨⟨s, position⟩, hcursor, hfound⟩ := Option.bind_eq_some_iff.mp hlog'
      have hcursor : r.cursors[i]? = some (s, position) := hcursor
      obtain ⟨hle, -⟩ := h.opened i s position hcursor
      rcases stores_act_cases h.reachable hfound with ⟨log, hlog, hretains, -⟩ | ⟨hlt, -⟩
      · refine ⟨log, position, ⟨by simp [log?, hcursor, hlog], by simp [position?, hcursor], ?_, ?_⟩,
          hretains.setup.config⟩
        · exact fun hpulls => absurd rfl hpulls
        · simp only [position?, Readers.next, hcursor, Option.map_some]
          rfl
      · exact absurd hle (Nat.not_le_of_lt hlt)
  | openCursor s =>
    refine (moves_openCursor hlog').imp (fun ⟨position, hmoves⟩ => ⟨log', position, hmoves, rfl⟩) id
  | follow j =>
    left
    have hlog : r.log? cursor = some log' := (log?_follow r j cursor).symm.trans hlog'
    by_cases heq : cursor = .own j
    · subst heq
      obtain ⟨position, hmoves⟩ := h.moves_follow hlog
      exact ⟨log', position, hmoves, rfl⟩
    · obtain ⟨position, hmoves⟩ :=
        Moves.of_rest hlog (pullsOf_follow_of_ne r heq) (position?_follow_of_ne r heq)
      exact ⟨log', position, hmoves, rfl⟩

theorem AreOrderly.capacity_pos (h : r.AreOrderly) (hlog : r.log? cursor = some log) (hready : log.isReady) :
    0 < log.config.capacity := by
  have hstore : ∃ s : StoreId, r.world.stores[s]? = some log := by
    cases cursor with
    | shared s => exact ⟨s, hlog⟩
    | own i =>
      obtain ⟨⟨s, _⟩, -, hfound⟩ := Option.bind_eq_some_iff.mp hlog
      exact ⟨s, hfound⟩
  obtain ⟨s, hstore⟩ := hstore
  obtain ⟨active, hactive⟩ := Option.isSome_iff_exists.mp hready
  exact LogRun.IsAtWork.capacity_pos (h.reachable.housed.stores s log active hstore hactive) ⟨rfl, rfl, rfl⟩

structure AreInPlace (r : Readers) (visits : LogCursor → List Nat) : Prop where
  orderly : r.AreOrderly
  new : ∀ cursor, r.IsNew cursor → visits cursor = []
  position : ∀ cursor log, r.log? cursor = some log →
    r.position? cursor = some (Cursor.place log.config.capacity (visits cursor).length)
  visits : ∀ cursor log, r.log? cursor = some log →
    visits cursor = (List.range (visits cursor).length).map (· % log.config.capacity)

theorem AreInPlace.next {visits : LogCursor → List Nat} (h : r.AreInPlace visits) (event : ReaderEvent) :
    (r.next event).AreInPlace fun cursor => visits cursor ++ r.visited cursor event := by
  have hnew : ∀ cursor, r.IsNew cursor → visits cursor ++ r.visited cursor event = [] := by
    intro cursor hnew
    rw [h.new cursor hnew, visited, h.orderly.log?_of_isNew hnew]
    rfl
  -- The pulls of the event go on where the pulls before it ended.
  have hmoved : ∀ cursor log position, r.Moves event cursor log position →
      visits cursor ++ r.visited cursor event =
        (List.range ((visits cursor).length + r.pullsOf cursor event)).map (· % log.config.capacity) ∧
      (r.next event).position? cursor =
        some (Cursor.place log.config.capacity ((visits cursor).length + r.pullsOf cursor event)) := by
    intro cursor log position hmoves
    have hplace := hmoves.stood.symm.trans (h.position cursor log hmoves.found)
    obtain rfl := Option.some.inj hplace
    rw [hmoves.moved, visited, hmoves.found, hmoves.stood]
    dsimp only
    by_cases hzero : r.pullsOf cursor event = 0
    · rw [hzero, Cursor.trail, List.append_nil, Nat.add_zero]
      exact ⟨h.visits cursor log hmoves.found, rfl⟩
    · have hpos := h.orderly.capacity_pos hmoves.found (hmoves.ready hzero)
      rw [Cursor.advanceBy_place hpos, Cursor.trail_place hpos]
      refine ⟨?_, rfl⟩
      rw [List.range_eq_range', ← List.range'_append_1, Nat.zero_add, List.map_append, ← List.range_eq_range',
        ← h.visits cursor log hmoves.found]
  refine ⟨h.orderly.next event, fun cursor hnew' => hnew cursor (h.orderly.isNew_of_next hnew'), ?_, ?_⟩
  · intro cursor log' hlog'
    rcases h.orderly.moves hlog' with ⟨log, position, hmoves, hconfig⟩ | ⟨hfresh, hposition⟩
    · obtain ⟨hvisits, hposition⟩ := hmoved cursor log position hmoves
      rw [hposition, hvisits, List.length_map, List.length_range, hconfig]
    · rw [hposition, hnew cursor hfresh]
      rfl
  · intro cursor log' hlog'
    rcases h.orderly.moves hlog' with ⟨log, position, hmoves, hconfig⟩ | ⟨hfresh, -⟩
    · obtain ⟨hvisits, -⟩ := hmoved cursor log position hmoves
      rw [hvisits, List.length_map, List.length_range, hconfig]
    · rw [hnew cursor hfresh]
      rfl

def initial (mapper : Mapper) (now : Duration) : Readers := ⟨World.initial mapper now, []⟩

theorem areInPlace_after (mapper : Mapper) (now : Duration) (events : List ReaderEvent) :
    ((initial mapper now).after events).AreInPlace fun cursor => visits cursor (initial mapper now) events := by
  induction events using List.reverseRecOn with
  | nil =>
    have hnone : ∀ cursor, (initial mapper now).log? cursor = none := by
      intro cursor
      cases cursor <;> simp [log?, initial, World.initial, World.empty]
    refine ⟨⟨⟨mapper, now, [], rfl⟩, ?_⟩, fun _ _ => rfl, ?_, ?_⟩
    · intro i s position hcursor
      contradiction
    · intro cursor log hlog
      exact absurd ((hnone cursor).symm.trans hlog) (by simp)
    · intro _ _ _
      rfl
  | append_singleton events event ih =>
    simp only [after_concat, visits_concat]
    exact ih.next event

theorem AreInPlace.pull {visits : LogCursor → List Nat} (h : r.AreInPlace visits) (hlog : r.log? cursor = some log)
    {s : StoreId} (hstore : r.world.stores[s]? = some log) (hlayout : log.layout = .append) (hready : log.isReady)
    {position : Nat} (hposition : r.position? cursor = some position) :
    ∃ (storage : Storage .append) (slot : Slot .append), log.storage .append = .ok storage ∧
      r.world.getSlot log .append ((visits cursor).length % log.config.capacity) = .ok (some slot) ∧
        Cursor.pull r.world.memory storage position =
          (slot.loggedValue, (visits cursor).length % log.config.capacity) := by
  obtain ⟨active, hactive⟩ := Option.isSome_iff_exists.mp hready
  have hstorage := h.orderly.reachable.housed.stores s log active hstore hactive
  have hfits := (LogRun.IsAtWork.fills hstorage ⟨rfl, rfl, rfl⟩ hlayout).fits hstorage.houses.toBacks
  have hpos := h.orderly.capacity_pos hlog hready
  obtain ⟨slot, hslot⟩ : ∃ slot, Storage.get? r.world.memory _ _ = some slot :=
    ⟨_, Storage.get?_eq_ofFn hfits (Nat.mod_lt (visits cursor).length hpos)⟩
  have hmoved := Cursor.advance_place hpos (visits cursor).length
  rw [← Option.some.inj (hposition.symm.trans (h.position cursor log hlog)), Cursor.place] at hmoved
  have hsome := LogRun.IsAtWork.storage_eq ⟨rfl, rfl, rfl⟩ hactive .append
  refine ⟨_, slot, hsome, ?_, ?_⟩
  · simp only [World.getSlot, hsome, bind, Except.bind, pure, Except.pure, hslot]
  · simp only [Cursor.pull, hmoved, hslot, Option.map_some, Option.getD_some]

/--
What is known about the cursors of all logs. `visits` are the indices that the pulls through a cursor read.
-/
structure FollowLogs (r : Readers) (visits : LogCursor → List Nat) : Prop where
  position : ∀ cursor log, r.log? cursor = some log →
    r.position? cursor = some (Cursor.place log.config.capacity (visits cursor).length)
  visited : ∀ cursor log, r.log? cursor = some log →
    visits cursor = (List.range (visits cursor).length).map (· % log.config.capacity)
  -- As many pulls in a row as there are slots read every slot once.
  laps : ∀ cursor log first, r.log? cursor = some log → first + log.config.capacity ≤ (visits cursor).length →
    (((visits cursor).drop first).take log.config.capacity).Perm (List.range log.config.capacity)
  -- A pull through the shared cursor of a ready log returns what is in the next slot.
  shared : ∀ s log, r.world.stores[s]? = some log → log.layout = .append → log.isReady →
    let index := (visits (.shared s)).length % log.config.capacity
    r.visited (.shared s) (.act (.pull s)) = [index] ∧
      ∃ slot, r.world.getSlot log .append index = .ok (some slot) ∧
        r.world.pull log s = .ok (slot.loggedValue, r.world.act (.pull s))
  -- A pull through a private cursor does the same, and moves no other cursor.
  own : ∀ i s position log, r.cursors[i]? = some (s, position) → r.world.stores[s]? = some log →
    log.layout = .append →
      let index := (visits (.own i)).length % log.config.capacity
      r.visited (.own i) (.follow i) = [index] ∧
        (∃ slot, r.world.getSlot log .append index = .ok (some slot) ∧
          r.world.pullAt log position = .ok (slot.loggedValue, index)) ∧
        r.next (.follow i) = { r with cursors := r.cursors.set i (s, index) }
  -- A cursor stays where it is unless it is pulled itself.
  still : ∀ event cursor log, r.log? cursor = some log → ((r.next event).log? cursor).isSome →
    r.pullsOf cursor event = 0 → (r.next event).position? cursor = r.position? cursor
  -- Pulling many entries of ready logs at once comes to pulling them one by one, in whatever order.
  many : ∀ (ids : List StoreId) (pulls : Nat) (singles : List StoreId), r.world.areReady ids →
    singles.Perm (ids.flatMap (List.replicate pulls)) →
    (r.world.act (.pullLogs ids pulls)).Tallies (r.world.after (singles.map .pull))
  -- So does pulling many entries of one log. Pulling none changes nothing.
  alone : ∀ s log pulls, r.world.stores[s]? = some log →
    (log.isReady ∧ r.world.benchmarkLog log s pulls =
        .ok ({ logs := 1, pullsPerLog := pulls }, r.world.act (.pullLogs [s] pulls))) ∨
      (log.isReady = false ∧ pulls ≠ 0 ∧
        r.world.benchmarkLog log s pulls = .error (.notReady log.config.name)) ∨
      (log.isReady = false ∧ pulls = 0 ∧ ∃ w', r.world.benchmarkLog log s pulls =
        .ok ({ logs := 1, pullsPerLog := pulls }, w') ∧ r.world.Tallies w')
  -- A log that is not ready is not pulled, and no private cursor is opened.
  refused : ∀ s log, r.world.stores[s]? = some log → log.isReady = false →
    r.world.pull log s = .error (.notReady log.config.name) ∧ r.next (.act (.pull s)) = r ∧
      World.openCursor log = .error (.notReady log.config.name) ∧ r.next (.openCursor s) = r
  -- Beside a log that is not ready, no other log is pulled.
  refusedMany : ∀ ids pulls, ¬r.world.areReady ids →
    (∃ s ∈ ids, ∃ log, r.world.stores[s]? = some log ∧ log.isReady = false ∧
      r.world.benchmarkLogs ids pulls = .error (.notReady log.config.name)) ∧
    r.next (.act (.pullLogs ids pulls)) = r

theorem take_drop_range {first count n : Nat} (h : first + count ≤ n) :
    ((List.range n).drop first).take count = List.range' first count := by
  apply List.ext_getElem
  · simp only [List.length_take, List.length_drop, List.length_range, List.length_range']
    omega
  · intro i _ _
    simp

theorem AreInPlace.visited_one {visits : LogCursor → List Nat} (h : r.AreInPlace visits)
    (hlog : r.log? cursor = some log) (hready : log.isReady) {event : ReaderEvent}
    (hpulls : r.pullsOf cursor event = 1) :
    r.visited cursor event = [(visits cursor).length % log.config.capacity] := by
  have hmoved := Cursor.advance_place (h.orderly.capacity_pos hlog hready) (visits cursor).length
  rw [visited, hlog, h.position cursor log hlog, hpulls]
  exact congrArg ([·]) hmoved

theorem AreInPlace.pull_shared {visits : LogCursor → List Nat} (h : r.AreInPlace visits) {s : StoreId}
    (hlog : r.world.stores[s]? = some log) (hlayout : log.layout = .append) (hready : log.isReady) :
    let index := (visits (.shared s)).length % log.config.capacity
    r.visited (.shared s) (.act (.pull s)) = [index] ∧
      ∃ slot, r.world.getSlot log .append index = .ok (some slot) ∧
        r.world.pull log s = .ok (slot.loggedValue, r.world.act (.pull s)) := by
  intro index
  have hposition : r.position? (.shared s) = some log.tail := by rw [position?, hlog]; rfl
  have hfound : r.log? (.shared s) = some log := hlog
  obtain ⟨storage, slot, hstorage, hslot, hpull⟩ := h.pull hfound hlog hlayout hready hposition
  have hpulls : r.pullsOf (.shared s) (.act (.pull s)) = 1 := by
    simp [pullsOf, World.pullsOf, World.isReady_eq hlog, hready]
  refine ⟨h.visited_one hfound hready hpulls, slot, hslot, ?_⟩
  simp only [World.act, World.withStore, hlog, World.pull, hstorage, bind, Except.bind, pure, Except.pure, hpull,
    Except.map, World.orElse]

theorem AreInPlace.pull_own {visits : LogCursor → List Nat} (h : r.AreInPlace visits) {i : Nat} {s : StoreId}
    {position : Nat} (hcursor : r.cursors[i]? = some (s, position)) (hlog : r.world.stores[s]? = some log)
    (hlayout : log.layout = .append) :
    let index := (visits (.own i)).length % log.config.capacity
    r.visited (.own i) (.follow i) = [index] ∧
      (∃ slot, r.world.getSlot log .append index = .ok (some slot) ∧
        r.world.pullAt log position = .ok (slot.loggedValue, index)) ∧
      r.next (.follow i) = { r with cursors := r.cursors.set i (s, index) } := by
  intro index
  have hready := (h.orderly.opened i s position hcursor).2 log hlog
  have hposition : r.position? (.own i) = some position := by rw [position?, hcursor]; rfl
  have hfound : r.log? (.own i) = some log := by rw [log?, hcursor, Option.bind_some, hlog]
  obtain ⟨storage, slot, hstorage, hslot, hpull⟩ := h.pull hfound hlog hlayout hready hposition
  have hpullAt : r.world.pullAt log position = .ok (slot.loggedValue, index) := by
    simp only [World.pullAt, hstorage, bind, Except.bind, pure, Except.pure, hpull, index]
  refine ⟨h.visited_one hfound hready (if_pos rfl), ⟨slot, hslot, hpullAt⟩, ?_⟩
  simp only [Readers.next, follow, hcursor, hlog, Option.map_some, hpullAt]

theorem AreOrderly.still (h : r.AreOrderly) {event : ReaderEvent} (hlog : r.log? cursor = some log)
    (hlog' : ((r.next event).log? cursor).isSome) (hpulls : r.pullsOf cursor event = 0) :
    (r.next event).position? cursor = r.position? cursor := by
  obtain ⟨log', hlog'⟩ := Option.isSome_iff_exists.mp hlog'
  rcases h.moves hlog' with ⟨log, position, hmoves, -⟩ | ⟨hnew, -⟩
  · rw [hmoves.moved, hmoves.stood, hpulls]
    rfl
  · exact absurd (hlog.symm.trans (h.log?_of_isNew hnew)) (by simp)

theorem refused_of_not_ready {s : StoreId} (hlog : r.world.stores[s]? = some log) (hready : log.isReady = false) :
    r.world.pull log s = .error (.notReady log.config.name) ∧ r.next (.act (.pull s)) = r ∧
      World.openCursor log = .error (.notReady log.config.name) ∧ r.next (.openCursor s) = r := by
  have hunready : r.world.isReady s = false := (World.isReady_eq hlog).trans hready
  have hopen : World.openCursor log = .error (.notReady log.config.name) := by
    rw [World.openCursor, World.storage_of_not_ready hready]
    rfl
  refine ⟨?_, ?_, hopen, ?_⟩
  · rw [World.pull, World.storage_of_not_ready hready]
    rfl
  · rw [next, World.act_pull_of_not_ready hunready]
  · simp only [next, openCursor, hlog, Option.map_some, hopen]

theorem cursors_independent (mapper : Mapper) (now : Duration) (events : List ReaderEvent) :
    ((initial mapper now).after events).FollowLogs fun cursor => visits cursor (initial mapper now) events := by
  have h := areInPlace_after mapper now events
  revert h
  generalize (initial mapper now).after events = r
  generalize (fun cursor => visits cursor (initial mapper now) events) = visits
  intro h
  refine {
    position := h.position
    visited := h.visits
    laps := ?_
    shared := fun _ _ => h.pull_shared
    own := fun _ _ _ _ => h.pull_own
    still := fun _ _ _ => h.orderly.still
    many := fun ids pulls singles hready hperm => World.tallies_pulls hready pulls hperm
    alone := fun s log pulls hlog => World.benchmarkLog_cases hlog pulls
    refused := fun _ _ => refused_of_not_ready
    refusedMany := ?_ }
  · intro cursor log first hlog hlap
    rw [h.visits cursor log hlog, ← List.map_drop, ← List.map_take, take_drop_range hlap]
    exact Cursor.lap_perm first
  · intro ids pulls hready
    refine ⟨World.benchmarkLogs_of_not_ready hready pulls, ?_⟩
    rw [next, World.act_pullLogs_of_not_ready hready]

set_option maxRecDepth 10000 in
example :
    let events := sampleLogStart.map ReaderEvent.act ++
      [.act (.pullLogs [1, 1] 3), .openCursor 1, .follow 0, .act (.pull 1), .follow 0]
    visits (.shared 1) (initial (.above 4096 4096) .zero) events = [0, 1, 2, 3, 0, 1, 2] ∧
      visits (.own 0) (initial (.above 4096 4096) .zero) events = [0, 1] := by
  decide +kernel

end Readers

end RemoteSlots
