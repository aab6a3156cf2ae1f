import Mathlib.Algebra.Group.Nat.Defs
import RemoteSlots.Scan.Gap
import RemoteSlots.Scan.Span

/-!
This module contains what a producer leaves behind that goes round a log without losing an entry, and shows what the
scans find in it.
-/

namespace RemoteSlots

def stretch (start count : Nat) : List UInt32 :=
  (List.range' (start + 1) count).map UInt32.ofNat

def lapValues (capacity count : Nat) : List UInt32 :=
  if count < capacity then
    stretch 0 count ++ List.replicate (capacity - count) 0
  else
    stretch (count - count % capacity) (count % capacity) ++ stretch (count - capacity) (capacity - count % capacity)

theorem stretch_succ (start count : Nat) :
    stretch start (count + 1) = UInt32.ofNat (start + 1) :: stretch (start + 1) count := rfl

theorem map_eq_stretch {f : Nat → UInt32} {first start count : Nat}
    (h : ∀ i, i < count → f (first + i) = UInt32.ofNat (start + i + 1)) :
    (List.range' first count).map f = stretch start count := by
  induction count generalizing first start with
  | zero => rfl
  | succ count ih =>
    have hnext : ∀ i, i < count → f (first + 1 + i) = UInt32.ofNat (start + 1 + i + 1) := by
      intro i hi
      rw [Nat.add_assoc, Nat.add_assoc start, Nat.add_comm 1]
      exact h (i + 1) (by omega)
    rw [List.range'_succ, List.map_cons, stretch_succ, ih hnext]
    exact congrArg (· :: _) (h 0 (Nat.succ_pos count))

theorem ofNat_ne_zero {value : Nat} (hpos : 0 < value) (h : value < 2 ^ 32) : UInt32.ofNat value ≠ 0 := by
  intro heq
  have hvalue : (UInt32.ofNat value).toNat = value := UInt32.toNat_ofNat_of_lt' h
  rw [heq, UInt32.toNat_zero] at hvalue
  omega

theorem ofNat_succ (value : Nat) : UInt32.ofNat (value + 1) = UInt32.ofNat value + 1 :=
  UInt32.ofNat_add value 1

theorem ofNat_succ_ne {value last : Nat} (hvalue : value + 1 < 2 ^ 32) (hlast : last < 2 ^ 32)
    (hne : value ≠ last) : UInt32.ofNat (value + 1) ≠ UInt32.ofNat last + 1 := by
  intro heq
  rw [← ofNat_succ last] at heq
  have hmod := congrArg UInt32.toNat heq
  rw [UInt32.toNat_ofNat', UInt32.toNat_ofNat', Nat.mod_eq_of_lt hvalue] at hmod
  omega

namespace Gap

theorem go_stretch (index start count : Nat) (rest : List UInt32) (h : start + count < 2 ^ 32) :
    ofValues.go index (UInt32.ofNat start) (stretch start count ++ rest) =
      ofValues.go (index + count) (UInt32.ofNat (start + count)) rest := by
  induction count generalizing index start with
  | zero => rfl
  | succ count ih =>
    rw [stretch_succ, List.cons_append, ofValues.go, if_neg (ofNat_ne_zero (Nat.succ_pos start) (by omega)),
      if_pos (ofNat_succ start), ih (index + 1) (start + 1) (by omega), Nat.add_right_comm, Nat.add_right_comm start]
    rfl

theorem go_jump (index start count last : Nat) (rest : List UInt32) (hpos : 0 < count)
    (h : start + count < 2 ^ 32) (hlast : last < 2 ^ 32) (hne : start ≠ last) :
    ofValues.go index (UInt32.ofNat last) (stretch start count ++ rest) =
      ⟨index, UInt32.ofNat last, UInt32.ofNat (start + 1)⟩ ::
        ofValues.go (index + count) (UInt32.ofNat (start + count)) rest := by
  obtain ⟨count, rfl⟩ := Nat.exists_eq_add_one.mpr hpos
  rw [stretch_succ, List.cons_append, ofValues.go, if_neg (ofNat_ne_zero (Nat.succ_pos start) (by omega)),
    if_neg (ofNat_succ_ne (by omega) hlast hne), go_stretch (index + 1) (start + 1) count rest (by omega),
    Nat.add_right_comm, Nat.add_right_comm start]
  rfl

theorem go_zeros (index count : Nat) (last : UInt32) :
    ofValues.go index last (List.replicate count 0) = [] := by
  induction count generalizing index with
  | zero => rfl
  | succ count ih => rw [List.replicate_succ, ofValues.go, if_pos rfl, ih]

def ofLaps (capacity count : Nat) : List Gap :=
  if count ≤ capacity then
    []
  else if capacity ∣ count then
    [⟨0, 0, UInt32.ofNat (count - capacity + 1)⟩]
  else
    [⟨0, 0, UInt32.ofNat (count - count % capacity + 1)⟩,
      ⟨count % capacity, UInt32.ofNat count, UInt32.ofNat (count - capacity + 1)⟩]

theorem ofValues_lapValues {capacity count : Nat} (hpos : 0 < capacity) (hcount : count < 2 ^ 32) :
    ofValues (lapValues capacity count) = ofLaps capacity count := by
  unfold ofValues lapValues ofLaps
  have hplace := Nat.mod_lt count hpos
  by_cases hlt : count < capacity
  · rw [if_pos hlt, if_pos (Nat.le_of_lt hlt)]
    have hgo := go_stretch 0 0 count (List.replicate (capacity - count) 0) (by omega)
    exact hgo.trans (go_zeros ..)
  rw [if_neg hlt]
  by_cases hle : count ≤ capacity
  · obtain rfl : count = capacity := by omega
    rw [if_pos hle, Nat.mod_self, Nat.sub_self]
    have hgo := go_stretch 0 0 count [] (by omega)
    rwa [List.append_nil] at hgo
  rw [if_neg hle]
  by_cases hdvd : capacity ∣ count
  · rw [if_pos hdvd, Nat.mod_eq_zero_of_dvd hdvd]
    have hgo := go_jump 0 (count - capacity) capacity 0 [] hpos (by omega) (by omega) (by omega)
    rw [List.append_nil] at hgo
    exact hgo
  · rw [if_neg hdvd]
    have hfront : 0 < count % capacity := Nat.emod_pos_of_not_dvd hdvd
    have hlap : count - count % capacity + count % capacity = count := Nat.sub_add_cancel (Nat.mod_le ..)
    have hgo := go_jump (count % capacity) (count - capacity) (capacity - count % capacity) count []
      (by omega) (by omega) hcount (by omega)
    rw [List.append_nil] at hgo
    have hgo' := go_jump 0 (count - count % capacity) (count % capacity) 0
      (stretch (count - capacity) (capacity - count % capacity)) hfront (by omega) (by omega) (by omega)
    rw [hlap, Nat.zero_add, hgo] at hgo'
    exact hgo'

end Gap

theorem isZero_stretch {start count : Nat} (h : start + count < 2 ^ 32) :
    (stretch start count).map (· == 0) = List.replicate count false := by
  induction count generalizing start with
  | zero => rfl
  | succ count ih =>
    have hne := ofNat_ne_zero (Nat.succ_pos start) (by omega)
    rw [stretch_succ, List.map_cons, ih (by omega), beq_false_of_ne hne, List.replicate_succ]

theorem isZero_lapValues {capacity count : Nat} (hpos : 0 < capacity) (hcount : count < 2 ^ 32) :
    (lapValues capacity count).map (· == 0) =
      List.replicate (min count capacity) false ++ List.replicate (capacity - count) true := by
  unfold lapValues
  have hplace := Nat.mod_lt count hpos
  split
  · next hlt =>
    rw [List.map_append, isZero_stretch (by omega), Nat.min_eq_left (Nat.le_of_lt hlt), List.map_replicate]
    rfl
  · next hle =>
    have hle' : capacity ≤ count := Nat.not_lt.mp hle
    rw [List.map_append, isZero_stretch (by omega), isZero_stretch (by omega), List.replicate_append_replicate,
      Nat.min_eq_right hle', Nat.sub_eq_zero_of_le hle', Nat.add_sub_cancel' (Nat.le_of_lt hplace)]
    exact (List.append_nil _).symm

namespace Span

/--
The empty entries in a log that a producer went round: those behind the producer in its first lap.
-/
def ofLaps (capacity count : Nat) : List Span :=
  if count < capacity then [⟨count, capacity - 1⟩] else []

theorem go_full (index count : Nat) (flags : List Bool) :
    runs.go index none (List.replicate count false ++ flags) = runs.go (index + count) none flags := by
  induction count generalizing index with
  | zero => rfl
  | succ count ih =>
    rw [List.replicate_succ, List.cons_append, runs.go, ih, Nat.add_right_comm]
    rfl

theorem go_empty (index first count : Nat) :
    runs.go index (some first) (List.replicate count true) = [⟨first, index + count - 1⟩] := by
  induction count generalizing index with
  | zero => rfl
  | succ count ih =>
    rw [List.replicate_succ, runs.go, Option.getD_some, ih, Nat.add_right_comm]
    rfl

theorem runs_ofLaps (capacity count : Nat) :
    runs (List.replicate (min count capacity) false ++ List.replicate (capacity - count) true) =
      ofLaps capacity count := by
  rw [runs, go_full, ofLaps, Nat.zero_add]
  split
  · next hlt =>
    obtain ⟨rest, hrest⟩ := Nat.exists_eq_add_one.mpr (Nat.sub_pos_of_lt hlt)
    have hend : count + 1 + rest - 1 = capacity - 1 := by omega
    rw [hrest, List.replicate_succ, runs.go, go_empty, Nat.min_eq_left (Nat.le_of_lt hlt), hend]
    rfl
  · next hle =>
    rw [Nat.sub_eq_zero_of_le (Nat.not_lt.mp hle)]
    rfl

theorem joinEnds_ofLaps (capacity count : Nat) :
    joinEnds capacity (ofLaps capacity count) = ofLaps capacity count := by
  unfold ofLaps
  split <;> rfl

end Span

end RemoteSlots
