import RemoteSlots.Slot.Basic

/-!
This module contains the fullness scan of a storage.
-/

namespace RemoteSlots

structure Analysis where
  occupied : Nat
  capacity : Nat
  deriving DecidableEq, Repr

namespace Analysis

def ofSlots (slots : List (Slot layout)) : Analysis :=
  { occupied := slots.countP (!·.isEmpty), capacity := slots.length }

/--
Count the occupied slots one by one and announce the progress every `interval` slots: the result is
the analysis and the indices at which progress was announced. An interval of zero counts as one.
-/
def scan (interval : Nat) (slots : List (Slot layout)) : Analysis × List Nat :=
  go 0 0 slots
where
  go (index occupied : Nat) : List (Slot layout) → Analysis × List Nat
    | [] => ({ occupied, capacity := index }, [])
    | slot :: slots =>
      let (analysis, marks) := go (index + 1) (if slot.isEmpty then occupied else occupied + 1) slots
      (analysis, if index % max interval 1 = 0 ∧ 0 < index then index :: marks else marks)

theorem scan_go (interval index occupied : Nat) (slots : List (Slot layout)) :
    (scan.go interval index occupied slots).1 =
      { occupied := occupied + slots.countP (!·.isEmpty), capacity := index + slots.length } := by
  induction slots generalizing index occupied with
  | nil => rfl
  | cons slot slots ih =>
    simp only [scan.go, ih, List.countP_cons, List.length_cons]
    cases slot.isEmpty <;> simp <;> omega

theorem scan_fst (interval : Nat) (slots : List (Slot layout)) :
    (scan interval slots).1 = ofSlots slots := by
  simp [scan, scan_go, ofSlots]

def empty (analysis : Analysis) : Nat :=
  analysis.capacity - analysis.occupied

def loadFactor (analysis : Analysis) : Float :=
  if analysis.capacity = 0 then 0.0
  else (UInt64.ofNat analysis.occupied).toFloat / (UInt64.ofNat analysis.capacity).toFloat

def loadPercent (analysis : Analysis) : Float :=
  analysis.loadFactor * 100.0

theorem occupied_le_capacity (slots : List (Slot layout)) :
    (ofSlots slots).occupied ≤ (ofSlots slots).capacity := by
  simpa [ofSlots] using List.countP_le_length

theorem empty_ofSlots (slots : List (Slot layout)) :
    (ofSlots slots).empty = slots.countP (·.isEmpty) := by
  have := List.length_eq_countP_add_countP (·.isEmpty) (l := slots)
  simp only [empty, ofSlots]
  have : slots.countP (!·.isEmpty) = slots.countP (fun slot => decide ¬slot.isEmpty = true) := by
    congr 1
    funext slot
    cases slot.isEmpty <;> rfl
  omega

end Analysis

end RemoteSlots
