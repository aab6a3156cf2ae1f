import RemoteSlots.Slot.Basic

/-!
This module contains the search for runs of empty slots. A run is reported by its first and its last
index; in a ring the run that holds the last and the first slot is one run, and it wraps.
-/

namespace RemoteSlots

/--
A run of slots from `first` up to `last`, both included. It wraps from the end of the storage to its
start when `first` is above `last`.
-/
structure Span where
  first : Nat
  last : Nat
  deriving DecidableEq, Repr

namespace Span

def wraps (span : Span) : Bool :=
  decide (span.last < span.first)

def length (span : Span) (capacity : Nat) : Nat :=
  if span.wraps then capacity - span.first + span.last + 1 else span.last - span.first + 1

def neighbours (span : Span) (capacity : Nat) : Option (Nat × Nat) :=
  if capacity = 0 ∨ capacity ≤ span.length capacity then
    none
  else
    some ((span.first + capacity - 1) % capacity, (span.last + 1) % capacity)

def runs (flags : List Bool) : List Span :=
  go 0 none flags
where
  -- The runs of the flags that start at `index`, when `start` is the open run.
  go (index : Nat) (start : Option Nat) : List Bool → List Span
    | [] =>
      match start with
      | none => []
      | some first => [⟨first, index - 1⟩]
    | true :: flags => go (index + 1) (some (start.getD index)) flags
    | false :: flags =>
      match start with
      | none => go (index + 1) none flags
      | some first => ⟨first, index - 1⟩ :: go (index + 1) none flags

def joinEnds (capacity : Nat) (spans : List Span) : List Span :=
  match spans with
  | head :: rest =>
    match rest.getLast? with
    | some tail =>
      if head.first = 0 ∧ tail.last + 1 = capacity then
        ⟨tail.first, head.last⟩ :: rest.dropLast
      else
        spans
    | none => spans
  | [] => []

def emptyRuns (circular : Bool) (slots : List (Slot layout)) : List Span :=
  let spans := runs (slots.map (·.isEmpty))
  if circular then joinEnds slots.length spans else spans

example : runs [true, false, false, true] = [⟨0, 0⟩, ⟨3, 3⟩] := by decide
example : joinEnds 4 [⟨0, 0⟩, ⟨3, 3⟩] = [⟨3, 0⟩] := by decide
example : (⟨3, 0⟩ : Span).neighbours 4 = some (2, 1) := by decide

def listText (spans : List Span) : String :=
  "[" ++ ", ".intercalate (spans.map text) ++ "]"
where
  text (span : Span) : String :=
    "EmptySpan \x7b first: " ++ toString span.first ++ ", last: " ++ toString span.last ++ " \x7d"

end Span

end RemoteSlots
