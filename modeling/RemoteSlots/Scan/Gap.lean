import RemoteSlots.Slot.Basic

/-!
This module contains the search for gaps in the sequence that a producer writes to an append log:
consecutive numbers from one on. Empty slots are passed over.
-/

namespace RemoteSlots

/--
An entry that does not carry the successor of the entry before it.
-/
structure Gap where
  index : Nat
  previous : UInt32
  next : UInt32
  deriving DecidableEq, Repr

namespace Gap

def ofValues (values : List UInt32) : List Gap :=
  go 0 0 values
where
  -- The gaps of the values that start at `index`, when `last` is the entry before them.
  go (index : Nat) (last : UInt32) : List UInt32 → List Gap
    | [] => []
    | value :: values =>
      if value = 0 then
        go (index + 1) last values
      else if value = last + 1 then
        go (index + 1) value values
      else
        ⟨index, last, value⟩ :: go (index + 1) value values

def ofSlots (slots : List (Slot .append)) : List Gap :=
  ofValues (slots.map (·.loggedValue))

example : ofValues [1, 2, 0, 3, 7, 8, 0, 10] = [⟨4, 3, 7⟩, ⟨7, 8, 10⟩] := by decide

end Gap

end RemoteSlots
