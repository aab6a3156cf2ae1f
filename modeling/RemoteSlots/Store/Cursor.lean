import RemoteSlots.Slot.Storage

/-!
This module contains the cursors that readers of an append log follow its writer with. A cursor holds
the index that it read last; it moves on by one before every read and goes round at the capacity. A
fresh cursor stands behind the last slot, so that its first read is at index zero.
-/

namespace RemoteSlots

namespace Cursor

def advance (capacity position : Nat) : Nat :=
  if capacity ≤ position + 1 then 0 else position + 1

theorem advance_lt {capacity : Nat} (position : Nat) (h : 0 < capacity) :
    advance capacity position < capacity := by
  unfold advance
  split <;> omega

/--
Move on from `position` and read there: the value and the new position.
-/
def pull (memory : Memory) (storage : Storage .append) (position : Nat) : UInt32 × Nat :=
  let position := advance storage.capacity position
  (((storage.get? memory position).map (·.loggedValue)).getD 0, position)

def advanceBy (capacity : Nat) : (count : Nat) → (position : Nat) → Nat
  | 0, position => position
  | count + 1, position => advanceBy capacity count (advance capacity position)

end Cursor

end RemoteSlots
