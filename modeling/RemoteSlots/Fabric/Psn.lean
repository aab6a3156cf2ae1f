/-!
This module contains packet sequence numbers. They are 24 bits wide and wrap around.
-/

namespace RemoteSlots

abbrev Psn := BitVec 24

namespace Psn

def ofWord (word : UInt32) : Psn := word.toBitVec.setWidth 24

def toWord (psn : Psn) : UInt32 := ⟨psn.setWidth 32⟩

@[simp]
theorem ofWord_toWord (psn : Psn) : ofWord (toWord psn) = psn := by
  simp [ofWord, toWord]

def drift (current baseline : Psn) : Psn := current - baseline

end Psn

end RemoteSlots
