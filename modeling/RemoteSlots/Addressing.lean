import RemoteSlots.Checksum.Crc32
import RemoteSlots.Word

/-!
This module contains the content addressing of key/value entries. Writer and reader derive the same
candidate slots from a key alone:
- the checksum of a key is the CRC of its four bytes, lowest byte first,
- candidate `n` of a key is the CRC of these bytes followed by the byte `n`, modulo the capacity.
-/

namespace RemoteSlots

def keyChecksum (key : UInt32) : UInt32 :=
  crc32 (wordBytes key)

def probeIndex (key : UInt32) (n : UInt8) (capacity : Nat) : Nat :=
  (crc32 (wordBytes key ++ [n])).toNat % capacity

theorem probeIndex_lt (key : UInt32) (n : UInt8) {capacity : Nat} (h : 0 < capacity) :
    probeIndex key n capacity < capacity :=
  Nat.mod_lt _ h

def probes (redundancy : UInt8) : List UInt8 :=
  (List.range redundancy.toNat).map UInt8.ofNat

@[simp]
theorem length_probes (redundancy : UInt8) : (probes redundancy).length = redundancy.toNat := by
  simp [probes]

@[simp]
theorem mem_probes {redundancy n : UInt8} : n ∈ probes redundancy ↔ n < redundancy := by
  simp only [probes, List.mem_map, List.mem_range, UInt8.lt_iff_toNat_lt]
  constructor
  · rintro ⟨m, hm, rfl⟩
    have : m < 256 := Nat.lt_trans hm redundancy.toNat_lt
    simp [Nat.mod_eq_of_lt this, hm]
  · exact fun h => ⟨n.toNat, h, by simp⟩

def probeSequence (key : UInt32) (redundancy : UInt8) (capacity : Nat) : List Nat :=
  (probes redundancy).map (probeIndex key · capacity)

@[simp]
theorem length_probeSequence (key : UInt32) (redundancy : UInt8) (capacity : Nat) :
    (probeSequence key redundancy capacity).length = redundancy.toNat := by
  simp [probeSequence]

/--
`probeIndex` as a partial function: no candidate exists among zero slots.
-/
def probeIndex? (key : UInt32) (n : UInt8) (capacity : Nat) : Option Nat :=
  if capacity = 0 then none else some (probeIndex key n capacity)

def probeSequence? (key : UInt32) (redundancy : UInt8) (capacity : Nat) : Option (List Nat) :=
  (probes redundancy).mapM (probeIndex? key · capacity)

end RemoteSlots
