import RemoteSlots.Failure.Basic
import RemoteSlots.Word

/-!
This module contains the advertisement that tells a peer where a region is, and its wire format of
four words: the low half of the address, its high half, the length and the key.
-/

namespace RemoteSlots

structure Metadata where
  address : UInt64
  length : UInt32
  key : UInt32
  deriving DecidableEq, Repr

namespace Metadata

def wireLength : Nat := 16

def toWords (metadata : Metadata) : List UInt32 :=
  [metadata.address.toUInt32, (metadata.address >>> 32).toUInt32, metadata.length, metadata.key]

@[simp]
theorem length_toWords (metadata : Metadata) : metadata.toWords.length = 4 := rfl

def ofWords (low high length key : UInt32) : Metadata :=
  { address := low.toUInt64 ||| high.toUInt64 <<< 32, length, key }

def encode (metadata : Metadata) : List UInt8 :=
  bytesOfWords metadata.toWords

@[simp]
theorem length_encode (metadata : Metadata) : metadata.encode.length = wireLength := by
  simp [encode, wireLength]

/--
Read an advertisement from the front of a message; what follows its sixteen bytes is ignored.
-/
def decode (bytes : List UInt8) : Except Failure Metadata :=
  match wordsOfBytes bytes with
  | low :: high :: length :: key :: _ => .ok (ofWords low high length key)
  | _ => .error (.protocol (.shortMetadata wireLength bytes.length))

def slotAddress (metadata : Metadata) (index : UInt64) (size : Nat) : UInt64 :=
  metadata.address + index * UInt64.ofNat size

end Metadata

end RemoteSlots
