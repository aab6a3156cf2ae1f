/-!
This module contains the 32 bit cyclic redundancy check that addresses and authenticates the
entries of a key/value store: the reflected polynomial `0xEDB88320`, all ones as the initial
register and a final complement.
-/

namespace RemoteSlots

namespace Crc32

/--
The generator polynomial, lowest degree in the highest bit.
-/
def polynomial : UInt32 := 0xEDB88320

def shift (register : UInt32) : UInt32 :=
  if register &&& 1 = 1 then (register >>> 1) ^^^ polynomial else register >>> 1

def shifts (n : Nat) (register : UInt32) : UInt32 :=
  match n with
  | 0 => register
  | n + 1 => shifts n (shift register)

def feed (register : UInt32) (byte : UInt8) : UInt32 :=
  shifts 8 (register ^^^ byte.toUInt32)

def register (bytes : List UInt8) : UInt32 :=
  bytes.foldl feed 0xFFFFFFFF

@[simp]
theorem register_nil : register [] = 0xFFFFFFFF := rfl

@[simp]
theorem register_concat (bytes : List UInt8) (byte : UInt8) :
    register (bytes ++ [byte]) = feed (register bytes) byte := by
  simp [register]

end Crc32

def crc32 (bytes : List UInt8) : UInt32 :=
  Crc32.register bytes ^^^ 0xFFFFFFFF

-- The check value of the code, the checksum of the digits `123456789`.
example : crc32 [0x31, 0x32, 0x33, 0x34, 0x35, 0x36, 0x37, 0x38, 0x39] = 0xCBF43926 := by
  decide +kernel

end RemoteSlots
