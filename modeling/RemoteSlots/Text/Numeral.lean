/-!
This module contains the spellings of numbers that reports and messages use: padded decimals, and
hexadecimal with its base in front.
-/

namespace RemoteSlots

namespace Text

def zeroPadded (width n : Nat) : String :=
  String.ofList ((Nat.toDigits 10 n).leftpad width '0')

def rightAligned (width n : Nat) : String :=
  String.ofList ((Nat.toDigits 10 n).leftpad width ' ')

def hexadecimal (n : Nat) : String :=
  "0x" ++ String.ofList (Nat.toDigits 16 n)

def trimmedFraction (places part : Nat) : String :=
  let digits := ((zeroPadded places part).toList.reverse.dropWhile (· = '0')).reverse
  if digits.isEmpty then "" else "." ++ String.ofList digits

end Text

end RemoteSlots
