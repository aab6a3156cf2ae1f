import RemoteSlots.Text.Numeral

/-!
This module contains spans of time in whole nanoseconds and the way messages write them.
-/

namespace RemoteSlots

structure Duration where
  nanos : Nat
  deriving DecidableEq, Repr, Inhabited

namespace Duration

def zero : Duration := ⟨0⟩

def ofSeconds (n : Nat) : Duration := ⟨n * 1_000_000_000⟩

def ofMillis (n : Nat) : Duration := ⟨n * 1_000_000⟩

def ofParts? (seconds nanos : Nat) : Option Duration :=
  if seconds + nanos / 1_000_000_000 < 1 <<< 64 then some ⟨seconds * 1_000_000_000 + nanos⟩ else none

def text (d : Duration) : String :=
  if d.nanos < 1_000 then inUnit 0 "ns"
  else if d.nanos < 1_000_000 then inUnit 3 "µs"
  else if d.nanos < 1_000_000_000 then inUnit 6 "ms"
  else inUnit 9 "s"
where
  inUnit (places : Nat) (symbol : String) : String :=
    toString (d.nanos / Nat.pow 10 places) ++ Text.trimmedFraction places (d.nanos % Nat.pow 10 places) ++
      symbol

example : (⟨1500⟩ : Duration).text = "1.5µs" := by decide +kernel
example : (ofMillis 25).text = "25ms" := by decide +kernel
example : (⟨12345678⟩ : Duration).text = "12.345678ms" := by decide +kernel
example : (ofSeconds 5).text = "5s" := by decide +kernel
example : zero.text = "0ns" := by decide +kernel

/--
Whether a clock that shows `now` can tell the moment at which a wait that starts then has lasted this
long. The clock counts seconds below `2 ^ 63`.
-/
def isReachable (d now : Duration) : Bool := now.nanos + d.nanos < (1 <<< 63) * 1_000_000_000

example : (ofSeconds (1 <<< 62)).isReachable (ofSeconds (1 <<< 16)) := by decide +kernel
example : ¬(ofSeconds ((1 <<< 64) - 1)).isReachable zero := by decide +kernel

def toSeconds (d : Duration) : Float :=
  (UInt64.ofNat (d.nanos / 1_000_000_000)).toFloat + (UInt64.ofNat (d.nanos % 1_000_000_000)).toFloat / 1e9

end Duration

end RemoteSlots
