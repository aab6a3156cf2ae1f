import RemoteSlots.Text.Duration

/-!
This module contains the outcomes of benchmarks and the rates that follow from them.
-/

namespace RemoteSlots

/--
Operations per second, zero when no time passed.
-/
def rate (count : Nat) (elapsed : Duration) : Float :=
  let seconds := elapsed.toSeconds
  if seconds == 0.0 then 0.0 else (UInt64.ofNat count).toFloat / seconds

structure QueryBenchmark where
  threads : Nat
  queries : Nat
  hits : Nat
  deriving DecidableEq, Repr

namespace QueryBenchmark

def perSecond (benchmark : QueryBenchmark) (elapsed : Duration) : Float :=
  rate benchmark.queries elapsed

def perSecondPerThread (benchmark : QueryBenchmark) (elapsed : Duration) : Float :=
  benchmark.perSecond elapsed / (UInt64.ofNat (max benchmark.threads 1)).toFloat

end QueryBenchmark

structure PullBenchmark where
  logs : Nat
  pullsPerLog : Nat
  deriving DecidableEq, Repr

namespace PullBenchmark

def total (benchmark : PullBenchmark) : Nat :=
  benchmark.pullsPerLog * benchmark.logs

def perSecond (benchmark : PullBenchmark) (elapsed : Duration) : Float :=
  rate benchmark.total elapsed

end PullBenchmark

end RemoteSlots
