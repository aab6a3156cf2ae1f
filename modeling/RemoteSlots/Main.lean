import RemoteSlots.Console.Program

/-!
This module contains the command line of the collector.
-/

open RemoteSlots RemoteSlots.Console

partial def serveLines (collector : Collector) (w : World) (input : IO.FS.Stream) : IO Unit := do
  let line ← input.getLine
  if line.isEmpty then
    return
  let (lines, w) := collector.report w
  lines.forM IO.println
  serveLines collector w input

def main (arguments : List String) : IO UInt32 := do
  let now : Duration := ⟨← IO.monoNanosNow⟩
  match start { World.empty with now } arguments with
  | .exit code lines =>
    lines.forM IO.println
    return code
  | .serve collector w =>
    IO.println promptLine
    serveLines collector w (← IO.getStdin)
    return 0
