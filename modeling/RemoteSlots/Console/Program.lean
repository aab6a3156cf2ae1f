import RemoteSlots.Console.Report
import RemoteSlots.Console.Synthetic

/-!
This module contains the collector program: it serves its stores and prints a report for every line
of its input.
-/

namespace RemoteSlots

namespace Console

def versionLine : String := "dta-collector 0.1.0"

def promptLine : String :=
  "Press ENTER to analyze storage. This MIGHT impact RDMA performance, so avoid during benchmarking!"

def helpLines : List String :=
  "Usage: dta-collector [OPTIONS]" ::
    (numberOptions.map fun option => s!"  --{option.long} <NUMBER>") ++
    (switches.map fun switch => s!"  --{switch.long}")

/--
What comes of the arguments: the program ends at once with an exit code, or it serves.
-/
inductive Start where
  | exit (code : UInt32) (lines : List String)
  | serve (collector : Collector) (w : World)

def start (w : World) (arguments : List String) : Start :=
  match Arguments.parse arguments with
  | .error .displayHelp => .exit 0 helpLines
  | .error .displayVersion => .exit 0 [versionLine]
  | .error _ => .exit 2 []
  | .ok arguments =>
    match Collector.build w arguments with
    | .error _ => .exit 1 []
    | .ok (collector, w) =>
      .serve collector (initiateAll collector w collector.stores).2

def reports (collector : Collector) (w : World) : (lines : Nat) → List (List String) × World
  | 0 => ([], w)
  | lines + 1 =>
    let (first, w) := collector.report w
    let (rest, w) := reports collector w lines
    (first :: rest, w)

def lineCount (text : String) : Nat :=
  go text.toList
where
  go : List Char → Nat
    | [] => 0
    | '\n' :: rest => go rest + 1
    | [_] => 1
    | _ :: rest => go rest

def run (w : World) (arguments : List String) (input : String) : UInt32 × List String :=
  match start w arguments with
  | .exit code lines => (code, lines)
  | .serve collector w => (0, promptLine :: (reports collector w (lineCount input)).1.flatten)

end Console

end RemoteSlots
