import RemoteSlots.Fabric.Request

/-!
This module contains the single moves of an operation in progress. An operation is a machine with
states of type `σ`; between two of its moves anybody else may act. A move talks to the fabric once,
touches memory once, or does neither.
-/

namespace RemoteSlots

inductive Move (σ : Type) where
  | ask (request : Request) (resume : Except Failure request.Reply → σ)
  | write (block : Nat) (start : Nat) (words : List UInt32) (next : σ)
  | map (pages : PagePolicy) (length : Nat) (resume : Except Halt Extent → σ)
  -- Zero a block of memory.
  | clear (block : Nat) (next : σ)
  -- Go on without anybody else noticing.
  | pass (next : σ)

namespace Move

def embed (f : σ → τ) : Move σ → Move τ
  | ask request resume => .ask request fun reply => f (resume reply)
  | write block start words next => .write block start words (f next)
  | map pages length resume => .map pages length fun result => f (resume result)
  | clear block next => .clear block (f next)
  | pass next => .pass (f next)

def request? : Move σ → Option Request
  | ask request _ => some request
  | _ => none

end Move

/--
What an operation in progress learns from its surroundings just before a move: whether it was
cancelled, whether the time limit of what it waits for has passed, and what the clock showed when the
wait began.
-/
structure Signals where
  cancelled : Bool
  expired : Bool
  now : Duration
  deriving DecidableEq, Repr

end RemoteSlots
