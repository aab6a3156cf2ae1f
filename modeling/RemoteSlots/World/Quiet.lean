import RemoteSlots.World.Basic

/-!
This module contains the schedule on which nobody but one operation acts. A time limit passes exactly
when all that was under way has arrived and waiting could bring nothing more.
-/

namespace RemoteSlots

namespace World

def runsDry (w : World) (fabric : FabricId) (request : Request) : Bool :=
  match fabric, request with
  | .loopback, .nextEvent channel => w.net.channels[channel]?.any (·.events.isEmpty)
  | .loopback, .poll endpoint =>
    w.net.links[endpoint.handle]?.all fun link => link.completions.length ≤ 1
  | .script id, .nextEvent _ =>
    w.scripts[id]?.any fun script => script.events.isEmpty && (script.fault? request).isNone
  | .script id, .poll _ =>
    w.scripts[id]?.all fun script => script.chatter || script.completions.length ≤ 1
  | _, _ => true

def overdue (w : World) (task : Task) : Bool :=
  match w.stage? task, w.upcoming? task with
  | some (_, _, fabric, _), some request => w.runsDry fabric request
  | _, _ => true

def blocked (w : World) (task : Task) : Bool :=
  match w.stage? task with
  | none => false
  | some (stage, config, fabric, cancelled) =>
    match (stage.next "" config { cancelled, expired := true, now := w.now }).request? with
    | some (.nextEvent channel) => w.runsDry fabric (.nextEvent channel)
    | _ => false

def waiting (w : World) (task : Task) : Bool :=
  match w.stage? task, w.upcoming? task with
  | some (_, _, fabric, _), some (.nextEvent channel) => w.runsDry fabric (.nextEvent channel)
  | _, _ => false

/--
A bound on the number of moves that an operation makes before it ends or blocks: its own stages, and
one look at everything that is there to be found.
-/
def horizon (w : World) : Nat :=
  64 + w.net.links.foldl (fun n _ link => n + link.completions.length) 0
    + w.scripts.foldl (fun n _ script => n + script.events.length + script.completions.length) 0

def runUntil (w : World) (task : Task) (stop : World → Bool) : World :=
  go w.horizon w
where
  go : Nat → World → World
    | 0, w => w
    | fuel + 1, w =>
      if stop w || (w.result? task).isSome || w.blocked task then w
      else go fuel (w.step task (w.overdue task)).2

def run (w : World) (task : Task) : World :=
  w.runUntil task fun _ => false

end World

end RemoteSlots
