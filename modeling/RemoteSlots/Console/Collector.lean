import RemoteSlots.Console.Arguments
import RemoteSlots.World.Stores

/-!
This module contains the stores of the collector program: one for keys and values, one for postcards
and any number of append logs, all configured from the program's arguments.
-/

namespace RemoteSlots

namespace Console

structure Collector where
  arguments : Arguments
  keyValue : StoreId
  postcard : StoreId
  lists : List StoreId

namespace Collector

def config (arguments : Arguments) (name : String) (port capacity : Nat) : StoreConfig :=
  let config : StoreConfig := { name, port := UInt16.ofNat port, capacity }
  let config :=
    match arguments.eventTimeoutSeconds with
    | none => config
    | some seconds => config.withEventTimeout (.ofSeconds seconds)
  if arguments.standardPages then { config with pages := .standard } else config

def buildLists (w : World) (arguments : Arguments) (first : Nat) :
    (count : Nat) → Except Failure (List StoreId × World)
  | 0 => .ok ([], w)
  | count + 1 => do
    let config :=
      config arguments s!"List{first}" (arguments.listPortStart + first) arguments.listSlots
    let (list, w) ← w.createStore .append config .loopback
    let (lists, w) ← buildLists w arguments (first + 1) count
    return (list :: lists, w)

/--
Create the stores. The first faulty configuration stops it.
-/
def build (w : World) (arguments : Arguments) : Except Failure (Collector × World) := do
  let (keyValue, w) ←
    w.createStore .keyValue
      (config arguments "KeyWriteStore" arguments.keyValuePort arguments.keyValueSlots) .loopback
  let (postcard, w) ←
    w.createStore .postcard
      (config arguments "PostcarderStore" arguments.postcardPort arguments.postcardSlots) .loopback
  let (lists, w) ← buildLists w arguments 0 arguments.lists
  return ({ arguments, keyValue, postcard, lists }, w)

def stores (collector : Collector) : List StoreId :=
  collector.keyValue :: collector.postcard :: collector.lists

def redundancy (collector : Collector) : UInt8 :=
  UInt8.ofNat collector.arguments.redundancy

end Collector

end Console

end RemoteSlots
