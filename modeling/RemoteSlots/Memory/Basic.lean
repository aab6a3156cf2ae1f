import RemoteSlots.Failure.Basic
import RemoteSlots.Memory.Mapper

/-!
This module contains the memory that local code and remote peers share: a growing sequence of
blocks, of which those that are in use lie at disjoint addresses. A block keeps its number for ever,
so a number that is held for too long never comes to mean another block.
-/

namespace RemoteSlots

abbrev BlockId := Nat

structure Memory where
  blocks : Array Block
  mapper : Mapper

namespace Memory

def emptyOf (mapper : Mapper) : Memory := { blocks := #[], mapper }

def empty : Memory := emptyOf default

instance : Inhabited Memory := ⟨empty⟩

/--
Map a zeroed block of `length` bytes on whole pages. A page size of zero faults in the page
count.
-/
def allocate (memory : Memory) (pages : PagePolicy) (length : Nat) :
    Except Halt (BlockId × Memory) :=
  if length = 0 then
    .error (.failed (.allocation .emptyBuffer))
  else
    match pagesFor? pages.pageSize length with
    | none => .error .faulted
    | some count =>
      let mapped := count * pages.pageSize
      if addressLimit ≤ mapped then
        .error (.failed (.allocation (.bufferTooLong length)))
      else
        match memory.mapper.place memory.blocks pages mapped with
        | .error error => .error (.failed (.mapping error))
        | .ok base =>
          .ok (memory.blocks.size,
            { memory with blocks := memory.blocks.push (Block.zeroed base length mapped pages) })

def unmap (memory : Memory) (block : BlockId) : Memory :=
  { memory with blocks := memory.blocks.modify block (·.unmap) }

def isLive (memory : Memory) (block : BlockId) : Bool := memory.blocks[block]?.any (·.live)

def base (memory : Memory) (block : BlockId) : Nat :=
  match memory.blocks[block]? with
  | some block => block.base
  | none => 0

def length (memory : Memory) (block : BlockId) : Nat :=
  match memory.blocks[block]? with
  | some block => block.length
  | none => 0

def mapped (memory : Memory) (block : BlockId) : Nat :=
  match memory.blocks[block]? with
  | some block => block.mapped
  | none => 0

def word (memory : Memory) (block : BlockId) (index : Nat) : UInt32 :=
  match memory.blocks[block]? with
  | some block => block.word index
  | none => 0

def load (memory : Memory) (block : BlockId) (start count : Nat) : List UInt32 :=
  match memory.blocks[block]? with
  | some block => block.loadBelow block.size start count
  | none => []

def contents (memory : Memory) (block : BlockId) : List UInt32 :=
  memory.load block 0 (memory.length block / 4)

def store (memory : Memory) (block : BlockId) (start : Nat) (words : List UInt32) : Memory :=
  { memory with
    blocks := memory.blocks.modify block fun block => block.storeBelow block.size start words }

def clear (memory : Memory) (block : BlockId) : Memory :=
  { memory with blocks := memory.blocks.modify block (·.clear) }

def indexOf (memory : Memory) (block : BlockId) (address : Nat) : Nat :=
  (address - memory.base block) / 4

def loadAt (memory : Memory) (block : BlockId) (address count : Nat) : List UInt32 :=
  match memory.blocks[block]? with
  | some b => b.loadBelow b.room (memory.indexOf block address) count
  | none => []

def storeAt (memory : Memory) (block : BlockId) (address : Nat) (words : List UInt32) : Memory :=
  { memory with
    blocks := memory.blocks.modify block fun b =>
      b.storeBelow b.room (memory.indexOf block address) words }

theorem word_store (memory : Memory) (b c : BlockId) (start : Nat) (words : List UInt32) (i : Nat) :
    (memory.store b start words).word c i =
      if b = c ∧ start ≤ i ∧ i - start < words.length ∧ i < memory.length c / 4 then
        words[i - start]?.getD 0
      else memory.word c i := by
  by_cases hbc : b = c
  · subst hbc
    rcases h : memory.blocks[b]? with _ | block <;>
      simp [word, store, length, Array.getElem?_modify, h, Block.word_storeBelow, Block.size]
  · simp [word, store, length, Array.getElem?_modify, hbc]

theorem word_storeAt (memory : Memory) (b c : BlockId) (address : Nat) (words : List UInt32)
    (i : Nat) :
    (memory.storeAt b address words).word c i =
      if b = c ∧ memory.indexOf b address ≤ i ∧ i - memory.indexOf b address < words.length ∧
          i < memory.mapped c / 4 then
        words[i - memory.indexOf b address]?.getD 0
      else memory.word c i := by
  by_cases hbc : b = c
  · subst hbc
    rcases h : memory.blocks[b]? with _ | block <;>
      simp [word, storeAt, mapped, Array.getElem?_modify, h, Block.word_storeBelow, Block.room]
  · simp [word, storeAt, mapped, Array.getElem?_modify, hbc]

theorem word_clear (memory : Memory) (b c : BlockId) (i : Nat) :
    (memory.clear b).word c i =
      if b = c ∧ i < memory.length c / 4 then 0 else memory.word c i := by
  by_cases hbc : b = c
  · subst hbc
    rcases h : memory.blocks[b]? with _ | block
    · simp [word, clear, length, Array.getElem?_modify, h]
    · simp [word, clear, length, Array.getElem?_modify, h, Block.word_clear, Block.size]
      rfl
  · simp [word, clear, Array.getElem?_modify, hbc]

theorem getElem?_load (memory : Memory) (b : BlockId) (start count i : Nat) :
    (memory.load b start count)[i]? =
      if i < min (start + count) (memory.length b / 4) - start then some (memory.word b (start + i))
      else none := by
  rcases h : memory.blocks[b]? with _ | block <;>
    simp [load, length, word, h, Block.getElem?_loadBelow, Block.size]

end Memory

end RemoteSlots
