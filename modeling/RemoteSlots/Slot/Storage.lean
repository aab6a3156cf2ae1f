import RemoteSlots.Memory.Basic
import RemoteSlots.Slot.Basic

/-!
This module contains storages: a fixed number of slots in one block of memory. Slot `i` stands
behind the first `i * size` bytes of the block, where a peer that knows the block's address finds it.
-/

namespace RemoteSlots

structure Storage (layout : Layout) where
  capacity : Nat
  block : BlockId
  deriving DecidableEq, Repr

def pieces (n : Nat) : Nat → List α → List (List α)
  | 0, _ => []
  | count + 1, xs => xs.take n :: pieces n count (xs.drop n)

@[simp]
theorem length_pieces (n count : Nat) (xs : List α) : (pieces n count xs).length = count := by
  induction count generalizing xs with
  | zero => rfl
  | succ count ih => simp [pieces, ih]

theorem getElem?_pieces (n count : Nat) (xs : List α) (i : Nat) :
    (pieces n count xs)[i]? = if i < count then some ((xs.drop (i * n)).take n) else none := by
  induction count generalizing xs i with
  | zero => simp [pieces]
  | succ count ih =>
    cases i with
    | zero => simp [pieces]
    | succ i =>
      simp only [pieces, List.getElem?_cons_succ, ih, List.drop_drop, Nat.add_lt_add_iff_right]
      rw [Nat.succ_mul, Nat.add_comm]

namespace Storage

variable {layout : Layout}

def byteSize (layout : Layout) (capacity : Nat) : Except Failure Nat :=
  if addressLimit ≤ capacity * layout.size then
    .error (.allocation (.tooManySlots capacity layout.size))
  else
    .ok (capacity * layout.size)

def allocate (memory : Memory) (pages : PagePolicy) (layout : Layout) (capacity : Nat) :
    Except Halt (Storage layout × Memory) :=
  match byteSize layout capacity with
  | .error failure => .error (.failed failure)
  | .ok size =>
    match memory.allocate pages size with
    | .error halt => .error halt
    | .ok (block, memory) => .ok ({ capacity, block }, memory)

def get? (memory : Memory) (storage : Storage layout) (index : Nat) : Option (Slot layout) :=
  if index < storage.capacity then
    some (Slot.load (memory.load storage.block (index * layout.words) layout.words))
  else
    none

def put (memory : Memory) (storage : Storage layout) (index : Nat) (slot : Slot layout) :
    Except Failure Memory :=
  if index < storage.capacity then
    .ok (memory.store storage.block (index * layout.words) slot.toWords)
  else
    .error (.indexOutOfRange index storage.capacity)

/--
Write words as slots from `index` on, up to the first slot that does not exist. Words at the end that
are too few for a slot are a fault; what was written before them stays.
-/
def fill (storage : Storage layout) (memory : Memory) (index : Nat) (words : List UInt32) :
    Except Halt Unit × Memory :=
  go memory index (pieces layout.words ((words.length + layout.words - 1) / layout.words) words)
where
  go (memory : Memory) (index : Nat) : List (List UInt32) → Except Halt Unit × Memory
    | [] => (.ok (), memory)
    | piece :: rest =>
      match (Slot.ofWords? piece : Option (Slot layout)) with
      | none => (.error .faulted, memory)
      | some slot =>
        match storage.put memory index slot with
        | .ok memory => go memory (index + 1) rest
        | .error failure => (.error (.failed failure), memory)

def slots (memory : Memory) (storage : Storage layout) : List (Slot layout) :=
  let words := memory.contents storage.block
  (pieces layout.words (words.length / layout.words) words).map Slot.load

def snapshot (memory : Memory) (storage : Storage layout) (start limit : Nat) :
    List (Slot layout) :=
  (List.range' start (min (start + limit) storage.capacity - start)).filterMap (storage.get? memory)

def clear (memory : Memory) (storage : Storage layout) : Memory :=
  memory.clear storage.block

end Storage

end RemoteSlots
