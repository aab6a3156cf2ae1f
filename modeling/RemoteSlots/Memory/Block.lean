import RemoteSlots.Config
import Std.Data.TreeMap

/-!
This module contains pinned blocks of memory: a run of whole pages of which the first `length` bytes
are in use. A block is read and written in words. Local code reaches the whole words in use; an access
by address reaches every word of the pages.
-/

namespace RemoteSlots

structure Block where
  base : Nat
  length : Nat
  mapped : Nat
  pages : PagePolicy
  -- Whether the pages are still mapped.
  live : Bool
  -- The words that were written, by index. The other ones are still zero.
  cells : Std.TreeMap Nat UInt32
  deriving Repr

namespace Block

def zeroed (base length mapped : Nat) (pages : PagePolicy) : Block :=
  { base, length, mapped, pages, live := true, cells := ∅ }

def size (block : Block) : Nat := block.length / 4

def room (block : Block) : Nat := block.mapped / 4

/--
The word at `index`. Where nothing was written a word reads zero.
-/
def word (block : Block) (index : Nat) : UInt32 :=
  block.cells[index]?.getD 0

def set (block : Block) (index : Nat) (word : UInt32) : Block :=
  { block with cells := block.cells.insert index word }

def loadBelow (block : Block) (limit start count : Nat) : List UInt32 :=
  (List.range' start (min (start + count) limit - start)).map block.word

def storeBelow (block : Block) (limit start : Nat) : List UInt32 → Block
  | [] => block
  | word :: words =>
    (if start < limit then block.set start word else block).storeBelow limit (start + 1) words

def clear (block : Block) : Block :=
  { block with cells := block.cells.filter fun index _ => decide (block.size ≤ index) }

def unmap (block : Block) : Block :=
  { block with live := false }

theorem word_set (block : Block) (index : Nat) (word : UInt32) (i : Nat) :
    (block.set index word).word i = if index = i then word else block.word i := by
  simp only [Block.word, set, Std.TreeMap.getElem?_insert, Nat.compare_eq_eq]
  split <;> rfl

@[simp]
theorem length_storeBelow (block : Block) (limit start : Nat) (words : List UInt32) :
    (block.storeBelow limit start words).length = block.length := by
  induction words generalizing block start with
  | nil => rfl
  | cons word words ih =>
    rw [storeBelow, ih]
    split <;> rfl

@[simp]
theorem mapped_storeBelow (block : Block) (limit start : Nat) (words : List UInt32) :
    (block.storeBelow limit start words).mapped = block.mapped := by
  induction words generalizing block start with
  | nil => rfl
  | cons word words ih =>
    rw [storeBelow, ih]
    split <;> rfl

@[simp]
theorem base_storeBelow (block : Block) (limit start : Nat) (words : List UInt32) :
    (block.storeBelow limit start words).base = block.base := by
  induction words generalizing block start with
  | nil => rfl
  | cons word words ih =>
    rw [storeBelow, ih]
    split <;> rfl

@[simp]
theorem live_storeBelow (block : Block) (limit start : Nat) (words : List UInt32) :
    (block.storeBelow limit start words).live = block.live := by
  induction words generalizing block start with
  | nil => rfl
  | cons word words ih =>
    rw [storeBelow, ih]
    split <;> rfl

theorem word_storeBelow (block : Block) (limit start : Nat) (words : List UInt32) (i : Nat) :
    (block.storeBelow limit start words).word i =
      if start ≤ i ∧ i - start < words.length ∧ i < limit then words[i - start]?.getD 0
      else block.word i := by
  induction words generalizing block start with
  | nil => simp [storeBelow]
  | cons word words ih =>
    rw [storeBelow, ih]
    by_cases heq : start = i
    · subst heq
      rw [if_neg (by omega)]
      by_cases hlt : start < limit <;> simp [hlt, word_set]
    · have hword : (if start < limit then block.set start word else block).word i = block.word i := by
        split
        · rw [word_set, if_neg heq]
        · rfl
      by_cases hle : start + 1 ≤ i
      · have hle' : start ≤ i := by omega
        have hsub : i - start = i - (start + 1) + 1 := by omega
        simp only [hword, hle, hle', hsub, true_and, List.length_cons, List.getElem?_cons_succ,
          Nat.add_lt_add_iff_right]
      · rw [hword, if_neg (by omega), if_neg (by omega)]

theorem word_clear (block : Block) (i : Nat) :
    block.clear.word i = if i < block.size then 0 else block.word i := by
  simp only [word, clear, Std.TreeMap.getElem?_filter']
  by_cases h : i < block.size
  · have hle : ¬block.size ≤ i := by omega
    cases block.cells[i]? <;> simp [Option.filter, h, hle]
  · have hle : block.size ≤ i := by omega
    cases block.cells[i]? <;> simp [Option.filter, h, hle]

@[simp]
theorem word_zeroed (base length mapped : Nat) (pages : PagePolicy) (i : Nat) :
    (zeroed base length mapped pages).word i = 0 := by
  simp [word, zeroed]

@[simp]
theorem length_loadBelow (block : Block) (limit start count : Nat) :
    (block.loadBelow limit start count).length = min (start + count) limit - start := by
  simp [loadBelow]

theorem getElem?_loadBelow (block : Block) (limit start count i : Nat) :
    (block.loadBelow limit start count)[i]? =
      if i < min (start + count) limit - start then some (block.word (start + i)) else none := by
  rw [loadBelow, List.getElem?_map]
  split
  · rw [List.getElem?_range' (by omega), Nat.one_mul]
    rfl
  · rw [List.getElem?_eq_none (by simp; omega)]
    rfl

end Block

end RemoteSlots
