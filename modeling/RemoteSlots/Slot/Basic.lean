/-!
This module contains the fixed size records that storages hold. A slot is a run of words; it counts
as empty when the words that carry its content are all zero, so content that is all zero cannot be
told apart from content that was never written.
-/

namespace RemoteSlots

inductive Layout where
  -- A checksum and a value.
  | keyValue
  -- Five hops and three words of padding.
  | postcard
  -- A single value.
  | append
  deriving DecidableEq, Repr

namespace Layout

def words : Layout → Nat
  | keyValue => 2
  | postcard => 8
  | append => 1

/--
The number of leading words that carry the content of a slot; the others are padding.
-/
def live : Layout → Nat
  | keyValue => 2
  | postcard => 5
  | append => 1

def size (layout : Layout) : Nat := 4 * layout.words

theorem words_pos (layout : Layout) : 0 < layout.words := by
  cases layout <;> decide

theorem live_le_words (layout : Layout) : layout.live ≤ layout.words := by
  cases layout <;> decide

theorem size_pos (layout : Layout) : 0 < layout.size := by
  cases layout <;> decide

def maxWords : Nat := 8

theorem words_le_maxWords (layout : Layout) : layout.words ≤ maxWords := by
  cases layout <;> decide

end Layout

structure Slot (layout : Layout) where
  words : Vector UInt32 layout.words
  deriving DecidableEq, Repr

namespace Slot

variable {layout : Layout}

def load (words : List UInt32) : Slot layout :=
  ⟨Vector.ofFn fun i => words[i.val]?.getD 0⟩

def ofWords? (words : List UInt32) : Option (Slot layout) :=
  if layout.words ≤ words.length then some (load words) else none

def toWords (slot : Slot layout) : List UInt32 := slot.words.toList

@[simp]
theorem length_toWords (slot : Slot layout) : slot.toWords.length = layout.words := by
  simp [toWords]

theorem getElem?_toWords_load (words : List UInt32) (i : Nat) :
    (load words : Slot layout).toWords[i]? =
      if i < layout.words then some (words[i]?.getD 0) else none := by
  simp only [toWords, load, Vector.getElem?_toList, Vector.getElem?_ofFn]
  split <;> rfl

@[simp]
theorem load_toWords (slot : Slot layout) : load slot.toWords = slot := by
  cases slot with
  | mk words =>
    simp only [load, toWords, mk.injEq]
    ext i h
    simp

@[ext]
theorem ext_toWords {a b : Slot layout} (h : a.toWords = b.toWords) : a = b := by
  rw [← load_toWords a, ← load_toWords b, h]

def storeOver (slot : Slot layout) (words : List UInt32) : List UInt32 :=
  slot.toWords.take words.length ++ words.drop layout.words

def paddedWords (slot : Slot layout) : List UInt32 :=
  slot.toWords.rightpad Layout.maxWords 0

def isEmpty (slot : Slot layout) : Bool :=
  (slot.toWords.take layout.live).all (· == 0)

def zero : Slot layout := load []

theorem isEmpty_iff {slot : Slot layout} :
    slot.isEmpty ↔ ∀ i, i < layout.live → slot.toWords[i]? = some 0 := by
  simp only [isEmpty, List.all_eq_true, List.mem_take_iff_getElem, beq_iff_eq]
  have hle := layout.live_le_words
  constructor
  · intro h i hi
    have hlt : i < slot.toWords.length := by simp; omega
    rw [List.getElem?_eq_getElem hlt, h _ ⟨i, by simp; omega, rfl⟩]
  · rintro h w ⟨i, hi, rfl⟩
    have hlt : i < layout.live := by omega
    have := h i hlt
    rw [List.getElem?_eq_getElem (by simp; omega)] at this
    exact Option.some.inj this

@[simp]
theorem isEmpty_zero : (zero : Slot layout).isEmpty := by
  rw [isEmpty_iff]
  intro i hi
  rw [zero, getElem?_toWords_load, if_pos (Nat.lt_of_lt_of_le hi layout.live_le_words)]
  rfl

def entry (checksum value : UInt32) : Slot .keyValue := ⟨#v[checksum, value]⟩

def checksum (slot : Slot .keyValue) : UInt32 := slot.words.get ⟨0, by decide⟩

def value (slot : Slot .keyValue) : UInt32 := slot.words.get ⟨1, by decide⟩

@[simp]
theorem checksum_entry (c v : UInt32) : (entry c v).checksum = c := rfl

@[simp]
theorem value_entry (c v : UInt32) : (entry c v).value = v := rfl

@[simp]
theorem toWords_entry (c v : UInt32) : (entry c v).toWords = [c, v] := rfl

def hopCount : Nat := 5

def postcard (hops : List UInt32) : Slot .postcard := load (hops.take hopCount)

def hops (slot : Slot .postcard) : List UInt32 := slot.toWords.take hopCount

def padding (slot : Slot .postcard) : List UInt32 := slot.toWords.drop hopCount

def logged (value : UInt32) : Slot .append := ⟨#v[value]⟩

def loggedValue (slot : Slot .append) : UInt32 := slot.words.get ⟨0, by decide⟩

@[simp]
theorem loggedValue_logged (v : UInt32) : (logged v).loggedValue = v := rfl

end Slot

end RemoteSlots
