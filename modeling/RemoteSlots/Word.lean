/-!
This module contains the byte form of 32 bit words, the unit of which slots and messages are made:
four bytes, the lowest one first.
-/

namespace RemoteSlots

def wordBytes (word : UInt32) : List UInt8 :=
  [word.toUInt8, (word >>> 8).toUInt8, (word >>> 16).toUInt8, (word >>> 24).toUInt8]

@[simp]
theorem length_wordBytes (word : UInt32) : (wordBytes word).length = 4 := rfl

def wordOfBytes (b₀ b₁ b₂ b₃ : UInt8) : UInt32 :=
  b₀.toUInt32 ||| b₁.toUInt32 <<< 8 ||| b₂.toUInt32 <<< 16 ||| b₃.toUInt32 <<< 24

def bytesOfWords (words : List UInt32) : List UInt8 :=
  words.flatMap wordBytes

@[simp]
theorem bytesOfWords_nil : bytesOfWords [] = [] := rfl

@[simp]
theorem bytesOfWords_cons (word : UInt32) (words : List UInt32) :
    bytesOfWords (word :: words) = wordBytes word ++ bytesOfWords words := rfl

@[simp]
theorem length_bytesOfWords (words : List UInt32) : (bytesOfWords words).length = 4 * words.length := by
  induction words with
  | nil => rfl
  | cons word words ih => simp [ih]; omega

def wordsOfBytes : List UInt8 → List UInt32
  | b₀ :: b₁ :: b₂ :: b₃ :: rest => wordOfBytes b₀ b₁ b₂ b₃ :: wordsOfBytes rest
  | _ => []

end RemoteSlots
