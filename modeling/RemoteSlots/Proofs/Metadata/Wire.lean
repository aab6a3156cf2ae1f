import RemoteSlots.Metadata

/-!
This module contains the laws of the wire format: what is written as bytes reads back as it was.
-/

namespace RemoteSlots

theorem wordOfBytes_wordBytes (word : UInt32) :
    wordOfBytes word.toUInt8 (word >>> 8).toUInt8 (word >>> 16).toUInt8 (word >>> 24).toUInt8 = word := by
  have h₈ : (UInt32.toBitVec 8 % 32).toNat = 8 := rfl
  have h₁₆ : (UInt32.toBitVec 16 % 32).toNat = 16 := rfl
  have h₂₄ : (UInt32.toBitVec 24 % 32).toNat = 24 := rfl
  unfold wordOfBytes
  apply UInt32.toBitVec_inj.mp
  apply BitVec.eq_of_getLsbD_eq
  intro i hi
  simp only [UInt32.toBitVec_or, UInt32.toBitVec_shiftLeft, UInt32.toBitVec_shiftRight, UInt8.toBitVec_toUInt32,
    UInt32.toBitVec_toUInt8, BitVec.shiftLeft_eq', BitVec.ushiftRight_eq', BitVec.getLsbD_or,
    BitVec.getLsbD_setWidth, BitVec.getLsbD_shiftLeft, BitVec.getLsbD_ushiftRight, h₈, h₁₆, h₂₄]
  -- Bit `i` comes from the byte that it lies in, so the four ranges of `i` are the cases.
  grind

@[simp]
theorem wordsOfBytes_bytesOfWords (words : List UInt32) : wordsOfBytes (bytesOfWords words) = words := by
  induction words with
  | nil => rfl
  | cons word words ih =>
    have hstep : wordsOfBytes (bytesOfWords (word :: words)) =
        wordOfBytes word.toUInt8 (word >>> 8).toUInt8 (word >>> 16).toUInt8 (word >>> 24).toUInt8 ::
          wordsOfBytes (bytesOfWords words) := rfl
    rw [hstep, wordOfBytes_wordBytes, ih]

namespace Metadata

theorem ofWords_toWords (metadata : Metadata) :
    ofWords metadata.address.toUInt32 (metadata.address >>> 32).toUInt32 metadata.length metadata.key =
      metadata := by
  have h₃₂ : (UInt64.toBitVec 32 % 64).toNat = 32 := rfl
  have haddress : metadata.address.toUInt32.toUInt64 |||
      (metadata.address >>> 32).toUInt32.toUInt64 <<< 32 = metadata.address := by
    apply UInt64.toBitVec_inj.mp
    apply BitVec.eq_of_getLsbD_eq
    intro i hi
    simp only [UInt64.toBitVec_or, UInt64.toBitVec_shiftLeft, UInt64.toBitVec_shiftRight,
      UInt32.toBitVec_toUInt64, UInt64.toBitVec_toUInt32, BitVec.shiftLeft_eq', BitVec.ushiftRight_eq',
      BitVec.getLsbD_or, BitVec.getLsbD_setWidth, BitVec.getLsbD_shiftLeft, BitVec.getLsbD_ushiftRight, h₃₂]
    grind
  unfold ofWords
  rw [haddress]

theorem decode_encode (metadata : Metadata) : decode metadata.encode = .ok metadata := by
  unfold decode encode
  rw [wordsOfBytes_bytesOfWords, toWords]
  exact congrArg Except.ok (ofWords_toWords metadata)

end Metadata

end RemoteSlots
