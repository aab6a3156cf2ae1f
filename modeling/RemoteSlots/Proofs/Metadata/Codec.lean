import Mathlib.Algebra.Group.Nat.Defs
import RemoteSlots.Proofs.Metadata.Wire

/-!
This module shows that words and bytes say the same: four bytes are one word and one word is four bytes, so that an
advertisement and its sixteen bytes determine each other.
-/

namespace RemoteSlots

theorem wordBytes_wordOfBytes (b₀ b₁ b₂ b₃ : UInt8) : wordBytes (wordOfBytes b₀ b₁ b₂ b₃) = [b₀, b₁, b₂, b₃] := by
  have h₈ : (UInt32.toBitVec 8 % 32).toNat = 8 := rfl
  have h₁₆ : (UInt32.toBitVec 16 % 32).toNat = 16 := rfl
  have h₂₄ : (UInt32.toBitVec 24 % 32).toNat = 24 := rfl
  have hbyte : ∀ (word : UInt32) (b : UInt8),
      (∀ i < 8, word.toBitVec.getLsbD i = b.toBitVec.getLsbD i) → word.toUInt8 = b := by
    intro word b hbits
    apply UInt8.toBitVec_inj.mp
    apply BitVec.eq_of_getLsbD_eq
    intro i hi
    rw [UInt32.toBitVec_toUInt8, BitVec.getLsbD_setWidth, hbits i hi, decide_eq_true hi, Bool.true_and]
  unfold wordBytes wordOfBytes
  simp only [List.cons.injEq, and_true]
  -- Of the four bytes that are joined, one alone reaches into the eight bits that are cut out.
  refine ⟨hbyte _ _ fun i hi => ?_, hbyte _ _ fun i hi => ?_, hbyte _ _ fun i hi => ?_, hbyte _ _ fun i hi => ?_⟩
  all_goals
    simp only [UInt32.toBitVec_or, UInt32.toBitVec_shiftLeft, UInt32.toBitVec_shiftRight, UInt8.toBitVec_toUInt32,
      BitVec.shiftLeft_eq', BitVec.ushiftRight_eq', BitVec.getLsbD_or, BitVec.getLsbD_setWidth,
      BitVec.getLsbD_shiftLeft, BitVec.getLsbD_ushiftRight, h₈, h₁₆, h₂₄]
    grind

theorem length_lt_of_no_word {bytes : List UInt8}
    (h : ∀ (b₀ b₁ b₂ b₃ : UInt8) (rest : List UInt8), bytes = b₀ :: b₁ :: b₂ :: b₃ :: rest → False) :
    bytes.length < 4 := by
  rcases bytes with _ | ⟨b₀, _ | ⟨b₁, _ | ⟨b₂, _ | ⟨b₃, rest⟩⟩⟩⟩
  case cons.cons.cons.cons => exact (h b₀ b₁ b₂ b₃ rest rfl).elim
  all_goals simp

theorem length_wordsOfBytes (bytes : List UInt8) : (wordsOfBytes bytes).length = bytes.length / 4 := by
  fun_induction wordsOfBytes bytes with
  | case1 b₀ b₁ b₂ b₃ rest ih =>
    simp only [List.length_cons, ih]
    omega
  | case2 bytes hshort => exact (Nat.div_eq_of_lt (length_lt_of_no_word hshort)).symm

theorem bytesOfWords_wordsOfBytes (bytes : List UInt8) :
    bytesOfWords (wordsOfBytes bytes) = bytes.take (4 * (bytes.length / 4)) := by
  fun_induction wordsOfBytes bytes with
  | case1 b₀ b₁ b₂ b₃ rest ih =>
    have hlength : 4 * ((b₀ :: b₁ :: b₂ :: b₃ :: rest).length / 4) = 4 * (rest.length / 4) + 4 := by
      simp only [List.length_cons]
      omega
    rw [bytesOfWords_cons, wordBytes_wordOfBytes, ih, hlength]
    rfl
  | case2 bytes hshort =>
    rw [Nat.div_eq_of_lt (length_lt_of_no_word hshort)]
    rfl

theorem bytesOfWords_inj {words words' : List UInt32} :
    bytesOfWords words = bytesOfWords words' ↔ words = words' := by
  refine ⟨fun heq => ?_, congrArg bytesOfWords⟩
  rw [← wordsOfBytes_bytesOfWords words, heq, wordsOfBytes_bytesOfWords]

namespace Metadata

theorem toWords_ofWords (low high length key : UInt32) :
    (ofWords low high length key).toWords = [low, high, length, key] := by
  have h₃₂ : (UInt64.toBitVec 32 % 64).toNat = 32 := rfl
  have hlow : (low.toUInt64 ||| high.toUInt64 <<< 32).toUInt32 = low := by
    apply UInt32.toBitVec_inj.mp
    apply BitVec.eq_of_getLsbD_eq
    intro i hi
    simp only [UInt64.toBitVec_toUInt32, UInt64.toBitVec_or, UInt64.toBitVec_shiftLeft, UInt32.toBitVec_toUInt64,
      BitVec.shiftLeft_eq', BitVec.getLsbD_or, BitVec.getLsbD_setWidth, BitVec.getLsbD_shiftLeft, h₃₂]
    grind
  have hhigh : ((low.toUInt64 ||| high.toUInt64 <<< 32) >>> 32).toUInt32 = high := by
    apply UInt32.toBitVec_inj.mp
    apply BitVec.eq_of_getLsbD_eq
    intro i hi
    simp only [UInt64.toBitVec_toUInt32, UInt64.toBitVec_shiftRight, UInt64.toBitVec_or, UInt64.toBitVec_shiftLeft,
      UInt32.toBitVec_toUInt64, BitVec.shiftLeft_eq', BitVec.ushiftRight_eq', BitVec.getLsbD_or,
      BitVec.getLsbD_setWidth, BitVec.getLsbD_shiftLeft, BitVec.getLsbD_ushiftRight, h₃₂]
    grind
  simp only [toWords, ofWords, hlow, hhigh]

theorem toNat_address (metadata : Metadata) :
    metadata.address.toNat =
      metadata.address.toUInt32.toNat + 2 ^ 32 * (metadata.address >>> 32).toUInt32.toNat := by
  have hlt := metadata.address.toNat_lt
  have hshift : (32 : UInt64).toNat % 64 = 32 := rfl
  rw [UInt64.toNat_toUInt32, UInt64.toNat_toUInt32, UInt64.toNat_shiftRight, hshift, Nat.shiftRight_eq_div_pow]
  omega

theorem decode_of_short {bytes : List UInt8} (h : bytes.length < wireLength) :
    decode bytes = .error (.protocol (.shortMetadata wireLength bytes.length)) := by
  have hlength := length_wordsOfBytes bytes
  unfold decode
  split
  · next hwords =>
    simp only [hwords, List.length_cons] at hlength
    simp only [wireLength] at h
    omega
  · rfl

theorem decode_of_long {bytes : List UInt8} (h : wireLength ≤ bytes.length) :
    ∃ metadata, decode bytes = .ok metadata ∧ metadata.encode = bytes.take wireLength := by
  have hbytes := bytesOfWords_wordsOfBytes bytes
  have hlength := length_wordsOfBytes bytes
  have hfour : 4 ≤ bytes.length / 4 := (Nat.le_div_iff_mul_le (by decide)).mpr h
  have hroom : wireLength ≤ 4 * (bytes.length / 4) := Nat.mul_le_mul_left 4 hfour
  rcases hwords : wordsOfBytes bytes with _ | ⟨low, _ | ⟨high, _ | ⟨length, _ | ⟨key, rest⟩⟩⟩⟩
  case cons.cons.cons.cons =>
    refine ⟨ofWords low high length key, by rw [decode, hwords], ?_⟩
    have hsplit : bytesOfWords [low, high, length, key] ++ bytesOfWords rest =
        bytes.take (4 * (bytes.length / 4)) := by
      rw [← hbytes, hwords]
      rfl
    calc (ofWords low high length key).encode
      _ = bytesOfWords [low, high, length, key] := by rw [encode, toWords_ofWords]
      _ = (bytesOfWords [low, high, length, key] ++ bytesOfWords rest).take wireLength :=
        (List.take_left' rfl).symm
      _ = bytes.take wireLength := by
        rw [hsplit, List.take_take, Nat.min_eq_left hroom]
  -- Fewer than four words are fewer than sixteen bytes.
  all_goals
    rw [hwords] at hlength
    simp only [List.length_cons, List.length_nil] at hlength
    omega

structure RoundTrips (metadata : Metadata) : Prop where
  bytes : decode metadata.encode = .ok metadata
  words : ∃ low high length key, metadata.toWords = [low, high, length, key] ∧
    ofWords low high length key = metadata ∧ metadata.address.toNat = low.toNat + 2 ^ 32 * high.toNat

/--
Whether bytes are read as the advertisement that they start with. Only too few of them are refused.
-/
structure Reads (bytes : List UInt8) : Prop where
  fails : (∃ cause, decode bytes = .error (.protocol cause)) ↔ bytes.length < wireLength
  reads : wireLength ≤ bytes.length →
    ∃ metadata, decode bytes = .ok metadata ∧ metadata.encode = bytes.take wireLength

theorem roundTrips (metadata : Metadata) : metadata.RoundTrips where
  bytes := decode_encode metadata
  words := ⟨_, _, _, _, rfl, ofWords_toWords metadata, toNat_address metadata⟩

theorem reads (bytes : List UInt8) : Reads bytes where
  fails := by
    refine ⟨fun ⟨cause, herror⟩ => Nat.lt_of_not_le fun hlong => ?_, fun hshort => ⟨_, decode_of_short hshort⟩⟩
    obtain ⟨metadata, hok, -⟩ := decode_of_long hlong
    rw [herror] at hok
    contradiction
  reads := decode_of_long

end Metadata

end RemoteSlots
