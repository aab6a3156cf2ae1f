import Mathlib.Tactic.IntervalCases
import RemoteSlots.Addressing

/-!
This module contains the proof that different keys have different checksums. The register of the code
is shifted by a linear map without kernel, and feeding the four bytes of a word one by one comes to the
same as adding the whole word and shifting 32 times.
-/

namespace RemoteSlots

namespace Crc32

theorem shift_toBitVec (a : UInt32) :
    (shift a).toBitVec =
      a.toBitVec >>> 1 ^^^ (if a.toBitVec.getLsbD 0 then polynomial.toBitVec else 0#32) := by
  have hlow : (a &&& 1 = 1) ↔ a.toBitVec.getLsbD 0 = true := by
    rw [← UInt32.toBitVec_inj, UInt32.toBitVec_and]
    change a.toBitVec &&& 1#32 = 1#32 ↔ _
    rw [BitVec.and_one_eq_setWidth_ofBool_getLsbD]
    cases a.toBitVec.getLsbD 0 <;> decide
  unfold shift
  by_cases h : a.toBitVec.getLsbD 0
  · rw [if_pos (hlow.2 h), if_pos h]
    simp
  · rw [if_neg (fun h' => h (hlow.1 h')), if_neg h]
    simp

theorem shift_xor (a b : UInt32) : shift (a ^^^ b) = shift a ^^^ shift b := by
  apply UInt32.toBitVec_inj.1
  simp only [shift_toBitVec, UInt32.toBitVec_xor, BitVec.getLsbD_xor, BitVec.ushiftRight_xor_distrib]
  ext i
  cases a.toBitVec.getLsbD 0 <;> cases b.toBitVec.getLsbD 0 <;> simp <;> grind

theorem shifts_xor (n : Nat) (a b : UInt32) : shifts n (a ^^^ b) = shifts n a ^^^ shifts n b := by
  induction n generalizing a b with
  | zero => rfl
  | succ n ih => rw [shifts, shifts, shifts, shift_xor, ih]

-- The highest bit of the polynomial tells whether a bit fell out.
theorem eq_zero_of_shift_eq_zero {a : UInt32} (h : shift a = 0) : a = 0 := by
  have hbits : ∀ i, (shift a).toBitVec.getLsbD i = false := by
    intro i
    rw [h]
    simp
  have hlow : a.toBitVec.getLsbD 0 = false := by
    have htop := hbits 31
    rw [shift_toBitVec] at htop
    cases hb : a.toBitVec.getLsbD 0 with
    | false => rfl
    | true => simp [hb, polynomial] at htop
  apply UInt32.toBitVec_inj.1
  apply BitVec.eq_of_getLsbD_eq
  intro i hi
  cases i with
  | zero => simpa using hlow
  | succ i =>
    have hi := hbits i
    rw [shift_toBitVec, hlow] at hi
    simpa [Nat.add_comm] using hi

theorem eq_zero_of_shifts_eq_zero {n : Nat} {a : UInt32} (h : shifts n a = 0) : a = 0 := by
  induction n generalizing a with
  | zero => exact h
  | succ n ih => exact eq_zero_of_shift_eq_zero (ih h)

theorem shifts_inj {n : Nat} {a b : UInt32} : shifts n a = shifts n b ↔ a = b := by
  constructor
  · intro h
    have hzero : shifts n (a ^^^ b) = 0 := by rw [shifts_xor, h, UInt32.xor_self]
    exact UInt32.xor_eq_zero_iff.1 (eq_zero_of_shifts_eq_zero hzero)
  · rintro rfl
    rfl

theorem shifts_add (m n : Nat) (a : UInt32) : shifts (m + n) a = shifts n (shifts m a) := by
  induction m generalizing a with
  | zero => rw [Nat.zero_add, shifts]
  | succ m ih => rw [Nat.succ_add, shifts, shifts, ih]

-- What lies above the bits that fall out only moves down.
theorem shift_of_low_eq_false {a : UInt32} (h : a.toBitVec.getLsbD 0 = false) :
    (shift a).toBitVec = a.toBitVec >>> 1 := by
  rw [shift_toBitVec, h]
  simp

theorem shifts_shiftLeft {n : Nat} (hn : n ≤ 24) (byte : UInt8) (a : UInt32)
    (ha : a.toBitVec = byte.toBitVec.setWidth 32 <<< n) : shifts n a = byte.toUInt32 := by
  induction n generalizing a with
  | zero =>
    apply UInt32.toBitVec_inj.1
    simpa [shifts] using ha
  | succ n ih =>
    rw [shifts]
    apply ih (by omega)
    rw [shift_of_low_eq_false (by rw [ha]; simp), ha]
    apply BitVec.eq_of_getLsbD_eq
    intro i hi
    simp only [BitVec.getLsbD_ushiftRight, BitVec.getLsbD_shiftLeft, BitVec.getLsbD_setWidth]
    by_cases h : i < n
    · simp [h, show 1 + i < n + 1 by omega]
    · have hsub : 1 + i - (n + 1) = i - n := by omega
      by_cases h32 : 1 + i < 32
      · simp [h, hi, h32, hsub, show ¬1 + i < n + 1 by omega]
      · have : byte.toBitVec.getLsbD (i - n) = false := BitVec.getLsbD_of_ge _ _ (by omega)
        simp [h32, this]

theorem feed_shifts {n : UInt32} (hn : n.toNat ≤ 24) (a : UInt32) (byte : UInt8) :
    feed (shifts n.toNat a) byte = shifts (n.toNat + 8) (a ^^^ byte.toUInt32 <<< n) := by
  have hplace : (byte.toUInt32 <<< n).toBitVec = byte.toBitVec.setWidth 32 <<< n.toNat := by
    rw [UInt32.toBitVec_shiftLeft, UInt8.toBitVec_toUInt32, BitVec.shiftLeft_eq', BitVec.toNat_umod]
    congr 1
    apply Nat.mod_eq_of_lt
    change n.toNat < 32
    omega
  rw [feed, shifts_add, shifts_xor n.toNat, shifts_shiftLeft hn byte _ hplace]

end Crc32

-- A word is the sum of its bytes, each at its place.
theorem word_eq_xor_bytes (word : UInt32) :
    word = word.toUInt8.toUInt32 ^^^ (word >>> 8).toUInt8.toUInt32 <<< 8 ^^^
      (word >>> 16).toUInt8.toUInt32 <<< 16 ^^^ (word >>> 24).toUInt8.toUInt32 <<< 24 := by
  apply UInt32.toBitVec_inj.1
  apply BitVec.eq_of_getLsbD_eq
  intro i hi
  simp only [UInt32.toBitVec_xor, UInt32.toBitVec_shiftLeft, UInt32.toBitVec_shiftRight,
    UInt8.toBitVec_toUInt32, UInt32.toBitVec_toUInt8, BitVec.getLsbD_xor]
  interval_cases i <;> simp [-BitVec.setWidth_setWidth]

theorem crc32_wordBytes (word : UInt32) :
    crc32 (wordBytes word) = Crc32.shifts 32 (0xFFFFFFFF ^^^ word) ^^^ 0xFFFFFFFF := by
  have first (byte : UInt8) :
      Crc32.feed 0xFFFFFFFF byte = Crc32.shifts 8 (0xFFFFFFFF ^^^ byte.toUInt32) := rfl
  have second (a : UInt32) (byte : UInt8) :
      Crc32.feed (Crc32.shifts 8 a) byte = Crc32.shifts 16 (a ^^^ byte.toUInt32 <<< 8) :=
    Crc32.feed_shifts (n := 8) (by decide) a byte
  have third (a : UInt32) (byte : UInt8) :
      Crc32.feed (Crc32.shifts 16 a) byte = Crc32.shifts 24 (a ^^^ byte.toUInt32 <<< 16) :=
    Crc32.feed_shifts (n := 16) (by decide) a byte
  have fourth (a : UInt32) (byte : UInt8) :
      Crc32.feed (Crc32.shifts 24 a) byte = Crc32.shifts 32 (a ^^^ byte.toUInt32 <<< 24) :=
    Crc32.feed_shifts (n := 24) (by decide) a byte
  simp only [crc32, Crc32.register, wordBytes, List.foldl_cons, List.foldl_nil]
  rw [first, second, third, fourth]
  conv => rhs; rw [word_eq_xor_bytes word]
  simp only [UInt32.xor_assoc]

theorem keyChecksum_inj {a b : UInt32} : keyChecksum a = keyChecksum b ↔ a = b := by
  unfold keyChecksum
  rw [crc32_wordBytes, crc32_wordBytes, UInt32.xor_left_inj, Crc32.shifts_inj, UInt32.xor_right_inj]

end RemoteSlots
