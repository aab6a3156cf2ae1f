import RemoteSlots.Proofs.Store.Lookup

/-!
This module contains what lookups make of slots that are not occupied. Such a slot carries the checksum zero,
and exactly one key has this checksum. Lookups of all other keys pass unoccupied slots by. A lookup of this key
stops at the first one, unless it comes to an entry of the key before.
-/

namespace RemoteSlots

def unmarkedKey : UInt32 := 0x6DD90A9D

theorem keyChecksum_eq_zero_iff {key : UInt32} : keyChecksum key = 0 ↔ key = unmarkedKey := by
  have hzero : keyChecksum unmarkedKey = 0 := by decide +kernel
  rw [← hzero, keyChecksum_inj]

theorem Slot.isEmpty_iff_checksum {slot : Slot .keyValue} :
    slot.isEmpty ↔ slot.checksum = 0 ∧ slot.value = 0 := by
  have hwords : slot.toWords = [slot.checksum, slot.value] := by
    obtain ⟨words⟩ := slot
    apply List.ext_getElem
    · exact length_toWords _
    · intro i _ hi
      match i, hi with
      | 0, _ => rfl
      | 1, _ => rfl
  unfold isEmpty
  rw [hwords]
  simp [Layout.live]

theorem findSome?_range_eq_some_iff {f : Nat → Option α} {count : Nat} {a : α} :
    (List.range count).findSome? f = some a ↔ ∃ n, n < count ∧ f n = some a ∧ ∀ m, m < n → f m = none := by
  induction count with
  | zero => simp
  | succ count ih =>
    rw [List.range_succ, List.findSome?_append, Option.or_eq_some_iff, ih]
    simp only [List.findSome?_eq_none_iff, List.mem_range, List.findSome?_singleton]
    constructor
    · rintro (⟨n, hn, hfound, hbefore⟩ | ⟨hbefore, hfound⟩)
      · exact ⟨n, Nat.lt_succ_of_lt hn, hfound, hbefore⟩
      · exact ⟨count, Nat.lt_succ_self _, hfound, hbefore⟩
    · rintro ⟨n, hn, hfound, hbefore⟩
      rcases Nat.lt_succ_iff_lt_or_eq.mp hn with hlt | rfl
      · exact .inl ⟨n, hlt, hfound, hbefore⟩
      · exact .inr ⟨hbefore, hfound⟩

namespace Storage

variable {memory : Memory} {storage : Storage .keyValue} {key : UInt32} {redundancy : UInt8}

def candidate? (memory : Memory) (storage : Storage .keyValue) (key : UInt32) (n : UInt8) :
    Option (Slot .keyValue) :=
  storage.get? memory (probeIndex key n storage.capacity)

def IsUnoccupied (memory : Memory) (storage : Storage .keyValue) (key : UInt32) (n : UInt8) : Prop :=
  ∃ slot, storage.candidate? memory key n = some slot ∧ slot.isEmpty

def HasEntry (memory : Memory) (storage : Storage .keyValue) (key : UInt32) (n : UInt8) (value : UInt32) : Prop :=
  ∃ slot, storage.candidate? memory key n = some slot ∧ ¬slot.isEmpty ∧ slot.checksum = keyChecksum key ∧
    slot.value = value

def sees? (memory : Memory) (storage : Storage .keyValue) (key : UInt32) (n : UInt8) : Option (Nat × UInt32) :=
  storage.valueAt? memory (keyChecksum key) (probeIndex key n storage.capacity)

theorem exists_candidate (hcapacity : 0 < storage.capacity) (memory : Memory) (key : UInt32) (n : UInt8) :
    ∃ slot, storage.candidate? memory key n = some slot := by
  unfold candidate? get?
  rw [if_pos (probeIndex_lt key n hcapacity)]
  exact ⟨_, rfl⟩

theorem sees?_of_candidate {n : UInt8} {slot : Slot .keyValue}
    (hslot : storage.candidate? memory key n = some slot) :
    storage.sees? memory key n =
      if slot.checksum = keyChecksum key then some (probeIndex key n storage.capacity, slot.value) else none := by
  unfold candidate? at hslot
  unfold sees? valueAt?
  rw [hslot]

theorem sees?_of_hasEntry {n : UInt8} {value : UInt32} (h : storage.HasEntry memory key n value) :
    storage.sees? memory key n = some (probeIndex key n storage.capacity, value) := by
  obtain ⟨slot, hslot, -, hchecksum, rfl⟩ := h
  rw [sees?_of_candidate hslot, if_pos hchecksum]

theorem sees?_of_isUnoccupied {n : UInt8} (h : storage.IsUnoccupied memory key n) :
    storage.sees? memory key n =
      if key = unmarkedKey then some (probeIndex key n storage.capacity, 0) else none := by
  obtain ⟨slot, hslot, hempty⟩ := h
  obtain ⟨hchecksum, hvalue⟩ := Slot.isEmpty_iff_checksum.mp hempty
  rw [sees?_of_candidate hslot, hchecksum, hvalue]
  simp only [eq_comm (a := (0 : UInt32)), keyChecksum_eq_zero_iff]

theorem sees?_cases (hcapacity : 0 < storage.capacity) (memory : Memory) (key : UInt32) (n : UInt8) :
    storage.IsUnoccupied memory key n ∨ (∃ value, storage.HasEntry memory key n value) ∨
      storage.sees? memory key n = none := by
  obtain ⟨slot, hslot⟩ := exists_candidate hcapacity memory key n
  by_cases hempty : slot.isEmpty
  · exact .inl ⟨slot, hslot, hempty⟩
  · by_cases hchecksum : slot.checksum = keyChecksum key
    · exact .inr (.inl ⟨slot.value, slot, hslot, hempty, hchecksum, rfl⟩)
    · rw [sees?_of_candidate hslot, if_neg hchecksum]
      exact .inr (.inr rfl)

theorem locate_eq_findSome? (memory : Memory) (storage : Storage .keyValue) (key : UInt32) (redundancy : UInt8) :
    storage.locate memory key redundancy =
      (List.range redundancy.toNat).findSome? fun n => storage.sees? memory key (UInt8.ofNat n) := by
  unfold locate probeSequence probes
  rw [List.map_map, List.findSome?_map]
  rfl

theorem locate_eq_some_iff {found : Nat × UInt32} :
    storage.locate memory key redundancy = some found ↔
      ∃ n, n < redundancy ∧ storage.sees? memory key n = some found ∧
        ∀ m, m < n → storage.sees? memory key m = none := by
  rw [locate_eq_findSome?, findSome?_range_eq_some_iff]
  simp only [UInt8.lt_iff_toNat_lt]
  constructor
  · rintro ⟨n, hn, hfound, hbefore⟩
    have hround : (UInt8.ofNat n).toNat = n := by
      simp [Nat.mod_eq_of_lt (Nat.lt_trans hn redundancy.toNat_lt)]
    refine ⟨UInt8.ofNat n, by rwa [hround], hfound, fun m hm => ?_⟩
    rw [hround] at hm
    simpa using hbefore m.toNat hm
  · rintro ⟨n, hn, hfound, hbefore⟩
    refine ⟨n.toNat, hn, by simpa using hfound, fun m hm => hbefore _ ?_⟩
    simpa [Nat.mod_eq_of_lt (Nat.lt_trans hm n.toNat_lt)] using hm

theorem locate_eq_none_iff :
    storage.locate memory key redundancy = none ↔ ∀ n, n < redundancy → storage.sees? memory key n = none := by
  unfold locate probeSequence
  rw [List.findSome?_map, List.findSome?_eq_none_iff]
  simp only [mem_probes]
  rfl

/--
Whether a lookup passes unoccupied slots by: it reports none of them, it finds nothing where there is nothing
else, and none of them hides an entry of the key.
-/
structure PassesUnoccupied (memory : Memory) (storage : Storage .keyValue) (key : UInt32)
    (redundancy : UInt8) : Prop where
  reported : ∀ index value, storage.locate memory key redundancy = some (index, value) →
    ∃ slot, storage.get? memory index = some slot ∧ ¬slot.isEmpty
  missed : (∀ n, n < redundancy → storage.IsUnoccupied memory key n) →
    storage.locate memory key redundancy = none
  found : ∀ n value, n < redundancy → storage.HasEntry memory key n value →
    (∀ m other, m < n → ¬storage.HasEntry memory key m other) →
    storage.locate memory key redundancy = some (probeIndex key n storage.capacity, value)

def IsGuarded (memory : Memory) (storage : Storage .keyValue) (key : UInt32) (redundancy : UInt8) : Prop :=
  ∀ n, n < redundancy → storage.IsUnoccupied memory key n →
    ∃ m value, m < n ∧ storage.HasEntry memory key m value

theorem not_isUnoccupied_of_hasEntry {n : UInt8} {value : UInt32} (h : storage.HasEntry memory key n value) :
    ¬storage.IsUnoccupied memory key n := by
  rintro ⟨slot, hslot, hempty⟩
  obtain ⟨slot', hslot', hoccupied, -⟩ := h
  rw [hslot] at hslot'
  injection hslot' with hslot'
  exact hoccupied (hslot' ▸ hempty)

theorem PassesUnoccupied.isGuarded (hcapacity : 0 < storage.capacity)
    (h : storage.PassesUnoccupied memory unmarkedKey redundancy) :
    storage.IsGuarded memory unmarkedKey redundancy := by
  intro n hn hunoccupied
  have hsees := sees?_of_isUnoccupied hunoccupied
  rw [if_pos rfl] at hsees
  -- The lookup stops at the unoccupied candidate, or before it.
  rcases hlocate : storage.locate memory unmarkedKey redundancy with _ | ⟨index, value⟩
  · rw [locate_eq_none_iff.mp hlocate n hn] at hsees
    contradiction
  · obtain ⟨m, hm, hfound, hbefore⟩ := locate_eq_some_iff.mp hlocate
    have hle : m ≤ n := by
      by_contra hlt
      rw [hbefore n (UInt8.not_le.mp hlt)] at hsees
      contradiction
    rcases sees?_cases hcapacity memory unmarkedKey m with hempty | ⟨v, hentry⟩ | hnone
    · obtain ⟨slot, hslot, hisEmpty⟩ := hempty
      have hm := sees?_of_isUnoccupied ⟨slot, hslot, hisEmpty⟩
      rw [if_pos rfl, hfound] at hm
      obtain ⟨rfl, -⟩ := Prod.mk.inj (Option.some.inj hm)
      obtain ⟨slot', hslot', hoccupied⟩ := h.reported _ _ hlocate
      rw [show storage.get? memory (probeIndex unmarkedKey m storage.capacity) = some slot from hslot] at hslot'
      injection hslot' with hslot'
      exact absurd (hslot' ▸ hisEmpty) hoccupied
    · refine ⟨m, v, UInt8.lt_of_le_of_ne hle ?_, hentry⟩
      rintro rfl
      exact not_isUnoccupied_of_hasEntry hentry hunoccupied
    · rw [hnone] at hfound
      contradiction

theorem hasEntry_of_locate (hcapacity : 0 < storage.capacity)
    (hguarded : key = unmarkedKey → storage.IsGuarded memory key redundancy) {index : Nat} {value : UInt32}
    (h : storage.locate memory key redundancy = some (index, value)) :
    ∃ n, n < redundancy ∧ index = probeIndex key n storage.capacity ∧ storage.HasEntry memory key n value := by
  obtain ⟨n, hn, hfound, hbefore⟩ := locate_eq_some_iff.mp h
  rcases sees?_cases hcapacity memory key n with hempty | ⟨v, hentry⟩ | hnone
  · by_cases hkey : key = unmarkedKey
    · obtain ⟨m, v, hm, hentry⟩ := hguarded hkey n hn hempty
      have hsees := sees?_of_hasEntry hentry
      rw [hbefore m hm] at hsees
      contradiction
    · rw [sees?_of_isUnoccupied hempty, if_neg hkey] at hfound
      contradiction
  · rw [sees?_of_hasEntry hentry] at hfound
    obtain ⟨rfl, rfl⟩ := Prod.mk.inj (Option.some.inj hfound)
    exact ⟨n, hn, rfl, hentry⟩
  · rw [hnone] at hfound
    contradiction

theorem passesUnoccupied_iff (hcapacity : 0 < storage.capacity) (memory : Memory) (key : UInt32)
    (redundancy : UInt8) :
    storage.PassesUnoccupied memory key redundancy ↔
      (key = unmarkedKey → storage.IsGuarded memory key redundancy) := by
  constructor
  · rintro h rfl
    exact h.isGuarded hcapacity
  · intro hguarded
    refine ⟨?_, ?_, ?_⟩
    · intro index value hlocate
      obtain ⟨n, -, rfl, slot, hslot, hoccupied, -⟩ := hasEntry_of_locate hcapacity hguarded hlocate
      exact ⟨slot, hslot, hoccupied⟩
    · intro hall
      rcases hlocate : storage.locate memory key redundancy with _ | ⟨index, value⟩
      · rfl
      · obtain ⟨n, hn, -, hentry⟩ := hasEntry_of_locate hcapacity hguarded hlocate
        exact absurd (hall n hn) (not_isUnoccupied_of_hasEntry hentry)
    · intro n value hn hentry hfirst
      refine locate_eq_some_iff.mpr ⟨n, hn, sees?_of_hasEntry hentry, fun m hm => ?_⟩
      rcases sees?_cases hcapacity memory key m with hempty | ⟨v, hearlier⟩ | hnone
      · rw [sees?_of_isUnoccupied hempty, if_neg]
        intro hkey
        obtain ⟨j, v, hj, hearlier⟩ := hguarded hkey m (UInt8.lt_trans hm hn) hempty
        exact hfirst j v (UInt8.lt_trans hj hm) hearlier
      · exact absurd hearlier (hfirst m v hm)
      · exact hnone

-- The key has the candidates 5, 3 and 1 among 8 slots.
theorem passesUnoccupied_iff_front :
    ∃ memory, allocate .empty .standard .keyValue 8 = .ok ((⟨8, 0⟩ : Storage .keyValue), memory) ∧
      (⟨8, 0⟩ : Storage .keyValue).PassesUnoccupied (replay ⟨8, 0⟩ memory [.put unmarkedKey 70 0]) unmarkedKey 3 := by
  have hmemory : allocate .empty .standard .keyValue 8 = .ok ((⟨8, 0⟩ : Storage .keyValue),
      { blocks := #[.zeroed (2 ^ 46) 64 4096 .standard], mapper := default }) := by
    cbv
  refine ⟨_, hmemory, (passesUnoccupied_iff (by decide) _ unmarkedKey 3).mpr fun _ n hn hunoccupied => ?_⟩
  have hentry : (⟨8, 0⟩ : Storage .keyValue).HasEntry (replay ⟨8, 0⟩
      { blocks := #[.zeroed (2 ^ 46) 64 4096 .standard], mapper := default }
      [.put unmarkedKey 70 0]) unmarkedKey 0 70 :=
    ⟨.entry 0 70, by decide +kernel, by decide, by decide +kernel, rfl⟩
  refine ⟨0, 70, UInt8.pos_iff_ne_zero.mpr ?_, hentry⟩
  rintro rfl
  exact not_isUnoccupied_of_hasEntry hentry hunoccupied

theorem unoccupied_hides_entry :
    ∃ memory, allocate .empty .standard .keyValue 8 = .ok ((⟨8, 0⟩ : Storage .keyValue), memory) ∧
      locate memory ⟨8, 0⟩ unmarkedKey 3 = some (5, 0) ∧
      get? (replay ⟨8, 0⟩ memory [.put unmarkedKey 70 1]) ⟨8, 0⟩ (probeIndex unmarkedKey 1 8) =
        some (.entry (keyChecksum unmarkedKey) 70) ∧
      locate (replay ⟨8, 0⟩ memory [.put unmarkedKey 70 1]) ⟨8, 0⟩ unmarkedKey 3 = some (5, 0) ∧
      query (replay ⟨8, 0⟩ memory [.put unmarkedKey 70 1]) ⟨8, 0⟩ unmarkedKey 3 = 0 := by
  have hmemory : allocate .empty .standard .keyValue 8 = .ok ((⟨8, 0⟩ : Storage .keyValue),
      { blocks := #[.zeroed (2 ^ 46) 64 4096 .standard], mapper := default }) := by
    cbv
  exact ⟨_, hmemory, by decide +kernel, by decide +kernel, by decide +kernel, by decide +kernel⟩

end Storage

end RemoteSlots
