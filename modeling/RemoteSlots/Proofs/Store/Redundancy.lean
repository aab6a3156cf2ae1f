import RemoteSlots.Proofs.Store.Lookup

/-!
This module shows what redundancy is good for: a value that was written to several candidate slots is found
as long as entries of other keys leave one of them alone, and is not found any more after that.
-/

namespace RemoteSlots

namespace EntryChange

def IsForeign (key : UInt32) : EntryChange → Prop
  | put other _ _ => other ≠ key
  | clear => False

def Hits (capacity index : Nat) : EntryChange → Prop
  | put key _ n => probeIndex key n capacity = index
  | clear => False

instance (key : UInt32) : DecidablePred (IsForeign key)
  | put other _ _ => inferInstanceAs (Decidable (other ≠ key))
  | clear => inferInstanceAs (Decidable False)

instance (capacity index : Nat) : DecidablePred (Hits capacity index)
  | put key _ n => inferInstanceAs (Decidable (probeIndex key n capacity = index))
  | clear => inferInstanceAs (Decidable False)

end EntryChange

/--
The changes that write a value under a key into each of the first `redundancy` candidates.
-/
def copies (key value : UInt32) (redundancy : UInt8) : List EntryChange :=
  (probes redundancy).map (.put key value ·)

namespace Storage

variable {memory : Memory} {storage : Storage .keyValue} {key : UInt32} {index : Nat}

theorem lastWritten_puts (value : UInt32) {ns : List UInt8} {capacity : Nat}
    (h : ∃ n ∈ ns, probeIndex key n capacity = index) :
    lastWritten capacity index (ns.map (.put key value ·)) = some (key, value) := by
  induction ns using List.reverseRecOn with
  | nil => simp at h
  | append_singleton ns n ih =>
    rw [List.map_append, List.map_singleton, lastWritten_concat, lastWritten.after]
    by_cases hn : probeIndex key n capacity = index
    · rw [if_pos hn]
    · rw [if_neg hn]
      apply ih
      obtain ⟨m, hmem, hm⟩ := h
      rcases List.mem_append.mp hmem with hold | hnew
      · exact ⟨m, hold, hm⟩
      · rw [List.mem_singleton.mp hnew] at hm
        exact absurd hm hn

theorem lastWritten_copies (value : UInt32) {redundancy : UInt8} {capacity : Nat}
    (h : index ∈ probeSequence key redundancy capacity) :
    lastWritten capacity index (copies key value redundancy) = some (key, value) := by
  obtain ⟨n, hn, hindex⟩ := List.mem_map.mp h
  exact lastWritten_puts value ⟨n, hn, hindex⟩

theorem lastWritten_of_isForeign {value : UInt32} {front later : List EntryChange} {capacity : Nat}
    (hfront : lastWritten capacity index front = some (key, value))
    (hforeign : ∀ change ∈ later, change.IsForeign key) :
    ((∀ change ∈ later, ¬change.Hits capacity index) →
      lastWritten capacity index (front ++ later) = some (key, value)) ∧
    ((∃ change ∈ later, change.Hits capacity index) →
      ∃ other v, other ≠ key ∧ lastWritten capacity index (front ++ later) = some (other, v)) := by
  induction later using List.reverseRecOn with
  | nil =>
    rw [List.append_nil]
    exact ⟨fun _ => hfront, fun ⟨_, hmem, _⟩ => by contradiction⟩
  | append_singleton later change ih =>
    obtain ⟨hkept, hlost⟩ := ih fun change hmem => hforeign change (List.mem_append_left _ hmem)
    rw [← List.append_assoc, lastWritten_concat]
    have hchange := hforeign change (List.mem_append_right _ (List.mem_singleton_self _))
    cases change with
    | clear => contradiction
    | put other v n =>
      rw [lastWritten.after]
      by_cases hn : probeIndex other n capacity = index
      · rw [if_pos hn]
        refine ⟨fun hnone => absurd hn (hnone (.put other v n) (by simp)), fun _ => ?_⟩
        exact ⟨other, v, hchange, rfl⟩
      · rw [if_neg hn]
        refine ⟨fun hnone => hkept fun change hmem => hnone change (List.mem_append_left _ hmem), ?_⟩
        rintro ⟨change, hmem, hhits⟩
        rcases List.mem_append.mp hmem with hold | hnew
        · exact hlost ⟨change, hold, hhits⟩
        · rw [List.mem_singleton.mp hnew] at hhits
          exact absurd hhits hn

theorem get?_replay_of_lastWritten (hfits : storage.Fits memory) (hindex : index < storage.capacity)
    {history : List EntryChange} {value : UInt32}
    (h : lastWritten storage.capacity index history = some (key, value)) :
    storage.get? (storage.replay memory history) index = some (slotOf (some (key, value))) := by
  induction history using List.reverseRecOn with
  | nil => contradiction
  | append_singleton history change ih =>
    rw [lastWritten_concat] at h
    rw [replay_concat]
    cases change with
    | clear => contradiction
    | put other v n =>
      rw [get?_change_put (hfits.replay history) hindex]
      rw [lastWritten.after] at h
      by_cases hn : probeIndex other n storage.capacity = index
      · rw [if_pos hn] at h ⊢
        rw [h]
      · rw [if_neg hn] at h ⊢
        exact ih h

theorem valueAt?_of_lastWritten (hfits : storage.Fits memory) (hindex : index < storage.capacity)
    {history : List EntryChange} {other value : UInt32}
    (h : lastWritten storage.capacity index history = some (other, value)) :
    storage.valueAt? (storage.replay memory history) (keyChecksum key) index =
      if other = key then some (index, value) else none := by
  unfold valueAt?
  rw [get?_replay_of_lastWritten hfits hindex h]
  dsimp only
  simp only [checksum_slotOf, keyChecksum_inj]
  rfl

theorem valueAt?_of_copies (value : UInt32) (hfits : storage.Fits memory) (hcapacity : 0 < storage.capacity)
    {redundancy : UInt8} {later : List EntryChange} (hforeign : ∀ change ∈ later, change.IsForeign key)
    (hmem : index ∈ probeSequence key redundancy storage.capacity) :
    ((∀ change ∈ later, ¬change.Hits storage.capacity index) →
      storage.valueAt? (storage.replay memory (copies key value redundancy ++ later)) (keyChecksum key)
        index = some (index, value)) ∧
    ((∃ change ∈ later, change.Hits storage.capacity index) →
      storage.valueAt? (storage.replay memory (copies key value redundancy ++ later)) (keyChecksum key)
        index = none) := by
  have hindex : index < storage.capacity := by
    obtain ⟨n, -, rfl⟩ := List.mem_map.mp hmem
    exact probeIndex_lt key n hcapacity
  obtain ⟨hkept, hlost⟩ := lastWritten_of_isForeign (lastWritten_copies value hmem) hforeign
  constructor
  · intro hnone
    rw [valueAt?_of_lastWritten hfits hindex (hkept hnone), if_pos rfl]
  · intro hhit
    obtain ⟨other, v, hne, hlast⟩ := hlost hhit
    rw [valueAt?_of_lastWritten hfits hindex hlast, if_neg hne]

theorem query_of_copies (hfits : storage.Fits memory) (hcapacity : 0 < storage.capacity)
    (key value : UInt32) (redundancy : UInt8) {later : List EntryChange}
    (hforeign : ∀ change ∈ later, change.IsForeign key) :
    ((∃ index ∈ probeSequence key redundancy storage.capacity,
        ∀ change ∈ later, ¬change.Hits storage.capacity index) →
      storage.query (storage.replay memory (copies key value redundancy ++ later)) key redundancy = value) ∧
    ((∀ index ∈ probeSequence key redundancy storage.capacity,
        ∃ change ∈ later, change.Hits storage.capacity index) →
      storage.query (storage.replay memory (copies key value redundancy ++ later)) key redundancy = 0) := by
  constructor
  · rintro ⟨index, hmem, hnone⟩
    have hkept := (valueAt?_of_copies value hfits hcapacity hforeign hmem).1 hnone
    have hsome : (storage.locate (storage.replay memory (copies key value redundancy ++ later)) key
        redundancy).isSome :=
      List.findSome?_isSome_iff.mpr ⟨index, hmem, by rw [hkept]; rfl⟩
    obtain ⟨⟨found, v⟩, hlocate⟩ := Option.isSome_iff_exists.mp hsome
    obtain ⟨n, hn, rfl, hvalue⟩ := exists_probe_of_locate hlocate
    have hmem' : probeIndex key n storage.capacity ∈ probeSequence key redundancy storage.capacity :=
      List.mem_map.mpr ⟨n, mem_probes.mpr hn, rfl⟩
    obtain ⟨hkept', hlost'⟩ := valueAt?_of_copies value hfits hcapacity hforeign hmem'
    -- Only candidates that were left alone carry the checksum of the key, and all of these hold the value.
    have hv : v = value := by
      by_cases hhit : ∃ change ∈ later, change.Hits storage.capacity (probeIndex key n storage.capacity)
      · rw [hlost' hhit] at hvalue
        contradiction
      · rw [hkept' fun change hchange hhits => hhit ⟨change, hchange, hhits⟩] at hvalue
        injection hvalue with hvalue
        injection hvalue with _ hvalue
        exact hvalue.symm
    unfold query
    rw [hlocate, hv]
    rfl
  · intro hall
    have hnone : storage.locate (storage.replay memory (copies key value redundancy ++ later)) key
        redundancy = none :=
      List.findSome?_eq_none_iff.mpr fun index hmem =>
        (valueAt?_of_copies value hfits hcapacity hforeign hmem).2 (hall index hmem)
    unfold query
    rw [hnone]
    rfl

-- Key 0 has the candidates 5, 3 and 1, and an old entry of its own in slot 3. Key 16 hits slots 1 and 3, and
-- key 32 hits slot 5 at last.
theorem query_of_copies_hit_by_two_keys :
    ∃ memory, allocate .empty .standard .keyValue 8 = .ok ((⟨8, 0⟩ : Storage .keyValue), memory) ∧
      query (replay ⟨8, 0⟩ (replay ⟨8, 0⟩ memory [.put 0 9 1])
        (copies 0 5 3 ++ [.put 16 160 1, .put 16 161 2])) ⟨8, 0⟩ 0 3 = 5 ∧
      query (replay ⟨8, 0⟩ (replay ⟨8, 0⟩ memory [.put 0 9 1])
        (copies 0 5 3 ++ [.put 16 160 1, .put 16 161 2, .put 32 320 2])) ⟨8, 0⟩ 0 3 = 0 := by
  have hmemory : allocate .empty .standard .keyValue 8 = .ok ((⟨8, 0⟩ : Storage .keyValue),
      { blocks := #[.zeroed (2 ^ 46) 64 4096 .standard], mapper := default }) := by
    cbv
  refine ⟨_, hmemory, ?_, ?_⟩
  · apply (query_of_copies ((allocate_fits hmemory).replay _) (by decide) 0 5 3 (by decide)).1
    exact ⟨5, by decide +kernel, by decide +kernel⟩
  · apply (query_of_copies ((allocate_fits hmemory).replay _) (by decide) 0 5 3 (by decide)).2
    decide +kernel

end Storage

end RemoteSlots
