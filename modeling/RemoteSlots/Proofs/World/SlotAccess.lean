import Mathlib.Algebra.Group.Nat.Defs
import RemoteSlots.Proofs.Initiation.Exclusive
import RemoteSlots.Proofs.Slot.Placement
import RemoteSlots.Proofs.World.Housing
import RemoteSlots.Proofs.World.Isolation

/-!
This module shows that a store and the peer of its connection see the same slots: a slot that the peer writes at its
address is the slot that the store puts at its index, and both stop at the last slot.
-/

namespace RemoteSlots

theorem Stage.key_metadata (region : Region) : (metadata region).key = region.keys.localKey := rfl

theorem Active.IsUp.modifyLink {active : Active} {net : Loopback} (h : active.IsUp net) (id : ConnectionId)
    {f : Link → Link} (hf : ∀ link : Link, link.SameAccess (f link)) : active.IsUp (net.modifyLink id f) where
  listener := h.listener
  link := by
    obtain ⟨link, hlink, hopen, hregions⟩ := h.link
    obtain ⟨link', hlink', hsame⟩ := Loopback.sameAccess_of_modifyLink hlink hf
    exact ⟨link', hlink', hsame.serverClosed.trans hopen, hsame.regions.trans hregions⟩

namespace World

variable {w : World} {s : StoreId} {store : Store} {active : Active}

structure Serves (w : World) (store : Store) (active : Active) : Prop where
  ready : store.active = some active
  storage : IsStorage w.memory store active.region.toExtent
  up : active.IsUp w.net

theorem Reachable.serves (h : w.Reachable) (hstore : w.stores[s]? = some store) (hfabric : store.fabric = .loopback)
    (hactive : store.active = some active) : w.Serves store active where
  ready := hactive
  storage := h.housed.stores s store active hstore hactive
  up := Active.isUp_of_isFirm (h.firm.stores s store active hstore hfabric hactive).1

structure HasTaken (w w' : World) (store : Store) (active : Active) (index : UInt64) (slot : Slot store.layout) :
    Prop where
  taken : w'.getSlot store store.layout index.toNat = .ok (some slot)
  words : w'.readSlot active.endpoint.handle (Stage.metadata active.region) index store.layout.size =
    .ok slot.toWords
  others : ∀ other, other ≠ index.toNat →
    w'.getSlot store store.layout other = w.getSlot store store.layout other

/--
Whether a store and its peer do the same at an index, as far as it is one.
-/
structure AccessAgrees (w : World) (store : Store) (active : Active) (index : UInt64) (slot : Slot store.layout) :
    Prop where
  inside : index.toNat < store.config.capacity → ∃ ours theirs : World,
    w.putSlot store index.toNat slot = .ok ours ∧
      w.writeSlot active.endpoint.handle (Stage.metadata active.region) index store.layout.size slot.toWords =
        (.ok (), theirs) ∧
      theirs.memory = ours.memory ∧ w.HasTaken ours store active index slot ∧
      w.HasTaken theirs store active index slot
  outside : store.config.capacity ≤ index.toNat →
    w.putSlot store index.toNat slot = .error (.indexOutOfRange index.toNat store.config.capacity) ∧
      ∃ refusal theirs,
        w.writeSlot active.endpoint.handle (Stage.metadata active.region) index store.layout.size slot.toWords =
          (.error (.remoteAccess refusal), theirs) ∧
        theirs.memory = w.memory

namespace Serves

variable {w' : World} {index : UInt64} {slot : Slot store.layout}

def slots (store : Store) (active : Active) : Storage store.layout :=
  { capacity := store.config.capacity, block := active.region.block }

theorem fills (h : w.Serves store active) : (slots store active).Fills active.region.toExtent where
  block := rfl
  length := h.storage.length

theorem storage_eq (h : w.Serves store active) : store.storage store.layout = .ok (slots store active) :=
  storage_of_active h.ready store.layout

theorem getSlot_eq (h : w.Serves store active) (w' : World) (i : Nat) :
    w'.getSlot store store.layout i = .ok ((slots store active).get? w'.memory i) := by
  unfold getSlot
  rw [h.storage_eq]
  rfl

theorem putSlot_eq (h : w.Serves store active) (i : Nat) (slot : Slot store.layout) :
    w.putSlot store i slot = ((slots store active).put w.memory i slot).map fun memory => { w with memory } := by
  unfold putSlot
  rw [h.storage_eq]
  rfl

theorem slotAddress_eq {region : Region} (layout : Layout)
    (hindex : region.address + index.toNat * layout.size < 2 ^ 64) :
    ((Stage.metadata region).slotAddress index layout.size).toNat = region.address + index.toNat * layout.size := by
  have hsize : layout.size < 2 ^ 64 := by cases layout <;> decide
  have haddress : region.address < 2 ^ 64 := by omega
  simp only [Metadata.slotAddress, Stage.metadata, UInt64.toNat_add, UInt64.toNat_mul, UInt64.toNat_ofNat',
    Nat.mod_eq_of_lt hsize, Nat.mod_eq_of_lt haddress]
  rw [Nat.mod_eq_of_lt (a := index.toNat * layout.size) (by omega), Nat.mod_eq_of_lt hindex]

theorem covers_iff (h : w.Serves store active) (i : Nat) (access : Access) (key : UInt32) :
    Registration.covers ⟨active.region.toExtent, key, access⟩ (active.region.address + i * store.layout.size)
        (4 * store.layout.words) ↔
      i < store.config.capacity := by
  have haligned := h.storage.houses.aligned
  have hlength : active.region.length = store.config.capacity * store.layout.size := h.storage.length
  have hend : (i + 1) * store.layout.size ≤ store.config.capacity * store.layout.size ↔ i < store.config.capacity :=
    Nat.mul_le_mul_right_iff store.layout.size_pos
  have hword : (active.region.address + i * store.layout.size) % 4 = 0 := by
    rw [Layout.size, Nat.mul_left_comm, Nat.add_mul_mod_self_left]
    exact haligned
  have hsize : 4 * store.layout.words = store.layout.size := rfl
  rw [Nat.succ_mul] at hend
  simp only [Registration.covers, Bool.and_eq_true, decide_eq_true_eq, hlength, hword, hsize, and_true]
  rw [Nat.add_assoc, Nat.add_le_add_iff_left, hend]
  exact ⟨fun h => h.2, fun h => ⟨Nat.le_add_right _ _, h⟩⟩

theorem target_slot (h : w.Serves store active)
    (hindex : active.region.address + index.toNat * store.layout.size < 2 ^ 64) (granted : Access → Bool)
    (hgranted : granted .full) :
    ∃ link, w.net.links[active.endpoint.handle]? = some link ∧
      (index.toNat < store.config.capacity →
        Loopback.target link ((Stage.metadata active.region).slotAddress index store.layout.size)
            active.region.keys.localKey store.layout.words (4 * store.layout.words) granted =
          .ok ⟨active.region.toExtent, active.region.keys.localKey, .full⟩) ∧
      (store.config.capacity ≤ index.toNat →
        ∃ refusal, Loopback.target link ((Stage.metadata active.region).slotAddress index store.layout.size)
            active.region.keys.localKey store.layout.words (4 * store.layout.words) granted =
          .error (.remoteAccess refusal)) := by
  obtain ⟨link, hlink, hopen, hregions⟩ := h.up.link
  have hfind : link.regions.find? (·.key = active.region.keys.localKey) =
      some ⟨active.region.toExtent, active.region.keys.localKey, .full⟩ := by
    rw [hregions]
    simp
  have hcovers := h.covers_iff index.toNat .full active.region.keys.localKey
  rw [← slotAddress_eq store.layout hindex] at hcovers
  refine ⟨link, hlink, fun hlt => ?_, fun hle => ?_⟩
  · exact Loopback.target_eq_ok_iff.mpr ⟨hopen, hfind, hgranted, hcovers.mpr hlt⟩
  · rcases htarget : Loopback.target link ((Stage.metadata active.region).slotAddress index store.layout.size)
        active.region.keys.localKey store.layout.words (4 * store.layout.words) granted with failure | region
    · obtain ⟨refusal, rfl⟩ := Loopback.target_eq_error htarget
      exact ⟨refusal, rfl⟩
    · obtain ⟨-, hregion, -, hcovered⟩ := Loopback.target_eq_ok_iff.mp htarget
      rw [hfind] at hregion
      injection hregion with hregion
      subst hregion
      exact absurd (hcovers.mp hcovered) (Nat.not_lt.mpr hle)

theorem words_exact (layout : Layout) :
    (UInt64.ofNat layout.words).toNat = layout.words ∧ (4 * UInt64.ofNat layout.words).toNat = 4 * layout.words ∧
      4 * layout.words < addressLimit := by
  cases layout <;> decide

theorem readSlot_eq (h : w.Serves store active)
    (hindex : active.region.address + index.toNat * store.layout.size < 2 ^ 64)
    (hslot : (slots store active).get? w.memory index.toNat = some slot) :
    w.readSlot active.endpoint.handle (Stage.metadata active.region) index store.layout.size = .ok slot.toWords := by
  have hlt : index.toNat < store.config.capacity := Storage.index_lt_of_get? hslot
  obtain ⟨link, hlink, hinside, -⟩ := h.target_slot hindex (·.remoteRead) rfl
  have hcount : store.layout.size / 4 = store.layout.words := Nat.mul_div_cancel_left _ (by omega)
  have hload := h.fills.loadAt_slot h.storage.houses.toBacks hslot
  rw [← slotAddress_eq store.layout hindex] at hload
  obtain ⟨hwords, hbytes, hroom⟩ := words_exact store.layout
  simp only [readSlot, World.read, Loopback.read, hlink, hcount, hwords, hbytes, if_pos hroom]
  rw [Stage.key_metadata, hinside hlt]
  exact congrArg Except.ok hload

theorem writeSlot_eq (h : w.Serves store active)
    (hindex : active.region.address + index.toNat * store.layout.size < 2 ^ 64)
    (hlt : index.toNat < store.config.capacity) (slot : Slot store.layout) :
    ∃ memory, (slots store active).put w.memory index.toNat slot = .ok memory ∧
      w.writeSlot active.endpoint.handle (Stage.metadata active.region) index store.layout.size slot.toWords =
        (.ok (), { w with
          memory
          net := w.net.modifyLink active.endpoint.handle fun link => { link with psn := link.psn + 1 } }) := by
  obtain ⟨link, hlink, hinside, -⟩ := h.target_slot hindex (·.remoteWrite) rfl
  refine ⟨_, h.fills.storeAt_slot h.storage.houses.toBacks hlt slot, ?_⟩
  simp only [writeSlot, World.write, Loopback.write, hlink, Slot.length_toWords]
  rw [Stage.key_metadata, hinside hlt,
    slotAddress_eq store.layout hindex]

theorem writeSlot_refused (h : w.Serves store active)
    (hindex : active.region.address + index.toNat * store.layout.size < 2 ^ 64)
    (hle : store.config.capacity ≤ index.toNat) (slot : Slot store.layout) :
    ∃ refusal theirs,
      w.writeSlot active.endpoint.handle (Stage.metadata active.region) index store.layout.size slot.toWords =
        (.error (.remoteAccess refusal), theirs) ∧
      theirs.memory = w.memory := by
  obtain ⟨link, hlink, -, houtside⟩ := h.target_slot hindex (·.remoteWrite) rfl
  obtain ⟨refusal, hrefused⟩ := houtside hle
  refine ⟨refusal, ?_⟩
  simp only [writeSlot, World.write, Loopback.write, hlink, Slot.length_toWords]
  rw [Stage.key_metadata, hrefused]
  exact ⟨_, rfl, rfl⟩

theorem taken (h : w.Serves store active) (h' : w'.Serves store active)
    (hindex : active.region.address + index.toNat * store.layout.size < 2 ^ 64)
    (hput : (slots store active).put w.memory index.toNat slot = .ok w'.memory) :
    w.HasTaken w' store active index slot := by
  have hget : ∀ other, (slots store active).get? w'.memory other =
      if other = index.toNat then some slot else (slots store active).get? w.memory other :=
    fun _ => Storage.get?_put (h.fills.fits h.storage.houses.toBacks) hput
  have hslot : (slots store active).get? w'.memory index.toNat = some slot := by
    rw [hget, if_pos rfl]
  refine ⟨?_, h'.readSlot_eq hindex hslot, fun other hne => ?_⟩
  · rw [h.getSlot_eq, hslot]
  · rw [h.getSlot_eq, h.getSlot_eq, hget, if_neg hne]

theorem keeps (h : w.Serves store active) (hkeeps : w.memory.Keeps w'.memory) (hup : active.IsUp w'.net) :
    w'.Serves store active where
  ready := h.ready
  storage := h.storage.keeps hkeeps ⟨rfl, rfl, rfl⟩
  up := hup

theorem put (h : w.Serves store active) {i : Nat} {memory : Memory}
    (hput : (slots store active).put w.memory i slot = .ok memory) : Serves { w with memory } store active := by
  refine h.keeps ?_ h.up
  unfold Storage.put at hput
  split at hput
  · injection hput with hput
    subst hput
    exact .store _ _ _ _
  · contradiction

theorem write (h : w.Serves store active) {i : Nat} {memory : Memory}
    (hput : (slots store active).put w.memory i slot = .ok memory) :
    Serves { w with
      memory
      net := w.net.modifyLink active.endpoint.handle fun link => { link with psn := link.psn + 1 } }
      store active :=
  (h.put hput).keeps (.refl _) (h.up.modifyLink _ fun _ => ⟨rfl, rfl⟩)

end Serves

theorem slot_access_agrees (h : w.Reachable) (hstore : w.stores[s]? = some store)
    (hfabric : store.fabric = .loopback) (hactive : store.active = some active) {index : UInt64}
    (hindex : active.region.address + index.toNat * store.layout.size < 2 ^ 64) (slot : Slot store.layout) :
    w.AccessAgrees store active index slot := by
  have hserves := h.serves hstore hfabric hactive
  constructor
  · intro hlt
    obtain ⟨memory, hput, hwrite⟩ := hserves.writeSlot_eq hindex hlt slot
    refine ⟨{ w with memory }, _, ?_, hwrite, rfl, ?_, ?_⟩
    · rw [hserves.putSlot_eq, hput]
      rfl
    · exact hserves.taken (hserves.put hput) hindex hput
    · exact hserves.taken (hserves.write hput) hindex hput
  · intro hle
    have hput : (Serves.slots store active).put w.memory index.toNat slot =
        .error (.indexOutOfRange index.toNat store.config.capacity) := if_neg (Nat.not_lt.mpr hle)
    refine ⟨?_, hserves.writeSlot_refused hindex hle slot⟩
    rw [hserves.putSlot_eq, hput]
    rfl

set_option maxRecDepth 10000 in
theorem slot_access_agrees_last :
    let w := (initial (.above 4096 4096) .zero).after sampleNeighbours
    ∃ store, w.Reachable ∧ w.stores[1]? = some store ∧ store.fabric = .loopback ∧
      store.active = some sampleActive ∧ (15 : UInt64).toNat < store.config.capacity ∧
      sampleActive.region.address + (15 : UInt64).toNat * store.layout.size < 2 ^ 64 ∧
      w.AccessAgrees store sampleActive 15 (Slot.load [7, 7]) := by
  intro w
  have hreach : w.Reachable := ⟨.above 4096 4096, .zero, sampleNeighbours, rfl⟩
  obtain ⟨store, hstore, hfabric, hactive, hlast, hindex⟩ : ∃ store, w.stores[1]? = some store ∧
      store.fabric = .loopback ∧ store.active = some sampleActive ∧ (15 : UInt64).toNat < store.config.capacity ∧
      sampleActive.region.address + (15 : UInt64).toNat * store.layout.size < 2 ^ 64 :=
    ⟨_, rfl, rfl, rfl, by decide, by decide⟩
  exact ⟨store, hreach, hstore, hfabric, hactive, hlast, hindex,
    slot_access_agrees hreach hstore hfabric hactive hindex _⟩

end World

end RemoteSlots
