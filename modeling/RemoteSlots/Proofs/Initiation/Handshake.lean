import Mathlib.Algebra.Group.Nat.Defs
import RemoteSlots.Proofs.Initiation.Outcome
import RemoteSlots.Proofs.Metadata.Wire

/-!
This module shows that server and peer agree after an initiation that ended well: on the storage, on what the
fabric lets the peer reach, and on what the peer was told about it.
-/

namespace RemoteSlots

open Std

theorem Stage.metadata_exact {region : Region} (haddress : region.address < addressLimit)
    (hlength : region.length < 2 ^ 32) :
    (metadata region).address.toNat = region.address ∧ (metadata region).length.toNat = region.length :=
  ⟨UInt64.toNat_ofNat_of_lt' haddress, UInt32.toNat_ofNat_of_lt' hlength⟩

namespace World

/--
What server and peer agree on after the actions with which an initiation ended well. The message is the
metadata, unless the peer wrote over it between the two moves that put it at the front of the storage and send
it, with an address and a key that nobody had told it.
-/
structure Agrees (w : World) (id : CallId) (s : StoreId) (setup : Store) (actions : List Action)
    (active : Active) (message : List UInt8) : Prop where
  ready : ∃ store, (w.after actions).stores[s]? = some store ∧ setup.SameSetup store ∧
    store.active = some active
  accepted : ∀ k, .endpoint k ∈ w.observe (gained id) actions ↔ k = active.endpoint.handle
  delivered : w.observe (delivered id active.endpoint.handle) actions = [message]
  size : message.length = 16
  decoded : ∃ early late expired rest, actions = early ++ late ++ .step (.call id) expired :: rest ∧
    w.HasAnnounced id s active.endpoint.handle active.region early late ∧
    (w.after (early ++ late)).delivered id active.endpoint.handle (.step (.call id) expired) = [message] ∧
    ((∀ i < 4, lastPut ((w.after early).observe (landed active.endpoint.handle) late) i = none) →
      ∃ metadata, Metadata.decode message = .ok metadata ∧
        metadata.address.toNat = (w.after actions).memory.base active.region.block ∧
        metadata.length.toNat = setup.config.capacity * setup.layout.size ∧
        metadata.key = active.region.keys.localKey)
  region : active.region.address = (w.after actions).memory.base active.region.block ∧
    active.region.length = setup.config.capacity * setup.layout.size
  table : ∃ link, (w.after actions).net.links[active.endpoint.handle]? = some link ∧
    link.serverClosed = false ∧ link.regions = [⟨active.region.toExtent, active.region.keys.localKey, .full⟩]
  baseline : w.HasCaptured id s active.endpoint active.baseline actions
  words : ∀ i, lastPut (w.observe (landed active.endpoint.handle) actions) i = none →
    (w.after actions).memory.word active.region.block i = 0

variable {w : World} {id : CallId} {s : StoreId} {store : Store} {region : Region} {k : ConnectionId}
  {message : List UInt8} {front rest : List Action}

theorem HasPut.word_eq {stage : Binding → Endpoint → Stage} {put : List UInt32}
    (h : w.HasPut id s k region stage put front rest) {i : Nat} (hi : i < 4) :
    (w.after (front ++ rest)).memory.word region.block i =
      (lastPut ((w.after front).observe (landed k) rest) i).getD (put[i]?.getD 0) := by
  rw [after_append, h.words i hi, h.stored i hi]

theorem HasSent.message_eq (h : w.HasSent id s k region message front rest) :
    message.length = Metadata.wireLength ∧ ∃ early late expired,
      front = early ++ late ++ [.step (.call id) expired] ∧
      w.HasAnnounced id s k region early late ∧
      (w.after (early ++ late)).delivered id k (.step (.call id) expired) = [message] ∧
      ((∀ i < 4, lastPut ((w.after early).observe (landed k) late) i = none) →
        message = (Stage.metadata region).encode) := by
  obtain ⟨early, late, expired, hfront, hdelivered, hbacks, hmessage, hannounced⟩ := h.sends
  have hroom : 4 * 4 ≤ (w.after (early ++ late)).memory.length region.block := by
    rw [hbacks.length]
    exact h.room
  rw [Memory.load_front hroom] at hmessage
  refine ⟨?_, early, late, expired, hfront, hannounced, hdelivered, ?_⟩
  · rw [hmessage, length_bytesOfWords, List.length_map, List.length_range]
    rfl
  · intro hnone
    have hword : ∀ i < 4, (w.after (early ++ late)).memory.word region.block i =
        (Stage.metadata region).toWords[i]?.getD 0 := by
      intro i hi
      rw [hannounced.word_eq hi, hnone i hi]
      rfl
    rw [hmessage, Metadata.encode, List.range_eq_range']
    simp [List.range', hword, Metadata.toWords]

theorem initiation_agrees (h : w.Reachable) (hclaimed : w.HasClaimed id s store)
    (hshort : store.bufferSize < 2 ^ 32) {actions : List Action}
    (hrunning : (w.after actions).result? (.call id) = none) {expired : Bool}
    (hsucceeded : (w.after (actions ++ [.step (.call id) expired])).result? (.call id) = some (.ok ())) :
    ∃ active message, w.Agrees id s store (actions ++ [.step (.call id) expired]) active message := by
  obtain ⟨hw, ht⟩ := h.sound
  obtain ⟨active, message, hready, hholds⟩ := holds_of_succeeded hw ht hclaimed hrunning hsucceeded
  obtain ⟨front, rest, hactions, hsent, -⟩ := hholds.sent message _ _ rfl rfl rfl
  obtain ⟨hsize, early, late, moved, hfront, hannounced, hdelivered, hmessage⟩ := hsent.message_eq
  obtain ⟨hbacks, hlength⟩ := hholds.backs _ rfl
  obtain ⟨link, hlink, hclosed, hregions, -⟩ := hholds.link _ rfl
  refine ⟨active, message, hready, ?_, ?_, hsize, ?_, ⟨hbacks.base.symm, hlength⟩,
    ⟨link, hlink, hclosed, hregions⟩, hholds.captured _ _ rfl rfl, ?_⟩
  · intro k
    rw [hholds.own]
    exact ⟨fun heq => (Option.some.inj heq).symm, fun heq => congrArg some heq.symm⟩
  · rw [hactions]
    exact hsent.delivered
  · refine ⟨early, late, moved, rest, ?_, hannounced, hdelivered, ?_⟩
    · rw [hactions, hfront, List.append_assoc]
      rfl
    · intro hnone
      -- The region has room for the metadata and ends within the address space.
      have haddress : active.region.address < addressLimit := by
        have hbound : active.region.address + active.region.length ≤ addressLimit := hbacks.bound
        have hroom : 16 ≤ active.region.length := hsent.room
        omega
      obtain ⟨hexact, hexact'⟩ := Stage.metadata_exact haddress (hlength ▸ hshort)
      refine ⟨Stage.metadata active.region, ?_, ?_, ?_, rfl⟩
      · rw [hmessage hnone]
        exact Metadata.decode_encode _
      · rw [hexact, hbacks.base]
      · rw [hexact', hlength]
        rfl
  · exact hholds.words _ _ rfl rfl

set_option maxRecDepth 10000 in
theorem initiation_agrees_early_write :
    let actions := sampleMoves 3 ++ [.connect 7000] ++ sampleMoves 10 ++ [.write 2 0 4136 4 [7, 7]] ++
      sampleMoves 7
    sample.Reachable ∧ sample.HasClaimed 2 1 sampleStore ∧ sampleStore.bufferSize < 2 ^ 32 ∧
      (sample.after actions).result? (.call 2) = none ∧
      (sample.after (actions ++ [.step (.call 2) false])).result? (.call 2) = some (.ok ()) ∧
      ∃ active message, sample.Agrees 2 1 sampleStore (actions ++ [.step (.call 2) false]) active message := by
  intro actions
  have hshort : sampleStore.bufferSize < 2 ^ 32 := by decide
  have hrunning : (sample.after actions).result? (.call 2) = none := by rfl
  have hsucceeded : (sample.after (actions ++ [.step (.call 2) false])).result? (.call 2) = some (.ok ()) := by
    rfl
  exact ⟨reachable_sample, hasClaimed_sample, hshort, hrunning, hsucceeded,
    initiation_agrees reachable_sample hasClaimed_sample hshort hrunning hsucceeded⟩

set_option maxRecDepth 10000 in
theorem message_of_overwritten_metadata :
    let early := sampleMoves 3 ++ [.connect 7000] ++ sampleMoves 9
    let actions := early ++ [.write 2 0 4096 4 [7, 0]] ++ sampleMoves 8
    let ended := sample.after (actions ++ [.step (.call 2) false])
    sample.Reachable ∧ sample.HasClaimed 2 1 sampleStore ∧ sampleStore.bufferSize < 2 ^ 32 ∧
      (sample.after actions).result? (.call 2) = none ∧ ended.result? (.call 2) = some (.ok ()) ∧
      (∃ active, ended.stores[1]?.bind (·.active) = some active ∧ active.endpoint.handle = 2 ∧
        active.region.address = 4096 ∧ ended.memory.base active.region.block = 4096) ∧
      sample.observe (delivered 2 2) (actions ++ [.step (.call 2) false]) = [Metadata.encode ⟨7, 128, 4⟩] ∧
      ∀ metadata, Metadata.decode (Metadata.encode ⟨7, 128, 4⟩) = .ok metadata → metadata.address.toNat ≠ 4096 := by
  intro early actions ended
  have hshort : sampleStore.bufferSize < 2 ^ 32 := by decide
  have hrunning : (sample.after actions).result? (.call 2) = none := by rfl
  have hsucceeded : ended.result? (.call 2) = some (.ok ()) := by rfl
  have hready : ∃ active, ended.stores[1]?.bind (·.active) = some active ∧ active.endpoint.handle = 2 ∧
      active.region.address = 4096 ∧ ended.memory.base active.region.block = 4096 := by
    exact ⟨_, rfl, rfl, rfl, rfl⟩
  have hdelivered : sample.observe (delivered 2 2) (sampleMoves 3 ++ [.connect 7000] ++ sampleMoves 9 ++
      [.write 2 0 4096 4 [7, 0]] ++ sampleMoves 8 ++ [.step (.call 2) false]) =
      [Metadata.encode ⟨7, 128, 4⟩] := by
    decide +kernel
  refine ⟨reachable_sample, hasClaimed_sample, hshort, hrunning, hsucceeded, hready, hdelivered, ?_⟩
  intro metadata hdecoded
  rw [Metadata.decode_encode] at hdecoded
  injection hdecoded with hmetadata
  rw [← hmetadata]
  decide

end World

end RemoteSlots
