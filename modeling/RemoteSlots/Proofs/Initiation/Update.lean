import RemoteSlots.Proofs.Initiation.Outcome

/-!
This module shows which of the peer's writes outlast an initiation: all that land behind the place where the
metadata stood, and of the others those that come after the front of the storage was zeroed.
-/

namespace RemoteSlots

open Std

namespace World

/--
Which updates were kept when an initiation ended well. `front` ends with the move that sends the message, and
`toWipe` with the one that zeroes the front of the storage.
-/
structure KeepsUpdates (w : World) (id : CallId) (s : StoreId) (actions : List Action) (active : Active)
    (message : List UInt8) (front toWipe last : List Action) : Prop where
  run : actions = front ++ (toWipe ++ last)
  ready : ∃ store, (w.after actions).stores[s]? = some store ∧ store.active = some active
  accepted : ∀ k, .endpoint k ∈ w.observe (gained id) actions ↔ k = active.endpoint.handle
  sent : w.HasSent id s active.endpoint.handle active.region message front (toWipe ++ last)
  wiped : (w.after front).HasWiped id s active.endpoint.handle active.region toWipe last
  kept : ∀ i v, lastPut ((w.after front).observe (landed active.endpoint.handle) (toWipe ++ last)) i = some v →
    ((w.after actions).memory.word active.region.block i = v ↔ 4 ≤ i ∨ v = 0 ∨
      (lastPut ((w.after (front ++ toWipe)).observe (landed active.endpoint.handle) last) i).isSome)

variable {w : World} {id : CallId} {s : StoreId} {store : Store} {region : Region} {k : ConnectionId}
  {message : List UInt8} {front toWipe last : List Action}

theorem HasSent.word_eq {rest : List Action} (h : w.HasSent id s k region message front rest) {i : Nat}
    (hi : 4 ≤ i) {v : UInt32} (hput : lastPut ((w.after front).observe (landed k) rest) i = some v) :
    (w.after (front ++ rest)).memory.word region.block i = v := by
  rw [after_append, h.words i hi, hput]
  rfl

theorem HasWiped.word_eq_iff (h : (w.after front).HasWiped id s k region toWipe last) {i : Nat} (hi : i < 4)
    {v : UInt32} (hput : lastPut ((w.after front).observe (landed k) (toWipe ++ last)) i = some v) :
    (w.after (front ++ (toWipe ++ last))).memory.word region.block i = v ↔
      v = 0 ∨ (lastPut ((w.after (front ++ toWipe)).observe (landed k) last) i).isSome := by
  have hword := h.words i hi
  rw [h.stored i hi, List.getElem?_replicate_of_lt hi] at hword
  rw [observe_append, lastPut_append] at hput
  rw [after_append, after_append, after_append, hword]
  rcases hlast : lastPut (((w.after front).after toWipe).observe (landed k) last) i with _ | u
  · simp [eq_comm]
  · rw [hlast] at hput
    injection hput with hput
    simp [hput]

theorem updates_kept_iff (h : w.Reachable) (hclaimed : w.HasClaimed id s store) {actions : List Action}
    (hrunning : (w.after actions).result? (.call id) = none) {expired : Bool}
    (hsucceeded : (w.after (actions ++ [.step (.call id) expired])).result? (.call id) = some (.ok ())) :
    ∃ active message front toWipe last,
      w.KeepsUpdates id s (actions ++ [.step (.call id) expired]) active message front toWipe last := by
  obtain ⟨hw, ht⟩ := h.sound
  obtain ⟨active, message, ⟨store', hstore', -, hactive⟩, hholds⟩ :=
    holds_of_succeeded hw ht hclaimed hrunning hsucceeded
  obtain ⟨front, rest, hactions, hsent, hrest⟩ := hholds.sent message _ _ rfl rfl rfl
  obtain ⟨toWipe, last, rfl, hwiped⟩ := hrest rfl
  refine ⟨active, message, front, toWipe, last, hactions, ⟨store', hstore', hactive⟩, ?_, hsent, hwiped, ?_⟩
  · intro k
    rw [hholds.own]
    exact ⟨fun heq => (Option.some.inj heq).symm, fun heq => congrArg some heq.symm⟩
  · intro i v hput
    rw [hactions]
    -- Behind the front the last write counts, at the front only those since it was zeroed.
    by_cases hi : 4 ≤ i
    · exact ⟨fun _ => .inl hi, fun _ => hsent.word_eq hi hput⟩
    · rw [hwiped.word_eq_iff (Nat.not_le.mp hi) hput]
      exact ⟨.inr, fun hor => hor.resolve_left hi⟩

set_option maxRecDepth 10000 in
theorem updates_kept_iff_behind :
    let actions := sampleMoves 3 ++ [.connect 7000] ++ sampleMoves 10 ++ [.write 2 0 4136 4 [7, 7]] ++
      sampleMoves 7
    sample.Reachable ∧ sample.HasClaimed 2 1 sampleStore ∧
      (sample.after actions).result? (.call 2) = none ∧
      (sample.after (actions ++ [.step (.call 2) false])).result? (.call 2) = some (.ok ()) ∧
      ∃ active message front toWipe last, sample.KeepsUpdates 2 1 (actions ++ [.step (.call 2) false]) active
        message front toWipe last := by
  intro actions
  have hrunning : (sample.after actions).result? (.call 2) = none := by rfl
  have hsucceeded : (sample.after (actions ++ [.step (.call 2) false])).result? (.call 2) = some (.ok ()) := by
    rfl
  exact ⟨reachable_sample, hasClaimed_sample, hrunning, hsucceeded,
    updates_kept_iff reachable_sample hasClaimed_sample hrunning hsucceeded⟩

set_option maxRecDepth 10000 in
theorem update_of_first_slot_lost :
    let early := sampleMoves 3 ++ [.connect 7000] ++ sampleMoves 9
    let front := early ++ [.step (.call 2) false]
    let rest := [.write 2 0 4096 4 [7, 7]] ++ sampleMoves 8
    sample.Reachable ∧ sample.HasClaimed 2 1 sampleStore ∧
      (sample.after early).delivered 2 2 (.step (.call 2) false) = [Metadata.encode ⟨4096, 128, 4⟩] ∧
      (sample.after (front ++ rest)).result? (.call 2) = some (.ok ()) ∧
      (sample.after (front ++ rest)).stores[1]?.bind (·.active.map (·.region.block)) = some 0 ∧
      lastPut ((sample.after front).observe (landed 2) rest) 0 = some 7 ∧
      (sample.after (front ++ rest)).memory.word 0 0 = 0 := by
  intro early front rest
  have hdelivered : (sample.after (sampleMoves 3 ++ [.connect 7000] ++ sampleMoves 9)).delivered 2 2
      (.step (.call 2) false) = [Metadata.encode ⟨4096, 128, 4⟩] := by
    decide +kernel
  have hsucceeded : (sample.after (front ++ rest)).result? (.call 2) = some (.ok ()) := by rfl
  have hready : (sample.after (front ++ rest)).stores[1]?.bind (·.active.map (·.region.block)) = some 0 := by
    rfl
  have hput : lastPut ((sample.after front).observe (landed 2) rest) 0 = some 7 := by rfl
  have hword : (sample.after (front ++ rest)).memory.word 0 0 = 0 := by rfl
  exact ⟨reachable_sample, hasClaimed_sample, hdelivered, hsucceeded, hready, hput, hword⟩

end World

end RemoteSlots
