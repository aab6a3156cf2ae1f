import RemoteSlots.Proofs.Memory.Backing
import RemoteSlots.Proofs.World.Run

/-!
This module follows the words of a block that a call has to itself: while the call does not move, a word only
changes where an accepted write of the peer lands, and the last write that landed there is what it holds.
-/

namespace RemoteSlots

/--
What lands on the server's memory when an action is an accepted write of a peer: the words, each with its
index in the region.
-/
def World.landed (k : ConnectionId) (w : World) : Action → List (UInt32 × Nat)
  | .write peer _ address key words =>
    if peer = k then
      match w.net.target? k address key words.length with
      | none => []
      | some region => words.zipIdx ((address.toNat - region.extent.address) / 4)
    else []
  | _ => []

namespace Action

theorem regions_effectOn (action : Action) (k : ConnectionId) (link : Link) :
    (action.effectOn k link).regions = link.regions := by
  unfold effectOn
  split
  · split <;> rfl
  · split
    · exact Loopback.regions_writeEffect ..
    · rfl
  · split <;> rfl
  · rfl

theorem serverClosed_effectOn (action : Action) (k : ConnectionId) (link : Link) :
    (action.effectOn k link).serverClosed = link.serverClosed := by
  unfold effectOn
  split
  · split <;> rfl
  · split
    · unfold Loopback.writeEffect
      split
      · rfl
      · exact Link.serverClosed_complete ..
    · rfl
  · split <;> rfl
  · rfl

theorem completions_effectOn {action : Action} {k : ConnectionId} {link : Link}
    (h : ∀ c ∈ link.completions, c.status ≠ .success) :
    ∀ c ∈ (action.effectOn k link).completions, c.status ≠ .success := by
  intro c hc
  unfold effectOn at hc
  split at hc
  · split at hc <;> exact h c hc
  · split at hc
    · unfold Loopback.writeEffect at hc
      split at hc
      · exact h c hc
      · rcases Link.mem_completions_complete hc with hold | rfl
        · exact h c hold
        · simp
    · exact h c hc
  · split at hc <;> exact h c hc
  · exact h c hc

end Action

namespace World

variable {w : World}

theorem landed_eq_nil {k : ConnectionId} {action : Action}
    (h : ∀ request address key words, action ≠ .write k request address key words) :
    w.landed k action = [] := by
  cases action with
  | write peer request address key words =>
    simp only [landed]
    rw [if_neg]
    rintro rfl
    exact h request address key words rfl
  | _ => rfl

theorem landing_act (h : w.Sound) (ht : w.Tidy) {action : Action} {id : CallId} {fabric : FabricId}
    {custody : Custody} {extent : Extent} {k : ConnectionId}
    (hcustody : w.custody? (.call id) = some (fabric, custody)) (hb : extent.block ∈ custody.blocks)
    (hmove : ¬action.IsMoveOf id) (hbacks : w.memory.Backs extent)
    (hk : ∀ j, .endpoint j ∈ w.holdings (.call id) → j = k)
    (hregions : ∀ link, w.net.links[k]? = some link → ∀ r ∈ link.regions, r.extent = extent) :
    (w.act action).memory.Backs extent ∧
      ∀ i, (w.act action).memory.word extent.block i =
        (lastPut (w.landed k action) i).getD (w.memory.word extent.block i) := by
  have hsame : (w.act action).memory.blocks[extent.block]? = w.memory.blocks[extent.block]? →
      w.landed k action = [] → (w.act action).memory.Backs extent ∧
      ∀ i, (w.act action).memory.word extent.block i =
        (lastPut (w.landed k action) i).getD (w.memory.word extent.block i) := by
    intro hblock hlanded
    refine ⟨hbacks.of_block_eq hblock, fun i => ?_⟩
    rw [hlanded]
    unfold Memory.word
    rw [hblock]
    rfl
  -- From outside the block is only reached by accepted writes on the connection of the call.
  by_cases hwrite : ∃ request address key words, action = .write k request address key words
  · obtain ⟨request, address, key, words, rfl⟩ := hwrite
    have hmemory : (w.act (.write k request address key words)).memory = _ :=
      Loopback.write_memory w.net w.memory k request address key words
    rcases htarget : w.net.target? k address key words.length with _ | region
    · rw [htarget] at hmemory
      apply hsame
      · rw [hmemory]
      · simp [landed, htarget]
    · rw [htarget] at hmemory
      obtain ⟨link, hlink, -, hregion, hcovers⟩ := Loopback.target?_eq_some htarget
      obtain rfl := hregions link hlink region hregion
      rw [hmemory]
      refine ⟨hbacks.storeAt .., fun i => ?_⟩
      simp only [landed, if_pos, htarget]
      exact Memory.word_storeAt_of_covers hbacks hcovers i
  · apply hsame
    · rcases memory_act h ht hcustody hb hmove with hblock | ⟨j, request, address, key, words, -, rfl, hj, -⟩
      · exact hblock
      · obtain rfl := hk j hj
        exact absurd ⟨request, address, key, words, rfl⟩ hwrite
    · exact landed_eq_nil fun request address key words heq => hwrite ⟨request, address, key, words, heq⟩

end World

end RemoteSlots
