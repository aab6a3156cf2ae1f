import RemoteSlots.Failure.SystemError
import RemoteSlots.Memory.Block
import RemoteSlots.Memory.Pages

/-!
This module contains what is known about the system that maps memory. Where a mapping comes to lie is up to the
system, and so is whether there is one at all.
-/

namespace RemoteSlots

/--
A system that maps memory. It knows the blocks that it mapped so far, and answers a request for whole pages with the
address they begin at or with an error. The pages that are in use are never part of the answer.
-/
structure Mapper where
  place : Array Block → PagePolicy → Nat → Except SystemError Nat
  aligned : ∀ {blocks pages mapped base}, place blocks pages mapped = .ok base → base % standardPageSize = 0
  bounded : ∀ {blocks pages mapped base}, place blocks pages mapped = .ok base → base + mapped ≤ addressLimit
  apart : ∀ {blocks pages mapped base}, place blocks pages mapped = .ok base →
    ∀ block ∈ blocks, block.live → block.base + block.mapped ≤ base ∨ base + mapped ≤ block.base

namespace Mapper

def mappingLimit : Nat := 1 <<< 47

def top (start gap : Nat) (blocks : List Block) : Nat :=
  blocks.foldr (fun block top => if block.live then max (block.base + block.mapped + gap) top else top) start

def placeAbove (start gap : Nat) (blocks : Array Block) (mapped : Nat) : Except SystemError Nat :=
  let base := alignUp standardPageSize (top start gap blocks.toList)
  if mappingLimit ≤ mapped ∨ addressLimit < base + mapped then .error .outOfMemory else .ok base

theorem le_top {start gap : Nat} {blocks : List Block} {block : Block} (hmem : block ∈ blocks) (hlive : block.live) :
    block.base + block.mapped ≤ top start gap blocks := by
  induction blocks with
  | nil => contradiction
  | cons first blocks ih =>
    rw [top, List.foldr_cons]
    change _ ≤ if first.live then max _ (top start gap blocks) else top start gap blocks
    rcases List.mem_cons.mp hmem with rfl | hmem
    · rw [if_pos hlive]
      omega
    · have hle := ih hmem
      split <;> omega

theorem placeAbove_eq_ok {start gap : Nat} {blocks : Array Block} {mapped base : Nat}
    (h : placeAbove start gap blocks mapped = .ok base) :
    base = alignUp standardPageSize (top start gap blocks.toList) ∧ base + mapped ≤ addressLimit := by
  unfold placeAbove at h
  dsimp only at h
  split at h
  · contradiction
  · next hlimit =>
    injection h with heq
    exact ⟨heq.symm, heq ▸ by omega⟩

def above (start gap : Nat) : Mapper where
  place blocks _ mapped := placeAbove start gap blocks mapped
  aligned h := by
    rw [(placeAbove_eq_ok h).1, alignUp, Nat.mul_mod_left]
  bounded h := (placeAbove_eq_ok h).2
  apart h block hmem hlive := by
    left
    rw [(placeAbove_eq_ok h).1]
    exact Nat.le_trans (le_top (Array.mem_toList_iff.mpr hmem) hlive) (le_alignUp (by decide))

instance : Inhabited Mapper := ⟨above (1 <<< 46) 0⟩

end Mapper

end RemoteSlots
