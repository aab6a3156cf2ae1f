import RemoteSlots.Config

/-!
This module contains the page arithmetic of allocations.
-/

namespace RemoteSlots

def addressLimit : Nat := 1 <<< 64

/--
The number of pages of `size` bytes that hold `length` bytes. The division has no result for pages
of no bytes.
-/
def pagesFor? (size length : Nat) : Option Nat :=
  if size = 0 then none else some ((length + size - 1) / size)

theorem pagesFor?_eq_some {size length pages : Nat} (h : pagesFor? size length = some pages) :
    length ≤ pages * size ∧ ∀ fewer, length ≤ fewer * size → pages ≤ fewer := by
  unfold pagesFor? at h
  split at h
  · simp at h
  · simp only [Option.some.injEq] at h
    subst h
    have hpos : 0 < size := by omega
    refine ⟨?_, fun fewer hfewer => ?_⟩
    · have := Nat.lt_mul_div_succ (length + size - 1) hpos
      rw [Nat.mul_succ, Nat.mul_comm] at this
      omega
    · have : (length + size - 1) / size < fewer + 1 := by
        rw [Nat.div_lt_iff_lt_mul hpos, Nat.succ_mul]
        omega
      omega

def alignUp (unit n : Nat) : Nat :=
  (n + unit - 1) / unit * unit

theorem le_alignUp {unit n : Nat} (h : 0 < unit) : n ≤ alignUp unit n := by
  have := Nat.lt_mul_div_succ (n + unit - 1) h
  rw [Nat.mul_succ, Nat.mul_comm] at this
  rw [alignUp]
  omega

end RemoteSlots
