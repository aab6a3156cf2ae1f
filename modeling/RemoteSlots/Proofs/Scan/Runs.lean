import Mathlib.Data.List.Induction
import RemoteSlots.Scan.Span

/-!
This module shows that the search for runs is exact: it finds the maximal runs of the places that count, in index
order, and joining the two runs at the ends of a ring loses no place and meets none twice.
-/

namespace RemoteSlots

namespace Span

structure IsMaximal (p : Nat → Bool) (span : Span) : Prop where
  le : span.first ≤ span.last
  inside : ∀ i, span.first ≤ i → i ≤ span.last → p i = true
  before : ∀ i, i + 1 = span.first → p i = false
  behind : p (span.last + 1) = false

def indices (span : Span) (capacity : Nat) : List Nat :=
  if span.first ≤ span.last then
    List.range' span.first (span.last + 1 - span.first)
  else
    List.range' span.first (capacity - span.first) ++ List.range' 0 (span.last + 1)

theorem indices_of_le {span : Span} (h : span.first ≤ span.last) (capacity : Nat) :
    span.indices capacity = List.range' span.first (span.last + 1 - span.first) := by
  rw [indices, if_pos h]

theorem length_indices (span : Span) (capacity : Nat) :
    (span.indices capacity).length = span.length capacity := by
  unfold indices length wraps
  by_cases hle : span.first ≤ span.last
  · simp only [if_pos hle, Nat.not_lt.mpr hle, decide_false, Bool.false_eq_true, if_false, List.length_range']
    omega
  · simp only [if_neg hle, Nat.lt_of_not_le hle, decide_true, if_true, List.length_append, List.length_range']
    omega

namespace IsMaximal

variable {p : Nat → Bool} {a b : Span} {i : Nat}

theorem first_le (ha : a.IsMaximal p) (hb : b.IsMaximal p) (hia : a.first ≤ i) (hib : i ≤ b.last) :
    a.first ≤ b.first := by
  apply Nat.le_of_not_lt
  intro hlt
  obtain ⟨j, hj⟩ := Nat.exists_eq_add_one.mpr (Nat.zero_lt_of_lt hlt)
  have hout := ha.before j hj.symm
  rw [hb.inside j (by omega) (by omega)] at hout
  contradiction

theorem last_le (ha : a.IsMaximal p) (hb : b.IsMaximal p) (hib : b.first ≤ i) (hia : i ≤ a.last) :
    b.last ≤ a.last := by
  apply Nat.le_of_not_lt
  intro hlt
  have hout := ha.behind
  rw [hb.inside (a.last + 1) (by omega) (by omega)] at hout
  contradiction

theorem eq_of_meet (ha : a.IsMaximal p) (hb : b.IsMaximal p) (hfirst : a.first ≤ i ∧ b.first ≤ i)
    (hlast : i ≤ a.last ∧ i ≤ b.last) : a = b := by
  have h₁ := ha.first_le hb hfirst.1 hlast.2
  have h₂ := hb.first_le ha hfirst.2 hlast.1
  have h₃ := ha.last_le hb hfirst.2 hlast.1
  have h₄ := hb.last_le ha hfirst.1 hlast.2
  obtain ⟨first, last⟩ := a
  rw [Span.mk.injEq]
  constructor
  · apply Nat.le_antisymm h₁ h₂
  · apply Nat.le_antisymm h₄ h₃

end IsMaximal

def IsOpen (p : Nat → Bool) (index : Nat) : Option Nat → Prop
  | none => ∀ i, i + 1 = index → p i = false
  | some first => first < index ∧ (∀ i, first ≤ i → i < index → p i = true) ∧ ∀ i, i + 1 = first → p i = false

structure Lists (p : Nat → Bool) (lower upper : Nat) (spans : List Span) : Prop where
  maximal : ∀ span ∈ spans, span.IsMaximal p
  above : ∀ span ∈ spans, lower ≤ span.first
  apart : spans.Pairwise fun a b => a.last + 1 < b.first
  indices : ∀ capacity, spans.flatMap (·.indices capacity) = (List.range' lower (upper - lower)).filter p

section Search

variable {p : Nat → Bool} {index first lower upper : Nat} {start : Option Nat} {spans : List Span}

theorem IsOpen.extend (h : IsOpen p index start) (hp : p index = true) :
    IsOpen p (index + 1) (some (start.getD index)) := by
  cases start with
  | none =>
    refine ⟨Nat.lt_succ_self _, ?_, h⟩
    intro i hle hlt
    obtain rfl : i = index := Nat.le_antisymm (Nat.le_of_lt_succ hlt) hle
    exact hp
  | some first =>
    refine ⟨Nat.lt_succ_of_lt h.1, ?_, h.2.2⟩
    intro i hle hlt
    rcases Nat.lt_succ_iff_lt_or_eq.mp hlt with hlt | rfl
    · exact h.2.1 i hle hlt
    · exact hp

theorem IsOpen.stop (hp : p index = false) : IsOpen p (index + 1) none := by
  intro i hi
  obtain rfl := Nat.succ.inj hi
  exact hp

theorem IsOpen.isMaximal (h : IsOpen p index (some first)) (hp : p index = false) :
    IsMaximal p ⟨first, index - 1⟩ := by
  obtain ⟨hlt, hinside, hbefore⟩ := h
  refine ⟨Nat.le_sub_one_of_lt hlt, ?_, hbefore, ?_⟩
  · intro i hle hi
    apply hinside i hle
    dsimp only at hi
    omega
  · rwa [Nat.sub_add_cancel (Nat.zero_lt_of_lt hlt)]

theorem IsOpen.indices (h : IsOpen p index (some first)) (capacity : Nat) :
    indices ⟨first, index - 1⟩ capacity = (List.range' first (index - first)).filter p := by
  have hlt := h.1
  rw [indices_of_le (Nat.le_sub_one_of_lt hlt), Nat.sub_add_cancel (Nat.zero_lt_of_lt hlt), List.filter_eq_self.mpr]
  intro i hi
  rw [List.mem_range'_1] at hi
  exact h.2.1 i hi.1 (by omega)

theorem Lists.nil (p : Nat → Bool) (place : Nat) : Lists p place place [] where
  maximal := by simp
  above := by simp
  apart := List.Pairwise.nil
  indices := by simp

theorem Lists.skip (h : Lists p (index + 1) upper spans) (hp : p index = false) (hle : index < upper) :
    Lists p index upper spans where
  maximal := h.maximal
  above := fun span hspan => Nat.le_of_succ_le (h.above span hspan)
  apart := h.apart
  indices := by
    intro capacity
    obtain ⟨count, hcount⟩ := Nat.exists_eq_add_of_le (Nat.succ_le_of_lt hle)
    have hleft : upper - index = upper - (index + 1) + 1 := by omega
    rw [h.indices, hleft, List.range'_succ, List.filter_cons_of_neg (by simp [hp])]

theorem Lists.cons (h : Lists p index upper spans) (hopen : IsOpen p index (some first))
    (hp : p index = false) (hle : index ≤ upper) : Lists p first upper (⟨first, index - 1⟩ :: spans) where
  maximal := by
    intro span hspan
    rcases List.mem_cons.mp hspan with rfl | hspan
    · exact hopen.isMaximal hp
    · exact h.maximal span hspan
  above := by
    intro span hspan
    rcases List.mem_cons.mp hspan with rfl | hspan
    · apply Nat.le_refl
    · apply Nat.le_trans (Nat.le_of_lt hopen.1) (h.above span hspan)
  apart := by
    rw [List.pairwise_cons]
    refine ⟨?_, h.apart⟩
    intro span hspan
    have hne : span.first ≠ index := by
      rintro rfl
      have hmaximal := h.maximal span hspan
      rw [hmaximal.inside _ (Nat.le_refl _) hmaximal.le] at hp
      contradiction
    have hlt := hopen.1
    have habove := h.above span hspan
    dsimp only
    omega
  indices := by
    intro capacity
    have hlt := hopen.1
    have hsplit : List.range' first (index - first) ++ List.range' (first + (index - first)) (upper - index) =
        List.range' first _ := List.range'_append_1
    rw [Nat.add_sub_cancel' (Nat.le_of_lt hlt)] at hsplit
    rw [List.flatMap_cons, hopen.indices, h.indices, ← List.filter_append, hsplit]
    congr 2
    omega

theorem lists_go {flags : List Bool} (hp : ∀ i, p (index + i) = flags[i]?.getD false) (hopen : IsOpen p index start) :
    Lists p (start.getD index) (index + flags.length) (runs.go index start flags) := by
  induction flags generalizing index start with
  | nil =>
    have hend : p index = false := hp 0
    cases start with
    | none =>
      apply Lists.nil
    | some first =>
      apply Lists.cons (Lists.nil p index) hopen hend
      apply Nat.le_refl
  | cons flag flags ih =>
    have hflag : p index = flag := hp 0
    have hrest : ∀ i, p (index + 1 + i) = flags[i]?.getD false := by
      intro i
      rw [Nat.add_assoc, Nat.add_comm 1, hp, List.getElem?_cons_succ]
    have hupper : index + (flags.length + 1) = index + 1 + flags.length := by omega
    rw [List.length_cons, hupper]
    cases flag with
    | true =>
      rw [runs.go]
      apply ih hrest (hopen.extend hflag)
    | false =>
      have hlists := (ih hrest (IsOpen.stop hflag)).skip hflag (by omega)
      cases start with
      | none =>
        rw [runs.go]
        exact hlists
      | some first =>
        rw [runs.go]
        apply hlists.cons hopen hflag
        omega

end Search

def flagAt (flags : List Bool) (i : Nat) : Bool := flags[i]?.getD false

theorem lists_runs (flags : List Bool) : Lists (flagAt flags) 0 flags.length (runs flags) := by
  have hplace : ∀ i, flagAt flags (0 + i) = flags[i]?.getD false := by
    intro i
    rw [Nat.zero_add]
    rfl
  have hclosed : IsOpen (flagAt flags) 0 none := by
    intro i hi
    contradiction
  have hgo := lists_go hplace hclosed
  rw [Nat.zero_add] at hgo
  exact hgo

namespace Lists

variable {p : Nat → Bool} {capacity i : Nat} {spans : List Span} {span : Span}

theorem exists_meets (h : Lists p 0 capacity spans) (hi : i < capacity) (hp : p i = true) :
    ∃ span ∈ spans, span.first ≤ i ∧ i ≤ span.last := by
  have hmem : i ∈ spans.flatMap (·.indices capacity) := by
    rw [h.indices, List.mem_filter, List.mem_range'_1]
    exact ⟨⟨Nat.zero_le i, by omega⟩, hp⟩
  obtain ⟨span, hspan, hindex⟩ := List.mem_flatMap.mp hmem
  refine ⟨span, hspan, ?_⟩
  have hle := (h.maximal span hspan).le
  rw [indices_of_le hle, List.mem_range'_1] at hindex
  omega

theorem mem_iff (h : Lists p 0 capacity spans) (hp : ∀ i, p i = true → i < capacity) :
    span ∈ spans ↔ span.IsMaximal p := by
  constructor
  · apply h.maximal
  · intro hmaximal
    have hfirst := hmaximal.inside _ (Nat.le_refl _) hmaximal.le
    obtain ⟨other, hother, hle⟩ := h.exists_meets (hp _ hfirst) hfirst
    have heq := hmaximal.eq_of_meet (h.maximal other hother) ⟨Nat.le_refl _, hle.1⟩ ⟨hmaximal.le, hle.2⟩
    rwa [heq]

end Lists

theorem before_mod {first capacity : Nat} (h : first < capacity) :
    (first + capacity - 1) % capacity = if first = 0 then capacity - 1 else first - 1 := by
  split
  · next hzero =>
    rw [hzero, Nat.zero_add, Nat.mod_eq_of_lt (by omega)]
  · next hpos =>
    have hsum : first + capacity - 1 = first - 1 + capacity := by omega
    rw [hsum, Nat.add_mod_right, Nat.mod_eq_of_lt (by omega)]

theorem behind_mod {last capacity : Nat} (h : last < capacity) :
    (last + 1) % capacity = if last + 1 = capacity then 0 else last + 1 := by
  split
  · next hend =>
    rw [hend, Nat.mod_self]
  · next hne =>
    rw [Nat.mod_eq_of_lt (by omega)]

structure IsBetween (p : Nat → Bool) (capacity : Nat) (span : Span) : Prop where
  short : span.length capacity < capacity
  before : p ((span.first + capacity - 1) % capacity) = false
  behind : p ((span.last + 1) % capacity) = false

theorem neighbours_whole {capacity : Nat} (hpos : 0 < capacity) :
    neighbours ⟨0, capacity - 1⟩ capacity = none := by
  rw [neighbours, if_pos]
  right
  simp only [length, wraps, Nat.not_lt_zero, decide_false, Bool.false_eq_true, if_false]
  omega

theorem IsBetween.neighbours_eq {p : Nat → Bool} {capacity : Nat} {span : Span} (h : span.IsBetween p capacity) :
    span.neighbours capacity = some ((span.first + capacity - 1) % capacity, (span.last + 1) % capacity) := by
  have hshort := h.short
  rw [neighbours, if_neg (by omega)]

section Ring

variable {p : Nat → Bool} {capacity : Nat} {spans middle : List Span} {span head tail : Span}

theorem IsMaximal.isBetween (h : span.IsMaximal p) (hlast : span.last < capacity)
    (hfirst : span.first = 0 → p (capacity - 1) = false) (hend : span.last + 1 = capacity → p 0 = false) :
    span.IsBetween p capacity := by
  have hle := h.le
  refine ⟨?_, ?_, ?_⟩
  · have hwraps : span.wraps = false := by simpa [wraps] using hle
    rw [length, hwraps, if_neg (by decide)]
    -- A run of the whole ring would have both ends of it.
    apply Nat.lt_of_le_of_ne (by omega)
    intro hwhole
    have hinside := h.inside 0 (by omega) (by omega)
    rw [hend (by omega)] at hinside
    contradiction
  · rw [before_mod (by omega)]
    split
    · next hzero => exact hfirst hzero
    · next hpos => exact h.before _ (Nat.sub_add_cancel (Nat.pos_of_ne_zero hpos))
  · rw [behind_mod hlast]
    split
    · next heq => exact hend heq
    · next hne => exact h.behind

/--
What becomes of the runs of a ring: they stay as they are, unless the first and the last one meet.
-/
inductive Joins (capacity : Nat) : List Span → List Span → Prop
  | apart {spans : List Span} (h : ∀ head ∈ spans, ∀ tail ∈ spans, head.first = 0 → tail.last + 1 = capacity →
      spans = [head]) : Joins capacity spans spans
  | joined {head tail : Span} {middle : List Span} (hfirst : head.first = 0) (hlast : tail.last + 1 = capacity) :
      Joins capacity (head :: (middle ++ [tail])) (⟨tail.first, head.last⟩ :: middle)

theorem IsMaximal.last_lt (h : span.IsMaximal p) (hp : ∀ i, p i = true → i < capacity) : span.last < capacity := by
  apply hp
  apply h.inside _ h.le (Nat.le_refl _)

theorem Lists.first_pos (h : Lists p 0 capacity (head :: spans)) (hspan : span ∈ spans) : span.first ≠ 0 := by
  have hapart := (List.pairwise_cons.mp h.apart).1 span hspan
  omega

theorem Lists.last_lt_tail (h : Lists p 0 capacity (spans ++ [tail])) (hspan : span ∈ spans) :
    span.last + 1 < tail.first := by
  apply (List.pairwise_append.mp h.apart).2.2 span hspan
  simp

theorem joins_joinEnds (h : Lists p 0 capacity spans) (hp : ∀ i, p i = true → i < capacity) :
    Joins capacity spans (joinEnds capacity spans) := by
  cases spans with
  | nil =>
    apply Joins.apart
    simp
  | cons head rest =>
    rcases List.eq_nil_or_concat rest with rfl | ⟨middle, tail, rfl⟩
    · apply Joins.apart
      intro first hfirst
      rw [List.mem_singleton.mp hfirst]
      simp
    · rw [List.concat_eq_append] at h ⊢
      simp only [joinEnds, List.getLast?_concat, List.dropLast_concat]
      split
      · next hmeet =>
        apply Joins.joined hmeet.1 hmeet.2
      · next hmeet =>
        apply Joins.apart
        intro first hfirst last hlast hzero hend
        exfalso
        apply hmeet
        constructor
        · rcases List.mem_cons.mp hfirst with rfl | hfirst
          · exact hzero
          · exact absurd hzero (h.first_pos hfirst)
        · rw [← List.cons_append] at h hlast
          rcases List.mem_append.mp hlast with hlast | hlast
          · have htail := h.maximal tail (by simp)
            have hbefore := h.last_lt_tail hlast
            have hbound := htail.last_lt hp
            have hle := htail.le
            omega
          · rwa [← List.mem_singleton.mp hlast]

theorem Joins.perm_indices {spans' : List Span} (hjoins : Joins capacity spans spans') (h : Lists p 0 capacity spans) :
    (spans'.flatMap (·.indices capacity)).Perm (spans.flatMap (·.indices capacity)) := by
  cases hjoins with
  | apart => apply List.Perm.refl
  | @joined head tail middle hfirst hlast =>
    rw [← List.cons_append] at h
    have hhead := (h.maximal head (by simp)).le
    have htail := (h.maximal tail (by simp)).le
    have hlt := h.last_lt_tail (List.mem_cons_self ..)
    have hjoined : indices ⟨tail.first, head.last⟩ capacity = tail.indices capacity ++ head.indices capacity := by
      rw [indices_of_le hhead, indices_of_le htail, indices, if_neg (by dsimp only; omega), hfirst, hlast, Nat.sub_zero]
    rw [List.flatMap_cons, List.flatMap_cons, List.flatMap_append, List.flatMap_singleton, hjoined, List.append_assoc]
    apply List.perm_append_comm.trans
    rw [List.append_assoc]

theorem Joins.wraps_tail {spans' : List Span} (hjoins : Joins capacity spans spans') (h : Lists p 0 capacity spans) :
    ∀ span ∈ spans'.tail, span.wraps = false := by
  intro span hspan
  have hmem : span ∈ spans := by
    cases hjoins with
    | apart => exact List.mem_of_mem_tail hspan
    | joined => exact List.mem_cons_of_mem _ (List.mem_append_left _ hspan)
  have hle := (h.maximal span hmem).le
  simpa [wraps] using hle

theorem Joins.first_lt {spans' : List Span} (hjoins : Joins capacity spans spans') (h : Lists p 0 capacity spans)
    (hp : ∀ i, p i = true → i < capacity) (hspan : span ∈ spans') : span.first < capacity := by
  obtain ⟨other, hother, hfirst⟩ : ∃ other ∈ spans, other.first = span.first := by
    cases hjoins with
    | apart => exact ⟨span, hspan, rfl⟩
    | @joined head tail middle _ _ =>
      rcases List.mem_cons.mp hspan with rfl | hspan
      · exact ⟨tail, by simp, rfl⟩
      · exact ⟨span, by simp [hspan], rfl⟩
  have hmaximal := h.maximal other hother
  rw [← hfirst]
  apply Nat.lt_of_le_of_lt hmaximal.le (hmaximal.last_lt hp)

theorem Joins.isBetween {spans' : List Span} (hjoins : Joins capacity spans spans') (h : Lists p 0 capacity spans)
    (hp : ∀ i, p i = true → i < capacity) (hspan : span ∈ spans') :
    span = ⟨0, capacity - 1⟩ ∧ span.IsMaximal p ∨ span.IsBetween p capacity := by
  cases hjoins with
  | apart hapart =>
    have hmaximal := h.maximal span hspan
    have hle := hmaximal.le
    have hlast := hmaximal.last_lt hp
    by_cases hends : p 0 = true ∧ p (capacity - 1) = true
    · obtain ⟨head, hhead, hzero, -⟩ := h.exists_meets (hp 0 hends.1) hends.1
      obtain ⟨tail, htail, -, hend⟩ := h.exists_meets (hp _ hends.2) hends.2
      have hbound := (h.maximal tail htail).last_lt hp
      obtain rfl := hapart head hhead tail htail (Nat.eq_zero_of_le_zero hzero) (by omega)
      obtain rfl := List.mem_singleton.mp hspan
      obtain rfl := List.mem_singleton.mp htail
      left
      refine ⟨?_, hmaximal⟩
      obtain ⟨first, last⟩ := tail
      rw [Span.mk.injEq]
      dsimp only at hzero hend hbound
      omega
    · right
      apply hmaximal.isBetween hlast
      · intro hzero
        rw [← Bool.not_eq_true]
        intro hend
        apply hends ⟨?_, hend⟩
        apply hmaximal.inside <;> omega
      · intro hend
        rw [← Bool.not_eq_true]
        intro hzero
        apply hends ⟨hzero, ?_⟩
        apply hmaximal.inside <;> omega
  | @joined head tail middle hfirst hlast =>
    right
    rw [← List.cons_append] at h
    have hlt := h.last_lt_tail (List.mem_cons_self ..)
    have hhead := h.maximal head (by simp)
    have htail := h.maximal tail (by simp)
    have hle := htail.le
    rcases List.mem_cons.mp hspan with rfl | hspan
    · have hwraps : wraps ⟨tail.first, head.last⟩ = true := by
        simp only [wraps, decide_eq_true_eq]
        omega
      refine ⟨?_, ?_, ?_⟩
      · rw [length, hwraps, if_pos rfl]
        dsimp only
        omega
      · dsimp only
        rw [before_mod (by omega), if_neg (by omega)]
        apply htail.before
        omega
      · dsimp only
        rw [behind_mod (by omega), if_neg (by omega)]
        exact hhead.behind
    · have hmaximal := h.maximal span (by simp [hspan])
      have hbehind := h.last_lt_tail (List.mem_cons_of_mem _ hspan)
      have hafter := h.first_pos (List.mem_append_left _ hspan)
      apply hmaximal.isBetween (hmaximal.last_lt hp)
      · intro hzero
        contradiction
      · intro hend
        omega

end Ring

end Span

end RemoteSlots
