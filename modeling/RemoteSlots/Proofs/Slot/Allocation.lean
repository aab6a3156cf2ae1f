import Mathlib.Algebra.Group.Nat.Defs
import Mathlib.Order.Bounds.Basic
import RemoteSlots.Proofs.Slot.Storage

/-!
This module shows how much memory a storage gets: its slots fill their block exactly, the block lies on as many pages
as it needs and no more, and where this cannot be expressed in 64 bits nothing is mapped. No index of a word in the
block is beyond 64 bits.
-/

namespace RemoteSlots

namespace PagePolicy

def sizesFor (pages : PagePolicy) (length : Nat) : Set Nat := {size | pages.pageSize ∣ size ∧ length ≤ size}

theorem isLeast_sizesFor {pages : PagePolicy} {length count : Nat}
    (h : pagesFor? pages.pageSize length = some count) :
    IsLeast (pages.sizesFor length) (count * pages.pageSize) := by
  obtain ⟨hroom, hfewer⟩ := pagesFor?_eq_some h
  refine ⟨⟨Nat.dvd_mul_left .., hroom⟩, ?_⟩
  rintro size ⟨⟨fewer, rfl⟩, hsize⟩
  rw [Nat.mul_comm pages.pageSize] at hsize ⊢
  exact Nat.mul_le_mul_right pages.pageSize (hfewer fewer hsize)

theorem exists_pagesFor? {pages : PagePolicy} (h : 0 < pages.pageSize) (length : Nat) :
    ∃ count, pagesFor? pages.pageSize length = some count :=
  ⟨_, if_neg (Nat.ne_of_gt h)⟩

end PagePolicy

namespace Memory

inductive Mapping (memory : Memory) (pages : PagePolicy) (length mapped : Nat) :
    Except Halt (BlockId × Memory) → Prop
  | empty (hempty : length = 0) : Mapping memory pages length mapped (.error (.failed (.allocation .emptyBuffer)))
  | tooLong (hpos : 0 < length) (hlong : addressLimit ≤ mapped) :
    Mapping memory pages length mapped (.error (.failed (.allocation (.bufferTooLong length))))
  | refused (hpos : 0 < length) (hfits : mapped < addressLimit) (error : SystemError) :
    Mapping memory pages length mapped (.error (.failed (.mapping error)))
  | granted (hpos : 0 < length) (hfits : mapped < addressLimit) {block : BlockId} {memory' : Memory}
    (hfresh : Fresh memory memory' pages length block) (hmapped : memory'.mapped block = mapped) :
    Mapping memory pages length mapped (.ok (block, memory'))

theorem mapping_allocate (memory : Memory) {pages : PagePolicy} (hpages : 0 < pages.pageSize) (length : Nat) :
    ∃ mapped, IsLeast (pages.sizesFor length) mapped ∧
      Mapping memory pages length mapped (memory.allocate pages length) := by
  obtain ⟨count, hcount⟩ := PagePolicy.exists_pagesFor? hpages length
  refine ⟨_, PagePolicy.isLeast_sizesFor hcount, ?_⟩
  rcases hresult : memory.allocate pages length with halt | ⟨block, memory'⟩
  · simp only [allocate, hcount] at hresult
    split at hresult
    · next hempty =>
      cases hresult
      exact .empty hempty
    · next hpos =>
      have hpos : 0 < length := Nat.pos_of_ne_zero hpos
      split at hresult
      · next hlong =>
        cases hresult
        exact .tooLong hpos hlong
      · next hfits =>
        split at hresult
        · cases hresult
          exact .refused hpos (Nat.lt_of_not_le hfits) _
        · contradiction
  · have hfresh := allocate_fresh hresult
    simp only [allocate, hcount] at hresult
    split at hresult
    · contradiction
    · split at hresult
      · contradiction
      · next hfits =>
        split at hresult
        · contradiction
        · cases hresult
          refine .granted hfresh.length_pos (Nat.lt_of_not_le hfits) hfresh ?_
          simp only [mapped, Array.getElem?_push_size]
          rfl

theorem Fresh.contents_eq {memory memory' : Memory} {pages : PagePolicy} {length : Nat} {block : BlockId}
    (h : Fresh memory memory' pages length block) : memory'.contents block = List.replicate (length / 4) 0 := by
  apply List.ext_getElem?
  intro i
  rw [contents, getElem?_load, h.length_eq, h.word_eq_zero, List.getElem?_replicate, Nat.zero_add, Nat.min_self,
    Nat.sub_zero]

end Memory

namespace Storage

variable {layout : Layout}

inductive Refusal (layout : Layout) (capacity mapped : Nat) : AllocationFailure → Prop
  | empty (hempty : capacity = 0) : Refusal layout capacity mapped .emptyBuffer
  | tooManySlots (hmany : 2 ^ 64 - 1 < capacity * layout.size) :
    Refusal layout capacity mapped (.tooManySlots capacity layout.size)
  | tooLong (hfits : capacity * layout.size ≤ 2 ^ 64 - 1) (hlong : 2 ^ 64 - 1 < mapped) :
    Refusal layout capacity mapped (.bufferTooLong (capacity * layout.size))

inductive Allocation (memory : Memory) (pages : PagePolicy) (layout : Layout) (capacity mapped : Nat) :
    Except Halt (Storage layout × Memory) → Prop
  | refused {cause : AllocationFailure} (hrefusal : Refusal layout capacity mapped cause) :
    Allocation memory pages layout capacity mapped (.error (.failed (.allocation cause)))
  | unmapped (hpos : 0 < capacity) (hfits : mapped ≤ 2 ^ 64 - 1) (error : SystemError) :
    Allocation memory pages layout capacity mapped (.error (.failed (.mapping error)))
  | allocated (hpos : 0 < capacity) (hfits : mapped ≤ 2 ^ 64 - 1) {block : BlockId} {memory' : Memory}
    (hfresh : Memory.Fresh memory memory' pages (capacity * layout.size) block)
    (hmapped : memory'.mapped block = mapped) :
    Allocation memory pages layout capacity mapped (.ok ({ capacity, block }, memory'))

theorem allocation_allocate (memory : Memory) {pages : PagePolicy} (hpages : 0 < pages.pageSize) (layout : Layout)
    (capacity : Nat) :
    ∃ mapped, IsLeast (pages.sizesFor (capacity * layout.size)) mapped ∧
      Allocation memory pages layout capacity mapped (allocate memory pages layout capacity) := by
  obtain ⟨mapped, hleast, hmapping⟩ := memory.mapping_allocate hpages (capacity * layout.size)
  refine ⟨mapped, hleast, ?_⟩
  have hlimit : addressLimit = 2 ^ 64 := rfl
  have hsize := layout.size_pos
  unfold allocate byteSize
  by_cases hmany : addressLimit ≤ capacity * layout.size
  · rw [if_pos hmany]
    exact .refused (.tooManySlots (by omega))
  · rw [if_neg hmany]
    simp only
    generalize memory.allocate pages (capacity * layout.size) = result at hmapping
    cases hmapping with
    | empty hempty =>
      have hnone := (Nat.mul_eq_zero.mp hempty).resolve_right (Nat.ne_of_gt hsize)
      exact .refused (.empty hnone)
    | tooLong hpos hlong => exact .refused (.tooLong (by omega) (by omega))
    | refused hpos hfits error => exact .unmapped (Nat.pos_of_mul_pos_right hpos) (by omega) error
    | granted hpos hfits hfresh hmapped => exact .allocated (Nat.pos_of_mul_pos_right hpos) (by omega) hfresh hmapped

/--
Whether the slots of a storage are all of a zeroed block, and the places of their words are numbers of 64 bits.
-/
structure FillsExactly (memory : Memory) (storage : Storage layout) (pages : PagePolicy) (capacity : UInt64) :
    Prop where
  capacity_eq : storage.capacity = capacity.toNat
  length_eq : memory.length storage.block = capacity.toNat * layout.size
  mapped : IsLeast (pages.sizesFor (capacity.toNat * layout.size)) (memory.mapped storage.block)
  contents_eq : memory.contents storage.block = List.replicate (capacity.toNat * layout.words) 0
  -- The words of a slot start and end inside the block, and both places are computed without overflow.
  words : ∀ index < capacity,
    (index * UInt64.ofNat layout.words).toNat = index.toNat * layout.words ∧
      (index * UInt64.ofNat layout.words + UInt64.ofNat layout.words).toNat =
        index.toNat * layout.words + layout.words ∧
      index.toNat * layout.words + layout.words ≤ (memory.contents storage.block).length

theorem toNat_words {capacity index : UInt64} (hfits : capacity.toNat * layout.size ≤ 2 ^ 64 - 1)
    (hindex : index < capacity) :
    (index * UInt64.ofNat layout.words).toNat = index.toNat * layout.words ∧
      (index * UInt64.ofNat layout.words + UInt64.ofNat layout.words).toNat =
        index.toNat * layout.words + layout.words ∧
      index.toNat * layout.words + layout.words ≤ capacity.toNat * layout.words := by
  have hwords : (UInt64.ofNat layout.words).toNat = layout.words :=
    UInt64.toNat_ofNat_of_lt' (Nat.lt_of_le_of_lt layout.words_le_maxWords (by decide))
  have hend : index.toNat * layout.words + layout.words ≤ capacity.toNat * layout.words := by
    rw [← Nat.succ_mul]
    exact Nat.mul_le_mul_right layout.words (UInt64.lt_iff_toNat_lt.mp hindex)
  have hbytes : capacity.toNat * layout.words ≤ capacity.toNat * layout.size :=
    Nat.mul_le_mul_left _ (Nat.le_mul_of_pos_left _ (by decide))
  have hstart : (index * UInt64.ofNat layout.words).toNat = index.toNat * layout.words := by
    rw [UInt64.toNat_mul, hwords, Nat.mod_eq_of_lt (by omega)]
  refine ⟨hstart, ?_, hend⟩
  rw [UInt64.toNat_add, hstart, hwords, Nat.mod_eq_of_lt (by omega)]

theorem fillsExactly_of_fresh {memory memory' : Memory} {pages : PagePolicy} {capacity : UInt64} {block : BlockId}
    (hfresh : Memory.Fresh memory memory' pages (capacity.toNat * layout.size) block)
    (hleast : IsLeast (pages.sizesFor (capacity.toNat * layout.size)) (memory'.mapped block))
    (hfits : memory'.mapped block ≤ 2 ^ 64 - 1) :
    FillsExactly memory' (⟨capacity.toNat, block⟩ : Storage layout) pages capacity := by
  have hcontents : memory'.contents block = List.replicate (capacity.toNat * layout.words) 0 := by
    rw [hfresh.contents_eq, Layout.size, Nat.mul_left_comm, Nat.mul_div_cancel_left _ (by decide)]
  refine ⟨rfl, hfresh.length_eq, hleast, hcontents, ?_⟩
  intro index hindex
  rw [hcontents, List.length_replicate]
  exact toNat_words (Nat.le_trans hleast.1.2 hfits) hindex

theorem allocation_exact (memory : Memory) {pages : PagePolicy} (hpages : 0 < pages.pageSize) (layout : Layout)
    (capacity : UInt64) :
    ∃ mapped, IsLeast (pages.sizesFor (capacity.toNat * layout.size)) mapped ∧
      ((∃ cause, allocate memory pages layout capacity.toNat = .error (.failed (.allocation cause))) ↔
        capacity = 0 ∨ 2 ^ 64 - 1 < capacity.toNat * layout.size ∨ 2 ^ 64 - 1 < mapped) ∧
      (∀ cause, allocate memory pages layout capacity.toNat = .error (.failed (.allocation cause)) →
        Refusal layout capacity.toNat mapped cause) ∧
      (∀ halt, allocate memory pages layout capacity.toNat = .error halt →
        (∃ cause, halt = .failed (.allocation cause)) ∨ ∃ error, halt = .failed (.mapping error)) ∧
      ∀ storage memory', allocate memory pages layout capacity.toNat = .ok (storage, memory') →
        storage.FillsExactly memory' pages capacity := by
  obtain ⟨mapped, hleast, hallocation⟩ := allocation_allocate memory hpages layout capacity.toNat
  refine ⟨mapped, hleast, ?_⟩
  have hsize : capacity.toNat * layout.size ≤ mapped := hleast.1.2
  generalize allocate memory pages layout capacity.toNat = result at hallocation
  have hzero : capacity = 0 ↔ capacity.toNat = 0 := by
    rw [← UInt64.toNat_inj]
    rfl
  rw [hzero]
  cases hallocation with
  | refused hrefusal =>
    refine ⟨⟨fun _ => ?_, fun _ => ⟨_, rfl⟩⟩, ?_, ?_, fun _ _ heq => by contradiction⟩
    · cases hrefusal with
      | empty hempty => exact .inl hempty
      | tooManySlots hmany => exact .inr (.inl hmany)
      | tooLong _ hlong => exact .inr (.inr hlong)
    · rintro cause ⟨⟩
      exact hrefusal
    · rintro halt ⟨⟩
      exact .inl ⟨_, rfl⟩
  | unmapped hpos hfits error =>
    refine ⟨⟨fun ⟨cause, heq⟩ => ?_, fun hor => by omega⟩, ?_, ?_, fun _ _ heq => by contradiction⟩
    · cases heq
    · intro cause heq
      cases heq
    · rintro halt ⟨⟩
      exact .inr ⟨error, rfl⟩
  | allocated hpos hfits hfresh hmapped =>
    subst hmapped
    refine ⟨⟨fun ⟨_, heq⟩ => by contradiction, fun hor => by omega⟩, fun _ heq => by contradiction,
      fun _ heq => by contradiction, ?_⟩
    rintro storage memory' ⟨⟩
    exact fillsExactly_of_fresh hfresh hleast hfits

theorem allocation_exact_last_page :
    let capacity : UInt64 := 129
    let postcards : Storage .postcard := ⟨capacity.toNat, 0⟩
    let memory : Memory := { blocks := #[.zeroed 4096 4128 8192 .standard], mapper := .above 4096 0 }
    0 < PagePolicy.standard.pageSize ∧
      allocate (.emptyOf (.above 4096 0)) .standard .postcard capacity.toNat = .ok (postcards, memory) ∧
      postcards.FillsExactly memory .standard capacity ∧
      allocate (.emptyOf (.above 4096 0)) .standard .keyValue (UInt64.ofNat (2 ^ 61 - 1)).toNat =
        .error (.failed (.allocation (.bufferTooLong (2 ^ 64 - 8)))) ∧
      ∃ mapped, Refusal .keyValue (UInt64.ofNat (2 ^ 61 - 1)).toNat mapped (.bufferTooLong (2 ^ 64 - 8)) := by
  intro capacity postcards memory
  have hpages : 0 < PagePolicy.standard.pageSize := by decide
  have hallocate : allocate (.emptyOf (.above 4096 0)) .standard .postcard capacity.toNat =
      .ok (postcards, memory) := by
    simp [allocate, byteSize, Memory.allocate, Layout.size, Layout.words, pagesFor?, PagePolicy.pageSize,
      standardPageSize, addressLimit, Mapper.above, Mapper.placeAbove, Mapper.top, Mapper.mappingLimit, alignUp,
      Memory.emptyOf, postcards, memory, capacity]
  have hsize : byteSize .keyValue (UInt64.ofNat (2 ^ 61 - 1)).toNat = .ok (2 ^ 64 - 8) := by
    simp [byteSize, Layout.size, Layout.words, addressLimit]
  have hlong : Memory.allocate (.emptyOf (.above 4096 0)) .standard (2 ^ 64 - 8) =
      .error (.failed (.allocation (.bufferTooLong (2 ^ 64 - 8)))) := by
    simp [Memory.allocate, pagesFor?, PagePolicy.pageSize, standardPageSize, addressLimit]
  have hrefused : allocate (.emptyOf (.above 4096 0)) .standard .keyValue (UInt64.ofNat (2 ^ 61 - 1)).toNat =
      .error (.failed (.allocation (.bufferTooLong (2 ^ 64 - 8)))) := by
    unfold allocate
    rw [hsize]
    simp only
    rw [hlong]
  obtain ⟨_, -, -, -, -, hfills⟩ := allocation_exact (.emptyOf (.above 4096 0)) hpages .postcard capacity
  obtain ⟨mapped, -, -, hcause, -⟩ := allocation_exact (.emptyOf (.above 4096 0)) hpages .keyValue (.ofNat (2 ^ 61 - 1))
  exact ⟨hpages, hallocate, hfills postcards memory hallocate, hrefused, mapped, hcause _ hrefused⟩

end Storage

end RemoteSlots
