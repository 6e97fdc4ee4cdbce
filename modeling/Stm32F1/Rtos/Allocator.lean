import Stm32F1.Rtos.Malloc

/-!
# What `pvPortMalloc` and `vPortFree` do

The first call makes one free block of the heap.  `pvPortMalloc` returns `NULL`
exactly where no free block is large enough for what is asked for.
-/

namespace Stm32F1.Rtos

open Prog

variable {P : Placement} {s : Heap} {t v : Block} {n : UInt32} {ts xs ys : List Block}

/-! ## Sizes -/

/-- The size of a block for `n` bytes. -/
def need (n : UInt32) : Nat := (n.toNat + 15) / 8 * 8

theorem toNat_and_seven (x : UInt32) : (x &&& portBYTE_ALIGNMENT_MASK).toNat = x.toNat % 8 := by
  rw [UInt32.toNat_and]
  exact Nat.and_two_pow_sub_one_eq_mod x.toNat 3

theorem toNat_and_not_seven (x : UInt32) :
    (x &&& ~~~portBYTE_ALIGNMENT_MASK).toNat = x.toNat / 8 * 8 := by
  have hmask : (~~~portBYTE_ALIGNMENT_MASK).toNat = (2 ^ 29 - 1) <<< 3 := rfl
  have hround : x.toNat / 8 * 8 = (x.toNat >>> 3) <<< 3 := by
    rw [Nat.shiftRight_eq_div_pow, Nat.shiftLeft_eq]
  rw [UInt32.toNat_and, hmask, hround]
  apply Nat.eq_of_testBit_eq
  intro i
  rw [Nat.testBit_and, Nat.testBit_shiftLeft, Nat.testBit_shiftLeft, Nat.testBit_two_pow_sub_one,
    Nat.testBit_shiftRight]
  by_cases hi : 3 ≤ i
  · rw [Nat.add_sub_cancel' hi]
    by_cases hbig : i < 32
    · have hlt : i - 3 < 29 := by omega
      simp [hi, hlt]
    · have hzero : x.toNat.testBit i = false :=
        Nat.testBit_lt_two_pow
          (x.toNat_lt.trans_le (Nat.pow_le_pow_right (by decide) (not_lt.1 hbig)))
      simp [hzero]
  · simp [hi]

theorem wantedSize_zero : wantedSize 0 = 0 := rfl

theorem toNat_wantedSize (hpos : 0 < n.toNat) (hlt : n.toNat < 2 ^ 31) :
    (wantedSize n).toNat = need n := by
  have hadd : (n + xHeapStructSize).toNat = n.toNat + 8 := by
    rw [UInt32.toNat_add]
    exact Nat.mod_eq_of_lt (by show n.toNat + 8 < 2 ^ 32; omega)
  have hgreater : n > 0 ∧ n + xHeapStructSize > n :=
    ⟨UInt32.lt_iff_toNat_lt.2 hpos, UInt32.lt_iff_toNat_lt.2 (by omega)⟩
  have hmod := toNat_and_seven (n + xHeapStructSize)
  rw [wantedSize, if_pos hgreater]
  by_cases hround : (n + xHeapStructSize) &&& portBYTE_ALIGNMENT_MASK ≠ 0
  · have hne : (n + xHeapStructSize).toNat % 8 ≠ 0 := fun h ↦
      hround (UInt32.toNat_inj.1 (hmod.trans h))
    have hpad : (portBYTE_ALIGNMENT - ((n + xHeapStructSize) &&& portBYTE_ALIGNMENT_MASK)).toNat =
        8 - (n.toNat + 8) % 8 := by
      rw [UInt32.toNat_sub_of_le _ _ (UInt32.le_iff_toNat_le.2 ?_), hmod, hadd]
      · rfl
      · rw [hmod]
        exact (Nat.mod_lt _ (by decide)).le
    have hsum : (n + xHeapStructSize +
        (portBYTE_ALIGNMENT - ((n + xHeapStructSize) &&& portBYTE_ALIGNMENT_MASK))).toNat =
        n.toNat + 8 + (8 - (n.toNat + 8) % 8) := by
      rw [UInt32.toNat_add, hadd, hpad]
      exact Nat.mod_eq_of_lt (by omega)
    rw [if_pos hround, if_pos (UInt32.lt_iff_toNat_lt.2 (by omega)), hsum, need]
    omega
  · have heq : (n + xHeapStructSize).toNat % 8 = 0 := by
      rw [← hmod, not_not.1 hround]
      rfl
    rw [if_neg hround, hadd, need]
    omega

/-! ## The first call -/

theorem alignedHeap_base (P : Placement) : (alignedHeap P).1.toNat = P.base := by
  have hpos := P.notNull
  have hmem := P.inMemory
  have hlarge := P.large
  have hmod := toNat_and_seven P.ucHeap
  unfold alignedHeap Placement.base
  by_cases hround : P.ucHeap &&& portBYTE_ALIGNMENT_MASK ≠ 0
  · have hadd : (P.ucHeap + (portBYTE_ALIGNMENT - 1)).toNat = P.ucHeap.toNat + 7 := by
      rw [UInt32.toNat_add]
      exact Nat.mod_eq_of_lt (by show P.ucHeap.toNat + 7 < 2 ^ 32; omega)
    rw [if_pos hround, toNat_and_not_seven, hadd]
  · have heq : P.ucHeap.toNat % 8 = 0 := by
      rw [← hmod, not_not.1 hround]
      rfl
    rw [if_neg hround]
    show P.ucHeap.toNat = _
    omega

theorem alignedHeap_end (P : Placement) :
    (((alignedHeap P).1 + (alignedHeap P).2 - xHeapStructSize) &&&
    ~~~portBYTE_ALIGNMENT_MASK).toNat =
      P.stop := by
  have hmem := P.inMemory
  have hlarge := P.large
  have hend : (alignedHeap P).1 + (alignedHeap P).2 - xHeapStructSize =
      P.ucHeap + P.configTOTAL_HEAP_SIZE - xHeapStructSize := by
    unfold alignedHeap
    dsimp only
    split
    · grind
    · rfl
  have hsub : (P.ucHeap + P.configTOTAL_HEAP_SIZE - xHeapStructSize).toNat =
      P.ucHeap.toNat + P.configTOTAL_HEAP_SIZE.toNat - 8 := by
    rw [UInt32.toNat_sub, UInt32.toNat_add]
    show (2 ^ 32 - 8 + (P.ucHeap.toNat + P.configTOTAL_HEAP_SIZE.toNat) % 2 ^ 32) % 2 ^ 32 = _
    omega
  rw [toNat_and_not_seven, hend, hsub, Placement.stop]

/-- The size of the first block. -/
def firstSize (P : Placement) : UInt32 :=
  (((alignedHeap P).1 + (alignedHeap P).2 - xHeapStructSize) &&& ~~~portBYTE_ALIGNMENT_MASK) -
    (alignedHeap P).1

theorem toNat_firstSize (P : Placement) : (firstSize P).toNat = P.stop - P.base := by
  have hlt := P.base_lt_stop
  have hbase := alignedHeap_base P
  have hend := alignedHeap_end P
  rw [firstSize, UInt32.toNat_sub_of_le _ _ (UInt32.le_iff_toNat_le.2 (by omega)), hend, hbase]

theorem prvHeapInit_apply : prvHeapInit P s = some ((), { s with
    link := Function.update (Function.update (Function.update s.link P.xStart ⟨P.base, 0⟩)
      P.stop ⟨0, 0⟩) P.base ⟨P.stop, firstSize P⟩
    pxEnd := P.stop
    xFreeBytesRemaining := firstSize P
    xMinimumEverFreeBytesRemaining := firstSize P
    xBlockAllocatedBit := 0x80000000 }) := by
  rw [prvHeapInit]
  simp only [alignedHeap_base, alignedHeap_end]
  rw [bind_of_eq setNextFreeBlock_apply, bind_of_eq (setBlockSize_apply _), withLink_withLink,
    bind_of_eq (modify_apply _ _), bind_of_eq (setBlockSize_apply _),
    bind_of_eq setNextFreeBlock_apply, withLink_withLink, bind_of_eq (setBlockSize_apply _),
    bind_of_eq setNextFreeBlock_apply, withLink_withLink, bind_of_eq deref_apply, modify_apply]
  simp [Heap.withLink, firstSize]
  rfl

/-- The heap is one free block. -/
theorem run_prvHeapInit (hs : s.xNumberOfSuccessfulAllocations = s.xNumberOfSuccessfulFrees) :
    Run (prvHeapInit P) s fun _ s' ↦ Represents P s' [⟨P.base, P.stop - P.base, none⟩] ∧
      s'.xMinimumEverFreeBytesRemaining = s'.xFreeBytesRemaining := by
  have hlt := P.base_lt_stop
  have hout := P.xStart_outside
  have hbase : P.xStart ≠ P.base := by omega
  have hstop : P.xStart ≠ P.stop := by omega
  rw [run_of_eq prvHeapInit_apply]
  refine ⟨⟨⟨?_, ?_, ?_, ?_, ?_, ?_⟩, List.IsChain.singleton _, rfl, rfl, ?_, ?_⟩, rfl⟩
  · exact ⟨rfl, Nat.sub_pos_of_lt hlt, Nat.add_sub_cancel' hlt.le⟩
  · intro t ht
    obtain rfl := List.mem_singleton.1 ht
    unfold Placement.base Placement.stop
    exact ⟨Nat.dvd_mul_left .., Nat.dvd_sub (Nat.dvd_mul_left ..) (Nat.dvd_mul_left ..)⟩
  · intro t ht
    obtain rfl := List.mem_singleton.1 ht
    unfold Header
    simpa using toNat_firstSize P
  · rw [frees_cons_free rfl, frees_nil]
    simp [hbase, hstop]
  · simp [hbase, hstop]
  · simp [hlt.ne']
  · rw [freeBytes_cons_free rfl]
    exact toNat_firstSize P
  · show s.xNumberOfSuccessfulAllocations = s.xNumberOfSuccessfulFrees + 0
    rw [hs, UInt32.add_zero]

/-! ## Allocating -/

/-- What `pvPortMalloc` leaves of the blocks: `NULL` if no free one is large enough, and else the
first that is, cut. -/
def Allocated (P : Placement) (n : UInt32) (ts : List Block) (s : Heap) (r : Nat)
    (s' : Heap) : Prop :=
  (r = 0 ∧ s' = s ∧ (n = 0 ∨ 2 ^ 31 ≤ n.toNat ∨ ∀ t ∈ ts, t.use = none → t.size < need n)) ∨
    ∃ xs t ys, ts = xs ++ t :: ys ∧ t.use = none ∧ need n ≤ t.size ∧
      (∀ u ∈ xs, u.use = none → u.size < need n) ∧ n ≠ 0 ∧ n.toNat < 2 ^ 31 ∧ r = t.start + 8 ∧
      Represents P s' (xs ++ ⟨t.start, cutSize (need n) t, some .allocated⟩ ::
        (remainder (need n) t ++ ys)) ∧
      Kept ts s.link s'.link ∧
      s'.xMinimumEverFreeBytesRemaining.toNat =
        min s.xMinimumEverFreeBytesRemaining.toNat s'.xFreeBytesRemaining.toNat

theorem run_allocate (h : Represents P s ts) : Run (allocate P n) s (Allocated P n ts s) := by
  rw [allocate, run_bind, run_of_eq (read_apply _ _), h.bit]
  by_cases hsmall : n.toNat < 2 ^ 31
  · rw [if_pos ((marked_eq_zero_iff n).2 hsmall), run_bind, run_of_eq (read_apply _ _)]
    by_cases hzero : n = 0
    · subst hzero
      rw [wantedSize_zero, if_neg fun hcond ↦ absurd hcond.1 (by decide)]
      exact run_pure.2 (.inl ⟨rfl, rfl, .inl rfl⟩)
    have hpos : 0 < n.toNat := Nat.pos_of_ne_zero fun h0 ↦ hzero (UInt32.toNat_inj.1 h0)
    have hneed := toNat_wantedSize hpos hsmall
    have hneedPos : 0 < need n := by unfold need; omega
    by_cases hfits : wantedSize n > 0 ∧ wantedSize n ≤ s.xFreeBytesRemaining
    · rw [if_pos hfits, run_bind, run_of_eq deref_apply, run_bind]
      have hlinked : Linked P s.link ([] ++ ts) := h.linked
      have hstart : (s.link P.xStart).pxNextFreeBlock = nextFree P ts :=
        hlinked.next_previous
      rw [hstart]
      rcases findBlock_eq (n := wantedSize n) hlinked with
        ⟨hnone, p, hfind⟩ | ⟨xs, t, ys, rfl, ht, hle, hbefore, hfind⟩
      · replace hfind : findBlock (wantedSize n) (P.xStart, nextFree P ts) s =
            some ((p, P.stop), s) := hfind
        rw [run_of_eq hfind]
        show Run (_ >>= _) s _
        rw [run_bind, run_of_eq (read_apply _ _), h.pxEnd, if_neg (not_not.2 rfl)]
        rw [hneed] at hnone
        exact run_pure.2 (.inl ⟨rfl, rfl, .inr (.inr hnone)⟩)
      · have hne : t.start ≠ s.pxEnd := by
          rw [h.pxEnd]
          exact (start_lt_stop h.linked.tiled (List.mem_append_right _ List.mem_cons_self)).ne
        replace hfind : findBlock (wantedSize n) (P.xStart, nextFree P (xs ++ t :: ys)) s =
            some ((previous P xs, t.start), s) := hfind
        rw [run_of_eq hfind]
        show Run (_ >>= _) s _
        rw [run_bind, run_of_eq (read_apply _ _), if_pos hne]
        have h8 : 8 ∣ (wantedSize n).toNat := by
          rw [hneed]
          exact Nat.dvd_mul_left ..
        refine (run_takeBlock h ht h8 (hneed ▸ hneedPos) hle).mono ?_
        rintro r s' ⟨hr, hrep, hkept, hmin⟩
        rw [hneed] at hle hbefore hrep
        exact .inr ⟨xs, t, ys, rfl, ht, hle, hbefore, hzero, hsmall, hr, hrep, hkept, hmin⟩
    · rw [if_neg hfits]
      refine run_pure.2 (.inl ⟨rfl, rfl, .inr (.inr fun t ht hfree ↦ ?_)⟩)
      -- what is not free altogether is not in one block either
      have hless : ¬ wantedSize n ≤ s.xFreeBytesRemaining := fun hle ↦
        hfits ⟨UInt32.lt_iff_toNat_lt.2 (hneed ▸ hneedPos), hle⟩
      rw [UInt32.le_iff_toNat_le, hneed, h.free] at hless
      have hone : t.size ≤ freeBytes ts := size_le_extent ht (by simp [hfree])
      omega
  · rw [if_neg fun hbit ↦ hsmall ((marked_eq_zero_iff n).1 hbit)]
    exact run_pure.2 (.inl ⟨rfl, rfl, .inr (.inl (not_lt.1 hsmall))⟩)

theorem run_pvPortMalloc (h : Represents P s ts) :
    Run (pvPortMalloc P n) s (Allocated P n ts s) := by
  have hend : s.pxEnd ≠ 0 := by
    have hlt := P.base_lt_stop
    rw [h.pxEnd]
    omega
  rw [pvPortMalloc, run_bind, run_of_eq (read_apply _ _), run_bind]
  refine run_when (fun heq ↦ absurd heq hend) fun _ ↦ ?_
  exact run_allocate h

/-- The first call. -/
theorem run_pvPortMalloc_first (hend : s.pxEnd = 0)
    (hcount : s.xNumberOfSuccessfulAllocations = s.xNumberOfSuccessfulFrees) :
    Run (pvPortMalloc P n) s fun r s' ↦ ∃ t,
      Represents P t [⟨P.base, P.stop - P.base, none⟩] ∧
      t.xMinimumEverFreeBytesRemaining = t.xFreeBytesRemaining ∧
      Allocated P n [⟨P.base, P.stop - P.base, none⟩] t r s' := by
  rw [pvPortMalloc, run_bind, run_of_eq (read_apply _ _), run_bind]
  refine run_when (fun _ ↦ ?_) fun hne ↦ absurd hend hne
  refine (run_prvHeapInit hcount).mono ?_
  rintro _ t ⟨hrep, hmin⟩
  exact (run_allocate hrep).mono fun r s' hr ↦ ⟨t, hrep, hmin, hr⟩

/-- A list has only one first element of a kind. -/
theorem first_unique {α : Type} {p : α → Prop} {xs xs' ys ys' : List α} {t t' : α}
    (heq : xs ++ t :: ys = xs' ++ t' :: ys') (hxs : ∀ u ∈ xs, ¬ p u) (ht : p t)
    (hxs' : ∀ u ∈ xs', ¬ p u) (ht' : p t') : xs = xs' ∧ t = t' ∧ ys = ys' := by
  induction xs generalizing xs' with
  | nil =>
      cases xs' with
      | nil => exact ⟨rfl, List.cons.inj heq⟩
      | cons u xs' =>
          obtain ⟨rfl, -⟩ := List.cons.inj heq
          exact absurd ht (hxs' t List.mem_cons_self)
  | cons u xs ih =>
      cases xs' with
      | nil =>
          obtain ⟨rfl, -⟩ := List.cons.inj heq
          exact absurd ht' (hxs u List.mem_cons_self)
      | cons u' xs' =>
          obtain ⟨rfl, hrest⟩ := List.cons.inj heq
          obtain ⟨rfl, h⟩ := ih hrest (fun v hv ↦ hxs v (List.mem_cons_of_mem _ hv))
            (fun v hv ↦ hxs' v (List.mem_cons_of_mem _ hv))
          exact ⟨rfl, h⟩

/-- It is the first free block that is large enough. -/
theorem Allocated.eq_of_first {before after : Heap} {r : Nat} (xs ys : List Block)
    (h : Allocated P n (xs ++ t :: ys) before r after) (hn : n ≠ 0) (hlt : n.toNat < 2 ^ 31)
    (hxs : ∀ u ∈ xs, u.use = none → u.size < need n) (hfree : t.use = none)
    (hle : need n ≤ t.size) : r = t.start + 8 ∧
      Represents P after (xs ++ ⟨t.start, cutSize (need n) t, some .allocated⟩ ::
        (remainder (need n) t ++ ys)) := by
  rcases h with ⟨-, -, hzero | hlarge | hsmall⟩ | ⟨xs', u, ys', hts, hu, hule, hxs', -, -, hr,
    hrep, -⟩
  · exact absurd hzero hn
  · omega
  · have hless := hsmall t (List.mem_append_right _ List.mem_cons_self) hfree
    omega
  · have hless {v : Block} (hv : v.use = none → v.size < need n) :
        ¬ (v.use = none ∧ need n ≤ v.size) := fun h ↦ Nat.not_lt.2 h.2 (hv h.1)
    obtain ⟨rfl, rfl, rfl⟩ := first_unique (p := fun v ↦ v.use = none ∧ need n ≤ v.size) hts
      (fun v hv ↦ hless (hxs v hv)) ⟨hfree, hle⟩ (fun v hv ↦ hless (hxs' v hv)) ⟨hu, hule⟩
    exact ⟨hr, hrep⟩

/-! ## Freeing -/

/-- `vPortFree` unmarks an allocated block. -/
theorem run_vPortFreeMark (h : Represents P s (xs ++ t :: ys)) (ht : t.use = some .allocated) :
    Run (vPortFreeMark (t.start + 8)) s fun r s' ↦ r = true ∧
      Represents P s' (xs ++ ⟨t.start, t.size, some .loose⟩ :: ys) ∧
      (∀ p, p ≠ t.start → s'.link p = s.link p) ∧
      s'.xMinimumEverFreeBytesRemaining = s.xMinimumEverFreeBytesRemaining ∧
      s'.xFreeBytesRemaining = s.xFreeBytesRemaining := by
  have hmem : t ∈ xs ++ t :: ys := List.mem_append_right _ List.mem_cons_self
  have hused : t.use.isSome := by rw [ht]; rfl
  have hlt := h.linked.size_lt hmem
  have hheader := h.linked.header t hmem
  unfold Header at hheader
  rw [ht] at hheader
  have hbit : (s.link t.start).xBlockSize &&& 0x80000000 ≠ 0 := by
    rw [Ne, marked_eq_zero_iff, hheader.1]
    omega
  have hlink : t.start + 8 - xHeapStructSize.toNat = t.start := Nat.add_sub_cancel ..
  rw [vPortFreeMark, if_pos (Nat.succ_ne_zero _), hlink, run_bind, run_of_eq deref_apply, run_bind,
    run_of_eq (read_apply _ _), h.bit, if_pos ⟨hbit, hheader.2⟩, run_bind,
    run_of_eq (setBlockSize_apply _), run_pure]
  obtain ⟨hxs, hys, -⟩ := merged_append.1 h.merged
  refine ⟨rfl, ⟨?_, hxs.used (List.isChain_cons.1 hys).2 rfl, h.pxEnd, h.bit, ?_, ?_⟩,
    fun p hp ↦ withLink_of_ne hp, rfl, rfl⟩
  · refine h.linked.mark hused ?_
    show ((s.link t.start).xBlockSize &&& ~~~0x80000000).toNat = t.size
    rw [toNat_unmarked, hheader.1]
    omega
  · have hfree := h.free
    rw [freeBytes_append, freeBytes_cons_used hused] at hfree
    rw [freeBytes_append, freeBytes_cons_used rfl]
    exact hfree
  · have hcount := h.count
    rw [inUse_append, inUse_cons_used hused] at hcount
    rw [inUse_append, inUse_cons_used rfl]
    exact hcount

theorem inUse_vacated {us : List Block} (h : Vacated xs t ys us) :
    inUse us = inUse xs + inUse ys := by
  cases h with
  | alone _ _ => rw [inUse_append, inUse_cons_free rfl]
  | before hs _ => rw [inUse_append, inUse_append, inUse_cons_free rfl, inUse_cons_free hs]; rfl
  | behind _ hu => rw [inUse_append, inUse_cons_free rfl, inUse_cons_free hu]
  | between hs hu =>
      rw [inUse_append, inUse_append, inUse_cons_free rfl, inUse_cons_free hs, inUse_cons_free hu]
      rfl

theorem freeBytes_vacated {us : List Block} (h : Vacated xs t ys us) :
    freeBytes us = freeBytes xs + t.size + freeBytes ys :=
  h.extent_eq

/-- `vPortFree` puts a block back into the free list. -/
theorem run_vPortFreeReturn (h : Represents P s (xs ++ t :: ys)) (ht : t.use = some .loose) :
    Run (vPortFreeReturn P (t.start + 8)) s fun _ s' ↦ ∃ us, Vacated xs t ys us ∧
      Represents P s' us ∧ Kept (xs ++ t :: ys) s.link s'.link ∧
      s'.xMinimumEverFreeBytesRemaining = s.xMinimumEverFreeBytesRemaining ∧
      s'.xFreeBytesRemaining.toNat = s.xFreeBytesRemaining.toNat + t.size := by
  have hmem : t ∈ xs ++ t :: ys := List.mem_append_right _ List.mem_cons_self
  have hused : t.use.isSome := by rw [ht]; rfl
  have hsize : (s.link t.start).xBlockSize.toNat = t.size := by
    have hheader := h.linked.header t hmem
    unfold Header at hheader
    rwa [ht] at hheader
  have hlink : t.start + 8 - xHeapStructSize.toNat = t.start := Nat.add_sub_cancel ..
  obtain ⟨hxs, hys, -⟩ := merged_append.1 h.merged
  rw [vPortFreeReturn, hlink, run_bind, run_of_eq deref_apply, run_bind,
    run_of_eq (modify_apply _ _), run_bind]
  refine (run_prvInsertBlockIntoFreeList (s := { s with
    xFreeBytesRemaining := s.xFreeBytesRemaining + (s.link t.start).xBlockSize }) h.linked ht
    h.pxEnd).mono ?_
  rintro _ _ ⟨us, link', rfl, hvacated, hlinked, hspared⟩
  have hbytes : s.xFreeBytesRemaining.toNat + t.size = freeBytes us := by
    rw [freeBytes_vacated hvacated, h.free, freeBytes_append, freeBytes_cons_used hused]
    omega
  have hsum : (s.xFreeBytesRemaining + (s.link t.start).xBlockSize).toNat =
      s.xFreeBytesRemaining.toNat + t.size := by
    have hbound : P.base + freeBytes us ≤ P.stop := hlinked.tiled.extent_le
    have hstop := P.stop_lt
    rw [UInt32.toNat_add, hsize]
    exact Nat.mod_eq_of_lt (by omega)
  rw [run_of_eq (modify_apply _ _)]
  refine ⟨us, hvacated, ⟨hlinked, hvacated.merged hxs (List.isChain_cons.1 hys).2, h.pxEnd, h.bit,
    hsum.trans hbytes, ?_⟩, hspared.kept h.linked.tiled, rfl, hsum⟩
  have hcount := h.count
  rw [inUse_append, inUse_cons_used hused, ← Nat.add_assoc, UInt32.ofNat_add] at hcount
  show s.xNumberOfSuccessfulAllocations = s.xNumberOfSuccessfulFrees + 1 + _
  rw [hcount, inUse_vacated hvacated, UInt32.add_assoc, UInt32.add_comm 1]
  rfl

end Stm32F1.Rtos
