import Stm32F1.Rtos.Blocks

/-!
# The free list

`prvInsertBlockIntoFreeList` makes one free block of a block that is given back and
the free ones that it touches.
-/

namespace Stm32F1.Rtos

open Prog

variable {P : Placement} {link link' : Nat → BlockLink} {s : Heap} {t u v f : Block}
  {p q a b : Nat} {l : BlockLink} {ts xs ys us pre mid post : List Block}

/-! ## Memory -/

@[simp] theorem withLink_self : (s.withLink p l).link p = l := Function.update_self ..

theorem withLink_of_ne (h : q ≠ p) : (s.withLink p l).link q = s.link q :=
  Function.update_of_ne h ..

@[simp] theorem withLink_withLink (l' : BlockLink) :
    (s.withLink p l).withLink p l' = s.withLink p l' := by
  simp [Heap.withLink]

@[simp] theorem pxEnd_withLink : (s.withLink p l).pxEnd = s.pxEnd := rfl

@[simp] theorem deref_apply : deref p s = some (s.link p, s) := rfl

@[simp] theorem setNextFreeBlock_apply :
    setNextFreeBlock p q s = some ((), s.withLink p { s.link p with pxNextFreeBlock := q }) := rfl

@[simp] theorem setBlockSize_apply (n : UInt32) :
    setBlockSize p n s = some ((), s.withLink p { s.link p with xBlockSize := n }) := rfl

/-! ## The position -/

/-- The loop ends with the last cell before the block. -/
theorem insertPosition_eq {before behind : List Nat}
    (h : Path (fun p ↦ (s.link p).pxNextFreeBlock) a (before ++ behind) b)
    (hlt : ∀ x ∈ before, x < q) (hge : q ≤ behind.head?.getD b) :
    insertPosition q a s = some (lastCell a before, s) := by
  induction before generalizing a with
  | nil =>
      have hnext := h.next_eq
      rw [List.nil_append] at hnext
      have hstop : ¬ (s.link a).pxNextFreeBlock < q := by
        rw [hnext]
        exact not_lt.2 hge
      rw [insertPosition, repeatM_unfold, bind_apply, bind_of_eq deref_apply, if_neg hstop]
      rfl
  | cons x before ih =>
      obtain ⟨hx, hrest⟩ := h
      replace hx : (s.link a).pxNextFreeBlock = x := hx
      have hmore : (s.link a).pxNextFreeBlock < q := by
        rw [hx]
        exact hlt x List.mem_cons_self
      rw [lastCell_cons, ← ih hrest fun y hy ↦ hlt y (List.mem_cons_of_mem x hy)]
      conv_lhs => rw [insertPosition, repeatM_unfold, bind_apply, bind_of_eq deref_apply,
        if_pos hmore]
      rw [hx]
      rfl

/-! ## Joining -/

theorem joinBefore_of_eq (h : p + (s.link p).xBlockSize.toNat = q) :
    joinBefore p q s = some (p, s.withLink p
      { s.link p with xBlockSize := (s.link p).xBlockSize + (s.link q).xBlockSize }) := by
  rw [joinBefore, bind_of_eq deref_apply, if_pos h]
  rfl

theorem joinBefore_of_ne (h : p + (s.link p).xBlockSize.toNat ≠ q) :
    joinBefore p q s = some (q, s) := by
  rw [joinBefore, bind_of_eq deref_apply, if_neg h]
  rfl

theorem joinBehind_of_eq (h : q + (s.link q).xBlockSize.toNat = (s.link p).pxNextFreeBlock)
    (hne : (s.link p).pxNextFreeBlock ≠ s.pxEnd) :
    joinBehind p q s = some ((), s.withLink q
      ⟨(s.link (s.link p).pxNextFreeBlock).pxNextFreeBlock,
        (s.link q).xBlockSize + (s.link (s.link p).pxNextFreeBlock).xBlockSize⟩) := by
  rw [joinBehind, bind_of_eq deref_apply, bind_of_eq deref_apply, if_pos h,
    bind_of_eq (read_apply _ _), if_pos hne, bind_of_eq deref_apply,
    bind_of_eq (setBlockSize_apply _), setNextFreeBlock_apply, withLink_withLink, withLink_self]

theorem joinBehind_of_ne (h : q + (s.link q).xBlockSize.toNat = (s.link p).pxNextFreeBlock →
    (s.link p).pxNextFreeBlock = s.pxEnd) :
    joinBehind p q s =
      some ((), s.withLink q ⟨(s.link p).pxNextFreeBlock, (s.link q).xBlockSize⟩) := by
  rw [joinBehind, bind_of_eq deref_apply, bind_of_eq deref_apply]
  by_cases htouch : q + (s.link q).xBlockSize.toNat = (s.link p).pxNextFreeBlock
  · rw [if_pos htouch, bind_of_eq (read_apply _ _), if_neg (not_not.2 (h htouch)), ← h htouch]
    rfl
  · rw [if_neg htouch]
    rfl

/-! ## Insertion -/

/-- Blocks become one free block, which is linked to the next one. -/
theorem Linked.fuse (h : Linked P link (pre ++ mid ++ post)) (hf : f.use = none)
    (htiled : ∀ c d, Tiled c mid d → Tiled c [f] d) (haligned : 8 ∣ f.start ∧ 8 ∣ f.size)
    (hsize : (link' f.start).xBlockSize.toNat = f.size)
    (hnext : (link' f.start).pxNextFreeBlock = nextFree P post)
    (hprev : link' (previous P pre) = ⟨f.start, (link (previous P pre)).xBlockSize⟩)
    (hkept : ∀ p, p ≠ previous P pre → p ≠ f.start → link' p = link p) :
    Linked P link' (pre ++ f :: post) := by
  have hnew := h.tiled.exchange htiled
  have hsplit : Tiled P.base (pre ++ f :: post) P.stop := by
    rwa [List.append_assoc] at hnew
  rw [← List.singleton_append, ← List.append_assoc]
  refine h.exchange htiled ?_ ?_ ?_ ?_ ?_
  · intro v hv
    obtain rfl := List.mem_singleton.1 hv
    exact haligned
  · intro v hv
    obtain rfl := List.mem_singleton.1 hv
    unfold Header
    rw [hf]
    exact hsize
  · rw [frees_cons_free hf, frees_nil]
    refine ⟨congrArg BlockLink.pxNextFreeBlock hprev, ?_⟩
    have hbehind : Path (fun p ↦ (link p).pxNextFreeBlock) (previous P (pre ++ mid)) (frees post)
        P.stop := by
      have hpath := h.path
      rw [frees_append] at hpath
      exact hpath.behind
    refine hbehind.enter (hnext.trans hbehind.next_eq.symm) ?_
    intro y hy
    obtain ⟨u, hu, -, rfl⟩ := mem_frees.1 hy
    have hlo := hsplit.split.2.2.le_start hu
    have hpos := hsplit.split.2.1
    unfold Tile.stop at hlo
    refine congrArg BlockLink.pxNextFreeBlock (hkept _ ?_ (by omega))
    rcases previous_eq_or (P := P) pre with heq | ⟨w, hw, -, hstart⟩
    · rw [heq]
      exact start_ne_xStart h.tiled (List.mem_append_right _ hu)
    · have hhi := hsplit.split.1.stop_le hw
      unfold Tile.stop at hhi
      omega
  · rw [hprev]
  · intro p hp hpf
    exact hkept p hp (hpf f List.mem_cons_self)

theorem Linked.next_previous (h : Linked P link (xs ++ ys)) :
    (link (previous P xs)).pxNextFreeBlock = nextFree P ys := by
  have hpath := h.path
  rw [frees_append] at hpath
  exact hpath.behind.next_eq

theorem nextFree_cons_used (ht : t.use.isSome) : nextFree P (t :: ys) = nextFree P ys := by
  rw [nextFree, frees_cons_used ht]
  rfl

theorem nextFree_cons_free (ht : t.use = none) : nextFree P (t :: ys) = t.start := by
  rw [nextFree, frees_cons_free ht]
  rfl

theorem previous_concat_free (hs : t.use = none) : previous P (xs ++ [t]) = t.start := by
  rw [previous, frees_append, frees_cons_free hs, frees_nil]
  exact lastCell_concat

/-- The free block before a block that does not touch one ends before it. -/
theorem Linked.previous_not_touching (h : Linked P link (xs ++ t :: ys)) (hlast : UsedLast xs) :
    previous P xs + (link (previous P xs)).xBlockSize.toNat ≠ t.start := by
  have hmem : t ∈ xs ++ t :: ys := List.mem_append_right _ List.mem_cons_self
  rcases previous_eq_or (P := P) xs with heq | ⟨u, hu, hfree, heq⟩
  · rw [heq, h.startSize]
    exact (start_ne_xStart h.tiled hmem).symm
  · rw [← heq]
    have hheader := h.header u (List.mem_append_left _ hu)
    unfold Header at hheader
    rw [hfree] at hheader
    rw [hheader]
    intro htouch
    -- the last block before `t` ends there too, and it is not free
    rcases List.eq_nil_or_concat xs with rfl | ⟨xs, w, rfl⟩
    · exact absurd hu List.not_mem_nil
    · rw [List.concat_eq_append] at h hlast hu
      have hw := hlast w (by simp)
      obtain ⟨-, hwpos, hwstop⟩ := h.tiled.split.1.split
      have hupos := h.tiled.split.1.size_pos hu
      have hwu : w = u := by
        apply h.tiled.split.1.eq_of_mem (x := t.start - 1) (by simp) hu
        · rw [tiled_nil] at hwstop
          unfold Tile.stop at hwstop ⊢
          omega
        · unfold Tile.stop
          omega
      rw [hwu, hfree] at hw
      exact absurd hw (by simp)

/-- The next free block does not begin where a block ends, unless it is the one behind it. -/
theorem Linked.next_not_touching (h : Linked P link (xs ++ t :: ys)) (hhead : UsedHead ys)
    (htouch : t.stop = nextFree P ys) : nextFree P ys = P.stop := by
  obtain ⟨-, -, hys⟩ := h.tiled.split
  cases ys with
  | nil => rfl
  | cons w ys =>
      obtain ⟨hstart, hpos, hrest⟩ := hys
      have hw := hhead w rfl
      rcases nextFree_eq_or (P := P) (w :: ys) with heq | ⟨u, hu, hfree, heq⟩
      · exact heq
      · rcases List.mem_cons.1 hu with rfl | hu
        · rw [hfree] at hw
          exact absurd hw (by simp)
        · have hlo := hrest.le_start hu
          unfold Tile.stop at hlo htouch hstart
          omega

/-- The position of a block that is not in the free list. -/
theorem Linked.insertPosition_eq (h : Linked P s.link (xs ++ t :: ys)) (ht : t.use.isSome) :
    insertPosition t.start P.xStart s = some (previous P xs, s) := by
  have hpath := h.path
  rw [frees_append, frees_cons_used ht] at hpath
  obtain ⟨hxs, hpos, hys⟩ := h.tiled.split
  refine Rtos.insertPosition_eq hpath ?_ ?_
  · intro x hx
    obtain ⟨u, hu, -, rfl⟩ := mem_frees.1 hx
    have hhi := hxs.stop_le hu
    have hupos := hxs.size_pos hu
    unfold Tile.stop at hhi
    omega
  · show t.start ≤ nextFree P ys
    have hstop : t.start ≤ t.stop := Nat.le_add_right _ _
    rcases nextFree_eq_or (P := P) ys with heq | ⟨u, hu, -, heq⟩
    · rw [heq]
      exact hstop.trans hys.le
    · rw [← heq]
      exact hstop.trans (hys.le_start hu)

/-- The header of a free block. -/
theorem Linked.size_free (h : Linked P link ts) (ht : t ∈ ts) (hfree : t.use = none) :
    (link t.start).xBlockSize.toNat = t.size := by
  have hheader := h.header t ht
  unfold Header at hheader
  rwa [hfree] at hheader

/-- A free block is linked to the next one. -/
theorem Linked.next_free (h : Linked P link (xs ++ t :: ys)) (hfree : t.use = none) :
    (link t.start).pxNextFreeBlock = nextFree P ys := by
  have hsplit : xs ++ t :: ys = xs ++ [t] ++ ys := by simp
  rw [hsplit] at h
  rw [← h.next_previous, previous_concat_free hfree]

/-- The sizes of blocks do not overflow when they are added. -/
theorem toNat_sizes {m n : UInt32} {k l : Nat} (hm : m.toNat = k) (hn : n.toNat = l)
    (hk : k < 2 ^ 31) (hl : l < 2 ^ 31) : (m + n).toNat = k + l := by
  rw [UInt32.toNat_add, hm, hn]
  exact Nat.mod_eq_of_lt (by omega)

/-- The last statement: the block before is linked to the block. -/
theorem linkPrevious_of_ne (h : p ≠ q) :
    when (p ≠ q) (setNextFreeBlock p q) s =
      some ((), s.withLink p { s.link p with pxNextFreeBlock := q }) := by
  rw [decide_eq_true h]
  rfl

theorem linkPrevious_self : when (p ≠ p) (setNextFreeBlock p p) s = some ((), s) := by
  simp

/-- The memory that changes when a block is inserted: the block before it, which is free, and the
block itself. -/
def Spared (P : Placement) (ts : List Block) (link link' : Nat → BlockLink) : Prop :=
  ∀ p, p ≠ P.xStart → (∀ v ∈ ts, v.start = p → v.use = some .allocated) → link' p = link p

theorem ne_of_spared {ts : List Block} (hv : v ∈ ts) (hfree : v.use ≠ some .allocated)
    (hp : ∀ v ∈ ts, v.start = p → v.use = some .allocated) : p ≠ v.start :=
  fun heq ↦ hfree (hp v hv heq.symm)

theorem previous_ne_of_spared {ts : List Block} (hsub : ∀ v ∈ xs, v ∈ ts) (hx : p ≠ P.xStart)
    (hp : ∀ v ∈ ts, v.start = p → v.use = some .allocated) : p ≠ previous P xs := by
  rcases previous_eq_or (P := P) xs with heq | ⟨u, hu, hfree, heq⟩
  · rw [heq]
    exact hx
  · rw [← heq]
    exact ne_of_spared (hsub u hu) (by simp [hfree]) hp

/-- The free block that the blocks `mid` become, linked from the free block before it. -/
theorem Linked.placed (h : Linked P s.link (pre ++ mid ++ post)) (hf : f.use = none)
    (htiled : ∀ c d, Tiled c mid d → Tiled c [f] d) (haligned : 8 ∣ f.start ∧ 8 ∣ f.size)
    {n : UInt32} (hn : n.toNat = f.size) (hne : previous P pre ≠ f.start) (s' : Heap)
    (hs' : s' = s.withLink f.start ⟨nextFree P post, n⟩) :
    Linked P (s'.withLink (previous P pre)
      { s'.link (previous P pre) with pxNextFreeBlock := f.start }).link (pre ++ f :: post) := by
  subst hs'
  refine h.fuse hf htiled haligned ?_ ?_ ?_ ?_
  · simpa [Heap.withLink, hne.symm] using hn
  · simp [Heap.withLink, hne.symm]
  · simp [Heap.withLink, hne]
  · intro p hp hpf
    simp [Heap.withLink, hp, hpf]

/-- The same where the first of the blocks was in the free list. -/
theorem Linked.extended (h : Linked P s.link (pre ++ t :: mid ++ post)) (ht : t.use = none)
    (hf : f.use = none) (hstart : f.start = t.start)
    (htiled : ∀ c d, Tiled c (t :: mid) d → Tiled c [f] d) (haligned : 8 ∣ f.start ∧ 8 ∣ f.size)
    {n : UInt32} (hn : n.toNat = f.size) :
    Linked P (s.withLink f.start ⟨nextFree P post, n⟩).link (pre ++ f :: post) := by
  have hprev : (s.link (previous P pre)).pxNextFreeBlock = f.start := by
    rw [List.append_assoc] at h
    rw [h.next_previous, List.cons_append, nextFree_cons_free ht, hstart]
  have hne : previous P pre ≠ f.start := by
    rw [hstart]
    rcases previous_eq_or (P := P) pre with heq | ⟨u, hu, -, heq⟩
    · rw [heq]
      exact (start_ne_xStart h.tiled (by simp)).symm
    · rw [List.append_assoc] at h
      have hhi := h.tiled.split.1.stop_le hu
      have hpos := h.tiled.split.1.size_pos hu
      unfold Tile.stop at hhi
      omega
  refine h.fuse hf htiled haligned ?_ ?_ ?_ ?_
  · rw [withLink_self]
    exact hn
  · rw [withLink_self]
  · rw [withLink_of_ne hne, ← hprev]
  · intro p _ hpf
    exact withLink_of_ne hpf

/-- **`prvInsertBlockIntoFreeList`**: the block becomes one with the free blocks beside it. -/
theorem run_prvInsertBlockIntoFreeList (h : Linked P s.link (xs ++ t :: ys))
    (ht : t.use = some .loose) (hend : s.pxEnd = P.stop) :
    Run (prvInsertBlockIntoFreeList P t.start) s fun _ s' ↦
      ∃ us link', s' = { s with link := link' } ∧
      Vacated xs t ys us ∧ Linked P link' us ∧ Spared P (xs ++ t :: ys) s.link link' := by
  have hused : t.use.isSome := by rw [ht]; rfl
  have hmem : t ∈ xs ++ t :: ys := List.mem_append_right _ List.mem_cons_self
  have hsize : (s.link t.start).xBlockSize.toNat = t.size := by
    have hheader := h.header t hmem
    unfold Header at hheader
    rwa [ht] at hheader
  have hnext : (s.link (previous P xs)).pxNextFreeBlock = nextFree P ys := by
    rw [h.next_previous, nextFree_cons_used hused]
  have hnotAllocated : t.use ≠ some .allocated := by simp [ht]
  have haligned := h.aligned t hmem
  have htlt := h.size_lt hmem
  rw [prvInsertBlockIntoFreeList, run_bind, run_of_eq (h.insertPosition_eq hused), run_bind]
  rcases usedLast_or xs with hlast | ⟨xs, w, rfl, hw⟩
  · -- it does not touch the block before
    have hne : previous P xs ≠ t.start := by
      rcases previous_eq_or (P := P) xs with heq | ⟨u, hu, -, heq⟩
      · rw [heq]
        exact (start_ne_xStart h.tiled hmem).symm
      · have hhi := h.tiled.split.1.stop_le hu
        have hpos := h.tiled.split.1.size_pos hu
        unfold Tile.stop at hhi
        omega
    have hspared (l l' : BlockLink) : Spared P (xs ++ t :: ys) s.link
        ((s.withLink t.start l).withLink (previous P xs) l').link := by
      intro p hp hkeep
      rw [withLink_of_ne (previous_ne_of_spared (fun v hv ↦ List.mem_append_left _ hv) hp hkeep),
        withLink_of_ne (ne_of_spared hmem hnotAllocated hkeep)]
    rw [run_of_eq (joinBefore_of_ne (h.previous_not_touching hlast)), run_bind]
    rcases usedHead_or ys with hhead | ⟨u, ys, rfl, hu⟩
    · rw [run_of_eq (joinBehind_of_ne ?_), run_of_eq (linkPrevious_of_ne hne)]
      · refine ⟨_, _, rfl, .alone hlast hhead, ?_, hspared _ _⟩
        have hsplit : xs ++ t :: ys = xs ++ [t] ++ ys := by simp
        rw [hsplit] at h
        refine h.placed (f := ⟨t.start, t.size, none⟩) rfl (fun c d hcd ↦ hcd) haligned hsize
          hne _ ?_
        rw [hnext]
      · rw [hnext, hsize, hend]
        exact h.next_not_touching hhead
    · have humem : u ∈ xs ++ t :: u :: ys := by simp
      have hunext : (s.link u.start).pxNextFreeBlock = nextFree P ys := by
        have hsplit : xs ++ t :: u :: ys = (xs ++ [t]) ++ u :: ys := by simp
        rw [hsplit] at h
        exact h.next_free hu
      have hsum := toNat_sizes hsize (h.size_free humem hu) htlt (h.size_lt humem)
      have hua := h.aligned u humem
      rw [nextFree_cons_free hu] at hnext
      rw [run_of_eq (joinBehind_of_eq ?_ ?_), run_of_eq (linkPrevious_of_ne hne)]
      · refine ⟨_, _, rfl, .behind hlast hu, ?_, hspared _ _⟩
        have hsplit : xs ++ t :: u :: ys = xs ++ [t, u] ++ ys := by simp
        rw [hsplit] at h
        refine h.placed (f := ⟨t.start, t.size + u.size, none⟩) rfl (fun c d hcd ↦ hcd.join)
          ⟨haligned.1, dvd_add haligned.2 hua.2⟩ hsum hne _ ?_
        rw [hnext, hunext]
      · rw [hnext, hsize, h.tiled.split.2.2.1]
        rfl
      · rw [hnext, hend]
        exact (start_lt_stop h.tiled humem).ne
  · -- it extends the block before
    have hwmem : w ∈ xs ++ [w] ++ t :: ys := by simp
    have hwa := h.aligned w hwmem
    have hwsize := h.size_free hwmem hw
    have hwt : w.start + w.size = t.start := h.tiled.split.1.split.2.2
    have hwne : w.start ≠ t.start := by
      have hpos := h.tiled.size_pos hwmem
      omega
    have hsum := toNat_sizes hwsize hsize (h.size_lt hwmem) htlt
    have hspared (l : BlockLink) : Spared P (xs ++ [w] ++ t :: ys) s.link
        (s.withLink w.start l).link := by
      intro p hp hkeep
      exact withLink_of_ne (ne_of_spared hwmem (by simp [hw]) hkeep)
    rw [previous_concat_free hw] at hnext ⊢
    rw [run_of_eq (joinBefore_of_eq ?_), run_bind]
    · rcases usedHead_or ys with hhead | ⟨u, ys, rfl, hu⟩
      · rw [run_of_eq (joinBehind_of_ne ?_), run_of_eq linkPrevious_self, withLink_withLink]
        · refine ⟨_, _, rfl, .before hw hhead, ?_, ?_⟩
          · have hsplit : xs ++ [w] ++ t :: ys = xs ++ w :: [t] ++ ys := by simp
            rw [hsplit] at h
            have hlinked := h.extended (f := ⟨w.start, w.size + t.size, none⟩) hw rfl rfl
              (fun c d hcd ↦ hcd.join) ⟨hwa.1, dvd_add hwa.2 haligned.2⟩ hsum
            simpa [Heap.withLink, hnext] using hlinked
          · exact hspared _
        · rw [withLink_self, hnext, hsum, pxEnd_withLink, hend, ← Nat.add_assoc, hwt]
          exact h.next_not_touching hhead
      · have humem : u ∈ xs ++ [w] ++ t :: u :: ys := by simp
        have hunext : (s.link u.start).pxNextFreeBlock = nextFree P ys := by
          have hsplit : xs ++ [w] ++ t :: u :: ys = (xs ++ [w] ++ [t]) ++ u :: ys := by simp
          rw [hsplit] at h
          exact h.next_free hu
        have hua := h.aligned u humem
        have hustart : u.start = t.stop := h.tiled.split.2.2.1
        have hne : u.start ≠ w.start := by
          rw [hustart, Tile.stop, ← hwt]
          have hpos := h.tiled.size_pos hwmem
          omega
        have hlt : w.size + t.size < 2 ^ 31 := by
          have hlo := h.tiled.le_start hwmem
          have hhi := h.tiled.stop_le hmem
          have hbound := P.stop_lt
          unfold Tile.stop at hhi
          omega
        have hsum' := toNat_sizes hsum (h.size_free humem hu) hlt (h.size_lt humem)
        rw [nextFree_cons_free hu] at hnext
        rw [run_of_eq (joinBehind_of_eq ?_ ?_), run_of_eq linkPrevious_self, withLink_withLink]
        · refine ⟨_, _, rfl, .between hw hu, ?_, ?_⟩
          · have hsplit : xs ++ [w] ++ t :: u :: ys = xs ++ w :: [t, u] ++ ys := by simp
            rw [hsplit] at h
            have hlinked := h.extended (f := ⟨w.start, w.size + t.size + u.size, none⟩) hw rfl rfl
              (fun c d hcd ↦ hcd.join_three) ⟨hwa.1, dvd_add (dvd_add hwa.2 haligned.2) hua.2⟩ hsum'
            simpa [Heap.withLink, hnext, hne, hunext] using hlinked
          · exact hspared _
        · rw [withLink_self, hnext, hsum, hustart, Tile.stop, ← hwt, Nat.add_assoc]
        · rw [withLink_self, hnext, pxEnd_withLink, hend]
          exact (start_lt_stop h.tiled humem).ne
    · rw [hwsize, hwt]

end Stm32F1.Rtos
