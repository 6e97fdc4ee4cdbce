import Stm32F1.Rtos.FreeList

/-!
# Allocating and freeing

`Represents` adds the static variables to the blocks in memory.  `pvPortMalloc` cuts
the first free block that is large enough, and fails only if there is none;
`vPortFree` makes a block free again.  Neither touches memory in allocated blocks.
-/

namespace Stm32F1.Rtos

open Prog

variable {P : Placement} {link link' : Nat → BlockLink} {s : Heap} {t u v : Block} {n : UInt32}
  {ts xs ys us pre mid mid' post : List Block}

/-- How many blocks are not free. -/
def inUse (ts : List Block) : Nat := (ts.filter fun t ↦ t.use.isSome).length

/-- How many addresses are free. -/
def freeBytes (ts : List Block) : Nat := extent (fun t ↦ t.use.isNone) ts

@[simp] theorem freeBytes_append : freeBytes (xs ++ ys) = freeBytes xs + freeBytes ys :=
  extent_append

theorem freeBytes_cons_free (ht : t.use = none) : freeBytes (t :: ts) = t.size + freeBytes ts := by
  simp [freeBytes, extent_cons, ht]

theorem freeBytes_cons_used (ht : t.use.isSome) : freeBytes (t :: ts) = freeBytes ts := by
  simp [freeBytes, extent_cons, Option.isSome_iff_ne_none.1 ht]

@[simp] theorem inUse_append : inUse (xs ++ ys) = inUse xs + inUse ys := by
  simp [inUse]

theorem inUse_cons_used (ht : t.use.isSome) : inUse (t :: ts) = inUse ts + 1 := by
  simp [inUse, ht]

theorem inUse_cons_free (ht : t.use = none) : inUse (t :: ts) = inUse ts := by
  simp [inUse, ht]

/-- The heap consists of the blocks. -/
structure Represents (P : Placement) (s : Heap) (ts : List Block) : Prop where
  linked : Linked P s.link ts
  merged : Merged ts
  pxEnd : s.pxEnd = P.stop
  bit : s.xBlockAllocatedBit = 0x80000000
  free : s.xFreeBytesRemaining.toNat = freeBytes ts
  count : s.xNumberOfSuccessfulAllocations =
    s.xNumberOfSuccessfulFrees + UInt32.ofNat (inUse ts)

/-- The memory of the allocated blocks is unchanged. -/
def Kept (ts : List Block) (link link' : Nat → BlockLink) : Prop :=
  ∀ v ∈ ts, v.use = some .allocated → ∀ p, v.start ≤ p → p < v.stop → link' p = link p

theorem Spared.kept (h : Spared P ts link link') (htiled : Tiled P.base ts P.stop) :
    Kept ts link link' := by
  intro v hv hallocated p hlo hhi
  refine h p ?_ ?_
  · have hbase := htiled.le_start hv
    have hstop := htiled.stop_le hv
    have hout := P.xStart_outside
    omega
  · intro u hu hstart
    have hpos := htiled.size_pos hu
    have huv := htiled.eq_of_mem (x := p) hu hv ⟨hstart.le, by unfold Tile.stop; omega⟩ ⟨hlo, hhi⟩
    rw [huv]
    exact hallocated

/-! ## Blocks in use -/

/-- The free block before a block is another one. -/
theorem Linked.previous_ne (h : Tiled P.base (pre ++ mid ++ post) P.stop) (hv : v ∈ mid) :
    previous P pre ≠ v.start := by
  obtain ⟨c, hleft, -⟩ := tiled_append.1 h
  obtain ⟨b, hpre, hmid⟩ := tiled_append.1 hleft
  rcases previous_eq_or (P := P) pre with heq | ⟨u, hu, -, heq⟩
  · rw [heq]
    exact (start_ne_xStart h (List.mem_append_left _ (List.mem_append_right _ hv))).symm
  · have hhi := hpre.stop_le hu
    have hpos := hpre.size_pos hu
    have hlo := hmid.le_start hv
    unfold Tile.stop at hhi
    omega

/-- Blocks in use exchanged for others in use. -/
theorem Linked.reuse (h : Linked P link (pre ++ mid ++ post)) (hmid : ∀ v ∈ mid, v.use.isSome)
    (hmid' : ∀ v ∈ mid', v.use.isSome) (htiled : ∀ c d, Tiled c mid d → Tiled c mid' d)
    (haligned : ∀ v ∈ mid', 8 ∣ v.start ∧ 8 ∣ v.size)
    (hheader : ∀ v ∈ mid', Header (link' v.start) v)
    (hkept : ∀ p, (∀ v ∈ mid', p ≠ v.start) → link' p = link p) :
    Linked P link' (pre ++ mid' ++ post) := by
  have hnew := h.tiled.exchange htiled
  have hnone {us : List Block} (hus : ∀ v ∈ us, v.use.isSome) : frees us = [] := by
    rw [frees, List.filter_eq_nil_iff.2, List.map_nil]
    intro v hv
    rw [← Option.not_isSome, hus v hv]
    simp
  have hprev : link' (previous P pre) = link (previous P pre) :=
    hkept _ fun v hv ↦ Linked.previous_ne hnew hv
  refine h.exchange htiled haligned hheader ?_ (congrArg BlockLink.xBlockSize hprev)
    fun p _ hp ↦ hkept p hp
  have hpath := h.path
  rw [List.append_assoc, frees_append, frees_append, hnone hmid, List.nil_append] at hpath
  rw [hnone hmid', List.nil_append]
  refine hpath.behind.congr ?_
  intro y hy
  refine congrArg BlockLink.pxNextFreeBlock ?_
  rcases List.mem_cons.1 hy with rfl | hy
  · exact hprev
  · obtain ⟨u, hu, -, rfl⟩ := mem_frees.1 hy
    refine hkept _ ?_
    intro v hv
    obtain ⟨c, hleft, hpost⟩ := tiled_append.1 hnew
    have hlo := hpost.le_start hu
    have hhi := hleft.stop_le (List.mem_append_right _ hv)
    have hpos := hleft.size_pos (List.mem_append_right _ hv)
    unfold Tile.stop at hhi
    omega

/-- A block in use is used otherwise: only its header changes. -/
theorem Linked.mark (h : Linked P link (xs ++ t :: ys)) (ht : t.use.isSome) {use : Use}
    {l : BlockLink} (hheader : Header l ⟨t.start, t.size, some use⟩) :
    Linked P (Function.update link t.start l) (xs ++ ⟨t.start, t.size, some use⟩ :: ys) := by
  have hsplit (w : Block) : xs ++ w :: ys = xs ++ [w] ++ ys := by simp
  rw [hsplit] at h ⊢
  have haligned := h.aligned t (by simp)
  refine h.reuse ?_ ?_ (fun c d hcd ↦ hcd) ?_ ?_ ?_
  · intro v hv
    obtain rfl := List.mem_singleton.1 hv
    exact ht
  · intro v hv
    obtain rfl := List.mem_singleton.1 hv
    rfl
  · intro v hv
    obtain rfl := List.mem_singleton.1 hv
    exact haligned
  · intro v hv
    obtain rfl := List.mem_singleton.1 hv
    rw [Function.update_self]
    exact hheader
  · intro p hp
    exact Function.update_of_ne (hp _ List.mem_cons_self) ..

/-- A block in use cut into two. -/
theorem Linked.cut (h : Linked P s.link (xs ++ t :: ys)) (ht : t.use = some .loose) {m : Nat}
    (hm : 8 ∣ m) (hpos : 0 < m) (hlt : m < t.size) {l l' : BlockLink}
    (hrest : l.xBlockSize.toNat = t.size - m) (hsize : l'.xBlockSize.toNat = m) :
    Linked P ((s.withLink (t.start + m) l).withLink t.start l').link
      (xs ++ [⟨t.start, m, some .loose⟩] ++ ⟨t.start + m, t.size - m, some .loose⟩ :: ys) := by
  have hsplit : xs ++ t :: ys = xs ++ [t] ++ ys := by simp
  rw [hsplit] at h
  have haligned := h.aligned t (by simp)
  have hgoal : xs ++ [⟨t.start, m, some .loose⟩] ++ ⟨t.start + m, t.size - m, some .loose⟩ :: ys =
      xs ++ [⟨t.start, m, some .loose⟩, ⟨t.start + m, t.size - m, some .loose⟩] ++ ys := by simp
  rw [hgoal]
  refine h.reuse ?_ ?_ ?_ ?_ ?_ ?_
  · intro v hv
    obtain rfl := List.mem_singleton.1 hv
    rw [ht]
    rfl
  · intro v hv
    rcases List.mem_cons.1 hv with rfl | hv
    · rfl
    · obtain rfl := List.mem_singleton.1 hv
      rfl
  · rintro c d ⟨hc, -, hd⟩
    rw [tiled_nil] at hd
    refine ⟨hc, hpos, rfl, Nat.sub_pos_of_lt hlt, ?_⟩
    show t.start + m + (t.size - m) = d
    rw [← hd, Nat.add_assoc, Nat.add_sub_cancel' hlt.le]
    rfl
  · intro v hv
    rcases List.mem_cons.1 hv with rfl | hv
    · exact ⟨haligned.1, hm⟩
    · obtain rfl := List.mem_singleton.1 hv
      exact ⟨dvd_add haligned.1 hm, Nat.dvd_sub haligned.2 hm⟩
  · intro v hv
    rcases List.mem_cons.1 hv with rfl | hv
    · unfold Header
      rw [withLink_self]
      exact hsize
    · obtain rfl := List.mem_singleton.1 hv
      have hne : t.start + m ≠ t.start := by omega
      unfold Header
      rw [withLink_of_ne hne, withLink_self]
      exact hrest
  · intro p hp
    rw [withLink_of_ne (hp ⟨t.start, m, some .loose⟩ List.mem_cons_self),
      withLink_of_ne (hp ⟨t.start + m, t.size - m, some .loose⟩
        (List.mem_cons_of_mem _ List.mem_cons_self))]

/-- A free block taken out of the free list. -/
theorem Linked.takeOut (h : Linked P s.link (xs ++ t :: ys)) (ht : t.use = none) :
    Linked P (s.withLink (previous P xs) { s.link (previous P xs) with
      pxNextFreeBlock := (s.link t.start).pxNextFreeBlock }).link
      (xs ++ ⟨t.start, t.size, some .loose⟩ :: ys) := by
  have hnext := h.next_free ht
  have hsize := h.size_free (List.mem_append_right _ List.mem_cons_self) ht
  have hsplit (w : Block) : xs ++ w :: ys = xs ++ [w] ++ ys := by simp
  rw [hsplit] at h ⊢
  have hne := Linked.previous_ne h.tiled (v := t) List.mem_cons_self
  refine h.exchange (fun c d hcd ↦ hcd) ?_ ?_ ?_ ?_ ?_
  · intro v hv
    obtain rfl := List.mem_singleton.1 hv
    exact h.aligned t (by simp)
  · intro v hv
    obtain rfl := List.mem_singleton.1 hv
    rw [withLink_of_ne hne.symm]
    exact hsize
  · have hbehind : Path (fun p ↦ (s.link p).pxNextFreeBlock) t.start (frees ys) P.stop := by
      have hpath := h.path
      rw [frees_append] at hpath
      have hlast := hpath.behind
      rwa [← previous, previous_concat_free ht] at hlast
    rw [frees_cons_used rfl, frees_nil, List.nil_append]
    refine hbehind.enter ?_ ?_
    · rw [withLink_self]
    · intro y hy
      obtain ⟨u, hu, -, rfl⟩ := mem_frees.1 hy
      rw [withLink_of_ne]
      obtain ⟨c, hleft, hpost⟩ := tiled_append.1 h.tiled
      obtain ⟨b, hxs, hmid⟩ := tiled_append.1 hleft
      rcases previous_eq_or (P := P) xs with heq | ⟨w, hw, -, heq⟩
      · rw [heq]
        exact start_ne_xStart h.tiled (List.mem_append_right _ hu)
      · have hhi := hleft.stop_le (List.mem_append_left _ hw)
        have hpos := hleft.size_pos (List.mem_append_left _ hw)
        have hlo := hpost.le_start hu
        unfold Tile.stop at hhi
        omega
  · rw [withLink_self]
  · intro p hp _
    exact withLink_of_ne hp

/-! ## Searching -/

theorem findBlock_of_stop {p q : Nat}
    (h : ¬ ((s.link q).xBlockSize < n ∧ (s.link q).pxNextFreeBlock ≠ 0)) :
    findBlock n (p, q) s = some ((p, q), s) := by
  rw [findBlock, repeatM_unfold, bind_apply, bind_of_eq deref_apply, if_neg h]
  rfl

theorem findBlock_of_more {p q : Nat}
    (h : (s.link q).xBlockSize < n ∧ (s.link q).pxNextFreeBlock ≠ 0) :
    findBlock n (p, q) s = findBlock n (q, (s.link q).pxNextFreeBlock) s := by
  conv_lhs => rw [findBlock, repeatM_unfold, bind_apply, bind_of_eq deref_apply, if_pos h]
  rfl

theorem nextFree_ne_zero (h : Tiled P.base (xs ++ ys) P.stop) : nextFree P ys ≠ 0 := by
  have hbase := P.base_pos
  rcases nextFree_eq_or (P := P) ys with heq | ⟨u, hu, -, heq⟩
  · have hlt := P.base_lt_stop
    omega
  · have hlo := h.le_start (List.mem_append_right _ hu)
    omega

/-- The search ends with the first free block that is large enough, or with the end marker. -/
theorem findBlock_eq (h : Linked P s.link (xs ++ ys)) :
    ((∀ t ∈ ys, t.use = none → t.size < n.toNat) ∧
        ∃ p, findBlock n (previous P xs, nextFree P ys) s = some ((p, P.stop), s)) ∨
      ∃ us t vs, ys = us ++ t :: vs ∧ t.use = none ∧ n.toNat ≤ t.size ∧
        (∀ u ∈ us, u.use = none → u.size < n.toNat) ∧
        findBlock n (previous P xs, nextFree P ys) s =
          some ((previous P (xs ++ us), t.start), s) := by
  induction ys generalizing xs with
  | nil =>
      refine .inl ⟨fun t ht ↦ absurd ht List.not_mem_nil, previous P xs, findBlock_of_stop ?_⟩
      show ¬ ((s.link P.stop).xBlockSize < n ∧ (s.link P.stop).pxNextFreeBlock ≠ 0)
      rw [h.endLink]
      exact fun hmore ↦ hmore.2 rfl
  | cons t ys ih =>
      have hsplit : xs ++ t :: ys = (xs ++ [t]) ++ ys := by simp
      have hrest := ih (hsplit ▸ h)
      cases huse : t.use with
      | some use =>
          -- a block in use is not met
          have hused : t.use.isSome := by rw [huse]; rfl
          have hprev : previous P (xs ++ [t]) = previous P xs := by
            rw [previous, frees_append, frees_cons_used hused, frees_nil, List.append_nil]
            rfl
          rw [hprev] at hrest
          rw [nextFree_cons_used hused]
          rcases hrest with ⟨hsmall, hfind⟩ | ⟨us, u, vs, rfl, hfree, hle, hsmall, hfind⟩
          · refine .inl ⟨?_, hfind⟩
            rintro v hv hfree
            rcases List.mem_cons.1 hv with rfl | hv
            · exact absurd (huse.symm.trans hfree) (by simp)
            · exact hsmall v hv hfree
          · refine .inr ⟨t :: us, u, vs, rfl, hfree, hle, ?_, ?_⟩
            · rintro v hv hfree
              rcases List.mem_cons.1 hv with rfl | hv
              · exact absurd (huse.symm.trans hfree) (by simp)
              · exact hsmall v hv hfree
            · rw [hfind]
              simp
      | none =>
          have hsize := h.size_free (List.mem_append_right _ List.mem_cons_self) huse
          have hnext := h.next_free huse
          rw [nextFree_cons_free huse]
          by_cases hle : n.toNat ≤ t.size
          · refine .inr ⟨[], t, ys, rfl, huse, hle, fun u hu ↦ absurd hu List.not_mem_nil, ?_⟩
            rw [List.append_nil]
            refine findBlock_of_stop fun hmore ↦ ?_
            have hlt := UInt32.lt_iff_toNat_lt.1 hmore.1
            omega
          · have hmore : (s.link t.start).xBlockSize < n ∧
                (s.link t.start).pxNextFreeBlock ≠ 0 := by
              refine ⟨UInt32.lt_iff_toNat_lt.2 (by omega), ?_⟩
              rw [hnext]
              exact nextFree_ne_zero (hsplit ▸ h.tiled)
            rw [findBlock_of_more hmore, hnext]
            rw [previous_concat_free huse] at hrest
            rcases hrest with ⟨hsmall, hfind⟩ | ⟨us, u, vs, rfl, hfree, hle', hsmall, hfind⟩
            · refine .inl ⟨?_, hfind⟩
              intro v hv hfree
              rcases List.mem_cons.1 hv with rfl | hv
              · exact not_le.1 hle
              · exact hsmall v hv hfree
            · refine .inr ⟨t :: us, u, vs, rfl, hfree, hle', ?_, ?_⟩
              · intro v hv hfree
                rcases List.mem_cons.1 hv with rfl | hv
                · exact not_le.1 hle
                · exact hsmall v hv hfree
              · rw [hfind]
                simp

/-! ## Taking a block -/

/-- The size of the block that is cut out of `t` for `m` bytes. -/
def cutSize (m : Nat) (t : Block) : Nat := if t.size - m > 16 then m else t.size

/-- What is left of it. -/
def remainder (m : Nat) (t : Block) : List Block :=
  if t.size - m > 16 then [⟨t.start + m, t.size - m, none⟩] else []

theorem run_cutBlock (h : Represents P s (xs ++ t :: ys)) (ht : t.use = none) (h8 : 8 ∣ n.toNat)
    (hpos : 0 < n.toNat) (hle : n.toNat ≤ t.size) :
    Run (cutBlock P n (previous P xs) t.start) s fun _ s' ↦ ∃ link', s' = { s with link := link' } ∧
      Linked P link' (xs ++ ⟨t.start, cutSize n.toNat t, some .loose⟩ ::
        (remainder n.toNat t ++ ys)) ∧ Kept (xs ++ t :: ys) s.link link' := by
  have hmem : t ∈ xs ++ t :: ys := List.mem_append_right _ List.mem_cons_self
  have hsize := h.linked.size_free hmem ht
  have htaken := h.linked.takeOut ht
  have hhead : UsedHead ys := (merged_append.1 h.merged).2.1.usedHead ht
  have hdiff : ((s.link t.start).xBlockSize - n).toNat = t.size - n.toNat := by
    rw [UInt32.toNat_sub_of_le _ _ (UInt32.le_iff_toNat_le.2 (hsize ▸ hle)), hsize]
  have hgreater : (s.link t.start).xBlockSize - n > heapMINIMUM_BLOCK_SIZE ↔
      t.size - n.toNat > 16 := by
    show heapMINIMUM_BLOCK_SIZE < _ ↔ _
    rw [UInt32.lt_iff_toNat_lt, hdiff]
    exact Iff.rfl
  have hapart (l : BlockLink) :
      Spared P (xs ++ t :: ys) s.link (s.withLink (previous P xs) l).link := by
    intro p hp hkeep
    exact withLink_of_ne (previous_ne_of_spared (fun v hv ↦ List.mem_append_left _ hv) hp hkeep)
  rw [cutBlock, run_bind, run_of_eq deref_apply, run_bind, run_of_eq setNextFreeBlock_apply]
  apply run_when
  · intro hmore
    have hmore' := hgreater.1 hmore
    have hlt : n.toNat < t.size := by omega
    rw [cutSize, if_pos hmore', remainder, if_pos hmore', run_bind,
      run_of_eq (setBlockSize_apply _), run_bind, run_of_eq (setBlockSize_apply _)]
    refine (run_prvInsertBlockIntoFreeList (t := ⟨t.start + n.toNat, t.size - n.toNat, some .loose⟩)
      (htaken.cut rfl h8 hpos hlt hdiff rfl) rfl h.pxEnd).mono ?_
    rintro _ _ ⟨us, link', rfl, hvacated, hlinked, hspared⟩
    refine ⟨link', rfl, ?_, ?_⟩
    · rw [hvacated.eq_of_used ?_ hhead] at hlinked
      · simpa using hlinked
      · intro v hv
        rw [List.getLast?_concat] at hv
        obtain rfl := Option.some.inj hv
        rfl
    · intro v hv hallocated p hlo hhi
      have htiled := h.linked.tiled
      have hout : ¬ (t.start ≤ p ∧ p < t.stop) := fun hp ↦ by
        have hvt := htiled.eq_of_mem hv hmem ⟨hlo, hhi⟩ hp
        rw [hvt, ht] at hallocated
        exact absurd hallocated (by simp)
      unfold Tile.stop at hout
      have hp : p ≠ t.start := by omega
      have hp' : p ≠ t.start + n.toNat := by omega
      have hv' : v ∈ xs ++ [⟨t.start, n.toNat, some .loose⟩] ++
          ⟨t.start + n.toNat, t.size - n.toNat, some .loose⟩ :: ys := by
        rcases List.mem_append.1 hv with hv | hv
        · simp [hv]
        · rcases List.mem_cons.1 hv with rfl | hv
          · rw [ht] at hallocated
            exact absurd hallocated (by simp)
          · simp [hv]
      have hsize' : (⟨0, n⟩ : BlockLink).xBlockSize.toNat = n.toNat := rfl
      have htiled' := (htaken.cut (l := ⟨0, (s.link t.start).xBlockSize - n⟩) rfl h8 hpos hlt hdiff
        hsize').tiled
      rw [hspared.kept htiled' v hv' hallocated p hlo hhi, withLink_of_ne hp, withLink_of_ne hp']
      exact (hapart _).kept htiled v hv hallocated p hlo hhi
  · intro hless
    have hless' := fun h ↦ hless (hgreater.2 h)
    rw [cutSize, if_neg hless', remainder, if_neg hless']
    exact ⟨_, rfl, htaken, (hapart _).kept h.linked.tiled⟩

theorem markBlock_apply (p : Nat) : markBlock p s = some ((), { s with
    link := Function.update s.link p ⟨0, (s.link p).xBlockSize ||| s.xBlockAllocatedBit⟩
    xFreeBytesRemaining := s.xFreeBytesRemaining - (s.link p).xBlockSize
    xMinimumEverFreeBytesRemaining :=
      if s.xFreeBytesRemaining - (s.link p).xBlockSize < s.xMinimumEverFreeBytesRemaining then
        s.xFreeBytesRemaining - (s.link p).xBlockSize
      else s.xMinimumEverFreeBytesRemaining
    xNumberOfSuccessfulAllocations := s.xNumberOfSuccessfulAllocations + 1 }) := by
  rw [markBlock, bind_of_eq deref_apply, bind_of_eq (modify_apply _ _),
    bind_of_eq (modify_apply _ _)]
  split
  · rw [bind_of_eq (read_apply _ _), bind_of_eq (setBlockSize_apply _),
      bind_of_eq setNextFreeBlock_apply, modify_apply]
    simp [Heap.withLink]
  · rw [bind_of_eq (read_apply _ _), bind_of_eq (setBlockSize_apply _),
      bind_of_eq setNextFreeBlock_apply, modify_apply]
    simp [Heap.withLink]

/-- The mark does not disturb the size. -/
theorem toNat_marked {x : UInt32} (h : x.toNat < 2 ^ 31) :
    (x ||| 0x80000000).toNat = 2 ^ 31 + x.toNat := by
  rw [UInt32.toNat_or, Nat.or_comm]
  exact (Nat.two_pow_add_eq_or_of_lt h 1).symm

theorem toNat_unmarked (x : UInt32) : (x &&& ~~~0x80000000).toNat = x.toNat % 2 ^ 31 := by
  rw [UInt32.toNat_and]
  exact Nat.and_two_pow_sub_one_eq_mod x.toNat 31

theorem marked_eq_zero_iff (x : UInt32) : x &&& 0x80000000 = 0 ↔ x.toNat < 2 ^ 31 := by
  have hlt := x.toNat_lt
  rw [← UInt32.toNat_inj, UInt32.toNat_and]
  show x.toNat &&& 2 ^ 31 = 0 ↔ _
  rw [Nat.and_two_pow]
  constructor
  · intro h
    have hbit : x.toNat.testBit 31 = false := by
      cases hb : x.toNat.testBit 31 with
      | false => rfl
      | true => simp [hb] at h
    rw [Nat.testBit_eq_decide_div_mod_eq] at hbit
    have := of_decide_eq_false hbit
    omega
  · intro h
    rw [Nat.testBit_lt_two_pow h]
    rfl

theorem inUse_remainder (m : Nat) : inUse (remainder m t) = 0 := by
  unfold remainder
  split <;> rfl

theorem freeBytes_remainder {m : Nat} (hle : m ≤ t.size) :
    freeBytes (remainder m t) + cutSize m t = t.size := by
  unfold remainder cutSize
  split
  · rw [freeBytes_cons_free rfl]
    exact Nat.sub_add_cancel hle
  · exact Nat.zero_add _

theorem merged_remainder (hys : Merged ys) (hhead : UsedHead ys) (m : Nat) :
    Merged (remainder m t ++ ys) := by
  unfold remainder
  split
  · have hnil : Merged ([] : List Block) := List.IsChain.nil
    exact hnil.insert hys (fun _ h ↦ nomatch h) hhead
  · exact hys

/-- **Taking a block**: it is cut, marked and accounted for. -/
theorem run_takeBlock (h : Represents P s (xs ++ t :: ys)) (ht : t.use = none) (h8 : 8 ∣ n.toNat)
    (hpos : 0 < n.toNat) (hle : n.toNat ≤ t.size) :
    Run (takeBlock P n (previous P xs) t.start) s fun r s' ↦ r = t.start + 8 ∧
      Represents P s' (xs ++ ⟨t.start, cutSize n.toNat t, some .allocated⟩ ::
        (remainder n.toNat t ++ ys)) ∧
      Kept (xs ++ t :: ys) s.link s'.link ∧
      s'.xMinimumEverFreeBytesRemaining.toNat =
        min s.xMinimumEverFreeBytesRemaining.toNat s'.xFreeBytesRemaining.toNat := by
  have hmem : t ∈ xs ++ t :: ys := List.mem_append_right _ List.mem_cons_self
  have hprev : (s.link (previous P xs)).pxNextFreeBlock = t.start := by
    rw [h.linked.next_previous, nextFree_cons_free ht]
  obtain ⟨hxs, hys, -⟩ := merged_append.1 h.merged
  rw [takeBlock, run_bind, run_of_eq deref_apply, run_bind]
  refine (run_cutBlock h ht h8 hpos hle).mono ?_
  rintro _ _ ⟨link', rfl, hlinked, hkept⟩
  have hmem' : (⟨t.start, cutSize n.toNat t, some .loose⟩ : Block) ∈
      xs ++ ⟨t.start, cutSize n.toNat t, some .loose⟩ :: (remainder n.toNat t ++ ys) :=
    List.mem_append_right _ List.mem_cons_self
  have hsize : (link' t.start).xBlockSize.toNat = cutSize n.toNat t := hlinked.header _ hmem'
  have hlt : (link' t.start).xBlockSize.toNat < 2 ^ 31 := by
    rw [hsize]
    exact hlinked.size_lt hmem'
  have hfree : s.xFreeBytesRemaining.toNat =
      freeBytes xs + freeBytes (remainder n.toNat t) + cutSize n.toNat t + freeBytes ys := by
    have hremainder := freeBytes_remainder hle
    rw [h.free, freeBytes_append, freeBytes_cons_free ht]
    omega
  have hsub : (s.xFreeBytesRemaining - (link' t.start).xBlockSize).toNat =
      freeBytes xs + freeBytes (remainder n.toNat t) + freeBytes ys := by
    rw [UInt32.toNat_sub_of_le _ _ (UInt32.le_iff_toNat_le.2 (by omega)), hsize, hfree]
    omega
  rw [run_bind, run_of_eq (markBlock_apply _), run_pure]
  refine ⟨?_, ⟨?_, ?_, h.pxEnd, h.bit, ?_, ?_⟩, ?_, ?_⟩
  · rw [hprev]
    rfl
  · refine hlinked.mark (t := ⟨t.start, cutSize n.toNat t, some .loose⟩) rfl ?_
    unfold Header
    rw [h.bit]
    exact ⟨by rw [toNat_marked hlt, hsize], rfl⟩
  · exact hxs.used (merged_remainder (List.isChain_cons.1 hys).2 (hys.usedHead ht) _) rfl
  · rw [hsub, freeBytes_append, freeBytes_cons_used rfl, freeBytes_append, Nat.add_assoc]
  · rw [inUse_append, inUse_cons_used rfl, inUse_append, inUse_remainder]
    have hcount := h.count
    rw [inUse_append, inUse_cons_free ht] at hcount
    show s.xNumberOfSuccessfulAllocations + 1 = s.xNumberOfSuccessfulFrees + _
    rw [hcount, Nat.zero_add, ← Nat.add_assoc, UInt32.ofNat_add (inUse xs + inUse ys) 1,
      UInt32.add_assoc]
    rfl
  · intro v hv hallocated p hlo hhi
    have hne : p ≠ t.start := by
      rintro rfl
      have hpos := h.linked.tiled.size_pos hmem
      have hvt := h.linked.tiled.eq_of_mem hv hmem ⟨hlo, hhi⟩
        ⟨le_rfl, by unfold Tile.stop; omega⟩
      rw [hvt, ht] at hallocated
      exact absurd hallocated (by simp)
    exact (Function.update_of_ne hne ..).trans (hkept v hv hallocated p hlo hhi)
  · show (if _ < _ then _ else _ : UInt32).toNat = min _ (s.xFreeBytesRemaining - _).toNat
    split
    · next hless => exact (min_eq_right (UInt32.lt_iff_toNat_lt.1 hless).le).symm
    · next hless =>
        exact (min_eq_left (not_lt.1 fun hlt ↦ hless (UInt32.lt_iff_toNat_lt.2 hlt))).symm

end Stm32F1.Rtos
