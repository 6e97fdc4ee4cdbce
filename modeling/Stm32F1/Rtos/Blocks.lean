import Stm32F1.Lib.Path
import Stm32F1.Lib.Tiles
import Stm32F1.Rtos.Heap

/-!
# The blocks of the heap

The heap is cut into blocks.  `Linked` says that memory holds their headers and that
the free ones, in order, are linked from `xStart` to `pxEnd`.  What the allocator does
to memory is an exchange of some blocks for others that cover the same addresses.
-/

namespace Stm32F1.Rtos

open Prog

/-- Taken out of the free list, or also marked as allocated. -/
inductive Use
  | loose
  | allocated
deriving DecidableEq

abbrev Block := Tile Use

/-- The addresses of the free blocks. -/
def frees (ts : List Block) : List Nat := (ts.filter fun t ↦ t.use.isNone).map Tile.start

/-- What the header says about a block. -/
def Header (l : BlockLink) (t : Block) : Prop :=
  match t.use with
  | some .allocated => l.xBlockSize.toNat = 2 ^ 31 + t.size ∧ l.pxNextFreeBlock = 0
  | _ => l.xBlockSize.toNat = t.size

/-! ## Placement -/

namespace Placement

variable (P : Placement)

/-- The first address of the first block. -/
def base : Nat := (P.ucHeap.toNat + 7) / 8 * 8

/-- The address of the end marker. -/
def stop : Nat := (P.ucHeap.toNat + P.configTOTAL_HEAP_SIZE.toNat - 8) / 8 * 8

/-- No block of the heap is at address 0, which is `NULL`. -/
theorem base_pos : 0 < P.base := by
  have hpos := P.notNull
  unfold base
  omega

/-- There is room for a block. -/
theorem base_lt_stop : P.base < P.stop := by
  have hlarge := P.large
  unfold base stop
  omega

/-- No size reaches the bit that marks a block as allocated. -/
theorem stop_lt : P.stop < P.base + 2 ^ 31 := by
  have hsmall := P.small
  have hlarge := P.large
  unfold base stop
  omega

/-- The head of the list is not in the heap. -/
theorem xStart_outside : P.xStart < P.base ∨ P.stop < P.xStart := by
  have hlarge := P.large
  unfold base stop
  rcases P.apart with h | h
  · exact .inl (by omega)
  · exact .inr (by omega)

end Placement

/-! ## Free blocks -/

variable {P : Placement} {link link' : Nat → BlockLink} {t u v : Block} {x p : Nat}
  {ts xs ys pre mid mid' post : List Block}

@[simp] theorem frees_nil : frees [] = [] := rfl

/-- The free blocks of two stretches are those of the first and those of the second. -/
@[simp] theorem frees_append : frees (xs ++ ys) = frees xs ++ frees ys := by
  simp [frees]

/-- A free block is the first of them. -/
theorem frees_cons_free (h : t.use = none) : frees (t :: ts) = t.start :: frees ts := by
  simp [frees, h]

/-- A block that is in use is not among them. -/
theorem frees_cons_used (h : t.use.isSome) : frees (t :: ts) = frees ts := by
  simp [frees, Option.isSome_iff_ne_none.1 h]

/-- The free blocks, by the addresses where they start. -/
theorem mem_frees : x ∈ frees ts ↔ ∃ t ∈ ts, t.use = none ∧ t.start = x := by
  simp [frees, and_assoc]

/-- A block starts in front of the end marker. -/
theorem start_lt_stop (h : Tiled P.base ts P.stop) (ht : t ∈ ts) : t.start < P.stop := by
  have hhi := h.stop_le ht
  have hpos := h.size_pos ht
  unfold Tile.stop at hhi
  omega

/-- No block is the head of the list. -/
theorem start_ne_xStart (h : Tiled P.base ts P.stop) (ht : t ∈ ts) : t.start ≠ P.xStart := by
  have hlo := h.le_start ht
  have hlt := start_lt_stop h ht
  have hout := P.xStart_outside
  omega

/-- The list of the free blocks passes none twice. -/
theorem nodup_frees (h : Tiled P.base ts P.stop) : (P.xStart :: frees ts).Nodup := by
  refine List.nodup_cons.2 ⟨?_, ?_⟩
  · intro hmem
    obtain ⟨t, ht, -, heq⟩ := mem_frees.1 hmem
    exact start_ne_xStart h ht heq
  · apply List.Nodup.map_on
    · intro t ht u hu heq
      exact h.start_inj (List.mem_of_mem_filter ht) (List.mem_of_mem_filter hu) heq
    · apply List.Nodup.filter
      refine h.pairwise.imp_of_mem ?_
      rintro t u ht - hle rfl
      have hpos := h.size_pos ht
      unfold Tile.stop at hle
      omega

/-- The free block before the blocks behind `xs`, or `xStart`. -/
def previous (P : Placement) (xs : List Block) : Nat := lastCell P.xStart (frees xs)

/-- The first free block of `ys`, or the end. -/
def nextFree (P : Placement) (ys : List Block) : Nat := (frees ys).head?.getD P.stop

/-- In front of a place is a free block or the head of the list. -/
theorem previous_eq_or (xs : List Block) :
    previous P xs = P.xStart ∨ ∃ u ∈ xs, u.use = none ∧ u.start = previous P xs := by
  rcases List.mem_cons.1 (lastCell_mem (a := P.xStart) (l := frees xs)) with h | h
  · exact .inl h
  · exact .inr (mem_frees.1 h)

/-- Behind a place is a free block or the end marker. -/
theorem nextFree_eq_or (ys : List Block) :
    nextFree P ys = P.stop ∨ ∃ u ∈ ys, u.use = none ∧ u.start = nextFree P ys := by
  unfold nextFree
  cases hhead : (frees ys).head? with
  | none => exact .inl rfl
  | some x => exact .inr (mem_frees.1 (List.mem_of_mem_head? hhead))

/-! ## The representation -/

/-- Memory holds the headers of the blocks, and the free list. -/
structure Linked (P : Placement) (link : Nat → BlockLink) (ts : List Block) : Prop where
  tiled : Tiled P.base ts P.stop
  aligned : ∀ t ∈ ts, 8 ∣ t.start ∧ 8 ∣ t.size
  header : ∀ t ∈ ts, Header (link t.start) t
  path : Path (fun p ↦ (link p).pxNextFreeBlock) P.xStart (frees ts) P.stop
  startSize : (link P.xStart).xBlockSize = 0
  endLink : link P.stop = ⟨0, 0⟩

namespace Linked

/-- A block is too small for its size to reach the bit that marks it. -/
theorem size_lt (h : Linked P link ts) (ht : t ∈ ts) : t.size < 2 ^ 31 := by
  have hlo := h.tiled.le_start ht
  have hhi := h.tiled.stop_le ht
  have hlt := P.stop_lt
  unfold Tile.stop at hhi
  omega

/-- It depends on the headers, `xStart` and the end marker only. -/
theorem congr (h : Linked P link ts) (hstart : ∀ t ∈ ts, link' t.start = link t.start)
    (hxStart : link' P.xStart = link P.xStart) (hstop : link' P.stop = link P.stop) :
    Linked P link' ts := by
  refine ⟨h.tiled, h.aligned, ?_, ?_, ?_, ?_⟩
  · intro t ht
    rw [hstart t ht]
    exact h.header t ht
  · refine h.path.congr ?_
    intro y hy
    refine congrArg BlockLink.pxNextFreeBlock ?_
    rcases List.mem_cons.1 hy with rfl | hy
    · exact hxStart
    · obtain ⟨u, hu, -, rfl⟩ := mem_frees.1 hy
      exact hstart u hu
  · rw [hxStart]
    exact h.startSize
  · rw [hstop]
    exact h.endLink

/-- **Blocks exchanged** for others that cover the same addresses, in a memory that is otherwise
unchanged except that the free block before them may lead elsewhere. -/
theorem exchange (h : Linked P link (pre ++ mid ++ post))
    (htiled : ∀ c d, Tiled c mid d → Tiled c mid' d)
    (haligned : ∀ v ∈ mid', 8 ∣ v.start ∧ 8 ∣ v.size)
    (hheader : ∀ v ∈ mid', Header (link' v.start) v)
    (hpath : Path (fun p ↦ (link' p).pxNextFreeBlock) (previous P pre) (frees mid' ++ frees post)
      P.stop)
    (hsize : (link' (previous P pre)).xBlockSize = (link (previous P pre)).xBlockSize)
    (hkept : ∀ p, p ≠ previous P pre → (∀ v ∈ mid', p ≠ v.start) → link' p = link p) :
    Linked P link' (pre ++ mid' ++ post) := by
  have hnew := h.tiled.exchange htiled
  have hmid {v : Block} (hv : v ∈ mid') : v ∈ pre ++ mid' ++ post :=
    List.mem_append_left _ (List.mem_append_right _ hv)
  have hstarts {u : Block} (hu : u ∈ pre ++ post) : ∀ v ∈ mid', u.start ≠ v.start := by
    obtain ⟨c, hleft, hpost⟩ := tiled_append.1 hnew
    obtain ⟨b, hpre, hmid⟩ := tiled_append.1 hleft
    intro v hv heq
    have hvlo := hmid.le_start hv
    have hvhi := hmid.stop_le hv
    have hvpos := hmid.size_pos hv
    unfold Tile.stop at hvhi
    rcases List.mem_append.1 hu with hu | hu
    · have huhi := hpre.stop_le hu
      have hupos := hpre.size_pos hu
      unfold Tile.stop at huhi
      omega
    · have hulo := hpost.le_start hu
      omega
  have hmem {u : Block} (hu : u ∈ pre ++ post) : u ∈ pre ++ mid ++ post := by
    rcases List.mem_append.1 hu with hu | hu
    · exact List.mem_append_left _ (List.mem_append_left _ hu)
    · exact List.mem_append_right _ hu
  have hold {u : Block} (hu : u ∈ pre ++ post) : Header (link' u.start) u := by
    have hheader := h.header u (hmem hu)
    by_cases hprev : u.start = previous P pre
    · -- the block before is a free one, of which only the size matters
      have hfree : u.use = none := by
        rcases previous_eq_or (P := P) pre with heq | ⟨w, hw, hfree, hstart⟩
        · exact absurd (hprev.trans heq) (start_ne_xStart h.tiled (hmem hu))
        · have hwu := h.tiled.start_inj (hmem (List.mem_append_left _ hw)) (hmem hu)
            (hstart.trans hprev.symm)
          rw [← hwu]
          exact hfree
      unfold Header at hheader ⊢
      rw [hfree] at hheader ⊢
      rw [hprev, hsize, ← hprev]
      exact hheader
    · rw [hkept _ hprev (hstarts hu)]
      exact hheader
  refine ⟨hnew, ?_, ?_, ?_, ?_, ?_⟩
  · intro u hu
    rcases List.mem_append.1 hu with hu | hu
    · rcases List.mem_append.1 hu with hu | hu
      · exact h.aligned u (hmem (List.mem_append_left _ hu))
      · exact haligned u hu
    · exact h.aligned u (hmem (List.mem_append_right _ hu))
  · intro u hu
    rcases List.mem_append.1 hu with hu | hu
    · rcases List.mem_append.1 hu with hu | hu
      · exact hold (List.mem_append_left _ hu)
      · exact hheader u hu
    · exact hold (List.mem_append_right _ hu)
  · have hpre := h.path
    rw [List.append_assoc, frees_append] at hpre ⊢
    have hsplit : frees (mid' ++ post) = frees mid' ++ frees post := frees_append
    rw [hsplit]
    have hnodup := nodup_frees h.tiled
    rw [List.append_assoc, frees_append, ← List.cons_append] at hnodup
    refine hpre.splice (List.Nodup.of_append_left hnodup) ?_ hpath
    intro y hy hlast
    refine congrArg BlockLink.pxNextFreeBlock (hkept y hlast ?_)
    rcases List.mem_cons.1 hy with rfl | hy
    · exact fun v hv ↦ (start_ne_xStart hnew (hmid hv)).symm
    · obtain ⟨u, hu, -, rfl⟩ := mem_frees.1 hy
      exact hstarts (List.mem_append_left _ hu)
  · by_cases hprev : P.xStart = previous P pre
    · rw [hprev, hsize, ← hprev]
      exact h.startSize
    · rw [hkept _ hprev fun v hv ↦ (start_ne_xStart hnew (hmid hv)).symm]
      exact h.startSize
  · rw [hkept P.stop ?_ fun v hv ↦ (start_lt_stop hnew (hmid hv)).ne']
    · exact h.endLink
    · rcases previous_eq_or (P := P) pre with heq | ⟨w, hw, -, hstart⟩
      · rw [heq]
        have hlt := P.base_lt_stop
        have hout := P.xStart_outside
        omega
      · rw [← hstart]
        exact (start_lt_stop h.tiled (hmem (List.mem_append_left _ hw))).ne'

end Linked

end Stm32F1.Rtos
