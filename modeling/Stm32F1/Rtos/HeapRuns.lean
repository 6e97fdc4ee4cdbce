import Stm32F1.Lib.History
import Stm32F1.Rtos.Allocator

/-!
# Tasks on one heap

Tasks allocate, store to what they own and free, in any order; between the two parts
of a `vPortFree` other tasks may run.  At every moment what is owned lies apart and
holds what was last stored to it, nothing is lost, and `pvPortMalloc` fails only where
no gap between the blocks in use is large enough.
-/

namespace Stm32F1.Rtos

open Prog

/-- What a task has got from `pvPortMalloc`: the pointer, and how much it asked for. -/
structure Grant where
  pv : Nat
  xWantedSize : UInt32
deriving DecidableEq

/-- The heap; what tasks own, and what they are giving back; what they last stored; and how little
has ever been free. -/
structure Tasks where
  heap : Heap
  owned : List Grant
  leaving : List Nat
  stored : Nat → Option BlockLink
  lowest : Nat

inductive Event
  | malloc (xWantedSize : UInt32) (pvReturn : Nat)
  | store (p : Nat) (l : BlockLink)
  | mark (g : Grant)
  | giveBack (pv : Nat)

/-- A cell of what was granted. -/
def Grant.Covers (g : Grant) (p : Nat) : Prop := g.pv ≤ p ∧ p < g.pv + g.xWantedSize.toNat

instance (g : Grant) (p : Nat) : Decidable (g.Covers p) := inferInstanceAs (Decidable (_ ∧ _))

namespace Tasks

/-- Before the first call. -/
def Starts (P : Placement) (s : Tasks) : Prop :=
  ∃ link, s = ⟨.initial link, [], [], fun _ ↦ none, P.stop - P.base⟩

/-- The heap after a call. -/
def withHeap (s : Tasks) (heap : Heap) : Tasks :=
  { s with heap := heap, lowest := min s.lowest heap.xFreeBytesRemaining.toNat }

def malloced (s : Tasks) (n : UInt32) (r : Nat) (heap : Heap) : Tasks :=
  { s.withHeap heap with owned := if r = 0 then s.owned else ⟨r, n⟩ :: s.owned }

def marked (s : Tasks) (g : Grant) (heap : Heap) : Tasks :=
  { s.withHeap heap with
    owned := s.owned.erase g
    leaving := g.pv :: s.leaving
    stored := fun p ↦ if g.Covers p then none else s.stored p }

def returned (s : Tasks) (pv : Nat) (heap : Heap) : Tasks :=
  { s.withHeap heap with leaving := s.leaving.erase pv }

def storing (s : Tasks) (p : Nat) (l : BlockLink) : Tasks :=
  { s with heap := s.heap.withLink p l, stored := Function.update s.stored p (some l) }

inductive Step (P : Placement) : Tasks → Event → Tasks → Prop
  | malloc {s : Tasks} {n : UInt32} {r : Nat} {heap : Heap} :
      pvPortMalloc P n s.heap = some (r, heap) →
      Step P s (.malloc n r) (s.malloced n r heap)
  | store {s : Tasks} {g : Grant} {p : Nat} {l : BlockLink} : g ∈ s.owned → g.Covers p → 8 ∣ p →
      Step P s (.store p l) (s.storing p l)
  | mark {s : Tasks} {g : Grant} {heap : Heap} : g ∈ s.owned →
      vPortFreeMark g.pv s.heap = some (true, heap) →
      Step P s (.mark g) (s.marked g heap)
  | giveBack {s : Tasks} {pv : Nat} {heap : Heap} : pv ∈ s.leaving →
      vPortFreeReturn P pv s.heap = some ((), heap) →
      Step P s (.giveBack pv) (s.returned pv heap)

end Tasks

/-! ## Blocks used in one way -/

variable {P : Placement} {s : Tasks} {heap : Heap} {link' : Nat → BlockLink} {t v : Block}
  {n : UInt32} {g : Grant} {r p pv : Nat} {k : Use} {ts us xs ys : List Block}

/-- Pointers behind the headers of the blocks that are used so. -/
def users (k : Use) (ts : List Block) : List Nat :=
  (ts.filter fun t ↦ t.use = some k).map fun t ↦ t.start + 8

@[simp] theorem users_append : users k (xs ++ ys) = users k xs ++ users k ys := by
  simp [users]

theorem users_cons_of_eq (h : t.use = some k) :
    users k (t :: ts) = (t.start + 8) :: users k ts := by
  simp [users, h]

theorem users_cons_of_ne (h : t.use ≠ some k) : users k (t :: ts) = users k ts := by
  simp [users, h]

theorem mem_users : pv ∈ users k ts ↔ ∃ t ∈ ts, t.use = some k ∧ t.start + 8 = pv := by
  simp [users, and_assoc]

theorem users_vacated (h : Vacated xs t ys us) : users k us = users k xs ++ users k ys := by
  have hnone {w : Block} (hw : w.use = none) : w.use ≠ some k := by
    rw [hw]
    exact nofun
  cases h with
  | alone _ _ => rw [users_append, users_cons_of_ne (hnone rfl)]
  | before hs _ =>
      rw [users_append, users_append, users_cons_of_ne (hnone rfl), users_cons_of_ne (hnone hs)]
      simp [users]
  | behind _ hu => rw [users_append, users_cons_of_ne (hnone rfl), users_cons_of_ne (hnone hu)]
  | between hs hu =>
      rw [users_append, users_append, users_cons_of_ne (hnone rfl), users_cons_of_ne (hnone hs),
        users_cons_of_ne (hnone hu)]
      simp [users]

theorem users_remainder (m : Nat) : users k (remainder m t) = [] := by
  unfold remainder
  split
  · exact users_cons_of_ne nofun
  · rfl

theorem nodup_users (h : Tiled P.base ts P.stop) : (users k ts).Nodup := by
  refine List.Nodup.map_on ?_ ?_
  · intro t ht u hu heq
    exact h.start_inj (List.mem_of_mem_filter ht) (List.mem_of_mem_filter hu)
      (Nat.add_right_cancel heq)
  · refine List.Nodup.filter _ (h.pairwise.imp_of_mem ?_)
    rintro t u ht - hle rfl
    have hpos := h.size_pos ht
    unfold Tile.stop at hle
    omega

/-! ## The invariant -/

/-- The heap consists of the blocks; those that tasks own are allocated, and those being given back
are loose. -/
structure Tasks.Holds (P : Placement) (s : Tasks) (ts : List Block) : Prop where
  represents : Represents P s.heap ts
  owned : List.Perm (s.owned.map Grant.pv) (users .allocated ts)
  leaving : List.Perm s.leaving (users .loose ts)
  wide : ∀ g ∈ s.owned, ∀ t ∈ ts, t.use = some .allocated → t.start + 8 = g.pv →
    g.xWantedSize.toNat + 8 ≤ t.size
  stored : ∀ p l, s.stored p = some l → s.heap.link p = l ∧ ∃ g ∈ s.owned, g.Covers p
  lowest : s.heap.xMinimumEverFreeBytesRemaining.toNat = s.lowest
  lowest_le : s.lowest ≤ s.heap.xFreeBytesRemaining.toNat

/-- Nothing has been called. -/
structure Tasks.Untouched (P : Placement) (s : Tasks) : Prop where
  pxEnd : s.heap.pxEnd = 0
  count : s.heap.xNumberOfSuccessfulAllocations = s.heap.xNumberOfSuccessfulFrees
  owned : s.owned = []
  leaving : s.leaving = []
  stored : ∀ p, s.stored p = none
  lowest : s.lowest = P.stop - P.base

namespace Tasks.Holds

/-- The block of a grant. -/
theorem block (h : s.Holds P ts) (hg : g ∈ s.owned) :
    ∃ t ∈ ts, t.use = some .allocated ∧ t.start + 8 = g.pv ∧ g.xWantedSize.toNat + 8 ≤ t.size := by
  obtain ⟨t, ht, huse, hpv⟩ := mem_users.1 (h.owned.subset (List.mem_map_of_mem hg))
  exact ⟨t, ht, huse, hpv, h.wide g hg t ht huse hpv⟩

/-- A cell that a grant covers is in its block, behind the header. -/
theorem covers (h : s.Holds P ts) (hg : g ∈ s.owned) (hp : g.Covers p) :
    ∃ t ∈ ts, t.use = some .allocated ∧ t.start < p ∧ p < t.stop := by
  obtain ⟨t, ht, huse, hpv, hwide⟩ := h.block hg
  unfold Grant.Covers at hp
  exact ⟨t, ht, huse, by omega, by unfold Tile.stop; omega⟩

/-- What was stored survives what keeps the allocated blocks. -/
theorem stored_of_kept (h : s.Holds P ts) (hkept : Kept ts s.heap.link link') {l : BlockLink}
    (hl : s.stored p = some l) : link' p = l ∧ ∃ g ∈ s.owned, g.Covers p := by
  obtain ⟨hlink, g, hg, hp⟩ := h.stored p l hl
  obtain ⟨t, ht, huse, hlo, hhi⟩ := h.covers hg hp
  exact ⟨(hkept t ht huse p hlo.le hhi).trans hlink, g, hg, hp⟩

/-- After `pvPortMalloc`. -/
theorem malloced (h : s.Holds P ts) (hr : Allocated P n ts s.heap r heap) :
    ∃ us, (s.malloced n r heap).Holds P us := by
  rcases hr with ⟨rfl, rfl, -⟩ | ⟨xs, t, ys, rfl, ht, hle, -, -, -, rfl, hrep, hkept, hmin⟩
  · refine ⟨ts, h.represents, h.owned, h.leaving, h.wide, h.stored, ?_, min_le_right _ _⟩
    exact h.lowest.trans (min_eq_left h.lowest_le).symm
  · have hmem : t ∈ xs ++ t :: ys := List.mem_append_right _ List.mem_cons_self
    have hfree {k : Use} : t.use ≠ some k := by
      rw [ht]
      exact nofun
    refine ⟨_, hrep, ?_, ?_, ?_, ?_, ?_, min_le_right _ _⟩
    · have howned := h.owned
      rw [users_append, users_cons_of_ne hfree] at howned
      rw [users_append, users_cons_of_eq rfl, users_append, users_remainder, List.nil_append]
      exact (howned.cons _).trans List.perm_middle.symm
    · have hleaving := h.leaving
      rw [users_append, users_cons_of_ne hfree] at hleaving
      rw [users_append, users_cons_of_ne (by simp), users_append, users_remainder, List.nil_append]
      exact hleaving
    · have htiled := hrep.linked.tiled
      intro g hg u hu huse hpv
      rcases List.mem_cons.1 hg with rfl | hg
      · -- the new block
        have heq := htiled.start_inj hu (List.mem_append_right _ List.mem_cons_self)
          (Nat.add_right_cancel hpv)
        rw [heq]
        show n.toNat + 8 ≤ cutSize (need n) t
        unfold cutSize need at *
        split <;> omega
      · obtain ⟨w, hw, hwuse, hwpv, hwide⟩ := h.block hg
        have hw' : w ∈ xs ++ ⟨t.start, cutSize (need n) t, some .allocated⟩ ::
            (remainder (need n) t ++ ys) := by
          rcases List.mem_append.1 hw with hw | hw
          · exact List.mem_append_left _ hw
          · rcases List.mem_cons.1 hw with rfl | hw
            · exact absurd hwuse hfree
            · simp [hw]
        rwa [htiled.start_inj hu hw' (Nat.add_right_cancel (hpv.trans hwpv.symm))]
    · intro p l hl
      obtain ⟨hlink, g, hg, hp⟩ := h.stored_of_kept hkept hl
      exact ⟨hlink, g, List.mem_cons_of_mem _ hg, hp⟩
    · rw [h.lowest] at hmin
      exact hmin

/-- After the first part of `vPortFree`. -/
theorem marked (h : s.Holds P ts) (hg : g ∈ s.owned) :
    Run (vPortFreeMark g.pv) s.heap fun r heap ↦ r = true ∧ ∃ us, (s.marked g heap).Holds P us := by
  obtain ⟨t, ht, huse, hpv, -⟩ := h.block hg
  obtain ⟨xs, ys, rfl⟩ := List.append_of_mem ht
  rw [← hpv]
  refine (run_vPortFreeMark h.represents huse).mono ?_
  rintro r heap ⟨rfl, hrep, hlink, hmin, hfree⟩
  have herased := (List.perm_cons_erase hg).map Grant.pv
  refine ⟨rfl, _, hrep, ?_, ?_, ?_, ?_, ?_, min_le_right _ _⟩
  · have howned := herased.symm.trans h.owned
    rw [users_append, users_cons_of_eq huse, hpv] at howned
    rw [users_append, users_cons_of_ne (by simp)]
    exact (howned.trans List.perm_middle).cons_inv
  · have hleaving := h.leaving
    have hne : t.use ≠ some .loose := by
      rw [huse]
      simp
    rw [users_append, users_cons_of_ne hne] at hleaving
    rw [users_append, users_cons_of_eq rfl]
    refine List.Perm.trans ?_ List.perm_middle.symm
    rw [hpv]
    exact hleaving.cons _
  · intro g' hg' u hu huse' hpv'
    refine h.wide g' (List.mem_of_mem_erase hg') u ?_ huse' hpv'
    rcases List.mem_append.1 hu with hu | hu
    · exact List.mem_append_left _ hu
    · rcases List.mem_cons.1 hu with rfl | hu
      · exact absurd huse' (by simp)
      · simp [hu]
  · intro p l hl
    have hout : ¬ g.Covers p := fun hp ↦ by
      simp [Tasks.marked, hp] at hl
    have hl' : s.stored p = some l := by
      simpa [Tasks.marked, hout] using hl
    obtain ⟨hlink', g', hg', hp⟩ := h.stored p l hl'
    have hne : g' ≠ g := by
      rintro rfl
      exact hout hp
    refine ⟨(hlink p ?_).trans hlink', g', (List.mem_erase_of_ne hne).2 hg', hp⟩
    -- not the header that is unmarked
    rintro rfl
    obtain ⟨u, hu, -, hlo, hhi⟩ := h.covers hg' hp
    have hpos := h.represents.linked.tiled.size_pos ht
    have heq := h.represents.linked.tiled.eq_of_mem hu ht ⟨hlo.le, hhi⟩
      ⟨le_rfl, by unfold Tile.stop; omega⟩
    rw [heq] at hlo
    exact lt_irrefl _ hlo
  · show heap.xMinimumEverFreeBytesRemaining.toNat =
      min s.lowest heap.xFreeBytesRemaining.toNat
    rw [hmin, hfree, h.lowest]
    exact (min_eq_left h.lowest_le).symm

/-- After the second part. -/
theorem returned (h : s.Holds P ts) (hpv : pv ∈ s.leaving) :
    Run (vPortFreeReturn P pv) s.heap fun _ heap ↦ ∃ us, (s.returned pv heap).Holds P us := by
  obtain ⟨t, ht, huse, rfl⟩ := mem_users.1 (h.leaving.subset hpv)
  obtain ⟨xs, ys, rfl⟩ := List.append_of_mem ht
  refine (run_vPortFreeReturn h.represents huse).mono ?_
  rintro _ heap ⟨us, hvacated, hrep, hkept, hmin, hfree⟩
  have hne : t.use ≠ some .allocated := by
    rw [huse]
    simp
  refine ⟨us, hrep, ?_, ?_, ?_, ?_, ?_, min_le_right _ _⟩
  · have howned := h.owned
    rw [users_append, users_cons_of_ne hne] at howned
    rw [users_vacated hvacated]
    exact howned
  · have hleaving := (List.perm_cons_erase hpv).symm.trans h.leaving
    rw [users_append, users_cons_of_eq huse] at hleaving
    rw [users_vacated hvacated]
    exact (hleaving.trans List.perm_middle).cons_inv
  · intro g hg u hu huse' hpv'
    refine h.wide g hg u ?_ huse' hpv'
    rcases (hvacated.mem_iff (by rw [huse']; rfl)).1 hu with hu | hu
    · exact List.mem_append_left _ hu
    · exact List.mem_append_right _ (List.mem_cons_of_mem _ hu)
  · intro p l hl
    exact h.stored_of_kept hkept hl
  · have hle := h.lowest_le
    show heap.xMinimumEverFreeBytesRemaining.toNat = min s.lowest heap.xFreeBytesRemaining.toNat
    rw [hmin, hfree, h.lowest]
    omega

/-- After a task has stored to what it owns. -/
theorem storing (h : s.Holds P ts) (hg : g ∈ s.owned) (hp : g.Covers p) (l : BlockLink) :
    (s.storing p l).Holds P ts := by
  obtain ⟨t, ht, huse, hlo, hhi⟩ := h.covers hg hp
  have htiled := h.represents.linked.tiled
  have hstart : ∀ u ∈ ts, u.start ≠ p := by
    rintro u hu rfl
    have hpos := htiled.size_pos hu
    have heq := htiled.eq_of_mem hu ht ⟨le_rfl, by unfold Tile.stop; omega⟩ ⟨hlo.le, hhi⟩
    rw [heq] at hlo
    exact lt_irrefl _ hlo
  have hbase := htiled.le_start ht
  have hstop := htiled.stop_le ht
  have hout := P.xStart_outside
  have hlinked : Linked P (Function.update s.heap.link p l) ts := by
    refine h.represents.linked.congr ?_ ?_ ?_
    · intro u hu
      exact Function.update_of_ne (hstart u hu) ..
    · exact Function.update_of_ne (by omega) ..
    · exact Function.update_of_ne (by omega) ..
  refine ⟨⟨hlinked, h.represents.merged, h.represents.pxEnd, h.represents.bit, h.represents.free,
    h.represents.count⟩, h.owned, h.leaving, h.wide, ?_, h.lowest, h.lowest_le⟩
  intro q m hm
  by_cases hq : q = p
  · subst hq
    obtain rfl : l = m := by
      simpa [Tasks.storing] using hm
    exact ⟨Function.update_self .., g, hg, hp⟩
  · obtain ⟨hlink, hcovered⟩ := h.stored q m ((Function.update_of_ne hq ..).symm.trans hm)
    exact ⟨(Function.update_of_ne hq ..).trans hlink, hcovered⟩

end Tasks.Holds

theorem Tasks.Untouched.first (h : s.Untouched P) :
    Run (pvPortMalloc P n) s.heap fun r heap ↦ ∃ us, (s.malloced n r heap).Holds P us := by
  refine (run_pvPortMalloc_first h.pxEnd h.count).mono ?_
  rintro r heap ⟨first, hrep, hmin, hr⟩
  have hfree : first.xFreeBytesRemaining.toNat = P.stop - P.base := by
    rw [hrep.free, freeBytes_cons_free rfl]
    rfl
  have hholds : Tasks.Holds P { s with heap := first } [⟨P.base, P.stop - P.base, none⟩] := by
    refine ⟨hrep, ?_, ?_, ?_, ?_, ?_, ?_⟩
    · rw [h.owned, users_cons_of_ne (by simp)]
      exact List.Perm.nil
    · rw [h.leaving, users_cons_of_ne (by simp)]
      exact List.Perm.nil
    · intro g hg
      rw [h.owned] at hg
      exact absurd hg List.not_mem_nil
    · intro p l hl
      exact absurd ((h.stored p).symm.trans hl) nofun
    · rw [hmin, hfree, h.lowest]
    · rw [hfree, h.lowest]
  exact hholds.malloced hr

/-- Before the first call, and after. -/
def Tasks.Consistent (P : Placement) (s : Tasks) : Prop := s.Untouched P ∨ ∃ ts, s.Holds P ts

/-- `pvPortMalloc` returns at any time. -/
theorem Tasks.Consistent.malloced (h : s.Consistent P) (n : UInt32) :
    Run (pvPortMalloc P n) s.heap fun r heap ↦ ∃ us, (s.malloced n r heap).Holds P us := by
  rcases h with h | ⟨ts, h⟩
  · exact h.first
  · exact (run_pvPortMalloc h.represents).mono fun r heap hr ↦ h.malloced hr

theorem Tasks.Step.consistent {s' : Tasks} {e : Event} (h : s.Consistent P)
    (hstep : Tasks.Step P s e s') : s'.Consistent P := by
  cases hstep with
  | malloc hrun => exact .inr ((h.malloced _).elim hrun)
  | store hg hp _ =>
      rcases h with h | ⟨ts, h⟩
      · rw [h.owned] at hg
        exact absurd hg List.not_mem_nil
      · exact .inr ⟨ts, h.storing hg hp _⟩
  | mark hg hrun =>
      rcases h with h | ⟨ts, h⟩
      · rw [h.owned] at hg
        exact absurd hg List.not_mem_nil
      · exact .inr ((h.marked hg).elim hrun).2
  | giveBack hpv hrun =>
      rcases h with h | ⟨ts, h⟩
      · rw [h.leaving] at hpv
        exact absurd hpv List.not_mem_nil
      · exact .inr ((h.returned hpv).elim hrun)

theorem Tasks.consistent {history : List Event}
    (h : Reaches (Tasks.Starts P) (Tasks.Step P) history s) : s.Consistent P := by
  refine Reaches.invariant (I := fun _ s ↦ s.Consistent P) ?_ ?_ h
  · rintro _ ⟨link, rfl⟩
    exact .inl ⟨rfl, rfl, rfl, rfl, fun _ ↦ rfl, rfl⟩
  · intro past s e s' _ hs hstep
    exact hstep.consistent hs

/-! ## At every moment -/

/-- The size of the block of a pointer, without the mark. -/
def blockSize (heap : Heap) (pv : Nat) : Nat := (heap.link (pv - 8)).xBlockSize.toNat % 2 ^ 31

/-- The pointers whose blocks are not free. -/
def Tasks.held (s : Tasks) : List Nat := s.owned.map Grant.pv ++ s.leaving

/-- What the tasks rely on. -/
structure Tasks.Safe (P : Placement) (s : Tasks) : Prop where
  inside : ∀ g ∈ s.owned, 8 ∣ g.pv ∧ P.base + 8 ≤ g.pv ∧ g.pv + g.xWantedSize.toNat ≤ P.stop
  apart : s.owned.Pairwise fun g g' ↦
    g.pv + g.xWantedSize.toNat + 8 ≤ g'.pv ∨ g'.pv + g'.xWantedSize.toNat + 8 ≤ g.pv
  stored : ∀ p l, s.stored p = some l → s.heap.link p = l
  malloc : ∀ n, ∃ r heap, pvPortMalloc P n s.heap = some (r, heap)
  mark : ∀ g ∈ s.owned, ∃ heap, vPortFreeMark g.pv s.heap = some (true, heap)
  giveBack : ∀ pv ∈ s.leaving, ∃ heap, vPortFreeReturn P pv s.heap = some ((), heap)

theorem Tasks.Holds.nodup (h : s.Holds P ts) : (s.owned.map Grant.pv).Nodup :=
  h.owned.nodup_iff.2 (nodup_users h.represents.linked.tiled)

theorem Tasks.Holds.safe (h : s.Holds P ts) : s.Safe P where
  inside g hg := by
    obtain ⟨t, ht, -, hpv, hwide⟩ := h.block hg
    have hbase := h.represents.linked.tiled.le_start ht
    have hstop := h.represents.linked.tiled.stop_le ht
    have haligned := (h.represents.linked.aligned t ht).1
    unfold Tile.stop at hstop
    exact ⟨by omega, by omega, by omega⟩
  apart := by
    have hne := List.pairwise_map.1 h.nodup
    refine hne.imp_of_mem ?_
    intro g g' hg hg' hne
    obtain ⟨t, ht, -, hpv, hwide⟩ := h.block hg
    obtain ⟨u, hu, -, hpv', hwide'⟩ := h.block hg'
    by_contra hover
    -- else the blocks share the header of the later one
    have htiled := h.represents.linked.tiled
    have heq : t = u := htiled.eq_of_mem (x := max t.start u.start) ht hu
      ⟨le_max_left _ _, by unfold Tile.stop; omega⟩ ⟨le_max_right _ _, by unfold Tile.stop; omega⟩
    rw [heq] at hpv
    omega
  stored p l hl := (h.stored p l hl).1
  malloc n := by
    obtain ⟨r, heap, heq, -⟩ := run_pvPortMalloc (n := n) h.represents
    exact ⟨r, heap, heq⟩
  mark g hg := by
    obtain ⟨r, heap, heq, rfl, -⟩ := h.marked hg
    exact ⟨heap, heq⟩
  giveBack pv hpv := by
    obtain ⟨_, heap, heq, -⟩ := h.returned hpv
    exact ⟨heap, heq⟩

theorem Tasks.Untouched.safe (h : s.Untouched P) : s.Safe P where
  inside g hg := by
    rw [h.owned] at hg
    exact absurd hg List.not_mem_nil
  apart := by
    rw [h.owned]
    exact List.Pairwise.nil
  stored p l hl := absurd ((h.stored p).symm.trans hl) nofun
  malloc n := by
    obtain ⟨r, heap, heq, -⟩ := h.first (n := n)
    exact ⟨r, heap, heq⟩
  mark g hg := by
    rw [h.owned] at hg
    exact absurd hg List.not_mem_nil
  giveBack pv hpv := by
    rw [h.leaving] at hpv
    exact absurd hpv List.not_mem_nil

/-- **At every moment** what tasks own lies in the heap and apart, holds what was last stored to it,
and every call returns. -/
theorem tasks_safe {history : List Event}
    (h : Reaches (Tasks.Starts P) (Tasks.Step P) history s) : s.Safe P := by
  rcases Tasks.consistent h with h | ⟨ts, h⟩
  · exact h.safe
  · exact h.safe

/-- A heap of 20 KiB, not aligned. -/
def board : Placement where
  ucHeap := 0x20000044
  configTOTAL_HEAP_SIZE := 20480
  xStart := 0x20000030
  notNull := by decide
  inMemory := by decide
  large := by decide
  small := by decide
  apart := by decide

/-- There nothing has been called. -/
def idle : Tasks := ⟨.initial fun _ ↦ ⟨0, 0⟩, [], [], fun _ ↦ none, board.stop - board.base⟩

theorem untouched_idle : idle.Untouched board := ⟨rfl, rfl, rfl, rfl, fun _ ↦ rfl, rfl⟩

theorem reaches_idle : Reaches (Tasks.Starts board) (Tasks.Step board) [] idle :=
  .start ⟨_, rfl⟩

/-- The blocks of 112 and of 48 bytes are at the beginning of the heap. -/
theorem reaches_allocated : ∃ heap₁ heap₂,
    Reaches (Tasks.Starts board) (Tasks.Step board) [.malloc 40 0x200000C0, .malloc 100 0x20000050]
      ((idle.malloced 100 0x20000050 heap₁).malloced 40 0x200000C0 heap₂) := by
  obtain ⟨r₁, heap₁, heq₁, first, -, -, hr₁⟩ :=
    run_pvPortMalloc_first (P := board) (n := 100) untouched_idle.pxEnd untouched_idle.count
  obtain ⟨rfl, hrep⟩ := hr₁.eq_of_first [] [] (by decide) (by decide)
    (List.forall_mem_nil _) rfl (by decide)
  have hrest : remainder (need 100) ⟨board.base, board.stop - board.base, none⟩ =
      [⟨board.base + 112, board.stop - board.base - 112, none⟩] := if_pos (by decide)
  rw [hrest] at hrep
  obtain ⟨r₂, heap₂, heq₂, hr₂⟩ := run_pvPortMalloc (n := 40) hrep
  obtain ⟨rfl, -⟩ := hr₂.eq_of_first [_] [] (by decide) (by decide)
    (by simp) rfl (by decide)
  exact ⟨heap₁, heap₂, (reaches_idle.step (.malloc heq₁)).step (.malloc heq₂)⟩

/-- Two blocks are allocated, the second is stored to, and the first is given back. -/
def givenBack : List Event :=
  [.giveBack 0x20000050, .mark ⟨0x20000050, 100⟩, .store 0x200000C0 ⟨1, 2⟩,
    .malloc 40 0x200000C0, .malloc 100 0x20000050]

/-- What the tasks have then. -/
structure Remaining (s : Tasks) : Prop where
  reaches : Reaches (Tasks.Starts board) (Tasks.Step board) givenBack s
  owned : s.owned = [⟨0x200000C0, 40⟩]
  leaving : s.leaving = []
  stored : s.stored 0x200000C0 = some ⟨1, 2⟩

theorem exists_remaining : ∃ s, Remaining s := by
  obtain ⟨heap₁, heap₂, hallocated⟩ := reaches_allocated
  have hmem₁ : ⟨0x20000050, 100⟩ ∈
      ((idle.malloced 100 0x20000050 heap₁).malloced 40 0x200000C0 heap₂).owned :=
    List.mem_cons_of_mem _ List.mem_cons_self
  have hcovers : (⟨0x200000C0, 40⟩ : Grant).Covers 0x200000C0 := by decide
  have hstored := hallocated.step (.store (l := ⟨1, 2⟩) List.mem_cons_self hcovers (by decide))
  obtain ⟨heap₃, hmark⟩ := (tasks_safe hstored).mark _ hmem₁
  have hmarked := hstored.step (.mark hmem₁ hmark)
  obtain ⟨heap₄, hreturn⟩ := (tasks_safe hmarked).giveBack 0x20000050 List.mem_cons_self
  exact ⟨_, hmarked.step (.giveBack List.mem_cons_self hreturn), rfl, rfl, rfl⟩

theorem Remaining.held (hs : Remaining s) : s.held = [0x200000C0] := by
  rw [Tasks.held, hs.owned, hs.leaving]
  rfl

theorem tasks_safe_givenBack : ∃ s, Reaches (Tasks.Starts board) (Tasks.Step board) givenBack s ∧
    s.owned = [⟨0x200000C0, 40⟩] ∧ s.stored 0x200000C0 = some ⟨1, 2⟩ ∧ s.Safe board := by
  obtain ⟨s, hs⟩ := exists_remaining
  exact ⟨s, hs.reaches, hs.owned, hs.stored, tasks_safe hs.reaches⟩

/-! ## Nothing is lost -/

theorem blockSize_of_used (h : Linked P heap.link ts) (ht : t ∈ ts) (huse : t.use.isSome) :
    blockSize heap (t.start + 8) = t.size := by
  have hheader := h.header t ht
  have hlt := h.size_lt ht
  unfold Header at hheader
  unfold blockSize
  rw [Nat.add_sub_cancel]
  cases hu : t.use with
  | none => simp [hu] at huse
  | some use =>
      rw [hu] at hheader
      cases use with
      | loose => exact hheader.symm ▸ Nat.mod_eq_of_lt hlt
      | allocated =>
          rw [hheader.1]
          omega

theorem sum_users {f : Nat → Nat} (hf : ∀ t ∈ ts, t.use.isSome → f (t.start + 8) = t.size) :
    ((users .allocated ts).map f).sum + ((users .loose ts).map f).sum =
      extent (fun t ↦ t.use.isSome) ts := by
  induction ts with
  | nil => rfl
  | cons t ts ih =>
      have hrest := ih fun u hu ↦ hf u (List.mem_cons_of_mem t hu)
      have hone := hf t List.mem_cons_self
      rw [extent_cons, ← hrest]
      cases hu : t.use with
      | none =>
          rw [users_cons_of_ne (by simp [hu]), users_cons_of_ne (by simp [hu])]
          simp
      | some use =>
          rw [hu] at hone
          cases use with
          | loose =>
              rw [users_cons_of_ne (by simp [hu]), users_cons_of_eq hu, List.map_cons,
                List.sum_cons, hone rfl]
              simp only [Option.isSome_some, if_true]
              omega
          | allocated =>
              rw [users_cons_of_eq hu, users_cons_of_ne (by simp [hu]), List.map_cons,
                List.sum_cons, hone rfl]
              simp only [Option.isSome_some, if_true]
              omega

namespace Tasks.Holds

theorem held (h : s.Holds P ts) : List.Perm s.held (users .allocated ts ++ users .loose ts) :=
  h.owned.append h.leaving

theorem mem_held (h : s.Holds P ts) : pv ∈ s.held ↔ ∃ t ∈ ts, t.use.isSome ∧ t.start + 8 = pv := by
  rw [h.held.mem_iff, List.mem_append, mem_users, mem_users]
  constructor
  · rintro (⟨t, ht, huse, hpv⟩ | ⟨t, ht, huse, hpv⟩)
    · exact ⟨t, ht, by rw [huse]; rfl, hpv⟩
    · exact ⟨t, ht, by rw [huse]; rfl, hpv⟩
  · rintro ⟨t, ht, huse, hpv⟩
    obtain ⟨use, hu⟩ := Option.isSome_iff_exists.1 huse
    cases use with
    | loose => exact .inr ⟨t, ht, hu, hpv⟩
    | allocated => exact .inl ⟨t, ht, hu, hpv⟩

theorem sum_held (h : s.Holds P ts) :
    s.heap.xFreeBytesRemaining.toNat + (s.held.map (blockSize s.heap)).sum = P.stop - P.base := by
  have hsum : (s.held.map (blockSize s.heap)).sum = extent (fun t ↦ t.use.isSome) ts := by
    rw [(h.held.map _).sum_eq, List.map_append, List.sum_append]
    exact sum_users fun t ht huse ↦ blockSize_of_used h.represents.linked ht huse
  have hall := h.represents.linked.tiled.extent_add_not (p := fun t ↦ t.use.isSome)
  simp only [Option.not_isSome] at hall
  rw [hsum, h.represents.free, freeBytes]
  omega

end Tasks.Holds

/-- **Nothing is lost**: once the heap is initialised, what is free and the blocks that are not add
up to it, and the least that has ever been free is on record. -/
theorem free_add_held {history : List Event}
    (h : Reaches (Tasks.Starts P) (Tasks.Step P) history s) (hinit : s.heap.pxEnd ≠ 0) :
    s.heap.xFreeBytesRemaining.toNat + (s.held.map (blockSize s.heap)).sum = P.stop - P.base ∧
      s.heap.xMinimumEverFreeBytesRemaining.toNat = s.lowest := by
  rcases Tasks.consistent h with h | ⟨ts, h⟩
  · exact absurd h.pxEnd hinit
  · exact ⟨h.sum_held, h.lowest⟩

theorem free_add_held_givenBack : ∃ s,
    Reaches (Tasks.Starts board) (Tasks.Step board) givenBack s ∧ s.held = [0x200000C0] ∧
      s.heap.xFreeBytesRemaining.toNat + (s.held.map (blockSize s.heap)).sum =
        board.stop - board.base ∧ s.heap.xMinimumEverFreeBytesRemaining.toNat = s.lowest := by
  obtain ⟨s, hs⟩ := exists_remaining
  have hinit : s.heap.pxEnd ≠ 0 := by
    rcases Tasks.consistent hs.reaches with h | ⟨ts, h⟩
    · exact absurd (hs.owned.symm.trans h.owned) (List.cons_ne_nil _ _)
    · rw [h.represents.pxEnd]
      decide
  exact ⟨s, hs.reaches, hs.held, free_add_held hs.reaches hinit⟩

/-! ## When `pvPortMalloc` fails -/

/-- A gap between the blocks in use where a block of `m` bytes fits. -/
def Tasks.Gap (P : Placement) (s : Tasks) (m : Nat) : Prop :=
  ∃ x, P.base ≤ x ∧ x + m ≤ P.stop ∧
    ∀ pv ∈ s.held, x + m ≤ pv - 8 ∨ pv - 8 + blockSize s.heap pv ≤ x

theorem Allocated.null_iff {before after : Heap} (h : Allocated P n ts before r after)
    (hmerged : Merged ts) (htiled : Tiled P.base ts P.stop) :
    r = 0 ↔ n = 0 ∨ 2 ^ 31 ≤ n.toNat ∨ ¬ ∃ x, P.base ≤ x ∧ x + need n ≤ P.stop ∧
      ∀ t ∈ ts, t.use.isSome → x + need n ≤ t.start ∨ t.stop ≤ x := by
  have hpos : 0 < need n := by
    unfold need
    omega
  rcases h with ⟨rfl, -, hwhy⟩ | ⟨xs, t, ys, rfl, ht, hle, -, hne, hlt, rfl, -⟩
  · refine iff_of_true rfl ?_
    rcases hwhy with hzero | hlarge | hsmall
    · exact .inl hzero
    · exact .inr (.inl hlarge)
    · refine .inr (.inr ?_)
      rintro ⟨x, hlo, hhi, hgap⟩
      obtain ⟨t, ht, hfree, hstart, hstop⟩ :=
        hmerged.exists_free htiled hlo (Nat.lt_add_of_pos_right hpos) hhi hgap
      have hless := hsmall t ht hfree
      unfold Tile.stop at hstop
      omega
  · have hmem : t ∈ xs ++ t :: ys := List.mem_append_right _ List.mem_cons_self
    refine iff_of_false (Nat.succ_ne_zero _) ?_
    rintro (hzero | hlarge | hnone)
    · exact hne hzero
    · omega
    · -- the free block itself is a gap
      refine hnone ⟨t.start, htiled.le_start hmem, ?_, ?_⟩
      · have hstop := htiled.stop_le hmem
        unfold Tile.stop at hstop
        omega
      · intro u hu huse
        have hupos := htiled.size_pos hu
        by_contra hover
        have heq := htiled.eq_of_mem (x := max u.start t.start) hu hmem
          ⟨le_max_left _ _, by unfold Tile.stop at *; omega⟩
          ⟨le_max_right _ _, by unfold Tile.stop at *; omega⟩
        rw [heq, ht] at huse
        exact absurd huse (by simp)

theorem Tasks.Holds.gap_iff (h : s.Holds P ts) (m : Nat) : s.Gap P m ↔
    ∃ x, P.base ≤ x ∧ x + m ≤ P.stop ∧
      ∀ t ∈ ts, t.use.isSome → x + m ≤ t.start ∨ t.stop ≤ x := by
  refine exists_congr fun x ↦ and_congr_right fun _ ↦ and_congr_right fun _ ↦ ?_
  constructor
  · intro hgap t ht huse
    have hor := hgap (t.start + 8) (h.mem_held.2 ⟨t, ht, huse, rfl⟩)
    rw [blockSize_of_used h.represents.linked ht huse, Nat.add_sub_cancel] at hor
    exact hor
  · intro hgap pv hpv
    obtain ⟨t, ht, huse, rfl⟩ := h.mem_held.1 hpv
    rw [blockSize_of_used h.represents.linked ht huse, Nat.add_sub_cancel]
    exact hgap t ht huse

/-- **`pvPortMalloc` fails only where no gap is large enough**: whatever was allocated and freed
before, and in whatever order, free memory is found wherever it lies together. -/
theorem pvPortMalloc_null_iff {history : List Event}
    (h : Reaches (Tasks.Starts P) (Tasks.Step P) history s)
    (hrun : pvPortMalloc P n s.heap = some (r, heap)) :
    r = 0 ↔ n = 0 ∨ 2 ^ 31 ≤ n.toNat ∨ ¬ s.Gap P (need n) := by
  rcases Tasks.consistent h with h | ⟨ts, h⟩
  · obtain ⟨first, hrep, -, hr⟩ := (run_pvPortMalloc_first h.pxEnd h.count).elim hrun
    have hgap : s.Gap P (need n) ↔ ∃ x, P.base ≤ x ∧ x + need n ≤ P.stop ∧
        ∀ t ∈ [(⟨P.base, P.stop - P.base, none⟩ : Block)], t.use.isSome →
          x + need n ≤ t.start ∨ t.stop ≤ x := by
      simp [Tasks.Gap, Tasks.held, h.owned, h.leaving]
    rw [hgap]
    exact hr.null_iff hrep.merged hrep.linked.tiled
  · rw [h.gap_iff]
    exact ((run_pvPortMalloc h.represents).elim hrun).null_iff h.represents.merged
      h.represents.linked.tiled

/-- Where the first block was there is room for another one of the size. -/
theorem pvPortMalloc_null_iff_givenBack : ∃ s r heap,
    Reaches (Tasks.Starts board) (Tasks.Step board) givenBack s ∧
      pvPortMalloc board 100 s.heap = some (r, heap) ∧ r ≠ 0 := by
  obtain ⟨s, hs⟩ := exists_remaining
  obtain ⟨r, heap, hrun⟩ := (tasks_safe hs.reaches).malloc 100
  refine ⟨s, r, heap, hs.reaches, hrun, fun hzero ↦ ?_⟩
  rcases (pvPortMalloc_null_iff hs.reaches hrun).1 hzero with h | h | hgap
  · exact absurd h (by decide)
  · exact absurd h (by decide)
  · refine hgap ⟨board.base, le_rfl, by decide, ?_⟩
    rw [hs.held, List.forall_mem_singleton]
    exact .inl (by decide)

end Stm32F1.Rtos
