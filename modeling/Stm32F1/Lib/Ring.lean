import Mathlib

/-!
# Queues of records in a ring

Memory is walked along a successor function `next`, which is what makes it a
ring.  Records of varying length lie one behind the other; each takes up a number
of cells, of which the first hold its image.  A record is added behind the last
one, and the first one is taken away.
-/

namespace Stm32F1

variable {α β F : Type}

/-- Store cells one after the other from `a` on. -/
def storeAlong [DecidableEq α] (next : α → α) : α → List β → (α → β) → α → β
  | _, [], m => m
  | a, b :: bs, m => storeAlong next (next a) bs (Function.update m a b)

/-- The cells from `a` on hold these values. -/
def HeldAt (next : α → α) (m : α → β) (a : α) (bs : List β) : Prop :=
  ∀ k, (h : k < bs.length) → m (next^[k] a) = bs[k]

variable {next : α → α} {m m' : α → β} {a x : α} {b : β} {bs : List β} {n : Nat}

/-- The walk from `a` does not come round within `n` steps. -/
def Apart (next : α → α) (a : α) (n : Nat) : Prop :=
  ∀ j k, j < k → k < n → next^[j] a ≠ next^[k] a

theorem Apart.shift {i : Nat} (h : Apart next a (n + i)) : Apart next (next^[i] a) n := by
  intro j k hjk hk
  rw [← Function.iterate_add_apply, ← Function.iterate_add_apply]
  exact h (j + i) (k + i) (Nat.add_lt_add_right hjk i) (Nat.add_lt_add_right hk i)

theorem Apart.mono {n' : Nat} (h : Apart next a n) (hn : n' ≤ n) : Apart next a n' :=
  fun j k hjk hk ↦ h j k hjk (hk.trans_le hn)

section Store

variable [DecidableEq α]

theorem storeAlong_off (h : ∀ k < bs.length, next^[k] a ≠ x) :
    storeAlong next a bs m x = m x := by
  induction bs generalizing a m with
  | nil => rfl
  | cons b bs ih =>
      have hx : a ≠ x := h 0 (Nat.succ_pos _)
      rw [storeAlong, ih fun k hk ↦ h (k + 1) (Nat.succ_lt_succ hk), Function.update_of_ne hx.symm]

/-- What was stored is there, as long as the walk has not come round. -/
theorem heldAt_storeAlong (h : Apart next a bs.length) :
    HeldAt next (storeAlong next a bs m) a bs := by
  induction bs generalizing a m with
  | nil => exact fun k hk ↦ absurd hk (Nat.not_lt_zero k)
  | cons b bs ih =>
      intro k hk
      cases k with
      | zero =>
          have hoff : storeAlong next (next a) bs (Function.update m a b) a =
              Function.update m a b a :=
            storeAlong_off fun j hj ↦ (h 0 (j + 1) (Nat.succ_pos j) (Nat.succ_lt_succ hj)).symm
          exact hoff.trans (Function.update_self ..)
      | succ k =>
          have htail : Apart next (next^[1] a) bs.length := h.shift
          exact ih htail k (Nat.lt_of_succ_lt_succ hk)

end Store

theorem HeldAt.congr (h : HeldAt next m a bs)
    (hm : ∀ k < bs.length, m' (next^[k] a) = m (next^[k] a)) : HeldAt next m' a bs :=
  fun k hk ↦ (hm k hk).trans (h k hk)

/-! ## Records -/

/-- How a record lies in memory. -/
structure Shape (α β F : Type) where
  /-- The cells that a record takes up at an address. -/
  extent : α → F → Nat
  /-- Its image, which also tells where the next record is. -/
  image : α → F → List β
  fits : ∀ a f, (image a f).length ≤ extent a f

variable {shape : Shape α β F} {f : F} {fs gs : List F}

/-- The cells that the records from `a` on take up. -/
def Shape.span (shape : Shape α β F) (next : α → α) : α → List F → Nat
  | _, [] => 0
  | a, f :: fs => shape.extent a f + shape.span next (next^[shape.extent a f] a) fs

/-- The records lie in memory from `a` on. -/
def Shape.Queued (shape : Shape α β F) (next : α → α) (m : α → β) : α → List F → Prop
  | _, [] => True
  | a, f :: fs =>
      HeldAt next m a (shape.image a f) ∧ shape.Queued next m (next^[shape.extent a f] a) fs

theorem Shape.span_concat : shape.span next a (fs ++ [f]) =
    shape.span next a fs + shape.extent (next^[shape.span next a fs] a) f := by
  induction fs generalizing a with
  | nil => exact Nat.add_comm ..
  | cons g fs ih =>
      rw [List.cons_append, span, ih, span, Nat.add_comm (shape.extent a g) (shape.span ..),
        Function.iterate_add_apply]
      omega

theorem Shape.queued_concat : shape.Queued next m a (fs ++ [f]) ↔ shape.Queued next m a fs ∧
    HeldAt next m (next^[shape.span next a fs] a)
    (shape.image (next^[shape.span next a fs] a) f) := by
  induction fs generalizing a with
  | nil => exact ⟨fun h ↦ ⟨trivial, h.1⟩, fun h ↦ ⟨h.2, trivial⟩⟩
  | cons g fs ih =>
      rw [List.cons_append, Queued, ih, Queued, and_assoc, span,
        Nat.add_comm (shape.extent a g) (shape.span ..), Function.iterate_add_apply]

/-- Only the cells that the records take up matter. -/
theorem Shape.Queued.congr (h : shape.Queued next m a fs)
    (hm : ∀ k < shape.span next a fs, m' (next^[k] a) = m (next^[k] a)) :
    shape.Queued next m' a fs := by
  induction fs generalizing a with
  | nil => trivial
  | cons f fs ih =>
      obtain ⟨hf, hfs⟩ := h
      rw [span] at hm
      refine ⟨hf.congr fun k hk ↦ hm k ?_, ih hfs fun k hk ↦ ?_⟩
      · have := shape.fits a f
        omega
      · rw [← Function.iterate_add_apply]
        exact hm _ (by omega)

/-- **A record is added** behind the last one. -/
theorem Shape.Queued.push [DecidableEq α] (h : shape.Queued next m a fs)
    (hapart : Apart next a (shape.span next a (fs ++ [f]))) :
    shape.Queued next (storeAlong next (next^[shape.span next a fs] a)
      (shape.image (next^[shape.span next a fs] a) f) m) a (fs ++ [f]) := by
  rw [span_concat, Nat.add_comm] at hapart
  have hfits := shape.fits (next^[shape.span next a fs] a) f
  refine queued_concat.2 ⟨h.congr fun k hk ↦ storeAlong_off fun j hj ↦ ?_,
    heldAt_storeAlong (hapart.shift.mono hfits)⟩
  rw [← Function.iterate_add_apply]
  exact (hapart k (j + shape.span next a fs) (by omega) (by omega)).symm

end Stm32F1
