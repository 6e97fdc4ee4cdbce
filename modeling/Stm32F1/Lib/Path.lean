import Mathlib

/-!
# Paths along links

Every cell has one link.  `Path next a l b` says that, from `a` on, the links lead
through the cells of `l` to `b`.  A list in memory is a path from its anchor to its
end marker, a ring one that leads back; what code does to them is to redirect the
last link of a path.
-/

namespace Stm32F1

variable {α : Type}

/-- From `a` the links lead through the cells of `l` to `b`. -/
def Path (next : α → α) : α → List α → α → Prop
  | a, [], b => next a = b
  | a, x :: l, b => next a = x ∧ Path next x l b

variable {next next' : α → α} {a b c x : α} {l r r' : List α}

@[simp] theorem path_nil : Path next a [] b ↔ next a = b := Iff.rfl

@[simp] theorem path_cons : Path next a (x :: l) b ↔ next a = x ∧ Path next x l b := Iff.rfl

/-- A path through `x` is one to `x` and one from it. -/
theorem path_append : Path next a (l ++ x :: r) b ↔ Path next a l x ∧ Path next x r b := by
  induction l generalizing a with
  | nil => exact Iff.rfl
  | cons y l ih => rw [List.cons_append, path_cons, path_cons, ih, and_assoc]

/-- A path depends on the links of the cells that it leaves only. -/
theorem Path.congr (h : Path next a l b) (heq : ∀ y ∈ a :: l, next' y = next y) :
    Path next' a l b := by
  induction l generalizing a with
  | nil => exact (heq a List.mem_cons_self).trans h
  | cons y l ih =>
      refine ⟨(heq a List.mem_cons_self).trans h.1, ih h.2 ?_⟩
      intro z hz
      exact heq z (List.mem_cons_of_mem a hz)

/-- Where a path is left for its end. -/
def lastCell (a : α) (l : List α) : α := l.getLast?.getD a

@[simp] theorem lastCell_nil : lastCell a [] = a := rfl

@[simp] theorem lastCell_cons : lastCell a (x :: l) = lastCell x l := by
  cases l with
  | nil => rfl
  | cons y l => rfl

theorem lastCell_mem : lastCell a l ∈ a :: l := by
  induction l generalizing a with
  | nil => exact List.mem_cons_self
  | cons y l ih =>
      rw [lastCell_cons]
      exact List.mem_cons_of_mem a ih

@[simp] theorem lastCell_concat : lastCell a (l ++ [x]) = x := by
  simp [lastCell]

/-- A link leads to the next cell, or to the end. -/
theorem Path.next_mem (h : Path next a l b) (hx : x ∈ a :: l) : next x = b ∨ next x ∈ l := by
  induction l generalizing a with
  | nil =>
      obtain rfl := List.mem_singleton.1 hx
      exact .inl h
  | cons y l ih =>
      rcases List.mem_cons.1 hx with rfl | hx
      · exact .inr (h.1 ▸ List.mem_cons_self)
      · exact (ih h.2 hx).imp_right (List.mem_cons_of_mem y)

/-- The way back. -/
theorem Path.reverse {previous : α → α} (h : Path next a l b)
    (hback : ∀ x ∈ a :: l, previous (next x) = x) : Path previous b l.reverse a := by
  induction l generalizing a with
  | nil =>
      show previous b = a
      rw [← h, hback a List.mem_cons_self]
  | cons y l ih =>
      rw [List.reverse_cons, path_append, path_nil, ← h.1, hback a List.mem_cons_self, h.1]
      exact ⟨ih h.2 fun x hx ↦ hback x (List.mem_cons_of_mem a hx), rfl⟩

/-- What is behind a part of a path. -/
theorem Path.behind (h : Path next a (l ++ r) b) : Path next (lastCell a l) r b := by
  induction l generalizing a with
  | nil => exact h
  | cons y l ih =>
      rw [lastCell_cons]
      exact ih h.2

/-- **A path that goes on another way** from where it leaves `l`. -/
theorem Path.splice (h : Path next a (l ++ r) b) (hnodup : (a :: l).Nodup)
    (heq : ∀ y ∈ a :: l, y ≠ lastCell a l → next' y = next y)
    (hrest : Path next' (lastCell a l) r' c) : Path next' a (l ++ r') c := by
  induction l generalizing a with
  | nil => exact hrest
  | cons y l ih =>
      rw [lastCell_cons] at heq hrest
      obtain ⟨ha, hnodup⟩ := List.nodup_cons.1 hnodup
      refine ⟨?_, ih h.2 hnodup (fun z hz ↦ heq z (List.mem_cons_of_mem a hz)) hrest⟩
      rw [heq a List.mem_cons_self (ne_of_mem_of_not_mem lastCell_mem ha).symm]
      exact h.1

/-- A path entered by another link. -/
theorem Path.enter (h : Path next a l b) (hc : next' c = next a)
    (heq : ∀ y ∈ l, next' y = next y) : Path next' c l b := by
  cases l with
  | nil => exact hc.trans h
  | cons x l => exact ⟨hc.trans h.1, h.2.congr heq⟩

/-- The first link. -/
theorem Path.next_eq (h : Path next a l b) : next a = (l.head?).getD b := by
  cases l with
  | nil => exact h
  | cons x l => exact h.1

end Stm32F1
