import Mathlib

/-!
# Overwriting a range of an array

`overlay m a n f` is the array `m` with the `n` cells from `a` replaced by
`f 0, …, f (n - 1)`.  Every store this library describes is one of these, and
the lemmas are those a proof about stores needs: reading inside and outside the
range, growing the range by a cell, and splitting it.
-/

namespace Stm32F1

variable {β : Type}

/-- `m` with `f` laid over the `n` cells that start at `a`. -/
def overlay (m : Nat → β) (a n : Nat) (f : Nat → β) : Nat → β :=
  fun x ↦ if a ≤ x ∧ x < a + n then f (x - a) else m x

variable {m : Nat → β} {a n k x : Nat} {f g : Nat → β}

/-- Within the range. -/
theorem overlay_of_mem (h : a ≤ x) (h' : x < a + n) : overlay m a n f x = f (x - a) :=
  if_pos ⟨h, h'⟩

/-- Outside of it. -/
theorem overlay_of_notMem (h : x < a ∨ a + n ≤ x) : overlay m a n f x = m x :=
  if_neg (by omega)

@[simp] theorem overlay_add (h : k < n) : overlay m a n f (a + k) = f k := by
  rw [overlay_of_mem (by omega) (by omega), Nat.add_sub_cancel_left]

@[simp] theorem overlay_zero : overlay m a 0 f = m := by
  funext x
  exact overlay_of_notMem (by omega)

/-- Only the values in the range matter. -/
theorem overlay_congr (h : ∀ k < n, f k = g k) : overlay m a n f = overlay m a n g := by
  funext x
  by_cases hx : a ≤ x ∧ x < a + n
  · rw [overlay_of_mem hx.1 hx.2, overlay_of_mem hx.1 hx.2, h _ (by omega)]
  · rw [overlay_of_notMem (by omega), overlay_of_notMem (by omega)]

/-- Storing one more cell. -/
theorem overlay_succ :
    overlay m a (n + 1) f = Function.update (overlay m a n f) (a + n) (f n) := by
  funext x
  by_cases hx : x = a + n
  · subst hx
    rw [Function.update_self, overlay_add (Nat.lt_succ_self n)]
  · rw [Function.update_of_ne hx]
    by_cases hm : a ≤ x ∧ x < a + n
    · rw [overlay_of_mem hm.1 (by omega), overlay_of_mem hm.1 hm.2]
    · rw [overlay_of_notMem (by omega), overlay_of_notMem (by omega)]

/-- Two adjacent ranges are one. -/
theorem overlay_overlay_adjacent :
    overlay (overlay m a n f) (a + n) k (fun i ↦ f (n + i)) = overlay m a (n + k) f := by
  funext x
  by_cases h₂ : a + n ≤ x ∧ x < a + n + k
  · rw [overlay_of_mem h₂.1 h₂.2, overlay_of_mem (by omega) (by omega)]
    congr 1
    omega
  · rw [overlay_of_notMem (by omega)]
    by_cases h₁ : a ≤ x ∧ x < a + n
    · rw [overlay_of_mem h₁.1 h₁.2, overlay_of_mem h₁.1 (by omega)]
    · rw [overlay_of_notMem (by omega), overlay_of_notMem (by omega)]

/-- Storing a list behind another is storing both. -/
theorem overlay_append (l l' : List β) (d : β) :
    overlay (overlay m a l.length fun i ↦ l.getD i d) (a + l.length) n (fun i ↦ l'.getD i d) =
      overlay m a (l.length + n) fun i ↦ (l ++ l').getD i d := by
  have hl : ∀ i < l.length, l.getD i d = (l ++ l').getD i d :=
    fun i hi ↦ (List.getD_append l l' d i hi).symm
  have hl' : (fun i ↦ l'.getD i d) = fun i ↦ (l ++ l').getD (l.length + i) d := by
    funext i
    rw [List.getD_append_right l l' d _ (Nat.le_add_right ..), Nat.add_sub_cancel_left]
  rw [overlay_congr hl, hl', overlay_overlay_adjacent]

/-! ## Reading a range -/

/-- The `n` cells of `m` from `a`, in order. -/
def slice (m : Nat → β) (a n : Nat) : List β := (List.range n).map fun i ↦ m (a + i)

@[simp] theorem slice_zero : slice m a 0 = [] := rfl

/-- One more byte at the end, -/
theorem slice_succ : slice m a (n + 1) = slice m a n ++ [m (a + n)] := by
  rw [slice, List.range_succ, List.map_append]
  rfl

/-- or at the beginning. -/
theorem slice_succ' : slice m a (n + 1) = m a :: slice m (a + 1) n := by
  rw [slice, List.range_succ_eq_map, List.map_cons, List.map_map]
  simp only [slice, Nat.add_zero, Function.comp_def, Nat.succ_eq_add_one, Nat.add_assoc,
    Nat.add_comm 1]

@[simp] theorem length_slice : (slice m a n).length = n := by simp [slice]

@[simp] theorem getElem_slice (h : k < (slice m a n).length) : (slice m a n)[k] = m (a + k) := by
  simp [slice]

/-- Two slices, one behind the other. -/
theorem slice_append : slice m a (n + k) = slice m a n ++ slice m (a + n) k := by
  induction k with
  | zero => rw [slice_zero, Nat.add_zero, List.append_nil]
  | succ k ih => rw [← Nat.add_assoc, slice_succ, ih, slice_succ, List.append_assoc, Nat.add_assoc]

/-- Only the values in the range matter. -/
theorem slice_congr {m' : Nat → β} (h : ∀ k < n, m (a + k) = m' (a + k)) :
    slice m a n = slice m' a n :=
  List.map_congr_left fun k hk ↦ h k (List.mem_range.1 hk)

/-- The first `n` cells of what was laid over a longer range. -/
theorem slice_overlay_take {l : List β} {d : β} {k : Nat} (hn : n ≤ k) (hl : n ≤ l.length) :
    slice (overlay m a k fun i ↦ l.getD i d) a n = l.take n := by
  refine List.ext_getElem (by simp [hl]) ?_
  intro i hi hi'
  rw [length_slice] at hi
  rw [getElem_slice, overlay_add (hi.trans_le hn), List.getElem_take,
    List.getD_eq_getElem _ _ (hi.trans_le hl)]

/-- What was laid over a range is read back from it. -/
@[simp] theorem slice_overlay : slice (overlay m a n f) a n = (List.range n).map f :=
  List.map_congr_left fun _ hk ↦ overlay_add (List.mem_range.1 hk)

end Stm32F1
