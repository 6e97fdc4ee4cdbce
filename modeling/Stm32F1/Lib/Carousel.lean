import Mathlib

/-!
# Taking turns

A list with a place in it.  The turn goes to the item ahead of the place, and from the
last one back to the first; who joins does so right behind the place, and where the
item at the place leaves, the place moves back.

Everyone who stays gets a turn: from wherever the place is it gets to the end, where
nobody joins ahead of it, and from the beginning to the item.
-/

namespace Stm32F1

/-- The items up to the place, newest first, and those ahead of it. -/
structure Carousel (α : Type) where
  passed : List α
  ahead : List α

namespace Carousel

variable {α : Type}

/-- From the first to the last. -/
def items (r : Carousel α) : List α := r.passed.reverse ++ r.ahead

/-- Without an item. -/
def empty : Carousel α := ⟨[], []⟩

/-- The next turn. -/
def advance (r : Carousel α) : Option (α × Carousel α) :=
  match r.ahead with
  | x :: xs => some (x, ⟨x :: r.passed, xs⟩)
  | [] =>
      match r.passed.reverse with
      | [] => none
      | x :: xs => some (x, ⟨[x], xs⟩)

/-- An item joins right before the one at the place; before the first one is behind the last. -/
def join (x : α) (r : Carousel α) : Carousel α :=
  match r.passed with
  | [] => ⟨[], r.ahead ++ [x]⟩
  | y :: ys => ⟨y :: x :: ys, r.ahead⟩

/-- An item is put behind the first ones that are `p`. -/
def place (p : α → Bool) (x : α) (r : Carousel α) : Carousel α :=
  if r.passed.all p then ⟨r.passed, r.ahead.takeWhile p ++ x :: r.ahead.dropWhile p⟩
  else ⟨(r.passed.reverse.takeWhile p ++ x :: r.passed.reverse.dropWhile p).reverse, r.ahead⟩

section Leave

variable [DecidableEq α]

/-- An item leaves. -/
def leave (x : α) (r : Carousel α) : Carousel α := ⟨r.passed.erase x, r.ahead.erase x⟩

end Leave

variable {r r' : Carousel α} {x y : α} {us vs : List α} {p : α → Bool}

@[simp] theorem items_empty : (empty : Carousel α).items = [] := rfl

/-- An item has had its turn in this round, or it is ahead. -/
theorem mem_items : x ∈ r.items ↔ x ∈ r.passed ∨ x ∈ r.ahead := by
  simp [items]

/-! ## The order -/

/-- There is always a next turn unless there are no items. -/
theorem advance_eq_none : r.advance = none ↔ r.items = [] := by
  obtain ⟨passed, ahead⟩ := r
  cases ahead with
  | cons x xs => simp [advance, items]
  | nil =>
      simp only [advance, items, List.append_nil]
      cases passed.reverse with
      | nil => simp
      | cons x xs => simp

/-- A turn changes nothing about the items. -/
theorem items_advance (h : r.advance = some (x, r')) : r'.items = r.items := by
  obtain ⟨passed, ahead⟩ := r
  cases ahead with
  | cons y ys =>
      obtain ⟨rfl, rfl⟩ : y = x ∧ ⟨y :: passed, ys⟩ = r' := by
        simpa [advance] using h
      simp [items]
  | nil =>
      simp only [advance] at h
      simp only [items, List.append_nil]
      cases hrev : passed.reverse with
      | nil => simp [hrev] at h
      | cons y ys =>
          obtain ⟨rfl, rfl⟩ : y = x ∧ ⟨[y], ys⟩ = r' := by
            simpa [hrev] using h
          simp

/-- The item whose turn it is comes last of those that have had theirs. -/
theorem head_advance (h : r.advance = some (x, r')) : r'.passed.head? = some x := by
  obtain ⟨passed, ahead⟩ := r
  cases ahead with
  | cons y ys =>
      obtain ⟨rfl, rfl⟩ : y = x ∧ ⟨y :: passed, ys⟩ = r' := by
        simpa [advance] using h
      rfl
  | nil =>
      simp only [advance] at h
      cases hrev : passed.reverse with
      | nil => simp [hrev] at h
      | cons y ys =>
          obtain ⟨rfl, rfl⟩ : y = x ∧ ⟨[y], ys⟩ = r' := by
            simpa [hrev] using h
          rfl

/-- Who joins is right before the item at the place, or the last one. -/
theorem items_join (x : α) (r : Carousel α) : ∃ us vs, r.items = us ++ vs ∧
    (r.join x).items = us ++ x :: vs ∧ r.passed.head? = vs.head? ∧
    (r.join x).passed.head? = r.passed.head? := by
  obtain ⟨passed, ahead⟩ := r
  cases passed with
  | nil => exact ⟨ahead, [], by simp [items], by simp [join, items], rfl, rfl⟩
  | cons y ys => exact ⟨ys.reverse, y :: ahead, by simp [items], by simp [join, items], rfl, rfl⟩

/-- The items are those before and behind, with the new one in between. -/
theorem items_place (p : α → Bool) (x : α) (r : Carousel α) :
    (r.place p x).items = r.items.takeWhile p ++ x :: r.items.dropWhile p := by
  obtain ⟨passed, ahead⟩ := r
  unfold place items
  dsimp only
  by_cases hall : passed.all p
  · have hrev : ∀ y ∈ passed.reverse, p y := by simpa using hall
    rw [if_pos hall, List.takeWhile_append_of_pos hrev, List.dropWhile_append_of_pos hrev,
      List.append_assoc]
  · have hne : ¬ ∀ y ∈ passed.reverse, p y := by simpa using hall
    have hlen : (passed.reverse.takeWhile p).length ≠ passed.reverse.length := fun heq ↦
      hne (List.takeWhile_eq_self_iff.1 ((List.takeWhile_sublist p).eq_of_length heq))
    have hdrop : passed.reverse.dropWhile p ≠ [] := fun heq ↦
      hne (List.dropWhile_eq_nil_iff.1 heq)
    rw [if_neg hall, List.takeWhile_append, if_neg hlen, List.dropWhile_append]
    simp [hdrop]

/-- Nobody's turn is taken by that. -/
theorem head_place (p : α → Bool) (x : α) (r : Carousel α) :
    (r.place p x).passed.head? = r.passed.head? := by
  obtain ⟨passed, ahead⟩ := r
  unfold place
  dsimp only
  by_cases hall : passed.all p
  · rw [if_pos hall]
  · have hne : ¬ ∀ y ∈ passed.reverse, p y := by simpa using hall
    have hdrop : passed.reverse.dropWhile p ≠ [] := fun heq ↦
      hne (List.dropWhile_eq_nil_iff.1 heq)
    rw [if_neg hall, List.head?_reverse, List.getLast?_append, List.getLast?_cons]
    have hsplit :=
      congrArg List.getLast? (List.takeWhile_append_dropWhile (p := p) (l := passed.reverse))
    rw [List.getLast?_append, List.getLast?_reverse] at hsplit
    rw [← hsplit, List.getLast?_eq_some_getLast hdrop]
    simp

variable [DecidableEq α]

/-- Exactly this item leaves. -/
theorem items_leave (hnodup : r.items.Nodup) (x : α) : (r.leave x).items = r.items.erase x := by
  obtain ⟨passed, ahead⟩ := r
  have hsplit := List.nodup_append.1 hnodup
  have hpassed : passed.Nodup := List.nodup_reverse.1 hsplit.1
  rw [hnodup.erase_eq_filter]
  unfold leave items
  rw [hpassed.erase_eq_filter, hsplit.2.1.erase_eq_filter, List.filter_append, List.filter_reverse]

/-- Where the item at the place leaves, the place is moved back. -/
theorem head_leave_self (hnodup : r.items.Nodup) (h : r.items = us ++ x :: vs)
    (hx : r.passed.head? = some x) : (r.leave x).passed.head? = us.getLast? := by
  obtain ⟨passed, ahead⟩ := r
  cases passed with
  | nil => exact absurd hx nofun
  | cons y ys =>
      obtain rfl : y = x := Option.some.inj hx
      have hitems : items ⟨y :: ys, ahead⟩ = ys.reverse ++ y :: ahead := by simp [items]
      rw [hitems] at h hnodup
      have hout := (List.nodup_cons.1 (List.nodup_middle.1 hnodup)).1
      rw [List.mem_append, not_or] at hout
      obtain ⟨rfl, -, -⟩ := (List.append_cons_inj_of_notMem hout.1 hout.2).1 h
      simp [leave]

/-- It is the same item's turn unless that one leaves. -/
theorem head_leave_of_ne (hx : r.passed.head? ≠ some x) :
    (r.leave x).passed.head? = r.passed.head? := by
  obtain ⟨passed, ahead⟩ := r
  cases passed with
  | nil => rfl
  | cons y ys =>
      have hne : y ≠ x := fun heq ↦ hx (congrArg some heq)
      simp [leave, hne]

/-! ## Everyone's turn -/

/-- How many turns at most until `x` has one, while there are never more than `N` items: those ahead
up to it, or all that are ahead and then up to `N`. -/
def wait (N : Nat) (x : α) (r : Carousel α) : Nat :=
  if x ∈ r.ahead then r.ahead.idxOf x + 1 else r.ahead.length + N

variable {N : Nat}

/-- Every item has to wait for one turn at least. -/
theorem wait_pos (hN : 0 < N) : 0 < r.wait N x := by
  unfold wait
  split <;> omega

/-- And for less than two rounds. -/
theorem wait_le (hx : x ∈ r.items) (hN : r.items.length ≤ N) : r.wait N x ≤ 2 * N - 1 := by
  rw [items, List.length_append, List.length_reverse] at hN
  unfold wait
  split
  · next hmem =>
      have hlt := List.idxOf_lt_length_of_mem hmem
      omega
  · next hmem =>
      have hpos := List.length_pos_of_mem ((mem_items.1 hx).resolve_right hmem)
      omega

/-- Another one's turn. -/
theorem wait_advance (hx : x ∈ r.items) (hN : r.items.length ≤ N)
    (h : r.advance = some (y, r')) (hne : y ≠ x) : r'.wait N x < r.wait N x := by
  obtain ⟨passed, ahead⟩ := r
  cases ahead with
  | cons z zs =>
      obtain ⟨rfl, rfl⟩ : z = y ∧ ⟨z :: passed, zs⟩ = r' := by
        simpa [advance] using h
      unfold wait
      dsimp only
      by_cases hmem : x ∈ zs
      · rw [if_pos hmem, if_pos (List.mem_cons_of_mem z hmem), List.idxOf_cons_ne _ hne]
        exact Nat.lt_succ_self _
      · have hmem' : x ∉ z :: zs := by simp [hmem, hne.symm]
        rw [if_neg hmem, if_neg hmem', List.length_cons]
        omega
  | nil =>
      -- the place gets to the beginning
      simp only [items, List.append_nil] at hx hN
      simp only [advance] at h
      cases hrev : passed.reverse with
      | nil => simp [hrev] at h
      | cons z zs =>
          obtain ⟨rfl, rfl⟩ : z = y ∧ ⟨[z], zs⟩ = r' := by
            simpa [hrev] using h
          rw [hrev] at hx hN
          have hmem : x ∈ zs := (List.mem_cons.1 hx).resolve_left hne.symm
          have hlt := List.idxOf_lt_length_of_mem hmem
          unfold wait
          dsimp only
          rw [if_pos hmem, if_neg List.not_mem_nil]
          rw [List.length_cons] at hN
          simp only [List.length_nil]
          omega

/-- Who joins does not get ahead. -/
theorem wait_join (hx : x ∈ r.items) : (r.join y).wait N x ≤ r.wait N x := by
  obtain ⟨passed, ahead⟩ := r
  cases passed with
  | nil =>
      have hmem : x ∈ ahead := by simpa [items] using hx
      unfold wait join
      dsimp only
      rw [if_pos hmem, if_pos (List.mem_append_left _ hmem), List.idxOf_append_of_mem hmem]
  | cons z zs => exact le_rfl

/-- An item that leaves brings no other one further back. -/
theorem idxOf_erase_le {l : List α} (hne : y ≠ x) : (l.erase y).idxOf x ≤ l.idxOf x := by
  induction l with
  | nil => exact le_rfl
  | cons z zs ih =>
      by_cases hzy : z = y
      · subst hzy
        rw [List.erase_cons_head, List.idxOf_cons_ne _ hne]
        exact Nat.le_succ _
      · rw [List.erase_cons_tail (by simpa using hzy)]
        by_cases hzx : z = x
        · subst hzx
          rw [List.idxOf_cons_self, List.idxOf_cons_self]
        · rw [List.idxOf_cons_ne _ hzx, List.idxOf_cons_ne _ hzx]
          exact Nat.succ_le_succ ih

/-- Another one leaves. -/
theorem wait_leave (hne : y ≠ x) : (r.leave y).wait N x ≤ r.wait N x := by
  unfold wait leave
  dsimp only
  by_cases hmem : x ∈ r.ahead
  · rw [if_pos hmem, if_pos ((List.mem_erase_of_ne hne.symm).2 hmem)]
    exact Nat.succ_le_succ (idxOf_erase_le hne)
  · rw [if_neg hmem, if_neg fun h ↦ hmem ((List.mem_erase_of_ne hne.symm).1 h)]
    exact Nat.add_le_add_right (List.length_erase_le ..) N

end Carousel

end Stm32F1
