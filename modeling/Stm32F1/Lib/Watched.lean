import Mathlib

/-!
# Memory that is watched

A memory some cells of which belong to the code that works on it.  A write to a
cell that does not belong to it goes astray, and is entered in a list that no
code looks at.  The list only grows; so when it is empty in the end, nothing
went astray on the way, and every cell that is not owned in the end holds what it
held in the beginning.
-/

namespace Stm32F1

/-- A memory, the cells that are owned, and the cells of the writes that went astray, the newest
first. -/
structure Watched (α β : Type) where
  mem : α → β
  owned : α → Bool
  stray : List α

namespace Watched

variable {α β : Type} {w w' w'' : Watched α β} {a : α} {b : β} {l : List (α × β)}

/-- More cells are owned. -/
def acquire (w : Watched α β) (cells : α → Bool) : Watched α β :=
  { w with owned := fun a ↦ w.owned a || cells a }

/-- What any code does to the memory: nothing is given up, nothing is struck off the list, and what
is neither owned nor on the list is as it was. -/
structure Evolves (w w' : Watched α β) : Prop where
  owned : ∀ a, w.owned a = true → w'.owned a = true
  stray : w.stray <:+ w'.stray
  mem : ∀ a, w'.owned a = false → a ∉ w'.stray → w'.mem a = w.mem a

/-- Nothing happened. -/
theorem Evolves.refl (w : Watched α β) : Evolves w w :=
  ⟨fun _ h ↦ h, List.suffix_refl _, fun _ _ _ ↦ rfl⟩

/-- Two stages. -/
theorem Evolves.trans (h : Evolves w w') (h' : Evolves w' w'') : Evolves w w'' where
  owned a ha := h'.owned a (h.owned a ha)
  stray := h.stray.trans h'.stray
  mem a howned hstray := by
    have howned' : w'.owned a = false := by
      cases ho : w'.owned a with
      | false => rfl
      | true => exact absurd (h'.owned a ho) (by simp [howned])
    have hstray' : a ∉ w'.stray := fun hmem ↦ hstray (h'.stray.mem hmem)
    rw [h'.mem a howned hstray, h.mem a howned' hstray']

/-- Nothing went astray: what is not owned is as it was. -/
theorem Evolves.unchanged (h : Evolves w w') (hstray : w'.stray = []) (ha : w'.owned a = false) :
    w'.mem a = w.mem a :=
  h.mem a ha (hstray ▸ List.not_mem_nil)

/-- What went astray once did so for good. -/
theorem Evolves.stray_ne_nil (h : Evolves w w') (ha : a ∈ w.stray) : w'.stray ≠ [] :=
  List.ne_nil_of_mem (h.stray.mem ha)

/-- More cells are owned. -/
theorem evolves_acquire (w : Watched α β) (cells : α → Bool) : Evolves w (w.acquire cells) where
  owned a h := by
    change (w.owned a || cells a) = true
    rw [h, Bool.true_or]
  stray := List.suffix_refl _
  mem _ _ _ := rfl

/-! ## Writing -/

variable [DecidableEq α]

/-- A cell is written. -/
def write (w : Watched α β) (a : α) (b : β) : Watched α β where
  mem := Function.update w.mem a b
  owned := w.owned
  stray := if w.owned a then w.stray else a :: w.stray

/-- Cells are written, in order. -/
def writeAll (w : Watched α β) : List (α × β) → Watched α β
  | [] => w
  | x :: l => (w.write x.1 x.2).writeAll l

@[simp] theorem owned_write (w : Watched α β) (a : α) (b : β) : (w.write a b).owned = w.owned := rfl

@[simp] theorem owned_writeAll (w : Watched α β) (l : List (α × β)) :
    (w.writeAll l).owned = w.owned := by
  induction l generalizing w with
  | nil => rfl
  | cons x l ih => exact ih (w.write x.1 x.2)

/-- A write to a cell that is owned is not noted. -/
theorem stray_write_of_owned (h : w.owned a = true) : (w.write a b).stray = w.stray := if_pos h

/-- Any other one is. -/
theorem stray_write_of_not_owned (h : w.owned a = false) : (w.write a b).stray = a :: w.stray :=
  if_neg (by simp [h])

/-- Nothing goes astray of writes to cells that are owned. -/
theorem stray_writeAll (h : ∀ x ∈ l, w.owned x.1 = true) : (w.writeAll l).stray = w.stray := by
  induction l generalizing w with
  | nil => rfl
  | cons x l ih =>
      have hl : ∀ y ∈ l, (w.write x.1 x.2).owned y.1 = true := fun y hy ↦
        h y (List.mem_cons_of_mem x hy)
      rw [writeAll, ih hl, stray_write_of_owned (h x (List.mem_cons_self ..))]

/-- A write, wherever it goes. -/
theorem evolves_write (w : Watched α β) (a : α) (b : β) : Evolves w (w.write a b) where
  owned _ h := h
  stray := by
    rw [write]
    split
    · exact List.suffix_refl _
    · exact List.suffix_cons a w.stray
  mem a' howned hstray := by
    refine Function.update_of_ne ?_ b w.mem
    rintro rfl
    have howned' : w.owned a' = false := howned
    rw [stray_write_of_not_owned howned'] at hstray
    exact hstray (List.mem_cons_self ..)

/-- And several of them. -/
theorem evolves_writeAll (w : Watched α β) (l : List (α × β)) : Evolves w (w.writeAll l) := by
  induction l generalizing w with
  | nil => exact .refl w
  | cons x l ih => exact (evolves_write w x.1 x.2).trans (ih _)

/-- A write that goes astray is on the list. -/
theorem mem_stray_writeAll {x : α × β} (hx : x ∈ l) (h : w.owned x.1 = false) :
    x.1 ∈ (w.writeAll l).stray := by
  induction l generalizing w with
  | nil => exact absurd hx List.not_mem_nil
  | cons y l ih =>
      rcases List.mem_cons.1 hx with rfl | hx
      · refine (evolves_writeAll (w.write x.1 x.2) l).stray.mem ?_
        rw [stray_write_of_not_owned h]
        exact List.mem_cons_self ..
      · exact ih hx h

end Watched

end Stm32F1
