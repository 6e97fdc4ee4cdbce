import Mathlib

/-!
# Linked chains

The cells that are met by following `next` from a pointer, in order.  A chain
that ends does not meet a cell twice.  If every link leads upwards and stays
below a bound, every chain ends.
-/

namespace Stm32F1

/-- The cells from a pointer on. -/
inductive Chain (next : Nat → Option Nat) : Option Nat → List Nat → Prop
  | nil : Chain next none []
  | cons {q : Nat} {cells : List Nat} : Chain next (next q) cells → Chain next (some q) (q :: cells)

variable {next next' : Nat → Option Nat} {p : Option Nat} {cells : List Nat} {q r bound : Nat}

theorem Chain.head (h : Chain next p cells) : cells.head? = p := by
  cases h with
  | nil => rfl
  | cons _ => rfl

theorem Chain.unique {cells' : List Nat} (h : Chain next p cells) (h' : Chain next p cells') :
    cells = cells' := by
  induction h generalizing cells' with
  | nil =>
      cases h' with
      | nil => rfl
  | cons _ ih =>
      cases h' with
      | cons h' => rw [ih h']

/-- What is left of a chain after `k` cells. -/
theorem Chain.drop (h : Chain next p cells) (k : Nat) :
    Chain next (cells.drop k).head? (cells.drop k) := by
  induction k generalizing p cells with
  | zero =>
      rw [List.drop_zero, h.head]
      exact h
  | succ k ih =>
      cases h with
      | nil => exact .nil
      | cons h => exact ih h

theorem Chain.of_mem (h : Chain next p cells) (hr : r ∈ cells) :
    ∃ k, Chain next (some r) (cells.drop k) := by
  obtain ⟨k, hk, rfl⟩ := List.mem_iff_getElem.1 hr
  refine ⟨k, ?_⟩
  have hdrop := h.drop k
  rwa [List.head?_drop, List.getElem?_eq_getElem hk] at hdrop

/-- A chain that ends does not meet a cell again. -/
theorem Chain.notMem_tail (h : Chain next (next q) cells) : q ∉ cells := by
  intro hq
  obtain ⟨k, hk⟩ := h.of_mem hq
  have hlen := congrArg List.length ((Chain.cons h).unique hk)
  rw [List.length_cons, List.length_drop] at hlen
  omega

/-- Every link leads upwards, and stays below the bound. -/
def Upward (next : Nat → Option Nat) (bound : Nat) : Prop :=
  ∀ q r, next q = some r → q < r ∧ r < bound

theorem Upward.chain (h : Upward next bound) (p : Option Nat) : ∃ cells, Chain next p cells := by
  suffices hgen : ∀ n q, bound - q ≤ n → ∃ cells, Chain next (some q) cells by
    cases p with
    | none => exact ⟨[], .nil⟩
    | some q => exact hgen (bound - q) q le_rfl
  intro n
  induction n with
  | zero =>
      intro q hq
      cases hr : next q with
      | none => exact ⟨[q], .cons (hr ▸ .nil)⟩
      | some r =>
          have := h q r hr
          omega
  | succ n ih =>
      intro q hq
      cases hr : next q with
      | none => exact ⟨[q], .cons (hr ▸ .nil)⟩
      | some r =>
          have hlt := h q r hr
          obtain ⟨cells, hcells⟩ := ih r (by omega)
          exact ⟨q :: cells, .cons (hr ▸ hcells)⟩

/-- The chain depends on the links of its own cells only. -/
theorem Chain.congr (h : Chain next p cells) (hnext : ∀ q ∈ cells, next' q = next q) :
    Chain next' p cells := by
  induction h with
  | nil => exact .nil
  | @cons q cells _ ih =>
      have hq := hnext q (List.mem_cons_self ..)
      refine .cons ?_
      rw [hq]
      exact ih fun r hr ↦ hnext r (List.mem_cons_of_mem _ hr)

/-- Consecutive cells, the last of which leads nowhere. -/
theorem chain_range (base : Nat) {n : Nat} (hn : n ≠ 0)
    (hnext : ∀ i < n, next (base + i) = if i + 1 < n then some (base + i + 1) else none) :
    Chain next (some base) (List.range' base n) := by
  suffices hgen : ∀ k i, i + k = n → k ≠ 0 →
      Chain next (some (base + i)) (List.range' (base + i) k) from
    hgen n 0 (Nat.zero_add n) hn
  intro k
  induction k with
  | zero => exact fun i _ h ↦ absurd rfl h
  | succ k ih =>
      intro i hik _
      rw [List.range'_succ]
      refine .cons ?_
      rw [hnext i (by omega)]
      cases k with
      | zero =>
          rw [if_neg (by omega)]
          exact .nil
      | succ k =>
          rw [if_pos (by omega)]
          exact ih (i + 1) (by omega) (Nat.succ_ne_zero k)

end Stm32F1
