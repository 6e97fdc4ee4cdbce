import Stm32F1.Lib.Prog

/-!
# Sequences of calls, and refinement

A client makes a finite sequence of calls to a driver.  An *abstract* device
answers each call by a total function on its own state.  The driver refines the
abstract device when a relation between the two states is kept by every call
and makes the answers agree; by induction the whole sequence then agrees.
-/

namespace Stm32F1.Prog

variable {σ α ι ω : Type}

/-- Make the calls in order and collect the answers. -/
def runCalls (f : ι → Prog σ ω) : List ι → Prog σ (List ω)
  | [] => pure []
  | i :: is => do
      let o ← f i
      let os ← runCalls f is
      pure (o :: os)

/-- The abstract device answers the same calls. -/
def absCalls (g : ι → α → ω × α) : List ι → α → List ω × α
  | [], a => ([], a)
  | i :: is, a =>
      let r := absCalls g is (g i a).2
      ((g i a).1 :: r.1, r.2)

/-- **Refinement of call sequences.**  `R` relates abstract and concrete states; calls outside
`V` are not made. -/
theorem run_runCalls {f : ι → Prog σ ω} {g : ι → α → ω × α} (V : ι → Prop) (R : α → σ → Prop)
    (step : ∀ i a s, V i → R a s → Run (f i) s fun o s' ↦ o = (g i a).1 ∧ R (g i a).2 s')
    {is : List ι} {a : α} {s : σ} (hV : ∀ i ∈ is, V i) (h : R a s) :
    Run (runCalls f is) s fun os s' ↦ os = (absCalls g is a).1 ∧ R (absCalls g is a).2 s' := by
  induction is generalizing a s with
  | nil => exact run_pure.2 ⟨rfl, h⟩
  | cons i is ih =>
      refine (step i a s (hV i (by simp)) h).bind ?_
      rintro o s' ⟨rfl, hR⟩
      refine (ih (fun j hj ↦ hV j (by simp [hj])) hR).bind ?_
      rintro os s'' ⟨rfl, hR'⟩
      exact run_pure.2 ⟨rfl, hR'⟩

/-- What every call keeps is kept by all of them. -/
theorem run_runCalls_inv {f : ι → Prog σ ω} (V : ι → Prop) (I : σ → Prop)
    (step : ∀ i s, V i → I s → Run (f i) s fun _ s' ↦ I s')
    {is : List ι} {s : σ} (hV : ∀ i ∈ is, V i) (h : I s) :
    Run (runCalls f is) s fun _ s' ↦ I s' := by
  induction is generalizing s with
  | nil => exact run_pure.2 h
  | cons i is ih =>
      refine (step i s (hV i List.mem_cons_self) h).bind ?_
      intro o s' hI
      refine (ih (fun j hj ↦ hV j (List.mem_cons_of_mem i hj)) hI).bind ?_
      intro os s'' hI'
      exact run_pure.2 hI'

/-- Calls numbered from 0 keep an invariant indexed by their number. -/
theorem run_runCalls_range {f : Nat → Prog σ ω} {Q : ω → Prop} (I : Nat → σ → Prop) {n : Nat}
    (step : ∀ i s, i < n → I i s → Run (f i) s fun o s' ↦ Q o ∧ I (i + 1) s')
    {s : σ} (h : I 0 s) :
    Run (runCalls f (List.range n)) s fun os s' ↦ (∀ o ∈ os, Q o) ∧ I n s' := by
  suffices hgen : ∀ k i s, i + k = n → I i s →
      Run (runCalls f (List.range' i k)) s fun os s' ↦ (∀ o ∈ os, Q o) ∧ I n s' by
    rw [List.range_eq_range']
    exact hgen n 0 s (Nat.zero_add n) h
  intro k
  induction k with
  | zero =>
      rintro i s rfl hI
      exact run_pure.2 ⟨fun o ho ↦ absurd ho List.not_mem_nil, hI⟩
  | succ k ih =>
      intro i s hik hI
      rw [List.range'_succ]
      refine (step i s (by omega) hI).bind ?_
      rintro o s' ⟨hQ, hI'⟩
      refine (ih (i + 1) s' (by omega) hI').bind ?_
      rintro os s'' ⟨hQs, hIn⟩
      refine run_pure.2 ⟨?_, hIn⟩
      intro o' ho'
      rcases List.mem_cons.1 ho' with rfl | hmem
      · exact hQ
      · exact hQs o' hmem

end Stm32F1.Prog
