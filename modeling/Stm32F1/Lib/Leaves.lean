import Stm32F1.Lib.Loop

/-!
# What a program leaves alone

`Leaves f p` says that `p` returns from every state, and that what `f` looks at is
then as it was before.  There is one rule for each construct, so that the claim
follows the shape of the program; a bounded loop needs no invariant.
-/

namespace Stm32F1.Prog

variable {σ τ υ α β : Type} {f : σ → τ}

/-- `p` returns and leaves what `f` looks at alone. -/
def Leaves (f : σ → τ) (p : Prog σ α) : Prop := ∀ s, Run p s fun _ s' ↦ f s' = f s

namespace Leaves

variable {p q : Prog σ α} {k : α → Prog σ β}

/-- A program that does nothing. -/
theorem pure (a : α) : Leaves f (Pure.pure a : Prog σ α) := fun _ ↦ run_pure.2 rfl

/-- An action that leaves it as it was. -/
theorem act {g : σ → α × σ} (hg : ∀ s, f (g s).2 = f s) : Leaves f (Prog.act g) :=
  fun s ↦ run_act.2 (hg s)

/-- Reading changes nothing. -/
theorem read (g : σ → α) : Leaves f (Prog.read g) := fun _ ↦ run_read.2 rfl

/-- A change of something else. -/
theorem modify {g : σ → σ} (hg : ∀ s, f (g s) = f s) : Leaves f (Prog.modify g) :=
  fun s ↦ run_modify.2 (hg s)

/-- Two programs one after the other. -/
theorem bind (h : Leaves f p) (hk : ∀ a, Leaves f (k a)) : Leaves f (p >>= k) := by
  intro s
  refine (h s).bind ?_
  intro a s' hs'
  refine (hk a s').mono ?_
  intro b s'' hs''
  exact hs''.trans hs'

/-- What is left alone, at the start of a run. -/
theorem run_bind {Q : β → σ → Prop} {s : σ} (h : Leaves f p)
    (hk : ∀ a s', f s' = f s → Run (k a) s' Q) : Run (p >>= k) s Q :=
  (h s).bind hk

/-- Whichever branch is taken. -/
theorem ite {c : Prop} [Decidable c] (h : Leaves f p) (h' : Leaves f q) :
    Leaves f (if c then p else q) := by
  split
  · exact h
  · exact h'

/-- Whether it is run or not. -/
theorem when {b : Bool} {p : Prog σ Unit} (h : Leaves f p) : Leaves f (Prog.when b p) := by
  cases b
  · exact pure ()
  · exact h

/-- However often it is asked for. -/
theorem poll (h : Leaves f p) (done : α → Bool) (n : Nat) : Leaves f (Prog.poll p done n) := by
  induction n with
  | zero => exact h.bind fun a ↦ pure (a, 0)
  | succ n ih => exact h.bind fun a ↦ (pure (a, n + 1)).ite ih

/-- All rounds of a loop. -/
theorem forRange {body : Nat → Prog σ Unit} (h : ∀ i, Leaves f (body i)) (n : Nat) :
    Leaves f (Prog.forRange n body) := by
  intro s
  refine run_forRange (fun _ s' ↦ f s' = f s) ?_ rfl
  intro i s' _ hs'
  refine (h i s').mono ?_
  intro _ s'' hs''
  exact hs''.trans hs'

/-- All rounds of one that may be left. -/
theorem doWhileOk {body : β → Prog σ UInt8} (h : ∀ b, Leaves f (body b)) (next : β → β) (b : β)
    (n : Nat) : Leaves f (Prog.doWhileOk body next b n) := by
  induction n generalizing b with
  | zero => exact h b
  | succ n ih => exact (h b).bind fun r ↦ (ih (next b)).ite (pure r)

/-- Less is left alone as well. -/
theorem less (h : Leaves f p) (g : τ → υ) : Leaves (fun s ↦ g (f s)) p := by
  intro s
  refine (h s).mono ?_
  intro _ s' hs'
  exact congrArg g hs'

end Leaves

end Stm32F1.Prog
