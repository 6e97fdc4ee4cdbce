import Stm32F1.Lib.Loop

/-!
# Loops that are given up

`repeatFor f n` is the loop `repeatM f`, given up after `n` rounds.  A loop that
returns has returned within some number of rounds, and then `repeatM` returns the
same; a loop that does not return is given up whatever the number.  There is a
rule for each: a variant bounds the rounds, an invariant under which there is
always a next round excludes every bound.
-/

namespace Stm32F1.Prog

variable {σ α β : Type}

/-- The code is given up. -/
def giveUp : Prog σ α := fun _ ↦ none

/-- At most `n` rounds of the loop `repeatM f`. -/
def repeatFor (f : α → Prog σ (α ⊕ β)) : Nat → α → Prog σ β
  | 0, _ => giveUp
  | n + 1, a => f a >>= Sum.elim (repeatFor f n) pure

@[simp] theorem giveUp_apply (s : σ) : (giveUp : Prog σ α) s = none := rfl

theorem repeatFor_succ (f : α → Prog σ (α ⊕ β)) (n : Nat) (a : α) :
    repeatFor f (n + 1) a = f a >>= Sum.elim (repeatFor f n) pure := rfl

/-- What is known of a sequence that returns. -/
theorem bind_eq_some {p : Prog σ α} {k : α → Prog σ β} {s : σ} {r : β × σ} :
    (p >>= k) s = some r ↔ ∃ a s', p s = some (a, s') ∧ k a s' = some r := by
  rw [bind_apply, Option.bind_eq_some_iff]
  constructor
  · rintro ⟨⟨a, s'⟩, hp, hk⟩
    exact ⟨a, s', hp, hk⟩
  · rintro ⟨a, s', hp, hk⟩
    exact ⟨(a, s'), hp, hk⟩

variable {f : α → Prog σ (α ⊕ β)} {n : Nat} {a : α} {s : σ} {r : β × σ}

/-- More rounds do not hurt. -/
theorem repeatFor_add (h : repeatFor f n a s = some r) (k : Nat) :
    repeatFor f (n + k) a s = some r := by
  induction n generalizing a s with
  | zero => exact absurd h (by simp [repeatFor])
  | succ n ih =>
      rw [repeatFor_succ, bind_eq_some] at h
      obtain ⟨x, s', hf, hx⟩ := h
      rw [Nat.add_right_comm, repeatFor_succ, bind_eq_some]
      refine ⟨x, s', hf, ?_⟩
      cases x with
      | inl a' => exact ih hx
      | inr b => exact hx

/-- A body that returns more often does not hurt either. -/
theorem repeatFor_mono {f' : α → Prog σ (α ⊕ β)}
    (hf : ∀ a s x, f a s = some x → f' a s = some x) (h : repeatFor f n a s = some r) :
    repeatFor f' n a s = some r := by
  induction n generalizing a s with
  | zero => exact absurd h (by simp [repeatFor])
  | succ n ih =>
      rw [repeatFor_succ, bind_eq_some] at h ⊢
      obtain ⟨x, s', hx, hr⟩ := h
      refine ⟨x, s', hf a s _ hx, ?_⟩
      cases x with
      | inl a' => exact ih hr
      | inr b => exact hr

/-- A loop that was not given up is the loop. -/
theorem repeatM_of_repeatFor [Nonempty β] (h : repeatFor f n a s = some r) :
    repeatM f a s = some r := by
  induction n generalizing a s with
  | zero => exact absurd h (by simp [repeatFor])
  | succ n ih =>
      rw [repeatFor_succ, bind_eq_some] at h
      obtain ⟨x, s', hf, hx⟩ := h
      rw [repeatM_unfold, bind_eq_some]
      refine ⟨x, s', hf, ?_⟩
      cases x with
      | inl a' => exact ih hx
      | inr b => exact hx

/-- The rule for a loop that ends: the variant bounds the rounds that are left. -/
theorem run_repeatFor {Q : β → σ → Prop} (I : α → σ → Prop) (μ : α → σ → Nat)
    (step : ∀ a s, I a s → Run (f a) s fun r s' ↦
      match r with
      | .inl a' => I a' s' ∧ μ a' s' < μ a s
      | .inr b => Q b s')
    (h : I a s) (hn : μ a s < n) : Run (repeatFor f n a) s Q := by
  induction n generalizing a s with
  | zero => exact absurd hn (Nat.not_lt_zero _)
  | succ n ih =>
      rw [repeatFor_succ]
      refine (step a s h).bind ?_
      intro r s' hr
      cases r with
      | inl a' => exact ih hr.1 (lt_of_lt_of_le hr.2 (Nat.le_of_lt_succ hn))
      | inr b => exact run_pure.2 hr

/-- The rule for a loop that does not end: there is always a next round. -/
theorem repeatFor_eq_none (I : α → σ → Prop)
    (step : ∀ a s r s', I a s → f a s = some (r, s') → ∃ a', r = .inl a' ∧ I a' s')
    (h : I a s) (n : Nat) : repeatFor f n a s = none := by
  induction n generalizing a s with
  | zero => rfl
  | succ n ih =>
      rw [repeatFor_succ, bind_apply]
      cases hf : f a s with
      | none => rfl
      | some x =>
          obtain ⟨r, s'⟩ := x
          obtain ⟨a', rfl, ha'⟩ := step a s r s' h hf
          exact ih ha'

end Stm32F1.Prog
