import Mathlib

/-!
# Programs over an explicit state

`Prog σ α` is the meaning of a piece of imperative code that works on a state
`σ` and returns an `α`.  `none` is the denotation of code that never returns,
so `p s = some (a, s')` says *both* that `p` terminates from `s` and what it
leaves behind.

The file gives the monad, the total-correctness assertion `Run p s Q`, and one
rule per constructor.  The rules are equivalences, tagged for `simp`, so that a
straight-line program is executed symbolically by `simp`.
-/

namespace Stm32F1

/-- Code on the state `σ` returning an `α`; `none` is divergence. -/
def Prog (σ α : Type) : Type := StateT σ Option α

namespace Prog

variable {σ α β : Type} {p : Prog σ α} {f : α → Prog σ β} {s s' : σ} {a : α}

instance instMonad : Monad (Prog σ) := inferInstanceAs (Monad (StateT σ Option))

/-- One atomic action: a total function on the state with a result. -/
def act (g : σ → α × σ) : Prog σ α := fun s ↦ some (g s)

/-- Look at the state. -/
def read (g : σ → α) : Prog σ α := fun s ↦ some (g s, s)

/-- Change the state. -/
def modify (g : σ → σ) : Prog σ Unit := fun s ↦ some ((), g s)

/-- An `if` without `else`. -/
def when (c : Bool) (p : Prog σ Unit) : Prog σ Unit := if c then p else pure ()

@[simp] theorem pure_apply (a : α) (s : σ) : (pure a : Prog σ α) s = some (a, s) := rfl

theorem bind_apply (p : Prog σ α) (f : α → Prog σ β) (s : σ) :
    (p >>= f) s = (p s).bind fun r ↦ f r.1 r.2 := rfl

@[simp] theorem act_apply (g : σ → α × σ) (s : σ) : act g s = some (g s) := rfl

@[simp] theorem read_apply (g : σ → α) (s : σ) : read g s = some (g s, s) := rfl

@[simp] theorem modify_apply (g : σ → σ) (s : σ) : modify g s = some ((), g s) := rfl

@[simp] theorem when_true (p : Prog σ Unit) : when true p = p := rfl

@[simp] theorem when_false (p : Prog σ Unit) : when false p = pure () := rfl

/-- Sequencing past a step whose outcome is known. -/
theorem bind_of_eq (h : p s = some (a, s')) : (p >>= f) s = f a s' := by
  rw [bind_apply, h]; rfl

@[simp] theorem bind_assoc' {γ : Type} (p : Prog σ α) (f : α → Prog σ β) (g : β → Prog σ γ) :
    (p >>= f) >>= g = p >>= fun a ↦ f a >>= g := by
  funext s
  simp only [bind_apply]
  cases p s <;> rfl

@[simp] theorem pure_bind' (a : α) (f : α → Prog σ β) : (pure a : Prog σ α) >>= f = f a := rfl

/-! ## Total correctness -/

/-- `p` returns from `s`, with a result and a final state that satisfy `Q`. -/
def Run (p : Prog σ α) (s : σ) (Q : α → σ → Prop) : Prop :=
  ∃ a s', p s = some (a, s') ∧ Q a s'

variable {Q R : α → σ → Prop}

theorem Run.of_eq (h : p s = some (a, s')) (hQ : Q a s') : Run p s Q := ⟨a, s', h, hQ⟩

theorem run_of_eq (h : p s = some (a, s')) : Run p s Q ↔ Q a s' := by
  constructor
  · rintro ⟨b, t, hb, hQ⟩
    rw [h] at hb
    obtain ⟨rfl, rfl⟩ := Prod.mk.inj (Option.some.inj hb)
    exact hQ
  · exact Run.of_eq h

theorem Run.mono (h : Run p s Q) (hQR : ∀ a s', Q a s' → R a s') : Run p s R := by
  obtain ⟨a, s', hp, hQ⟩ := h
  exact ⟨a, s', hp, hQR a s' hQ⟩

/-- What a terminating run establishes holds of any outcome it is seen to have. -/
theorem Run.elim (h : Run p s Q) (hp : p s = some (a, s')) : Q a s' := (run_of_eq hp).1 h

/-- A run whose final state is known, as an equation. -/
theorem Run.eq {p : Prog σ Unit} (h : Run p s fun _ t ↦ t = s') : p s = some ((), s') := by
  obtain ⟨a, t, hp, rfl⟩ := h
  exact hp

@[simp] theorem run_pure : Run (pure a : Prog σ α) s Q ↔ Q a s := run_of_eq rfl

@[simp] theorem run_act {g : σ → α × σ} : Run (act g) s Q ↔ Q (g s).1 (g s).2 :=
  run_of_eq (act_apply g s)

@[simp] theorem run_read {g : σ → α} : Run (read g) s Q ↔ Q (g s) s := run_of_eq rfl

@[simp] theorem run_modify {g : σ → σ} {Q : Unit → σ → Prop} :
    Run (modify g) s Q ↔ Q () (g s) := run_of_eq rfl

/-- The rule for sequencing. -/
@[simp] theorem run_bind {Q : β → σ → Prop} :
    Run (p >>= f) s Q ↔ Run p s fun a s' ↦ Run (f a) s' Q := by
  constructor
  · rintro ⟨b, t, hb, hQ⟩
    rw [bind_apply] at hb
    cases hp : p s with
    | none => rw [hp] at hb; exact absurd hb (by simp)
    | some r =>
        rw [hp] at hb
        exact ⟨r.1, r.2, hp, b, t, hb, hQ⟩
  · rintro ⟨a, s', hp, b, t, hb, hQ⟩
    exact ⟨b, t, by rw [bind_of_eq hp, hb], hQ⟩

@[simp] theorem run_ite {c : Prop} [Decidable c] {q : Prog σ α} :
    Run (if c then p else q) s Q ↔ if c then Run p s Q else Run q s Q := by
  split <;> rfl

/-- The rule for an `if` without `else`, on a condition that is decided. -/
theorem run_when {c : Prop} [Decidable c] {p : Prog σ Unit} {Q : Unit → σ → Prop}
    (h : c → Run p s Q) (hskip : ¬ c → Q () s) : Run (when c p) s Q := by
  by_cases hc : c
  · rw [decide_eq_true hc]
    exact h hc
  · rw [decide_eq_false hc]
    exact run_pure.2 (hskip hc)

/-- The run of a step, then of what follows it. -/
theorem Run.bind {Q : β → σ → Prop} (h : Run p s R)
    (hf : ∀ a s', R a s' → Run (f a) s' Q) : Run (p >>= f) s Q :=
  run_bind.2 (h.mono hf)

end Prog

end Stm32F1
