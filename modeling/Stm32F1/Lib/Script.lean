import Stm32F1.Lib.Loop

/-!
# Scripts

Code that does nothing but call an action, without looking at what the calls do, is written for an
arbitrary action.  It *is* a list of calls: playing the list is the same as running the code,
whatever the action.  The list is unique, because the calls can be noted down.
-/

namespace Stm32F1.Prog

variable {σ α : Type}

/-- Make the calls one after the other. -/
def play (f : α → Prog σ Unit) : List α → Prog σ Unit
  | [] => pure ()
  | a :: as => f a >>= fun _ ↦ play f as

@[simp] theorem play_nil (f : α → Prog σ Unit) : play f [] = pure () := rfl

@[simp] theorem play_cons (f : α → Prog σ Unit) (a : α) (as : List α) :
    play f (a :: as) = f a >>= fun _ ↦ play f as := rfl

theorem play_append (f : α → Prog σ Unit) (as bs : List α) :
    play f (as ++ bs) = play f as >>= fun _ ↦ play f bs := by
  induction as with
  | nil => rfl
  | cons a as ih =>
      rw [List.cons_append, play_cons, play_cons, ih, bind_assoc']

/-- Nothing is left to be done. -/
theorem bind_pure_unit (p : Prog σ Unit) : (p >>= fun _ ↦ pure ()) = p := by
  funext s
  rw [bind_apply]
  cases p s <;> rfl

/-- A loop that makes one call in each of `n` rounds; `vars k` are its variables after `k` of
them. -/
theorem repeatM_play {β : Type} {f : β → Prog σ (β ⊕ Unit)} {g : α → Prog σ Unit} (vars : Nat → β)
    (call : Nat → α) {n : Nat}
    (round : ∀ k < n, f (vars k) = g (call k) >>= fun _ ↦ pure (.inl (vars (k + 1))))
    (done : f (vars n) = pure (.inr ())) :
    repeatM f (vars 0) = play g ((List.range n).map call) := by
  suffices hgen : ∀ k j, j + k = n →
      repeatM f (vars j) = play g ((List.range' j k).map call) by
    rw [hgen n 0 (Nat.zero_add n), List.range_eq_range']
  intro k
  induction k with
  | zero =>
      intro j hj
      obtain rfl : j = n := hj
      rw [repeatM_unfold, done]
      rfl
  | succ k ih =>
      intro j hj
      rw [repeatM_unfold, round j (by omega), bind_assoc', List.range'_succ, List.map_cons,
        play_cons]
      congr 1
      funext _
      exact ih (j + 1) (by omega)

/-- Note the call down. -/
def note (a : α) : Prog (List α) Unit := Prog.modify fun as ↦ as ++ [a]

theorem note_apply (a : α) (as : List α) : note a as = some ((), as ++ [a]) := rfl

theorem play_note (as bs : List α) : play note as bs = some ((), bs ++ as) := by
  induction as generalizing bs with
  | nil =>
      rw [List.append_nil]
      rfl
  | cons a as ih =>
      rw [play_cons, bind_of_eq (note_apply a bs), ih, List.append_assoc, List.singleton_append]

/-- Whatever the action, the code makes these calls of it, and returns. -/
def Plays (p : (σ : Type) → (α → Prog σ Unit) → Prog σ Unit) (as : List α) : Prop :=
  ∀ (σ : Type) (f : α → Prog σ Unit), p σ f = play f as

variable {p : (σ : Type) → (α → Prog σ Unit) → Prog σ Unit} {as bs : List α}

/-- What is noted down are the calls. -/
theorem Plays.noted (h : Plays p as) : p (List α) note [] = some ((), as) :=
  (congrFun (h (List α) note) []).trans (play_note as [])

theorem Plays.unique (h : Plays p as) (h' : Plays p bs) : as = bs := by
  have hnoted := h.noted
  rw [h'.noted] at hnoted
  exact (Prod.mk.inj (Option.some.inj hnoted)).2.symm

/-- Code that makes these calls makes no other ones. -/
theorem Plays.iff_eq (h : Plays p as) : Plays p bs ↔ as = bs := by
  constructor
  · exact h.unique
  · rintro rfl
    exact h

/-- Code that does not return makes no list of calls. -/
theorem not_plays (h : p (List α) note [] = none) : ¬ Plays p as := by
  intro hp
  rw [hp.noted] at h
  exact absurd h (Option.some_ne_none _)

end Stm32F1.Prog
