import Stm32F1.Lib.Loop

/-!
# Ghost state

A program may carry a *ghost*: a part of the state that it writes and never
reads, such as a note of the calls it makes.  `f` forgets the ghost, and `q`
*erases to* `p` when forgetting commutes with running: whatever is proved of
`q` without its ghost is then true of `p`.

There is one rule for each construct, so that erasure follows the shape of the
program.  `zoom` goes the other way: it runs a program on a part of the state.

A program may also *tell more* than it has to: `Yields` is about the results
alone, of a program that need not return.
-/

namespace Stm32F1.Prog

variable {σ τ α β : Type} {f : σ → τ}

/-- `q` is `p` with a ghost that `f` forgets. -/
def Erases (f : σ → τ) (q : Prog σ α) (p : Prog τ α) : Prop :=
  ∀ s, (q s).map (Prod.map id f) = p (f s)

namespace Erases

theorem pure (a : α) : Erases f (Pure.pure a : Prog σ α) (Pure.pure a) := fun _ ↦ rfl

theorem bind {q : Prog σ α} {p : Prog τ α} {k : α → Prog σ β} {l : α → Prog τ β}
    (h : Erases f q p) (hk : ∀ a, Erases f (k a) (l a)) : Erases f (q >>= k) (p >>= l) := by
  intro s
  rw [bind_apply, bind_apply, ← h s]
  cases q s with
  | none => rfl
  | some r => exact hk r.1 r.2

/-- A step that only writes the ghost. -/
theorem note {q : Prog σ α} {p : Prog τ α} {g : α → σ → σ} (h : Erases f q p)
    (hg : ∀ a s, f (g a s) = f s) :
    Erases f (q >>= fun a ↦ modify (g a) >>= fun _ ↦ Pure.pure a) p := by
  intro s
  rw [bind_apply, ← h s]
  cases q s with
  | none => rfl
  | some r => exact congrArg (fun t ↦ some (r.1, t)) (hg r.1 r.2)

theorem ite {c : Prop} [Decidable c] {q q' : Prog σ α} {p p' : Prog τ α} (h : Erases f q p)
    (h' : Erases f q' p') : Erases f (if c then q else q') (if c then p else p') := by
  split
  · exact h
  · exact h'

/-- Whether it is run or not. -/
theorem when {b : Bool} {q : Prog σ Unit} {p : Prog τ Unit} (h : Erases f q p) :
    Erases f (Prog.when b q) (Prog.when b p) := by
  cases b
  · exact pure ()
  · exact h

/-- However often it is asked for. -/
theorem poll {done : α → Bool} {q : Prog σ α} {p : Prog τ α} (h : Erases f q p) (k : Nat) :
    Erases f (Prog.poll q done k) (Prog.poll p done k) := by
  induction k with
  | zero => exact h.bind fun a ↦ pure (a, 0)
  | succ k ih => exact h.bind fun a ↦ (pure (a, k + 1)).ite ih

/-- All rounds of a loop. -/
theorem forFrom {q : Nat → Prog σ Unit} {p : Nat → Prog τ Unit} (h : ∀ i, Erases f (q i) (p i))
    (i n : Nat) : Erases f (Prog.forFrom q i n) (Prog.forFrom p i n) := by
  induction n generalizing i with
  | zero => exact pure ()
  | succ n ih => exact (h i).bind fun _ ↦ ih (i + 1)

end Erases

/-! ## A part of the state -/

/-- Run `p` on the part of the state that `get` reads and `put` writes back. -/
def zoom (get : σ → τ) (put : τ → σ → σ) (p : Prog τ α) : Prog σ α :=
  fun s ↦ (p (get s)).map fun r ↦ (r.1, put r.2 s)

variable {get : σ → τ} {put : τ → σ → σ} {p : Prog τ α} {s : σ}

/-- A run on a part is one of the whole. -/
theorem zoom_eq {a : α} {t : τ} (h : p (get s) = some (a, t)) :
    zoom get put p s = some (a, put t s) := by
  rw [zoom, h]
  rfl

/-- A run on a part, by what it leaves there. -/
theorem run_zoom {Q : α → σ → Prop} :
    Run (zoom get put p) s Q ↔ Run p (get s) fun a t ↦ Q a (put t s) := by
  constructor
  · rintro ⟨a, s', hz, hQ⟩
    obtain ⟨⟨b, t⟩, hp, heq⟩ := Option.map_eq_some_iff.1 hz
    obtain ⟨rfl, rfl⟩ := Prod.mk.inj heq
    exact ⟨_, _, hp, hQ⟩
  · rintro ⟨a, t, hp, hQ⟩
    exact ⟨a, put t s, zoom_eq hp, hQ⟩

/-- Seen from the part, the rest is erased. -/
theorem erases_zoom (h : ∀ t s, get (put t s) = t) : Erases get (zoom get put p) p := by
  intro s
  have hid : Prod.map id get ∘ (fun r : α × τ ↦ (r.1, put r.2 s)) = id :=
    funext fun r ↦ congrArg (Prod.mk r.1) (h r.2 s)
  rw [zoom, Option.map_map, hid, Option.map_id_fun, id_eq]

/-! ## Results -/

/-- Whatever `p` returns satisfies `P`. -/
def Yields (p : Prog σ α) (P : α → Prop) : Prop := ∀ s a s', p s = some (a, s') → P a

namespace Yields

variable {p : Prog σ α} {k : α → Prog σ β} {P : α → Prop} {Q : β → Prop}

theorem pure {a : α} (h : P a) : Yields (Pure.pure a : Prog σ α) P := by
  intro s b s' hb
  cases hb
  exact h

theorem bind (h : Yields p P) (hk : ∀ a, P a → Yields (k a) Q) : Yields (p >>= k) Q := by
  intro s b s' hb
  rw [bind_apply] at hb
  cases hp : p s with
  | none =>
      rw [hp] at hb
      cases hb
  | some r =>
      rw [hp] at hb
      exact hk r.1 (h s r.1 r.2 hp) r.2 b s' hb

/-- What comes first does not matter. -/
theorem after (hk : ∀ a, Yields (k a) Q) : Yields (p >>= k) Q :=
  bind (P := fun _ ↦ True) (fun _ _ _ _ ↦ trivial) fun a _ ↦ hk a

theorem ite {c : Prop} [Decidable c] {q : Prog σ α} (h : Yields p P) (h' : Yields q P) :
    Yields (if c then p else q) P := by
  split
  · exact h
  · exact h'

end Yields

/-- A program that tells `α × β` where `p` tells `α`. -/
theorem told_of_fst {q : Prog σ (α × β)} {p : Prog σ α} {a : α} {s s' : σ}
    (h : (q >>= fun r ↦ Pure.pure r.1) = p) (hp : p s = some (a, s')) :
    ∃ b, q s = some ((a, b), s') := by
  rw [← h, bind_apply] at hp
  cases hq : q s with
  | none =>
      rw [hq] at hp
      cases hp
  | some r =>
      obtain ⟨⟨a', b⟩, t⟩ := r
      rw [hq] at hp
      cases hp
      exact ⟨b, rfl⟩

end Stm32F1.Prog
