import Mathlib

/-!
# Histories

A system takes one step after another; each step is labelled by an event.  The
*history* of a state is the list of the events that led to it, newest first, so
an earlier moment of a run is a suffix of its history.

Besides the rule for invariants, the file has the rule for a property that a
system only has while its environment behaves: the property holds at every
moment of a run exactly when every event of the run was allowed.
-/

namespace Stm32F1

variable {State Event : Type}

/-- From a starting state, the events of `history`, newest first, lead to the state. -/
inductive Reaches (Start : State → Prop) (Step : State → Event → State → Prop) :
    List Event → State → Prop
  | start {s : State} : Start s → Reaches Start Step [] s
  | step {past : List Event} {s s' : State} {e : Event} :
      Reaches Start Step past s → Step s e s' → Reaches Start Step (e :: past) s'

/-- Every event was allowed, given what had happened before it. -/
def Meets (C : List Event → Event → Prop) (history : List Event) : Prop :=
  ∀ e past, e :: past <:+ history → C past e

/-- The property holds at every moment of the run. -/
def Throughout (Start : State → Prop) (Step : State → Event → State → Prop)
    (P : List Event → State → Prop) (history : List Event) : Prop :=
  ∀ past s, past <:+ history → Reaches Start Step past s → P past s

variable {Start : State → Prop} {Step : State → Event → State → Prop}
  {C : List Event → Event → Prop} {P I : List Event → State → Prop}
  {history past : List Event} {s : State} {e : Event}

theorem meets_nil : Meets C [] := fun _ _ h ↦ absurd (List.suffix_nil.1 h) (List.cons_ne_nil _ _)

theorem meets_cons : Meets C (e :: past) ↔ C past e ∧ Meets C past := by
  constructor
  · intro h
    refine ⟨h e past (List.suffix_refl _), ?_⟩
    intro e' past' h'
    exact h e' past' (h'.trans (List.suffix_cons e past))
  · rintro ⟨he, h⟩ e' past' h'
    rcases List.suffix_cons_iff.1 h' with heq | h'
    · obtain ⟨rfl, rfl⟩ := List.cons.inj heq
      exact he
    · exact h e' past' h'

/-- The same events are always allowed. -/
theorem meets_const {A : Event → Prop} :
    Meets (fun _ e ↦ A e) history ↔ ∀ e ∈ history, A e := by
  induction history with
  | nil => exact ⟨fun _ e he ↦ absurd he List.not_mem_nil, fun _ ↦ meets_nil⟩
  | cons e past ih => rw [meets_cons, ih, List.forall_mem_cons]

instance decidableMeets [∀ past e, Decidable (C past e)] : ∀ history, Decidable (Meets C history)
  | [] => isTrue meets_nil
  | e :: past =>
      have : Decidable (Meets C past) := decidableMeets past
      decidable_of_iff (C past e ∧ Meets C past) meets_cons.symm

theorem Throughout.now (h : Throughout Start Step P history) (hs : Reaches Start Step history s) :
    P history s := h history s (List.suffix_refl _) hs

theorem Throughout.before (h : Throughout Start Step P (e :: past)) :
    Throughout Start Step P past :=
  fun past' s' h' ↦ h past' s' (h'.trans (List.suffix_cons e past))

/-- The rule for invariants. -/
theorem Reaches.invariant (start : ∀ s, Start s → I [] s)
    (step : ∀ past s e s', Reaches Start Step past s → I past s → Step s e s' → I (e :: past) s')
    (h : Reaches Start Step history s) : I history s := by
  induction h with
  | start hs => exact start _ hs
  | step hpast hstep ih => exact step _ _ _ _ hpast ih hstep

/-- A run goes on. -/
theorem Reaches.append {recent : List Event} {s' : State} (h : Reaches Start Step past s)
    (hrecent : Reaches (fun x ↦ x = s) Step recent s') :
    Reaches Start Step (recent ++ past) s' := by
  induction hrecent with
  | start hs =>
      subst hs
      exact h
  | step _ hstep ih => exact ih.step hstep

/-- An invariant that only allowed events keep holds as long as they are allowed.  Something (`A`)
may be known of the events of the run from the outset. -/
theorem Reaches.of_meets {A : Event → Prop} (start : ∀ s, Start s → I [] s)
    (step : ∀ past s e s', Reaches Start Step past s → I past s → A e → C past e → Step s e s' →
      I (e :: past) s')
    (h : Reaches Start Step history s) (hA : ∀ e ∈ history, A e) (hC : Meets C history) :
    I history s := by
  induction h with
  | start hs => exact start _ hs
  | step hpast hstep ih =>
      obtain ⟨he, hpast'⟩ := meets_cons.1 hC
      obtain ⟨hAe, hA'⟩ := List.forall_mem_cons.1 hA
      exact step _ _ _ _ hpast (ih hA' hpast') hAe he hstep

/-- **A property holds throughout a run exactly when every event was allowed**, if the allowed
events keep an invariant that implies it and every other event breaks it. -/
theorem throughout_iff_of {A : Event → Prop} (start : ∀ s, Start s → I [] s)
    (step : ∀ past s e s', Reaches Start Step past s → I past s → A e → C past e → Step s e s' →
      I (e :: past) s')
    (sound : ∀ past s, Reaches Start Step past s → I past s → P past s)
    (breaks : ∀ past s e s', Reaches Start Step past s → I past s → A e → ¬ C past e →
      Step s e s' → ¬ P (e :: past) s')
    (h : Reaches Start Step history s) (hA : ∀ e ∈ history, A e) :
    Throughout Start Step P history ↔ Meets C history := by
  constructor
  · intro hP
    induction h with
    | start _ => exact meets_nil
    | @step past s s' e hpast hstep ih =>
        obtain ⟨hAe, hA'⟩ := List.forall_mem_cons.1 hA
        have hC := ih hA' hP.before
        refine meets_cons.2 ⟨?_, hC⟩
        by_contra he
        exact breaks past s e s' hpast (hpast.of_meets start step hA' hC) hAe he hstep
          (hP.now (hpast.step hstep))
  · intro hC past' s' hpast' hs'
    refine sound past' s' hs' (hs'.of_meets start step (fun e he ↦ hA e (hpast'.subset he)) ?_)
    intro e past he
    exact hC e past (he.trans hpast')

theorem throughout_iff (start : ∀ s, Start s → I [] s)
    (step : ∀ past s e s', Reaches Start Step past s → I past s → C past e → Step s e s' →
      I (e :: past) s')
    (sound : ∀ past s, Reaches Start Step past s → I past s → P past s)
    (breaks : ∀ past s e s', Reaches Start Step past s → I past s → ¬ C past e → Step s e s' →
      ¬ P (e :: past) s')
    (h : Reaches Start Step history s) : Throughout Start Step P history ↔ Meets C history :=
  throughout_iff_of (A := fun _ ↦ True) start (fun past s e s' hr hI _ ↦ step past s e s' hr hI)
    sound (fun past s e s' hr hI _ ↦ breaks past s e s' hr hI) h fun _ _ ↦ trivial

/-! ## Determined systems -/

/-- The state after the events of a history, newest first, when an event determines the next one. -/
def after (next : State → Event → State) (s : State) : List Event → State
  | [] => s
  | e :: past => next (after next s past) e

variable {next : State → Event → State}

/-- The rule for invariants that only allowed events keep. -/
theorem after_of_meets (start : I [] s)
    (step : ∀ past e, I past (after next s past) → C past e →
      I (e :: past) (next (after next s past) e))
    (hC : Meets C history) : I history (after next s history) := by
  induction history with
  | nil => exact start
  | cons e past ih =>
      obtain ⟨he, hpast⟩ := meets_cons.1 hC
      exact step past e (ih hpast) he

/-- **A property holds at every moment exactly when every event was allowed**, if the allowed events
keep an invariant that implies it and every other event breaks it. -/
theorem always_after_iff (start : I [] s)
    (step : ∀ past e, I past (after next s past) → C past e →
      I (e :: past) (next (after next s past) e))
    (sound : ∀ past, I past (after next s past) → P past (after next s past))
    (breaks : ∀ past e, I past (after next s past) → ¬ C past e →
      ¬ P (e :: past) (next (after next s past) e)) :
    (∀ past, past <:+ history → P past (after next s past)) ↔ Meets C history := by
  constructor
  · intro hP
    induction history with
    | nil => exact meets_nil
    | cons e past ih =>
        have hC : Meets C past := ih fun past' h' ↦ hP past' (h'.trans (List.suffix_cons e past))
        refine meets_cons.2 ⟨?_, hC⟩
        by_contra he
        exact breaks past e (after_of_meets start step hC) he (hP _ (List.suffix_refl _))
  · intro hC past hpast
    refine sound past (after_of_meets start step ?_)
    intro e past' he
    exact hC e past' (he.trans hpast)

end Stm32F1
