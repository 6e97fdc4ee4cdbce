import Stm32F1.Lib.Prog

/-!
# Loops

Three loops cover the code that this library is for:

* `repeatM` repeats a body until it returns `Sum.inr`; nothing bounds it;
* `forRange` is a counted `for`;
* `poll` repeats an action until its result is the wanted one or a counter is
  used up, and reports how much of the counter is left.

Each has a rule with an invariant.  The rule of `repeatM` also asks for a
variant, because `Run` is total correctness: what is proved with it holds of
every solution of the equation of the loop.
-/

namespace Stm32F1.Prog

variable {σ α β : Type}

/-! ## Unbounded iteration -/

theorem repeatM_unfold [Nonempty β] (f : α → Prog σ (α ⊕ β)) (a : α) :
    repeatM f a = f a >>= Sum.elim (repeatM f) pure := by
  funext s
  have : Nonempty σ := ⟨s⟩
  have hunfold : repeatM f a = repeatM.body (m := StateT σ Option) f (repeatM f) a :=
    repeatM_eq_of_monadTail (m := StateT σ Option) a
  have hbody : repeatM.body (m := StateT σ Option) f (repeatM f) a =
      f a >>= Sum.elim (repeatM f) pure := by
    refine congrArg (f a >>= ·) (funext fun x ↦ ?_)
    cases x <;> rfl
  rw [hunfold, hbody]

/-- The rule for `repeatM`: an invariant on the loop variables and the state, and a
variant that every further round decreases. -/
theorem run_repeatM [Nonempty β] {f : α → Prog σ (α ⊕ β)} {Q : β → σ → Prop}
    (I : α → σ → Prop) (μ : α → σ → Nat)
    (step : ∀ a s, I a s → Run (f a) s fun r s' ↦
      match r with
      | .inl a' => I a' s' ∧ μ a' s' < μ a s
      | .inr b => Q b s')
    {a : α} {s : σ} (h : I a s) : Run (repeatM f a) s Q := by
  induction hn : μ a s using Nat.strongRecOn generalizing a s with
  | ind n ih =>
      rw [repeatM_unfold]
      refine (step a s h).bind fun r s' hr ↦ ?_
      cases r with
      | inl a' => exact ih _ (hn ▸ hr.2) hr.1 rfl
      | inr b => exact run_pure.2 hr

/-- `while (c) ;`, the loop without a body. -/
def whileM (c : Prog σ Bool) : Prog σ Unit :=
  repeatM (fun _ ↦ do
    let b ← c
    pure (if b then Sum.inl () else Sum.inr ())) ()

theorem whileM_unfold (c : Prog σ Bool) :
    whileM c = c >>= fun b ↦ when b (whileM c) := by
  conv_lhs => rw [whileM, repeatM_unfold, bind_assoc']
  congr 1
  funext b
  cases b <;> rfl

/-- The rule for `whileM`. -/
theorem run_whileM {c : Prog σ Bool} {Q : σ → Prop} (I : σ → Prop) (μ : σ → Nat)
    (step : ∀ s, I s → Run c s fun b s' ↦ if b then I s' ∧ μ s' < μ s else Q s')
    {s : σ} (h : I s) : Run (whileM c) s fun _ s' ↦ Q s' := by
  refine run_repeatM (fun _ ↦ I) (fun _ ↦ μ) (fun _ s hs ↦ ?_) h
  refine (step s hs).bind fun b s' hb ↦ run_pure.2 ?_
  cases b <;> simpa using hb

/-! ## Counted loops -/

/-- `for (i = i₀; …; i++)`, run `n` times. -/
def forFrom (f : Nat → Prog σ Unit) : Nat → Nat → Prog σ Unit
  | _, 0 => pure ()
  | i, n + 1 => f i >>= fun _ ↦ forFrom f (i + 1) n

/-- `for (i = 0; i < n; i++)`. -/
def forRange (n : Nat) (f : Nat → Prog σ Unit) : Prog σ Unit := forFrom f 0 n

theorem run_forFrom {f : Nat → Prog σ Unit} (I : Nat → σ → Prop) {i n : Nat}
    (step : ∀ j s, i ≤ j → j < i + n → I j s → Run (f j) s fun _ s' ↦ I (j + 1) s')
    {s : σ} (h : I i s) : Run (forFrom f i n) s fun _ s' ↦ I (i + n) s' := by
  induction n generalizing i s with
  | zero => exact run_pure.2 h
  | succ n ih =>
      refine (step i s (Nat.le_refl i) (by omega) h).bind fun _ s' hs' ↦ ?_
      have := ih (i := i + 1) (fun j t hj hj' ↦ step j t (by omega) (by omega)) hs'
      rwa [Nat.add_right_comm] at this

/-- The rule for `forRange`: an invariant indexed by the loop counter. -/
theorem run_forRange {f : Nat → Prog σ Unit} (I : Nat → σ → Prop) {n : Nat}
    (step : ∀ j s, j < n → I j s → Run (f j) s fun _ s' ↦ I (j + 1) s')
    {s : σ} (h : I 0 s) : Run (forRange n f) s fun _ s' ↦ I n s' := by
  have := run_forFrom I (i := 0) (n := n) (fun j t _ hj ↦ step j t (by omega)) h
  rwa [Nat.zero_add] at this

/-! ## Searching -/

/-- The loop `for (i = 0; i < n; i++) if (c (i)) break;`: the `i` it ends with,
counted from `i` with `n` rounds left. -/
def scan (c : Nat → Bool) : Nat → Nat → Nat
  | i, 0 => i
  | i, n + 1 => if c i then i else scan c (i + 1) n

theorem scan_spec (f : Nat → Bool) (i n : Nat) :
    scan f i n ≤ i + n ∧ (∀ j, i ≤ j → j < scan f i n → f j = false) ∧
      (scan f i n < i + n → f (scan f i n) = true) := by
  induction n generalizing i with
  | zero => exact ⟨le_rfl, fun j h₁ h₂ ↦ absurd h₂ (not_lt.2 h₁), fun h ↦ absurd h (lt_irrefl i)⟩
  | succ n ih =>
      rw [scan]
      by_cases hi : f i
      · rw [if_pos hi]
        exact ⟨by omega, fun j h₁ h₂ ↦ absurd h₂ (not_lt.2 h₁), fun _ ↦ hi⟩
      · rw [if_neg hi]
        obtain ⟨h₁, h₂, h₃⟩ := ih (i + 1)
        refine ⟨by omega, fun j hj hj' ↦ ?_, fun h ↦ h₃ (by omega)⟩
        rcases Nat.eq_or_lt_of_le hj with rfl | hlt
        · exact Bool.eq_false_iff.2 hi
        · exact h₂ j hlt hj'

theorem le_scan (f : Nat → Bool) (i n : Nat) : i ≤ scan f i n := by
  induction n generalizing i with
  | zero => exact le_rfl
  | succ n ih =>
      rw [scan]
      split
      · exact le_rfl
      · exact (Nat.le_succ i).trans (ih (i + 1))

/-- The scan reaches the end exactly when it meets nothing. -/
theorem scan_lt_iff {f : Nat → Bool} {n : Nat} : scan f 0 n < n ↔ ∃ j < n, f j = true := by
  obtain ⟨h₁, h₂, h₃⟩ := scan_spec f 0 n
  rw [Nat.zero_add] at h₁ h₃
  constructor
  · intro h
    exact ⟨_, h, h₃ h⟩
  · rintro ⟨j, hj, hf⟩
    by_contra hge
    have := h₂ j (Nat.zero_le j) (by omega)
    simp [this] at hf

/-- Scans stop at the same place if, up to there, the conditions agree. -/
theorem scan_congr {f g : Nat → Bool} {i n : Nat}
    (h : ∀ k, i ≤ k → k < i + n → (∀ j, i ≤ j → j < k → f j = false) → f k = g k) :
    scan f i n = scan g i n := by
  induction n generalizing i with
  | zero => rfl
  | succ n ih =>
      have hi : f i = g i := h i le_rfl (by omega) fun j hj hj' ↦ absurd hj (not_le.2 hj')
      rw [scan, scan, ← hi]
      cases hf : f i with
      | true => rfl
      | false =>
          apply ih
          intro k hk hk' hj
          refine h k (by omega) (by omega) ?_
          intro j hij hjk
          rcases Nat.eq_or_lt_of_le hij with rfl | hlt
          · exact hf
          · exact hj j hlt hjk

/-- What lies before the place where a scan stops, if it would not go on after that. -/
theorem filter_range_eq_scan {f : Nat → Bool} (hmono : ∀ j k, j ≤ k → f j = true → f k = true)
    (n : Nat) : (List.range n).filter (fun k ↦ !f k) = List.range (scan f 0 n) := by
  obtain ⟨hle, hbefore, hstop⟩ := scan_spec f 0 n
  rw [Nat.zero_add] at hle hstop
  obtain ⟨d, hd⟩ := Nat.exists_eq_add_of_le hle
  have hrange : List.range n = List.range' 0 (scan f 0 n) ++ List.range' (0 + scan f 0 n) d := by
    rw [List.range'_append_1, ← hd, List.range_eq_range']
  rw [hrange, List.filter_append, List.filter_eq_self.2, List.filter_eq_nil_iff.2, List.append_nil,
    List.range_eq_range']
  · intro k hk
    rw [Nat.zero_add, List.mem_range'_1] at hk
    have htrue := hmono _ k hk.1 (hstop (by omega))
    simp [htrue]
  · intro k hk
    rw [List.mem_range'_1] at hk
    simp [hbefore k hk.1 (by omega)]

/-! ## Polling -/

/-- Repeat `p` until `done` holds of its result, at most `k + 1` times.  Returns
the last result and what is left of the counter `k`. -/
def poll (p : Prog σ α) (done : α → Bool) : Nat → Prog σ (α × Nat)
  | 0 => do
      let a ← p
      pure (a, 0)
  | k + 1 => do
      let a ← p
      if done a then pure (a, k + 1) else poll p done k

/-- The rule for `poll`: `I` holds before every round; a round that ends the loop
establishes `Q`, of the last result and the counter that is left. -/
theorem run_poll {p : Prog σ α} {done : α → Bool} (I : Nat → σ → Prop)
    (Q : α × Nat → σ → Prop)
    (step : ∀ k s, I k s → Run p s fun a s' ↦
      (done a ∨ k = 0 → Q (a, k) s') ∧ (done a = false → k ≠ 0 → I (k - 1) s'))
    {k : Nat} {s : σ} (h : I k s) : Run (poll p done k) s Q := by
  induction k generalizing s with
  | zero =>
      refine (step 0 s h).bind fun a s' ha ↦ run_pure.2 ?_
      exact ha.1 (.inr rfl)
  | succ k ih =>
      refine (step (k + 1) s h).bind fun a s' ha ↦ ?_
      cases hd : done a with
      | true => simpa [hd] using ha.1 (.inl hd)
      | false => simpa [hd] using ih (ha.2 hd k.succ_ne_zero)

/-- Every round of `poll` keeps `I`, so the whole of it does. -/
theorem run_poll_inv {p : Prog σ α} {done : α → Bool} {I : σ → Prop}
    (step : ∀ s, I s → Run p s fun _ s' ↦ I s') {k : Nat} {s : σ} (h : I s) :
    Run (poll p done k) s fun _ s' ↦ I s' :=
  run_poll (fun _ ↦ I) (fun _ ↦ I)
    (fun _ s hs ↦ (step s hs).mono fun _ _ hs' ↦ ⟨fun _ ↦ hs', fun _ _ ↦ hs'⟩) h

/-- Polling a source whose `i`-th answer is known to be `v i`. -/
theorem poll_eq_from {p : Prog σ α} {done : α → Bool} {v : Nat → α} {st : Nat → σ} {i k : Nat}
    (h : ∀ j, i ≤ j → j ≤ scan (fun j ↦ done (v j)) i k → p (st j) = some (v j, st (j + 1))) :
    poll p done k (st i) = some ((v (scan (fun j ↦ done (v j)) i k),
      i + k - scan (fun j ↦ done (v j)) i k), st (scan (fun j ↦ done (v j)) i k + 1)) := by
  induction k generalizing i with
  | zero =>
      have hi := h i le_rfl le_rfl
      simp only [poll, scan, bind_of_eq hi, pure_apply, Nat.add_zero, Nat.sub_self]
  | succ k ih =>
      have hi := h i le_rfl (le_scan _ i (k + 1))
      rw [poll, bind_of_eq hi]
      rw [scan] at h ⊢
      cases hd : done (v i) with
      | true => simp
      | false =>
          simp only [hd, Bool.false_eq_true, if_false] at h ⊢
          rw [ih fun j hj hj' ↦ h j (by omega) hj', Nat.add_right_comm, Nat.add_assoc]

theorem poll_eq (p : Prog σ α) (done : α → Bool) (v : Nat → α) (st : Nat → σ) {k : Nat}
    (h : ∀ j ≤ scan (fun j ↦ done (v j)) 0 k, p (st j) = some (v j, st (j + 1))) :
    poll p done k (st 0) = some ((v (scan (fun j ↦ done (v j)) 0 k),
      k - scan (fun j ↦ done (v j)) 0 k), st (scan (fun j ↦ done (v j)) 0 k + 1)) := by
  have := poll_eq_from (i := 0) fun j _ hj ↦ h j hj
  rwa [Nat.zero_add] at this

/-! ## Repeating while it goes well -/

/-- `do { r = f (a); a = next (a); } while (--n && r == 0)`, with `n` rounds to go after the
first: the last `r`. -/
def doWhileOk (f : α → Prog σ UInt8) (next : α → α) : α → Nat → Prog σ UInt8
  | a, 0 => f a
  | a, n + 1 => do
      let r ← f a
      if r = 0 then doWhileOk f next (next a) n else pure r

/-- The rule for `doWhileOk`: the rounds that go well keep `I`; the one that does not is the last
one, and leaves `E`. -/
theorem run_doWhileOk {f : α → Prog σ UInt8} {next : α → α} (I : Nat → α → σ → Prop)
    (E : Nat → UInt8 → σ → Prop) {n : Nat}
    (step : ∀ i a s, i ≤ n → I i a s → Run (f a) s fun r s' ↦
      (r = 0 → I (i + 1) (next a) s') ∧ (r ≠ 0 → E i r s'))
    {a : α} {s : σ} (h : I 0 a s) : Run (doWhileOk f next a n) s fun r s' ↦
      (r = 0 → ∃ a', I (n + 1) a' s') ∧ (r ≠ 0 → ∃ i ≤ n, E i r s') := by
  suffices hgen : ∀ k i a s, i + k = n → I i a s → Run (doWhileOk f next a k) s fun r s' ↦
      (r = 0 → ∃ a', I (n + 1) a' s') ∧ (r ≠ 0 → ∃ i ≤ n, E i r s') from
    hgen n 0 a s (Nat.zero_add n) h
  intro k
  induction k with
  | zero =>
      rintro i a s rfl hI
      refine (step i a s le_rfl hI).mono fun r s' hr ↦ ⟨fun h0 ↦ ⟨_, hr.1 h0⟩, fun h0 ↦ ?_⟩
      exact ⟨i, le_rfl, hr.2 h0⟩
  | succ k ih =>
      intro i a s hik hI
      refine (step i a s (by omega) hI).bind fun r s' hr ↦ ?_
      by_cases h0 : r = 0
      · rw [if_pos h0]
        exact ih (i + 1) (next a) s' (by omega) (hr.1 h0)
      · rw [if_neg h0]
        exact run_pure.2 ⟨fun h ↦ absurd h h0, fun _ ↦ ⟨i, by omega, hr.2 h0⟩⟩

end Stm32F1.Prog
