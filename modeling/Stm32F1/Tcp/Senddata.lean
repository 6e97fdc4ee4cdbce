import Stm32F1.Tcp.Buffers

/-!
# The send loop

`tcp_client_senddata` writes the buffers of a chain until one does not fit or a
write fails.  What it does is told by the number of buffers that lwIP takes,
which depends on the lengths of the buffers and on lwIP's answers alone.
-/

namespace Stm32F1.Tcp

open Prog

variable {s : World} {p : Option Nat} {cells : List Nat} {q : Nat}

/-! ## Moving on in a chain -/

/-- What follows a successful write: the next buffer is referenced, the written one is freed. -/
def advance (ptr : Nat) (next : Option Nat) : Prog World Unit := do
  ifPtr next pbufRef
  pbufFree ptr

/-- The references that are taken on the next buffer. -/
def refNext : Option Nat → List Act
  | some next => [.pbufRef next]
  | none => []

/-- On a chain whose buffers are referenced once, moving on leaves the rest referenced once. -/
theorem run_advance (s : World)
    (h : Chain (links s.pbufs) (links s.pbufs q) cells) :
    Run (advance q (links s.pbufs q)) s fun _ s' ↦ ∃ ref,
      s' = { s with
        pbufs := withRefs s.pbufs ref
        log := .pbufFree q :: (refNext (links s.pbufs q) ++ s.log) } ∧
      ((∀ r ∈ q :: cells, refs s.pbufs r = 1) → ∀ r ∈ cells, ref r = 1) := by
  have hq := h.notMem_tail
  have hchain := h
  revert hchain
  cases hnext : links s.pbufs q with
  | none =>
      rintro ⟨⟩
      refine run_bind.2 (run_pure.2 (run_pbufFree.2 ?_))
      refine Run.mono (run_pbufFreeLoop (.cons h)) ?_
      rintro _ _ ⟨ref, rfl, -⟩
      exact ⟨ref, rfl, fun _ r hr ↦ absurd hr List.not_mem_nil⟩
  | some n =>
      rintro ⟨⟩
      rename_i cells hcells
      have hne : n ≠ q := ne_of_mem_of_not_mem (List.mem_cons_self ..) hq
      rw [advance, ifPtr_some, run_bind, run_of_eq (pbufRef_apply s n), run_pbufFree]
      by_cases hone : ∀ r ∈ q :: n :: cells, refs s.pbufs r = 1
      · have hn : refs s.pbufs n + 1 = 2 := by
          rw [hone n (List.mem_cons_of_mem _ (List.mem_cons_self ..))]
          rfl
        have hq' : Function.update (refs s.pbufs) n (refs s.pbufs n + 1) q = 1 := by
          rw [Function.update_of_ne hne.symm, hone q (List.mem_cons_self ..)]
        have hn' : Function.update (refs s.pbufs) n (refs s.pbufs n + 1) n = 2 := by
          rw [Function.update_self, hn]
        refine .of_eq (pbufFreeLoop_pair hnext hq' hn' hne) ⟨_, rfl, fun _ r hr ↦ ?_⟩
        rcases eq_or_ne r n with rfl | hrn
        · rw [Function.update_self]
        · have hrq : r ≠ q := ne_of_mem_of_not_mem hr hq
          rw [Function.update_of_ne hrn, Function.update_of_ne hrq, refs_withRefs,
            Function.update_of_ne hrn]
          exact hone r (List.mem_cons_of_mem q hr)
      · refine Run.mono (run_pbufFreeLoop (.cons h)) ?_
        rintro _ _ ⟨ref, rfl, -⟩
        exact ⟨ref, rfl, fun hall ↦ absurd hall hone⟩

/-! ## `tcp_client_senddata` -/

/-- A buffer of this length fits into the send buffer of the round, and is written. -/
def Answers.Takes (answers : Answers) (i len : Nat) : Prop :=
  len ≤ (answers.sndbuf i).toNat ∧ answers.write i = ERR_OK

instance (answers : Answers) (i len : Nat) : Decidable (answers.Takes i len) :=
  inferInstanceAs (Decidable (_ ∧ _))

/-- How many buffers, of these lengths, lwIP takes from round `i` on. -/
def handed (answers : Answers) : Nat → List Nat → Nat
  | _, [] => 0
  | i, len :: lens => if answers.Takes i len then handed answers (i + 1) lens + 1 else 0

/-- The first `k` buffers are taken, which makes at least `k`. -/
theorem le_handed_iff {answers : Answers} {i k : Nat} {lens : List Nat} (hk : k ≤ lens.length) :
    k ≤ handed answers i lens ↔ ∀ j, (h : j < lens.length) → j < k →
    answers.Takes (i + j) lens[j] := by
  induction lens generalizing i k with
  | nil =>
      obtain rfl := Nat.le_zero.1 hk
      exact iff_of_true le_rfl fun j _ hj ↦ absurd hj (Nat.not_lt_zero j)
  | cons len lens ih =>
      cases k with
      | zero => exact iff_of_true (Nat.zero_le _) fun j _ hj ↦ absurd hj (Nat.not_lt_zero j)
      | succ k =>
          rw [handed]
          by_cases ht : answers.Takes i len
          · rw [if_pos ht, Nat.succ_le_succ_iff, ih (Nat.le_of_succ_le_succ hk)]
            constructor
            · intro h j hj hjk
              cases j with
              | zero => exact ht
              | succ j =>
                  have := h j (Nat.lt_of_succ_lt_succ hj) (Nat.lt_of_succ_lt_succ hjk)
                  rwa [Nat.add_right_comm] at this
            · intro h j hj hjk
              have := h (j + 1) (Nat.succ_lt_succ hj) (Nat.succ_lt_succ hjk)
              rwa [← Nat.add_assoc, Nat.add_right_comm] at this
          · rw [if_neg ht]
            refine iff_of_false (Nat.not_succ_le_zero k) ?_
            intro h
            exact ht (h 0 (Nat.succ_pos _) (Nat.succ_pos k))

theorem handed_le_length (answers : Answers) (i : Nat) (lens : List Nat) :
    handed answers i lens ≤ lens.length := by
  induction lens generalizing i with
  | nil => exact le_rfl
  | cons len lens ih =>
      rw [handed]
      split
      · exact Nat.succ_le_succ (ih (i + 1))
      · exact Nat.zero_le _

/-- The lengths of the buffers. -/
def lengths (h : Nat → Pbuf) (cells : List Nat) : List Nat := cells.map fun q ↦ (h q).payload.length

variable {tpcb es i : Nat} {answers : Answers}

theorem senddataLoop_eq (tpcb es : Nat) (answers : Answers) (wrErr : ErrT) (i : Nat) :
    senddataLoop tpcb es answers wrErr i = senddataRound tpcb es answers wrErr i >>=
      Sum.elim (fun r ↦ senddataLoop tpcb es answers r.1 r.2) pure := by
  conv_lhs => rw [senddataLoop, repeatM_unfold]
  rfl

theorem senddataRound_none {wrErr : ErrT} (hp : (s.es es).p = none) :
    senddataRound tpcb es answers wrErr i s = some (.inr (), s) := by
  rw [senddataRound, bind_of_eq (esAt_apply _ _), hp]
  rfl

/-- The loop ends if a write has failed, or if the buffer does not fit. -/
theorem senddataRound_stop {wrErr : ErrT} (hp : (s.es es).p = some q)
    (h : ¬ (wrErr = ERR_OK ∧ (s.pbufs q).payload.length ≤ (answers.sndbuf i).toNat)) :
    senddataRound tpcb es answers wrErr i s = some (.inr (), s) := by
  rw [senddataRound, bind_of_eq (esAt_apply _ _), hp]
  dsimp only
  rw [bind_of_eq (pbufAt_apply _ _), Pbuf.len, if_neg h]
  rfl

/-- A write that fails changes nothing. -/
theorem senddataRound_refused (hp : (s.es es).p = some q)
    (h : (s.pbufs q).payload.length ≤ (answers.sndbuf i).toNat) (hw : answers.write i ≠ ERR_OK) :
    senddataRound tpcb es answers ERR_OK i s = some (.inl (answers.write i, i + 1), { s with
      log := .tcpOutput tpcb ::
        .tcpWrite tpcb (s.pbufs q).payload (answers.write i) :: s.log }) := by
  have hes : Function.update s.es es { s.es es with p := some q } = s.es := by
    rw [← hp]
    exact Function.update_eq_self es s.es
  rw [senddataRound, bind_of_eq (esAt_apply _ _), hp]
  dsimp only
  rw [bind_of_eq (pbufAt_apply _ _), Pbuf.len, if_pos ⟨rfl, h⟩, tcpWrite, bind_assoc',
    bind_of_eq (note_apply _ _), pure_bind', afterWrite, if_neg hw]
  by_cases hmem : answers.write i = ERR_MEM
  · rw [if_pos hmem, bind_of_eq (setEs_apply _ _ _)]
    dsimp only
    rw [hes]
    rfl
  · rw [if_neg hmem]
    rfl

/-- The state once the buffer `q` was written, and `es->p` moved on. -/
def World.wrote (s : World) (tpcb es q : Nat) : World :=
  { s with
    es := Function.update s.es es { s.es es with p := links s.pbufs q }
    log := .tcpWrite tpcb (s.pbufs q).payload ERR_OK :: s.log }

/-- A write that succeeds moves on. -/
theorem senddataRound_taken (hp : (s.es es).p = some q)
    (h : answers.Takes i (s.pbufs q).payload.length) :
    senddataRound tpcb es answers ERR_OK i s = (do
      advance q (links s.pbufs q)
      tcpOutput tpcb
      pure (Sum.inl (ERR_OK, i + 1))) (s.wrote tpcb es q) := by
  obtain ⟨hlen, hw⟩ := h
  rw [senddataRound, bind_of_eq (esAt_apply _ _), hp]
  dsimp only
  rw [bind_of_eq (pbufAt_apply _ _), Pbuf.len, if_pos ⟨rfl, hlen⟩, hw, tcpWrite, bind_assoc',
    bind_of_eq (note_apply _ _), pure_bind', afterWrite, if_pos rfl, bind_assoc',
    bind_of_eq (setEs_apply _ _ _)]
  rfl

/-- From `s`, `k` buffers of the chain were written; `ref` and `log` are as they should be then. -/
structure Sent (s : World) (cells : List Nat) (k : Nat) (ref : Nat → UInt16) (log : List Act) :
    Prop where
  grows : DataOnly s.log log
  asked : asked log = asked s.log
  accepted : accepted log =
    accepted s.log ++ (cells.take k).flatMap fun q ↦ (s.pbufs q).payload
  held : ∀ q, held log q + stake cells.head? q =
    held s.log q + stake (cells.drop k).head? q
  covered : Covered Act.effect s.log → (∀ q, stake cells.head? q ≤ Tcp.held s.log q) →
    Covered Act.effect log
  refs : (∀ q ∈ cells, refs s.pbufs q = 1) → ∀ q ∈ cells.drop k, ref q = 1

/-- Where `es->p` is after `k` buffers of a chain. -/
def World.movedOn (s : World) (es : Nat) (cells : List Nat) (k : Nat) (ref : Nat → UInt16)
    (log : List Act) : World :=
  { s with
    pbufs := withRefs s.pbufs ref
    es := Function.update s.es es { s.es es with p := (cells.drop k).head? }
    log := log }

theorem World.movedOn_zero (hp : (s.es es).p = cells.head?) (log : List Act) :
    s.movedOn es cells 0 (refs s.pbufs) log = { s with log := log } := by
  have hes : Function.update s.es es { s.es es with p := (cells.drop 0).head? } = s.es := by
    rw [List.drop_zero, ← hp]
    exact Function.update_eq_self es s.es
  rw [World.movedOn, hes, withRefs_refs]

theorem Sent.zero (s : World) (cells : List Nat) :
    Sent s cells 0 (Tcp.refs s.pbufs) s.log where
  grows := .refl s.log
  asked := rfl
  accepted := by simp
  held _ := rfl
  covered h _ := h
  refs h := h

/-- A refused write is only seen in the log. -/
theorem Sent.refused (tpcb : Nat) {result : ErrT} (hr : result ≠ ERR_OK) (s : World)
    (cells : List Nat) (bytes : List UInt8) : Sent s cells 0 (Tcp.refs s.pbufs)
      (.tcpOutput tpcb :: .tcpWrite tpcb bytes result :: s.log) where
  grows := ((DataOnly.refl s.log).cons rfl).cons rfl
  asked := rfl
  accepted := by
    change Tcp.accepted s.log ++ (if result = ERR_OK then bytes else []) = _
    rw [if_neg hr]
    simp
  held q := by simp only [held_cons, Act.effect, Int.zero_add, List.drop_zero]
  covered h _ := (h.cons fun _ ↦ le_rfl).cons fun _ ↦ le_rfl
  refs h := h

/-! ### One buffer -/

/-- The log of a round that wrote the buffer `q`. -/
def roundLog (tpcb q : Nat) (bytes : List UInt8) (next : Option Nat) (log : List Act) : List Act :=
  .tcpOutput tpcb :: .pbufFree q :: (refNext next ++ .tcpWrite tpcb bytes ERR_OK :: log)

variable {bytes : List UInt8} {n : Option Nat} {log : List Act}

theorem dataOnly_roundLog : DataOnly log (roundLog tpcb q bytes n log) := by
  refine .cons (.cons ?_ rfl) rfl
  cases n with
  | none => exact (DataOnly.refl log).cons rfl
  | some n => exact ((DataOnly.refl log).cons rfl).cons rfl

theorem asked_roundLog : asked (roundLog tpcb q bytes n log) = asked log := by
  cases n <;> rfl

theorem accepted_roundLog : accepted (roundLog tpcb q bytes n log) = accepted log ++ bytes := by
  cases n <;> rfl

/-- A reference on the next buffer is taken, and the one on the written buffer released. -/
theorem held_roundLog (r : Nat) : held (roundLog tpcb q bytes n log) r =
    held log r + stake n r - stake (some q) r := by
  have hfree : (Act.pbufFree q).effect r = - stake (some q) r := by
    rw [stake_some, Act.effect]
    split <;> rfl
  cases n with
  | none =>
      have : held (roundLog tpcb q bytes none log) r =
          0 + ((Act.pbufFree q).effect r + (0 + held log r)) := rfl
      rw [this, hfree, stake_none]
      ring
  | some n =>
      have : held (roundLog tpcb q bytes (some n) log) r =
          0 + ((Act.pbufFree q).effect r + ((Act.pbufRef n).effect r + (0 + held log r))) := rfl
      rw [this, hfree, stake_some n, Act.effect]
      ring

theorem covered_roundLog (h : Covered Act.effect log) (hq : ∀ r, stake (some q) r ≤ held log r) :
    Covered Act.effect (roundLog tpcb q bytes n log) := by
  have hwrite : Covered Act.effect (.tcpWrite tpcb bytes ERR_OK :: log) := h.cons fun _ ↦ le_rfl
  have hnext : Covered Act.effect (refNext n ++ .tcpWrite tpcb bytes ERR_OK :: log) := by
    cases n with
    | none => exact hwrite
    | some n =>
        refine hwrite.cons fun r ↦ ?_
        rw [Act.effect]
        split <;> decide
  have hround : ∀ r, 0 ≤ held (roundLog tpcb q bytes n log) r := by
    intro r
    have := stake_nonneg n r
    have := hq r
    rw [held_roundLog]
    omega
  have hout : ∀ r, held (roundLog tpcb q bytes n log) r = held
      (.pbufFree q :: (refNext n ++ .tcpWrite tpcb bytes ERR_OK :: log)) r := fun r ↦ Int.zero_add _
  refine Covered.cons (covered_cons.2 ⟨fun r ↦ ?_, hnext⟩) fun _ ↦ le_rfl
  have hnow := hround r
  rw [hout] at hnow
  exact hnow

/-- The state after a round that wrote the buffer `q`. -/
def World.round (s : World) (tpcb es q : Nat) (ref : Nat → UInt16) : World :=
  { s with
    pbufs := withRefs s.pbufs ref
    es := Function.update s.es es { s.es es with p := links s.pbufs q }
    log := roundLog tpcb q (s.pbufs q).payload (links s.pbufs q) s.log }

theorem run_senddataRound_taken (hp : (s.es es).p = some q)
    (h : Chain (links s.pbufs) (links s.pbufs q) cells)
    (ht : answers.Takes i (s.pbufs q).payload.length) :
    Run (senddataRound tpcb es answers ERR_OK i) s fun r s' ↦ r = .inl (ERR_OK, i + 1) ∧ ∃ ref,
      s' = s.round tpcb es q ref ∧
      ((∀ r ∈ q :: cells, refs s.pbufs r = 1) → ∀ r ∈ cells, ref r = 1) := by
  rw [Run, senddataRound_taken hp ht]
  refine Run.bind (run_advance (s.wrote tpcb es q) h) ?_
  rintro _ _ ⟨ref, rfl, href⟩
  exact run_bind.2 (run_modify.2 (run_pure.2 ⟨rfl, ref, rfl, href⟩))

/-- What a written buffer adds to the rest. -/
theorem Sent.cons {k : Nat} {ref ref' : Nat → UInt16}
    (hhead : links s.pbufs q = cells.head?)
    (href : (∀ r ∈ q :: cells, Tcp.refs s.pbufs r = 1) → ∀ r ∈ cells, ref r = 1)
    (h : Sent (s.round tpcb es q ref) cells k ref' log) : Sent s (q :: cells) (k + 1) ref' log where
  grows := dataOnly_roundLog.trans h.grows
  asked := h.asked.trans asked_roundLog
  accepted := by
    rw [h.accepted]
    change Tcp.accepted (roundLog ..) ++ _ = _
    rw [accepted_roundLog, List.take_succ_cons, List.flatMap_cons, List.append_assoc]
    rfl
  held r := by
    have hrest := h.held r
    change _ = Tcp.held (roundLog ..) r + _ at hrest
    rw [held_roundLog, hhead] at hrest
    rw [List.drop_succ_cons, List.head?_cons]
    omega
  covered hc hq := by
    refine h.covered (covered_roundLog hc hq) ?_
    intro r
    change _ ≤ Tcp.held (roundLog ..) r
    rw [held_roundLog, hhead]
    have := hq r
    rw [List.head?_cons] at this
    omega
  refs hone := h.refs (href hone)

theorem World.movedOn_round {k : Nat} {ref ref' : Nat → UInt16} :
    (s.round tpcb es q ref).movedOn es cells k ref' log =
      s.movedOn es (q :: cells) (k + 1) ref' log := by
  simp only [World.movedOn, World.round, Function.update_self, Function.update_idem,
    List.drop_succ_cons]
  rfl

/-! ### The loop -/

/-- **`tcp_client_senddata`** writes the buffers that lwIP takes. -/
theorem run_senddataLoop (h : Chain (links s.pbufs) (s.es es).p cells) :
    Run (senddataLoop tpcb es answers ERR_OK i) s fun _ s' ↦ ∃ ref log,
      s' = s.movedOn es cells (handed answers i (lengths s.pbufs cells)) ref log ∧
      Sent s cells (handed answers i (lengths s.pbufs cells)) ref log := by
  have hhead := h.head
  induction cells generalizing s i with
  | nil =>
      rw [senddataLoop_eq, run_bind, run_of_eq (senddataRound_none hhead.symm)]
      refine run_pure.2 ⟨refs s.pbufs, s.log, ?_, .zero s []⟩
      exact (World.movedOn_zero hhead.symm s.log).symm
  | cons q cells ih =>
      have hp : (s.es es).p = some q := hhead.symm
      rw [lengths, List.map_cons, handed]
      by_cases ht : answers.Takes i (s.pbufs q).payload.length
      · rw [if_pos ht]
        rw [hp] at h
        cases h with
        | cons h =>
            rw [senddataLoop_eq]
            refine (run_senddataRound_taken hp h ht).bind ?_
            rintro _ _ ⟨rfl, ref, rfl, href⟩
            have hp' : ((s.round tpcb es q ref).es es).p = links s.pbufs q :=
              by simp only [World.round, Function.update_self]
            refine Run.mono (ih (s := s.round tpcb es q ref) (i := i + 1) (hp' ▸ h)
              (hp' ▸ h.head)) ?_
            rintro _ _ ⟨ref', log, rfl, hsent⟩
            exact ⟨ref', log, World.movedOn_round, hsent.cons h.head.symm href⟩
      · rw [if_neg ht, senddataLoop_eq, run_bind]
        by_cases hlen : (s.pbufs q).payload.length ≤ (answers.sndbuf i).toNat
        · have hw : answers.write i ≠ ERR_OK := fun hw ↦ ht ⟨hlen, hw⟩
          rw [run_of_eq (senddataRound_refused hp hlen hw)]
          change Run (senddataLoop tpcb es answers (answers.write i) (i + 1)) _ _
          rw [senddataLoop_eq]
          refine run_bind.2 (.of_eq (senddataRound_stop hp fun h ↦ hw h.1) (run_pure.2 ?_))
          refine ⟨refs s.pbufs, _, ?_, .refused tpcb hw s _ (s.pbufs q).payload⟩
          exact (World.movedOn_zero hp _).symm
        · rw [run_of_eq (senddataRound_stop hp fun h ↦ hlen h.2)]
          refine run_pure.2 ⟨refs s.pbufs, s.log, ?_, .zero s _⟩
          exact (World.movedOn_zero hp s.log).symm

end Stm32F1.Tcp
