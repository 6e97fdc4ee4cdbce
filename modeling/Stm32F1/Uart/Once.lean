import Stm32F1.Uart.Release

/-!
# Every command once

While a line is complete every interrupt gives the semaphore.  If one comes when
the task has taken the semaphore but has not released the line yet, the semaphore
stays given and the task wakes up once more without a line.
-/

namespace Stm32F1.Uart.Command

variable {s : System} {e : Event} {past history : List Event} {p : Pieces UInt8} {b : Option UInt8}
  {bs l : List UInt8} {str buf : Nat → UInt8} {len : UInt8}

/-! ## Strings -/

/-- What `CommandProcess` gets of a line: up to the first NUL, in capitals. -/
def command (l : List UInt8) : List UInt8 := (l.takeWhile (· ≠ 0)).map capital

/-- The string at an address. -/
structure Spells (str : Nat → UInt8) (bs : List UInt8) : Prop where
  begins : Begins str bs
  full : 0 ∉ bs
  ends : str bs.length = 0

theorem foldl_capital (n : Nat) (str : Nat → UInt8) :
    (List.range n).foldl (fun str i ↦ Function.update str i (capital (str i))) str =
      fun i ↦ if i < n then capital (str i) else str i := by
  induction n with
  | zero => rfl
  | succ n ih =>
      rw [List.range_succ, List.foldl_append, ih]
      funext i
      rw [List.foldl_cons, List.foldl_nil]
      rcases Nat.lt_trichotomy i n with hlt | rfl | hgt
      · rw [Function.update_of_ne hlt.ne, if_pos hlt, if_pos (Nat.lt_succ_of_lt hlt)]
      · rw [Function.update_self, if_pos (Nat.lt_succ_self _)]
        exact congrArg capital (if_neg (lt_irrefl _))
      · rw [Function.update_of_ne hgt.ne', if_neg hgt.not_gt, if_neg (by omega)]

theorem lowerToCap_apply (str : Nat → UInt8) (len : UInt8) (i : Nat) :
    lowerToCap str len i = if i < len.toNat then capital (str i) else str i :=
  congrFun (foldl_capital len.toNat str) i

theorem capital_eq_zero (b : UInt8) : capital b = 0 ↔ b = 0 := by
  revert b
  decide +kernel

theorem Spells.lowerToCap (h : Spells str bs) (hlen : bs.length ≤ len.toNat) :
    Spells (lowerToCap str len) (bs.map capital) where
  begins i hi := by
    rw [List.length_map] at hi
    rw [lowerToCap_apply, if_pos (hi.trans_le hlen), List.getElem_map, h.begins i hi]
  full hmem := by
    obtain ⟨b, hb, h0⟩ := List.mem_map.1 hmem
    exact h.full ((capital_eq_zero b).1 h0 ▸ hb)
  ends := by
    rw [List.length_map, lowerToCap_apply, h.ends]
    split <;> rfl

theorem getElem_takeWhile (h : (l.takeWhile (· ≠ 0)).length < l.length) :
    l[(l.takeWhile (· ≠ 0)).length] = 0 := by
  induction l with
  | nil => exact absurd h (Nat.not_lt_zero _)
  | cons b l ih =>
      by_cases hb : b = 0
      · have hnil : (b :: l).takeWhile (· ≠ 0) = [] :=
          List.takeWhile_cons_of_neg (by simpa using hb)
        simp only [hnil, List.length_nil, List.getElem_cons_zero]
        exact hb
      · have hcons : (b :: l).takeWhile (· ≠ 0) = b :: l.takeWhile (· ≠ 0) :=
          List.takeWhile_cons_of_pos (by simpa using hb)
        simp only [hcons, List.length_cons, Nat.add_lt_add_iff_right] at h
        simp only [hcons, List.length_cons, List.getElem_cons_succ]
        exact ih h

/-- The copy of a line, with a NUL at its end. -/
theorem spells_sprintf (hbuf : Begins buf l) (dst : Nat → UInt8) :
    Spells (Function.update (sprintf dst buf) l.length 0) (l.takeWhile (· ≠ 0)) := by
  have hinit : l.takeWhile (· ≠ 0) <+: l := List.takeWhile_prefix _
  have hle := hinit.length_le
  have hfull : ∀ b ∈ l.takeWhile (· ≠ 0), b ≠ 0 := fun b hb ↦ by
    simpa using List.mem_takeWhile_imp hb
  have hget (i : Nat) (hi : i < (l.takeWhile (· ≠ 0)).length) :
      buf i = (l.takeWhile (· ≠ 0))[i] := by
    rw [hbuf i (hi.trans_le hle)]
    exact (hinit.getElem hi).symm
  have hcopy (i : Nat) (hi : i ≤ (l.takeWhile (· ≠ 0)).length) : sprintf dst buf i = buf i := by
    refine if_pos fun j hj ↦ ?_
    rw [hget j (hj.trans_le hi)]
    exact hfull _ (List.getElem_mem _)
  refine ⟨fun i hi ↦ ?_, fun hmem ↦ hfull 0 hmem rfl, ?_⟩
  · rw [Function.update_of_ne (hi.trans_le hle).ne, hcopy i hi.le, hget i hi]
  · rcases hle.eq_or_lt with heq | hlt
    · rw [heq, Function.update_self]
    · rw [Function.update_of_ne hlt.ne, hcopy _ le_rfl, hbuf _ hlt]
      exact getElem_takeWhile hlt

/-! ## The semaphore -/

/-- The semaphore was given. -/
def Given (sem : Option Semaphore) : Prop := ∃ q, sem = some q ∧ q.items ≠ []

theorem given_give {sem : Option Semaphore} (h : sem ≠ none) :
    Given (sem.map xSemaphoreGiveFromISR) := by
  obtain ⟨q, rfl⟩ := Option.ne_none_iff_exists'.1 h
  refine ⟨_, rfl, ?_⟩
  rw [xSemaphoreGiveFromISR, Queue.xQueueSendFromISR]
  split
  · exact List.concat_ne_nil _ _
  · rename_i hfull
    intro hnil
    exact hfull (by rw [hnil]; decide)

/-- A semaphore that was given is taken, and then it is not given any more. -/
theorem take_given {sem : Option Semaphore} (h : Given sem) :
    ∃ q, sem.bind xSemaphoreTake = some q ∧ q.items = [] := by
  obtain ⟨⟨items, hle⟩, rfl, hne⟩ := h
  cases items with
  | nil => exact absurd rfl hne
  | cons item items =>
      exact ⟨_, rfl, List.length_eq_zero_iff.1 (Nat.le_zero.1 (Nat.le_of_succ_le_succ hle))⟩

theorem take_not_given {sem : Option Semaphore} (h : ¬ Given sem) :
    sem.bind xSemaphoreTake = none := by
  cases sem with
  | none => rfl
  | some q =>
      obtain ⟨items, hle⟩ := q
      cases items with
      | nil => rfl
      | cons item items => exact absurd ⟨_, rfl, List.cons_ne_nil _ _⟩ h

theorem not_given_some {q : Semaphore} (h : q.items = []) : ¬ Given (some q) := by
  rintro ⟨q', heq, hne⟩
  obtain rfl := Option.some.inj heq
  exact hne h

/-! ## The invariant -/

/-- The task has taken the semaphore and has not called `CommandProcess` yet. -/
def Pc.Woken : Pc → Prop
  | .length | .copy | .terminate | .lower | .process => True
  | _ => False

instance : ∀ pc : Pc, Decidable pc.Woken
  | .length | .copy | .terminate | .lower | .process => isTrue trivial
  | .take | .carryOut | .release | .clearBuf | .clearStr | .overrun => isFalse id

/-- Every line that was completed was passed to `CommandProcess`, once and in order, except that the
last one may still be waiting: the task is woken, or going to be woken, for this line.  The task is
not woken without such a line. -/
def ExactlyOnce (lines : List (List UInt8)) (s : System) : Prop :=
  ∃ passed waiting, lines = passed ++ waiting ∧
    List.Forall₂ (fun l str ↦ Spells str (command l)) passed s.calls ∧
    (s.pc.Woken → ∃ l, waiting = [l]) ∧
    (¬ s.pc.Woken → waiting = [] ∨
      (∃ l, waiting = [l]) ∧ s.globals.rx.Completed rtos ∧ Given s.globals.binarySemaphore)

/-- The line that was taken last is released. -/
def System.Waiting (s : System) : Prop := s.pc = .take ∨ s.pc = .clearBuf ∨ s.pc = .clearStr

/-- No interrupt comes between `xSemaphoreTake` and the release, none stores a byte between the
release and the clearing of the buffer, no line completes before there is a semaphore, and what is
written to `CommandStr` fits into it. -/
def Undisturbed (past : List Event) (e : Event) : Prop :=
  match e with
  | .interrupt b => (state past).Waiting ∧ Gentle past (.interrupt b) ∧
      (((state past).globals.rx.interrupt rtos b).Completed rtos →
        (state past).globals.binarySemaphore ≠ none)
  | .task => ((state past).pc = .copy → Fits (state past).globals.rx.usartRxBuf) ∧
      ((state past).pc = .terminate → (state past).locals.len.toNat < 30)
  | .create => True

/-- A line is complete and the semaphore was taken for it. -/
structure Held (p : Pieces UInt8) (sem : Option Semaphore) : Prop where
  complete : p.mode = .complete
  taken : ¬ Given sem

/-- What the task has done at each statement. -/
def Phase (p : Pieces UInt8) (g : Globals) (locals : Locals) : Pc → Prop
  | .take | .clearBuf | .clearStr => p.mode = .complete ↔ Given g.binarySemaphore
  | .length | .carryOut | .release => Held p g.binarySemaphore
  | .copy => Held p g.binarySemaphore ∧ locals.len.toNat = p.piece.length
  | .terminate => Held p g.binarySemaphore ∧ locals.len.toNat = p.piece.length ∧
      ∃ dst, locals.commandStr = sprintf dst g.rx.usartRxBuf
  | .lower => Held p g.binarySemaphore ∧ locals.len.toNat = p.piece.length ∧
      Spells locals.commandStr (p.piece.takeWhile (· ≠ 0))
  | .process => Held p g.binarySemaphore ∧ Spells locals.commandStr (command p.piece)
  | .overrun => False

/-- The lines that were passed. -/
def Passed (p : Pieces UInt8) (pc : Pc) (passed : List (List UInt8)) : Prop :=
  if pc = .carryOut ∨ pc = .release then p.lines = passed else p.HandedOn passed

/-- What holds as long as nothing disturbs the task. -/
structure Ready (past : List Event) (s : System) : Prop extends Peaceful past s where
  phase : Phase (stream past) s.globals s.locals s.pc
  calls : ∃ passed, Passed (stream past) s.pc passed ∧
    List.Forall₂ (fun l str ↦ Spells str (command l)) passed s.calls

theorem ready_start : Ready [] System.start where
  toPeaceful := peaceful_start
  phase := by
    refine ⟨fun h ↦ absurd h Pieces.inside_ne, ?_⟩
    rintro ⟨q, hq, -⟩
    cases hq
  calls := ⟨[], rfl, .nil⟩

section Sound

variable {passed : List (List UInt8)}

/-- The task is woken for a line. -/
theorem exactlyOnce_woken (hpassed : p.HandedOn passed) (hm : p.mode = .complete)
    (hcalls : List.Forall₂ (fun l str ↦ Spells str (command l)) passed s.calls) (hw : s.pc.Woken) :
    ExactlyOnce p.lines s := by
  rw [Pieces.HandedOn, if_pos hm] at hpassed
  exact ⟨passed, _, hpassed, hcalls, fun _ ↦ ⟨_, rfl⟩, fun h ↦ absurd hw h⟩

/-- No line waits. -/
theorem exactlyOnce_all (hpassed : p.lines = passed)
    (hcalls : List.Forall₂ (fun l str ↦ Spells str (command l)) passed s.calls)
    (hw : ¬ s.pc.Woken) : ExactlyOnce p.lines s :=
  ⟨passed, [], hpassed.trans (List.append_nil _).symm, hcalls, fun h ↦ absurd h hw,
    fun _ ↦ .inl rfl⟩

/-- The task waits for the semaphore. -/
theorem exactlyOnce_waiting (htracks : Tracks rtos s.globals.rx p) (hpassed : p.HandedOn passed)
    (hcalls : List.Forall₂ (fun l str ↦ Spells str (command l)) passed s.calls) (hw : ¬ s.pc.Woken)
    (hgiven : p.mode = .complete ↔ Given s.globals.binarySemaphore) : ExactlyOnce p.lines s := by
  by_cases hm : p.mode = .complete
  · rw [Pieces.HandedOn, if_pos hm] at hpassed
    refine ⟨passed, _, hpassed, hcalls, fun h ↦ absurd h hw, fun _ ↦ .inr ?_⟩
    exact ⟨⟨_, rfl⟩, htracks.completed_iff.2 hm, hgiven.1 hm⟩
  · exact exactlyOnce_all (hpassed.lines hm) hcalls hw

end Sound

/-- The invariant says that every line was passed once. -/
theorem Ready.exactlyOnce (h : Ready past s) : ExactlyOnce (stream past).lines s := by
  obtain ⟨passed, hpassed, hcalls⟩ := h.calls
  have hphase := h.phase
  cases hpc : s.pc with
  | take =>
      rw [hpc] at hphase hpassed
      exact exactlyOnce_waiting h.tracks hpassed hcalls (by rw [hpc]; exact id) hphase
  | length =>
      rw [hpc] at hphase hpassed
      exact exactlyOnce_woken hpassed hphase.complete hcalls (by rw [hpc]; trivial)
  | copy =>
      rw [hpc] at hphase hpassed
      exact exactlyOnce_woken hpassed hphase.1.complete hcalls (by rw [hpc]; trivial)
  | terminate =>
      rw [hpc] at hphase hpassed
      exact exactlyOnce_woken hpassed hphase.1.complete hcalls (by rw [hpc]; trivial)
  | lower =>
      rw [hpc] at hphase hpassed
      exact exactlyOnce_woken hpassed hphase.1.complete hcalls (by rw [hpc]; trivial)
  | process =>
      rw [hpc] at hphase hpassed
      exact exactlyOnce_woken hpassed hphase.1.complete hcalls (by rw [hpc]; trivial)
  | carryOut =>
      rw [hpc] at hpassed
      exact exactlyOnce_all hpassed hcalls (by rw [hpc]; exact id)
  | release =>
      rw [hpc] at hpassed
      exact exactlyOnce_all hpassed hcalls (by rw [hpc]; exact id)
  | clearBuf =>
      rw [hpc] at hphase hpassed
      exact exactlyOnce_waiting h.tracks hpassed hcalls (by rw [hpc]; exact id) hphase
  | clearStr =>
      rw [hpc] at hphase hpassed
      exact exactlyOnce_waiting h.tracks hpassed hcalls (by rw [hpc]; exact id) hphase
  | overrun =>
      rw [hpc] at hphase
      exact absurd hphase id

/-! ## The steps -/

/-- An undisturbed task releases the buffer gently. -/
theorem Ready.gentle (h : Ready past (state past)) (hquiet : Undisturbed past e) :
    Gentle past e := by
  cases e with
  | interrupt b => exact hquiet.2.1
  | create => trivial
  | task =>
      intro hpc
      have hphase := h.phase
      rw [hpc] at hphase
      exact .inl (h.tracks.completed_iff.2 hphase.complete)

theorem interrupted_complete (h : p.mode = .complete) (b : Option UInt8) :
    interrupted rtos.size b p = p := by
  cases b with
  | none => rfl
  | some res => exact Pieces.next_complete h res

theorem phase_waiting (h : s.Waiting) : Phase p s.globals s.locals s.pc ↔
    (p.mode = .complete ↔ Given s.globals.binarySemaphore) := by
  rcases h with hpc | hpc | hpc
  · rw [hpc, Phase]
  · rw [hpc, Phase]
  · rw [hpc, Phase]

theorem passed_waiting {passed : List (List UInt8)} (h : s.Waiting) :
    Passed p s.pc passed ↔ p.HandedOn passed := by
  rw [Passed, if_neg]
  rcases h with hpc | hpc | hpc <;> rw [hpc] <;> decide

/-- Once the line is released, the semaphore is given exactly if another one is complete. -/
theorem Ready.interrupt (h : Ready past (state past)) (hquiet : Undisturbed past (.interrupt b)) :
    Ready (.interrupt b :: past) ((state past).next (.interrupt b)) := by
  obtain ⟨hwaiting, hgentle, hsem⟩ := hquiet
  have hnext := h.tracks.interrupt b
  obtain ⟨passed, hpassed, hcalls⟩ := h.calls
  have hphase := (phase_waiting hwaiting).1 h.phase
  have hhanded : (interrupted rtos.size b (stream past)).HandedOn passed := by
    cases b with
    | none => exact (passed_waiting hwaiting).1 hpassed
    | some res => exact ((passed_waiting hwaiting).1 hpassed).next res
  refine ⟨h.toPeaceful.next hgentle, ?_, passed, ?_, hcalls⟩
  · refine (phase_waiting (s := (state past).next (.interrupt b)) hwaiting).2 ?_
    change (interrupted rtos.size b (stream past)).mode = .complete ↔
      Given (usart1IrqHandler b (state past).globals).binarySemaphore
    rw [usart1IrqHandler]
    by_cases hc : ((state past).globals.rx.interrupt rtos b).Completed rtos
    · rw [if_pos hc]
      exact ⟨fun _ ↦ given_give (hsem hc), fun _ ↦ hnext.completed_iff.1 hc⟩
    · rw [if_neg hc]
      have hm := mt hnext.completed_iff.2 hc
      refine ⟨fun h' ↦ absurd h' hm, fun hgiven ↦ ?_⟩
      have hcomplete := hphase.2 hgiven
      rw [interrupted_complete hcomplete]
      exact hcomplete
  · exact (passed_waiting (s := (state past).next (.interrupt b)) hwaiting).2 hhanded

/-- It only matters whether the semaphore was given. -/
theorem Phase.sem {g : Globals} {locals : Locals} {pc : Pc} {sem : Option Semaphore}
    (h : Phase p g locals pc) (hgiven : Given sem ↔ Given g.binarySemaphore) :
    Phase p { g with binarySemaphore := sem } locals pc := by
  have hheld (hs : Held p g.binarySemaphore) : Held p sem := ⟨hs.complete, mt hgiven.1 hs.taken⟩
  cases pc with
  | take => exact Iff.trans h hgiven.symm
  | clearStr => exact Iff.trans h hgiven.symm
  | length => exact hheld h
  | carryOut => exact hheld h
  | release => exact hheld h
  | copy => exact ⟨hheld h.1, h.2⟩
  | terminate => exact ⟨hheld h.1, h.2⟩
  | lower => exact ⟨hheld h.1, h.2⟩
  | process => exact ⟨hheld h.1, h.2⟩
  | clearBuf => exact Iff.trans h hgiven.symm
  | overrun => exact h

theorem Ready.create (h : Ready past (state past)) :
    Ready (.create :: past) ((state past).next .create) := by
  have hpeaceful := h.toPeaceful.next (e := .create) trivial
  obtain ⟨passed, hpassed, hcalls⟩ := h.calls
  have hphase := h.phase
  rw [System.next, startTask] at hpeaceful ⊢
  split at hpeaceful
  · exact ⟨hpeaceful, hphase, passed, hpassed, hcalls⟩
  · rename_i hsem
    have hcreated : ¬ Given (some xSemaphoreCreateBinary) := not_given_some rfl
    have hnone : ¬ Given (state past).globals.binarySemaphore := by
      rw [hsem]
      rintro ⟨q, hq, -⟩
      cases hq
    refine ⟨hpeaceful, hphase.sem ?_, passed, hpassed, hcalls⟩
    exact ⟨fun hg ↦ absurd hg hcreated, fun hg ↦ absurd hg hnone⟩

/-! ### The statements of the task -/

/-- A statement by which no line is released. -/
theorem Ready.statement (h : Ready past (state past)) (hquiet : Undisturbed past .task)
    (hne : (state past).pc ≠ .release) {t : System} (ht : dataProcessTask (state past) = t)
    (hphase : Phase (stream past) t.globals t.locals t.pc)
    (hcalls : ∃ passed, Passed (stream past) t.pc passed ∧
      List.Forall₂ (fun l str ↦ Spells str (command l)) passed t.calls) :
    Ready (.task :: past) ((state past).next .task) := by
  have hpeaceful := h.toPeaceful.next (h.gentle hquiet)
  have hstream : stream (.task :: past) = stream past := stream_task hne
  have hnext : (state past).next .task = t := ht
  rw [hnext] at hpeaceful ⊢
  refine ⟨hpeaceful, ?_, ?_⟩
  · rw [hstream]
    exact hphase
  · rw [hstream]
    exact hcalls

/-- The task takes the semaphore, if it was given. -/
theorem Ready.take (h : Ready past (state past)) (hquiet : Undisturbed past .task)
    (hpc : (state past).pc = .take) : Ready (.task :: past) ((state past).next .task) := by
  have hphase := h.phase
  obtain ⟨passed, hpassed, hcalls⟩ := h.calls
  have hhanded := (passed_waiting (.inl hpc)).1 hpassed
  have hne : (state past).pc ≠ .release := by rw [hpc]; decide
  have hstep : dataProcessTask (state past) = waitTake (state past) := by
    rw [dataProcessTask, hpc]
  rw [waitTake] at hstep
  by_cases hgiven : Given (state past).globals.binarySemaphore
  · obtain ⟨q, hq, hnil⟩ := take_given hgiven
    rw [hq] at hstep
    rw [hpc] at hphase
    refine h.statement hquiet hne hstep ⟨hphase.2 hgiven, not_given_some hnil⟩ ?_
    exact ⟨passed, hhanded, hcalls⟩
  · rw [take_not_given hgiven] at hstep
    exact h.statement hquiet hne hstep hphase ⟨passed, hpassed, hcalls⟩

theorem toNat_length (h : Ready past s) :
    (UInt8.ofNat (s.globals.rx.usartRxSta &&& 0x3fff).toNat).toNat =
      (stream past).piece.length := by
  have hindex : (s.globals.rx.usartRxSta &&& 0x3fff).toNat = (stream past).piece.length :=
    h.tracks.index
  have hle : (stream past).piece.length ≤ 199 := h.tracks.le_last
  rw [hindex, UInt8.toNat_ofNat', Nat.mod_eq_of_lt (by omega)]

/-- The line is passed to `CommandProcess`. -/
theorem Ready.process (h : Ready past (state past)) (hquiet : Undisturbed past .task)
    (hpc : (state past).pc = .process) : Ready (.task :: past) ((state past).next .task) := by
  have hphase := h.phase
  obtain ⟨passed, hpassed, hcalls⟩ := h.calls
  rw [hpc] at hphase hpassed
  obtain ⟨hheld, hspells⟩ := hphase
  have hhanded : (stream past).HandedOn passed := hpassed
  rw [Pieces.HandedOn, if_pos hheld.complete] at hhanded
  have hstep := dataProcessTask.eq_def (state past)
  rw [hpc] at hstep
  refine h.statement hquiet (by rw [hpc]; decide) hstep hheld ?_
  exact ⟨_, hhanded, List.rel_append hcalls (.cons hspells .nil)⟩

/-- The buffer is released. -/
theorem Ready.release (h : Ready past (state past)) (hquiet : Undisturbed past .task)
    (hpc : (state past).pc = .release) : Ready (.task :: past) ((state past).next .task) := by
  have hpeaceful := h.toPeaceful.next (h.gentle hquiet)
  have hphase := h.phase
  obtain ⟨passed, hpassed, hcalls⟩ := h.calls
  rw [hpc] at hphase hpassed
  have hheld : Held (stream past) (state past).globals.binarySemaphore := hphase
  have hstream : stream (.task :: past) = (stream past).take := if_pos ⟨hpc, hheld.complete⟩
  have hstep : (state past).next .task =
      { state past with globals := (state past).globals.setSta 0, pc := .clearBuf } := by
    rw [System.next, dataProcessTask, hpc]
  rw [hstep] at hpeaceful ⊢
  refine ⟨hpeaceful, ?_, passed, ?_, hcalls⟩
  · rw [hstream]
    exact ⟨fun h' ↦ absurd h' Pieces.inside_ne, fun h' ↦ absurd h' hheld.taken⟩
  · rw [hstream]
    exact Pieces.handedOn_of_lines (p := (stream past).take) hpassed Pieces.inside_ne

/-- The task goes on with the next statement. -/
theorem Ready.task (h : Ready past (state past)) (hquiet : Undisturbed past .task) :
    Ready (.task :: past) ((state past).next .task) := by
  have hphase := h.phase
  have hlength := toNat_length h
  have hcalls := h.calls
  have hstep := dataProcessTask.eq_def (state past)
  cases hpc : (state past).pc with
  | take => exact h.take hquiet hpc
  | length =>
      rw [hpc] at hphase hcalls hstep
      exact h.statement hquiet (by rw [hpc]; decide) hstep ⟨hphase, hlength⟩ hcalls
  | copy =>
      rw [hpc] at hphase hcalls hstep
      obtain ⟨hheld, hlen⟩ := hphase
      rw [if_pos (hquiet.1 hpc)] at hstep
      exact h.statement hquiet (by rw [hpc]; decide) hstep ⟨hheld, hlen, _, rfl⟩ hcalls
  | terminate =>
      rw [hpc] at hphase hcalls hstep
      obtain ⟨hheld, hlen, dst, hdst⟩ := hphase
      have hspells := spells_sprintf h.tracks.buf dst
      rw [← hdst, ← hlen] at hspells
      rw [if_pos (hquiet.2 hpc)] at hstep
      exact h.statement hquiet (by rw [hpc]; decide) hstep ⟨hheld, hlen, hspells⟩ hcalls
  | lower =>
      rw [hpc] at hphase hcalls hstep
      obtain ⟨hheld, hlen, hspells⟩ := hphase
      have hle := (List.takeWhile_prefix (· ≠ 0) (l := (stream past).piece)).length_le
      rw [← hlen] at hle
      exact h.statement hquiet (by rw [hpc]; decide) hstep ⟨hheld, hspells.lowerToCap hle⟩ hcalls
  | process => exact h.process hquiet hpc
  | carryOut =>
      rw [hpc] at hphase hcalls hstep
      exact h.statement hquiet (by rw [hpc]; decide) hstep hphase hcalls
  | release => exact h.release hquiet hpc
  | clearBuf =>
      rw [hpc] at hphase hcalls hstep
      exact h.statement hquiet (by rw [hpc]; decide) hstep hphase hcalls
  | clearStr =>
      rw [hpc] at hphase hcalls hstep
      exact h.statement hquiet (by rw [hpc]; decide) hstep hphase hcalls
  | overrun =>
      rw [hpc] at hphase
      exact absurd hphase id

theorem Ready.next (h : Ready past (state past)) (hquiet : Undisturbed past e) :
    Ready (e :: past) ((state past).next e) := by
  cases e with
  | interrupt b => exact h.interrupt hquiet
  | create => exact h.create
  | task => exact h.task hquiet

/-- **Every line is passed to `CommandProcess` exactly once** as long as nothing disturbs the
task. -/
theorem command_exactly_once (history : List Event) (h : Meets Undisturbed history) :
    ExactlyOnce (stream history).lines (state history) :=
  Ready.exactlyOnce (after_of_meets (I := Ready) ready_start (fun _ _ hr hq ↦ hr.next hq) h)

instance : ∀ past e, Decidable (Undisturbed past e)
  | _, .interrupt _ => inferInstanceAs (Decidable ((_ ∨ _ ∨ _) ∧ _ ∧ (_ → _)))
  | _, .task => inferInstanceAs (Decidable ((_ → _) ∧ (_ → _)))
  | _, .create => inferInstanceAs (Decidable True)

/-- The line `led1on` comes, and the task processes it.  While the buffer is cleared an empty line
comes. -/
def orderly : List Event :=
  [.task, .interrupt (some LF), .task, .interrupt (some CR), .task, .task, .task, .task,
    .task, .task, .task, .task, .interrupt (some LF), .interrupt (some CR), .interrupt (some 110),
    .interrupt (some 111), .interrupt (some 49), .interrupt (some 100), .interrupt (some 101),
    .interrupt (some 108), .create]

theorem command_exactly_once_orderly : ExactlyOnce (stream orderly).lines (state orderly) :=
  command_exactly_once orderly (by decide +kernel)

/-- A task that was woken has its own line: there are more lines than calls. -/
theorem ExactlyOnce.woken {lines : List (List UInt8)} (h : ExactlyOnce lines s) (hw : s.pc.Woken) :
    lines.length = s.calls.length + 1 := by
  obtain ⟨passed, waiting, rfl, hcalls, hwoken, -⟩ := h
  obtain ⟨l, rfl⟩ := hwoken hw
  rw [List.length_append, hcalls.length_eq, List.length_singleton]

/-- A byte comes while the task is busy with an empty line. -/
def disturbed : List Event :=
  [.task, .task, .task, .task, .task, .task, .task, .task, .task, .task,
    .interrupt (some 65), .task, .interrupt (some LF), .interrupt (some CR), .create]

theorem woken_without_line :
    ¬ ∀ history, ExactlyOnce (stream history).lines (state history) := by
  intro h
  have hwoken := (h disturbed).woken (by decide +kernel)
  revert hwoken
  decide +kernel

end Stm32F1.Uart.Command
