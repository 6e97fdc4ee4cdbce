import Stm32F1.Uart.Once

/-!
# What is recognised

The handler delivers a line by its length; the task copies it as a string, up to
the first NUL of the buffer, into an array of 30 bytes.  A line of 30 bytes or
more, or one with no NUL close behind it, is written beyond that array; and a NUL
within a line ends it for `CommandProcess`, whatever stands behind.
-/

namespace Stm32F1.Uart.Command

variable {s : System} {e : Event} {l bs literal bytes : List UInt8} {str buf : Nat → UInt8}
  {n : Nat} {rx : Rx 16} {b : Option UInt8} {p : Pieces UInt8}

/-! ## Lines that are delivered -/

/-- A line that is complete; what stands behind it in the buffer is older. -/
structure Delivered (l : List UInt8) (rx : Rx 16) : Prop where
  completed : rx.Completed rtos
  index : (rx.usartRxSta &&& 0x3fff).toNat = l.length
  begins : Begins rx.usartRxBuf l
  short : l.length < USART_REC_LEN
  clean : CR ∉ l

/-- Every line that the handler completes is delivered. -/
theorem delivered_of_tracks (h : Tracks rtos rx p) (hc : rx.Completed rtos) :
    Delivered p.piece rx where
  completed := hc
  index := h.index
  begins := h.buf
  short := Nat.lt_succ_of_le h.le_last
  clean := h.sound.clean

section Feed

variable {v : Variant} {r : Rx v.width}

/-- The handler gets these bytes, one after the other. -/
def feed (v : Variant) (bytes : List UInt8) (r : Rx v.width) : Rx v.width :=
  bytes.foldl (fun r b ↦ r.receive v b) r

/-- The bytes of a line are stored in turn, and nothing behind them. -/
theorem feed_inside (h : Tracks v r p) (hm : p.mode = .inside) (hcr : CR ∉ bytes)
    (hlen : p.piece.length + bytes.length < v.size) :
    (∃ q : Pieces UInt8, Tracks v (feed v bytes r) q ∧ q.mode = .inside ∧
    q.piece = p.piece ++ bytes) ∧
      ∀ i, p.piece.length + bytes.length ≤ i → (feed v bytes r).usartRxBuf i = r.usartRxBuf i := by
  induction bytes generalizing r p with
  | nil => exact ⟨⟨p, h, hm, (List.append_nil _).symm⟩, fun _ _ ↦ rfl⟩
  | cons b bytes ih =>
      rw [List.length_cons] at hlen
      obtain ⟨hb, hcr'⟩ := not_or.1 (mt List.mem_cons.2 hcr)
      have hne : p.piece.length + 1 ≠ v.size := by omega
      have hstore := h.store hm (Ne.symm hb)
      rw [Pieces.add_of_ne hne] at hstore
      have hpiece : (p.piece ++ [b]).length = p.piece.length + 1 := List.length_append
      obtain ⟨⟨q, hq, hqm, hqp⟩, hbehind⟩ := ih hstore hm hcr' (by rw [hpiece]; omega)
      have hfeed : feed v (b :: bytes) r = feed v bytes (r.store v b) :=
        congrArg (feed v bytes) (h.receive_store hm (Ne.symm hb))
      rw [hfeed]
      refine ⟨⟨q, hq, hqm, hqp.trans (List.append_assoc _ [b] bytes)⟩, fun i hi ↦ ?_⟩
      rw [List.length_cons] at hi
      refine (hbehind i (by rw [hpiece]; omega)).trans ?_
      have hindex := h.index
      refine Function.update_of_ne ?_ ..
      omega

/-- A line is completed, and what was behind it in the buffer is still there. -/
theorem feed_line (hshort : l.length < v.size) (hcr : CR ∉ l) (buf : Nat → UInt8) :
    (∃ q : Pieces UInt8, Tracks v (feed v (l ++ [CR, LF]) ⟨0, buf, []⟩) q ∧ q.mode = .complete ∧
      q.piece = l) ∧
    ∀ i, l.length ≤ i → (feed v (l ++ [CR, LF]) ⟨0, buf, []⟩).usartRxBuf i = buf i := by
  have hstart : Tracks v ⟨0, buf, []⟩ .empty :=
    ⟨(Variant.word_inside v 0).symm, begins_nil _, Pieces.sound_nil rfl,
      fun _ h ↦ absurd h List.not_mem_nil⟩
  have hempty : (Pieces.empty : Pieces UInt8).piece.length + l.length = l.length := Nat.zero_add _
  obtain ⟨⟨q, hq, hqm, hqp⟩, hbehind⟩ := feed_inside hstart rfl hcr (hempty.trans_lt hshort)
  have hmarked := hq.receive CR
  rw [nextPieces, Pieces.next_first hqm, hq.receive_cr hqm] at hmarked
  have hdone := hmarked.receive LF
  rw [nextPieces, Pieces.next_second rfl, hmarked.receive_lf rfl] at hdone
  have hfeed : feed v (l ++ [CR, LF]) ⟨0, buf, []⟩ =
      { feed v l ⟨0, buf, []⟩ with usartRxSta := v.word q.piece.length .complete } := by
    rw [feed, List.foldl_append]
    change ((feed v l ⟨0, buf, []⟩).receive v CR).receive v LF = _
    rw [hq.receive_cr hqm, hmarked.receive_lf rfl]
  rw [hfeed]
  exact ⟨⟨_, hdone, rfl, hqp⟩, fun i hi ↦ hbehind i (hempty.trans_le hi)⟩

end Feed

/-- **Every line can be delivered**, whatever is behind it in the buffer. -/
theorem feed_delivers (hshort : l.length < USART_REC_LEN) (hcr : CR ∉ l) (buf : Nat → UInt8) :
    Delivered l (feed rtos (l ++ [CR, LF]) ⟨0, buf, []⟩) ∧
      ∀ i, l.length ≤ i → (feed rtos (l ++ [CR, LF]) ⟨0, buf, []⟩).usartRxBuf i = buf i := by
  obtain ⟨⟨q, hq, hqm, rfl⟩, hbehind⟩ := feed_line (v := rtos) hshort hcr buf
  exact ⟨delivered_of_tracks hq (hq.completed_iff.2 hqm), hbehind⟩

/-- While it is complete, an interrupt changes nothing. -/
theorem Delivered.interrupt (h : Delivered l rx) (b : Option UInt8) : rx.interrupt rtos b = rx := by
  cases b with
  | none => rfl
  | some res => exact if_neg h.completed

/-! ## Strings -/

/-- `strcmp` tells whether the string is the literal. -/
theorem Spells.equals (h : Spells str bs) (h0 : 0 ∉ literal) :
    equals str literal = true ↔ bs = literal := by
  have hmap (k : Nat) (hk : k ≤ bs.length) : (List.range k).map str = bs.take k := by
    refine List.ext_getElem (by simp [hk]) fun i hi _ ↦ ?_
    rw [List.length_map, List.length_range] at hi
    rw [List.getElem_map, List.getElem_range, List.getElem_take]
    exact h.begins i (hi.trans_le hk)
  rw [Command.equals, Bool.and_eq_true, beq_iff_eq, beq_iff_eq]
  constructor
  · rintro ⟨hbytes, hend⟩
    have hle : literal.length ≤ bs.length := by
      by_contra hlt
      have hnul : str bs.length ∈ (List.range literal.length).map str :=
        List.mem_map_of_mem (List.mem_range.2 (Nat.lt_of_not_le hlt))
      rw [h.ends, hbytes] at hnul
      exact h0 hnul
    rw [hmap _ hle] at hbytes
    rcases hle.eq_or_lt with heq | hlt
    · rw [← hbytes, heq, List.take_length]
    · rw [h.begins _ hlt] at hend
      exact absurd (hend ▸ List.getElem_mem hlt) h.full
  · rintro rfl
    exact ⟨(hmap _ le_rfl).trans List.take_length, h.ends⟩

/-- The value of a command. -/
def valueOf (c : List UInt8) : UInt8 :=
  if c = led1On then LED1ON else if c = led1Off then LED1OFF else COMMANDERR

theorem Spells.commandProcess (h : Spells str bs) : commandProcess str = valueOf bs := by
  rw [Command.commandProcess, valueOf]
  refine ite_congr (propext (h.equals (by decide))) (fun _ ↦ rfl) fun _ ↦ ?_
  exact ite_congr (propext (h.equals (by decide))) (fun _ ↦ rfl) fun _ ↦ rfl

/-! ## The statements -/

/-- What is written to `CommandStr` for the line fits into it. -/
def Roomy (l : List UInt8) (buf : Nat → UInt8) : Prop := l.length < 30 ∧ Fits buf

instance (l : List UInt8) (buf : Nat → UInt8) : Decidable (Roomy l buf) :=
  inferInstanceAs (Decidable (_ ∧ _))

/-- What the task has done, `n` statements before the command is carried out. -/
def Doing (l : List UInt8) (buf : Nat → UInt8) (locals : Locals) (n : Nat) : Pc → Prop
  | .length => n = 5
  | .copy => n = 4 ∧ locals.len.toNat = l.length
  | .terminate => n = 3 ∧ locals.len.toNat = l.length ∧ Fits buf ∧
      ∃ dst, locals.commandStr = sprintf dst buf
  | .lower => n = 2 ∧ locals.len.toNat = l.length ∧ Roomy l buf ∧
      Spells locals.commandStr (l.takeWhile (· ≠ 0))
  | .process => n = 1 ∧ Roomy l buf ∧ Spells locals.commandStr (command l)
  | .carryOut => n = 0 ∧ Roomy l buf ∧ locals.commandValue = valueOf (command l)
  | .overrun => ¬ Roomy l buf
  | _ => False

/-- The task is busy with the line. -/
structure Busy (l : List UInt8) (buf : Nat → UInt8) (n : Nat) (s : System) : Prop where
  delivered : Delivered l s.globals.rx
  held : s.globals.rx.usartRxBuf = buf
  doing : Doing l buf s.locals n s.pc

/-- The handler and `start_task` have nothing to do with it. -/
theorem Busy.other (h : Busy l buf n s) (he : e ≠ .task) : Busy l buf n (s.next e) := by
  cases e with
  | interrupt b =>
      have hrx : (usart1IrqHandler b s.globals).rx = s.globals.rx :=
        (usart1IrqHandler_rx b s.globals).trans (h.delivered.interrupt b)
      exact ⟨hrx ▸ h.delivered, hrx ▸ h.held, h.doing⟩
  | create =>
      rw [System.next, startTask]
      split
      · exact h
      · exact ⟨h.delivered, h.held, h.doing⟩
  | task => exact absurd rfl he

/-- **One statement** of the task. -/
theorem Busy.task (h : Busy l buf (n + 1) s) : Busy l buf n (s.next .task) := by
  obtain ⟨hdelivered, hbuf, hdoing⟩ := h
  rw [System.next, dataProcessTask]
  cases hpc : s.pc with
  | length =>
      rw [hpc] at hdoing
      refine ⟨hdelivered, hbuf, Nat.succ_injective hdoing, ?_⟩
      have hshort : l.length < 200 := hdelivered.short
      have hlen : (UInt8.ofNat (s.globals.rx.usartRxSta &&& 0x3fff).toNat).toNat = l.length := by
        rw [hdelivered.index, UInt8.toNat_ofNat', Nat.mod_eq_of_lt (by omega)]
      exact hlen
  | copy =>
      rw [hpc] at hdoing
      obtain ⟨hn, hlen⟩ := hdoing
      dsimp only
      rw [hbuf]
      split
      · rename_i hfits
        exact ⟨hdelivered, hbuf, Nat.succ_injective hn, hlen, hfits, _, rfl⟩
      · rename_i hfits
        exact ⟨hdelivered, hbuf, fun hroomy ↦ hfits hroomy.2⟩
  | terminate =>
      rw [hpc] at hdoing
      obtain ⟨hn, hlen, hfits, dst, hdst⟩ := hdoing
      dsimp only
      rw [hlen]
      split
      · rename_i hshort
        refine ⟨hdelivered, hbuf, Nat.succ_injective hn, hlen, ⟨hshort, hfits⟩, ?_⟩
        rw [hdst]
        exact spells_sprintf (hbuf ▸ hdelivered.begins) dst
      · rename_i hlong
        exact ⟨hdelivered, hbuf, fun hroomy ↦ hlong hroomy.1⟩
  | lower =>
      rw [hpc] at hdoing
      obtain ⟨hn, hlen, hroomy, hspells⟩ := hdoing
      have hle := (List.takeWhile_prefix (· ≠ 0) (l := l)).length_le
      exact ⟨hdelivered, hbuf, Nat.succ_injective hn, hroomy, hspells.lowerToCap (hlen.symm ▸ hle)⟩
  | process =>
      rw [hpc] at hdoing
      obtain ⟨hn, hroomy, hspells⟩ := hdoing
      exact ⟨hdelivered, hbuf, Nat.succ_injective hn, hroomy, hspells.commandProcess⟩
  | carryOut =>
      rw [hpc] at hdoing
      exact absurd hdoing.1 (Nat.succ_ne_zero n)
  | overrun =>
      rw [hpc] at hdoing
      refine ⟨hdelivered, hbuf, ?_⟩
      rw [hpc]
      exact hdoing
  | take => rw [hpc] at hdoing; exact hdoing.elim
  | release => rw [hpc] at hdoing; exact hdoing.elim
  | clearBuf => rw [hpc] at hdoing; exact hdoing.elim
  | clearStr => rw [hpc] at hdoing; exact hdoing.elim

/-- The statements of the task, with whatever comes in between. -/
theorem Busy.run {es : List Event} (hes : es.count .task = n) (h : Busy l buf n s) :
    Busy l buf 0 (es.foldl System.next s) := by
  induction es generalizing n s with
  | nil =>
      subst hes
      exact h
  | cons e es ih =>
      by_cases he : e = .task
      · subst he
        rw [List.count_cons_self] at hes
        subst hes
        exact ih rfl h.task
      · rw [List.count_cons_of_ne he] at hes
        exact ih hes (h.other he)

/-- In the end the task is lost, or the command was told. -/
theorem Busy.told (h : Busy l buf 0 s) : (s.pc = .overrun ∧ ¬ Roomy l buf) ∨
    s.pc ≠ .overrun ∧ Roomy l buf ∧ s.locals.commandValue = valueOf (command l) := by
  have hdoing := h.doing
  cases hpc : s.pc with
  | overrun =>
      rw [hpc] at hdoing
      exact .inl ⟨rfl, hdoing⟩
  | carryOut =>
      rw [hpc] at hdoing
      exact .inr ⟨by decide, hdoing.2⟩
  | length => rw [hpc] at hdoing; exact absurd hdoing (Nat.zero_ne_add_one 4)
  | copy => rw [hpc] at hdoing; exact absurd hdoing.1 (by decide)
  | terminate => rw [hpc] at hdoing; exact absurd hdoing.1 (by decide)
  | lower => rw [hpc] at hdoing; exact absurd hdoing.1 (by decide)
  | process => rw [hpc] at hdoing; exact absurd hdoing.1 (by decide)
  | take => rw [hpc] at hdoing; exact hdoing.elim
  | release => rw [hpc] at hdoing; exact hdoing.elim
  | clearBuf => rw [hpc] at hdoing; exact hdoing.elim
  | clearStr => rw [hpc] at hdoing; exact hdoing.elim

/-! ## The law -/

/-- The upper-case letter of a lower-case one. -/
def upper (b : UInt8) : UInt8 := if 97 ≤ b ∧ b ≤ 122 then b - 32 else b

theorem capital_eq_upper (b : UInt8) : capital b = upper b := by
  revert b
  decide +kernel

/-- Nothing was written beyond `CommandStr`, and the line was taken for a command exactly if it is
one, in letters of either case. -/
def Recognises (l : List UInt8) (s : System) : Prop :=
  s.pc ≠ .overrun ∧ (s.locals.commandValue = LED1ON ↔ l.map upper = led1On) ∧
    (s.locals.commandValue = LED1OFF ↔ l.map upper = led1Off)

/-- The line and what is behind it fit into `CommandStr`, and the line is not a command with a NUL
behind it. -/
def Suitable (l : List UInt8) (buf : Nat → UInt8) : Prop :=
  Roomy l buf ∧ (0 ∈ l → command l ≠ led1On ∧ command l ≠ led1Off)

theorem command_of_notMem (h0 : 0 ∉ l) : command l = l.map upper := by
  have hall : l.takeWhile (· ≠ 0) = l := by
    refine List.takeWhile_eq_self_iff.2 fun b hb ↦ ?_
    refine decide_eq_true ?_
    rintro rfl
    exact h0 hb
  rw [command, hall]
  exact List.map_congr_left fun b _ ↦ capital_eq_upper b

theorem upper_ne (h0 : 0 ∈ l) (hliteral : 0 ∉ literal) : l.map upper ≠ literal := by
  rintro rfl
  exact hliteral (List.mem_map.2 ⟨0, h0, rfl⟩)

theorem valueOf_eq_on {c : List UInt8} : valueOf c = LED1ON ↔ c = led1On := by
  rw [valueOf]
  split
  · rename_i h
    exact ⟨fun _ ↦ h, fun _ ↦ rfl⟩
  · rename_i h
    refine ⟨fun hv ↦ ?_, fun hc ↦ absurd hc h⟩
    split at hv
    · exact absurd hv (by decide)
    · exact absurd hv (by decide)

theorem valueOf_eq_off {c : List UInt8} : valueOf c = LED1OFF ↔ c = led1Off := by
  rw [valueOf]
  split
  · rename_i h
    rw [h]
    decide
  · split
    · rename_i h
      exact ⟨fun _ ↦ h, fun _ ↦ rfl⟩
    · rename_i h
      exact ⟨fun hv ↦ absurd hv (by decide), fun hc ↦ absurd hc h⟩

/-- **Commands are recognised** in the lines that suit the task, and in no others: whatever line the
handler has delivered, whatever is behind it in the buffer, and whatever comes while the task is
busy with it. -/
theorem command_recognised_iff {es : List Event} (hdelivered : Delivered l s.globals.rx)
    (hpc : s.pc = .length) (hes : es.count .task = 5) :
    Recognises l (es.foldl System.next s) ↔ Suitable l s.globals.rx.usartRxBuf := by
  have hbusy : Busy l s.globals.rx.usartRxBuf 5 s := by
    refine ⟨hdelivered, rfl, ?_⟩
    rw [hpc]
    rfl
  rcases (hbusy.run hes).told with ⟨hlost, hroomy⟩ | ⟨hpc', hroomy, hvalue⟩
  · exact ⟨fun h ↦ absurd hlost h.1, fun h ↦ absurd h.1 hroomy⟩
  rw [Recognises, Suitable, hvalue, valueOf_eq_on, valueOf_eq_off]
  by_cases h0 : 0 ∈ l
  · have hon := upper_ne h0 (by decide : 0 ∉ led1On)
    have hoff := upper_ne h0 (by decide : 0 ∉ led1Off)
    constructor
    · rintro ⟨-, hcon, hcoff⟩
      exact ⟨hroomy, fun _ ↦ ⟨mt hcon.1 hon, mt hcoff.1 hoff⟩⟩
    · rintro ⟨-, hcommand⟩
      obtain ⟨hcon, hcoff⟩ := hcommand h0
      exact ⟨hpc', iff_of_false hcon hon, iff_of_false hcoff hoff⟩
  · rw [command_of_notMem h0]
    exact ⟨fun _ ↦ ⟨hroomy, fun h ↦ absurd h h0⟩, fun _ ↦ ⟨hpc', Iff.rfl, Iff.rfl⟩⟩

/-- The task has been woken for this line; the buffer was empty before. -/
def woken (l : List UInt8) : System :=
  { System.start with
    globals := ⟨feed rtos (l ++ [CR, LF]) (Rx.start 16), some xSemaphoreCreateBinary⟩
    pc := .length }

theorem delivered_woken (hshort : l.length < USART_REC_LEN) (hcr : CR ∉ l) :
    Delivered l (woken l).globals.rx := (feed_delivers hshort hcr _).1

/-- `led1on` -/
def lowerOn : List UInt8 := [108, 101, 100, 49, 111, 110]

/-- A byte comes while the task is busy with the line. -/
theorem command_recognised_early : Recognises lowerOn
    ([.task, .task, .interrupt (some 65), .task, .task, .task].foldl System.next (woken lowerOn)) :=
  (command_recognised_iff (delivered_woken (by decide) (by decide)) rfl (by decide)).2
    ⟨by decide +kernel, fun h ↦ absurd h (by decide)⟩

/-- A line of 30 bytes is written beyond `CommandStr`. -/
theorem not_recognises_long : ¬ ∀ (l : List UInt8) (s : System), Delivered l s.globals.rx →
    s.pc = .length → Recognises l ((List.replicate 5 Event.task).foldl System.next s) := by
  intro h
  obtain ⟨l, hl⟩ : ∃ l, l = List.replicate 30 (65 : UInt8) := ⟨_, rfl⟩
  have hlength : l.length = 30 := by rw [hl, List.length_replicate]
  have hcr : CR ∉ l := by
    rw [hl, List.mem_replicate]
    decide
  have hdelivered : Delivered l (woken l).globals.rx :=
    delivered_woken (by rw [hlength]; decide) hcr
  have hbusy : Busy l (woken l).globals.rx.usartRxBuf 5 (woken l) := ⟨hdelivered, rfl, rfl⟩
  have hcount : (List.replicate 5 Event.task).count .task = 5 := rfl
  obtain ⟨hpc, -⟩ := h l (woken l) hdelivered rfl
  rcases (hbusy.run hcount).told with ⟨hlost, -⟩ | ⟨-, hroomy, -⟩
  · exact hpc hlost
  · have hlt := hroomy.1
    rw [hlength] at hlt
    exact absurd hlt (lt_irrefl 30)

end Stm32F1.Uart.Command
