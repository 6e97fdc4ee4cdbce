import Stm32F1.Uart.Message

/-!
# What is printed of a line

An item has no length; `show_receive_task` prints it up to the first NUL.  That
is the line as long as there is a NUL behind the line in the buffer.  The handler
clears the buffer when it has sent a line, but not when it gives a piece up, so a
piece that was given up shows behind a line that is shorter.
-/

namespace Stm32F1.Uart.Message

/-- What `printf` with `%s` shows of an item. -/
def printed (item : Item) : List UInt8 := item.takeWhile (· ≠ 0)

/-- The bytes that have come, the oldest first. -/
def bytes : List Event → List UInt8
  | .interrupt (some b) :: past => bytes past ++ [b]
  | _ :: past => bytes past
  | [] => []

/-- A stream cut into lines, each of which is taken at once. -/
def nextTaken (p : Pieces UInt8) (b : UInt8) : Pieces UInt8 :=
  let p := p.next USART_REC_LEN CR LF b
  if p.mode = .complete then p.take else p

/-- The bytes cut into lines, each of which is taken as soon as it is complete. -/
def cut (bs : List UInt8) : Pieces UInt8 := bs.foldl nextTaken .empty

/-- With this byte a line is complete. -/
def Completes (p : Pieces UInt8) (b : UInt8) : Prop := p.mode = .marked ∧ b = LF

/-- No line is shorter than a piece that was given up since the line before it. -/
def Covering (bs : List UInt8) : Prop :=
  ∀ front b, front ++ [b] <+: bs → Completes (cut front) b →
    (cut front).longest ≤ (cut front).piece.length

/-- The queue has room whenever a line completes. -/
def HasRoom (past : List Event) : Event → Prop
  | .interrupt b => ((state past).globals.assembled b).Completed rtos →
      (state past).globals.messageQueue.any fun q ↦ q.items.length < MESSAGE_Q_NUM
  | _ => True

/-- No NUL comes, and the queue has room whenever a line completes. -/
def Fair (past : List Event) (e : Event) : Prop := HasRoom past e ∧ e ≠ .interrupt (some 0)

instance : ∀ past e, Decidable (HasRoom past e)
  | _, .interrupt _ => inferInstanceAs (Decidable (_ → _))
  | _, .create => inferInstanceAs (Decidable True)
  | _, .receive => inferInstanceAs (Decidable True)

instance (past : List Event) (e : Event) : Decidable (Fair past e) :=
  inferInstanceAs (Decidable (_ ∧ _))

variable {p : Pieces UInt8} {b : UInt8} {bs : List UInt8} {past history : List Event} {s : System}
  {e : Event} {buf : Nat → UInt8}

/-- One more byte. -/
theorem cut_concat (bs : List UInt8) (b : UInt8) : cut (bs ++ [b]) = nextTaken (cut bs) b := by
  rw [cut, List.foldl_append]
  rfl

/-- One more byte, which may complete a line. -/
theorem covering_concat : Covering (bs ++ [b]) ↔ Covering bs ∧
    (Completes (cut bs) b → (cut bs).longest ≤ (cut bs).piece.length) := by
  constructor
  · intro h
    refine ⟨?_, h bs b (List.prefix_refl _)⟩
    intro front b' hfront
    exact h front b' (hfront.trans (List.prefix_append _ _))
  · rintro ⟨h, hlast⟩ front b' hfront
    rcases List.prefix_concat_iff.1 hfront with heq | hfront
    · obtain ⟨rfl, hb⟩ := List.append_inj' heq rfl
      obtain rfl := List.singleton_injective hb
      exact hlast
    · exact h front b' hfront

/-! ## The buffer behind the line -/

/-- Behind the piece so far the buffer shows what was given up. -/
structure Stale (buf : Nat → UInt8) (p : Pieces UInt8) : Prop where
  full : 0 ∉ p.piece
  behind : ∀ i, p.piece.length ≤ i → i < USART_REC_LEN → (buf i = 0 ↔ p.longest ≤ i)

/-- A piece that is given up leaves its bytes in the buffer. -/
theorem Stale.giveUp (h : Stale buf p) (hbuf : Begins buf p.piece) : Stale buf p.giveUp where
  full := List.not_mem_nil
  behind i _ hi := by
    change _ ↔ max p.longest p.piece.length ≤ i
    rw [max_le_iff]
    by_cases hlt : i < p.piece.length
    · have hne : buf i ≠ 0 := by
        rw [hbuf i hlt]
        exact fun h0 ↦ h.full (h0 ▸ List.getElem_mem hlt)
      exact ⟨fun h0 ↦ absurd h0 hne, fun hle ↦ absurd hlt (Nat.not_lt.2 hle.2)⟩
    · rw [not_lt] at hlt
      rw [h.behind i hlt hi]
      exact ⟨fun hle ↦ ⟨hle, hlt⟩, And.left⟩

/-- Up to the first NUL everything is printed. -/
theorem printed_append {bs rest : List UInt8} (h : 0 ∉ bs) :
    printed (bs ++ rest) = bs ++ printed rest := by
  refine List.takeWhile_append_of_pos ?_
  intro b hb
  exact decide_eq_true fun h0 : b = 0 ↦ h (h0 ▸ hb)

/-- What is printed is the line exactly when nothing shows behind it. -/
theorem printed_item {r : Rx 16} (h : Tracks rtos r p) (hstale : Stale r.usartRxBuf p) :
    printed (item r.usartRxBuf) = p.piece ↔ p.longest ≤ p.piece.length := by
  obtain ⟨rest, hrest⟩ := prefix_item h
  have hlen : p.piece.length < USART_REC_LEN := Nat.lt_succ_of_le h.le_last
  have hget : (p.piece ++ rest)[p.piece.length]? = some (r.usartRxBuf p.piece.length) := by
    rw [hrest, item, List.getElem?_map, List.getElem?_range hlen]
    rfl
  rw [List.getElem?_append_right le_rfl, Nat.sub_self] at hget
  rw [← hstale.behind _ le_rfl hlen, ← hrest, printed_append hstale.full, List.append_right_eq_self]
  cases rest with
  | nil => cases hget
  | cons b rest =>
      obtain rfl : b = r.usartRxBuf p.piece.length := Option.some.inj hget
      by_cases hb : r.usartRxBuf p.piece.length = 0
      · refine ⟨fun _ ↦ hb, fun _ ↦ ?_⟩
        exact List.takeWhile_cons_of_neg (by simpa using hb)
      · rw [printed, List.takeWhile_cons_of_pos (by simpa using hb)]
        exact ⟨fun h ↦ absurd h (List.cons_ne_nil _ _), fun h ↦ absurd h hb⟩

/-- A byte that is stored covers what was there. -/
theorem Stale.concat (h : Stale buf p) (hb : b ≠ 0) : Stale
    (Function.update buf p.piece.length b) { p with piece := p.piece ++ [b] } where
  full hmem := by
    rcases List.mem_append.1 hmem with hmem | hmem
    · exact h.full hmem
    · exact hb (List.mem_singleton.1 hmem).symm
  behind i hle hi := by
    change (p.piece ++ [b]).length ≤ i at hle
    rw [List.length_append, List.length_singleton] at hle
    rw [Function.update_of_ne (by omega)]
    exact h.behind i (by omega) hi

/-- Whatever comes but a NUL, the buffer shows behind the piece what was given up. -/
theorem Stale.receive {r : Rx 16} (h : Tracks rtos r p) (hstale : Stale r.usartRxBuf p)
    (hb : b ≠ 0) : Stale (r.receive rtos b).usartRxBuf (p.next USART_REC_LEN CR LF b) := by
  cases hm : p.mode with
  | inside =>
      by_cases hcr : b = CR
      · rw [hcr, h.receive_cr hm, Pieces.next_first hm]
        exact ⟨hstale.full, hstale.behind⟩
      · rw [h.receive_store hm hcr, Pieces.next_add hm hcr]
        have hbuf : (r.store rtos b).usartRxBuf =
            Function.update r.usartRxBuf p.piece.length b := by
          rw [← h.index]
          rfl
        have hconcat := hstale.concat hb
        rw [hbuf]
        by_cases hlen : p.piece.length + 1 = USART_REC_LEN
        · rw [Pieces.add_of_length hlen]
          exact hconcat.giveUp (h.buf.concat b)
        · rw [Pieces.add_of_ne hlen]
          exact hconcat
  | marked =>
      by_cases hlf : b = LF
      · rw [hlf, h.receive_lf hm, Pieces.next_second hm]
        exact ⟨hstale.full, hstale.behind⟩
      · rw [h.receive_giveUp hm hlf, Pieces.next_giveUp hm hlf]
        exact hstale.giveUp h.buf
  | complete =>
      rw [h.receive_complete hm, Pieces.next_complete hm]
      exact hstale

/-- `memset` leaves nothing behind. -/
theorem stale_cleared (buf : Nat → UInt8) (p : Pieces UInt8) :
    Stale (clearBuf USART_REC_LEN buf) p.take where
  full := List.not_mem_nil
  behind i _ hi := ⟨fun _ ↦ Nat.zero_le i, fun _ ↦ if_pos hi⟩

/-! ## Runs -/

/-- What holds as long as there is room and no NUL comes. -/
structure Shown (past : List Event) (s : System) : Prop where
  tracks : Tracks rtos s.globals.rx (cut (bytes past))
  stale : Stale s.globals.rx.usartRxBuf (cut (bytes past))
  mode : (cut (bytes past)).mode ≠ .complete
  shown : s.globals.posted.map printed = (cut (bytes past)).lines ↔ Covering (bytes past)

/-- Nothing has been posted at reset. -/
theorem shown_start : Shown [] System.start where
  tracks := tracks_start rtos
  stale := ⟨List.not_mem_nil, fun i _ _ ↦ ⟨fun _ ↦ Nat.zero_le i, fun _ ↦ rfl⟩⟩
  mode := Pieces.inside_ne
  shown := by
    refine ⟨fun _ front b hfront ↦ ?_, fun _ ↦ rfl⟩
    exact absurd (List.prefix_nil.1 hfront) (by simp)

/-- What completes a line. -/
theorem next_complete_iff (hm : p.mode ≠ .complete) :
    (p.next USART_REC_LEN CR LF b).mode = .complete ↔ Completes p b := by
  cases hmode : p.mode with
  | inside =>
      refine ⟨fun h ↦ ?_, fun h ↦ ?_⟩
      · by_cases hb : b = CR
        · rw [hb, Pieces.next_first hmode] at h
          exact absurd h Pieces.marked_ne
        · rw [Pieces.next_add hmode hb] at h
          by_cases hlen : p.piece.length + 1 = USART_REC_LEN
          · rw [Pieces.add_of_length hlen] at h
            exact absurd h Pieces.inside_ne
          · rw [Pieces.add_of_ne hlen] at h
            exact absurd h hm
      · exact absurd (hmode.symm.trans h.1) (by decide)
  | marked =>
      refine ⟨fun h ↦ ⟨hmode, ?_⟩, ?_⟩
      · by_contra hb
        rw [Pieces.next_giveUp hmode hb] at h
        exact absurd h Pieces.inside_ne
      · rintro ⟨-, rfl⟩
        rw [Pieces.next_second hmode]
  | complete => exact absurd hmode hm

/-- Nothing else adds one. -/
theorem next_lines (hm : p.mode ≠ .complete) (h : ¬ Completes p b) :
    (p.next USART_REC_LEN CR LF b).lines = p.lines :=
  ((Pieces.handedOn_of_lines rfl hm).next b).lines (mt (next_complete_iff hm).1 h)

/-- A byte comes that completes no line. -/
theorem Shown.going (h : Shown past (state past)) (hb : b ≠ 0)
    (hc : ¬ Completes (cut (bytes past)) b) :
    Shown (.interrupt (some b) :: past) ((state past).next (.interrupt (some b))) := by
  have hmode := mt (next_complete_iff h.mode).1 hc
  have hnext : cut (bytes (.interrupt (some b) :: past)) =
      (cut (bytes past)).next USART_REC_LEN CR LF b := (cut_concat _ b).trans (if_neg hmode)
  have hreceive := h.tracks.receive b
  have hhandler := handler_incomplete (g := (state past).globals) (b := some b)
    (mt hreceive.completed_iff.1 hmode)
  rw [System.next, hhandler]
  refine ⟨?_, ?_, ?_, ?_⟩
  · rw [hnext]
    exact hreceive
  · rw [hnext]
    exact h.stale.receive h.tracks hb
  · rw [hnext]
    exact hmode
  · rw [hnext, next_lines h.mode hc]
    refine h.shown.trans (covering_concat.trans ?_).symm
    exact ⟨And.left, fun hbs ↦ ⟨hbs, fun hc' ↦ absurd hc' hc⟩⟩

/-- A byte comes that completes a line. -/
theorem Shown.completes (h : Shown past (state past))
    (hroom : HasRoom past (.interrupt (some b))) (hc : Completes (cut (bytes past)) b) :
    Shown (.interrupt (some b) :: past) ((state past).next (.interrupt (some b))) := by
  have hmode := (next_complete_iff h.mode).2 hc
  have hnext : cut (bytes (.interrupt (some b) :: past)) =
      ((cut (bytes past)).next USART_REC_LEN CR LF b).take := (cut_concat _ b).trans (if_pos hmode)
  have hreceive := h.tracks.receive b
  have hcompleted := hreceive.completed_iff.2 hmode
  obtain ⟨q, hq, hlt⟩ := (Option.any_eq_true _ _).1 (hroom hcompleted)
  rw [System.next, handler_complete (g := (state past).globals) (b := some b) hcompleted hq,
    post_room (of_decide_eq_true hlt)]
  refine ⟨?_, ?_, ?_, ?_⟩
  · rw [hnext]
    exact tracks_cleared hreceive
  · rw [hnext]
    exact stale_cleared _ _
  · rw [hnext]
    exact Pieces.inside_ne
  · obtain ⟨hmarked, rfl⟩ := hc
    have hitem : ((state past).globals.assembled (some LF)).usartRxBuf =
        (state past).globals.rx.usartRxBuf := by
      change (Rx.receive rtos LF _).usartRxBuf = _
      rw [h.tracks.receive_lf hmarked]
    rw [hnext, Pieces.next_second hmarked, hitem, List.map_append]
    change _ ++ [printed (item _)] = (cut (bytes past)).lines ++ [(cut (bytes past)).piece] ↔ _
    have hconcat : Covering (bytes past ++ [LF]) ↔ _ := covering_concat
    refine Iff.trans ⟨fun heq ↦ ?_, fun heq ↦ ?_⟩ hconcat.symm
    · obtain ⟨hlines, hlast⟩ := List.append_inj' heq rfl
      refine ⟨h.shown.1 hlines, fun _ ↦ ?_⟩
      exact (printed_item h.tracks h.stale).1 (List.singleton_injective hlast)
    · obtain ⟨hlines, hlast⟩ := heq
      rw [h.shown.2 hlines, (printed_item h.tracks h.stale).2 (hlast ⟨hmarked, rfl⟩)]

/-- The variables of the receiver are as before. -/
theorem Shown.frame {s' : System} (h : Shown past s) (hbytes : bytes (e :: past) = bytes past)
    (hrx : s'.globals.rx = s.globals.rx) (hposted : s'.globals.posted = s.globals.posted) :
    Shown (e :: past) s' := by
  refine ⟨?_, ?_, ?_, ?_⟩
  · rw [hbytes, hrx]
    exact h.tracks
  · rw [hbytes, hrx]
    exact h.stale
  · rw [hbytes]
    exact h.mode
  · rw [hbytes, hposted]
    exact h.shown

/-- One fair event. -/
theorem Shown.next (h : Shown past (state past)) (hfair : Fair past e) :
    Shown (e :: past) ((state past).next e) := by
  cases e with
  | interrupt b =>
      cases b with
      | none =>
          have hc := mt h.tracks.completed_iff.1 h.mode
          rw [System.next, handler_incomplete (b := none) hc]
          exact h.frame rfl rfl rfl
      | some b =>
          by_cases hc : Completes (cut (bytes past)) b
          · exact h.completes hfair.1 hc
          · exact h.going (fun h0 ↦ hfair.2 (by rw [h0])) hc
  | create =>
      obtain ⟨hrx, hposted⟩ := startTask_frame (state past)
      exact h.frame rfl hrx hposted
  | receive =>
      obtain ⟨hrx, hposted⟩ := showReceiveTask_frame (state past)
      exact h.frame rfl hrx hposted

/-- Every fair history. -/
theorem shown_of_fair (hfair : Meets Fair history) : Shown history (state history) :=
  after_of_meets (I := Shown) shown_start (fun _ _ h hf ↦ h.next hf) hfair

/-- **What is printed are the lines exactly when** none of them is shorter than a piece that was
given up since the one before it. -/
theorem printed_lines_iff (history : List Event) (hfair : Meets Fair history) :
    (state history).globals.posted.map printed = (cut (bytes history)).lines ↔
      Covering (bytes history) := (shown_of_fair hfair).shown

/-- After a piece of two bytes was given up, a line of one byte comes. -/
def leftover : List Event :=
  [.interrupt (some LF), .interrupt (some CR), .interrupt (some 67), .interrupt (some 32),
    .interrupt (some CR), .interrupt (some 66), .interrupt (some 65), .create]

theorem printed_lines_iff_leftover :
    (state leftover).globals.posted.map printed = (cut (bytes leftover)).lines ↔
      Covering (bytes leftover) := printed_lines_iff leftover (by decide +kernel)

theorem printed_leftover : ¬ ∀ history, Meets Fair history →
    (state history).globals.posted.map printed = (cut (bytes history)).lines := by
  intro h
  have hlines := h leftover (by decide +kernel)
  revert hlines
  decide +kernel

end Stm32F1.Uart.Message
