import Stm32F1.Sd.Card

/-!
# The SD driver and a conforming card

What each function of the driver does before a conforming card: waiting ends,
commands are answered, blocks arrive and are stored.
-/

namespace Stm32F1.Sd

open Prog Mcu

variable {m : Nat → UInt8} {c c' : Card} {v : SdVars} {b : UInt8} {bs : List UInt8}

/-! ## The queue of bytes to be sent -/

namespace Card

/-- The card is not in a multiple read. -/
def Still (c : Card) : Prop := ∀ a, c.mode ≠ .reading a

theorem refill_of_still (h : c.Still) : c.refill = c := by
  rw [refill]
  split
  · rename_i a hmode
    exact absurd hmode (h a)
  · rfl

theorem queue_of_still (h : c.Still) (bs : List UInt8) : c.queue bs = { c with out := bs } := by
  rw [queue]
  split
  · rename_i hbs
    have hstill : Still { c with out := [] } := h
    rw [refill_of_still hstill, hbs]
  · rfl

theorem queue_of_ne_nil (h : bs ≠ []) : c.queue bs = { c with out := bs } := if_neg h

theorem queue_append_cons (l : List UInt8) :
    c.queue (l ++ b :: bs) = { c with out := l ++ b :: bs } :=
  queue_of_ne_nil (by simp)

@[simp] theorem queue_out (o bs : List UInt8) : { c with out := o }.queue bs = c.queue bs := rfl

/-- What does not change while the card sends: all but the queue and the course of a read. -/
structure Same (c c' : Card) : Prop where
  kind : c'.kind = c.kind
  sectors : c'.sectors = c.sectors
  cell : c'.cell = c.cell
  timing : c'.timing = c.timing
  app : c'.app = c.app
  waking : c'.waking = c.waking

theorem Same.refl (c : Card) : Same c c := ⟨rfl, rfl, rfl, rfl, rfl, rfl⟩

theorem Same.trans {c'' : Card} (h : Same c c') (h' : Same c' c'') : Same c c'' :=
  ⟨h'.kind.trans h.kind, h'.sectors.trans h.sectors, h'.cell.trans h.cell,
    h'.timing.trans h.timing, h'.app.trans h.app, h'.waking.trans h.waking⟩

/-- The card takes commands: it is selected, has begun no frame, and awaits no block. -/
structure Listening (c : Card) (rx : List UInt8) : Prop where
  selected : c.selected = true
  rx : c.rx = rx
  mode : ∀ multi a, c.mode ≠ .writing multi a

theorem same_refill : Same c c.refill := by
  rw [refill]
  split
  · split
    · exact ⟨rfl, rfl, rfl, rfl, rfl, rfl⟩
    · exact .refl c
  · exact .refl c

theorem Listening.refill {rx : List UInt8} (h : c.Listening rx) : c.refill.Listening rx := by
  rw [Card.refill]
  split
  · split
    · exact ⟨h.selected, h.rx, fun _ _ ↦ Mode.noConfusion⟩
    · exact h
  · exact h

theorem same_queue : Same c (c.queue bs) := by
  rw [queue]
  split
  · have h : Same c { c with out := [] } := ⟨rfl, rfl, rfl, rfl, rfl, rfl⟩
    exact h.trans same_refill
  · exact ⟨rfl, rfl, rfl, rfl, rfl, rfl⟩

theorem Listening.queue {rx : List UInt8} (h : c.Listening rx) : (c.queue bs).Listening rx := by
  rw [Card.queue]
  split
  · have h' : Listening { c with out := [] } rx := ⟨h.selected, h.rx, h.mode⟩
    exact h'.refill
  · exact ⟨h.selected, h.rx, h.mode⟩

theorem shiftOut_of_cons (h : c.out = b :: bs) : c.shiftOut = (b, c.queue bs) := by
  rw [shiftOut, h]

theorem shiftOut_of_nil (h : c.out = []) : c.shiftOut = (0xFF, c) := by
  rw [shiftOut, h]

theorem same_shiftOut : Same c c.shiftOut.2 := by
  rw [shiftOut]
  split
  · exact .refl c
  · exact same_queue

theorem Listening.shiftOut {rx : List UInt8} (h : c.Listening rx) :
    c.shiftOut.2.Listening rx := by
  rw [Card.shiftOut]
  split
  · exact h
  · exact h.queue

/-- Idle bytes are not taken for anything. -/
theorem receive_idle (h : c.rx = []) : c.receive 0xFF = c := by
  obtain ⟨kind, sectors, hsectors, cell, timing, tick, selected, mode, app, waking, rx, out⟩ := c
  obtain rfl : rx = [] := h
  cases mode with
  | idle => rfl
  | reading a => rfl
  | writing multi a => cases multi <;> rfl

/-- The card is selected and has begun neither a frame nor a block. -/
structure Attentive (c : Card) : Prop where
  selected : c.selected = true
  rx : c.rx = []

theorem Attentive.queue (h : c.Attentive) : (c.queue bs).Attentive := by
  have hrefill (c : Card) (h : c.Attentive) : c.refill.Attentive := by
    rw [refill]
    split
    · split
      · exact ⟨h.selected, h.rx⟩
      · exact h
    · exact h
  rw [Card.queue]
  split
  · exact hrefill _ ⟨h.selected, h.rx⟩
  · exact ⟨h.selected, h.rx⟩

end Card

open Card

/-- An idle byte draws the next byte from the queue. -/
theorem exchange_cons (h : c.Attentive) (hout : c.out = b :: bs) :
    SpiDevice.exchange 0xFF c = (b, c.queue bs) := by
  rw [exchange_of_selected h.selected, shiftOut_of_cons hout, receive_idle h.queue.rx]

theorem exchange_nil (h : c.Attentive) (hout : c.out = []) :
    SpiDevice.exchange 0xFF c = (0xFF, c) := by
  rw [exchange_of_selected h.selected, shiftOut_of_nil hout, receive_idle h.rx]

/-- Polling past `n` bytes that are not the one waited for. -/
theorem poll_queue (done : UInt8 → Bool) (fill : UInt8) (hfill : done fill = false)
    (hdone : done b = true) {n k : Nat} (hn : n ≤ k) (h : c.Attentive)
    (hout : c.out = List.replicate n fill ++ b :: bs) :
    poll (readWriteByte 0xFF) done k (⟨m, c, v⟩ : Mcu Card SdVars) =
      some ((b, k - n), ⟨m, c.queue bs, v⟩) := by
  induction n generalizing c k with
  | zero =>
      have hx := exchange_cons h hout
      cases k with
      | zero => simp [poll, bind_apply, hx]
      | succ k => simp [poll, bind_apply, hx, hdone]
  | succ n ih =>
      obtain ⟨k, rfl⟩ : ∃ k', k = k' + 1 := ⟨k - 1, by omega⟩
      have hhead : c.out = fill :: (List.replicate n fill ++ b :: bs) := hout
      have hx := exchange_cons h hhead
      rw [queue_append_cons] at hx
      have hrec := ih (Nat.le_of_succ_le_succ hn) (c := { c with
        out := List.replicate n fill ++ b :: bs }) ⟨h.selected, h.rx⟩ rfl
      rw [queue_out] at hrec
      rw [poll, bind_apply, readWriteByte_apply, hx, Option.bind_some, hfill,
        if_neg Bool.false_ne_true, hrec, Nat.succ_sub_succ]

/-- Polling until a card that was busy has nothing more to say. -/
theorem poll_busy {n k : Nat} (hn : n ≤ k) (h : c.Attentive) (hstill : c.Still)
    (hout : c.out = List.replicate n 0x00) :
    poll (readWriteByte 0xFF) (fun b ↦ b == 0xFF) k (⟨m, c, v⟩ : Mcu Card SdVars) =
      some ((0xFF, k - n), ⟨m, { c with out := [] }, v⟩) := by
  induction n generalizing c k with
  | zero =>
      have hx := exchange_nil h hout
      have hc : { c with out := [] } = c := by
        rw [← show c.out = [] from hout]
      cases k with
      | zero => simp [poll, bind_apply, hx, hc]
      | succ k => simp [poll, bind_apply, hx, hc]
  | succ n ih =>
      obtain ⟨k, rfl⟩ : ∃ k', k = k' + 1 := ⟨k - 1, by omega⟩
      have hhead : c.out = 0x00 :: List.replicate n 0x00 := hout
      have hx := exchange_cons h hhead
      rw [queue_of_still hstill] at hx
      have hrec := ih (Nat.le_of_succ_le_succ hn) (c := { c with
        out := List.replicate n 0x00 }) ⟨h.selected, h.rx⟩ hstill rfl
      rw [poll, bind_apply, readWriteByte_apply, hx, Option.bind_some,
        show ((0x00 : UInt8) == 0xFF) = false from rfl, if_neg Bool.false_ne_true, hrec,
        Nat.succ_sub_succ]

/-! ## Waiting for the card -/

/-- The card will be ready before the driver stops waiting: it is busy for less than that, or in a
multiple read with an idle byte first. -/
def Soon (c : Card) : Prop :=
  (c.Still ∧ ∃ n < 0xFFFFFF, c.out = List.replicate n 0x00) ∨
    (∃ bs, c.out = 0xFF :: bs) ∨ c.out = []

theorem sdWaitReady_busy (h : c.Attentive) (hstill : c.Still) {n : Nat} (hn : n < 0xFFFFFF)
    (hout : c.out = List.replicate n 0x00) :
    sdWaitReady (⟨m, c, v⟩ : Mcu Card SdVars) = some (0, ⟨m, { c with out := [] }, v⟩) := by
  rw [sdWaitReady, bind_of_eq (poll_busy (Nat.le_of_lt_succ hn) h hstill hout)]
  rfl

theorem run_sdWaitReady (h : c.Attentive) (hsoon : Soon c) :
    Run sdWaitReady (⟨m, c, v⟩ : Mcu Card SdVars) fun r t ↦
      r = 0 ∧
        (t = ⟨m, { c with out := [] }, v⟩ ∨ ∃ bs, c.out = 0xFF :: bs ∧ t = ⟨m, c.queue bs, v⟩) := by
  rcases hsoon with ⟨hstill, n, hn, hout⟩ | ⟨bs, hout⟩ | hout
  · exact .of_eq (sdWaitReady_busy h hstill hn hout) ⟨rfl, .inl rfl⟩
  · have hpoll : poll (readWriteByte 0xFF) (fun b ↦ b == 0xFF) 0xFFFFFE
        (⟨m, c, v⟩ : Mcu Card SdVars) = some ((0xFF, 0xFFFFFE), ⟨m, c.queue bs, v⟩) := by
      rw [show 0xFFFFFE = 0xFFFFFD + 1 from rfl, poll, bind_apply, readWriteByte_apply,
        exchange_cons h hout]
      rfl
    rw [sdWaitReady, run_bind, run_of_eq hpoll, run_pure]
    exact ⟨rfl, .inr ⟨bs, hout, rfl⟩⟩
  · have hpoll : poll (readWriteByte 0xFF) (fun b ↦ b == 0xFF) 0xFFFFFE
        (⟨m, c, v⟩ : Mcu Card SdVars) = some ((0xFF, 0xFFFFFE), ⟨m, c, v⟩) := by
      rw [show 0xFFFFFE = 0xFFFFFD + 1 from rfl, poll, bind_apply, readWriteByte_apply,
        exchange_nil h hout]
      rfl
    have hc : { c with out := [] } = c := by rw [← hout]
    rw [sdWaitReady, run_bind, run_of_eq hpoll, run_pure, hc]
    exact ⟨rfl, .inl rfl⟩

theorem sdDisSelect_card : sdDisSelect (⟨m, c, v⟩ : Mcu Card SdVars) =
    some ((), ⟨m, { c with selected := false, rx := [] }, v⟩) := by
  rw [sdDisSelect, bind_apply, chipSelect_apply, Option.bind_some, bind_apply,
    readWriteByte_apply, exchange_of_not_selected rfl]
  rfl

/-- Before a command the driver deselects the card, selects it and waits. -/
theorem run_sdSelect (hsoon : Soon c) (hmode : ∀ multi a, c.mode ≠ .writing multi a) :
    Run (do
        sdDisSelect
        sdSelect) (⟨m, c, v⟩ : Mcu Card SdVars) fun r t ↦
      r = 0 ∧ ∃ c', Same c c' ∧ c'.Listening [] ∧ t = ⟨m, c', v⟩ := by
  rw [run_bind, run_of_eq sdDisSelect_card, sdSelect, run_bind, run_of_eq (chipSelect_apply _ _),
    run_bind]
  let c₀ : Card := { c with selected := true, rx := [] }
  have hc₀ : Same c c₀ := ⟨rfl, rfl, rfl, rfl, rfl, rfl⟩
  have hlisten : c₀.Listening [] := ⟨rfl, rfl, hmode⟩
  have hsoon₀ : Soon c₀ := hsoon
  refine (run_sdWaitReady (c := c₀) ⟨rfl, rfl⟩ hsoon₀).mono ?_
  rintro r t ⟨rfl, rfl | ⟨bs, -, rfl⟩⟩
  · rw [if_pos rfl, run_pure]
    exact ⟨rfl, { c₀ with out := [] }, ⟨rfl, rfl, rfl, rfl, rfl, rfl⟩, ⟨rfl, rfl, hmode⟩, rfl⟩
  · rw [if_pos rfl, run_pure]
    exact ⟨rfl, _, hc₀.trans same_queue, hlisten.queue, rfl⟩

/-! ## Commands -/

/-- A byte of a frame that has begun. -/
theorem receive_frame {rx : List UInt8} (h : c.Listening rx) (hrx : rx ≠ []) (b : UInt8) :
    c.receive b = if rx.length < 5 then { c with rx := rx ++ [b] } else c.execute (rx ++ [b]) := by
  obtain ⟨kind, sectors, hsectors, cell, timing, tick, selected, mode, app, waking, rx, out⟩ := c
  obtain rfl : rx = _ := h.rx
  cases rx with
  | nil => exact absurd rfl hrx
  | cons r rs =>
      cases mode with
      | writing multi a => exact absurd rfl (h.mode multi a)
      | idle => rfl
      | reading a => rfl

/-- The byte that begins a frame. -/
theorem receive_opens (h : c.Listening []) (hb : b &&& 0xC0 = 0x40) :
    c.receive b = { c with rx := [b] } := by
  obtain ⟨kind, sectors, hsectors, cell, timing, tick, selected, mode, app, waking, rx, out⟩ := c
  obtain rfl : rx = [] := h.rx
  cases mode with
  | writing multi a => exact absurd rfl (h.mode multi a)
  | idle => exact if_pos hb
  | reading a => exact if_pos hb

/-- The rest of a frame: the card goes on sending meanwhile, and acts on the frame at its end. -/
theorem run_sendAll_rest {rx : List UInt8} (hrx : rx ≠ []) (hbs : bs ≠ [])
    (hlen : rx.length + bs.length = 6) (h : c.Listening rx) :
    Run (sendAll bs) (⟨m, c, v⟩ : Mcu Card SdVars) fun _ t ↦
      ∃ c', Same c c' ∧ c'.selected = true ∧ t = ⟨m, c'.execute (rx ++ bs), v⟩ := by
  induction bs generalizing rx c with
  | nil => exact absurd rfl hbs
  | cons b bs ih =>
      have hreceive := receive_frame h.shiftOut hrx b
      rw [sendAll, run_bind, run_of_eq (readWriteByte_apply _ _), exchange_of_selected h.selected,
        hreceive]
      cases bs with
      | nil =>
          have hlen₅ : ¬ rx.length < 5 := by
            rw [List.length_singleton] at hlen
            omega
          rw [if_neg hlen₅, sendAll, run_pure]
          exact ⟨c.shiftOut.2, same_shiftOut, h.shiftOut.selected, rfl⟩
      | cons b' bs =>
          have hlen₅ : rx.length < 5 := by
            rw [List.length_cons, List.length_cons] at hlen
            omega
          have hnext : Listening { c.shiftOut.2 with rx := rx ++ [b] } (rx ++ [b]) :=
            ⟨h.shiftOut.selected, rfl, h.shiftOut.mode⟩
          rw [if_pos hlen₅]
          refine (ih (List.append_ne_nil_of_right_ne_nil _ (List.cons_ne_nil _ _))
            (List.cons_ne_nil _ _) ?_ hnext).mono ?_
          · rw [List.length_cons] at hlen
            rw [List.length_append, List.length_singleton]
            omega
          · rintro _ t ⟨c', hsame, hsel, rfl⟩
            have hrx' : Same c.shiftOut.2 { c.shiftOut.2 with rx := rx ++ [b] } :=
              ⟨rfl, rfl, rfl, rfl, rfl, rfl⟩
            refine ⟨c', (same_shiftOut.trans hrx').trans hsame, hsel, ?_⟩
            rw [List.append_assoc]
            rfl

/-- A whole frame. -/
theorem run_sendAll_frame {cmd : UInt8} (hcmd : (cmd ||| 0x40) &&& 0xC0 = 0x40) (arg : UInt32)
    (crc : UInt8) (h : c.Listening []) :
    Run (sendAll (cmdFrame cmd arg crc)) (⟨m, c, v⟩ : Mcu Card SdVars) fun _ t ↦
      ∃ c', Same c c' ∧ c'.selected = true ∧ t = ⟨m, c'.execute (cmdFrame cmd arg crc), v⟩ := by
  rw [cmdFrame, sendAll, run_bind, run_of_eq (readWriteByte_apply _ _),
    exchange_of_selected h.selected, receive_opens h.shiftOut hcmd]
  have hnext : Listening { c.shiftOut.2 with rx := [cmd ||| 0x40] } [cmd ||| 0x40] :=
    ⟨h.shiftOut.selected, rfl, h.shiftOut.mode⟩
  refine (run_sendAll_rest (List.cons_ne_nil _ _) (List.cons_ne_nil _ _) rfl hnext).mono ?_
  rintro _ t ⟨c', hsame, hsel, rfl⟩
  have hrx' : Same c.shiftOut.2 { c.shiftOut.2 with rx := [cmd ||| 0x40] } :=
    ⟨rfl, rfl, rfl, rfl, rfl, rfl⟩
  exact ⟨c', (same_shiftOut.trans hrx').trans hsame, hsel, rfl⟩

/-- The argument is received as it was sent. -/
theorem frameArg_cmdFrame (cmd : UInt8) (arg : UInt32) (crc : UInt8) :
    frameArg (cmdFrame cmd arg crc) = arg.toNat := by
  have h : arg.toNat < 2 ^ 32 := arg.toNat_lt
  simp only [frameArg, cmdFrame, List.getD_cons_succ, List.getD_cons_zero, UInt32.toNat_toUInt8,
    UInt32.toNat_shiftRight, Nat.shiftRight_eq_div_pow]
  simp
  omega

/-- The card after a reaction, the reply having been sent. -/
def Card.reacted (c : Card) (r : Reaction) : Card :=
  Card.queue
    { c with
      selected := true
      rx := []
      mode := r.mode
      app := r.app
      waking := r.waking
      tick := c.tick + 1 }
    r.body

/-- The same, for a reaction that does not need the queue to be filled again. -/
def Card.enter (c : Card) (r : Reaction) : Card :=
  { c with
    selected := true
    rx := []
    mode := r.mode
    app := r.app
    waking := r.waking
    tick := c.tick + 1
    out := r.body }

theorem reacted_eq_enter {r : Reaction} (h : r.body ≠ [] ∨ ∀ a, r.mode ≠ .reading a) :
    c.reacted r = c.enter r := by
  rcases h with h | h
  · exact queue_of_ne_nil h
  · have hstill : Still { c with
        selected := true
        rx := []
        mode := r.mode
        app := r.app
        waking := r.waking
        tick := c.tick + 1 } := h
    exact queue_of_still hstill r.body

/-- A command number that fits its frame byte. -/
structure Number (cmd : UInt8) : Prop where
  opens : (cmd ||| 0x40) &&& 0xC0 = 0x40
  decoded : (cmd ||| 0x40) &&& 0x3F = cmd

/-- Every reply is one: its top bit is clear. -/
theorem react_r1 (cmd : UInt8) (arg : Nat) : (c.react cmd arg).r1 &&& 0x80 = 0 := by
  unfold Card.react Card.rouse Card.work Card.reset
  repeat' split
  all_goals
    dsimp only
    decide

/-- **`SD_SendCmd`** before a card: the reply of the card is returned. -/
theorem run_sdSendCmd_card {cmd : UInt8} (hcmd : Number cmd) (arg : UInt32) (crc : UInt8)
    (hsoon : Soon c) (hmode : ∀ multi a, c.mode ≠ .writing multi a) :
    Run (sdSendCmd cmd arg crc) (⟨m, c, v⟩ : Mcu Card SdVars) fun r1 t ↦
      ∃ c', Same c c' ∧ r1 = (c'.react cmd arg.toNat).r1 ∧
        t = ⟨m, c'.reacted (c'.react cmd arg.toNat), v⟩ := by
  have hselect := run_sdSelect (m := m) (v := v) hsoon hmode
  rw [run_bind] at hselect
  rw [sdSendCmd, run_bind]
  refine hselect.mono ?_
  intro _ s hs
  refine hs.bind ?_
  rintro _ _ ⟨rfl, c₁, hsame₁, hlisten, rfl⟩
  rw [if_neg (by simp)]
  refine (run_sendAll_frame hcmd.opens arg crc hlisten).bind ?_
  rintro _ _ ⟨c₂, hsame₂, hsel, rfl⟩
  refine run_bind.2 ?_
  have hexec : c₂.execute (cmdFrame cmd arg crc) =
      { c₂ with
        rx := []
        mode := (c₂.react cmd arg.toNat).mode
        app := (c₂.react cmd arg.toNat).app
        waking := (c₂.react cmd arg.toNat).waking
        tick := c₂.tick + 1
        out := (if cmd = CMD12 then [c₂.timing.stuff c₂.tick] else []) ++
          (List.replicate (c₂.timing.ncr c₂.tick) 0xFF ++
            (c₂.react cmd arg.toNat).r1 :: (c₂.react cmd arg.toNat).body) } := by
    have hhead : (cmdFrame cmd arg crc).headD 0 &&& 0x3F = cmd := hcmd.decoded
    rw [execute, hhead, frameArg_cmdFrame]
  generalize hr : c₂.react cmd arg.toNat = r at hexec
  -- Before the reply, and after the byte that `CMD12` has first.
  let c₃ : Card := { c₂ with
    rx := []
    mode := r.mode
    app := r.app
    waking := r.waking
    tick := c₂.tick + 1
    out := List.replicate (c₂.timing.ncr c₂.tick) 0xFF ++ r.r1 :: r.body }
  have hskip : when (cmd == CMD12) (do let _ ← readWriteByte 0xFF)
      (⟨m, c₂.execute (cmdFrame cmd arg crc), v⟩ : Mcu Card SdVars) = some ((), ⟨m, c₃, v⟩) := by
    rw [hexec]
    by_cases h12 : cmd = CMD12
    · have hx := exchange_cons (c := { c₃ with out := c₂.timing.stuff c₂.tick :: c₃.out })
        ⟨hsel, rfl⟩ rfl
      rw [queue_out, queue_append_cons] at hx
      rw [if_pos h12, beq_iff_eq.2 h12, when_true, bind_apply, readWriteByte_apply]
      exact congrArg (fun x ↦ some ((), (⟨m, x.2, v⟩ : Mcu Card SdVars))) hx
    · rw [if_neg h12, beq_eq_false_iff_ne.2 h12, when_false]
      rfl
  have hncr : (c₂.timing.ncr c₂.tick : Nat) ≤ 0x1F := by
    have := (c₂.timing.ncr c₂.tick).isLt
    omega
  have hr1 : r.r1 &&& 0x80 = 0 := hr ▸ react_r1 cmd arg.toNat
  have hpoll : poll (readWriteByte 0xFF) (fun b ↦ b &&& 0x80 == 0) 0x1F
      (⟨m, c₃, v⟩ : Mcu Card SdVars) =
        some ((r.r1, 0x1F - (c₂.timing.ncr c₂.tick : Nat)), ⟨m, c₃.queue r.body, v⟩) :=
    poll_queue (fun b ↦ b &&& 0x80 == 0) 0xFF rfl (beq_iff_eq.2 hr1) hncr ⟨hsel, rfl⟩ rfl
  rw [run_of_eq hskip, run_bind, run_of_eq hpoll, run_pure]
  refine ⟨c₂, hsame₁.trans hsame₂, by rw [hr], ?_⟩
  rw [hr, reacted, ← hsel]
  rfl

/-! ## Blocks received -/

/-- Reading the bytes of a block from the queue. -/
theorem recvBytes_card {f : Nat → UInt8} (h : c.Attentive) (buf n a : Nat)
    (hout : c.out = slice f a n ++ b :: bs) :
    forRange n (fun i ↦ do
        let b ← readWriteByte 0xFF
        store (buf + i) b) (⟨m, c, v⟩ : Mcu Card SdVars) =
      some ((), ⟨overlay m buf n fun i ↦ f (a + i), { c with out := b :: bs }, v⟩) := by
  have hdrop (k : Nat) (hk : k < n) : slice f (a + k) (n - k) ++ b :: bs =
      f (a + k) :: (slice f (a + (k + 1)) (n - (k + 1)) ++ b :: bs) := by
    obtain ⟨l, hl⟩ : ∃ l, n - k = l + 1 := ⟨n - k - 1, by omega⟩
    have hl' : n - (k + 1) = l := by omega
    rw [hl, slice_succ', hl']
    rfl
  have hloop := run_forRange (n := n) (f := fun i ↦ do
      let b ← readWriteByte 0xFF
      store (buf + i) b) (fun k (t : Mcu Card SdVars) ↦ t =
    ⟨overlay m buf k fun i ↦ f (a + i),
      { c with out := slice f (a + k) (n - k) ++ b :: bs }, v⟩) (s := ⟨m, c, v⟩) ?_ ?_
  · rw [hloop.eq, Nat.sub_self]
    rfl
  · rintro k _ hk rfl
    have hx := exchange_cons (c := { c with out := slice f (a + k) (n - k) ++ b :: bs })
      ⟨h.selected, h.rx⟩ (hdrop k hk)
    rw [queue_out, queue_append_cons] at hx
    refine .of_eq (a := ()) ?_ rfl
    rw [bind_apply, readWriteByte_apply, hx, Option.bind_some, store_apply, overlay_succ]
  · rw [overlay_zero, Nat.sub_zero, Nat.add_zero, ← hout]

/-- **`SD_RecvData`** of a block that the card is about to send. -/
theorem sdRecvData_card (h : c.Attentive) {g : Nat} (hg : g < 65535) {f : Nat → UInt8} {a : Nat}
    {x y : UInt8} (hout : c.out = List.replicate g 0xFF ++ 0xFE :: (slice f a 512 ++ [x, y]))
    (buf : Nat) :
    sdRecvData buf 512 (⟨m, c, v⟩ : Mcu Card SdVars) =
      some (0, ⟨overlay m buf 512 fun i ↦ f (a + i), c.queue [], v⟩) := by
  have hpoll : poll (readWriteByte 0xFF) (fun b ↦ b == 0xFE) 0xFFFF (⟨m, c, v⟩ : Mcu Card SdVars) =
      some ((0xFE, 0xFFFF - g), ⟨m, c.queue (slice f a 512 ++ [x, y]), v⟩) :=
    poll_queue (fun b ↦ b == 0xFE) 0xFF rfl rfl hg.le h hout
  have hleft : 0xFFFF - g ≠ 0 := by omega
  have hresp : sdGetResponse 0xFE (⟨m, c, v⟩ : Mcu Card SdVars) =
      some (0, ⟨m, c.queue (slice f a 512 ++ [x, y]), v⟩) := by
    rw [sdGetResponse, bind_of_eq hpoll, pure_apply, if_neg hleft]
    rfl
  have hx := exchange_cons (c := { c with out := [x, y] }) ⟨h.selected, h.rx⟩ rfl
  have hy := exchange_cons (c := { c with out := [y] }) ⟨h.selected, h.rx⟩ rfl
  rw [queue_out, queue_of_ne_nil (List.cons_ne_nil y [])] at hx
  rw [queue_out] at hy
  rw [sdRecvData, bind_of_eq hresp, if_neg (by simp), queue_append_cons,
    show (512 : UInt16).toNat = 512 from rfl, bind_of_eq (recvBytes_card
      (c := { c with out := slice f a 512 ++ [x, y] }) ⟨h.selected, h.rx⟩ buf 512 a rfl)]
  simp only [bind_apply, readWriteByte_apply, hx, hy, Option.bind_some, pure_apply]

/-- A card that has nothing to say lets the driver wait for its token in vain. -/
theorem sdRecvData_silent (h : c.Attentive) (hout : c.out = []) (buf : Nat) (len : UInt16) :
    sdRecvData buf len (⟨m, c, v⟩ : Mcu Card SdVars) = some (1, ⟨m, c, v⟩) := by
  have hpoll (k : Nat) : poll (readWriteByte 0xFF) (fun b ↦ b == 0xFE) k
      (⟨m, c, v⟩ : Mcu Card SdVars) = some ((0xFF, 0), ⟨m, c, v⟩) := by
    have hx := exchange_nil h hout
    induction k with
    | zero => rw [poll, bind_apply, readWriteByte_apply, hx, Option.bind_some, pure_apply]
    | succ k ih =>
        rw [poll, bind_apply, readWriteByte_apply, hx, Option.bind_some,
          show ((0xFF : UInt8) == 0xFE) = false from rfl, if_neg Bool.false_ne_true, ih]
  have hresp : sdGetResponse 0xFE (⟨m, c, v⟩ : Mcu Card SdVars) = some (0xFF, ⟨m, c, v⟩) := by
    rw [sdGetResponse, bind_of_eq (hpoll _), pure_apply, if_pos rfl]
    rfl
  rw [sdRecvData, bind_of_eq hresp, if_pos (by decide), pure_apply]

/-! ## Blocks sent -/

/-- A byte of a block that has begun. -/
theorem receive_block {multi : Bool} {a : Nat} {rx : List UInt8} (hmode : c.mode = .writing multi a)
    (hrx : c.rx = rx) (hne : rx ≠ []) (b : UInt8) :
    c.receive b =
      if rx.length < 514 then { c with rx := rx ++ [b] } else c.storeBlock multi a rx.tail := by
  obtain ⟨kind, sectors, hsectors, cell, timing, tick, selected, mode, app, waking, rx, out⟩ := c
  obtain rfl : mode = _ := hmode
  obtain rfl : rx = _ := hrx
  cases rx with
  | nil => exact absurd rfl hne
  | cons r rs => rfl

theorem exchange_quiet {b : UInt8} (hsel : c.selected = true) (hout : c.out = []) :
    SpiDevice.exchange b c = (0xFF, c.receive b) := by
  rw [exchange_of_selected hsel, shiftOut_of_nil hout]

/-- Sending the bytes of a block. -/
theorem sendBytes_card {multi : Bool} {a : Nat} (hsel : c.selected = true) (hout : c.out = [])
    (hmode : c.mode = .writing multi a) (hrx : c.rx = [b]) (buf : Nat) :
    sendBytes buf (⟨m, c, v⟩ : Mcu Card SdVars) =
      some ((), ⟨m, { c with rx := b :: slice m buf 512 }, v⟩) := by
  refine (run_forRange (fun k (t : Mcu Card SdVars) ↦ t =
    ⟨m, { c with rx := b :: slice m buf k }, v⟩) ?_ (by rw [slice_zero, ← hrx])).eq
  rintro k _ hk rfl
  have hlen : (b :: slice m buf k).length < 514 := by
    rw [List.length_cons, length_slice]
    omega
  have hx := exchange_quiet (c := { c with rx := b :: slice m buf k }) (b := m (buf + k)) hsel hout
  rw [receive_block (c := { c with rx := b :: slice m buf k }) hmode rfl (List.cons_ne_nil _ _),
    if_pos hlen] at hx
  refine .of_eq (a := ()) ?_ rfl
  rw [bind_apply, load_apply, Option.bind_some, bind_apply, readWriteByte_apply, hx,
    Option.bind_some, slice_succ]
  rfl

/-- The card after it has stored a block. -/
def Card.written (c : Card) (multi : Bool) (a : Nat) (f : Nat → UInt8) : Card :=
  { c with
    cell := overlay c.cell (512 * a) 512 f
    rx := []
    mode := if multi then .writing true (a + 1) else .idle
    tick := c.tick + 1
    out := c.busyBytes }

theorem still_of_writing {multi : Bool} {a : Nat} (h : c.mode = .writing multi a) : c.Still := by
  intro x hx
  exact Mode.noConfusion (h.symm.trans hx)

/-- The token that begins a block. -/
theorem receive_token {multi : Bool} {a : Nat} (hmode : c.mode = .writing multi a)
    (hrx : c.rx = []) : c.receive (startToken multi) = { c with rx := [startToken multi] } := by
  obtain ⟨kind, sectors, hsectors, cell, timing, tick, selected, mode, app, waking, rx, out⟩ := c
  obtain rfl : mode = _ := hmode
  obtain rfl : rx = _ := hrx
  exact if_pos rfl

/-- The token that ends a multiple write. -/
theorem receive_stop {a : Nat} (hmode : c.mode = .writing true a) (hrx : c.rx = []) :
    c.receive 0xFD = { c with mode := .idle, tick := c.tick + 1, out := c.busyBytes } := by
  obtain ⟨kind, sectors, hsectors, cell, timing, tick, selected, mode, app, waking, rx, out⟩ := c
  obtain rfl : mode = _ := hmode
  obtain rfl : rx = _ := hrx
  rfl

/-- What becomes of a block does not depend on what the card had to say. -/
theorem storeBlock_out (multi : Bool) (a : Nat) (block rx out : List UInt8) :
    Card.storeBlock { c with rx := rx, out := out } multi a block = c.storeBlock multi a block := by
  rw [storeBlock, storeBlock]
  rfl

/-- **`SD_SendBlock`** to a card that awaits the block: the result is the response of the card. -/
theorem sdSendBlock_answered {multi : Bool} {a : Nat} {resp : UInt8} (h : c.Attentive)
    (hmode : c.mode = .writing multi a) {n : Nat} (hn : n < 0xFFFFFF)
    (hout : c.out = List.replicate n 0x00) {buf : Nat}
    (hstore : c.storeBlock multi a (slice m buf 512 ++ [0xFF]) = c') (hatt : c'.Attentive)
    (hresp : c'.out = resp :: bs) :
    sdSendBlock buf (startToken multi) (⟨m, c, v⟩ : Mcu Card SdVars) =
      some (if resp &&& 0x1F ≠ 0x05 then 2 else 0, ⟨m, c'.queue bs, v⟩) := by
  have hstop : startToken multi ≠ 0xFD := by cases multi <;> decide
  -- The states of the card: ready, begun, filled, and with the first byte of the checksum.
  let c₁ : Card := { c with out := [] }
  let c₂ : Card := { c₁ with rx := [startToken multi] }
  let c₃ : Card := { c₁ with rx := startToken multi :: slice m buf 512 }
  let c₄ : Card := { c₁ with rx := startToken multi :: slice m buf 512 ++ [0xFF] }
  have htoken : SpiDevice.exchange (startToken multi) c₁ = (0xFF, c₂) := by
    rw [exchange_quiet (c := c₁) h.selected rfl, receive_token (c := c₁) hmode h.rx]
  have hdata : sendBytes buf (⟨m, c₂, v⟩ : Mcu Card SdVars) = some ((), ⟨m, c₃, v⟩) :=
    sendBytes_card (c := c₂) h.selected rfl hmode rfl buf
  have hcrc₁ : SpiDevice.exchange 0xFF c₃ = (0xFF, c₄) := by
    have hlen : (startToken multi :: slice m buf 512).length < 514 := by simp
    rw [exchange_quiet (c := c₃) h.selected rfl,
      receive_block (c := c₃) hmode rfl (List.cons_ne_nil _ _), if_pos hlen]
  have hcrc₂ : SpiDevice.exchange 0xFF c₄ = (0xFF, c') := by
    have hlen : ¬ (startToken multi :: slice m buf 512 ++ [0xFF]).length < 514 := by simp
    have hsame : c₄.storeBlock multi a (slice m buf 512 ++ [0xFF]) = c' :=
      (storeBlock_out multi a _ _ _).trans hstore
    rw [exchange_quiet (c := c₄) h.selected rfl,
      receive_block (c := c₄) hmode rfl (List.cons_ne_nil _ _), if_neg hlen]
    exact congrArg (Prod.mk 0xFF) hsame
  have hx := exchange_cons hatt hresp
  rw [sdSendBlock, bind_of_eq (sdWaitReady_busy h (still_of_writing hmode) hn hout),
    if_neg (by simp),
    bind_apply, readWriteByte_apply, htoken, Option.bind_some, if_pos hstop, bind_of_eq hdata]
  simp only [bind_apply, readWriteByte_apply, hcrc₁, hcrc₂, hx, Option.bind_some, pure_apply]

/-- The end of a block: the data is stored. -/
theorem storeBlock_slice {multi : Bool} {a buf : Nat} (ha : a < c.sectors) :
    c.storeBlock multi a (slice m buf 512 ++ [0xFF]) =
      { c.written multi a fun i ↦ m (buf + i) with out := 0x05 :: c.busyBytes } := by
  have hget : overlay c.cell (512 * a) 512 (fun i ↦ (slice m buf 512 ++ [0xFF]).getD i 0) =
      overlay c.cell (512 * a) 512 fun i ↦ m (buf + i) := by
    refine overlay_congr fun i hi ↦ ?_
    have hlen : i < (slice m buf 512).length := by rwa [length_slice]
    rw [List.getD_append _ _ _ _ hlen, List.getD_eq_getElem _ _ hlen, getElem_slice]
  rw [storeBlock, if_pos ha, hget]
  rfl

/-- A block for a sector of the card is stored. -/
theorem sdSendBlock_card {multi : Bool} {a : Nat} (h : c.Attentive)
    (hmode : c.mode = .writing multi a) (ha : a < c.sectors) {n : Nat} (hn : n < 0xFFFFFF)
    (hout : c.out = List.replicate n 0x00) (buf : Nat) :
    sdSendBlock buf (startToken multi) (⟨m, c, v⟩ : Mcu Card SdVars) =
      some (0, ⟨m, c.written multi a fun i ↦ m (buf + i), v⟩) := by
  have hstill : (c.written multi a fun i ↦ m (buf + i)).Still := by
    cases multi <;> exact fun _ ↦ Mode.noConfusion
  rw [sdSendBlock_answered h hmode hn hout (storeBlock_slice ha) ⟨h.selected, rfl⟩ rfl, queue_out,
    queue_of_still hstill]
  rfl

/-- The card after it has refused a block of a multiple write. -/
def Card.refused (c : Card) (a : Nat) : Card :=
  { c with rx := [], mode := .writing true (a + 1), out := [] }

/-- A block for a sector beyond the card is refused. -/
theorem sdSendBlock_refused {a : Nat} (h : c.Attentive) (hmode : c.mode = .writing true a)
    (ha : ¬ a < c.sectors) {n : Nat} (hn : n < 0xFFFFFF) (hout : c.out = List.replicate n 0x00)
    (buf : Nat) : sdSendBlock buf (startToken true) (⟨m, c, v⟩ : Mcu Card SdVars) =
      some (2, ⟨m, c.refused a, v⟩) := by
  have hstore : c.storeBlock true a (slice m buf 512 ++ [0xFF]) =
      { c.refused a with out := [0x0D] } := if_neg ha
  have hstill : (c.refused a).Still := still_of_writing rfl
  rw [sdSendBlock_answered h hmode hn hout hstore ⟨h.selected, rfl⟩ rfl, queue_out,
    queue_of_still hstill]
  rfl

/-- **`SD_SendBlock`** of the stop token ends a multiple write. -/
theorem sdSendBlock_stop_card {a : Nat} (h : c.Attentive) (hmode : c.mode = .writing true a)
    {n : Nat} (hn : n < 0xFFFFFF) (hout : c.out = List.replicate n 0x00) (buf : Nat) :
    sdSendBlock buf 0xFD (⟨m, c, v⟩ : Mcu Card SdVars) =
      some (0, ⟨m, { c with mode := .idle, tick := c.tick + 1, out := c.busyBytes }, v⟩) := by
  have htoken : SpiDevice.exchange 0xFD ({ c with out := [] } : Card) =
      (0xFF, { c with mode := .idle, tick := c.tick + 1, out := c.busyBytes }) := by
    rw [exchange_quiet (c := { c with out := [] }) h.selected rfl,
      receive_stop (c := { c with out := [] }) hmode h.rx]
    rfl
  rw [sdSendBlock, bind_of_eq (sdWaitReady_busy h (still_of_writing hmode) hn hout),
    if_neg (by simp), bind_apply, readWriteByte_apply, htoken, Option.bind_some, if_neg (by simp)]
  rfl

end Stm32F1.Sd
