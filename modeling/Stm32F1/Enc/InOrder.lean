import Stm32F1.Enc.Receive
import Stm32F1.Enc.Coherent

/-!
# Frames in order

`ENC28J60_Init` leaves an empty ring.  From then on every call of
`ENC28J60_Packet_Receive` takes the next frame that the chip has stored, whatever
arrives before, between and during the calls.
-/

namespace Stm32F1.Enc

open Prog Mcu Enc28j60

variable {old : List (Access (Framed Enc28j60))} {m : Nat → UInt8} {next maxlen : UInt32}
  {s : Board} {p d w : Nat} {c : Enc28j60} {f : Frame} {taken front : List Frame} {r v : UInt8}
  {g : UInt8 → UInt8}

/-! ## The chip before its receiver is on -/

/-- Nothing is received and nothing is sent; the registers but `ECON1` are as in `g`. -/
structure Resting (g : UInt8 → UInt8) (d w : Nat) (c : Enc28j60) : Prop where
  rxen : c.regs ECON1 &&& ECON1_RXEN = 0
  tx : c.tx = none
  epktcnt : c.epktcnt = 0
  stored : c.stored = []
  regs : ∀ r, r ≠ ECON1 → c.regs r = g r
  erxrdpt : c.erxrdpt = d
  erxwrpt : c.erxwrpt = w

theorem calm_resting : Calm (Resting g d w) where
  pass c h := by
    have harrive : (c.course.arrivals c.time).foldl receive c = c := by
      refine foldl_receive (I := fun d ↦ d = c) ?_ _ rfl
      rintro _ f rfl
      exact if_neg fun hon ↦ hon.1 h.rxen
    have htransmit : c.transmit = c := by rw [transmit, h.tx]
    have hpass : c.pass = { c.access with time := c.time + 1 } := by
      rw [Enc28j60.pass, harrive, htransmit]
    rw [hpass, access]
    split <;> exact ⟨h.rxen, h.tx, h.epktcnt, h.stored, h.regs, h.erxrdpt, h.erxwrpt⟩
  econ1 c v hv h := by
    refine ⟨?_, h.tx, h.epktcnt, h.stored, fun r hr ↦ (c.withEcon1_of_ne hr v).trans (h.regs r hr),
      h.erxrdpt, h.erxwrpt⟩
    rw [withEcon1_econ1, hv, h.rxen]
  looked c r h := by
    rw [looked]
    split
    · exact ⟨h.rxen, h.tx, h.epktcnt, h.stored, h.regs, h.erxrdpt, h.erxwrpt⟩
    · exact h

theorem resting_reset (c : Enc28j60) : Resting resetRegs 0x05FA 0 c.reset := by
  have hrxen : resetRegs ECON1 &&& ECON1_RXEN = 0 := by decide
  exact ⟨hrxen, rfl, rfl, rfl, fun _ _ ↦ rfl, rfl, rfl⟩

/-- What a write makes of the registers and the bounds of the free cells. -/
def lay (x : (UInt8 → UInt8) × Nat × Nat) (p : UInt8 × UInt8) : (UInt8 → UInt8) × Nat × Nat :=
  let g := Function.update x.1 p.1 p.2
  (g, if p.1 = ERXRDPTH then pointer g ERXRDPTL else x.2.1,
    if p.1 = ERXSTL ∨ p.1 = ERXSTH then pointer g ERXSTL else x.2.2)

/-- A register that `ENC28J60_Init` lays the buffers out with. -/
def Laying (r : UInt8) : Prop :=
  ¬ ReadOnly r ∧ r ≠ ECON1 ∧ r ≠ ECON2 ∧ r ≠ MIWRH ∧ r ≠ MICMD

instance (r : UInt8) : Decidable (Laying r) := inferInstanceAs (Decidable (_ ∧ _))

theorem Resting.poke (hr : Laying r) (h : Resting g d w c) (v : UInt8) :
    Resting (lay (g, d, w) (r, v)).1 (lay (g, d, w) (r, v)).2.1 (lay (g, d, w) (r, v)).2.2
      (c.poke r v) := by
  obtain ⟨hro, he₁, he₂, hw, hm⟩ := hr
  have hregs (r' : UInt8) (hr' : r' ≠ ECON1) :
      Function.update c.regs r v r' = Function.update g r v r' := by
    by_cases heq : r' = r
    · rw [heq, Function.update_self, Function.update_self]
    · rw [Function.update_of_ne heq, Function.update_of_ne heq, h.regs r' hr']
  have hptr {lo : UInt8} (hlo : lo ≠ ECON1) (hhi : lo + 1 ≠ ECON1) :
      pointer (Function.update c.regs r v) lo = pointer (Function.update g r v) lo := by
    rw [pointer, hregs _ hlo, hregs _ hhi, pointer]
  have hrxen : Function.update c.regs r v ECON1 &&& ECON1_RXEN = 0 := by
    rw [Function.update_of_ne (Ne.symm he₁), h.rxen]
  by_cases hrd : r = ERXRDPTH
  · subst hrd
    exact ⟨hrxen, h.tx, h.epktcnt, h.stored, hregs, hptr (by decide) (by decide), h.erxwrpt⟩
  have hkeep : (lay (g, d, w) (r, v)).2.1 = d := if_neg hrd
  by_cases hst : r = ERXSTL ∨ r = ERXSTH
  · rw [poke_erxst hst, hkeep]
    refine ⟨hrxen, h.tx, h.epktcnt, h.stored, hregs, h.erxrdpt, ?_⟩
    exact (hptr (by decide) (by decide)).trans (if_pos hst).symm
  · have hkeep' : (lay (g, d, w) (r, v)).2.2 = w := if_neg hst
    rw [not_or] at hst
    rw [poke_plain ⟨hro, hrd, hst.1, hst.2, he₁, he₂, hw, hm⟩, hkeep, hkeep']
    exact ⟨hrxen, h.tx, h.epktcnt, h.stored, hregs, h.erxrdpt, h.erxwrpt⟩

/-- A series of writes. -/
theorem run_lay {l : List (UInt8 × UInt8)} (hl : ∀ p ∈ l, Named p.1 ∧ Laying p.1)
    {x : (UInt8 → UInt8) × Nat × Nat} (h : On old (Resting x.1 x.2.1 x.2.2) m next s) :
    Run (writeAll l) s fun _ s' ↦
      On old (Resting (l.foldl lay x).1 (l.foldl lay x).2.1 (l.foldl lay x).2.2) m next s' := by
  induction l generalizing s x with
  | nil => exact run_pure.2 h
  | cons q l ih =>
      obtain ⟨hname, hlaying⟩ := hl q List.mem_cons_self
      refine (h.write calm_resting.toKept hname hlaying.2.1 fun c hc ↦ hc.poke hlaying q.2).bind ?_
      intro _ s' hs'
      exact ih (fun q' hq' ↦ hl q' (List.mem_cons_of_mem q hq')) hs'

/-- The buffers are laid out. -/
theorem run_bufferRegs (h : On old (Resting resetRegs 0x05FA 0) m next s) :
    Run (writeAll bufferRegs) s fun _ s' ↦ On old
      (Resting (bufferRegs.foldl lay (resetRegs, 0x05FA, 0)).1
        (bufferRegs.foldl lay (resetRegs, 0x05FA, 0)).2.1
        (bufferRegs.foldl lay (resetRegs, 0x05FA, 0)).2.2) m next s' := by
  have hall : bufferRegs.all (fun q ↦ Named q.1 ∧ Laying q.1) = true := by decide
  refine run_lay (x := (resetRegs, 0x05FA, 0)) (fun q hq ↦ ?_) h
  exact of_decide_eq_true (List.all_eq_true.1 hall q hq)

/-- The buffers as they are laid out: the ring is empty. -/
theorem ring_of_laid (h : Resting (bufferRegs.foldl lay (resetRegs, 0x05FA, 0)).1
    (bufferRegs.foldl lay (resetRegs, 0x05FA, 0)).2.1
    (bufferRegs.foldl lay (resetRegs, 0x05FA, 0)).2.2 c) : Ring 0 [] [] 0 c := by
  have hst : pointer (bufferRegs.foldl lay (resetRegs, 0x05FA, 0)).1 ERXSTL = 0 := by decide
  have hnd : pointer (bufferRegs.foldl lay (resetRegs, 0x05FA, 0)).1 ERXNDL =
      RXSTOP_INIT.toNat := by
    decide
  have hauto :
      (bufferRegs.foldl lay (resetRegs, 0x05FA, 0)).1 ECON2 &&& ECON2_AUTOINC ≠ 0 := by decide
  have hrd : (bufferRegs.foldl lay (resetRegs, 0x05FA, 0)).2.1 = 0 := by decide
  have hwr : (bufferRegs.foldl lay (resetRegs, 0x05FA, 0)).2.2 = 0 := by decide
  have hptr {lo : UInt8} (hlo : lo ≠ ECON1) (hhi : lo + 1 ≠ ECON1) :
      pointer c.regs lo = pointer (bufferRegs.foldl lay (resetRegs, 0x05FA, 0)).1 lo := by
    rw [pointer, h.regs _ hlo, h.regs _ hhi, pointer]
  refine ⟨[], ?_⟩
  exact
    { erxst := (hptr (by decide) (by decide)).trans hst
      erxnd := (hptr (by decide) (by decide)).trans hnd
      autoinc := by
        rw [h.regs _ (by decide)]
        exact hauto
      tx := h.tx
      lt := by decide
      erxrdpt := h.erxrdpt.trans hrd
      erxwrpt := h.erxwrpt.trans hwr
      span := by decide
      epktcnt := h.epktcnt
      count := by rw [h.epktcnt]; decide
      stored := h.stored
      queued := trivial }

/-- The receiver is turned on. -/
theorem Ring.receiving (h : Ring p taken front 0 c) :
    Ring p taken front 0 (c.poke ECON1 (c.peek ECON1 ||| ECON1_RXEN)) := by
  obtain ⟨rest, h⟩ := h
  have htx : (c.peek ECON1 ||| ECON1_RXEN) &&& ECON1_TXRTS = 0 := by
    rw [or_and_of_disjoint rfl, peek_econ1_txrts, h.tx]
    rfl
  rw [poke_econ1, if_pos htx, ← h.tx]
  refine ⟨rest, h.withRegs c.mii fun r _ hne ↦ ?_⟩
  exact Function.update_of_ne hne ..

/-- **`ENC28J60_Init`** leaves an empty ring, or it has seen that the clock of the chip is not
ready. -/
theorem run_init_empty (s : Board) : Run enc28j60Init s fun r s' ↦
    (r = 0 ∧ On s.glob.accesses (Ring 0 [] [] 0) s.mem RXSTART_INIT s') ∨
      (r = 1 ∧ ∃ n, s.dev.chip.course.estat n &&& ESTAT_CLKRDY = 0) := by
  have hsetup : setupRegs.all (fun r ↦ ¬ RingReg r) = true := by decide
  have hresting : Calm (Resting resetRegs 0x05FA 0) := calm_resting
  have hring : Steady RingReg (Ring 0 [] [] 0) := steady_ring
  have hold : ∀ a ∈ s.glob.accesses, a ∈ s.glob.accesses ∨ a.Right := fun a ha ↦ .inl ha
  refine (run_init hresting hring hring
    (fun r hr ↦ of_decide_eq_true (List.all_eq_true.1 hsetup r hr))
    (fun c _ ↦ resting_reset c) (fun m s' hs' ↦ ?_) (fun c hc ↦ hc.receiving) hold).mono ?_
  · exact (run_bufferRegs hs').mono fun _ _ h ↦ h.mono fun c hc ↦ ring_of_laid hc
  · rintro r s' (hs' | ⟨hr, -, hslow⟩)
    · exact .inl hs'
    · exact .inr ⟨hr, hslow⟩

theorem run_init_ring (s : Board) : Run enc28j60Init s fun r s' ↦
    r = 0 → On s.glob.accesses (Ring 0 [] [] 0) s.mem RXSTART_INIT s' := by
  refine (run_init_empty s).mono ?_
  rintro r s' (⟨-, hs'⟩ | ⟨rfl, -⟩) hzero
  · exact hs'
  · exact absurd hzero (by decide)

/-- A chip whose clock is ready is initialised. -/
theorem run_init_ready (hready : ∀ n, s.dev.chip.course.estat n &&& ESTAT_CLKRDY ≠ 0) :
    Run enc28j60Init s fun r _ ↦ r = 0 := by
  refine (run_init_empty s).mono ?_
  rintro r s' (⟨rfl, -⟩ | ⟨-, n, hslow⟩)
  · rfl
  · exact absurd hslow (hready n)

/-! ## One call -/

/-- The count of frames is told in a byte. -/
theorem Ring.peek_epktcnt (h : Ring p taken front 0 c) : ∃ rest, Ring p taken (front ++ rest) 0 c ∧
    (c.peek EPKTCNT = 0 ↔ front ++ rest = []) := by
  obtain ⟨rest, h⟩ := h
  refine ⟨rest, ⟨[], by rwa [List.append_nil]⟩, ?_⟩
  have hpeek : c.peek EPKTCNT = UInt8.ofNat c.epktcnt := rfl
  have hcount := h.count
  rw [hpeek, ← UInt8.toNat_inj, UInt8.toNat_ofNat', ← List.length_eq_zero_iff]
  have hlength := h.epktcnt
  change c.epktcnt % 256 = 0 ↔ _
  omega

/-- **One call** of `ENC28J60_Packet_Receive`: it takes the next frame, or there was none. -/
theorem On.packetReceive_next (hmax : 1 ≤ maxlen) (hnext : next.toNat = p)
    (h : On old (Ring p taken [] 0) m next s) (packet : Nat) :
    Run (enc28j60PacketReceive maxlen packet) s fun ret s' ↦
      (ret = 0 ∧ s.dev.chip.stored = taken ∧ On old (Ring p taken [] 0) m next s') ∨
      ∃ f next', ret.toNat = received f maxlen ∧ next'.toNat = behind p f ∧
        On old (Ring (behind p f) (taken ++ [f]) [] 0) (copied f maxlen packet m) next' s' := by
  obtain ⟨pending, hpending⟩ := h.chip
  have hread : Run (enc28j60Read EPKTCNT) s fun count s' ↦
      (count = 0 ∧ s.dev.chip.stored = taken ∧ On old (Ring p taken [] 0) m next s') ∨
      (count ≠ 0 ∧ ∃ f, On old (Ring p taken [f] 0) m next s') := by
    cases pending with
    | nil =>
        refine (h.read (V := fun count c ↦ (count = 0 ∧ Ring p taken [] 0 c) ∨
          (count ≠ 0 ∧ ∃ f, Ring p taken [f] 0 c)) kept_ring (by decide) fun c hc ↦ ?_).mono ?_
        · obtain ⟨rest, ⟨more, hrest⟩, hzero⟩ := hc.peek_epktcnt
          cases rest with
          | nil => exact .inl ⟨hzero.2 rfl, hc⟩
          | cons f rest =>
              exact .inr ⟨fun h0 ↦ absurd (hzero.1 h0) (List.cons_ne_nil f rest), f,
                rest ++ more, hrest⟩
        · intro count s' hs'
          rcases hs'.chip with ⟨hzero, hring⟩ | ⟨hne, f, hring⟩
          · exact .inl ⟨hzero, hpending.stored.trans (List.append_nil _),
              { hs' with chip := hring }⟩
          · exact .inr ⟨hne, f, { hs' with chip := hring }⟩
    | cons f rest =>
        have hstart : On old (Ring p taken [f] 0) m next s := { h with chip := ⟨rest, hpending⟩ }
        refine (hstart.read (V := fun count c ↦ count ≠ 0 ∧ Ring p taken [f] 0 c) kept_ring
          (by decide) fun c hc ↦ ?_).mono ?_
        · obtain ⟨more, -, hzero⟩ := hc.peek_epktcnt
          exact ⟨fun h0 ↦ absurd (hzero.1 h0) (List.cons_ne_nil f more), hc⟩
        · intro count s' hs'
          exact .inr ⟨hs'.chip.1, f, hs'.mono fun c hc ↦ hc.2⟩
  refine hread.bind ?_
  rintro count s₁ (⟨rfl, hnone, h₁⟩ | ⟨hne, f, h₁⟩)
  · rw [if_pos rfl]
    exact run_pure.2 (.inl ⟨rfl, hnone, h₁⟩)
  · rw [if_neg hne]
    refine (h₁.receivePacket hmax hnext).mono ?_
    rintro ret s₂ ⟨hret, next', hnext', h₂⟩
    exact .inr ⟨f, next', hret, hnext', h₂⟩

/-! ## Whole runs -/

/-- A call of `ENC28J60_Packet_Receive` as it was seen. -/
structure Seen where
  maxlen : UInt32
  packet : Nat
  before : Board
  ret : UInt32
  after : Board

/-- The call, seen. -/
def receiveSeen (cl : UInt32 × Nat) : Prog Board Seen := do
  let before ← Prog.read fun s ↦ s
  let ret ← enc28j60PacketReceive cl.1 cl.2
  let after ← Prog.read fun s ↦ s
  pure ⟨cl.1, cl.2, before, ret, after⟩

/-- There was no frame but those that were taken; the call returned 0 and left the memory alone. -/
def Seen.Idle (o : Seen) (taken : List Frame) : Prop :=
  o.before.dev.chip.stored = taken ∧ o.ret = 0 ∧ o.after.mem = o.before.mem

/-- The call took the frame `f`, which was stored behind those that were taken. -/
def Seen.Takes (o : Seen) (taken : List Frame) (f : Frame) : Prop :=
  taken ++ [f] <+: o.after.dev.chip.stored ∧ o.ret.toNat = received f o.maxlen ∧
    o.after.mem = copied f o.maxlen o.packet o.before.mem

/-- The calls took the frames in the order in which they were stored, each one once. -/
def InOrder : List Frame → List Seen → Prop
  | _, [] => True
  | taken, o :: os =>
      (o.Idle taken ∧ InOrder taken os) ∨ ∃ f, o.Takes taken f ∧ InOrder (taken ++ [f]) os

theorem run_receiveSeen {calls : List (UInt32 × Nat)} (hcalls : ∀ cl ∈ calls, 1 ≤ cl.1)
    (hnext : next.toNat = p) (h : On old (Ring p taken [] 0) m next s) :
    Run (runCalls receiveSeen calls) s fun os _ ↦ InOrder taken os := by
  induction calls generalizing s p taken m next with
  | nil => exact run_pure.2 trivial
  | cons cl calls ih =>
      have hrest := fun cl' hcl' ↦ hcalls cl' (List.mem_cons_of_mem cl hcl')
      have hone : Run (receiveSeen cl) s fun o s' ↦
          (o.Idle taken ∧ On old (Ring p taken [] 0) m next s') ∨
          ∃ f next', o.Takes taken f ∧ next'.toNat = behind p f ∧
            On old (Ring (behind p f) (taken ++ [f]) [] 0) (copied f cl.1 cl.2 m) next' s' := by
        refine run_bind.2 (run_read.2
          ((h.packetReceive_next (hcalls cl List.mem_cons_self) hnext cl.2).bind ?_))
        rintro ret s' (⟨rfl, hnone, hs'⟩ | ⟨f, next', hret, hnext', hs'⟩)
        · refine run_bind.2 (run_read.2 (run_pure.2 (.inl ⟨⟨hnone, rfl, ?_⟩, hs'⟩)))
          exact hs'.mem.trans h.mem.symm
        · refine run_bind.2 (run_read.2 (run_pure.2 (.inr ⟨f, next', ⟨?_, hret, ?_⟩, hnext', hs'⟩)))
          · obtain ⟨rest, hholding⟩ := hs'.chip
            exact ⟨rest, hholding.stored.symm⟩
          · exact hs'.mem.trans (congrArg _ h.mem.symm)
      refine hone.bind ?_
      rintro o s' (⟨hidle, hs'⟩ | ⟨f, next', htakes, hnext', hs'⟩)
      · refine (ih hrest hnext hs').bind ?_
        intro os _ hos
        exact run_pure.2 (.inl ⟨hidle, hos⟩)
      · refine (ih hrest hnext' hs').bind ?_
        intro os _ hos
        exact run_pure.2 (.inr ⟨f, htakes, hos⟩)

/-- **Frames are received in order**: after `ENC28J60_Init`, whatever arrives and whenever. -/
theorem received_in_order {calls : List (UInt32 × Nat)} (hcalls : ∀ cl ∈ calls, 1 ≤ cl.1)
    (s : Board) : Run enc28j60Init s fun r s' ↦ r = 0 →
      Run (runCalls receiveSeen calls) s' fun os _ ↦ InOrder [] os := by
  refine (run_init_ring s).mono ?_
  intro r s' h hzero
  exact run_receiveSeen (p := 0) hcalls rfl (h hzero)

/-- A network on which frames arrive in pairs, the second one broken. -/
def busy : Course :=
  { quiet with
    arrivals := fun t ↦ if t % 200 = 0 then
      [⟨List.replicate 64 0xAA, 0x0080, by decide, by decide⟩,
        ⟨List.replicate 20 0x55, 0x0000, by decide, by decide⟩] else [] }

def busyBoard : Board := { board with dev := ⟨{ board.dev.chip with course := busy }, none⟩ }

/-- Three calls, one of which has only room for the NUL. -/
theorem received_in_order_busy :
    (∀ cl ∈ [((1518 : UInt32), 0x200), (1, 0x300), (1518, 0x200)], 1 ≤ cl.1) ∧
      Run enc28j60Init busyBoard fun r s' ↦ r = 0 ∧
        Run (runCalls receiveSeen [(1518, 0x200), (1, 0x300), (1518, 0x200)]) s' fun os _ ↦
          InOrder [] os := by
  have hcalls : ∀ cl ∈ [((1518 : UInt32), 0x200), (1, 0x300), (1518, 0x200)], 1 ≤ cl.1 := by
    intro cl hcl
    simp only [List.mem_cons, List.not_mem_nil, or_false] at hcl
    rcases hcl with rfl | rfl | rfl <;> exact UInt32.le_iff_toNat_le.2 (by decide)
  have hclkrdy : ESTAT_CLKRDY &&& ESTAT_CLKRDY ≠ 0 := by decide
  obtain ⟨r, s', hrun, horder⟩ := received_in_order hcalls busyBoard
  have hr : r = 0 := (run_init_ready fun _ ↦ hclkrdy).elim hrun
  exact ⟨hcalls, r, s', hrun, hr, horder hr⟩

end Stm32F1.Enc
