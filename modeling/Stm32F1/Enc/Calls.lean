import Stm32F1.Enc.Waits

/-!
# The functions of the driver

What the functions of the driver leave alone: an invariant that rests on some
registers only is kept by a function that writes other ones.
-/

namespace Stm32F1.Enc

open Prog Mcu

variable {old : List (Access (Framed Enc28j60))} {R : UInt8 → Prop} {I I₀ I₁ I₂ : Enc28j60 → Prop}
  {m : Nat → UInt8} {next : UInt32} {s : Board} {addr r v : UInt8}

/-- An invariant that rests on the registers in `R`. -/
structure Steady (R : UInt8 → Prop) (I : Enc28j60 → Prop) : Prop extends Calm I where
  poke : ∀ c r v, ¬ R r → I c → I (Enc28j60.poke c r v)

theorem Calm.and {J : Enc28j60 → Prop} (hI : Calm I) (hJ : Calm J) : Calm fun c ↦ I c ∧ J c where
  toKept := hI.toKept.and hJ.toKept
  looked c r h := ⟨hI.looked c r h.1, hJ.looked c r h.2⟩

theorem Steady.and {R' : UInt8 → Prop} {J : Enc28j60 → Prop} (hI : Steady R I) (hJ : Steady R' J) :
    Steady (fun r ↦ R r ∨ R' r) fun c ↦ I c ∧ J c where
  toCalm := hI.toCalm.and hJ.toCalm
  poke c r v hr h :=
    ⟨hI.poke c r v (fun h' ↦ hr (.inl h')) h.1, hJ.poke c r v (fun h' ↦ hr (.inr h')) h.2⟩

theorem steady_true : Steady (fun _ ↦ False) fun _ ↦ True where
  pass _ _ := trivial
  econ1 _ _ _ _ := trivial
  looked _ _ _ := trivial
  poke _ _ _ _ _ := trivial

theorem calm_course (course : Course) : Calm fun c ↦ c.course = course where
  pass c h := c.pass_course.trans h
  econ1 _ _ _ h := h
  looked c r h := by
    rw [Enc28j60.looked]
    split <;> exact h

/-- The assertion `On` without the memory and `NextPacketPtr`. -/
def At (old : List (Access (Framed Enc28j60))) (I : Enc28j60 → Prop) (s : Board) : Prop :=
  On old I s.mem s.glob.nextPacketPtr s

theorem On.at (h : On old I m next s) : At old I s := by
  obtain ⟨hchip, hbank, rfl, rfl, haccesses⟩ := h
  exact ⟨hchip, hbank, rfl, rfl, haccesses⟩

theorem On.assign (h : On old I m next s) (next' : UInt32) :
    Run (assign fun v ↦ { v with nextPacketPtr := next' }) s fun _ s' ↦ On old I m next' s' :=
  run_modify.2 { h with nextPacketPtr := rfl }

/-- A series of registers is written. -/
theorem On.writeAll (hI : Steady R I) {l : List (UInt8 × UInt8)}
    (hl : ∀ p ∈ l, (Named p.1 ∧ p.1 ≠ ECON1) ∧ ¬ R p.1) (h : On old I m next s) :
    Run (writeAll l) s fun _ s' ↦ On old I m next s' := by
  induction l generalizing s with
  | nil => exact run_pure.2 h
  | cons p l ih =>
      obtain ⟨⟨hname, hne⟩, hp⟩ := hl p List.mem_cons_self
      refine (h.write hI.toKept hname hne fun c hc ↦ hI.poke c p.1 p.2 hp hc).bind ?_
      intro _ s' hs'
      exact ih (fun q hq ↦ hl q (List.mem_cons_of_mem p hq)) hs'

/-! ## The PHY -/

theorem On.phyWrite (hI : Steady R I) (hR : ∀ r ∈ [MIREGADR, MIWRL, MIWRH], ¬ R r)
    (h : On old I m next s) (a : UInt8) (data : UInt16) :
    Run (enc28j60PhyWrite a data) s fun _ s' ↦ On old I m next s' := by
  refine (h.write hI.toKept (by decide) (by decide)
    fun c hc ↦ hI.poke c MIREGADR a (hR _ (by decide)) hc).bind ?_
  intro _ s₁ h₁
  refine (h₁.write hI.toKept (by decide) (by decide)
    fun c hc ↦ hI.poke c MIWRL _ (hR _ (by decide)) hc).bind ?_
  intro _ s₂ h₂
  refine (h₂.write hI.toKept (by decide) (by decide)
    fun c hc ↦ hI.poke c MIWRH _ (hR _ (by decide)) hc).bind ?_
  intro _ s₃ h₃
  exact h₃.waitMii hI.toKept

theorem On.phyRead (hI : Steady R I) (hR : ∀ r ∈ [MIREGADR, MICMD], ¬ R r)
    (h : On old I m next s) (a : UInt8) :
    Run (enc28j60PhyRead a) s fun _ s' ↦ On old I m next s' := by
  have hread {addr : UInt8} (hname : Named addr) {s : Board} (hs : On old I m next s) :
      Run (enc28j60Read addr) s fun _ s' ↦ On old I m next s' :=
    hs.read (V := fun _ ↦ I) hI.toKept hname fun c hc ↦ hI.looked c addr hc
  refine (hread (by decide) h).bind ?_
  intro temp s₁ h₁
  refine (h₁.write hI.toKept (by decide) (by decide)
    fun c hc ↦ hI.poke c MIREGADR a (hR _ (by decide)) hc).bind ?_
  intro _ s₂ h₂
  refine (h₂.write hI.toKept (by decide) (by decide)
    fun c hc ↦ hI.poke c MICMD _ (hR _ (by decide)) hc).bind ?_
  intro _ s₃ h₃
  refine (h₃.waitMii hI.toKept).bind ?_
  intro _ s₄ h₄
  refine (h₄.write hI.toKept (by decide) (by decide)
    fun c hc ↦ hI.poke c MICMD _ (hR _ (by decide)) hc).bind ?_
  intro _ s₅ h₅
  refine (hread (by decide) h₅).bind ?_
  intro lo s₆ h₆
  refine (hread (by decide) h₆).bind ?_
  intro hi s₇ h₇
  exact run_pure.2 h₇

/-! ## Initialisation -/

/-- The registers that `ENC28J60_Init` writes besides those of the buffers and `ECON1`. -/
def setupRegs : List UInt8 :=
  [ERXFCON, EPMM0, EPMM1, EPMCSL, EPMCSH, MACON1, MACON2, MACON3, MAMXFLL, MAMXFLH, MABBIPG, MAIPGL,
    MAIPGH, MAADR5, MAADR4, MAADR3, MAADR2, MAADR1, MAADR0, MIREGADR, MIWRL, MIWRH, MICMD, EIE]

theorem mem_macRegs {macaddr : Vector UInt8 6} {p : UInt8 × UInt8} (h : p ∈ macRegs macaddr) :
    (Named p.1 ∧ p.1 ≠ ECON1) ∧ p.1 ∈ setupRegs := by
  have haddrs : (macRegs macaddr).map Prod.fst = setupRegs.take 19 := rfl
  have hmem : p.1 ∈ setupRegs.take 19 := haddrs ▸ List.mem_map_of_mem h
  have hname : ∀ r ∈ setupRegs.take 19, Named r ∧ r ≠ ECON1 := by decide +kernel
  exact ⟨hname _ hmem, List.mem_of_mem_take hmem⟩

theorem bufferRegs_named {p : UInt8 × UInt8} (h : p ∈ bufferRegs) : Named p.1 ∧ p.1 ≠ ECON1 := by
  have hall : bufferRegs.all (fun p ↦ Named p.1 ∧ p.1 ≠ ECON1) = true := by decide
  exact of_decide_eq_true (List.all_eq_true.1 hall p h)

/-- What `ENC28J60_Init` does with a chip whose clock is ready, told by what it makes of the
registers of the buffers, and of those of the filters and the MAC. -/
theorem On.initChip_via {J : Enc28j60 → Prop} (hI₀ : Calm I₀) (hI₁ : Steady R I₁)
    (hI₂ : Steady R I₂) (hR : ∀ r ∈ [MIREGADR, MIWRL, MIWRH, MICMD, EIE], ¬ R r)
    (hbuffer : ∀ s, On old I₀ m RXSTART_INIT s → Run (Enc.writeAll bufferRegs) s fun _ s' ↦
      On old J m RXSTART_INIT s')
    (hmac : ∀ macaddr s, On old J m RXSTART_INIT s → Run (Enc.writeAll (macRegs macaddr)) s
      fun _ s' ↦ On old I₁ m RXSTART_INIT s')
    (hrxen : ∀ c, I₁ c → I₂ (c.poke ECON1 (c.peek ECON1 ||| ECON1_RXEN)))
    (h : On old I₀ m next s) :
    Run Enc.initChip s fun _ s' ↦ On old I₂ m RXSTART_INIT s' := by
  refine Run.bind (R := fun _ s' ↦ On old I₀ m next s') ?_ ?_
  · refine (h.read (V := fun _ ↦ I₀) hI₀.toKept (by decide) fun c hc ↦
      hI₀.looked c EREVID hc).bind ?_
    intro _ s' hs'
    exact run_pure.2 hs'
  intro _ s₁ h₁
  refine (h₁.assign RXSTART_INIT).bind ?_
  intro _ s₂ h₂
  refine (hbuffer s₂ h₂).bind ?_
  intro _ s₃ h₃
  refine run_bind.2 (run_read.2 ((hmac _ s₃ h₃).bind ?_))
  intro _ s₄ h₄
  have hphy : ∀ r ∈ [MIREGADR, MIWRL, MIWRH], ¬ R r := fun r hr ↦
    hR r (List.mem_append_left [MICMD, EIE] hr)
  refine (h₄.phyWrite hI₁ hphy _ _).bind ?_
  intro _ s₅ h₅
  refine (h₅.phyWrite hI₁ hphy _ _).bind ?_
  intro _ s₆ h₆
  refine (h₆.setBank hI₁.toKept).bind ?_
  intro _ s₇ h₇
  refine (h₇.setBits (J := I₁) hI₁.pass (by decide) rfl (fun c ↦ poke_bsel (by decide) c _)
    fun c hc ↦ hI₁.poke c EIE _ (hR _ (by decide)) hc).bind ?_
  intro _ s₈ h₈
  refine (h₈.setBits hI₁.pass (by decide) rfl (bsel_setBits_econ1 rfl) hrxen).bind ?_
  intro _ s₉ h₉
  have hmii : ∀ r ∈ [MIREGADR, MICMD], r ∈ [MIREGADR, MIWRL, MIWRH, MICMD, EIE] := by decide +kernel
  refine Run.bind (R := fun _ s' ↦ On old I₂ m RXSTART_INIT s') ?_ fun _ _ hs' ↦ run_pure.2 hs'
  exact (h₉.phyRead hI₂ (fun r hr ↦ hR r (hmii r hr)) _).bind fun _ _ hs' ↦ run_pure.2 hs'

/-- What does not rest on the registers of the filters and the MAC. -/
theorem On.initChip (hI₀ : Calm I₀) (hI₁ : Steady R I₁) (hI₂ : Steady R I₂)
    (hR : ∀ r ∈ setupRegs, ¬ R r)
    (hbuffer : ∀ s, On old I₀ m RXSTART_INIT s → Run (Enc.writeAll bufferRegs) s fun _ s' ↦
      On old I₁ m RXSTART_INIT s')
    (hrxen : ∀ c, I₁ c → I₂ (c.poke ECON1 (c.peek ECON1 ||| ECON1_RXEN)))
    (h : On old I₀ m next s) :
    Run Enc.initChip s fun _ s' ↦ On old I₂ m RXSTART_INIT s' := by
  have hsetup : ∀ r ∈ [MIREGADR, MIWRL, MIWRH, MICMD, EIE], r ∈ setupRegs := by decide +kernel
  refine h.initChip_via hI₀ hI₁ hI₂ (fun r hr ↦ hR r (hsetup r hr)) hbuffer
    (fun macaddr s' hs' ↦ ?_) hrxen
  refine hs'.writeAll hI₁ fun p hp ↦ ?_
  obtain ⟨hname, hmem⟩ := mem_macRegs hp
  exact ⟨hname, hR _ hmem⟩

theorem Enc28j60.bsel_reset (c : Enc28j60) : c.reset.bsel = 0 := by
  have hzero : resetRegs ECON1 &&& (0x03 : UInt8) = 0 := by decide
  exact hzero

/-- The reset that is asked for on the bus. -/
theorem run_softReset (hI : Kept I) (hreset : I s.dev.chip.pass.reset) :
    Run (enc28j60WriteOp ENC28J60_SOFT_RESET 0 ENC28J60_SOFT_RESET) s fun _ s' ↦
      ∃ c, I c ∧ c.bsel = 0 ∧ s' = { s with dev := ⟨c, none⟩ } := by
  refine run_bind.2
    (run_modify.2 (run_bind.2 (run_act.2 (run_bind.2 (run_act.2 (run_modify.2 ?_))))))
  refine ⟨s.dev.chip.pass.reset.pass, hI.pass _ hreset, ?_, rfl⟩
  rw [Enc28j60.pass_bsel, Enc28j60.bsel_reset]

/-- **`ENC28J60_Init`**, whatever came before it, told by what it does once the clock is ready.  It
fails only if the clock is seen not to be. -/
theorem run_init_via (hI₀ : Calm I₀) (hreset : ∀ c : Enc28j60, c.course = s.dev.chip.course →
    I₀ c.reset)
    (hchip : ∀ m next s, On old I₀ m next s → Run initChip s fun _ s' ↦ On old I₂ m RXSTART_INIT s')
    (haccesses : ∀ a ∈ s.glob.accesses, a ∈ old ∨ a.Right) :
    Run enc28j60Init s fun r s' ↦
      (r = 0 ∧ On old I₂ s.mem RXSTART_INIT s') ∨
        (r = 1 ∧ On old I₀ s.mem s.glob.nextPacketPtr s' ∧
          ∃ n, s.dev.chip.course.estat n &&& ESTAT_CLKRDY = 0) := by
  have hload (a : Nat) (s : Board) : Run (load32 a) s fun _ s' ↦ s = s' :=
    run_bind.2 (run_read.2 (run_bind.2 (run_read.2 (run_bind.2 (run_read.2 (run_bind.2
      (run_read.2 (run_pure.2 rfl))))))))
  refine (hload UNIQUE_ID s).bind ?_
  rintro temp _ rfl
  refine run_bind.2 (run_modify.2 (run_bind.2 (run_modify.2 (run_bind.2 (run_modify.2 ?_)))))
  let course := s.dev.chip.course
  have hJ : Calm fun c ↦ I₀ c ∧ c.course = course := hI₀.and (calm_course course)
  refine Run.bind (run_softReset hJ.toKept ?_) ?_
  · have hcourse : s.dev.chip.reset.pass.course = course := Enc28j60.pass_course _
    exact ⟨hreset _ hcourse, hcourse⟩
  rintro _ _ ⟨c, hc, hbsel, rfl⟩
  -- The bank need not be known before the first look, and is known behind it.
  have hread (s' : Board) (hchip : I₀ s'.dev.chip ∧ s'.dev.chip.course = course)
      (hmem : s'.mem = s.mem) (hptr : s'.glob.nextPacketPtr = s.glob.nextPacketPtr)
      (hbank : s'.glob.enc28j60bank = 0 → s'.dev.chip.bsel = 0)
      (hacc : ∀ a ∈ s'.glob.accesses, a ∈ old ∨ a.Right) :
      Run (enc28j60Read ESTAT) s' fun v s' ↦
        On old (fun c ↦ (I₀ c ∧ c.course = course) ∧ ∃ n, v = course.estat n) s.mem
          s.glob.nextPacketPtr s' := by
    rw [← hmem, ← hptr]
    refine run_enc28j60Read (V := fun v c ↦ (I₀ c ∧ c.course = course) ∧ ∃ n, v = course.estat n)
      hJ.toKept hJ.pass hJ.pass (by decide) (fun c hc ↦ ⟨hJ.looked c ESTAT hc, c.looks, ?_⟩) hchip
      hbank hacc
    rw [← hc.2]
    rfl
  refine (run_poll
    (Q := fun p s' ↦ On old (fun c ↦ I₀ c ∧ c.course = course) s.mem s.glob.nextPacketPtr s' ∧
      (p.2 ≠ 250 → ∃ n, course.estat n &&& ESTAT_CLKRDY = 0))
    (fun k s' ↦ (I₀ s'.dev.chip ∧ s'.dev.chip.course = course) ∧ s'.mem = s.mem ∧
      s'.glob.nextPacketPtr = s.glob.nextPacketPtr ∧
      (s'.glob.enc28j60bank = 0 → s'.dev.chip.bsel = 0) ∧
      (∀ a ∈ s'.glob.accesses, a ∈ old ∨ a.Right) ∧
      (k ≠ 250 → ∃ n, course.estat n &&& ESTAT_CLKRDY = 0)) ?_ ?_).bind ?_
  · rintro k s' ⟨hchip, hmem, hptr, hbank, hacc, hslow⟩
    refine (hread s' hchip hmem hptr hbank hacc).mono ?_
    intro v s'' hs''
    obtain ⟨hchip'', n, hv⟩ := hs''.chip
    have hon : On old (fun c ↦ I₀ c ∧ c.course = course) s.mem s.glob.nextPacketPtr s'' :=
      { hs'' with chip := hchip'' }
    refine ⟨fun _ ↦ ⟨hon, hslow⟩, fun hbusy _ ↦ ⟨hchip'', hs''.mem, hs''.nextPacketPtr, ?_,
      hs''.accesses, fun _ ↦ ⟨n, ?_⟩⟩⟩
    · intro hzero
      rw [hs''.bank, hzero]
      rfl
    · rw [← hv]
      exact bne_eq_false_iff_eq.1 hbusy
  · exact ⟨hc, rfl, rfl, fun _ ↦ hbsel, haccesses, fun hne ↦ absurd rfl hne⟩
  · rintro ⟨b, left⟩ s' ⟨hs', hslow⟩
    have hs' : On old I₀ s.mem s.glob.nextPacketPtr s' := hs'.mono fun c hc ↦ hc.1
    by_cases hleft : left = 0
    · rw [if_pos hleft]
      subst hleft
      exact run_pure.2 (.inr ⟨rfl, hs', hslow (Nat.zero_ne_add_one 249)⟩)
    · rw [if_neg hleft]
      refine (hchip _ _ s' hs').bind ?_
      intro _ s'' hs''
      exact run_pure.2 (.inl ⟨rfl, hs''⟩)

/-- What does not rest on the registers of the filters and the MAC. -/
theorem run_init (hI₀ : Calm I₀) (hI₁ : Steady R I₁) (hI₂ : Steady R I₂)
    (hR : ∀ r ∈ setupRegs, ¬ R r)
    (hreset : ∀ c : Enc28j60, c.course = s.dev.chip.course → I₀ c.reset)
    (hbuffer : ∀ m s, On old I₀ m RXSTART_INIT s → Run (writeAll bufferRegs) s fun _ s' ↦
      On old I₁ m RXSTART_INIT s')
    (hrxen : ∀ c, I₁ c → I₂ (c.poke ECON1 (c.peek ECON1 ||| ECON1_RXEN)))
    (haccesses : ∀ a ∈ s.glob.accesses, a ∈ old ∨ a.Right) :
    Run enc28j60Init s fun r s' ↦
      (r = 0 ∧ On old I₂ s.mem RXSTART_INIT s') ∨
        (r = 1 ∧ On old I₀ s.mem s.glob.nextPacketPtr s' ∧
          ∃ n, s.dev.chip.course.estat n &&& ESTAT_CLKRDY = 0) :=
  run_init_via hI₀ hreset (fun m _ _ h ↦ h.initChip hI₀ hI₁ hI₂ hR (hbuffer m) hrxen) haccesses

/-! ## Packets -/

/-- `ENC28J60_Packet_Send`, with a look at the board when the transmission has begun. -/
def packetSendTold {α : Type} (look : Board → α) (len : UInt32) (packet : Nat) : Prog Board α := do
  whileM do
    let b ← enc28j60Read ECON1
    pure (b &&& 0x08 != 0)
  Enc.sendBuffer len packet
  enc28j60WriteOp ENC28J60_BIT_FIELD_SET ECON1 ECON1_TXRTS
  let seen ← Prog.read look
  let b ← enc28j60Read EIR
  if b &&& EIR_TXERIF ≠ 0 then do
    enc28j60WriteOp ENC28J60_BIT_FIELD_CLR ECON1 ECON1_TXRTS
    pure seen
  else pure seen

/-- Nothing else is different. -/
theorem packetSendTold_unit {α : Type} (look : Board → α) (len : UInt32) (packet : Nat) :
    (packetSendTold look len packet >>= fun _ ↦ pure ()) = enc28j60PacketSend len packet := by
  have hread (k : α → Prog Board Unit) (s : Board) : (Prog.read look >>= k) s = k (look s) s :=
    bind_of_eq (read_apply look s)
  rw [packetSendTold, enc28j60PacketSend]
  simp only [bind_assoc']
  congr 1
  funext _
  congr 1
  funext _
  congr 1
  funext _ s
  rw [hread]
  refine congrFun (congrArg (enc28j60Read EIR >>= ·) (funext fun b ↦ ?_)) s
  split
  · rfl
  · rfl

/-- `ENC28J60_Packet_Send`, told by what it does while no transmission goes on: the packet goes to
the transmit buffer, then the transmission begins, and may be given up. -/
theorem On.sendTold {α : Type} {look : Board → α} {P : α → Prop} {J : Enc28j60 → Prop}
    {len : UInt32} {packet : Nat} (hI₀ : Kept I₀)
    (hbuffer : ∀ s, On old (fun c ↦ I₀ c ∧ c.tx = none) m next s →
      Run (sendBuffer len packet) s fun _ s' ↦ On old J m next s')
    (hJ : ∀ c, J c → J c.pass) (hset : ∀ c, J c → I (c.poke ECON1 (c.peek ECON1 ||| ECON1_TXRTS)))
    (hlook : ∀ s, On old I m next s → P (look s)) (hI : Calm I)
    (hclear : ∀ c, I c → I (c.poke ECON1 (c.peek ECON1 &&& ~~~ECON1_TXRTS)))
    (h : On old I₀ m next s) :
    Run (packetSendTold look len packet) s fun a s' ↦ P a ∧ On old I m next s' := by
  refine (h.waitEcon1 hI₀).bind ?_
  intro _ s₁ h₁
  refine (hbuffer s₁ h₁).bind ?_
  intro _ s₂ h₂
  refine (h₂.setBits hJ (by decide) rfl (bsel_setBits_econ1 rfl) hset).bind ?_
  intro _ s₃ h₃
  refine run_bind.2 (run_read.2 ?_)
  refine (h₃.read (V := fun _ ↦ I) hI.toKept (by decide) fun c hc ↦ hI.looked c EIR hc).bind ?_
  intro b s₄ h₄
  rw [run_ite]
  split
  · refine (h₄.clearBits hI.pass (by decide) rfl (bsel_clearBits_econ1 rfl) hclear).bind ?_
    intro _ s₅ h₅
    exact run_pure.2 ⟨hlook s₃ h₃, h₅⟩
  · exact run_pure.2 ⟨hlook s₃ h₃, h₄⟩

theorem On.send {J : Enc28j60 → Prop} {len : UInt32} {packet : Nat} (hI₀ : Kept I₀)
    (hbuffer : ∀ s, On old (fun c ↦ I₀ c ∧ c.tx = none) m next s →
      Run (sendBuffer len packet) s fun _ s' ↦ On old J m next s')
    (hJ : ∀ c, J c → J c.pass) (hset : ∀ c, J c → I (c.poke ECON1 (c.peek ECON1 ||| ECON1_TXRTS)))
    (hI : Calm I) (hclear : ∀ c, I c → I (c.poke ECON1 (c.peek ECON1 &&& ~~~ECON1_TXRTS)))
    (h : On old I₀ m next s) :
    Run (enc28j60PacketSend len packet) s fun _ s' ↦ On old I m next s' := by
  rw [← packetSendTold_unit (fun _ ↦ ())]
  refine (h.sendTold (P := fun _ ↦ True) hI₀ hbuffer hJ hset (fun _ _ ↦ trivial) hI hclear).bind ?_
  rintro _ s' ⟨-, hs'⟩
  exact run_pure.2 hs'

/-- The pointers are set, then the control byte and the packet are written. -/
theorem On.sendBuffer_via {J : Enc28j60 → Prop} {len : UInt32} {packet : Nat} (hI : Steady R I)
    (hR : ∀ r ∈ [EWRPTL, EWRPTH, ETXNDL, ETXNDH], ¬ R r)
    (hcontrol : ∀ s, On old I m next s → Run (controlByte len) s fun _ s' ↦ On old J m next s')
    (hJ : ∀ c, J c → J c.pass) (hwrite : ∀ c b, J c → J (Enc28j60.writeMem c b))
    (h : On old I m next s) :
    Run (Enc.sendBuffer len packet) s fun _ s' ↦ On old J m next s' := by
  refine (h.write hI.toKept (by decide) (by decide)
    fun c hc ↦ hI.poke c EWRPTL _ (hR _ (by decide)) hc).bind ?_
  intro _ s₁ h₁
  refine (h₁.write hI.toKept (by decide) (by decide)
    fun c hc ↦ hI.poke c EWRPTH _ (hR _ (by decide)) hc).bind ?_
  intro _ s₂ h₂
  refine (h₂.write hI.toKept (by decide) (by decide)
    fun c hc ↦ hI.poke c ETXNDL _ (hR _ (by decide)) hc).bind ?_
  intro _ s₃ h₃
  refine (h₃.write hI.toKept (by decide) (by decide)
    fun c hc ↦ hI.poke c ETXNDH _ (hR _ (by decide)) hc).bind ?_
  intro _ s₄ h₄
  refine (hcontrol s₄ h₄).bind ?_
  intro _ s₅ h₅
  exact On.writeBuf (K := fun _ ↦ J) (fun _ ↦ hJ) (fun _ c _ hc ↦ hwrite c _ hc) h₅

/-- What `ENC28J60_Packet_Send` keeps once no transmission goes on. -/
theorem On.packetSend (hI₀ : Kept I₀) (hidle : ∀ c, I₀ c → c.tx = none → I c) (hI : Steady R I)
    (hR : ∀ r ∈ [EWRPTL, EWRPTH, ETXNDL, ETXNDH, MACON3], ¬ R r)
    (hwrite : ∀ c b, I c → I (Enc28j60.writeMem c b))
    (hset : ∀ c, I c → I (c.poke ECON1 (c.peek ECON1 ||| ECON1_TXRTS)))
    (hclear : ∀ c, I c → I (c.poke ECON1 (c.peek ECON1 &&& ~~~ECON1_TXRTS)))
    (h : On old I₀ m next s) (len : UInt32) (packet : Nat) :
    Run (enc28j60PacketSend len packet) s fun _ s' ↦ On old I m next s' := by
  refine h.send hI₀ ?_ hI.pass hset hI.toCalm hclear
  intro s₁ h₁
  refine (h₁.mono fun c hc ↦ hidle c hc.1 hc.2).sendBuffer_via hI
    (fun r hr ↦ hR r (List.mem_append_left [MACON3] hr)) ?_ hI.pass hwrite
  intro s₂ h₂
  rw [controlByte, run_ite]
  split
  · refine (h₂.write hI.toKept (by decide) (by decide)
      fun c hc ↦ hI.poke c MACON3 _ (hR _ (by decide)) hc).bind ?_
    intro _ s₃ h₃
    exact h₃.writeMem hI.pass fun c hc ↦ hwrite c _ hc
  · exact h₂.writeMem hI.pass fun c hc ↦ hwrite c _ hc

/-- What a call that returned `ret` did to the memory: nothing, or it wrote so many bytes and a
NUL. -/
def Wrote (maxlen : UInt32) (packet : Nat) (m : Nat → UInt8) (ret : UInt32) (m' : Nat → UInt8) :
    Prop :=
  (ret = 0 ∧ m' = m) ∨ (ret ≤ maxlen - 1 ∧ ∃ bytes, m' = overlay m packet (ret.toNat + 1) bytes)

theorem Wrote.lt {maxlen n : UInt32} {packet : Nat} {m m' : Nat → UInt8}
    (h : Wrote maxlen packet m n m') (hmax : 0 < maxlen.toNat) : n.toNat < maxlen.toNat := by
  rcases h with ⟨rfl, -⟩ | ⟨hle, -⟩
  · exact hmax
  · have hle := UInt32.le_iff_toNat_le.1 hle
    have hone : (1 : UInt32) ≤ maxlen := UInt32.le_iff_toNat_le.2 hmax
    rw [UInt32.toNat_sub_of_le _ _ hone] at hle
    exact Nat.lt_of_le_pred hmax hle

/-- The NUL behind a frame is written inside, too. -/
theorem Wrote.outside {maxlen n : UInt32} {packet a : Nat} {m m' : Nat → UInt8}
    (h : Wrote maxlen packet m n m') (hmax : 0 < maxlen.toNat)
    (ha : a < packet ∨ packet + maxlen.toNat ≤ a) : m' a = m a := by
  have hlt := h.lt hmax
  rcases h with ⟨-, rfl⟩ | ⟨-, bytes, rfl⟩
  · rfl
  · exact overlay_of_notMem (by omega)

theorem clipped_le (len maxlen : UInt32) : clipped len maxlen ≤ maxlen - 1 := by
  rw [clipped]
  split
  · exact UInt32.le_refl _
  · rename_i hle
    exact UInt32.not_lt.1 hle

/-- What `ENC28J60_Packet_Receive` keeps, and what it writes. -/
theorem On.packetReceive_wrote (hI : Steady R I)
    (hR : ∀ r ∈ [ERDPTL, ERDPTH, ERXRDPTL, ERXRDPTH], ¬ R r)
    (hread : ∀ c, I c → I (Enc28j60.readMem c).2)
    (hdec : ∀ c, I c → I (c.poke ECON2 (c.peek ECON2 ||| ECON2_PKTDEC)))
    (h : On old I m next s) (maxlen : UInt32) (packet : Nat) :
    Run (enc28j60PacketReceive maxlen packet) s fun ret s' ↦
      ∃ m' next', Wrote maxlen packet m ret m' ∧ On old I m' next' s' := by
  have hword {s : Board} {m : Nat → UInt8} {next : UInt32} (hs : On old I m next s) :
      Run readWord s fun _ s' ↦ On old I m next s' := by
    refine (hs.readMem (V := fun _ ↦ I) hI.pass hread).bind ?_
    intro lo s₁ h₁
    refine (h₁.readMem (V := fun _ ↦ I) hI.pass hread).bind ?_
    intro hi s₂ h₂
    exact run_pure.2 h₂
  have hpointer {s : Board} {m : Nat → UInt8} {next : UInt32} {lo hi : UInt8}
      (hlo : (Named lo ∧ lo ≠ ECON1) ∧ ¬ R lo) (hhi : (Named hi ∧ hi ≠ ECON1) ∧ ¬ R hi)
      (hs : On old I m next s) :
      Run (writeNextPacketPtr lo hi) s fun _ s' ↦ On old I m next s' := by
    refine run_bind.2 (run_read.2 ((hs.write hI.toKept hlo.1.1 hlo.1.2
      fun c hc ↦ hI.poke c lo _ hlo.2 hc).bind ?_))
    intro _ s' hs'
    refine run_bind.2 (run_read.2 (hs'.write hI.toKept hhi.1.1 hhi.1.2
      fun c hc ↦ hI.poke c hi _ hhi.2 hc))
  refine (h.read (V := fun _ ↦ I) hI.toKept (by decide) fun c hc ↦ hI.looked c EPKTCNT hc).bind ?_
  intro count s₁ h₁
  rw [run_ite]
  split
  · exact run_pure.2 ⟨m, next, .inl ⟨rfl, rfl⟩, h₁⟩
  refine (h₁.waitEstat hI.toCalm).bind ?_
  intro _ s₂ h₂
  refine (hpointer ⟨by decide, hR _ (by decide)⟩ ⟨by decide, hR _ (by decide)⟩ h₂).bind ?_
  intro _ s₃ h₃
  refine (hword h₃).bind ?_
  intro next' s₄ h₄
  refine (h₄.assign next').bind ?_
  intro _ s₅ h₅
  refine (hword h₅).bind ?_
  intro len s₆ h₆
  refine (hword h₆).bind ?_
  intro rxstat s₇ h₇
  refine Run.bind (R := fun ret s' ↦ ∃ m', Wrote maxlen packet m ret m' ∧
    On old I m' next' s') ?_ ?_
  · rw [copyPacket, run_ite]
    split
    · exact run_pure.2 ⟨m, .inl ⟨rfl, rfl⟩, h₇⟩
    · refine (On.readBuf (K := fun _ ↦ I) (B := fun _ _ ↦ True) (fun _ ↦ hI.pass)
        (fun _ c _ hc ↦ ⟨trivial, hread c hc⟩) h₇).bind ?_
      rintro _ s' ⟨_, -, hs'⟩
      exact run_pure.2 ⟨_, .inr ⟨clipped_le len maxlen, _, rfl⟩, hs'⟩
  rintro len' s₈ ⟨m', hwrote, h₈⟩
  refine (hpointer ⟨by decide, hR _ (by decide)⟩ ⟨by decide, hR _ (by decide)⟩ h₈).bind ?_
  intro _ s₉ h₉
  refine (h₉.setBits hI.pass (by decide) rfl (fun c ↦ poke_bsel (by decide) c _) hdec).bind ?_
  intro _ s₁₀ h₁₀
  exact run_pure.2 ⟨m', next', hwrote, h₁₀⟩

theorem On.packetReceive (hI : Steady R I) (hR : ∀ r ∈ [ERDPTL, ERDPTH, ERXRDPTL, ERXRDPTH], ¬ R r)
    (hread : ∀ c, I c → I (Enc28j60.readMem c).2)
    (hdec : ∀ c, I c → I (c.poke ECON2 (c.peek ECON2 ||| ECON2_PKTDEC)))
    (h : On old I m next s) (maxlen : UInt32) (packet : Nat) :
    Run (enc28j60PacketReceive maxlen packet) s fun _ s' ↦ At old I s' := by
  refine (h.packetReceive_wrote hI hR hread hdec maxlen packet).mono ?_
  rintro _ s' ⟨_, _, -, hs'⟩
  exact hs'.at

end Stm32F1.Enc
