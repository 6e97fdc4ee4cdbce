import Stm32F1.Enc.Access
import Stm32F1.Lib.Overlay

/-!
# Rules for the driver

`On old I m next s` says of a state between two accesses that the chip satisfies
`I`, that the bank is the one the driver thinks it is, what the memory and
`NextPacketPtr` are, and that all accesses were right but those of the history
`old`.  Each function of the driver has a rule that leads from one such assertion
to another.
-/

namespace Stm32F1.Enc

open Prog Mcu

/-! ## Right accesses -/

/-- The bank of the access was selected, and was the one that the driver believed to be; the command
reached the register that the address names, and a read brought its value. -/
structure Access.Right (a : Access (Framed Enc28j60)) : Prop where
  bsel : a.before.chip.bsel = a.enc28j60bank >>> 5
  bank : a.enc28j60bank = a.addr &&& BANK_MASK
  read : Named a.addr → a.op = ENC28J60_READ_CTRL_REG →
    a.value = (Enc28j60.pass^[readTime a.addr] a.before.chip).peek a.addr ∧
      a.after = ⟨(Enc28j60.pass^[readTime a.addr] a.before.chip).looked a.addr, none⟩
  write : Named a.addr → a.op = ENC28J60_WRITE_CTRL_REG →
    a.after = ⟨a.before.chip.pass.pass.poke a.addr a.value, none⟩

/-- What holds between two accesses. -/
structure On (old : List (Access (Framed Enc28j60))) (I : Enc28j60 → Prop) (m : Nat → UInt8)
    (next : UInt32) (s : Board) : Prop where
  chip : I s.dev.chip
  bank : s.dev.chip.bsel = s.glob.enc28j60bank >>> 5
  mem : s.mem = m
  nextPacketPtr : s.glob.nextPacketPtr = next
  accesses : ∀ a ∈ s.glob.accesses, a ∈ old ∨ a.Right

variable {old : List (Access (Framed Enc28j60))} {I I' J : Enc28j60 → Prop}
  {V : UInt8 → Enc28j60 → Prop} {m : Nat → UInt8} {next : UInt32} {s : Board}
  {addr op v r b : UInt8}

theorem On.mono (h : On old I m next s) (hIJ : ∀ c, I c → J c) : On old J m next s :=
  { h with chip := hIJ _ h.chip }

/-- One more access. -/
theorem forall_cons {a : Access (Framed Enc28j60)} {accesses : List (Access (Framed Enc28j60))}
    (ha : a.Right) (h : ∀ a ∈ accesses, a ∈ old ∨ a.Right) :
    ∀ b ∈ a :: accesses, b ∈ old ∨ b.Right := by
  intro b hb
  rcases List.mem_cons.1 hb with rfl | hb
  · exact .inr ha
  · exact h b hb

theorem run_noted {p : Prog Board UInt8} {Q : UInt8 → Board → Prop}
    (h : Run p s fun v s' ↦ Q v { s' with glob := { s'.glob with accesses :=
      ⟨op, addr, s.glob.enc28j60bank, v, s.dev, s'.dev⟩ :: s'.glob.accesses } }) :
    Run (noted op addr p) s Q := by
  rw [noted]
  refine run_bind.2 (run_read.2 (h.bind ?_))
  intro v s' hQ
  exact run_bind.2 (run_modify.2 (run_pure.2 hQ))

/-! ## Registers -/

/-- Something that gets less with every byte on the bus. -/
structure Timed (K : Nat → Enc28j60 → Prop) : Prop where
  pass : ∀ n c, K (n + 1) c → K n c.pass
  econ1 : ∀ n c v, v &&& ECON1_RXEN = c.regs ECON1 &&& ECON1_RXEN → K n c → K n (c.withEcon1 v)

/-- The bytes that it takes to select a bank. -/
def bankTime (enc28j60bank addr : UInt8) : Nat := if enc28j60bank = addr &&& BANK_MASK then 0 else 4

/-- The bank of an address is selected, if it is not the one that the driver believes to be. -/
theorem run_setBankTimed {K : Nat → Enc28j60 → Prop} (hK : Timed K) {n : Nat}
    (h : K (n + bankTime s.glob.enc28j60bank addr) s.dev.chip)
    (hbank : s.glob.enc28j60bank = addr &&& BANK_MASK →
      s.dev.chip.bsel = (addr &&& BANK_MASK) >>> 5) :
    Run (enc28j60SetBank addr) s fun _ s' ↦
      ∃ c rx, K n c ∧ c.bsel = (addr &&& BANK_MASK) >>> 5 ∧
        s' = ⟨s.mem, ⟨c, rx⟩, { s.glob with enc28j60bank := addr &&& BANK_MASK }⟩ := by
  rw [bankTime] at h
  rw [enc28j60SetBank]
  refine run_bind.2 (run_read.2 ?_)
  by_cases hcur : s.glob.enc28j60bank = addr &&& BANK_MASK
  · rw [if_pos hcur] at h
    rw [if_neg (not_not.2 hcur.symm)]
    refine run_pure.2 ⟨s.dev.chip, s.dev.rx, h, hbank hcur, ?_⟩
    rw [← hcur]
  · rw [if_neg hcur] at h
    rw [if_pos (Ne.symm hcur)]
    refine (run_selectBank addr s).mono ?_
    rintro _ _ ⟨v, w, hv, hw, hbsel, rfl⟩
    refine ⟨_, none, hK.econ1 _ _ w ?_ (hK.pass _ _ (hK.pass _ _ (hK.econ1 _ _ v ?_
      (hK.pass _ _ (hK.pass _ _ h))))), ?_, rfl⟩
    · rw [Enc28j60.pass_regs, Enc28j60.pass_regs, Enc28j60.withEcon1_econ1, hw]
    · rw [Enc28j60.pass_regs, Enc28j60.pass_regs, hv]
    · rw [Enc28j60.bsel, Enc28j60.withEcon1_econ1, hbsel]

/-- What does not depend on the time that it takes. -/
theorem run_setBank (hI : Kept I) (h : I s.dev.chip)
    (hbank : s.glob.enc28j60bank = addr &&& BANK_MASK →
      s.dev.chip.bsel = (addr &&& BANK_MASK) >>> 5) :
    Run (enc28j60SetBank addr) s fun _ s' ↦
      ∃ c rx, I c ∧ c.bsel = (addr &&& BANK_MASK) >>> 5 ∧
        s' = ⟨s.mem, ⟨c, rx⟩, { s.glob with enc28j60bank := addr &&& BANK_MASK }⟩ :=
  run_setBankTimed (K := fun _ ↦ I) ⟨fun _ ↦ hI.pass, fun _ ↦ hI.econ1⟩ (n := 0) h hbank

theorem On.hbank (h : On old I m next s) (heq : s.glob.enc28j60bank = addr &&& BANK_MASK) :
    s.dev.chip.bsel = (addr &&& BANK_MASK) >>> 5 := by
  rw [h.bank, heq]

theorem On.setBank (hI : Kept I) (h : On old I m next s) :
    Run (enc28j60SetBank addr) s fun _ s' ↦ On old I m next s' := by
  refine (run_setBank hI h.chip h.hbank).mono ?_
  rintro _ _ ⟨c, rx, hc, hbank, rfl⟩
  exact ⟨hc, hbank, h.mem, h.nextPacketPtr, h.accesses⟩

/-- A read takes the time of a byte at least. -/
theorem pass_readTime (hfirst : ∀ c, I c → I' c.pass) (hlater : ∀ c, I' c → I' c.pass)
    (addr : UInt8) {c : Enc28j60} (h : I c) : I' (Enc28j60.pass^[readTime addr] c) := by
  rw [readTime]
  split
  · exact hlater _ (hfirst c h)
  · exact hlater _ (hlater _ (hfirst c h))

theorem iterate_pass_bsel (k : Nat) (c : Enc28j60) : (Enc28j60.pass^[k] c).bsel = c.bsel := by
  induction k generalizing c with
  | zero => rfl
  | succ k ih => exact (ih c.pass).trans c.pass_bsel

/-- A look does not select a bank. -/
theorem looked_bsel (c : Enc28j60) (r : UInt8) : (c.looked r).bsel = c.bsel := by
  rw [Enc28j60.bsel, Enc28j60.looked_regs, Enc28j60.bsel]

/-- A register is read when its bank is selected. -/
theorem run_readSelected {mem : Nat → UInt8} {rx : Option (List UInt8)}
    {g : Globals (Framed Enc28j60)} {c : Enc28j60} (hr : Named addr)
    (hbsel : c.bsel = (addr &&& BANK_MASK) >>> 5) (hbank : g.enc28j60bank = addr &&& BANK_MASK)
    (haccesses : ∀ a ∈ g.accesses, a ∈ old ∨ a.Right) :
    Run (noted ENC28J60_READ_CTRL_REG addr (enc28j60ReadOp ENC28J60_READ_CTRL_REG addr))
      ⟨mem, ⟨c, rx⟩, g⟩ fun v s' ↦
        On old (fun c' ↦ v = (Enc28j60.pass^[readTime addr] c).peek addr ∧
          c' = (Enc28j60.pass^[readTime addr] c).looked addr) mem g.nextPacketPtr s' ∧
        s'.glob.enc28j60bank = addr &&& BANK_MASK := by
  refine run_noted (.of_eq (readOp_eq hr _ hbsel) ?_)
  refine ⟨⟨⟨rfl, rfl⟩, ?_, rfl, rfl, forall_cons ⟨?_, hbank, ?_, ?_⟩ haccesses⟩, hbank⟩
  · change ((Enc28j60.pass^[readTime addr] c).looked addr).bsel = g.enc28j60bank >>> 5
    rw [looked_bsel, iterate_pass_bsel, hbsel, hbank]
  · change c.bsel = g.enc28j60bank >>> 5
    rw [hbsel, hbank]
  · intro _ _
    exact ⟨rfl, rfl⟩
  · intro _ hop
    have hne : ENC28J60_READ_CTRL_REG ≠ ENC28J60_WRITE_CTRL_REG := by decide
    exact absurd hop hne

/-- A register is read, when at least the time of one byte has passed. -/
theorem run_enc28j60Read (hI : Kept I) (hfirst : ∀ c, I c → I' c.pass)
    (hlater : ∀ c, I' c → I' c.pass)
    (hr : Named addr) (hV : ∀ c, I' c → V (c.peek addr) (c.looked addr)) (h : I s.dev.chip)
    (hbank : s.glob.enc28j60bank = addr &&& BANK_MASK →
      s.dev.chip.bsel = (addr &&& BANK_MASK) >>> 5)
    (haccesses : ∀ a ∈ s.glob.accesses, a ∈ old ∨ a.Right) :
    Run (enc28j60Read addr) s fun v s' ↦ On old (V v) s.mem s.glob.nextPacketPtr s' := by
  refine (run_setBank hI h hbank).bind ?_
  rintro _ _ ⟨c, rx, hc, hbsel, rfl⟩
  refine (run_readSelected (g := { s.glob with enc28j60bank := _ }) hr hbsel rfl haccesses).mono ?_
  rintro v s' ⟨hs', -⟩
  refine hs'.mono ?_
  rintro _ ⟨rfl, rfl⟩
  exact hV _ (pass_readTime hfirst hlater addr hc)

theorem On.readLater (hI : Kept I) (hfirst : ∀ c, I c → I' c.pass)
    (hlater : ∀ c, I' c → I' c.pass) (hr : Named addr)
    (hV : ∀ c, I' c → V (c.peek addr) (c.looked addr)) (h : On old I m next s) :
    Run (enc28j60Read addr) s fun v s' ↦ On old (V v) m next s' := by
  obtain ⟨hchip, hbank, rfl, rfl, haccesses⟩ := h
  exact run_enc28j60Read hI hfirst hlater hr hV hchip (fun heq ↦ by rw [hbank, heq]) haccesses

theorem On.read (hI : Kept I) (hr : Named addr)
    (hV : ∀ c, I c → V (c.peek addr) (c.looked addr)) (h : On old I m next s) :
    Run (enc28j60Read addr) s fun v s' ↦ On old (V v) m next s' :=
  h.readLater hI hI.pass hI.pass hr hV

/-- Any address at all is read. -/
theorem On.readAny (hI : Kept I) (hlook : ∀ c r, I c → I (Enc28j60.looked c r)) (hr : ¬ Named addr)
    (h : On old I m next s) : Run (enc28j60Read addr) s fun _ s' ↦ On old I m next s' := by
  refine (run_setBank hI h.chip h.hbank).bind ?_
  rintro _ _ ⟨c, rx, hc, hbsel, rfl⟩
  refine run_noted ((run_readOp_any hI.pass hlook hc).mono ?_)
  rintro v _ ⟨c', hc', hregs, rfl⟩
  refine ⟨hc', ?_, h.mem, h.nextPacketPtr, forall_cons ⟨hbsel, rfl, ?_, ?_⟩ h.accesses⟩
  · change c'.bsel = (addr &&& BANK_MASK) >>> 5
    rw [← hbsel, Enc28j60.bsel, hregs, Enc28j60.bsel]
  · exact fun hname ↦ absurd hname hr
  · exact fun hname ↦ absurd hname hr

/-- A register is written; the bank stays the one that the driver believes to be. -/
theorem On.writeBank (hI : Kept I)
    (hbsel : ∀ c : Enc28j60, c.bsel = (addr &&& BANK_MASK) >>> 5 →
      (c.poke (target addr) v).bsel = (addr &&& BANK_MASK) >>> 5)
    (hJ : ∀ c, I c → J (c.poke (target addr) v)) (h : On old I m next s) :
    Run (enc28j60Write addr v) s fun _ s' ↦
      On old J m next s' ∧ s'.glob.enc28j60bank = addr &&& BANK_MASK := by
  refine (run_setBank hI h.chip h.hbank).bind ?_
  rintro _ _ ⟨c, rx, hc, hc', rfl⟩
  refine run_bind.2 (run_noted ?_)
  rw [run_bind, Run, writeOp_eq (.inl rfl)]
  have hbank : c.pass.pass.bsel = (addr &&& BANK_MASK) >>> 5 := by
    rw [Enc28j60.pass_bsel, Enc28j60.pass_bsel, hc']
  refine ⟨(), _, rfl, run_pure.2 (run_pure.2 ?_)⟩
  dsimp only
  rw [Enc28j60.change_write hbank]
  refine ⟨⟨hJ _ (hI.pass _ (hI.pass _ hc)), hbsel _ hbank, h.mem, h.nextPacketPtr,
    forall_cons ⟨hc', rfl, ?_, ?_⟩ h.accesses⟩, rfl⟩
  · intro _ hop
    have hne : ENC28J60_WRITE_CTRL_REG ≠ ENC28J60_READ_CTRL_REG := by decide
    exact absurd hop hne
  · intro hname _
    change _ = Framed.mk (c.pass.pass.poke addr v) none
    rw [hname]

/-- Registers other than `ECON1` do not matter for that. -/
theorem poke_bsel (hr : r ≠ ECON1) (c : Enc28j60) (v : UInt8) : (c.poke r v).bsel = c.bsel := by
  rw [Enc28j60.bsel, Enc28j60.poke_regs_econ1 hr, Enc28j60.bsel]

/-- A register other than `ECON1` is written. -/
theorem On.write (hI : Kept I) (hr : Named addr) (hne : addr ≠ ECON1)
    (hJ : ∀ c, I c → J (c.poke addr v)) (h : On old I m next s) :
    Run (enc28j60Write addr v) s fun _ s' ↦ On old J m next s' := by
  refine (h.writeBank hI (fun c hc ↦ ?_) fun c hc ↦ ?_).mono fun _ _ h ↦ h.1
  · rw [hr, poke_bsel hne, hc]
  · rw [hr]
    exact hJ c hc

/-- Bits of a register of all banks are set. -/
theorem On.setBits (hI : ∀ c, I c → I c.pass) (hr : 0x1B ≤ r &&& ADDR_MASK)
    (hmac : r &&& ADDR_MASK = r)
    (hbsel : ∀ c : Enc28j60, (c.poke r (c.peek r ||| b)).bsel = c.bsel)
    (hJ : ∀ c, I c → J (c.poke r (c.peek r ||| b))) (h : On old I m next s) :
    Run (enc28j60WriteOp ENC28J60_BIT_FIELD_SET r b) s fun _ s' ↦ On old J m next s' := by
  refine (run_writeOp hI (.inr (.inl rfl)) h.chip).mono ?_
  rintro _ _ ⟨c, hc, hregs, rfl⟩
  rw [Enc28j60.change_set hr hmac]
  refine ⟨hJ c hc, ?_, h.mem, h.nextPacketPtr, h.accesses⟩
  rw [← h.bank, hbsel, Enc28j60.bsel, hregs, Enc28j60.bsel]

/-- Bits of a register of all banks are cleared. -/
theorem On.clearBits (hI : ∀ c, I c → I c.pass) (hr : 0x1B ≤ r &&& ADDR_MASK)
    (hmac : r &&& ADDR_MASK = r)
    (hbsel : ∀ c : Enc28j60, (c.poke r (c.peek r &&& ~~~b)).bsel = c.bsel)
    (hJ : ∀ c, I c → J (c.poke r (c.peek r &&& ~~~b))) (h : On old I m next s) :
    Run (enc28j60WriteOp ENC28J60_BIT_FIELD_CLR r b) s fun _ s' ↦ On old J m next s' := by
  refine (run_writeOp hI (.inr (.inr rfl)) h.chip).mono ?_
  rintro _ _ ⟨c, hc, hregs, rfl⟩
  rw [Enc28j60.change_clear hr hmac]
  refine ⟨hJ c hc, ?_, h.mem, h.nextPacketPtr, h.accesses⟩
  rw [← h.bank, hbsel, Enc28j60.bsel, hregs, Enc28j60.bsel]

theorem bsel_setBits_econ1 (hb : b &&& (0x03 : UInt8) = 0) (c : Enc28j60) :
    (c.poke ECON1 (c.peek ECON1 ||| b)).bsel = c.bsel := by
  have heq : (c.poke ECON1 (c.peek ECON1 ||| b)).regs ECON1 =
      (c.peek ECON1 ||| b) &&& ~~~ECON1_TXRTS := by
    simp only [Enc28j60.poke_econ1, Function.update_self]
  rw [Enc28j60.bsel, heq, andNot_and_of_disjoint rfl, or_and_of_disjoint hb,
    c.peek_econ1_and rfl rfl, Enc28j60.bsel]

theorem bsel_clearBits_econ1 (hb : ~~~b &&& (0x03 : UInt8) = 0x03) (c : Enc28j60) :
    (c.poke ECON1 (c.peek ECON1 &&& ~~~b)).bsel = c.bsel := by
  have heq : (c.poke ECON1 (c.peek ECON1 &&& ~~~b)).regs ECON1 =
      (c.peek ECON1 &&& ~~~b) &&& ~~~ECON1_TXRTS := by
    simp only [Enc28j60.poke_econ1, Function.update_self]
  rw [Enc28j60.bsel, heq, andNot_and_of_disjoint rfl, andNot_and_of_disjoint hb,
    c.peek_econ1_and rfl rfl, Enc28j60.bsel]

/-! ## Buffer memory -/

theorem readMem_bsel (c : Enc28j60) : c.readMem.2.bsel = c.bsel := by
  rw [Enc28j60.bsel, Enc28j60.readMem, Enc28j60.advance_econ1 _ _ (by decide) (by decide),
    Enc28j60.bsel]

theorem writeMem_bsel (c : Enc28j60) (b : UInt8) : (c.writeMem b).bsel = c.bsel := by
  rw [Enc28j60.bsel, Enc28j60.writeMem, Enc28j60.advance_econ1 _ _ (by decide) (by decide),
    Enc28j60.bsel]

/-- One byte is read. -/
theorem On.readMem (hI : ∀ c, I c → I c.pass) (hV : ∀ c, I c → V c.readMem.1 c.readMem.2)
    (h : On old I m next s) :
    Run (enc28j60ReadOp ENC28J60_READ_BUF_MEM 0) s fun v s' ↦ On old (V v) m next s' := by
  have hchip : I s.dev.chip.pass.pass := hI _ (hI _ h.chip)
  refine ⟨_, _, rfl, hV _ hchip, ?_, h.mem, h.nextPacketPtr, h.accesses⟩
  change s.dev.chip.pass.pass.readMem.2.bsel = _
  rw [readMem_bsel, Enc28j60.pass_bsel, Enc28j60.pass_bsel]
  exact h.bank

/-- One byte is written. -/
theorem On.writeMem (hI : ∀ c, I c → I c.pass) (hJ : ∀ c, I c → J (c.writeMem b))
    (h : On old I m next s) :
    Run (enc28j60WriteOp ENC28J60_WRITE_BUF_MEM 0 b) s fun _ s' ↦ On old J m next s' := by
  have hchip : I s.dev.chip.pass.pass := hI _ (hI _ h.chip)
  refine ⟨_, _, rfl, hJ _ hchip, ?_, h.mem, h.nextPacketPtr, h.accesses⟩
  change (s.dev.chip.pass.pass.writeMem b).bsel = _
  rw [writeMem_bsel, Enc28j60.pass_bsel, Enc28j60.pass_bsel]
  exact h.bank

variable {K : Nat → Enc28j60 → Prop} {B : Nat → UInt8 → Prop} {len : UInt32} {data : Nat}

/-- In the middle of a series of bytes. -/
structure Within (old : List (Access (Framed Enc28j60))) (I : Enc28j60 → Prop) (op : UInt8)
    (m : Nat → UInt8) (next : UInt32) (s : Board) : Prop extends On old I m next s where
  selected : ∃ bs, s.dev.rx = some (op :: bs)

/-- The command that begins the series. -/
theorem On.within (hI : ∀ c, I c → I c.pass) {op : UInt8} (hop : op ≠ ENC28J60_SOFT_RESET)
    (h : On old I m next s) : Within old I op m next
      { s with dev := (SpiDevice.exchange op (SpiDevice.cs false s.dev)).2 } := by
  have hshift : (FramedChip.shift [] op s.dev.chip).2 = s.dev.chip.pass := if_neg hop
  refine ⟨⟨?_, ?_, h.mem, h.nextPacketPtr, h.accesses⟩, [], rfl⟩
  · change I (FramedChip.shift [] op s.dev.chip).2
    rw [hshift]
    exact hI _ h.chip
  · change (FramedChip.shift [] op s.dev.chip).2.bsel = _
    rw [hshift, Enc28j60.pass_bsel]
    exact h.bank

/-- The end of the series. -/
theorem Within.finish {op : UInt8} (h : Within old I op m next s) :
    On old I m next { s with dev := SpiDevice.cs true s.dev } := by
  obtain ⟨⟨hchip, hbank, hmem, hnext, haccesses⟩, bs, hrx⟩ := h
  have hdev : SpiDevice.cs true s.dev = ⟨s.dev.chip, none⟩ := by
    obtain ⟨mem, ⟨chip, rx⟩, glob⟩ := s
    dsimp only at hrx
    rw [hrx]
    rfl
  rw [hdev]
  exact ⟨hchip, hbank, hmem, hnext, haccesses⟩

theorem Within.readMem (hI : ∀ c, I c → I c.pass) (hV : ∀ c, I c → V c.readMem.1 c.readMem.2)
    (h : Within old I ENC28J60_READ_BUF_MEM m next s) (b : UInt8) :
    Run (readWriteByte b) s fun v s' ↦ Within old (V v) ENC28J60_READ_BUF_MEM m next s' := by
  obtain ⟨⟨hchip, hbank, rfl, rfl, haccesses⟩, bs, hrx⟩ := h
  obtain ⟨mem, ⟨chip, rx⟩, glob⟩ := s
  dsimp only at hrx
  subst hrx
  refine run_act.2 ⟨⟨hV _ (hI _ hchip), ?_, rfl, rfl, haccesses⟩, bs ++ [b], rfl⟩
  change chip.pass.readMem.2.bsel = _
  rw [readMem_bsel, Enc28j60.pass_bsel]
  exact hbank

theorem Within.writeMem (hI : ∀ c, I c → I c.pass) (hJ : ∀ c, I c → J (c.writeMem b))
    (h : Within old I ENC28J60_WRITE_BUF_MEM m next s) :
    Run (readWriteByte b) s fun _ s' ↦ Within old J ENC28J60_WRITE_BUF_MEM m next s' := by
  obtain ⟨⟨hchip, hbank, rfl, rfl, haccesses⟩, bs, hrx⟩ := h
  obtain ⟨mem, ⟨chip, rx⟩, glob⟩ := s
  dsimp only at hrx
  subst hrx
  refine run_act.2 ⟨⟨hJ _ (hI _ hchip), ?_, rfl, rfl, haccesses⟩, bs ++ [b], rfl⟩
  change (chip.pass.writeMem b).bsel = _
  rw [writeMem_bsel, Enc28j60.pass_bsel]
  exact hbank

theorem Within.store {op : UInt8} (h : Within old I op m next s) (a : Nat) (b : UInt8) :
    Run (store a b) s fun _ s' ↦ Within old I op (Function.update m a b) next s' := by
  obtain ⟨⟨hchip, hbank, rfl, rfl, haccesses⟩, bs, hrx⟩ := h
  exact run_modify.2 ⟨⟨hchip, hbank, rfl, rfl, haccesses⟩, bs, hrx⟩

/-- The bytes are stored in the memory, with a NUL behind them. -/
theorem On.readBuf (hK : ∀ k c, K k c → K k c.pass)
    (hstep : ∀ k c, k < len.toNat → K k c → B k c.readMem.1 ∧ K (k + 1) c.readMem.2)
    (h : On old (K 0) m next s) : Run (enc28j60ReadBuf len data) s fun _ s' ↦
      ∃ bytes : Nat → UInt8, (∀ k < len.toNat, B k (bytes k)) ∧ On old (K len.toNat)
        (overlay m data (len.toNat + 1) fun k ↦ if k < len.toNat then bytes k else 0) next s' := by
  refine run_bind.2 (run_modify.2 (run_bind.2 (run_act.2 (run_bind.2 ?_))))
  have hloop := run_forRange (n := len.toNat) (f := fun i ↦ do
      let b ← readWriteByte 0
      store (data + i) b)
    (fun k (s' : Board) ↦ ∃ bytes : Nat → UInt8, (∀ j < k, B j (bytes j)) ∧
      Within old (K k) ENC28J60_READ_BUF_MEM (overlay m data k bytes) next s')
    (s := { s with dev :=
      (SpiDevice.exchange ENC28J60_READ_BUF_MEM (SpiDevice.cs false s.dev)).2 }) ?_ ?_
  · refine Run.mono hloop ?_
    rintro _ s' ⟨bytes, hbytes, hs'⟩
    refine run_bind.2 ((hs'.store (data + len.toNat) 0).mono ?_)
    intro _ s'' hs''
    refine run_modify.2 ⟨bytes, hbytes, ?_⟩
    have hmem : Function.update (overlay m data len.toNat bytes) (data + len.toNat) 0 =
        overlay m data (len.toNat + 1) fun k ↦ if k < len.toNat then bytes k else 0 := by
      rw [overlay_succ, if_neg (lt_irrefl _)]
      refine congrArg (Function.update · _ _) (overlay_congr fun k hk ↦ ?_)
      rw [if_pos hk]
    rw [← hmem]
    exact hs''.finish
  · rintro k s' hk ⟨bytes, hbytes, hs'⟩
    refine (hs'.readMem (V := fun v c ↦ B k v ∧ K (k + 1) c) (hK k) (fun c hc ↦ hstep k c hk hc)
      0).bind ?_
    intro v s'' hs''
    refine (hs''.store (data + k) v).mono ?_
    rintro _ t ⟨⟨⟨hv, hchip⟩, hbank, hmem, hnext, haccesses⟩, hsel⟩
    refine ⟨Function.update bytes k v, ?_, ⟨hchip, hbank, hmem.trans ?_, hnext, haccesses⟩, hsel⟩
    · intro j hj
      rcases Nat.lt_succ_iff_lt_or_eq.1 hj with hlt | rfl
      · rw [Function.update_of_ne hlt.ne]
        exact hbytes j hlt
      · rw [Function.update_self]
        exact hv
    · rw [overlay_succ, Function.update_self]
      refine congrArg (Function.update · _ _) (overlay_congr fun j hj ↦ ?_)
      rw [Function.update_of_ne hj.ne]
  · refine ⟨fun _ ↦ 0, fun j hj ↦ absurd hj (Nat.not_lt_zero j), ?_⟩
    rw [overlay_zero]
    exact h.within (hK 0) (by decide)

/-- The bytes come from the memory. -/
theorem On.writeBuf (hK : ∀ k c, K k c → K k c.pass)
    (hstep : ∀ k c, k < len.toNat → K k c → K (k + 1) (c.writeMem (m (data + k))))
    (h : On old (K 0) m next s) :
    Run (enc28j60WriteBuf len data) s fun _ s' ↦ On old (K len.toNat) m next s' := by
  refine run_bind.2 (run_modify.2 (run_bind.2 (run_act.2 (run_bind.2 ?_))))
  have hloop := run_forRange (n := len.toNat) (f := fun i ↦ do
      let b ← load (data + i)
      let _ ← readWriteByte b
      pure ())
    (fun k (s' : Board) ↦ Within old (K k) ENC28J60_WRITE_BUF_MEM m next s')
    (s := { s with dev :=
      (SpiDevice.exchange ENC28J60_WRITE_BUF_MEM (SpiDevice.cs false s.dev)).2 }) ?_ ?_
  · refine Run.mono hloop ?_
    intro _ s' hs'
    exact run_modify.2 hs'.finish
  · intro k s' hk hs'
    refine run_bind.2 (run_read.2 ?_)
    rw [hs'.mem]
    refine (hs'.writeMem (hK k) (fun c hc ↦ hstep k c hk hc)).bind ?_
    intro _ s'' hs''
    exact run_pure.2 hs''
  · exact h.within (hK 0) (by decide)

end Stm32F1.Enc
