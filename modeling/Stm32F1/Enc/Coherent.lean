import Stm32F1.Lib.Calls
import Stm32F1.Enc.Calls

/-!
# The banks of registers

The driver remembers the bank that it selected last.  After `ENC28J60_Init` the
chip has that bank selected at every access to a register, whatever functions of
the driver are called: only a caller who writes `ECON1` can select another bank
behind the back of the driver.  The registers of the PHY, which are reached
through those of the MII, then behave like a memory.
-/

namespace Stm32F1.Enc

open Prog Mcu

variable {old : List (Access (Framed Enc28j60))} {R : UInt8 → Prop} {I : Enc28j60 → Prop}
  {m : Nat → UInt8} {next : UInt32} {s : Board} {a addr r v : UInt8} {c : Enc28j60}
  {course : Course} {φ : UInt8 → UInt16} {Q : (UInt8 → UInt16) → Prop} {data : UInt16}

/-! ## The PHY -/

namespace Enc28j60

theorem poke_phy (c : Enc28j60) (r v : UInt8) : (c.poke r v).course = c.course ∧
    (c.poke r v).phy = c.phy ∧ (c.poke r v).mird = c.mird ∧
    (r ≠ MIWRH → r ≠ MICMD → (c.poke r v).mii = c.mii) := by
  by_cases hact : Acting r
  · rcases hact with rfl | rfl | rfl | rfl | rfl <;> exact ⟨rfl, rfl, rfl, fun _ _ ↦ rfl⟩
  · obtain ⟨regs, mii, heq, -, hmii⟩ := c.poke_of_not_acting hact v
    rw [heq]
    exact ⟨rfl, rfl, rfl, hmii⟩

theorem looked_phy (c : Enc28j60) (r : UInt8) : (c.looked r).course = c.course ∧
    (c.looked r).phy = c.phy ∧ (c.looked r).mird = c.mird ∧ (c.looked r).mii = c.mii := by
  rw [looked]
  split <;> exact ⟨rfl, rfl, rfl, rfl⟩

theorem advance_phy (c : Enc28j60) (lo : UInt8) (a : Nat) : (c.advance lo a).course = c.course ∧
    (c.advance lo a).phy = c.phy ∧ (c.advance lo a).mii = c.mii := by
  rw [advance]
  split <;> exact ⟨rfl, rfl, rfl⟩

/-- The registers of the PHY, while no access to them goes on. -/
structure Stored (φ : UInt8 → UInt16) (course : Course) (c : Enc28j60) : Prop where
  course : c.course = course
  mii : c.mii = none
  phy : c.phy = φ

theorem Stored.pass (h : Stored φ course c) : Stored φ course c.pass ∧ c.pass.mird = c.mird := by
  obtain ⟨d, hmii, hphy, hmird, -, hmii', hphy', hmird'⟩ := c.pass_mii
  have hidle : d.access = d := by
    rw [access, hmii, h.mii]
  rw [hidle] at hmii' hphy' hmird'
  exact ⟨⟨c.pass_course.trans h.course, (hmii'.trans hmii).trans h.mii,
    (hphy'.trans hphy).trans h.phy⟩, hmird'.trans hmird⟩

theorem kept_stored (w : UInt16) : Kept fun c ↦ Stored φ course c ∧ c.mird = w where
  pass _ h := ⟨h.1.pass.1, h.1.pass.2.trans h.2⟩
  econ1 _ _ _ h := ⟨⟨h.1.course, h.1.mii, h.1.phy⟩, h.2⟩

/-- Only the two registers that begin an access matter to the PHY. -/
theorem steady_stored : Steady (fun r ↦ r = MIWRH ∨ r = MICMD) (Stored φ course) where
  pass _ h := h.pass.1
  econ1 _ _ _ h := ⟨h.course, h.mii, h.phy⟩
  looked c r h := by
    obtain ⟨hcourse, hphy, -, hmii⟩ := c.looked_phy r
    exact ⟨hcourse.trans h.course, hmii.trans h.mii, hphy.trans h.phy⟩
  poke c r v hr h := by
    obtain ⟨hcourse, hphy, -, hmii⟩ := c.poke_phy r v
    rw [not_or] at hr
    exact ⟨hcourse.trans h.course, (hmii hr.1 hr.2).trans h.mii, hphy.trans h.phy⟩

/-- While `data` is on its way to the register `a`. -/
def Writing (Q : (UInt8 → UInt16) → Prop) (course : Course) (a : UInt8) (data : UInt16)
    (c : Enc28j60) : Prop :=
  (c.course = course ∧ c.regs MIREGADR = a ∧ c.regs MIWRL = data.toUInt8 ∧
    c.regs MIWRH = (data >>> 8).toUInt8) ∧
  ∃ φ, Q φ ∧ ((∃ k, c.mii = some (false, k) ∧ c.phy = φ) ∨
    (c.mii = none ∧ c.phy = Function.update φ a data))

theorem kept_writing : Kept (Writing Q course a data) where
  pass c h := by
    obtain ⟨⟨hcourse, haddr, hlo, hhi⟩, φ, hQ, h⟩ := h
    obtain ⟨d, hmii, hphy, -, hregs, hmii', hphy', -⟩ := c.pass_mii
    rw [Writing, c.pass_course, c.pass_regs, hmii', hphy']
    refine ⟨⟨hcourse, haddr, hlo, hhi⟩, φ, hQ, ?_⟩
    rcases h with ⟨k, hgoes, hbefore⟩ | ⟨hdone, hafter⟩
    · cases k with
      | zero =>
          rw [access, hmii, hgoes]
          refine .inr ⟨rfl, ?_⟩
          change Function.update d.phy (d.regs MIREGADR)
            ((d.regs MIWRL).toUInt16 ||| (d.regs MIWRH).toUInt16 <<< 8) = _
          rw [hregs, haddr, hlo, hhi, join_bytes, hphy, hbefore]
      | succ k =>
          rw [access, hmii, hgoes]
          exact .inl ⟨k, rfl, hphy.trans hbefore⟩
    · rw [access, hmii, hdone]
      exact .inr ⟨hmii.trans hdone, hphy.trans hafter⟩
  econ1 c v _ h := by
    obtain ⟨⟨hcourse, haddr, hlo, hhi⟩, h⟩ := h
    exact ⟨⟨hcourse, (c.withEcon1_of_ne (by decide) v).trans haddr,
      (c.withEcon1_of_ne (by decide) v).trans hlo, (c.withEcon1_of_ne (by decide) v).trans hhi⟩, h⟩

/-- While the register `a` is fetched. -/
def Reading (φ : UInt8 → UInt16) (course : Course) (a : UInt8) (c : Enc28j60) : Prop :=
  (c.course = course ∧ c.regs MIREGADR = a ∧ c.phy = φ) ∧
  ((∃ k, c.mii = some (true, k)) ∨ (c.mii = none ∧ c.mird = φ a))

theorem kept_reading : Kept (Reading φ course a) where
  pass c h := by
    obtain ⟨⟨hcourse, haddr, hphy₀⟩, h⟩ := h
    obtain ⟨d, hmii, hphy, hmird, hregs, hmii', hphy', hmird'⟩ := c.pass_mii
    rw [Reading, c.pass_course, c.pass_regs, hmii', hphy', hmird']
    rcases h with ⟨k, hgoes⟩ | ⟨hdone, hvalue⟩
    · cases k with
      | zero =>
          rw [access, hmii, hgoes]
          refine ⟨⟨hcourse, haddr, hphy.trans hphy₀⟩, .inr ⟨rfl, ?_⟩⟩
          change d.phy (d.regs MIREGADR) = φ a
          rw [hregs, haddr, hphy, hphy₀]
      | succ k =>
          rw [access, hmii, hgoes]
          exact ⟨⟨hcourse, haddr, hphy.trans hphy₀⟩, .inl ⟨k, rfl⟩⟩
    · rw [access, hmii, hdone]
      exact ⟨⟨hcourse, haddr, hphy.trans hphy₀⟩, .inr ⟨hmii.trans hdone, hmird.trans hvalue⟩⟩
  econ1 c v _ h := by
    have hne : MIREGADR ≠ ECON1 := by decide
    exact ⟨⟨h.1.1, (c.withEcon1_of_ne hne v).trans h.1.2.1, h.1.2.2⟩, h.2⟩

/-- The access is over. -/
theorem Reading.fetched (h : Reading φ course a c) (hidle : c.mii = none) :
    Stored φ course c ∧ c.mird = φ a := by
  obtain ⟨⟨hcourse, -, hphy⟩, ⟨k, hgoes⟩ | ⟨-, hvalue⟩⟩ := h
  · rw [hidle] at hgoes
    exact absurd hgoes.symm (Option.some_ne_none _)
  · exact ⟨⟨hcourse, hidle, hphy⟩, hvalue⟩

end Enc28j60

open Enc28j60

/-- Every access to the PHY ends while the driver waits for it. -/
def InTime (course : Course) : Prop := ∀ t, course.miiTime t < miiLimit

/-- The write that begins an access to the PHY, and the loop that waits for the end of it. -/
theorem On.accessPhy {K : Enc28j60 → Prop} (hI : Kept I) (hK : Kept K) (hr : target addr ≠ ECON1)
    (hfar : addr &&& BANK_MASK ≠ MISTAT &&& BANK_MASK)
    (hbegin : ∀ c, I c → K (c.poke (target addr) v) ∧ (c.poke (target addr) v).miiLeft ≤ miiLimit)
    (h : On old I m next s) :
    Run (do
      enc28j60Write addr v
      Enc.waitMii) s fun _ s' ↦ On old (fun c ↦ K c ∧ c.mii = none) m next s' := by
  refine (h.writeBank (J := fun c ↦ K c ∧ c.miiLeft ≤ miiLimit) hI ?_ hbegin).bind ?_
  · intro c hc
    rw [poke_bsel hr, hc]
  rintro _ s₁ ⟨h₁, hbank⟩
  refine h₁.waitMii_idle hK ?_
  rw [hbank]
  exact hfar

/-- `ENC28J60_PHY_Write` when the access ends in time. -/
theorem run_phyWrite (hI : Steady R I) (hR : ∀ r ∈ [MIREGADR, MIWRL], ¬ R r)
    (hQ : ∀ c, I c → c.course = course ∧ Q c.phy) (htime : InTime course) (h : On old I m next s) :
    Run (enc28j60PhyWrite a data) s fun _ s' ↦
      On old (fun c ↦ ∃ φ, Q φ ∧ Stored (Function.update φ a data) course c) m next s' := by
  refine (h.write (J := fun c ↦ I c ∧ c.regs MIREGADR = a) hI.toKept (by decide)
    (by decide) ?_).bind ?_
  · intro c hc
    exact ⟨hI.poke c MIREGADR a (hR _ (by decide)) hc, poke_plain_self (by decide) a⟩
  intro _ s₁ h₁
  have hkept := hI.toKept.and (kept_reg (by decide : MIREGADR ≠ ECON1) a)
  refine (h₁.write (J := fun c ↦ (I c ∧ c.regs MIREGADR = a) ∧ c.regs MIWRL = data.toUInt8) hkept
    (by decide) (by decide) ?_).bind ?_
  · rintro c ⟨hc, haddr⟩
    refine ⟨⟨hI.poke c MIWRL _ (hR _ (by decide)) hc, ?_⟩, poke_plain_self (by decide) _⟩
    rw [poke_plain_of_ne (by decide) (by decide), haddr]
  intro _ s₂ h₂
  have hkept' := hkept.and (kept_reg (by decide : MIWRL ≠ ECON1) data.toUInt8)
  refine (h₂.accessPhy (K := Writing Q course a data) hkept' kept_writing (by decide) (by decide)
    ?_).mono ?_
  · rintro c ⟨⟨hc, haddr⟩, hlo⟩
    have hne₁ : MIREGADR ≠ MIWRH := by decide
    have hne₂ : MIWRL ≠ MIWRH := by decide
    obtain ⟨hcourse, hphy⟩ := hQ c hc
    have hpoke : c.poke (target MIWRH) (data >>> 8).toUInt8 = { c with
        regs := Function.update c.regs MIWRH (data >>> 8).toUInt8
        mii := some (false, c.course.miiTime c.time) } := rfl
    have hregs {r : UInt8} (hr : r ≠ MIWRH) :
        Function.update c.regs MIWRH (data >>> 8).toUInt8 r = c.regs r :=
      Function.update_of_ne hr ..
    rw [hpoke]
    refine ⟨⟨⟨hcourse, (hregs hne₁).trans haddr, (hregs hne₂).trans hlo,
      Function.update_self MIWRH _ c.regs⟩, c.phy, hphy, .inl ⟨_, rfl, rfl⟩⟩, ?_⟩
    have hless := htime c.time
    rw [← hcourse] at hless
    exact hless
  intro _ s₃ h₃
  refine h₃.mono ?_
  rintro c ⟨⟨⟨hcourse, -⟩, φ, hφ, ⟨k, hgoes, -⟩ | ⟨-, hphy⟩⟩, hidle⟩
  · rw [hidle] at hgoes
    exact absurd hgoes.symm (Option.some_ne_none _)
  · exact ⟨φ, hφ, hcourse, hidle, hphy⟩

/-- `ENC28J60_PHY_Read` when the access ends in time. -/
theorem run_phyRead (htime : InTime course) (h : On old (Stored φ course) m next s) :
    Run (enc28j60PhyRead a) s fun w s' ↦ w = φ a ∧ On old (Stored φ course) m next s' := by
  have hsteady : Steady _ (Stored φ course) := steady_stored
  refine (h.read (V := fun _ ↦ Stored φ course) hsteady.toKept (by decide)
    fun c hc ↦ hsteady.looked c _ hc).bind ?_
  intro temp s₁ h₁
  refine (h₁.write (J := fun c ↦ Stored φ course c ∧ c.regs MIREGADR = a) hsteady.toKept (by decide)
    (by decide) ?_).bind ?_
  · intro c hc
    exact ⟨hsteady.poke c MIREGADR a (by decide) hc, poke_plain_self (by decide) a⟩
  intro _ s₂ h₂
  have hkept := hsteady.toKept.and (kept_reg (by decide : MIREGADR ≠ ECON1) a)
  refine (run_bind.1 (h₂.accessPhy (K := Reading φ course a) hkept kept_reading (by decide)
    (by decide) ?_)).bind ?_
  · rintro c ⟨hc, haddr⟩
    have hbegins : (temp ||| MICMD_MIIRD) &&& MICMD_MIIRD ≠ 0 := by
      rw [or_and_self]
      decide
    have hpoke : c.poke MICMD (temp ||| MICMD_MIIRD) = { c with
        regs := Function.update c.regs MICMD (temp ||| MICMD_MIIRD)
        mii := some (true, c.course.miiTime c.time) } := if_pos ⟨rfl, hbegins⟩
    have hne : MIREGADR ≠ MICMD := by decide
    have htarget : target MICMD = MICMD := by decide
    have hreg : Function.update c.regs MICMD (temp ||| MICMD_MIIRD) MIREGADR = c.regs MIREGADR :=
      Function.update_of_ne hne ..
    rw [htarget, hpoke]
    refine ⟨⟨⟨hc.course, hreg.trans haddr, hc.phy⟩, .inl ⟨_, rfl⟩⟩, ?_⟩
    have hless := htime c.time
    rw [← hc.course] at hless
    exact hless
  intro _ s₃ h₃
  refine Run.bind h₃ ?_
  intro _ s₄ h₄
  refine ((h₄.mono fun c hc ↦ hc.1.fetched hc.2).write
    (J := fun c ↦ Stored φ course c ∧ c.mird = φ a) (kept_stored _) (by decide)
    (by decide) ?_).bind ?_
  · rintro c ⟨hc, hvalue⟩
    have hends : ¬ (MICMD = MICMD ∧ temp &&& ~~~MICMD_MIIRD &&& MICMD_MIIRD ≠ 0) :=
      fun hends ↦ hends.2 (andNot_and_self _ _)
    have hpoke : c.poke MICMD (temp &&& ~~~MICMD_MIIRD) = { c with
        regs := Function.update c.regs MICMD (temp &&& ~~~MICMD_MIIRD) } := if_neg hends
    rw [hpoke]
    exact ⟨⟨hc.course, hc.mii, hc.phy⟩, hvalue⟩
  intro _ s₅ h₅
  refine (h₅.read (V := fun b c ↦ (Stored φ course c ∧ c.mird = φ a) ∧ b = (φ a).toUInt8)
    (kept_stored _) (by decide) fun c hc ↦ ⟨hc, ?_⟩).bind ?_
  · rw [← hc.2]
    rfl
  intro lo s₆ h₆
  obtain ⟨-, rfl⟩ := h₆.chip
  refine ((h₆.mono fun c hc ↦ hc.1).read
    (V := fun b c ↦ Stored φ course c ∧ b = (φ a >>> 8).toUInt8) (kept_stored _) (by decide)
    fun c hc ↦ ⟨hc.1, ?_⟩).bind ?_
  · rw [← hc.2]
    rfl
  intro hi s₇ h₇
  obtain ⟨-, rfl⟩ := h₇.chip
  exact run_pure.2 ⟨join_bytes _, h₇.mono fun c hc ↦ hc.1⟩

/-! ## Calls of the driver -/

/-- The functions that the application calls. -/
inductive Call where
  | init
  | read (addr : UInt8)
  | write (addr data : UInt8)
  | phyWrite (addr : UInt8) (data : UInt16)
  | phyRead (addr : UInt8)
  | packetSend (len : UInt32) (packet : Nat)
  | packetReceive (maxlen : UInt32) (packet : Nat)

/-- The call; what it returns is of no interest here. -/
def call : Call → Prog Board Unit
  | .init => do
      let _ ← enc28j60Init
  | .read addr => do
      let _ ← enc28j60Read addr
  | .write addr data => enc28j60Write addr data
  | .phyWrite addr data => enc28j60PhyWrite addr data
  | .phyRead addr => do
      let _ ← enc28j60PhyRead addr
  | .packetSend len packet => enc28j60PacketSend len packet
  | .packetReceive maxlen packet => do
      let _ ← enc28j60PacketReceive maxlen packet

/-- Who writes `ECON1` by `ENC28J60_Write` leaves the bank of the address selected. -/
def Call.KeepsBank : Call → Prop
  | .write addr data => addr &&& ADDR_MASK = ECON1 →
      data &&& (0x03 : UInt8) = (addr &&& BANK_MASK) >>> 5
  | _ => True

/-- The call leaves the register `a` of the PHY alone, and the registers that begin an access. -/
def Call.Spares (a : UInt8) : Call → Prop
  | .init => False
  | .write addr _ => target addr ≠ MIWRH ∧ target addr ≠ MICMD
  | .phyWrite addr _ => addr ≠ a
  | _ => True

theorem target_eq_econ1 : target addr = ECON1 → addr &&& ADDR_MASK = ECON1 := by
  revert addr
  decide +kernel

theorem Call.KeepsBank.bsel {data : UInt8} (h : (Call.write addr data).KeepsBank) (c : Enc28j60)
    (hc : c.bsel = (addr &&& BANK_MASK) >>> 5) :
    (c.poke (target addr) data).bsel = (addr &&& BANK_MASK) >>> 5 := by
  by_cases hecon : target addr = ECON1
  · rw [hecon, poke_econ1, ← h (target_eq_econ1 hecon), Enc28j60.bsel]
    have hregs : Function.update c.regs ECON1 (data &&& ~~~ECON1_TXRTS) ECON1 =
        data &&& ~~~ECON1_TXRTS := Function.update_self ..
    exact (congrArg (· &&& (0x03 : UInt8)) hregs).trans (andNot_and_of_disjoint rfl _)
  · rw [poke_bsel hecon, hc]

theorem steady_course : Steady (fun _ ↦ False) fun c ↦ c.course = course where
  pass c h := c.pass_course.trans h
  econ1 _ _ _ h := h
  looked c r h := (c.looked_phy r).1.trans h
  poke c r v _ h := (c.poke_phy r v).1.trans h

theorem advance_stored (h : Stored φ course c) (lo : UInt8) (a : Nat) :
    Stored φ course (c.advance lo a) := by
  obtain ⟨hcourse, hphy, hmii⟩ := c.advance_phy lo a
  exact ⟨hcourse.trans h.course, hmii.trans h.mii, hphy.trans h.phy⟩

theorem writeMem_stored (h : Stored φ course c) (b : UInt8) : Stored φ course (c.writeMem b) := by
  have hstore : Stored φ course { c with
      mem := Function.update c.mem (pointer c.regs EWRPTL) b
      written := pointer c.regs EWRPTL :: c.written } := ⟨h.course, h.mii, h.phy⟩
  exact advance_stored hstore _ _

/-- `ENC28J60_Init`: all its accesses are right, however it ends. -/
theorem run_init_right (haccesses : ∀ a ∈ s.glob.accesses, a ∈ old ∨ a.Right) :
    Run enc28j60Init s fun _ s' ↦ At old (fun c ↦ c.course = s.dev.chip.course) s' := by
  have hI : Steady _ fun c ↦ c.course = s.dev.chip.course := steady_course
  refine (run_init hI.toCalm hI hI (fun _ _ h ↦ h) (fun c hc ↦ hc) (fun m s' hs' ↦
    hs'.writeAll hI fun p hp ↦ ⟨bufferRegs_named hp, id⟩)
    (fun c hc ↦ hI.poke c ECON1 _ (fun h ↦ h) hc) haccesses).mono ?_
  rintro r s' (⟨-, hs'⟩ | ⟨-, hs', -⟩)
  · exact hs'.at
  · exact hs'.at

/-- The calls that do not go to the PHY. -/
def Call.Other : Call → Prop
  | .init | .phyWrite .. | .phyRead .. => False
  | _ => True

/-- The registers that these calls write, besides the one that a caller names. -/
def packetRegs : List UInt8 :=
  [EWRPTL, EWRPTH, ETXNDL, ETXNDH, MACON3, ERDPTL, ERDPTH, ERXRDPTL, ERXRDPTH, ECON1, ECON2]

/-- What such a call keeps. -/
theorem call_other {cl : Call} (hI : Steady R I) (hR : ∀ r ∈ packetRegs, ¬ R r)
    (hread : ∀ c, I c → I (Enc28j60.readMem c).2) (hwrite : ∀ c b, I c → I (Enc28j60.writeMem c b))
    (hother : cl.Other) (hbank : cl.KeepsBank)
    (hnamed : ∀ addr data, cl = .write addr data → ¬ R (target addr)) (h : At old I s) :
    Run (call cl) s fun _ s' ↦ At old I s' := by
  have hecon₁ (c : Enc28j60) (v : UInt8) (hc : I c) : I (c.poke ECON1 v) :=
    hI.poke c ECON1 v (hR _ (by decide)) hc
  have hsend : ∀ r ∈ [EWRPTL, EWRPTH, ETXNDL, ETXNDH, MACON3], r ∈ packetRegs := by decide +kernel
  have hreceive : ∀ r ∈ [ERDPTL, ERDPTH, ERXRDPTL, ERXRDPTH], r ∈ packetRegs := by decide +kernel
  cases cl with
  | init => exact hother.elim
  | phyWrite addr data => exact hother.elim
  | phyRead addr => exact hother.elim
  | read addr =>
      refine Run.bind (R := fun _ s' ↦ At old I s') ?_ fun _ _ h ↦ run_pure.2 h
      by_cases hname : Named addr
      · exact (h.read (V := fun _ ↦ I) hI.toKept hname
          fun c hc ↦ hI.looked c addr hc).mono fun _ _ h ↦ h.at
      · exact (h.readAny hI.toKept hI.looked hname).mono fun _ _ h ↦ h.at
  | write addr data =>
      exact (h.writeBank hI.toKept hbank.bsel fun c hc ↦
        hI.poke c _ data (hnamed _ _ rfl) hc).mono fun _ _ h ↦ h.1.at
  | packetSend len packet =>
      exact (h.packetSend hI.toKept (fun _ hc _ ↦ hc) hI (fun r hr ↦ hR r (hsend r hr)) hwrite
        (fun c hc ↦ hecon₁ c _ hc) (fun c hc ↦ hecon₁ c _ hc) len packet).mono fun _ _ h ↦ h.at
  | packetReceive maxlen packet =>
      exact (h.packetReceive hI (fun r hr ↦ hR r (hreceive r hr)) hread
        (fun c hc ↦ hI.poke c ECON2 _ (hR _ (by decide)) hc) maxlen packet).bind
          fun _ _ h ↦ run_pure.2 h

/-- **One call**: all its accesses are right. -/
theorem call_right {cl : Call} (hcl : cl.KeepsBank) (h : At old (fun c ↦ c.course = course) s) :
    Run (call cl) s fun _ s' ↦ At old (fun c ↦ c.course = course) s' := by
  have hI : Steady (fun _ ↦ False) fun c ↦ c.course = course := steady_course
  have hother (ho : cl.Other) : Run (call cl) s fun _ s' ↦ At old (fun c ↦ c.course = course) s' :=
    call_other hI (fun _ _ h ↦ h) (fun c hc ↦ (advance_phy _ _ _).1.trans hc)
      (fun c b hc ↦ (advance_phy _ _ _).1.trans hc) ho hcl (fun _ _ _ h ↦ h) h
  cases cl with
  | init =>
      obtain rfl : s.dev.chip.course = course := h.chip
      exact (run_init_right h.accesses).bind fun _ _ h ↦ run_pure.2 h
  | phyWrite addr data => exact (h.phyWrite hI (fun _ _ h ↦ h) addr data).mono fun _ _ h ↦ h.at
  | phyRead addr => exact (h.phyRead hI (fun _ _ h ↦ h) addr).bind fun _ _ h ↦ run_pure.2 h.at
  | read addr => exact hother trivial
  | write addr data => exact hother trivial
  | packetSend len packet => exact hother trivial
  | packetReceive maxlen packet => exact hother trivial

/-- The register `a` of the PHY holds `w`. -/
def Keeping (a : UInt8) (w : UInt16) (course : Course) (c : Enc28j60) : Prop :=
  ∃ φ : UInt8 → UInt16, φ a = w ∧ Stored φ course c

/-- **One call** that spares a register of the PHY. -/
theorem call_spares {cl : Call} {w : UInt16} (htime : InTime course)
    (hcl : cl.KeepsBank ∧ cl.Spares a) (h : At old (Keeping a w course) s) :
    Run (call cl) s fun _ s' ↦ At old (Keeping a w course) s' := by
  obtain ⟨hbank, hspares⟩ := hcl
  obtain ⟨φ, hφ, hstored⟩ := h.chip
  have h : On old (Stored φ course) s.mem s.glob.nextPacketPtr s := { h with chip := hstored }
  have hI : Steady (fun r ↦ r = MIWRH ∨ r = MICMD) (Stored φ course) := steady_stored
  have hkeep {s' : Board} (hs' : At old (Stored φ course) s') : At old (Keeping a w course) s' :=
    hs'.mono fun c hc ↦ ⟨φ, hφ, hc⟩
  have hnamed (addr data : UInt8) (heq : cl = .write addr data) :
      ¬ (target addr = MIWRH ∨ target addr = MICMD) := by
    subst heq
    exact not_or.2 hspares
  have hother (ho : cl.Other) : Run (call cl) s fun _ s' ↦ At old (Keeping a w course) s' :=
    (call_other hI (by decide +kernel) (fun c hc ↦ advance_stored hc _ _)
      (fun c b hc ↦ writeMem_stored hc b) ho hbank hnamed h).mono fun _ _ h ↦ hkeep h
  cases cl with
  | init => exact absurd hspares id
  | phyWrite addr data =>
      refine (run_phyWrite (Q := (· = φ)) hI (by decide +kernel)
        (fun c hc ↦ ⟨hc.course, hc.phy⟩) htime h).mono ?_
      intro _ s' hs'
      refine hs'.at.mono ?_
      rintro c ⟨_, rfl, hc⟩
      have hne : a ≠ addr := Ne.symm hspares
      exact ⟨_, (Function.update_of_ne hne _ _).trans hφ, hc⟩
  | phyRead addr =>
      exact (run_phyRead htime h).bind fun _ _ h ↦ run_pure.2 (hkeep h.2.at)
  | read addr => exact hother trivial
  | write addr data => exact hother trivial
  | packetSend len packet => exact hother trivial
  | packetReceive maxlen packet => exact hother trivial

/-- Every register of the PHY that is written is read back, whatever spares it in between. -/
def PhyLaw (s : Board) : Prop :=
  InTime s.dev.chip.course → ∀ (a : UInt8) (v : UInt16) (between : List Call),
    (∀ cl ∈ between, cl.KeepsBank ∧ cl.Spares a) →
    Run (do
      enc28j60PhyWrite a v
      let _ ← runCalls call between
      enc28j60PhyRead a) s fun w _ ↦ w = v

theorem phyLaw_of_at (h : At old (fun c ↦ c.course = course) s) : PhyLaw s := by
  intro htime a v between hbetween
  obtain rfl : s.dev.chip.course = course := h.chip
  have hI : Steady _ fun c ↦ c.course = s.dev.chip.course := steady_course
  refine (run_phyWrite (Q := fun _ ↦ True) hI (fun _ _ h ↦ h) (fun c hc ↦ ⟨hc, trivial⟩) htime
    h).bind ?_
  intro _ s₁ h₁
  have h₁' : At old (Keeping a v s.dev.chip.course) s₁ := by
    refine h₁.at.mono ?_
    rintro c ⟨φ, -, hc⟩
    exact ⟨_, Function.update_self a v φ, hc⟩
  refine (run_runCalls_inv _ _ (fun cl s' hcl hs' ↦ call_spares htime hcl hs') hbetween h₁').bind ?_
  intro _ s₂ h₂
  obtain ⟨φ, hφ, hstored⟩ := h₂.chip
  refine (run_phyRead htime { h₂ with chip := hstored }).mono ?_
  rintro w s₃ ⟨rfl, -⟩
  exact hφ

/-! ## Whole runs -/

/-- The history begins here. -/
def unnoted (s : Board) : Board := { s with glob := { s.glob with accesses := [] } }

/-- `ENC28J60_Init`, whatever bank was thought to be selected, and then these calls: all accesses
are right, and the registers of the PHY are a memory. -/
def Coherent (calls : List Call) (s : Board) : Prop :=
  Run (do
    let _ ← enc28j60Init
    runCalls call calls) (unnoted s) fun _ s' ↦ (∀ a ∈ s'.glob.accesses, a.Right) ∧ PhyLaw s'

/-- **The banks agree** in every run in which no caller selects another one by writing `ECON1`. -/
theorem banks_agree {calls : List Call} (hcalls : ∀ cl ∈ calls, cl.KeepsBank) (s : Board) :
    Coherent calls s := by
  have hinit : Run enc28j60Init (unnoted s) fun _ s' ↦
      At [] (fun c ↦ c.course = s.dev.chip.course) s' :=
    run_init_right fun a ha ↦ absurd ha List.not_mem_nil
  refine hinit.bind ?_
  intro _ s₁ h₁
  refine (run_runCalls_inv Call.KeepsBank _ (fun cl s' hcl hs' ↦ call_right hcl hs') hcalls h₁).mono
    ?_
  intro _ s₂ h₂
  refine ⟨fun a ha ↦ ?_, phyLaw_of_at h₂⟩
  rcases h₂.accesses a ha with hold | hright
  · exact absurd hold List.not_mem_nil
  · exact hright

/-- A chip with a ready clock, and no network. -/
def quiet : Course where
  arrivals _ := []
  estat _ := ESTAT_CLKRDY
  eir _ := 0
  rests n := ⟨n, le_rfl, rfl⟩
  txTime _ := 100
  txStatus _ := #v[0, 0, 0, 0, 0, 0, 0]
  miiTime _ := 20
  dummy _ := 0
  revision := 6

/-- Before `ENC28J60_Init`: the driver believes in a bank that is not selected. -/
def board : Board where
  mem _ := 0
  dev := ⟨{ course := quiet, time := 0, looks := 0, regs := resetRegs, mem := fun _ ↦ 0
            phy := fun _ ↦ 0, mird := 0, erxrdpt := 0, erxwrpt := 0, epktcnt := 0, tx := none
            mii := none, stored := [], written := [] }, none⟩
  glob :=
    { enc28j60bank := 0x60, nextPacketPtr := 0, macaddr := #v[0, 0, 0, 0, 0, 0], accesses := [] }

/-- The second write switches to the bank that is selected anyway. -/
theorem banks_agree_board :
    (∀ cl ∈ [Call.write ERDPTL 0x12, .write ECON1 0x04, .read MACON1], cl.KeepsBank) ∧
      Coherent [.write ERDPTL 0x12, .write ECON1 0x04, .read MACON1] board := by
  have hcalls : ∀ cl ∈ [Call.write ERDPTL 0x12, .write ECON1 0x04, .read MACON1], cl.KeepsBank := by
    intro cl hcl
    simp only [List.mem_cons, List.not_mem_nil, or_false] at hcl
    rcases hcl with rfl | rfl | rfl
    · exact fun h ↦ absurd h (by decide)
    · exact fun _ ↦ rfl
    · trivial
  exact ⟨hcalls, banks_agree hcalls board⟩

/-! ## Another bank behind the back of the driver -/

/-- The driver does not select the bank that it believes to be selected. -/
theorem run_read_stale (hcached : s.glob.enc28j60bank = addr &&& BANK_MASK)
    (hstale : s.dev.chip.bsel ≠ (addr &&& BANK_MASK) >>> 5) :
    Run (enc28j60Read addr) s fun _ s' ↦ ∃ a ∈ s'.glob.accesses, ¬ a.Right := by
  have hset : Run (enc28j60SetBank addr) s fun _ s' ↦ s = s' := by
    refine run_bind.2 (run_read.2 ?_)
    rw [if_neg (not_not.2 hcached.symm)]
    exact run_pure.2 rfl
  refine hset.bind ?_
  rintro _ _ rfl
  refine run_noted ((run_readOp_any (I := fun _ ↦ True) (fun _ _ ↦ trivial) (fun _ _ _ ↦ trivial)
    trivial).mono ?_)
  rintro v _ ⟨c, -, -, rfl⟩
  refine ⟨_, List.mem_cons_self, fun hright ↦ hstale ?_⟩
  rw [← hcached]
  exact hright.bsel

theorem run_write_econ1 (h : At old (fun _ ↦ True) s) (v : UInt8) :
    Run (enc28j60Write ECON1 v) s fun _ s' ↦
      s'.dev.chip.bsel = v &&& 0x03 ∧ s'.glob.enc28j60bank = 0 := by
  have hkept : Kept fun _ ↦ True := ⟨fun _ _ ↦ trivial, fun _ _ _ _ ↦ trivial⟩
  refine (run_setBank hkept h.chip h.hbank).bind ?_
  rintro _ _ ⟨c, rx, -, hbsel, rfl⟩
  refine run_bind.2 (run_noted ?_)
  rw [run_bind, Run, writeOp_eq (.inl rfl)]
  refine ⟨(), _, rfl, run_pure.2 (run_pure.2 ⟨?_, rfl⟩)⟩
  have hbank : c.pass.pass.bsel = (ECON1 &&& BANK_MASK) >>> 5 := by
    rw [Enc28j60.pass_bsel, Enc28j60.pass_bsel, hbsel]
  have htarget : target ECON1 = ECON1 := by decide
  dsimp only
  rw [Enc28j60.change_write hbank, htarget, poke_econ1, Enc28j60.bsel]
  have hregs : Function.update c.pass.pass.regs ECON1 (v &&& ~~~ECON1_TXRTS) ECON1 =
      v &&& ~~~ECON1_TXRTS := Function.update_self ..
  exact (congrArg (· &&& (0x03 : UInt8)) hregs).trans (andNot_and_of_disjoint rfl _)

/-- Whoever selects bank 1 by writing `ECON1` makes the driver read a register of bank 1 in the
place of one of bank 0. -/
theorem not_coherent (s : Board) : ¬ Coherent [.write ECON1 0x01, .read ERDPTL] s := by
  rintro ⟨os, s', hrun, hright, -⟩
  have hinit : Run enc28j60Init (unnoted s) fun _ s' ↦ At [] (fun _ ↦ True) s' :=
    (run_init_right fun a ha ↦ absurd ha List.not_mem_nil).mono fun _ _ h ↦ h.mono fun _ _ ↦ trivial
  have hstale : Run (do
      let _ ← enc28j60Init
      runCalls call [.write ECON1 0x01, .read ERDPTL]) (unnoted s)
      fun _ s' ↦ ∃ a ∈ s'.glob.accesses, ¬ a.Right := by
    refine hinit.bind ?_
    intro _ s₁ h₁
    refine (run_write_econ1 h₁ 0x01).bind ?_
    rintro _ s₂ ⟨hbsel, hcached⟩
    have hne : s₂.dev.chip.bsel ≠ (ERDPTL &&& BANK_MASK) >>> 5 := by
      rw [hbsel]
      decide
    refine Run.bind (R := fun _ s' ↦ ∃ a ∈ s'.glob.accesses, ¬ a.Right) ?_ fun _ _ h ↦ run_pure.2 h
    refine Run.bind (R := fun _ s' ↦ ∃ a ∈ s'.glob.accesses, ¬ a.Right) ?_ fun _ _ h ↦ run_pure.2 h
    exact (run_read_stale hcached hne).bind fun _ _ h ↦ run_pure.2 h
  obtain ⟨a, ha, hwrong⟩ := hstale.elim hrun
  exact hwrong (hright a ha)

/-- So it is on the board at hand. -/
theorem stale_bank : ¬ Coherent [.write ECON1 0x01, .read ERDPTL] board := not_coherent board

end Stm32F1.Enc
