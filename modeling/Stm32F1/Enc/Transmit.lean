import Stm32F1.Enc.InOrder
import Stm32F1.Enc.Send

/-!
# The transmit buffer

The receiver stores frames in the ring and nowhere else, and the status vector of
a transmission goes behind the packet, or round to the ring.  So the packet that
`ENC28J60_Packet_Send` has laid down stays in the transmit buffer, whatever
arrives and however the transmission ends.
-/

namespace Stm32F1.Enc

open Prog Mcu Enc28j60

variable {old : List (Access (Framed Enc28j60))} {m : Nat → UInt8} {next len : UInt32} {s : Board}
  {a k n size : Nat} {c : Enc28j60} {r v b : UInt8} {g : Nat → UInt8}

/-! ## The receiver stays in the ring -/

/-- The ring is where `ENC28J60_Init` puts it, and pointers move on by themselves. -/
structure Bounded (c : Enc28j60) : Prop where
  erxst : pointer c.regs ERXSTL = 0
  erxnd : pointer c.regs ERXNDL = RXSTOP_INIT.toNat
  autoinc : c.regs ECON2 &&& ECON2_AUTOINC ≠ 0
  erxwrpt : c.erxwrpt < ringSize

theorem Bounded.after (h : Bounded c) : c.after = ringNext := by
  funext a
  rw [Enc28j60.after, h.erxst, h.erxnd, ringNext]

/-- The registers that bound the ring. -/
def BoundReg (r : UInt8) : Prop :=
  r = ERXSTL ∨ r = ERXSTL + 1 ∨ r = ERXNDL ∨ r = ERXNDL + 1 ∨ r = ECON2

instance (r : UInt8) : Decidable (BoundReg r) := inferInstanceAs (Decidable (_ ∨ _))

theorem Bounded.congr {c' : Enc28j60} (h : Bounded c)
    (hregs : ∀ r, BoundReg r → c'.regs r = c.regs r) (hwr : c'.erxwrpt = c.erxwrpt) :
    Bounded c' where
  erxst := by
    rw [pointer, hregs _ (by decide), hregs _ (by decide)]
    exact h.erxst
  erxnd := by
    rw [pointer, hregs _ (by decide), hregs _ (by decide)]
    exact h.erxnd
  autoinc := by
    rw [hregs _ (by decide)]
    exact h.autoinc
  erxwrpt := hwr ▸ h.erxwrpt

theorem Ring.bounded {p freed : Nat} {taken front : List Frame} (h : Ring p taken front freed c) :
    Bounded c := by
  obtain ⟨rest, h⟩ := h
  refine ⟨h.erxst, h.erxnd, h.autoinc, ?_⟩
  rw [h.erxwrpt]
  exact ringNext_iterate_lt h.lt

theorem Bounded.receive (h : Bounded c) (f : Frame) :
    Bounded (c.receive f) ∧ ∀ a, ringSize ≤ a → (c.receive f).mem a = c.mem a := by
  rcases c.receive_eq f with heq | ⟨-, -, -, heq⟩
  · rw [heq]
    exact ⟨h, fun _ _ ↦ rfl⟩
  · rw [heq, h.after]
    refine ⟨⟨h.erxst, h.erxnd, h.autoinc, ringNext_iterate_lt h.erxwrpt⟩, fun a ha ↦ ?_⟩
    exact storeAlong_off fun k _ ↦ ((ringNext_iterate_lt h.erxwrpt).trans_le ha).ne

theorem iterate_vectorAddr (c : Enc28j60) (k : Nat) :
    (fun a ↦ (a + 1) % 8192)^[k] (c.vectorAddr 0) = c.vectorAddr k := by
  induction k with
  | zero => rfl
  | succ k ih =>
      rw [Function.iterate_succ_apply', ih, vectorAddr, vectorAddr]
      omega

/-- A transmission writes its vector only. -/
theorem transmit_mem (c : Enc28j60) (ha : ∀ k < 7, c.vectorAddr k ≠ a) :
    c.transmit.mem a = c.mem a := by
  rw [transmit]
  split
  · refine storeAlong_off fun k hk ↦ ?_
    rw [iterate_vectorAddr]
    exact ha k (hk.trans_eq Vector.length_toList)
  · rfl
  · rfl

theorem access_mem (c : Enc28j60) : c.access.mem = c.mem ∧ c.access.erxwrpt = c.erxwrpt := by
  rw [access]
  split <;> exact ⟨rfl, rfl⟩

theorem transmit_erxwrpt (c : Enc28j60) : c.transmit.erxwrpt = c.erxwrpt := by
  rw [transmit]
  split <;> rfl

/-- Time passes. -/
theorem Bounded.pass (h : Bounded c) : Bounded c.pass ∧
    ∀ a, ringSize ≤ a → (∀ k < 7, c.vectorAddr k ≠ a) → c.pass.mem a = c.mem a := by
  let d := (c.course.arrivals c.time).foldl Enc28j60.receive c
  have harrive : Bounded d ∧ d.regs = c.regs ∧ ∀ a, ringSize ≤ a → d.mem a = c.mem a := by
    refine foldl_receive (I := fun d ↦ Bounded d ∧ d.regs = c.regs ∧
      ∀ a, ringSize ≤ a → d.mem a = c.mem a) ?_ _ ⟨h, rfl, fun _ _ ↦ rfl⟩
    rintro d f ⟨hd, hregs, hmem⟩
    obtain ⟨hd', hmem'⟩ := hd.receive f
    exact ⟨hd', (same_receive d f).regs.trans hregs, fun a ha ↦ (hmem' a ha).trans (hmem a ha)⟩
  obtain ⟨hd, hregs, hmem⟩ := harrive
  obtain ⟨hmem', hwr'⟩ := access_mem d.transmit
  refine ⟨hd.congr (fun r _ ↦ ?_) (hwr'.trans (transmit_erxwrpt d)), fun a ha hvector ↦ ?_⟩
  · exact (congrFun (same_access d.transmit).regs r).trans (congrFun (same_transmit d).regs r)
  · have hvector' : d.vectorAddr = c.vectorAddr := by
      funext k
      rw [vectorAddr, hregs, vectorAddr]
    change d.transmit.access.mem a = c.mem a
    rw [hmem', transmit_mem d (hvector' ▸ hvector), hmem a ha]

namespace Enc28j60

/-- What a write to a register leaves alone. -/
theorem poke_other (c : Enc28j60) (r v : UInt8) : (∀ r' ≠ r, (c.poke r v).regs r' = c.regs r') ∧
    (r ≠ ERXSTL → r ≠ ERXSTH → (c.poke r v).erxwrpt = c.erxwrpt) ∧ (c.poke r v).mem = c.mem := by
  have hupdate (w r' : UInt8) (hne : r' ≠ r) : Function.update c.regs r w r' = c.regs r' :=
    Function.update_of_ne hne ..
  by_cases hact : Acting r
  · rcases hact with rfl | rfl | rfl | rfl | rfl
    · exact ⟨hupdate _, fun _ _ ↦ rfl, rfl⟩
    · exact ⟨hupdate _, fun hne ↦ absurd rfl hne, rfl⟩
    · exact ⟨hupdate _, fun _ hne ↦ absurd rfl hne, rfl⟩
    · exact ⟨hupdate _, fun _ _ ↦ rfl, rfl⟩
    · exact ⟨hupdate _, fun _ _ ↦ rfl, rfl⟩
  · obtain ⟨regs, mii, hpoke, hregs, -⟩ := c.poke_of_not_acting hact v
    rw [hpoke]
    exact ⟨hregs, fun _ _ ↦ rfl, rfl⟩

end Enc28j60

theorem steady_bounded : Steady BoundReg Bounded where
  pass c h := h.pass.1
  econ1 c v _ h := by
    refine h.congr (fun r hr ↦ c.withEcon1_of_ne ?_ v) rfl
    rintro rfl
    exact absurd hr (by decide)
  looked c r h := by
    rw [looked]
    split
    · exact h.congr (fun _ _ ↦ rfl) rfl
    · exact h
  poke c r v hr h := by
    obtain ⟨hregs, hwr, -⟩ := c.poke_other r v
    refine h.congr (fun r' hr' ↦ hregs r' fun heq ↦ hr (heq ▸ hr')) (hwr ?_ ?_)
    · rintro rfl
      exact hr (.inl rfl)
    · rintro rfl
      exact hr (.inr (.inl rfl))

/-- The packet counter is told. -/
theorem Bounded.count (h : Bounded c) :
    Bounded (c.poke ECON2 (c.peek ECON2 ||| ECON2_PKTDEC)) := by
  have hpeek : c.peek ECON2 = c.regs ECON2 := rfl
  have hself : Function.update c.regs ECON2 ((c.peek ECON2 ||| ECON2_PKTDEC) &&& ~~~ECON2_PKTDEC)
      ECON2 = (c.peek ECON2 ||| ECON2_PKTDEC) &&& ~~~ECON2_PKTDEC := Function.update_self ..
  rw [poke_econ2]
  refine ⟨?_, ?_, ?_, h.erxwrpt⟩
  · exact (pointer_update (by decide) (by decide) c.regs _).trans h.erxst
  · exact (pointer_update (by decide) (by decide) c.regs _).trans h.erxnd
  · dsimp only
    rw [hself, andNot_and_of_disjoint rfl, or_and_of_disjoint rfl, hpeek]
    exact h.autoinc

/-- A pointer moves on. -/
theorem Bounded.advance (h : Bounded c) {lo : UInt8} (hlo : ¬ BoundReg lo)
    (hhi : ¬ BoundReg (lo + 1)) (a : Nat) : Bounded (c.advance lo a) := by
  rw [Enc28j60.advance, if_pos h.autoinc]
  refine h.congr (fun r hr ↦ ?_) rfl
  have hne : r ≠ lo := by
    rintro rfl
    exact hlo hr
  have hne' : r ≠ lo + 1 := by
    rintro rfl
    exact hhi hr
  exact (Function.update_of_ne hne' ..).trans (Function.update_of_ne hne ..)

theorem Bounded.readMem (h : Bounded c) : Bounded c.readMem.2 :=
  h.advance (by decide) (by decide) _

theorem Bounded.writeMem (h : Bounded c) (b : UInt8) : Bounded (c.writeMem b) := by
  have hwritten : Bounded { c with
      mem := Function.update c.mem (pointer c.regs EWRPTL) b
      written := pointer c.regs EWRPTL :: c.written } := h.congr (fun _ _ ↦ rfl) rfl
  exact hwritten.advance (by decide) (by decide) _

/-! ## The packet stays -/

/-- The first bytes of a packet whose end is set are in the transmit buffer. -/
structure Carries (size n : Nat) (g : Nat → UInt8) (c : Enc28j60) : Prop extends Bounded c where
  etxnd : pointer c.regs ETXNDL = TXSTART_INIT.toNat + size
  bytes : ∀ i < n, c.mem (TXSTART_INIT.toNat + i) = g i

/-- What the packet rests on besides the bounds of the ring. -/
theorem Carries.congr {c' : Enc28j60} (h : Carries size n g c) (hbounded : Bounded c')
    (hnd : pointer c'.regs ETXNDL = pointer c.regs ETXNDL)
    (hmem : ∀ i < n, c'.mem (TXSTART_INIT.toNat + i) = c.mem (TXSTART_INIT.toNat + i)) :
    Carries size n g c' :=
  { hbounded with
    etxnd := hnd.trans h.etxnd
    bytes := fun i hi ↦ (hmem i hi).trans (h.bytes i hi) }

theorem calm_carries (hn : n ≤ size + 1) (hsize : size ≤ 1518) : Calm (Carries size n g) where
  pass c h := by
    have hstart : TXSTART_INIT.toNat = 6673 := rfl
    have hring : ringSize = 6673 := rfl
    obtain ⟨hbounded, hmem⟩ := h.toBounded.pass
    refine h.congr hbounded (by rw [c.pass_regs]) fun i hi ↦ hmem _ (by omega) fun k hk ↦ ?_
    rw [vectorAddr, h.etxnd]
    omega
  econ1 c v hv h := h.congr (steady_bounded.econ1 c v hv h.toBounded)
    (pointer_update (by decide) (by decide) c.regs v) fun _ _ ↦ rfl
  looked c r h := by
    rw [looked]
    split
    · exact h.congr (h.toBounded.congr (fun _ _ ↦ rfl) rfl) rfl fun _ _ ↦ rfl
    · exact h

/-- The transmission begins, or is given up. -/
theorem Carries.poke_econ1 (h : Carries size n g c) (v : UInt8) :
    Carries size n g (c.poke ECON1 v) := by
  have hbounded : Bounded (c.poke ECON1 v) := steady_bounded.poke c ECON1 v (by decide) h.toBounded
  exact h.congr hbounded (pointer_update (by decide) (by decide) c.regs _) fun _ _ ↦ rfl

/-- So far `k` bytes of the packet are there, with the control byte. -/
structure Loading (size k : Nat) (g : Nat → UInt8) (c : Enc28j60) : Prop
    extends Carries size k g c where
  ewrpt : pointer c.regs EWRPTL = (TXSTART_INIT.toNat + k) % 8192

theorem Loading.pass (h : Loading size k g c) (hk : k ≤ size + 1) (hsize : size ≤ 1518) :
    Loading size k g c.pass :=
  { (calm_carries hk hsize).pass c h.toCarries with ewrpt := by rw [c.pass_regs, h.ewrpt] }

/-- One more byte. -/
theorem Loading.writeMem (h : Loading size k g c) (hk : k ≤ size) (hsize : size ≤ 1518)
    (hb : b = g k) : Loading size (k + 1) g (c.writeMem b) := by
  have hstart : TXSTART_INIT.toNat = 6673 := rfl
  have hbounded := h.toBounded.writeMem b
  have hptr : pointer c.regs EWRPTL = TXSTART_INIT.toNat + k := by
    rw [h.ewrpt]
    exact Nat.mod_eq_of_lt (by omega)
  have hmem : (c.writeMem b).mem = Function.update c.mem (TXSTART_INIT.toNat + k) b := by
    rw [Enc28j60.writeMem, Enc28j60.advance, if_pos h.autoinc, hptr]
  have hregs : (c.writeMem b).regs =
      setPointer c.regs EWRPTL ((TXSTART_INIT.toNat + k + 1) % 8192) := by
    rw [Enc28j60.writeMem, Enc28j60.advance, if_pos h.autoinc, hptr]
  refine { hbounded with etxnd := ?_, bytes := fun i hi ↦ ?_, ewrpt := ?_ }
  · rw [hregs, setPointer, pointer_update (by decide) (by decide),
      pointer_update (by decide) (by decide)]
    exact h.etxnd
  · rw [hmem]
    rcases Nat.lt_succ_iff_lt_or_eq.1 hi with hlt | rfl
    · rw [Function.update_of_ne (by omega), h.bytes i hlt]
    · rw [Function.update_self, hb]
  · rw [hregs, pointer_setPointer, Nat.mod_mod, Nat.add_assoc]

/-- A packet with its control byte. -/
def imageOf (m : Nat → UInt8) (packet : Nat) : Nat → UInt8
  | 0 => 0x00
  | i + 1 => m (packet + i)

/-- The packet is laid down with its control byte, beside what it does not touch. -/
theorem On.sendBuffer_carries {R : UInt8 → Prop} {F : Enc28j60 → Prop} (hF : Steady R F)
    (hR : ∀ r ∈ [EWRPTL, EWRPTH, ETXNDL, ETXNDH], ¬ R r)
    (hwrite : ∀ c b, F c → F (Enc28j60.writeMem c b)) (hlen : len.toNat ≤ 1518) (packet : Nat)
    (h : On old (fun c ↦ Bounded c ∧ F c) m next s) :
    Run (Enc.sendBuffer len packet) s fun _ s' ↦
      On old (fun c ↦ Carries len.toNat (len.toNat + 1) (imageOf m packet) c ∧ F c) m next s' := by
  have hbound : ∀ r ∈ [EWRPTL, EWRPTH, ETXNDL, ETXNDH], ¬ BoundReg r := by decide +kernel
  refine (h.lay
    (K := fun k c ↦ (k ≤ len.toNat + 1 → Loading len.toNat k (imageOf m packet) c) ∧ F c)
    (steady_bounded.and hF) (fun r hr ↦ not_or.2 ⟨hbound r hr, hR r hr⟩) hlen ?_ ?_ ?_ ?_).mono ?_
  · exact fun k c hc ↦ ⟨fun hk ↦ (hc.1 hk).pass hk hlen, hF.pass c hc.2⟩
  · intro c hc hnd hwr
    have hstart : TXSTART_INIT.toNat = 6673 := rfl
    refine ⟨fun _ ↦
      { hc.1 with etxnd := hnd, bytes := fun i hi ↦ absurd hi (Nat.not_lt_zero i), ewrpt := ?_ },
      hc.2⟩
    rw [hwr, hstart]
  · exact fun c hc ↦ ⟨fun _ ↦ (hc.1 (Nat.zero_le _)).writeMem (Nat.zero_le _) hlen rfl,
      hwrite c _ hc.2⟩
  · exact fun k c hk hc ↦ ⟨fun _ ↦ (hc.1 (Nat.succ_le_succ hk.le)).writeMem hk hlen rfl,
      hwrite c _ hc.2⟩
  · intro _ s' hs'
    exact hs'.mono fun c hc ↦ ⟨(hc.1 le_rfl).toCarries, hc.2⟩

/-- **`ENC28J60_Packet_Send`** leaves the packet, with its control byte, in the transmit buffer. -/
theorem On.packetSend_carries (h : On old Bounded m next s) (hlen : len.toNat ≤ 1518)
    (packet : Nat) : Run (enc28j60PacketSend len packet) s fun _ s' ↦
      On old (Carries len.toNat (len.toNat + 1) (imageOf m packet)) m next s' := by
  have hcarries := calm_carries (g := imageOf m packet) (le_refl (len.toNat + 1)) hlen
  refine h.send steady_bounded.toKept ?_ hcarries.pass (fun c hc ↦ hc.poke_econ1 _) hcarries
    fun c hc ↦ hc.poke_econ1 _
  intro s₁ h₁
  refine Run.mono ((h₁.mono fun c hc ↦ ⟨hc.1, trivial⟩).sendBuffer_carries steady_true
    (fun _ _ h ↦ h) (fun _ _ _ ↦ trivial) hlen packet) ?_
  intro _ s₂ h₂
  exact h₂.mono fun c hc ↦ hc.1

end Stm32F1.Enc
