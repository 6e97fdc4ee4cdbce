import Stm32F1.Enc.Receive
import Stm32F1.Enc.Coherent

/-!
# Sending

`ENC28J60_Packet_Send` lays a packet down from `TXSTART_INIT` on, behind the receive
ring.  The chip adds a status vector of seven bytes behind the packet when it has
been sent.  The transmit buffer is as long as a packet of `MAX_FRAMELEN` bytes with
its control byte, so there is no room for the vector of a long one: it goes on at
address 0, in the ring.
-/

namespace Stm32F1.Enc

open Prog Mcu Enc28j60

variable {old : List (Access (Framed Enc28j60))} {R : UInt8 → Prop} {I : Enc28j60 → Prop}
  {m : Nat → UInt8} {next len : UInt32} {s : Board} {a k packet : Nat} {c : Enc28j60}
  {r v b : UInt8}

/-! ## What the transmitter rests on -/

namespace Enc28j60

/-- Registers other than `ECON1` are no business of the transmitter. -/
theorem poke_tx (hr : r ≠ ECON1) (v : UInt8) : (c.poke r v).tx = c.tx ∧
    (c.poke r v).written = c.written ∧ ∀ r' ≠ r, (c.poke r v).regs r' = c.regs r' := by
  have hupdate (w r' : UInt8) (hne : r' ≠ r) : Function.update c.regs r w r' = c.regs r' :=
    Function.update_of_ne hne ..
  by_cases hact : Acting r
  · rcases hact with rfl | rfl | rfl | rfl | rfl
    · exact ⟨rfl, rfl, hupdate _⟩
    · exact ⟨rfl, rfl, hupdate _⟩
    · exact ⟨rfl, rfl, hupdate _⟩
    · exact absurd rfl hr
    · exact ⟨rfl, rfl, hupdate _⟩
  · obtain ⟨regs, mii, hpoke, hregs, -⟩ := c.poke_of_not_acting hact v
    rw [hpoke]
    exact ⟨rfl, rfl, hregs⟩

/-- The end of a transmission is the only thing that time does here. -/
theorem pass_written (c : Enc28j60) :
    (c.tx = some 0 ∧ c.pass.tx = none ∧
      c.pass.written = (List.range 7).map c.vectorAddr ++ c.written) ∨
    (c.pass.written = c.written ∧ (c.pass.tx = none ↔ c.tx = none)) := by
  have harrive : ((c.course.arrivals c.time).foldl receive c).tx = c.tx ∧
      ((c.course.arrivals c.time).foldl receive c).written = c.written ∧
      ((c.course.arrivals c.time).foldl receive c).regs = c.regs := by
    refine foldl_receive (I := fun d ↦ d.tx = c.tx ∧ d.written = c.written ∧ d.regs = c.regs) ?_ _
      ⟨rfl, rfl, rfl⟩
    intro d f hd
    rcases d.receive_eq f with heq | ⟨-, -, -, heq⟩
    · rwa [heq]
    · rw [heq]
      exact hd
  obtain ⟨htx, hwritten, hregs⟩ := harrive
  generalize hd : (c.course.arrivals c.time).foldl receive c = d at htx hwritten hregs
  have haccess : d.transmit.access.tx = d.transmit.tx ∧
      d.transmit.access.written = d.transmit.written := by
    rw [access]
    split <;> exact ⟨rfl, rfl⟩
  have hpass : c.pass = { d.transmit.access with time := c.time + 1 } := by rw [Enc28j60.pass, hd]
  have hvector : d.vectorAddr = c.vectorAddr := by
    funext k
    rw [vectorAddr, hregs, vectorAddr]
  rw [hpass]
  change (c.tx = some 0 ∧ d.transmit.access.tx = none ∧ d.transmit.access.written = _) ∨
    (d.transmit.access.written = c.written ∧ (d.transmit.access.tx = none ↔ c.tx = none))
  rw [haccess.1, haccess.2, ← hwritten, ← htx, ← hvector, transmit]
  rcases hcase : d.tx with _ | _ | k
  · refine .inr ⟨rfl, ?_⟩
    rw [hcase]
  · exact .inl ⟨rfl, rfl, rfl⟩
  · refine .inr ⟨rfl, ?_⟩
    exact ⟨fun h ↦ absurd h (Option.some_ne_none _), fun h ↦ absurd h (Option.some_ne_none _)⟩

end Enc28j60

/-! ## Off the ring -/

/-- No transmission goes on, and what was written for earlier ones lies off the ring. -/
structure Silent (c : Enc28j60) : Prop where
  tx : c.tx = none
  written : ∀ a ∈ c.written, ringSize ≤ a

/-- What was written lies off the ring, and so will the vector of the transmission that goes on. -/
structure Clear (c : Enc28j60) : Prop where
  written : ∀ a ∈ c.written, ringSize ≤ a
  vector : c.tx ≠ none → ∀ k < 7, ringSize ≤ c.vectorAddr k

theorem Silent.clear (h : Silent c) : Clear c := ⟨h.written, fun htx ↦ absurd h.tx htx⟩

theorem steady_silent : Steady (· = ECON1) Silent where
  pass c h := by
    rcases c.pass_written with ⟨htx, -, -⟩ | ⟨hwritten, htx⟩
    · rw [h.tx] at htx
      exact absurd htx.symm (Option.some_ne_none _)
    · exact ⟨htx.2 h.tx, hwritten.symm ▸ h.written⟩
  econ1 _ _ _ h := ⟨h.tx, h.written⟩
  looked c r h := by
    rw [looked]
    split
    · exact ⟨h.tx, h.written⟩
    · exact h
  poke c r v hr h := by
    obtain ⟨htx, hwritten, -⟩ := c.poke_tx hr v
    exact ⟨htx.trans h.tx, hwritten.symm ▸ h.written⟩

/-- The registers that tell where the vector goes. -/
def VectorReg (r : UInt8) : Prop := r = ECON1 ∨ r = ETXNDL ∨ r = ETXNDL + 1

instance (r : UInt8) : Decidable (VectorReg r) := inferInstanceAs (Decidable (_ ∨ _))

theorem vectorAddr_congr {c' : Enc28j60} (hlo : c'.regs ETXNDL = c.regs ETXNDL)
    (hhi : c'.regs (ETXNDL + 1) = c.regs (ETXNDL + 1)) : c'.vectorAddr = c.vectorAddr := by
  funext k
  rw [vectorAddr, pointer, hlo, hhi, vectorAddr, pointer]

theorem steady_clear : Steady VectorReg Clear where
  pass c h := by
    have hvector : c.pass.vectorAddr = c.vectorAddr := vectorAddr_congr (by simp) (by simp)
    rcases c.pass_written with ⟨hzero, htx, hwritten⟩ | ⟨hwritten, htx⟩
    · have hgoes : c.tx ≠ none := by
        rw [hzero]
        exact Option.some_ne_none 0
      refine ⟨?_, fun hne ↦ absurd htx hne⟩
      rw [hwritten]
      intro a ha
      rcases List.mem_append.1 ha with hnew | hold
      · obtain ⟨k, hk, rfl⟩ := List.mem_map.1 hnew
        exact h.vector hgoes k (List.mem_range.1 hk)
      · exact h.written a hold
    · refine ⟨hwritten.symm ▸ h.written, fun hne ↦ ?_⟩
      rw [hvector]
      exact h.vector fun hnone ↦ hne (htx.2 hnone)
  econ1 c v _ h := by
    have hvector : (c.withEcon1 v).vectorAddr = c.vectorAddr :=
      vectorAddr_congr (c.withEcon1_of_ne (by decide) v) (c.withEcon1_of_ne (by decide) v)
    refine ⟨h.written, fun hne ↦ ?_⟩
    rw [hvector]
    exact h.vector hne
  looked c r h := by
    rw [looked]
    split
    · exact ⟨h.written, h.vector⟩
    · exact h
  poke c r v hr h := by
    rw [VectorReg, not_or, not_or] at hr
    obtain ⟨htx, hwritten, hregs⟩ := c.poke_tx hr.1 v
    have hvector : (c.poke r v).vectorAddr = c.vectorAddr :=
      vectorAddr_congr (hregs _ (Ne.symm hr.2.1)) (hregs _ (Ne.symm hr.2.2))
    refine ⟨hwritten.symm ▸ h.written, fun hne ↦ ?_⟩
    rw [hvector]
    exact h.vector (htx ▸ hne)

theorem Clear.readMem (h : Clear c) : Clear c.readMem.2 := by
  rw [Enc28j60.readMem, advance]
  split
  · have hvector (x : Nat) :
        vectorAddr { c with regs := setPointer c.regs ERDPTL x } = c.vectorAddr := by
      have hne₁ : ETXNDL ≠ ERDPTL + 1 := by decide
      have hne₂ : ETXNDL ≠ ERDPTL := by decide
      have hne₃ : ETXNDL + 1 ≠ ERDPTL + 1 := by decide
      have hne₄ : ETXNDL + 1 ≠ ERDPTL := by decide
      refine vectorAddr_congr ?_ ?_
      · change setPointer c.regs ERDPTL x ETXNDL = _
        rw [setPointer, Function.update_of_ne hne₁, Function.update_of_ne hne₂]
      · change setPointer c.regs ERDPTL x (ETXNDL + 1) = _
        rw [setPointer, Function.update_of_ne hne₃, Function.update_of_ne hne₄]
    refine ⟨h.written, fun hne ↦ ?_⟩
    rw [hvector]
    exact h.vector hne
  · exact h

/-! ## The packet -/

/-- The packet of `len` bytes is laid down, so far `k` bytes with the control byte. -/
structure Laid (len k : Nat) (c : Enc28j60) : Prop where
  etxnd : pointer c.regs ETXNDL = TXSTART_INIT.toNat + len
  ewrpt : k ≤ len → TXSTART_INIT.toNat ≤ pointer c.regs EWRPTL ∧
    pointer c.regs EWRPTL ≤ TXSTART_INIT.toNat + k

theorem kept_laid {len k : Nat} : Kept (Laid len k) where
  pass c h := ⟨by rw [c.pass_regs]; exact h.etxnd, by rw [c.pass_regs]; exact h.ewrpt⟩
  econ1 c v _ h := by
    have hnd : pointer (c.withEcon1 v).regs ETXNDL = pointer c.regs ETXNDL :=
      pointer_update (by decide) (by decide) c.regs v
    have hwr : pointer (c.withEcon1 v).regs EWRPTL = pointer c.regs EWRPTL :=
      pointer_update (by decide) (by decide) c.regs v
    exact ⟨hnd.trans h.etxnd, hwr.symm ▸ h.ewrpt⟩

/-- One more byte. -/
theorem Laid.writeMem {len k : Nat} (h : Laid len k c) (hk : k ≤ len) (hlen : len ≤ 1518)
    (b : UInt8) : Laid len (k + 1) (c.writeMem b) := by
  have hstart : TXSTART_INIT.toNat = 6673 := rfl
  obtain ⟨hlo, hhi⟩ := h.ewrpt hk
  rw [Enc28j60.writeMem, advance]
  split
  · have hptr := pointer_setPointer c.regs EWRPTL ((pointer c.regs EWRPTL + 1) % 8192)
    have hnd : pointer (setPointer c.regs EWRPTL ((pointer c.regs EWRPTL + 1) % 8192)) ETXNDL =
        pointer c.regs ETXNDL := by
      rw [setPointer, pointer_update (by decide) (by decide),
        pointer_update (by decide) (by decide)]
    refine ⟨hnd.trans h.etxnd, fun hk' ↦ ?_⟩
    dsimp only
    rw [hptr]
    omega
  · exact ⟨h.etxnd, fun hk' ↦ ⟨hlo, hhi.trans (Nat.le_succ _)⟩⟩

/-- The address at which the packet ends. -/
theorem toNat_txnd (hlen : len.toNat ≤ 1518) :
    (lowByte (TXSTART_INIT + len)).toNat + 256 * (highByte (TXSTART_INIT + len)).toNat =
      TXSTART_INIT.toNat + len.toNat := by
  have hstart : TXSTART_INIT.toNat = 6673 := rfl
  have hsum : (TXSTART_INIT + len).toNat = TXSTART_INIT.toNat + len.toNat := by
    rw [UInt32.toNat_add]
    exact Nat.mod_eq_of_lt (by omega)
  have hmask : ((TXSTART_INIT + len) &&& 0xFF).toNat = (TXSTART_INIT + len).toNat % 256 := by
    rw [UInt32.toNat_and]
    exact Nat.and_two_pow_sub_one_eq_mod _ 8
  have hshift : ((TXSTART_INIT + len) >>> 8).toNat = (TXSTART_INIT + len).toNat / 256 := by
    rw [UInt32.toNat_shiftRight]
    exact Nat.shiftRight_eq_div_pow _ _
  rw [lowByte, highByte, UInt32.toNat_toUInt8, UInt32.toNat_toUInt8, hmask, hshift, hsum]
  omega

/-- **The packet is laid down** from `TXSTART_INIT` on: the control byte, then the bytes. -/
theorem On.lay {K : Nat → Enc28j60 → Prop} (hI : Steady R I)
    (hR : ∀ r ∈ [EWRPTL, EWRPTH, ETXNDL, ETXNDH], ¬ R r) (hlen : len.toNat ≤ 1518)
    (hpass : ∀ k c, K k c → K k c.pass)
    (hstart : ∀ c, I c → pointer c.regs ETXNDL = TXSTART_INIT.toNat + len.toNat →
      pointer c.regs EWRPTL = TXSTART_INIT.toNat → K 0 c)
    (hcontrol : ∀ c, K 0 c → K 1 (Enc28j60.writeMem c 0x00))
    (hbyte : ∀ k c, k < len.toNat → K (k + 1) c → K (k + 2) (Enc28j60.writeMem c (m (packet + k))))
    (h : On old I m next s) :
    Run (Enc.sendBuffer len packet) s fun _ s' ↦ On old (K (len.toNat + 1)) m next s' := by
  have hkept := hI.toKept
  -- The write pointer is set.
  refine (h.write (J := fun c ↦ I c ∧ c.regs EWRPTL = lowByte TXSTART_INIT) hkept (by decide)
    (by decide)
    fun c hc ↦ ⟨hI.poke c EWRPTL _ (hR _ (by decide)) hc, poke_plain_self (by decide) _⟩).bind ?_
  intro _ s₁ h₁
  refine (h₁.write (J := fun c ↦ I c ∧ pointer c.regs EWRPTL = TXSTART_INIT.toNat)
    (hkept.and (kept_reg (by decide) _)) (by decide) (by decide) fun c hc ↦ ⟨hI.poke c EWRPTH _
      (hR _ (by decide)) hc.1, ?_⟩).bind ?_
  · have hlo : (c.poke EWRPTH (highByte TXSTART_INIT)).regs EWRPTL = lowByte TXSTART_INIT :=
      (poke_plain_of_ne (by decide) (by decide) _).trans hc.2
    have hhi : (c.poke EWRPTH (highByte TXSTART_INIT)).regs (EWRPTL + 1) = highByte TXSTART_INIT :=
      poke_plain_self (by decide) _
    rw [pointer, hlo, hhi]
    rfl
  intro _ s₂ h₂
  -- The end of the packet is set.
  have hewrpt : Kept fun c ↦ pointer c.regs EWRPTL = TXSTART_INIT.toNat :=
    kept_pointer (by decide) (by decide) _
  have hkept₂ := hkept.and hewrpt
  refine (h₂.write (J := fun c ↦ (I c ∧ pointer c.regs EWRPTL = TXSTART_INIT.toNat) ∧
      c.regs ETXNDL = lowByte (TXSTART_INIT + len)) hkept₂ (by decide) (by decide)
    fun c hc ↦
      ⟨⟨hI.poke c ETXNDL _ (hR _ (by decide)) hc.1, ?_⟩, poke_plain_self (by decide) _⟩).bind ?_
  · rw [poke_plain (by decide)]
    exact (pointer_update (by decide) (by decide) c.regs _).trans hc.2
  intro _ s₃ h₃
  refine (h₃.write (J := K 0) (hkept₂.and (kept_reg (by decide) _)) (by decide) (by decide)
    fun c hc ↦ hstart _ (hI.poke c ETXNDH _ (hR _ (by decide)) hc.1.1) ?_ ?_).bind ?_
  · have hlo : (c.poke ETXNDH (highByte (TXSTART_INIT + len))).regs ETXNDL =
        lowByte (TXSTART_INIT + len) := (poke_plain_of_ne (by decide) (by decide) _).trans hc.2
    have hhi : (c.poke ETXNDH (highByte (TXSTART_INIT + len))).regs (ETXNDL + 1) =
        highByte (TXSTART_INIT + len) := poke_plain_self (by decide) _
    have hstart : TXSTART_INIT.toNat = 6673 := rfl
    rw [pointer, hlo, hhi, toNat_txnd hlen]
    exact Nat.mod_eq_of_lt (by omega)
  · rw [poke_plain (by decide)]
    exact (pointer_update (by decide) (by decide) c.regs _).trans hc.1.2
  intro _ s₄ h₄
  -- The control byte and the bytes of the packet.
  have hshort : ¬ len > MAX_FRAMELEN := by
    intro hlt
    have hmax : MAX_FRAMELEN.toNat = 1518 := rfl
    have := UInt32.lt_iff_toNat_lt.1 hlt
    omega
  refine Run.bind (R := fun _ s' ↦ On old (K 1) m next s') ?_ ?_
  · rw [controlByte, if_neg hshort]
    exact h₄.writeMem (hpass 0) hcontrol
  intro _ s₅ h₅
  exact On.writeBuf (K := fun k ↦ K (k + 1)) (fun k ↦ hpass (k + 1)) hbyte h₅

/-- What stands a byte off the ring stands the whole of a packet. -/
theorem On.sendBuffer (hI : Steady R I) (hR : ∀ r ∈ [EWRPTL, EWRPTH, ETXNDL, ETXNDH], ¬ R r)
    (hwrite : ∀ c b, I c → TXSTART_INIT.toNat ≤ pointer c.regs EWRPTL → I (Enc28j60.writeMem c b))
    (hlen : len.toNat ≤ 1518) (h : On old I m next s) :
    Run (Enc.sendBuffer len packet) s fun _ s' ↦
      On old (fun c ↦ I c ∧ pointer c.regs ETXNDL = TXSTART_INIT.toNat + len.toNat) m next s' := by
  have hbyte (k : Nat) (hk : k ≤ len.toNat) (c : Enc28j60) (b : UInt8)
    (hc : I c ∧ Laid len.toNat k c) :
      I (c.writeMem b) ∧ Laid len.toNat (k + 1) (c.writeMem b) :=
    ⟨hwrite c b hc.1 (hc.2.ewrpt hk).1, hc.2.writeMem hk hlen b⟩
  refine (h.lay (K := fun k c ↦ I c ∧ Laid len.toNat k c) hI hR hlen
    (fun k ↦ (hI.toKept.and kept_laid).pass) (fun c hc hnd hwr ↦ ⟨hc, hnd, fun _ ↦ ?_⟩)
    (fun c hc ↦ hbyte 0 (Nat.zero_le _) c _ hc) (fun k c hk hc ↦ hbyte (k + 1) hk c _ hc)).mono ?_
  · exact ⟨hwr.ge, hwr.le⟩
  · intro _ s' hs'
    exact hs'.mono fun c hc ↦ ⟨hc.1, hc.2.etxnd⟩

/-! ## One call -/

theorem silent_writeMem (h : Silent c) (hptr : TXSTART_INIT.toNat ≤ pointer c.regs EWRPTL)
    (b : UInt8) : Silent (c.writeMem b) := by
  have hmem : ∀ a ∈ pointer c.regs EWRPTL :: c.written, ringSize ≤ a := by
    intro a ha
    rcases List.mem_cons.1 ha with rfl | ha
    · exact hptr
    · exact h.written a ha
  rw [Enc28j60.writeMem, advance]
  split
  · exact ⟨h.tx, hmem⟩
  · exact ⟨h.tx, hmem⟩

/-- The transmission begins; there is room for the vector behind a packet that is short enough. -/
theorem Silent.send (h : Silent c) (hnd : pointer c.regs ETXNDL = TXSTART_INIT.toNat + len.toNat)
    (hlen : len.toNat ≤ 1511) : Clear (c.poke ECON1 (c.peek ECON1 ||| ECON1_TXRTS)) := by
  have hstart : TXSTART_INIT.toNat = 6673 := rfl
  have hring : ringSize = 6673 := rfl
  rw [poke_econ1]
  refine ⟨h.written, fun _ k hk ↦ ?_⟩
  have hptr : pointer (Function.update c.regs ECON1
      ((c.peek ECON1 ||| ECON1_TXRTS) &&& ~~~ECON1_TXRTS)) ETXNDL = pointer c.regs ETXNDL :=
    pointer_update (by decide) (by decide) c.regs _
  rw [vectorAddr, hptr, hnd]
  omega

/-- The transmission is given up. -/
theorem Clear.giveUp (h : Clear c) : Clear (c.poke ECON1 (c.peek ECON1 &&& ~~~ECON1_TXRTS)) := by
  have hoff : c.peek ECON1 &&& ~~~ECON1_TXRTS &&& ECON1_TXRTS = 0 := andNot_and_self _ _
  rw [poke_econ1, if_pos hoff]
  exact ⟨h.written, fun hne ↦ absurd rfl hne⟩

/-- **`ENC28J60_Packet_Send`** of a packet that leaves room for the vector. -/
theorem On.packetSend_clear (hlen : len.toNat ≤ 1511) (h : On old Clear m next s) :
    Run (enc28j60PacketSend len packet) s fun _ s' ↦ On old Clear m next s' := by
  refine h.send steady_clear.toKept ?_
    (steady_silent.toKept.and (kept_pointer (by decide) (by decide) _)).pass
    (fun c hc ↦ hc.1.send hc.2 hlen) steady_clear.toCalm fun c hc ↦ hc.giveUp
  intro s₁ h₁
  have hsilent : On old Silent m next s₁ := h₁.mono fun c hc ↦ ⟨hc.2, hc.1.written⟩
  exact hsilent.sendBuffer steady_silent (by decide +kernel)
    (fun c b hc hptr ↦ silent_writeMem hc hptr b) (by omega)

/-- Packets are sent, of at most `n` bytes, and received. -/
def Call.Sends (n : Nat) : Call → Prop
  | .packetSend len _ => 1 ≤ len.toNat ∧ len.toNat ≤ n
  | .packetReceive _ _ => True
  | _ => False

theorem call_clear {cl : Call} (hcl : cl.Sends 1511) (h : At old Clear s) :
    Run (call cl) s fun _ s' ↦ At old Clear s' := by
  cases cl with
  | packetSend len packet => exact (h.packetSend_clear hcl.2).mono fun _ _ h ↦ h.at
  | packetReceive maxlen packet =>
      exact (h.packetReceive steady_clear (by decide +kernel) (fun c hc ↦ hc.readMem)
        (fun c hc ↦ steady_clear.poke c ECON2 _ (by decide) hc) maxlen packet).bind
          fun _ _ h ↦ run_pure.2 h
  | init => exact absurd hcl id
  | read addr => exact absurd hcl id
  | write addr data => exact absurd hcl id
  | phyWrite addr data => exact absurd hcl id
  | phyRead addr => exact absurd hcl id

/-! ## Whole runs -/

/-- `ENC28J60_Init`, then these calls: nothing that is written for a transmission lies in the
ring. -/
def OffRing (calls : List Call) (s : Board) : Prop :=
  Run (do
    let _ ← enc28j60Init
    runCalls call calls) s fun _ s' ↦
    ∀ a ∈ s'.dev.chip.written, ¬ (RXSTART_INIT.toNat ≤ a ∧ a ≤ RXSTOP_INIT.toNat)

/-- Packets of at most `n` bytes never disturb the ring. -/
def TransmitLaw (n : Nat) : Prop :=
  ∀ (s : Board) (calls : List Call), (∀ cl ∈ calls, cl.Sends n) → OffRing calls s

theorem run_init_silent (s : Board) :
    Run enc28j60Init s fun _ s' ↦ At s.glob.accesses Silent s' := by
  have hold : ∀ a ∈ s.glob.accesses, a ∈ s.glob.accesses ∨ a.Right := fun a ha ↦ .inl ha
  have hI : Steady (· = ECON1) Silent := steady_silent
  have hsetup : setupRegs.all (fun r ↦ ¬ r = ECON1) = true := by decide
  have hrxen (c : Enc28j60) (h : Silent c) :
      Silent (c.poke ECON1 (c.peek ECON1 ||| ECON1_RXEN)) := by
    have htx : (c.peek ECON1 ||| ECON1_RXEN) &&& ECON1_TXRTS = 0 := by
      rw [or_and_of_disjoint rfl, peek_econ1_txrts, h.tx]
      rfl
    rw [poke_econ1, if_pos htx]
    exact ⟨rfl, h.written⟩
  have hreset (c : Enc28j60) : Silent c.reset := ⟨rfl, fun a ha ↦ absurd ha List.not_mem_nil⟩
  refine (run_init hI.toCalm hI hI (fun r hr ↦ of_decide_eq_true (List.all_eq_true.1 hsetup r hr))
    (fun c _ ↦ hreset c) (fun m s' hs' ↦ hs'.writeAll hI fun p hp ↦ ?_) hrxen hold).mono ?_
  · exact ⟨bufferRegs_named hp, (bufferRegs_named hp).2⟩
  · rintro r s' (⟨-, hs'⟩ | ⟨-, hs', -⟩)
    · exact hs'.at
    · exact hs'.at

/-- Short packets stay off the ring. -/
theorem offRing_of_short {calls : List Call} (hcalls : ∀ cl ∈ calls, cl.Sends 1511) (s : Board) :
    OffRing calls s := by
  refine (run_init_silent s).bind ?_
  intro _ s₁ h₁
  have hclear : At s.glob.accesses Clear s₁ := h₁.mono fun c hc ↦ hc.clear
  refine (run_runCalls_inv (Call.Sends 1511) _ (fun cl s' hcl hs' ↦ call_clear hcl hs') hcalls
    hclear).mono ?_
  rintro _ s₂ h₂ a ha ⟨-, hle⟩
  have hring : RXSTOP_INIT.toNat < ringSize := by decide
  exact absurd (h₂.chip.written a ha) (by omega)

/-! ## The vector of a long packet -/

/-- The transmission goes on, or its vector has come round to the ring. -/
def Spilling (len : Nat) (c : Enc28j60) : Prop :=
  (c.tx ≠ none ∧ pointer c.regs ETXNDL = TXSTART_INIT.toNat + len) ∨ len - 1512 ∈ c.written

theorem calm_spilling {len : Nat} (hlo : 1512 ≤ len) (hhi : len ≤ 1518) : Calm (Spilling len) where
  pass c h := by
    rcases c.pass_written with ⟨hzero, htx, hwritten⟩ | ⟨hwritten, htx⟩
    · refine .inr ?_
      rw [hwritten]
      rcases h with ⟨-, hnd⟩ | hmem
      · refine List.mem_append.2 (.inl (List.mem_map.2 ⟨6, by decide, ?_⟩))
        have hstart : TXSTART_INIT.toNat = 6673 := rfl
        rw [vectorAddr, hnd]
        omega
      · exact List.mem_append.2 (.inr hmem)
    · rcases h with ⟨hgoes, hnd⟩ | hmem
      · exact .inl ⟨fun hnone ↦ hgoes (htx.1 hnone), by rw [c.pass_regs]; exact hnd⟩
      · exact .inr (hwritten.symm ▸ hmem)
  econ1 c v _ h := by
    rcases h with ⟨hgoes, hnd⟩ | hmem
    · exact .inl ⟨hgoes, (pointer_update (by decide) (by decide) c.regs v).trans hnd⟩
    · exact .inr hmem
  looked c r h := by
    rw [looked]
    split <;> exact h

/-- What was written stays written. -/
theorem steady_written (a : Nat) : Steady (fun _ ↦ False) fun c ↦ a ∈ c.written where
  pass c h := by
    rcases c.pass_written with ⟨-, -, hwritten⟩ | ⟨hwritten, -⟩
    · rw [hwritten]
      exact List.mem_append.2 (.inr h)
    · rw [hwritten]
      exact h
  econ1 _ _ _ h := h
  looked c r h := by
    rw [looked]
    split <;> exact h
  poke c r v _ h := by
    by_cases hr : r = ECON1
    · subst hr
      exact h
    · rw [(c.poke_tx hr v).2.1]
      exact h

/-- The end of a transmission is waited for before the next one, so the vector of a long packet is
in the ring when a second one is sent. -/
theorem run_send_twice (hlo : 1512 ≤ len.toNat) (hhi : len.toNat ≤ 1518)
    (h : At old (fun c ↦ c.course = quiet) s) :
    Run (runCalls call [.packetSend len packet, .packetSend len packet]) s fun _ s' ↦
      len.toNat - 1512 ∈ s'.dev.chip.written := by
  have hcourse : Steady (fun _ ↦ False) fun c ↦ c.course = quiet := steady_course
  have hnone (l : List UInt8) : ∀ r ∈ l, ¬ (fun _ : UInt8 ↦ False) r := fun _ _ h ↦ h
  have hspilling := calm_spilling hlo hhi
  have hkept : Kept fun c ↦ Spilling len.toNat c ∧ c.course = quiet :=
    hspilling.toKept.and hcourse.toKept
  -- The first packet is on its way, and no error shows.
  have hfirst : Run (enc28j60PacketSend len packet) s fun _ s' ↦
      At old (fun c ↦ Spilling len.toNat c ∧ c.course = quiet) s' := by
    refine (h.waitEcon1 hcourse.toKept).bind ?_
    intro _ s₁ h₁
    refine ((h₁.mono fun c hc ↦ hc.1).sendBuffer hcourse (hnone _)
      (fun c b hc _ ↦ (advance_phy _ _ _).1.trans hc) hhi).bind ?_
    intro _ s₂ h₂
    refine (h₂.setBits (J := fun c ↦ Spilling len.toNat c ∧ c.course = quiet)
      (hcourse.toKept.and (kept_pointer (by decide) (by decide) _)).pass (by decide) rfl
      (bsel_setBits_econ1 rfl) fun c hc ↦ ⟨.inl ⟨?_, ?_⟩, ?_⟩).bind ?_
    · have hon : ¬ (c.peek ECON1 ||| ECON1_TXRTS) &&& ECON1_TXRTS = 0 := by
        rw [or_and_self]
        decide
      rw [poke_econ1, if_neg hon]
      exact Option.some_ne_none _
    · rw [poke_econ1]
      exact (pointer_update (by decide) (by decide) c.regs _).trans hc.2
    · exact hcourse.poke c ECON1 _ id hc.1
    intro _ s₃ h₃
    refine (h₃.read (V := fun b c ↦ b = 0 ∧ Spilling len.toNat c ∧ c.course = quiet) hkept
      (by decide) fun c hc ↦ ⟨?_, hspilling.looked c EIR hc.1, hcourse.looked c EIR hc.2⟩).bind ?_
    · change c.course.eir c.looks = 0
      rw [hc.2]
      rfl
    intro b s₄ h₄
    obtain ⟨rfl, -⟩ := h₄.chip
    rw [if_neg (by decide)]
    exact run_pure.2 (h₄.mono fun c hc ↦ hc.2).at
  refine hfirst.bind ?_
  intro _ s₁ h₁
  -- Behind the loop of the second call no transmission goes on.
  have hmem (c : Enc28j60) (hc : Spilling len.toNat c ∧ c.course = quiet) (htx : c.tx = none) :
      len.toNat - 1512 ∈ c.written := by
    rcases hc.1 with ⟨hgoes, -⟩ | hmem
    · exact absurd htx hgoes
    · exact hmem
  have hsteady := steady_written (len.toNat - 1512)
  have hwrite (c : Enc28j60) (b : UInt8) (hc : len.toNat - 1512 ∈ c.written) :
      len.toNat - 1512 ∈ (c.writeMem b).written := by
    rw [Enc28j60.writeMem, advance]
    split <;> exact List.mem_cons_of_mem _ hc
  have hsecond := h₁.packetSend hkept hmem hsteady (hnone _) hwrite
    (fun c hc ↦ hsteady.poke c ECON1 _ id hc) (fun c hc ↦ hsteady.poke c ECON1 _ id hc) len packet
  refine Run.bind (R := fun _ s' ↦ len.toNat - 1512 ∈ s'.dev.chip.written) ?_ fun _ _ h ↦
    run_pure.2 h
  exact hsecond.bind fun _ _ h ↦ run_pure.2 h.chip

/-- Two long packets after one another spill into the ring. -/
theorem not_offRing (len : UInt32) (packet : Nat) (hlo : 1512 ≤ len.toNat)
    (hhi : len.toNat ≤ 1518) :
    ¬ OffRing [.packetSend len packet, .packetSend len packet] board := by
  intro hapart
  have hinit : Run enc28j60Init board fun _ s' ↦ At [] (fun c ↦ c.course = quiet) s' :=
    run_init_right fun a ha ↦ absurd ha List.not_mem_nil
  have hrun : Run (do
      let _ ← enc28j60Init
      runCalls call [.packetSend len packet, .packetSend len packet]) board
      fun _ s' ↦ len.toNat - 1512 ∈ s'.dev.chip.written :=
    hinit.bind fun _ _ h ↦ run_send_twice hlo hhi h
  obtain ⟨_, s', heq, hoff⟩ := hapart
  have hstop : RXSTOP_INIT.toNat = 6672 := rfl
  exact hoff _ (hrun.elim heq) ⟨Nat.zero_le _, by omega⟩

/-- **Transmit never disturbs the ring** exactly as long as the packets leave room for the
vector. -/
theorem transmit_off_ring_iff (n : Nat) : TransmitLaw n ↔ n ≤ 1511 := by
  constructor
  · intro hlaw
    by_contra hlong
    have hlen : (1512 : UInt32).toNat = 1512 := rfl
    refine not_offRing 1512 0x200 (by omega) (by omega) (hlaw board _ ?_)
    intro cl hcl
    simp only [List.mem_cons, List.not_mem_nil, or_false, or_self] at hcl
    obtain rfl := hcl
    exact ⟨by omega, by omega⟩
  · intro hn s calls hcalls
    refine offRing_of_short (fun cl hcl ↦ ?_) s
    have hsends := hcalls cl hcl
    cases cl with
    | packetSend len packet => exact ⟨hsends.1, hsends.2.trans hn⟩
    | packetReceive maxlen packet => trivial
    | init => exact hsends
    | read addr => exact hsends
    | write addr data => exact hsends
    | phyWrite addr data => exact hsends
    | phyRead addr => exact hsends

/-- Two packets of `MAX_FRAMELEN` bytes: the last byte of the vector goes to address 6. -/
theorem vector_in_ring : ¬ TransmitLaw MAX_FRAMELEN.toNat ∧
    ¬ OffRing [.packetSend 1518 0x200, .packetSend 1518 0x200] board := by
  have hlen : (1518 : UInt32).toNat = 1518 := rfl
  have hmax : MAX_FRAMELEN.toNat = 1518 := rfl
  have hnot : ¬ OffRing [.packetSend 1518 0x200, .packetSend 1518 0x200] board :=
    not_offRing 1518 0x200 (by omega) (by omega)
  refine ⟨fun hlaw ↦ hnot (hlaw board _ ?_), hnot⟩
  intro cl hcl
  simp only [List.mem_cons, List.not_mem_nil, or_false, or_self] at hcl
  obtain rfl := hcl
  exact ⟨by omega, by omega⟩

end Stm32F1.Enc
