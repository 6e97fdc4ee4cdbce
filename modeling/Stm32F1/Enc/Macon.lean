import Stm32F1.Lib.Calls
import Stm32F1.Enc.Transmit

/-!
# The settings of the MAC

`ENC28J60_Init` sets `MACON3` to pad frames, to append the checksum, to check the
length and to work in full duplex.  A packet of more than `MAX_FRAMELEN` bytes sets
it to `MACON3_HFRMEN` alone, and nothing sets it back: it is a register, and not
part of the packet, so every later packet is sent with what the last long one has
left behind.
-/

namespace Stm32F1.Enc

open Prog Mcu Enc28j60

variable {old : List (Access (Framed Enc28j60))} {m : Nat → UInt8} {next len : UInt32} {s : Board}
  {c : Enc28j60} {r v w lo : UInt8} {packet : Nat}

/-! ## Registers that others leave alone -/

theorem steady_reg (hr : r ≠ ECON1) (v : UInt8) : Steady (· = r) fun c ↦ c.regs r = v where
  toKept := kept_reg hr v
  looked c r' h := (congrFun (c.looked_regs r') r).trans h
  poke c r' v' hne h := ((c.poke_other r' v').1 r (Ne.symm hne)).trans h

theorem steady_pointer (hlo : lo ≠ ECON1) (hhi : lo + 1 ≠ ECON1) (a : Nat) :
    Steady (fun r ↦ r = lo ∨ r = lo + 1) fun c ↦ pointer c.regs lo = a where
  toKept := kept_pointer hlo hhi a
  looked c r' h := (congrArg (pointer · lo) (c.looked_regs r')).trans h
  poke c r' v' hne h := by
    obtain ⟨hnelo, hnehi⟩ := not_or.1 hne
    have hother := (c.poke_other r' v').1
    rw [pointer, hother lo (Ne.symm hnelo), hother (lo + 1) (Ne.symm hnehi)]
    exact h

/-- A byte of the buffer memory moves its own pointer only. -/
theorem writeMem_regs (hlo : r ≠ EWRPTL) (hhi : r ≠ EWRPTH) (c : Enc28j60) (b : UInt8) :
    (c.writeMem b).regs r = c.regs r := by
  rw [Enc28j60.writeMem, advance]
  split
  · exact (Function.update_of_ne hhi ..).trans (Function.update_of_ne hlo ..)
  · rfl

/-! ## The settings -/

/-- What a packet is sent with, besides its bytes. -/
structure Settings where
  macon3 : UInt8
  control : UInt8
  deriving DecidableEq

/-- The register, and the byte in front of the packet. -/
def settings (s : Board) : Settings :=
  ⟨s.dev.chip.regs MACON3, s.dev.chip.mem (pointer s.dev.chip.regs ETXSTL)⟩

/-- The value of `MACON3` that `ENC28J60_Init` installs. -/
def macon3Init : UInt8 := MACON3_PADCFG0 ||| MACON3_TXCRCEN ||| MACON3_FRMLNEN ||| MACON3_FULDPX

/-- The ring and the transmit buffer are where `ENC28J60_Init` puts them. -/
def Placed (c : Enc28j60) : Prop := Bounded c ∧ pointer c.regs ETXSTL = TXSTART_INIT.toNat

/-- Besides, `MACON3` is `w`. -/
def Installed (w : UInt8) (c : Enc28j60) : Prop := Placed c ∧ c.regs MACON3 = w

/-- The registers that bound the buffers. -/
def PlaceReg (r : UInt8) : Prop := BoundReg r ∨ r = ETXSTL ∨ r = ETXSTL + 1

instance (r : UInt8) : Decidable (PlaceReg r) := inferInstanceAs (Decidable (_ ∨ _))

instance (r : UInt8) : Decidable (PlaceReg r ∨ r = MACON3) := inferInstance

theorem steady_placed : Steady PlaceReg Placed :=
  steady_bounded.and (steady_pointer (by decide) (by decide) TXSTART_INIT.toNat)

theorem steady_installed (w : UInt8) : Steady (fun r ↦ PlaceReg r ∨ r = MACON3) (Installed w) :=
  steady_placed.and (steady_reg (by decide) w)

theorem Placed.writeMem (h : Placed c) (b : UInt8) : Placed (c.writeMem b) := by
  refine ⟨h.1.writeMem b, ?_⟩
  rw [pointer, writeMem_regs (by decide) (by decide), writeMem_regs (by decide) (by decide)]
  exact h.2

theorem Installed.writeMem (h : Installed w c) (b : UInt8) : Installed w (c.writeMem b) :=
  ⟨h.1.writeMem b, (writeMem_regs (by decide) (by decide) c b).trans h.2⟩

/-- `MACON3` is written. -/
theorem On.writeMacon3 {I : Enc28j60 → Prop} (hI : Kept I) (hplaced : ∀ c, I c → Placed c)
    (h : On old I m next s) (w : UInt8) :
    Run (enc28j60Write MACON3 w) s fun _ s' ↦ On old (Installed w) m next s' :=
  h.write hI (by decide) (by decide) fun c hc ↦
    ⟨steady_placed.poke c MACON3 w (by decide) (hplaced c hc), poke_plain_self (by decide) w⟩

/-! ## Initialisation -/

theorem writeAll_append (l l' : List (UInt8 × UInt8)) :
    (writeAll (l ++ l') : Prog Board Unit) = writeAll l >>= fun _ ↦ writeAll l' := by
  induction l with
  | nil => rfl
  | cons p l ih => rw [List.cons_append, writeAll, writeAll, ih, bind_assoc']

/-- The registers of the filters and the MAC, around `MACON3`. -/
theorem macRegs_eq (macaddr : Vector UInt8 6) : macRegs macaddr =
    (macRegs macaddr).take 7 ++ (MACON3, macon3Init) :: (macRegs macaddr).drop 8 := rfl

theorem On.writeMacRegs (macaddr : Vector UInt8 6) (h : On old Placed m next s) :
    Run (Enc.writeAll (macRegs macaddr)) s fun _ s' ↦ On old (Installed macon3Init) m next s' := by
  have hsetup : ∀ r ∈ setupRegs, ¬ PlaceReg r := by decide +kernel
  rw [macRegs_eq, writeAll_append]
  refine (h.writeAll steady_placed fun p hp ↦ ?_).bind ?_
  · obtain ⟨hname, hmem⟩ := mem_macRegs (List.mem_of_mem_take hp)
    exact ⟨hname, hsetup _ hmem⟩
  intro _ s₁ h₁
  refine (h₁.writeMacon3 steady_placed.toKept (fun _ hc ↦ hc) macon3Init).bind ?_
  intro _ s₂ h₂
  refine h₂.writeAll (steady_installed macon3Init) fun p hp ↦ ?_
  obtain ⟨hname, hmem⟩ := mem_macRegs (List.mem_of_mem_drop hp)
  have hbehind : ∀ r ∈ (setupRegs.take 19).drop 8, r ≠ MACON3 := by decide +kernel
  have haddr : p.1 ∈ (setupRegs.take 19).drop 8 := by
    have haddrs : ((macRegs macaddr).drop 8).map Prod.fst = (setupRegs.take 19).drop 8 := rfl
    exact haddrs ▸ List.mem_map_of_mem hp
  exact ⟨hname, not_or.2 ⟨hsetup _ hmem, hbehind _ haddr⟩⟩

/-- The buffers as they are laid out. -/
theorem placed_of_laid (h : Resting (bufferRegs.foldl lay (resetRegs, 0x05FA, 0)).1
    (bufferRegs.foldl lay (resetRegs, 0x05FA, 0)).2.1
    (bufferRegs.foldl lay (resetRegs, 0x05FA, 0)).2.2 c) : Placed c := by
  have htxst : pointer (bufferRegs.foldl lay (resetRegs, 0x05FA, 0)).1 ETXSTL =
      TXSTART_INIT.toNat := by decide
  have hring : Ring 0 [] [] 0 c := ring_of_laid h
  refine ⟨hring.bounded, ?_⟩
  rw [pointer, h.regs _ (by decide), h.regs _ (by decide)]
  exact htxst

theorem On.initChip_installed (h : On old (Resting resetRegs 0x05FA 0) m next s) :
    Run Enc.initChip s fun _ s' ↦ On old (Installed macon3Init) m RXSTART_INIT s' := by
  have hinstalled := steady_installed macon3Init
  refine h.initChip_via calm_resting hinstalled hinstalled (by decide +kernel) (fun s hs ↦ ?_)
    (fun macaddr s hs ↦ hs.writeMacRegs macaddr) fun c hc ↦ hinstalled.poke c ECON1 _ (by decide) hc
  exact (run_bufferRegs hs).mono fun _ _ h ↦ h.mono fun c hc ↦ placed_of_laid hc

/-- **`ENC28J60_Init`** installs its value in `MACON3`. -/
theorem run_init_installed (s : Board) : Run enc28j60Init s fun r s' ↦
    r = 0 → On s.glob.accesses (Installed macon3Init) s.mem RXSTART_INIT s' := by
  refine (run_init_via calm_resting (fun c _ ↦ resting_reset c)
    (fun m next s' ↦ On.initChip_installed) fun a ha ↦ .inl ha).mono ?_
  rintro r s' (⟨-, hs'⟩ | ⟨rfl, -⟩) hzero
  · exact hs'
  · exact absurd hzero (by decide)

/-! ## Packets -/

/-- A packet that is not too long is sent with what is installed. -/
theorem On.sendTold_short (hlen : len ≤ MAX_FRAMELEN) (h : On old (Installed w) m next s)
    (packet : Nat) :
    Run (packetSendTold settings len packet) s fun seen s' ↦
      seen = ⟨w, 0x00⟩ ∧ On old (Installed w) m next s' := by
  let F (c : Enc28j60) : Prop := pointer c.regs ETXSTL = TXSTART_INIT.toNat ∧ c.regs MACON3 = w
  have hstart : Steady (fun r ↦ r = ETXSTL ∨ r = ETXSTL + 1) fun c ↦
      pointer c.regs ETXSTL = TXSTART_INIT.toNat := steady_pointer (by decide) (by decide) _
  have hF := hstart.and (steady_reg (r := MACON3) (by decide) w)
  have hshort : len.toNat ≤ 1518 := UInt32.le_iff_toNat_le.1 hlen
  have hcarries := calm_carries (g := imageOf m packet) (le_refl (len.toNat + 1)) hshort
  have hcalm := hcarries.and hF.toCalm
  refine Run.mono (h.sendTold (P := (· = ⟨w, 0x00⟩)) (steady_installed w).toKept ?_ hcalm.pass ?_ ?_
    hcalm ?_) ?_
  · intro s₁ h₁
    refine (h₁.mono fun c hc ↦ ⟨hc.1.1.1, hc.1.1.2, hc.1.2⟩).sendBuffer_carries hF
      (by decide +kernel) (fun c b hc ↦ ?_) hshort packet
    have hregs {r : UInt8} (hlo : r ≠ EWRPTL) (hhi : r ≠ EWRPTH) := writeMem_regs hlo hhi c b
    refine ⟨?_, (hregs (by decide) (by decide)).trans hc.2⟩
    rw [pointer, hregs (by decide) (by decide), hregs (by decide) (by decide)]
    exact hc.1
  · exact fun c hc ↦ ⟨hc.1.poke_econ1 _, hF.poke c ECON1 _ (by decide) hc.2⟩
  · rintro s' ⟨⟨hcarried, htxst, hmacon3⟩, -⟩
    have hcontrol := hcarried.bytes 0 (Nat.succ_pos _)
    rw [Nat.add_zero] at hcontrol
    rw [settings, htxst, hmacon3, hcontrol]
    rfl
  · exact fun c hc ↦ ⟨hc.1.poke_econ1 _, hF.poke c ECON1 _ (by decide) hc.2⟩
  · rintro seen s' ⟨hseen, hs'⟩
    exact ⟨hseen, hs'.mono fun c hc ↦ ⟨⟨hc.1.toBounded, hc.2.1⟩, hc.2.2⟩⟩

/-- A longer one is sent as a huge frame, and so is what follows it. -/
theorem On.sendTold_long (hlen : MAX_FRAMELEN < len) (h : On old (Installed w) m next s)
    (packet : Nat) :
    Run (packetSendTold settings len packet) s fun seen s' ↦
      seen.macon3 = MACON3_HFRMEN ∧ On old (Installed MACON3_HFRMEN) m next s' := by
  have hhuge := steady_installed MACON3_HFRMEN
  have hbuffer : ∀ r ∈ [EWRPTL, EWRPTH, ETXNDL, ETXNDH], ¬ (PlaceReg r ∨ r = MACON3) := by
    decide +kernel
  refine h.sendTold (P := fun seen : Settings ↦ seen.macon3 = MACON3_HFRMEN)
    (steady_installed w).toKept ?_ hhuge.pass ?_ ?_ hhuge.toCalm ?_
  · intro s₁ h₁
    refine (h₁.mono fun c hc ↦ hc.1).sendBuffer_via (steady_installed w) hbuffer (fun s₂ h₂ ↦ ?_)
      hhuge.pass fun c b hc ↦ hc.writeMem b
    rw [controlByte, if_pos hlen]
    refine (h₂.writeMacon3 (steady_installed w).toKept (fun c hc ↦ hc.1) MACON3_HFRMEN).bind ?_
    intro _ s₃ h₃
    exact h₃.writeMem hhuge.pass fun c hc ↦ hc.writeMem _
  · exact fun c hc ↦ hhuge.poke c ECON1 _ (by decide) hc
  · exact fun s' hs' ↦ hs'.chip.2
  · exact fun c hc ↦ hhuge.poke c ECON1 _ (by decide) hc

/-! ## Runs -/

/-- What packets are sent with, one after the other, when `MACON3` is `w` before them. -/
inductive Sent : UInt8 → List (UInt32 × Nat) → List Settings → Prop
  | nil (w : UInt8) : Sent w [] []
  | short {w : UInt8} {p : UInt32 × Nat} {packets : List (UInt32 × Nat)} {seen : List Settings}
      (hlen : p.1 ≤ MAX_FRAMELEN) (h : Sent w packets seen) :
      Sent w (p :: packets) (⟨w, 0x00⟩ :: seen)
  | long {w : UInt8} {p : UInt32 × Nat} {packets : List (UInt32 × Nat)} {t : Settings}
      {seen : List Settings} (hlen : MAX_FRAMELEN < p.1) (ht : t.macon3 = MACON3_HFRMEN)
      (h : Sent MACON3_HFRMEN packets seen) : Sent w (p :: packets) (t :: seen)

/-- `ENC28J60_Packet_Send` for each of these packets. -/
def sendPackets (packets : List (UInt32 × Nat)) : Prog Board (List Settings) :=
  runCalls (fun p ↦ packetSendTold settings p.1 p.2) packets

theorem run_sendPackets (packets : List (UInt32 × Nat)) (h : On old (Installed w) m next s) :
    Run (sendPackets packets) s fun seen _ ↦ Sent w packets seen := by
  induction packets generalizing w s with
  | nil => exact run_pure.2 (.nil w)
  | cons p packets ih =>
      by_cases hlen : p.1 ≤ MAX_FRAMELEN
      · refine (h.sendTold_short hlen p.2).bind ?_
        rintro _ s₁ ⟨rfl, h₁⟩
        exact (ih h₁).bind fun _ _ hsent ↦ run_pure.2 (.short hlen hsent)
      · have hlong : MAX_FRAMELEN < p.1 := UInt32.not_le.1 hlen
        refine (h.sendTold_long hlong p.2).bind ?_
        rintro t s₁ ⟨ht, h₁⟩
        exact (ih h₁).bind fun _ _ hsent ↦ run_pure.2 (.long hlong ht hsent)

/-- The packets that are not too long are sent with what `ENC28J60_Init` has installed. -/
def MacLaw (packets : List (UInt32 × Nat)) (seen : List Settings) : Prop :=
  List.Forall₂ (fun p t ↦ p.1 ≤ MAX_FRAMELEN → t = ⟨macon3Init, 0x00⟩) packets seen

/-- There is no such packet behind a longer one. -/
def NoneBehindLong (packets : List (UInt32 × Nat)) : Prop :=
  packets.Pairwise fun p q ↦ MAX_FRAMELEN < p.1 → MAX_FRAMELEN < q.1

variable {packets : List (UInt32 × Nat)} {seen : List Settings}

/-- Behind a long packet the law holds of long ones only. -/
theorem Sent.law_huge (h : Sent w packets seen) (hw : w = MACON3_HFRMEN) :
    MacLaw packets seen ↔ ∀ p ∈ packets, MAX_FRAMELEN < p.1 := by
  have hne : macon3Init ≠ MACON3_HFRMEN := by decide
  induction h with
  | nil w => exact ⟨fun _ p hp ↦ absurd hp List.not_mem_nil, fun _ ↦ .nil⟩
  | short hlen _ _ =>
      subst hw
      constructor
      · intro hlaw
        obtain ⟨hhead, -⟩ := List.forall₂_cons.1 hlaw
        exact absurd (congrArg Settings.macon3 (hhead hlen)).symm hne
      · exact fun hall ↦ absurd (hall _ List.mem_cons_self) (UInt32.not_lt.2 hlen)
  | long hlen _ _ ih =>
      rw [MacLaw, List.forall₂_cons, List.forall_mem_cons]
      exact and_congr ⟨fun _ ↦ hlen, fun h h' ↦ absurd h (UInt32.not_lt.2 h')⟩ (ih rfl)

/-- From the start it holds as long as none follows. -/
theorem Sent.law (h : Sent w packets seen) (hw : w = macon3Init) :
    MacLaw packets seen ↔ NoneBehindLong packets := by
  induction h with
  | nil w => exact ⟨fun _ ↦ .nil, fun _ ↦ .nil⟩
  | short hlen _ ih =>
      subst hw
      rw [MacLaw, List.forall₂_cons, NoneBehindLong, List.pairwise_cons]
      exact and_congr ⟨fun _ q _ h ↦ absurd h (UInt32.not_lt.2 hlen), fun _ _ ↦ rfl⟩ (ih rfl)
  | @long w p packets t seen hlen _ hsent _ =>
      have hbehind : NoneBehindLong packets ∧ (∀ q ∈ packets, MAX_FRAMELEN < q.1) ↔
          ∀ q ∈ packets, MAX_FRAMELEN < q.1 := by
        refine and_iff_right_of_imp fun hall ↦ ?_
        exact List.pairwise_iff_forall_sublist.2 fun hsub _ ↦ hall _ (hsub.subset (by simp))
      rw [MacLaw, List.forall₂_cons, NoneBehindLong, List.pairwise_cons]
      constructor
      · rintro ⟨-, hlaw⟩
        have hall := (hsent.law_huge rfl).1 hlaw
        exact ⟨fun q hq _ ↦ hall q hq, (hbehind.2 hall).1⟩
      · rintro ⟨hall, -⟩
        refine ⟨fun h ↦ absurd hlen (UInt32.not_lt.2 h), (hsent.law_huge rfl).2 fun q hq ↦
          hall q hq hlen⟩

/-- **The settings of the MAC**: after `ENC28J60_Init` every packet that is not too long is sent
with what it has installed, exactly if none of them follows a longer one. -/
theorem sends_settings_iff (packets : List (UInt32 × Nat)) (s : Board) :
    Run enc28j60Init s fun r s' ↦ r = 0 → Run (sendPackets packets) s' fun seen _ ↦
      (MacLaw packets seen ↔ NoneBehindLong packets) := by
  refine (run_init_installed s).mono ?_
  intro r s' hinit hr
  exact (run_sendPackets packets (hinit hr)).mono fun _ _ hsent ↦ hsent.law rfl

/-- A packet of 60 bytes behind one of 1519. -/
def shortBehindLong : List (UInt32 × Nat) := [(1519, 0), (60, 0)]

theorem not_macLaw : ¬ ∀ packets, Run enc28j60Init board fun r s' ↦ r = 0 →
    Run (sendPackets packets) s' fun seen _ ↦ MacLaw packets seen := by
  intro h
  obtain ⟨r, s', hrun, hlaw⟩ := h shortBehindLong
  have hclkrdy : ESTAT_CLKRDY &&& ESTAT_CLKRDY ≠ 0 := by decide
  have hr : r = 0 := (run_init_ready fun _ ↦ hclkrdy).elim hrun
  obtain ⟨seen, _, hsend, hmac⟩ := hlaw hr
  have hsent :=
    (run_sendPackets shortBehindLong ((run_init_installed board).elim hrun hr)).elim hsend
  cases hsent with
  | short hlen _ => exact absurd hlen (by decide)
  | long hlen _ hbehind =>
      have hall := (hbehind.law_huge rfl).1 (List.forall₂_cons.1 hmac).2
      exact absurd (hall (60, 0) List.mem_cons_self) (by decide)

end Stm32F1.Enc
