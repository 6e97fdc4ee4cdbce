import Stm32F1.Lib.Ghost
import Stm32F1.Enc.Receive
import Stm32F1.Enc.Coherent

/-!
# The length that is returned

`ENC28J60_Packet_Receive` takes the length of a frame from the header in front of
it, leaves out the four bytes of the checksum and clips what is left.  It does so
without asking whether there are four bytes to leave out: a header that is shorter
than that, as one finds where no frame begins, makes the difference wrap, and the
call returns a frame as long as the buffer.

The header is what the chip tells, so the results hold of any chip on the bus.
-/

namespace Stm32F1.Enc

open Prog Mcu

variable {δ : Type} [SpiDevice δ] {maxlen ret len rxstat : UInt32} {packet : Nat}

/-! ## The header -/

/-- The six bytes in front of a frame, word by word. -/
structure Header where
  next : UInt32
  len : UInt32
  rxstat : UInt32
  deriving DecidableEq

/-- The part of `ENC28J60_Packet_Receive` that reads the header. -/
def readHeader : Prog (Mcu δ (Globals δ)) Header := do
  let next ← readWord
  assign fun v ↦ { v with nextPacketPtr := next }
  let len ← readWord
  let rxstat ← readWord
  pure ⟨next, len, rxstat⟩

/-- `receivePacket`, which also tells the header. -/
def receivePacketTold (maxlen : UInt32) (packet : Nat) :
    Prog (Mcu δ (Globals δ)) (UInt32 × Option Header) := do
  whileM do
    let b ← enc28j60Read ESTAT
    pure (b &&& 0x04 != 0)
  writeNextPacketPtr ERDPTL ERDPTH
  let header ← readHeader
  let len ← copyPacket header.rxstat header.len maxlen packet
  writeNextPacketPtr ERXRDPTL ERXRDPTH
  enc28j60WriteOp ENC28J60_BIT_FIELD_SET ECON2 ECON2_PKTDEC
  pure (len, some header)

/-- `ENC28J60_Packet_Receive`, which also tells the header that it has read, if it has. -/
def packetReceiveTold (maxlen : UInt32) (packet : Nat) :
    Prog (Mcu δ (Globals δ)) (UInt32 × Option Header) := do
  let count ← enc28j60Read EPKTCNT
  if count = 0 then pure (0, none) else receivePacketTold maxlen packet

/-- Nothing else is different. -/
theorem packetReceiveTold_fst (maxlen : UInt32) (packet : Nat) :
    (packetReceiveTold maxlen packet >>= fun r ↦ pure r.1) =
      (enc28j60PacketReceive maxlen packet : Prog (Mcu δ (Globals δ)) UInt32) := by
  rw [packetReceiveTold, enc28j60PacketReceive, bind_assoc']
  congr 1
  funext count
  split
  · rfl
  · simp only [receivePacketTold, receivePacket, readHeader, bind_assoc', pure_bind']

/-! ## The law -/

/-- What a caller relies on: a frame fits into the buffer with its NUL, and is no longer than the
header says without the checksum. -/
def LengthLaw (maxlen ret : UInt32) : Option Header → Prop
  | none => ret = 0
  | some header =>
      (ret = 0 ∨ ret ≤ maxlen - 1 ∧ ret.toNat + 4 ≤ header.len.toNat) ∧ (header.len < 4 → ret = 0)

/-- The frame is not copied, or it is as long as its checksum at least, or there is no room
anyway. -/
def Plausible (maxlen : UInt32) : Option Header → Prop
  | none => True
  | some header => header.rxstat &&& 0x80 = 0 ∨ 4 ≤ header.len ∨ maxlen = 1

/-- The length that a header leads to. -/
def returned (maxlen : UInt32) (header : Header) : UInt32 :=
  if header.rxstat &&& 0x80 = 0 then 0 else clipped header.len maxlen

theorem copyPacket_yields (header : Header) (maxlen : UInt32) (packet : Nat) :
    Yields (copyPacket header.rxstat header.len maxlen packet : Prog (Mcu δ (Globals δ)) UInt32)
      (· = returned maxlen header) := by
  rw [copyPacket, returned]
  split
  · exact .pure rfl
  · exact .after fun _ ↦ .pure rfl

/-- The length goes by the header, whatever chip it comes from. -/
theorem packetReceiveTold_yields (maxlen : UInt32) (packet : Nat) :
    Yields (packetReceiveTold maxlen packet : Prog (Mcu δ (Globals δ)) (UInt32 × Option Header))
      fun r ↦ r.1 = r.2.elim 0 (returned maxlen) := by
  refine .after fun count ↦ .ite (.pure rfl) ?_
  refine .after fun _ ↦ .after fun _ ↦ .after fun header ↦ ?_
  refine (copyPacket_yields header maxlen packet).bind ?_
  rintro _ rfl
  exact .after fun _ ↦ .after fun _ ↦ .pure rfl

/-- A difference that wraps is clipped to the whole buffer. -/
theorem clipped_wraps (hlen : len < 4) (hmax : 1 < maxlen) : clipped len maxlen ≠ 0 := by
  have hroom : (maxlen - 1).toNat = maxlen.toNat - 1 :=
    UInt32.toNat_sub_of_le _ _ (UInt32.le_of_lt hmax)
  have hwrap : (len - 4).toNat = (2 ^ 32 - 4 + len.toNat) % 2 ^ 32 := UInt32.toNat_sub len 4
  have hlen : len.toNat < 4 := UInt32.lt_iff_toNat_lt.1 hlen
  have hmax : 1 < maxlen.toNat := UInt32.lt_iff_toNat_lt.1 hmax
  rw [Ne, ← UInt32.toNat_inj, UInt32.toNat_zero, clipped]
  split
  · omega
  · omega

/-- **The law holds of a header exactly if it is plausible.** -/
theorem lengthLaw_returned (hmax : 1 ≤ maxlen) (header : Header) :
    LengthLaw maxlen (returned maxlen header) (some header) ↔ Plausible maxlen (some header) := by
  by_cases hstat : header.rxstat &&& 0x80 = 0
  · have hzero : returned maxlen header = 0 := if_pos hstat
    exact ⟨fun _ ↦ .inl hstat, fun _ ↦ ⟨.inl hzero, fun _ ↦ hzero⟩⟩
  have hret : returned maxlen header = clipped header.len maxlen := if_neg hstat
  rw [LengthLaw, Plausible, hret]
  by_cases hlen : 4 ≤ header.len
  · have hclip := toNat_clipped (UInt32.le_iff_toNat_le.1 hlen) hmax
    refine ⟨fun _ ↦ .inr (.inl hlen), fun _ ↦ ⟨.inr ⟨clipped_le _ _, ?_⟩, fun hlt ↦ ?_⟩⟩
    · have hfour : 4 ≤ header.len.toNat := UInt32.le_iff_toNat_le.1 hlen
      rw [hclip]
      omega
    · exact absurd hlen (UInt32.not_le.2 hlt)
  · have hshort : header.len < 4 := UInt32.not_le.1 hlen
    constructor
    · rintro ⟨-, hzero⟩
      refine .inr (.inr ?_)
      by_contra hne
      exact clipped_wraps hshort (UInt32.lt_of_le_of_ne hmax (Ne.symm hne)) (hzero hshort)
    · rintro (h | h | rfl)
      · exact absurd h hstat
      · exact absurd h hlen
      · have hzero : clipped header.len 1 = 0 := UInt32.le_zero_iff.1 (clipped_le header.len 1)
        exact ⟨.inl hzero, fun _ ↦ hzero⟩

/-- **The length that is returned** by `ENC28J60_Packet_Receive`, whatever header a chip tells; and
the ENC28J60 does not keep the driver waiting, in whatever state its ring is. -/
theorem packetReceive_length_iff (hmax : 1 ≤ maxlen) (packet : Nat) :
    (∀ (s s' : Mcu δ (Globals δ)) (ret : UInt32),
      enc28j60PacketReceive maxlen packet s = some (ret, s') → ∃ header,
        packetReceiveTold maxlen packet s = some ((ret, header), s') ∧
          (LengthLaw maxlen ret header ↔ Plausible maxlen header)) ∧
    ∀ s : Board, s.dev.chip.bsel = s.glob.enc28j60bank >>> 5 →
      Run (enc28j60PacketReceive maxlen packet) s fun _ _ ↦ True := by
  constructor
  · intro s s' ret hret
    obtain ⟨header, htold⟩ := told_of_fst (packetReceiveTold_fst maxlen packet) hret
    refine ⟨header, htold, ?_⟩
    have hyields := packetReceiveTold_yields maxlen packet s _ s' htold
    cases header with
    | none => exact ⟨fun _ ↦ trivial, fun _ ↦ hyields⟩
    | some header =>
        have hheader : ret = returned maxlen header := hyields
        rw [hheader]
        exact lengthLaw_returned hmax header
  · intro s hbank
    have hon : On s.glob.accesses (fun _ ↦ True) s.mem s.glob.nextPacketPtr s :=
      ⟨trivial, hbank, rfl, rfl, fun a ha ↦ .inl ha⟩
    refine (hon.packetReceive steady_true (fun _ _ h ↦ h) (fun _ _ ↦ trivial)
      (fun _ _ ↦ trivial) maxlen packet).mono ?_
    intro _ _ _
    trivial

/-! ## A header where no frame begins -/

/-- The first two words of the ring are 0, and the third is 0x80. -/
def stray : Board :=
  { board with
    dev := ⟨{ board.dev.chip with
      mem := fun a ↦ if a = 4 then 0x80 else 0
      epktcnt := 1 }, none⟩
    glob := { board.glob with enc28j60bank := 0 } }

theorem packetReceiveTold_stray :
    (packetReceiveTold 1518 0 stray).map Prod.fst = some (1517, some ⟨0, 0, 0x80⟩) := by
  rw [packetReceiveTold, receivePacketTold, whileM_unfold]
  decide +kernel

/-- The call returns there, and the header is not plausible, so the length breaks the law. -/
theorem packetReceive_length_stray :
    Run (enc28j60PacketReceive 1518 0) stray fun ret _ ↦
      ret = 1517 ∧ ¬ LengthLaw 1518 ret (some ⟨0, 0, 0x80⟩) := by
  obtain ⟨hlaw, hreturns⟩ :=
    @packetReceive_length_iff (Framed Enc28j60) _ 1518 (by decide) 0
  obtain ⟨ret, s', hrun, -⟩ := hreturns stray (by decide)
  obtain ⟨header, htold, hiff⟩ := hlaw stray s' ret hrun
  have hfst : some (ret, header) = some (1517, some ⟨0, 0, 0x80⟩) := by
    rw [← packetReceiveTold_stray, htold]
    rfl
  obtain ⟨rfl, rfl⟩ := Prod.mk.inj (Option.some.inj hfst)
  refine ⟨1517, s', hrun, rfl, fun h ↦ ?_⟩
  rcases hiff.1 h with hstat | hlen | hmax
  · exact absurd hstat (by decide)
  · exact absurd hlen (by decide)
  · exact absurd hmax (by decide)

/-- The longest frame there is comes out of a header that tells a length of 0. -/
theorem not_lengthLaw_stray : ¬ ∀ (s s' : Board) (ret : UInt32) (header : Option Header),
    packetReceiveTold 1518 0 s = some ((ret, header), s') → LengthLaw 1518 ret header := by
  intro h
  obtain ⟨⟨told, s'⟩, hrun, htold⟩ := Option.map_eq_some_iff.1 packetReceiveTold_stray
  dsimp only at htold
  subst htold
  obtain ⟨-, hzero⟩ := h stray s' 1517 _ hrun
  exact absurd (hzero (by decide)) (by decide)

end Stm32F1.Enc
