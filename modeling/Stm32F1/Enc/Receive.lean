import Stm32F1.Lib.Calls
import Stm32F1.Enc.Queue
import Stm32F1.Enc.Calls

/-!
# Receiving

`ENC28J60_Packet_Receive` reads along the ring from the address in `NextPacketPtr`
while the chip goes on to store frames behind the last one.  The header tells it
where the next frame begins; that address becomes `ERXRDPT`, which frees the
cells of the frame.
-/

namespace Stm32F1.Enc

open Prog Mcu Enc28j60

variable {old : List (Access (Framed Enc28j60))} {m : Nat → UInt8} {next maxlen : UInt32}
  {s : Board}
  {a k p freed packet : Nat} {c : Enc28j60} {f : Frame} {taken pending front : List Frame}
    {r v : UInt8}

/-! ## What leaves the ring alone -/

/-- The registers that the ring rests on. -/
def RingReg (r : UInt8) : Prop := Acting r ∨ r = ERXNDL ∨ r = ERXNDH

instance (r : UInt8) : Decidable (RingReg r) := inferInstanceAs (Decidable (_ ∨ _))

/-- Other registers, and an access to the PHY. -/
theorem Holding.withRegs (h : Holding p taken pending freed c) {regs : UInt8 → UInt8}
    (mii : Option (Bool × Nat)) (hregs : ∀ r, RingReg r → r ≠ ECON1 → regs r = c.regs r) :
    Holding p taken pending freed { c with regs := regs, mii := mii } := by
  have hst : pointer regs ERXSTL = pointer c.regs ERXSTL := by
    have hlo := hregs ERXSTL (by decide) (by decide)
    have hhi := hregs (ERXSTL + 1) (by decide) (by decide)
    rw [pointer, hlo, hhi, pointer]
  have hnd : pointer regs ERXNDL = pointer c.regs ERXNDL := by
    have hlo := hregs ERXNDL (by decide) (by decide)
    have hhi := hregs (ERXNDL + 1) (by decide) (by decide)
    rw [pointer, hlo, hhi, pointer]
  have hauto := hregs ECON2 (by decide) (by decide)
  exact h.congr hst hnd hauto rfl rfl rfl rfl rfl rfl

theorem kept_ring : Kept (Ring p taken front freed) where
  pass c h := by
    obtain ⟨rest, h⟩ := h
    obtain ⟨more, hmore⟩ := h.pass
    rw [List.append_assoc] at hmore
    exact ⟨rest ++ more, hmore⟩
  econ1 c v _ h := by
    obtain ⟨rest, h⟩ := h
    exact ⟨rest, h.withRegs c.mii fun r _ hne ↦ c.withEcon1_of_ne hne v⟩

theorem steady_ring : Steady RingReg (Ring p taken front freed) where
  toKept := kept_ring
  looked c r h := by
    rw [looked]
    split
    · obtain ⟨rest, h⟩ := h
      exact ⟨rest, h.congr rfl rfl rfl rfl rfl rfl rfl rfl rfl⟩
    · exact h
  poke c r v hr h := by
    obtain ⟨rest, h⟩ := h
    obtain ⟨regs, mii, hpoke, hregs, -⟩ := c.poke_of_not_acting (fun hact ↦ hr (.inl hact)) v
    rw [hpoke]
    refine ⟨rest, h.withRegs mii fun r' hr' _ ↦ hregs r' ?_⟩
    rintro rfl
    exact hr hr'

/-! ## Reading along the ring -/

theorem kept_pointer {lo : UInt8} (hlo : lo ≠ ECON1) (hhi : lo + 1 ≠ ECON1) (a : Nat) :
    Kept fun c ↦ pointer c.regs lo = a where
  pass c h := by rw [c.pass_regs, h]
  econ1 c v _ h := (pointer_update hlo hhi c.regs v).trans h

/-- The frame `f` is the next one, and the read pointer is `k` cells behind its beginning. -/
def Along (p : Nat) (taken : List Frame) (f : Frame) (k : Nat) (c : Enc28j60) : Prop :=
  Ring p taken [f] 0 c ∧ pointer c.regs ERDPTL = ringNext^[k] p

theorem kept_along : Kept (Along p taken f k) :=
  kept_ring.and (kept_pointer (by decide) (by decide) _)

/-- The next byte of the frame is read. -/
theorem Along.readMem (h : Along p taken f k c) (hk : k < (frameShape.image p f).length) :
    c.readMem.1 = (frameShape.image p f)[k] ∧ Along p taken f (k + 1) c.readMem.2 := by
  obtain ⟨⟨rest, hold⟩, hptr⟩ := h
  have hheld := hold.queued.1 k hk
  refine ⟨?_, ⟨rest, ?_⟩, ?_⟩
  · rw [← hheld, ← hptr]
    rfl
  · rw [Enc28j60.readMem, advance, if_pos hold.autoinc]
    refine hold.withRegs c.mii fun r hr hne ↦ ?_
    have hlo : r ≠ ERDPTL := by
      rintro rfl
      exact absurd hr (by decide)
    have hhi : r ≠ ERDPTL + 1 := by
      rintro rfl
      exact absurd hr (by decide)
    rw [setPointer, Function.update_of_ne hhi, Function.update_of_ne hlo]
  · have hlt : ringNext^[k + 1] p < ringSize := ringNext_iterate_lt hold.lt
    change ringNext^[k + 1] p < 6673 at hlt
    rw [Enc28j60.readMem, advance, if_pos hold.autoinc, pointer_setPointer, hold.after, hptr,
      ← Function.iterate_succ_apply' ringNext]
    exact Nat.mod_eq_of_lt (hlt.trans (by decide))

/-- Two bytes are read. -/
theorem On.readWord (h : On old (Along p taken f k) m next s)
    (hk : k + 1 < (frameShape.image p f).length) :
    Run Enc.readWord s fun w s' ↦
      w.toNat = (frameShape.image p f)[k].toNat + 256 * (frameShape.image p f)[k + 1].toNat ∧
      On old (Along p taken f (k + 2)) m next s' := by
  refine (h.readMem (V := fun b c ↦ b = (frameShape.image p f)[k] ∧ Along p taken f (k + 1) c)
    kept_along.pass fun c hc ↦ hc.readMem (by omega)).bind ?_
  intro lo s₁ h₁
  obtain ⟨rfl, -⟩ := h₁.chip
  refine ((h₁.mono fun c hc ↦ hc.2).readMem
    (V := fun b c ↦ b = (frameShape.image p f)[k + 1] ∧ Along p taken f (k + 2) c)
    kept_along.pass fun c hc ↦ hc.readMem hk).bind ?_
  intro hi s₂ h₂
  obtain ⟨rfl, -⟩ := h₂.chip
  exact run_pure.2 ⟨toNat_word32 _ _, h₂.mono fun c hc ↦ hc.2⟩

/-- Where the frame behind `f` begins. -/
def behind (p : Nat) (f : Frame) : Nat := ringNext^[frameShape.extent p f] p

theorem image_eq (p : Nat) (f : Frame) : frameShape.image p f =
    [UInt8.ofNat (behind p f), UInt8.ofNat (behind p f / 256), UInt8.ofNat f.data.length,
      UInt8.ofNat (f.data.length / 256), UInt8.ofNat f.status.toNat,
      UInt8.ofNat (f.status.toNat / 256)] ++ f.data := rfl

theorem toNat_word {n : Nat} (h : n < 65536) :
    (UInt8.ofNat n).toNat + 256 * (UInt8.ofNat (n / 256)).toNat = n := by
  rw [UInt8.toNat_ofNat', UInt8.toNat_ofNat']
  omega

/-- `NextPacketPtr` is written to a pointer register. -/
theorem run_writeNextPacketPtr {I J : Enc28j60 → Prop} {lo hi : UInt8}
    (hI : Kept I) (hlo : Named lo ∧ lo ≠ ECON1) (hhi : Named hi ∧ hi ≠ ECON1) (hplain : Plain lo)
    (hIlo : ∀ c, I c → I (c.poke lo next.toUInt8))
    (hJ : ∀ c, I c → c.regs lo = next.toUInt8 → J (c.poke hi (next >>> 8).toUInt8))
    (h : On old I m next s) :
    Run (writeNextPacketPtr lo hi) s fun _ s' ↦ On old J m next s' := by
  refine run_bind.2 (run_read.2 ?_)
  dsimp only
  rw [h.nextPacketPtr]
  refine (h.write (J := fun c ↦ I c ∧ c.regs lo = next.toUInt8) hI hlo.1 hlo.2
    fun c hc ↦ ⟨hIlo c hc, poke_plain_self hplain _⟩).bind ?_
  intro _ s' hs'
  refine run_bind.2 (run_read.2 ?_)
  dsimp only
  rw [hs'.nextPacketPtr]
  exact hs'.write (hI.and (kept_reg hlo.2 _)) hhi.1 hhi.2 fun c hc ↦ hJ c hc.1 hc.2

/-- The bytes of an address of the ring. -/
theorem toNat_address (hp : p < ringSize) (hnext : next.toNat = p) :
    (next.toUInt8.toNat + 256 * (next >>> 8).toUInt8.toNat) % 8192 = p := by
  change p < 6673 at hp
  have hshift : (next >>> 8).toNat = next.toNat / 256 := by
    rw [UInt32.toNat_shiftRight]
    exact Nat.shiftRight_eq_div_pow _ _
  rw [UInt32.toNat_toUInt8, UInt32.toNat_toUInt8, hshift, hnext]
  omega

/-! ## Taking a frame -/

/-- `ERXRDPT` goes on to the next frame: the cells of the first one are free. -/
theorem Ring.take (h : Ring p taken [f] 0 c)
    (hptr : pointer (Function.update c.regs ERXRDPTH v) ERXRDPTL = behind p f) :
    Ring (behind p f) (taken ++ [f]) [] 1 (c.poke ERXRDPTH v) := by
  obtain ⟨rest, h⟩ := h
  have hspan : frameShape.span ringNext p (f :: rest) =
      frameShape.extent p f + frameShape.span ringNext (behind p f) rest := rfl
  have hlt := h.span
  change frameShape.span ringNext p (f :: rest) < ringSize at hlt
  have hne : ECON2 ≠ ERXRDPTH := by decide
  have hecon2 : Function.update c.regs ERXRDPTH v ECON2 = c.regs ECON2 :=
    Function.update_of_ne hne ..
  rw [poke_erxrdpth, hptr]
  refine ⟨rest, ?_⟩
  exact
    { erxst := (pointer_update (by decide) (by decide) c.regs v).trans h.erxst
      erxnd := (pointer_update (by decide) (by decide) c.regs v).trans h.erxnd
      autoinc := hecon2.symm ▸ h.autoinc
      tx := h.tx
      lt := ringNext_iterate_lt h.lt
      erxrdpt := rfl
      erxwrpt := by
        change c.erxwrpt = ringNext^[frameShape.span ringNext (behind p f) rest] (behind p f)
        rw [h.erxwrpt, behind, ← Function.iterate_add_apply]
        change ringNext^[frameShape.span ringNext p (f :: rest)] p = _
        rw [hspan, Nat.add_comm, behind]
      span := by
        change frameShape.span ringNext (behind p f) rest < ringSize
        omega
      epktcnt := h.epktcnt
      count := h.count
      stored := by rw [h.stored, List.append_assoc]; rfl
      queued := h.queued.2 }

/-- The packet counter is told. -/
theorem Ring.count (h : Ring p taken [] 1 c) :
    Ring p taken [] 0 (c.poke ECON2 (c.peek ECON2 ||| ECON2_PKTDEC)) := by
  obtain ⟨rest, h⟩ := h
  have hdec : ¬ (c.peek ECON2 ||| ECON2_PKTDEC) &&& ECON2_PKTDEC = 0 := by
    rw [or_and_self]
    decide
  have hpeek : c.peek ECON2 = c.regs ECON2 := rfl
  have hauto : (c.peek ECON2 ||| ECON2_PKTDEC) &&& ~~~ECON2_PKTDEC &&& ECON2_AUTOINC =
      c.regs ECON2 &&& ECON2_AUTOINC := by
    rw [andNot_and_of_disjoint rfl, or_and_of_disjoint rfl, hpeek]
  rw [poke_econ2, if_neg hdec]
  refine ⟨rest, ?_⟩
  exact
    { erxst := (pointer_update (by decide) (by decide) c.regs _).trans h.erxst
      erxnd := (pointer_update (by decide) (by decide) c.regs _).trans h.erxnd
      autoinc := by
        have hself :
          Function.update c.regs ECON2 ((c.peek ECON2 ||| ECON2_PKTDEC) &&& ~~~ECON2_PKTDEC)
          ECON2 = (c.peek ECON2 ||| ECON2_PKTDEC) &&& ~~~ECON2_PKTDEC := Function.update_self ..
        dsimp only
        rw [hself, hauto]
        exact h.autoinc
      tx := h.tx
      lt := h.lt
      erxrdpt := h.erxrdpt
      erxwrpt := h.erxwrpt
      span := h.span
      epktcnt := by
        have hone := h.epktcnt
        change c.epktcnt - 1 = rest.length
        change c.epktcnt = rest.length + 1 at hone
        omega
      count := (Nat.sub_le _ _).trans h.count
      stored := h.stored
      queued := h.queued }

/-- The bytes of a frame that a call with room for `maxlen` copies. -/
def received (f : Frame) (maxlen : UInt32) : Nat :=
  if f.status &&& 0x80 = 0 then 0 else min (f.data.length - 4) (maxlen.toNat - 1)

/-- The memory behind that call: those bytes and a NUL, if the frame was received well. -/
def copied (f : Frame) (maxlen : UInt32) (packet : Nat) (m : Nat → UInt8) : Nat → UInt8 :=
  if f.status &&& 0x80 = 0 then m
  else overlay m packet (received f maxlen + 1) fun k ↦
    if k < received f maxlen then f.data.getD k 0 else 0

theorem toNat_clipped {len : UInt32} (hlen : 4 ≤ len.toNat) (hmax : 1 ≤ maxlen) :
    (clipped len maxlen).toNat = min (len.toNat - 4) (maxlen.toNat - 1) := by
  have hfour : (len - 4).toNat = len.toNat - 4 :=
    UInt32.toNat_sub_of_le _ _ (UInt32.le_iff_toNat_le.2 hlen)
  have hone : (maxlen - 1).toNat = maxlen.toNat - 1 := UInt32.toNat_sub_of_le _ _ hmax
  rw [clipped]
  split
  · rename_i h
    have hlt : maxlen.toNat - 1 < len.toNat - 4 := by
      rw [← hfour, ← hone]
      exact UInt32.lt_iff_toNat_lt.1 h
    rw [hone, Nat.min_eq_right hlt.le]
  · rename_i h
    have hle : len.toNat - 4 ≤ maxlen.toNat - 1 := by
      rw [← hfour, ← hone]
      exact Nat.le_of_not_lt fun hlt ↦ h (UInt32.lt_iff_toNat_lt.2 hlt)
    rw [hfour, Nat.min_eq_left hle]

theorem status_and_iff {rxstat : UInt32} {status : UInt16} (h : rxstat.toNat = status.toNat) :
    rxstat &&& 0x80 = 0 ↔ status &&& 0x80 = 0 := by
  have hl : (rxstat &&& 0x80).toNat = status.toNat &&& 128 := by
    rw [UInt32.toNat_and, h]
    rfl
  have hr : (status &&& 0x80).toNat = status.toNat &&& 128 := by
    rw [UInt16.toNat_and]
    rfl
  rw [← UInt32.toNat_inj, ← UInt16.toNat_inj, hl, hr]
  rfl

/-- The bytes of the frame that fit are copied, if it was received well. -/
theorem On.copyPacket {rxstat len : UInt32} (hstat : rxstat.toNat = f.status.toNat)
    (hlen : len.toNat = f.data.length) (hmax : 1 ≤ maxlen)
    (h : On old (Along p taken f 6) m next s) :
    Run (Enc.copyPacket rxstat len maxlen packet) s fun ret s' ↦ ret.toNat = received f maxlen ∧
      On old (Ring p taken [f] 0) (copied f maxlen packet m) next s' := by
  rw [Enc.copyPacket, copied]
  by_cases hok : f.status &&& 0x80 = 0
  · rw [if_pos ((status_and_iff hstat).2 hok), if_pos hok]
    exact run_pure.2 ⟨(if_pos hok).symm, h.mono fun c hc ↦ hc.1⟩
  · have hclip : (clipped len maxlen).toNat = received f maxlen := by
      rw [toNat_clipped (hlen ▸ f.four_le) hmax, hlen, received, if_neg hok]
    have hfits : received f maxlen ≤ f.data.length - 4 := by
      rw [received, if_neg hok]
      exact Nat.min_le_left ..
    rw [if_neg fun hz ↦ hok ((status_and_iff hstat).1 hz), if_neg hok]
    refine (On.readBuf (K := fun k ↦ Along p taken f (6 + k)) (B := fun k b ↦ b = f.data.getD k 0)
      (fun k ↦ kept_along.pass) (fun k c hk hc ↦ ?_) h).bind ?_
    · have hlt : k < f.data.length := by omega
      have himage : (frameShape.image p f).length = 6 + f.data.length := by
        rw [image_eq, List.length_append]
        rfl
      obtain ⟨hbyte, hnext⟩ := hc.readMem (k := 6 + k) (by omega)
      refine ⟨?_, hnext⟩
      rw [hbyte, List.getD_eq_getElem _ _ hlt]
      simp only [image_eq]
      rw [List.getElem_append_right (by simp)]
      simp
    · rintro _ s' ⟨bytes, hbytes, hs'⟩
      rw [hclip] at hbytes hs'
      refine run_pure.2 ⟨hclip, ?_⟩
      have hmem : (overlay m packet (received f maxlen + 1) fun k ↦
          if k < received f maxlen then bytes k else 0) =
          overlay m packet (received f maxlen + 1) fun k ↦
            if k < received f maxlen then f.data.getD k 0 else 0 := by
        refine overlay_congr fun k _ ↦ ?_
        by_cases hk : k < received f maxlen
        · rw [if_pos hk, if_pos hk, hbytes k hk]
        · rw [if_neg hk, if_neg hk]
      rw [← hmem]
      exact hs'.mono fun c hc ↦ hc.1

/-- **A frame is taken**: `ENC28J60_Packet_Receive` once a frame is there. -/
theorem On.receivePacket (hmax : 1 ≤ maxlen) (hnext : next.toNat = p)
    (h : On old (Ring p taken [f] 0) m next s) :
    Run (Enc.receivePacket maxlen packet) s fun ret s' ↦ ret.toNat = received f maxlen ∧
      ∃ next', next'.toNat = behind p f ∧
        On old (Ring (behind p f) (taken ++ [f]) [] 0) (copied f maxlen packet m) next' s' := by
  obtain ⟨rest, hstart⟩ := h.chip
  have hp : p < ringSize := hstart.lt
  have hbehind : behind p f < ringSize := ringNext_iterate_lt hp
  have hsize : ringSize = 6673 := rfl
  have himage : (frameShape.image p f).length = 6 + f.data.length := by
    rw [image_eq, List.length_append]
    rfl
  refine (h.waitEstat steady_ring.toCalm).bind ?_
  intro _ s₁ h₁
  refine (run_writeNextPacketPtr (J := Along p taken f 0) kept_ring (by decide) (by decide)
    (by decide)
    (fun c hc ↦ steady_ring.poke c ERDPTL _ (by decide) hc) (fun c hc hlo ↦ ?_) h₁).bind ?_
  · refine ⟨steady_ring.poke c ERDPTH _ (by decide) hc, ?_⟩
    have hlo' : (c.poke ERDPTH (next >>> 8).toUInt8).regs ERDPTL = next.toUInt8 :=
      (poke_plain_of_ne (by decide) (by decide) _).trans hlo
    have hhi : (c.poke ERDPTH (next >>> 8).toUInt8).regs (ERDPTL + 1) = (next >>> 8).toUInt8 :=
      poke_plain_self (by decide) _
    rw [pointer, hlo', hhi]
    exact toNat_address hp hnext
  intro _ s₂ h₂
  refine (h₂.readWord (by omega)).bind ?_
  rintro next' s₃ ⟨hnext', h₃⟩
  refine (h₃.assign next').bind ?_
  intro _ s₄ h₄
  refine (h₄.readWord (by omega)).bind ?_
  rintro len s₅ ⟨hlen, h₅⟩
  refine (h₅.readWord (by omega)).bind ?_
  rintro rxstat s₆ ⟨hstat, h₆⟩
  -- The header says where the next frame is, how long this one is, and whether it is sound.
  have hnext' : next'.toNat = behind p f := hnext'.trans (toNat_word (hbehind.trans (by decide)))
  have hlen : len.toNat = f.data.length := hlen.trans (toNat_word f.short)
  have hstat : rxstat.toNat = f.status.toNat := hstat.trans (toNat_word f.status.toNat_lt)
  refine (h₆.copyPacket hstat hlen hmax).bind ?_
  rintro ret s₇ ⟨hret, h₇⟩
  refine (run_writeNextPacketPtr (J := Ring (behind p f) (taken ++ [f]) [] 1) kept_ring (by decide)
    (by decide) (by decide) (fun c hc ↦ steady_ring.poke c ERXRDPTL _ (by decide) hc)
    (fun c hc hlo ↦ ?_) h₇).bind ?_
  · refine hc.take ?_
    have hne : ERXRDPTL ≠ ERXRDPTH := by decide
    have hhi : ERXRDPTL + 1 = ERXRDPTH := by decide
    rw [pointer, Function.update_of_ne hne, hlo, hhi, Function.update_self]
    exact toNat_address hbehind hnext'
  intro _ s₈ h₈
  refine (h₈.setBits kept_ring.pass (by decide) rfl (fun c ↦ poke_bsel (by decide) c _)
    fun c hc ↦ hc.count).bind ?_
  intro _ s₉ h₉
  exact run_pure.2 ⟨hret, next', hnext', h₉⟩

end Stm32F1.Enc
