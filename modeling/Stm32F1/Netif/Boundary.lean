import Stm32F1.Lib.History
import Stm32F1.Netif.Ethernetif
import Stm32F1.Enc.Transmit

/-!
# Frames between lwIP and the chip

`ethernetif.c` on top of `enc28j60.c`, once `ENC28J60_Init` has succeeded: packets
are sent, frames are received, and in between other code runs, with the chip and
the network going on.  In every state that is reached this way, a packet that is
sent gets to the transmit buffer of the chip as it is, and a frame that was
received gets to lwIP as it is.
-/

namespace Stm32F1.Netif

open Prog Mcu Lwip Enc

/-- `ENC28J60_Packet_Send` and `ENC28J60_Packet_Receive` -/
def enc28j60 : Nic (Framed Enc28j60) (Globals (Framed Enc28j60)) where
  packetSend := enc28j60PacketSend
  packetReceive := enc28j60PacketReceive

/-! ## The system -/

inductive Event
  /-- A packet is handed to `low_level_output`. -/
  | output (p : Nat)
  /-- `low_level_input` is called. -/
  | input (pool : Pool)
  /-- Other code runs, for some time of the chip. -/
  | other (time : Nat)

/-- `ENC28J60_Init` has succeeded, whatever came before it. -/
def Start (s : Heap Board) : Prop := ∃ b : Board, enc28j60Init b = some (0, s.glob)

/-- Other code does not touch the chip, nor the variables of its driver. -/
def Elsewhere (time : Nat) (s s' : Heap Board) : Prop :=
  s'.glob.dev = ⟨Enc28j60.pass^[time] s.glob.dev.chip, s.glob.dev.rx⟩ ∧ s'.glob.glob = s.glob.glob

def Step (lwipBuf : Nat) (s : Heap Board) : Event → Heap Board → Prop
  | .output p, s' => (∃ cells, Packet s.pbufs p cells) ∧
      ∃ r, lowLevelOutput enc28j60 lwipBuf (some p) s = some (r, s')
  | .input pool, s' => ∃ p, lowLevelInput enc28j60 lwipBuf pool s = some (p, s')
  | .other time, s' => Elsewhere time s s'

variable {s s' : Heap Board} {t : Board} {lwipBuf time : Nat} {p : Option Nat} {q : Nat}
  {cells : List Nat} {pool : Pool} {n : UInt32} {segs : List (Nat × UInt16)} {history : List Event}

/-- The driver knows the bank of the chip, and the receiver keeps to its ring. -/
def Ready (s : Heap Board) : Prop := ∃ old, At old Bounded s.glob

theorem ready_stored {old : List (Access (Framed Enc28j60))} (h : At old Bounded t) (a : Nat)
    (bytes : List UInt8) : At old Bounded (stored t a bytes) :=
  ⟨h.chip, h.bank, rfl, rfl, h.accesses⟩

theorem ready_init (h : Start s) : Ready s := by
  obtain ⟨b, hinit⟩ := h
  have hring := (run_init_ring b).elim hinit rfl
  exact ⟨b.glob.accesses, (hring.mono fun c hc ↦ hc.bounded).at⟩

/-! ## What the driver does -/

/-- Sending keeps the driver ready, whatever is sent. -/
theorem run_packetSend_ready (h : ∃ old, At old Bounded t) (len : UInt32) (packet : Nat) :
    Run (enc28j60PacketSend len packet) t fun _ t' ↦ ∃ old, At old Bounded t' := by
  obtain ⟨old, h⟩ := h
  have hecon₁ (c : Enc28j60) (v : UInt8) (hc : Bounded c) : Bounded (c.poke ECON1 v) :=
    steady_bounded.poke c ECON1 v (by decide) hc
  refine (On.packetSend steady_bounded.toKept (fun c hc _ ↦ hc) steady_bounded (by decide +kernel)
    (fun c b hc ↦ hc.writeMem b) (fun c hc ↦ hecon₁ c _ hc) (fun c hc ↦ hecon₁ c _ hc) h len
    packet).mono ?_
  intro _ t' ht'
  exact ⟨old, ht'.at⟩

/-- Receiving keeps the driver ready, and writes no more than it was told. -/
theorem run_packetReceive_ready (h : ∃ old, At old Bounded t) (maxlen : UInt32) (packet : Nat) :
    Run (enc28j60PacketReceive maxlen packet) t fun n t' ↦
      Wrote maxlen packet t.mem n t'.mem ∧ ∃ old, At old Bounded t' := by
  obtain ⟨old, h⟩ := h
  refine (On.packetReceive_wrote steady_bounded (by decide +kernel) (fun c hc ↦ hc.readMem)
    (fun c hc ↦ hc.count) h maxlen packet).mono ?_
  rintro n t' ⟨m', next', hwrote, ht'⟩
  exact ⟨ht'.mem ▸ hwrote, old, ht'.at⟩

/-! ## One call of `ethernetif.c` -/

/-- Only the memory of `lwip_buf` was written, and no more of it used than there is. -/
structure Inside (lwipBuf : Nat) (s s' : Heap Board) : Prop where
  mem : ∀ a, a < lwipBuf ∨ lwipBuf + LWIP_BUF_SIZE ≤ a → s'.glob.mem a = s.glob.mem a
  uses : Uses LWIP_BUF_SIZE s.log s'.log

/-- The packet is in the transmit buffer, behind its control byte. -/
structure Sent (lwipBuf : Nat) (data : List UInt8) (s s' : Heap Board) : Prop where
  control : s'.glob.dev.chip.mem TXSTART_INIT.toNat = 0x00
  packet : slice s'.glob.dev.chip.mem (TXSTART_INIT.toNat + 1) data.length = data
  etxnd : pointer s'.glob.dev.chip.regs ETXNDL = TXSTART_INIT.toNat + data.length
  inside : Inside lwipBuf s s'

/-- The frame that the driver returned, so many bytes long, is in the chain from the pool. -/
structure Received (lwipBuf : Nat) (segs : List (Nat × UInt16)) (n : UInt32) (t : Board)
    (p : Option Nat) (s' : Heap Board) : Prop where
  chain : Chain (links s'.pbufs) p (segs.map Prod.fst)
  len : ∀ seg ∈ segs, (s'.pbufs seg.1).len = seg.2
  frame : contents s'.pbufs (segs.map Prod.fst) = slice t.mem lwipBuf n.toNat

/-- A store of so many bytes stays inside. -/
theorem stored_inside {a : Nat} {bytes : List UInt8} (hlen : bytes.length ≤ LWIP_BUF_SIZE)
    (ha : a < lwipBuf ∨ lwipBuf + LWIP_BUF_SIZE ≤ a) :
    (stored t lwipBuf bytes).mem a = t.mem a := by
  rw [stored_mem]
  exact overlay_of_notMem (by omega)

/-- **A packet is sent.** -/
theorem run_lowLevelOutput_sent (hs : Ready s) (h : Chain (links s.pbufs) p cells)
    (hmax : total s.pbufs cells ≤ MAX_FRAMELEN.toNat) :
    Run (lowLevelOutput enc28j60 lwipBuf p) s fun r s' ↦
      r = ERR_OK ∧ s'.pbufs = s.pbufs ∧ Sent lwipBuf (contents s.pbufs cells) s s' := by
  obtain ⟨old, hs⟩ := hs
  have hsize : MAX_FRAMELEN.toNat = 1518 := rfl
  have hbuf : LWIP_BUF_SIZE = 3000 := rfl
  have hword : UInt32.size = 4294967296 := rfl
  have hlen : (UInt32.ofNat (total s.pbufs cells)).toNat = total s.pbufs cells :=
    toNat_offset (by omega)
  have hcontents := length_contents s.pbufs cells
  have hready := ready_stored hs lwipBuf (contents s.pbufs cells)
  refine (run_lowLevelOutput enc28j60 h (by omega)
    (hready.packetSend_carries (by omega) lwipBuf)).mono ?_
  rintro r s' ⟨rfl, hpbufs, ht, huses⟩
  rw [hlen] at ht
  obtain ⟨⟨-, etxnd, bytes⟩, -, hmem, -, -⟩ := ht
  refine ⟨rfl, hpbufs, bytes 0 (by omega), ?_, ?_, ?_, ?_⟩
  · refine List.ext_getElem length_slice fun i hi hi' ↦ ?_
    have hbyte := bytes (i + 1) (by omega)
    have hstored : (stored s.glob lwipBuf (contents s.pbufs cells)).mem (lwipBuf + i) =
        (contents s.pbufs cells).getD i 0 := by
      rw [stored_mem]
      exact overlay_add hi'
    rw [getElem_slice, Nat.add_assoc, Nat.add_comm 1, hbyte, imageOf, hstored,
      List.getD_eq_getElem _ _ hi']
  · rw [etxnd, hcontents]
  · intro a ha
    rw [hmem]
    exact stored_inside (by omega) ha
  · exact huses.mono (by omega)

/-- **A frame is received.** -/
theorem run_lowLevelInput_received (hs : Ready s) (lwipBuf : Nat) (pool : Pool) :
    Run (enc28j60PacketReceive MAX_FRAMELEN lwipBuf) s.glob fun n t ↦
      Run (lowLevelInput enc28j60 lwipBuf pool) s fun p s' ↦
        s'.glob = t ∧ (∃ old, At old Bounded t) ∧ Inside lwipBuf s s' ∧
        (pool.alloc n.toUInt16 = none → p = none) ∧
        ∀ segs, pool.alloc n.toUInt16 = some segs → Received lwipBuf segs n t p s' := by
  have hmax : MAX_FRAMELEN.toNat = 1518 := rfl
  have hbuf : LWIP_BUF_SIZE = 3000 := rfl
  obtain ⟨n, t, hreceive, hwrote, ht⟩ :=
    run_packetReceive_ready hs MAX_FRAMELEN lwipBuf
  have hlt := hwrote.lt (by omega)
  have hlen : n.toUInt16.toNat = n.toNat := by
    rw [UInt32.toNat_toUInt16]
    exact Nat.mod_eq_of_lt (by omega)
  have hmem (a : Nat) (ha : a < lwipBuf ∨ lwipBuf + LWIP_BUF_SIZE ≤ a) : t.mem a = s.glob.mem a :=
    hwrote.outside (by omega) (by omega)
  refine .of_eq hreceive ?_
  cases hpool : pool.alloc n.toUInt16 with
  | none =>
      refine (run_lowLevelInput_none enc28j60 hreceive hpool).mono ?_
      rintro p s' ⟨rfl, rfl⟩
      refine ⟨rfl, ht, ⟨hmem, .use (by omega) _⟩, fun _ ↦ rfl, ?_⟩
      exact fun segs h ↦ absurd h.symm (Option.some_ne_none segs)
  | some segs =>
      have hnodup := pool.nodup hpool
      have htotal := (total_chainOf s.pbufs hnodup).trans ((pool.total hpool).trans hlen)
      refine (run_lowLevelInput enc28j60 hreceive hpool).mono ?_
      rintro p s' ⟨rfl, hs'⟩
      obtain ⟨hglob, hlinks, hlens, -, -, hcontents, huses, -⟩ := hs'
      rw [Nat.zero_add] at huses
      refine ⟨hglob, ht, ⟨fun a ha ↦ (congrFun (congrArg Mcu.mem hglob) a).trans (hmem a ha), ?_⟩,
        fun h ↦ absurd h (Option.some_ne_none segs), ?_⟩
      · exact (Uses.use (by omega) _).trans (huses.mono (htotal.trans_le (by omega)))
      · intro segs' heq
        obtain rfl := Option.some.inj heq
        refine ⟨?_, fun seg hseg ↦ ?_, ?_⟩
        · rw [hlinks]
          exact chain_chainOf s.pbufs hnodup
        · exact (hlens seg.1).trans (len_chainOf s.pbufs hnodup seg hseg)
        · rw [hcontents]
          exact congrArg (slice t.mem lwipBuf) htotal

/-! ## All runs -/

theorem ready_step {e : Event} (hs : Ready s) (h : Step lwipBuf s e s') : Ready s' := by
  cases e with
  | output p =>
      obtain ⟨⟨cells, hchain, htotal⟩, r, hrun⟩ := h
      have hlt : (s.pbufs p).totLen.toNat < 65536 := (s.pbufs p).totLen.toNat_lt
      have hword : UInt32.size = 4294967296 := rfl
      rw [htotal, length_contents] at hlt
      obtain ⟨old, hs⟩ := hs
      have hsend := run_packetSend_ready ⟨old, ready_stored hs lwipBuf (contents s.pbufs cells)⟩
        (.ofNat (total s.pbufs cells)) lwipBuf
      exact ((run_lowLevelOutput enc28j60 hchain (by omega) hsend).elim hrun).2.2.1
  | input pool =>
      obtain ⟨p, hrun⟩ := h
      obtain ⟨n, t, -, hinput⟩ := run_lowLevelInput_received hs lwipBuf pool
      obtain ⟨hglob, ht, -⟩ := hinput.elim hrun
      rw [Ready, hglob]
      exact ht
  | other time =>
      obtain ⟨old, hs⟩ := hs
      obtain ⟨hdev, hglob⟩ := h
      have hpass : Bounded (Enc28j60.pass^[time] s.glob.dev.chip) ∧
          (Enc28j60.pass^[time] s.glob.dev.chip).bsel = s.glob.dev.chip.bsel := by
        clear hdev
        induction time with
        | zero => exact ⟨hs.chip, rfl⟩
        | succ time ih =>
            rw [Function.iterate_succ_apply', Enc28j60.pass_bsel]
            exact ⟨steady_bounded.pass _ ih.1, ih.2⟩
      refine ⟨old, ?_, ?_, rfl, rfl, hglob.symm ▸ hs.accesses⟩
      · rw [hdev]
        exact hpass.1
      · rw [hdev, hglob]
        exact hpass.2.trans hs.bank

/-- **Frames cross the boundary intact**, in every state that is reached. -/
theorem frames_intact (hs : Reaches Start (Step lwipBuf) history s) :
    (∀ p cells, Chain (links s.pbufs) p cells → total s.pbufs cells ≤ MAX_FRAMELEN.toNat →
      Run (lowLevelOutput enc28j60 lwipBuf p) s fun r s' ↦
        r = ERR_OK ∧ Sent lwipBuf (contents s.pbufs cells) s s') ∧
    ∀ pool : Pool, Run (enc28j60PacketReceive MAX_FRAMELEN lwipBuf) s.glob fun n t ↦
      Run (lowLevelInput enc28j60 lwipBuf pool) s fun p s' ↦
        Inside lwipBuf s s' ∧ (pool.alloc n.toUInt16 = none → p = none) ∧
        ∀ segs, pool.alloc n.toUInt16 = some segs → Received lwipBuf segs n t p s' := by
  have hready : Ready s := hs.invariant (I := fun _ s ↦ Ready s) (fun _ h ↦ ready_init h)
    fun _ _ _ _ _ hs h ↦ ready_step hs h
  constructor
  · intro p cells hchain hmax
    refine (run_lowLevelOutput_sent hready hchain hmax).mono ?_
    intro r s' hs'
    exact ⟨hs'.1, hs'.2.2⟩
  · intro pool
    refine (run_lowLevelInput_received hready lwipBuf pool).mono ?_
    intro n t ht
    refine ht.mono ?_
    intro p s' hs'
    exact ⟨hs'.2.2.1, hs'.2.2.2⟩

/-- A packet of three bytes; its second segment is empty. -/
def segmented : Nat → Pbuf
  | 1 =>
    { next := some 2, payload := fun i ↦ [0xDE, 0xAD].getD i 0, totLen := 3, len := 2, ref := 1 }
  | 2 => { next := some 3, payload := fun _ ↦ 0, totLen := 1, len := 0, ref := 1 }
  | 3 => { next := none, payload := fun _ ↦ 0xBE, totLen := 1, len := 1, ref := 1 }
  | _ => { next := none, payload := fun _ ↦ 0x55, totLen := 0, len := 0, ref := 0 }

/-- A pool that has two halves, and an empty buffer in between. -/
def halves : Pool where
  alloc n := some [(4, n / 2), (5, 0), (6, n - n / 2)]
  nonempty h := by
    obtain rfl := Option.some.inj h
    exact List.cons_ne_nil _ _
  nodup h := by
    obtain rfl := Option.some.inj h
    exact (by decide : [4, 5, 6].Nodup)
  total {n _} h := by
    obtain rfl := Option.some.inj h
    have hdiv : (n / 2).toNat = n.toNat / 2 := UInt16.toNat_div ..
    have hle : n / 2 ≤ n := UInt16.le_iff_toNat_le.2 (by omega)
    have hsub : (n - n / 2).toNat = n.toNat - (n / 2).toNat := UInt16.toNat_sub_of_le _ _ hle
    change (n / 2).toNat + (0 + ((n - n / 2).toNat + 0)) = n.toNat
    omega

/-- Some time after `ENC28J60_Init`. -/
theorem frames_intact_board : ∃ s : Heap Board,
    Reaches Start (Step 0x20000000) [.other 3] s ∧
    Run (lowLevelOutput enc28j60 0x20000000 (some 1)) s (fun r s' ↦
      r = ERR_OK ∧ Sent 0x20000000 [0xDE, 0xAD, 0xBE] s s') ∧
    Run (enc28j60PacketReceive MAX_FRAMELEN 0x20000000) s.glob fun n t ↦
      Run (lowLevelInput enc28j60 0x20000000 halves) s fun p s' ↦
        Inside 0x20000000 s s' ∧ (halves.alloc n.toUInt16 = none → p = none) ∧
        ∀ segs, halves.alloc n.toUInt16 = some segs → Received 0x20000000 segs n t p s' := by
  have hready (n : Nat) : board.dev.chip.course.estat n &&& ESTAT_CLKRDY ≠ 0 :=
    (by decide : ESTAT_CLKRDY &&& ESTAT_CLKRDY ≠ 0)
  obtain ⟨r, t, hinit, rfl⟩ := run_init_ready hready
  have hstart : Reaches Start (Step 0x20000000) [] ⟨segmented, [], t⟩ := .start ⟨board, hinit⟩
  let later : Board := { t with dev := ⟨Enc28j60.pass^[3] t.dev.chip, t.dev.rx⟩ }
  have helsewhere : Elsewhere 3 ⟨segmented, [], t⟩ ⟨segmented, [], later⟩ := ⟨rfl, rfl⟩
  have hother : Step 0x20000000 ⟨segmented, [], t⟩ (.other 3) ⟨segmented, [], later⟩ := helsewhere
  have hs := hstart.step hother
  obtain ⟨hsent, hreceived⟩ := frames_intact hs
  have hchain : Chain (links segmented) (some 1) [1, 2, 3] := .cons (.cons (.cons .nil))
  have hcontents : contents segmented [1, 2, 3] = [0xDE, 0xAD, 0xBE] := by decide
  have htotal : total segmented [1, 2, 3] ≤ MAX_FRAMELEN.toNat := by decide
  refine ⟨⟨segmented, [], later⟩, hs, ?_, hreceived halves⟩
  rw [← hcontents]
  exact hsent (some 1) [1, 2, 3] hchain htotal

end Stm32F1.Netif
