import Stm32F1.Tcp.Lifetime

/-!
# The received text

`tcp_client_recv` copies what a packet holds into `tcp_client_recvbuf`, segment
by segment, as far as the buffer goes; the main loop prints the buffer as a text.

The offset never exceeds the size of the buffer, so the difference of unsigned
numbers that is left of it never wraps: the loop ends at the first segment that
does not fit.
-/

namespace Stm32F1.Tcp

open Prog

variable {s s' : World} {p : Option Nat} {cells : List Nat} {q es pcb : Nat}

/-! ## The copy -/

/-- No number that the loop meets is too large. -/
theorem toNat_small {n : Nat} (h : n ≤ TCP_CLIENT_RX_BUFSIZE + UInt16.size) :
    (UInt32.ofNat n).toNat = n :=
  UInt32.toNat_ofNat_of_lt' (h.trans_lt (by decide))

/-- While the offset is in the buffer, as much of a segment is copied as fits. -/
theorem toNat_copyLen {len d : Nat} (hlen : len < UInt16.size) (hd : d ≤ TCP_CLIENT_RX_BUFSIZE) :
    (copyLen (.ofNat len) (.ofNat d)).toNat = min (TCP_CLIENT_RX_BUFSIZE - d) len := by
  have hlen' : (UInt32.ofNat len).toNat = len := toNat_small (hlen.le.trans (Nat.le_add_left ..))
  have hroom : (UInt32.ofNat TCP_CLIENT_RX_BUFSIZE - .ofNat d).toNat =
      TCP_CLIENT_RX_BUFSIZE - d := by
    rw [← UInt32.ofNat_sub hd]
    exact toNat_small ((Nat.sub_le ..).trans (Nat.le_add_right ..))
  rw [copyLen]
  split
  next hgt =>
    rw [gt_iff_lt, UInt32.lt_iff_toNat_lt, hlen', hroom] at hgt
    rw [hroom, Nat.min_eq_left hgt.le]
  next hle =>
    rw [gt_iff_lt, UInt32.lt_iff_toNat_lt, hlen', hroom] at hle
    rw [hlen', Nat.min_eq_right (Nat.not_lt.1 hle)]

/-- The loop ends when the buffer is exceeded. -/
theorem exceeded_iff {len d : Nat} (hlen : len < UInt16.size) (hd : d ≤ TCP_CLIENT_RX_BUFSIZE) :
    UInt32.ofNat d + .ofNat len > .ofNat TCP_CLIENT_RX_BUFSIZE ↔
      TCP_CLIENT_RX_BUFSIZE < d + len := by
  rw [← UInt32.ofNat_add, gt_iff_lt, UInt32.lt_iff_toNat_lt,
    toNat_small (Nat.le_add_right ..), toNat_small (Nat.add_le_add hd hlen.le)]

/-- **The copy**, from an offset in the buffer: the data of the chain, as far as the buffer goes. -/
theorem run_copyLoop_data {d : Nat} (hd : d ≤ TCP_CLIENT_RX_BUFSIZE)
    (h : Chain (links s.pbufs) p cells)
    (hfits : (cells.flatMap (payloads s.pbufs)).length < UInt16.size) :
    Run (copyLoop p (.ofNat d)) s fun _ s' ↦ s' = { s with
      tcpClientRecvbuf := overlay s.tcpClientRecvbuf d
        (min (TCP_CLIENT_RX_BUFSIZE - d) (cells.flatMap (payloads s.pbufs)).length)
        fun i ↦ (cells.flatMap (payloads s.pbufs)).getD i 0 } := by
  have hd' : (UInt32.ofNat d).toNat = d := toNat_small (hd.trans (Nat.le_add_right ..))
  induction cells generalizing p s d with
  | nil =>
      cases h with
      | nil =>
          rw [copyLoop_none]
          refine run_pure.2 ?_
          rw [List.flatMap_nil, List.length_nil, Nat.min_zero, overlay_zero]
  | cons q cells ih =>
      cases h with
      | cons h =>
          rw [List.flatMap_cons, List.length_append] at hfits
          have hlen : (s.pbufs q).len < UInt16.size := (Nat.le_add_right ..).trans_lt hfits
          have hcopied : s.copied q (.ofNat d) = { s with
              tcpClientRecvbuf := overlay s.tcpClientRecvbuf d
                (min (TCP_CLIENT_RX_BUFSIZE - d) (payloads s.pbufs q).length)
                fun i ↦ (payloads s.pbufs q).getD i 0 } := by
            rw [World.copied, toNat_copyLen hlen hd, hd']
            rfl
          rw [Run, copyLoop_some, hcopied, List.flatMap_cons]
          by_cases hfull : UInt32.ofNat d + .ofNat (s.pbufs q).len > .ofNat TCP_CLIENT_RX_BUFSIZE
          · rw [if_pos hfull]
            have hover : TCP_CLIENT_RX_BUFSIZE < d + (payloads s.pbufs q).length :=
              (exceeded_iff hlen hd).1 hfull
            have hmin : TCP_CLIENT_RX_BUFSIZE - d ≤ (payloads s.pbufs q).length := by omega
            refine run_pure.2 ?_
            rw [List.length_append, Nat.min_eq_left hmin,
              Nat.min_eq_left (hmin.trans (Nat.le_add_right ..))]
            congr 1
            refine overlay_congr fun i hi ↦ ?_
            rw [List.getD_append _ _ _ _ (hi.trans_le hmin)]
          · rw [if_neg hfull]
            have hroom : d + (payloads s.pbufs q).length ≤ TCP_CLIENT_RX_BUFSIZE :=
              Nat.not_lt.1 fun hover ↦ hfull ((exceeded_iff hlen hd).2 hover)
            have hmin : (payloads s.pbufs q).length ≤ TCP_CLIENT_RX_BUFSIZE - d := by omega
            rw [← UInt32.ofNat_add, Nat.min_eq_right hmin]
            refine Run.mono (ih hroom h ((Nat.le_add_left ..).trans_lt hfits)
              (toNat_small (hroom.trans (Nat.le_add_right ..)))) ?_
            rintro _ _ rfl
            have hadd : (payloads s.pbufs q).length + min (TCP_CLIENT_RX_BUFSIZE -
                (d + (payloads s.pbufs q).length)) (cells.flatMap (payloads s.pbufs)).length =
                min (TCP_CLIENT_RX_BUFSIZE - d) ((payloads s.pbufs q).length +
                  (cells.flatMap (payloads s.pbufs)).length) := by omega
            congr 1
            refine (overlay_append ..).trans ?_
            rw [List.length_append, ← hadd]
            rfl

/-! ## A packet -/

/-- A chain of buffers as lwIP hands it over; `tot_len` is a `u16_t`. -/
structure Packet (s : World) (q : Nat) (cells : List Nat) : Prop where
  chain : Chain (links s.pbufs) (some q) cells
  total : (s.pbufs q).totLen = (cells.flatMap (payloads s.pbufs)).length
  fits : (s.pbufs q).totLen < UInt16.size

/-- The state once a packet was accepted, its buffers being referenced `ref` times. -/
def World.received (s : World) (pcb q : Nat) (data : List UInt8) (ref : Nat → UInt16) : World :=
  { s with
    pbufs := withRefs s.pbufs ref
    tcpClientRecvbuf :=
      overlay s.tcpClientRecvbuf 0 TCP_CLIENT_RX_BUFSIZE fun i ↦ data.getD i 0
    tcpClientFlag := s.tcpClientFlag ||| LWIP_NEW_DATA
    log := .pbufFree q :: .tcpRecved pcb (s.pbufs q).totLen :: s.log }

theorem received_recvbuf (s : World) (pcb q : Nat) (data : List UInt8) (ref : Nat → UInt16) :
    (s.received pcb q data ref).tcpClientRecvbuf =
      overlay s.tcpClientRecvbuf 0 TCP_CLIENT_RX_BUFSIZE fun i ↦ data.getD i 0 := rfl

/-- Data over zeros. -/
theorem overlay_cleared (m : Nat → UInt8) (n : Nat) (data : List UInt8) :
    overlay (overlay m 0 n fun _ ↦ 0) 0 (min n data.length) (fun i ↦ data.getD i 0) =
      overlay m 0 n fun i ↦ data.getD i 0 := by
  funext i
  by_cases hdata : i < min n data.length
  · have hi : i < n := hdata.trans_le (Nat.min_le_left ..)
    rw [overlay_of_mem (Nat.zero_le i) (by omega), overlay_of_mem (Nat.zero_le i) (by omega)]
  · rw [overlay_of_notMem (.inr (by omega))]
    by_cases hi : i < n
    · have hend : data.length ≤ i := by omega
      rw [overlay_of_mem (Nat.zero_le i) (by omega), overlay_of_mem (Nat.zero_le i) (by omega),
        List.getD_eq_default _ _ (hend.trans (Nat.sub_zero i).ge)]
    · rw [overlay_of_notMem (.inr (by omega)), overlay_of_notMem (.inr (by omega))]

theorem packet_chained {segs : List (List UInt8)} (hsegs : segs ≠ [])
    (hfits : segs.flatten.length < UInt16.size) :
    Packet (s.chained segs) s.nextPbuf (s.fresh segs) where
  chain := chain_chained hsegs
  total := by rw [totLen_chained hsegs, data_chained]
  fits := by rwa [totLen_chained hsegs]

theorem run_tcpClientRecv_packet (h : Packet s q cells)
    (hes : (s.es es).state = .ES_TCPCLIENT_CONNECTED) :
    Run (tcpClientRecv es pcb (some q) ERR_OK) s fun r s' ↦ r = ERR_OK ∧ ∃ ref,
      s' = s.received pcb q (cells.flatMap (payloads s.pbufs)) ref ∧
      ((∀ r ∈ cells, refs s.pbufs r = 1) → ∀ r ∈ cells, ref r = 0) := by
  rw [tcpClientRecv, if_neg (not_not.2 rfl), run_bind, run_of_eq (esAt_apply _ _), if_pos hes]
  refine run_bind.2 (run_modify.2 ?_)
  have hcopy := run_copyLoop_data (s := { s with
    tcpClientRecvbuf := overlay s.tcpClientRecvbuf 0 TCP_CLIENT_RX_BUFSIZE fun _ ↦ 0 })
    (Nat.zero_le _) h.chain (h.total ▸ h.fits)
  refine hcopy.bind ?_
  rintro _ _ rfl
  have hbuf := overlay_cleared s.tcpClientRecvbuf TCP_CLIENT_RX_BUFSIZE
    (cells.flatMap (payloads s.pbufs))
  rw [Nat.sub_zero, hbuf]
  refine run_bind.2 (run_modify.2 (run_bind.2 (run_read.2 (run_bind.2 (run_modify.2 ?_)))))
  refine run_bind.2 (run_pbufFree.2 (Run.mono (run_pbufFreeLoop h.chain) ?_))
  rintro _ _ ⟨ref, rfl, -, -, hfreed⟩
  exact run_pure.2 ⟨rfl, ref, rfl, hfreed⟩

/-- **A packet is copied** to the receive buffer as far as that goes, and the rest is cleared; the
packet is acknowledged and freed, each once. -/
theorem tcpClientRecv_copies (h : Packet s q cells)
    (hes : (s.es es).state = .ES_TCPCLIENT_CONNECTED) :
    Run (tcpClientRecv es pcb (some q) ERR_OK) s fun r s' ↦ r = ERR_OK ∧
      slice s'.tcpClientRecvbuf 0 (min (s.pbufs q).totLen TCP_CLIENT_RX_BUFSIZE) =
        (cells.flatMap (payloads s.pbufs)).take (min (s.pbufs q).totLen TCP_CLIENT_RX_BUFSIZE) ∧
      (∀ i, min (s.pbufs q).totLen TCP_CLIENT_RX_BUFSIZE ≤ i → i < TCP_CLIENT_RX_BUFSIZE →
        s'.tcpClientRecvbuf i = 0) ∧
      (∀ i, TCP_CLIENT_RX_BUFSIZE ≤ i → s'.tcpClientRecvbuf i = s.tcpClientRecvbuf i) ∧
      s'.tcpClientFlag &&& LWIP_NEW_DATA ≠ 0 ∧
      s'.log = .pbufFree q :: .tcpRecved pcb (s.pbufs q).totLen :: s.log ∧
      ((∀ r ∈ cells, refs s.pbufs r = 1) → ∀ r ∈ cells, refs s'.pbufs r = 0) := by
  refine (run_tcpClientRecv_packet h hes).mono ?_
  rintro r _ ⟨rfl, ref, rfl, hfreed⟩
  refine ⟨rfl, ?_, fun i hn hi ↦ ?_, fun i hi ↦ ?_, ?_, rfl, hfreed⟩
  · rw [received_recvbuf]
    exact slice_overlay_take (Nat.min_le_right ..) (h.total ▸ Nat.min_le_left ..)
  · have hend : (cells.flatMap (payloads s.pbufs)).length ≤ i := by
      rw [← h.total]
      omega
    rw [received_recvbuf, overlay_of_mem (Nat.zero_le i) (by rwa [Nat.zero_add]), Nat.sub_zero]
    exact List.getD_eq_default _ _ hend
  · rw [received_recvbuf, overlay_of_notMem (.inr (by rwa [Nat.zero_add]))]
  · have hflag := or_and_self s.tcpClientFlag LWIP_NEW_DATA
    exact fun h0 ↦ absurd (hflag.symm.trans h0) (by decide)

/-- Two bytes in three segments, one of which is empty. -/
theorem tcpClientRecv_copies_three : Run (tcpClientRecv 0 0 (some 0) ERR_OK)
    ((World.boot.opened 0).chained [[0x41], [], [0x42]]) fun r s' ↦ r = ERR_OK ∧
      slice s'.tcpClientRecvbuf 0 2 = [0x41, 0x42] ∧
      s'.log.take 2 = [.pbufFree 0, .tcpRecved 0 2] := by
  have hpacket : Packet ((World.boot.opened 0).chained [[0x41], [], [0x42]]) 0
      ((World.boot.opened 0).fresh [[0x41], [], [0x42]]) := packet_chained (List.cons_ne_nil _ _)
      (by decide)
  refine (tcpClientRecv_copies hpacket rfl).mono ?_
  rintro r s' ⟨hr, hdata, -, -, -, hlog, -⟩
  refine ⟨hr, ?_, ?_⟩
  · rw [data_chained] at hdata
    exact hdata
  · rw [hlog]
    rfl

/-! ## The end of the text -/

/-- While there is something to be printed, there is a NUL in the buffer. -/
def Terminated (s : World) : Prop :=
  s.tcpClientFlag &&& LWIP_NEW_DATA ≠ 0 → ∃ i < TCP_CLIENT_RX_BUFSIZE, s.tcpClientRecvbuf i = 0

/-- The data does not fill the buffer, or what it fills the buffer with has a NUL. -/
def Ends (data : List UInt8) : Prop :=
  data.length < TCP_CLIENT_RX_BUFSIZE ∨ 0 ∈ data.take TCP_CLIENT_RX_BUFSIZE

/-- A packet that is accepted ends. -/
def Abs.SendsText (a : Abs) : Event → Prop
  | .recv _ (some segs) err => err = ERR_OK → a.phase = .opened → Ends segs.flatten
  | _ => True

/-- `tot_len` is a `u16_t`. -/
def Event.Fits : Event → Prop
  | .recv _ (some segs) _ => segs.flatten.length < UInt16.size
  | _ => True

theorem ends_iff (m : Nat → UInt8) (data : List UInt8) :
    (∃ i < TCP_CLIENT_RX_BUFSIZE,
      overlay m 0 TCP_CLIENT_RX_BUFSIZE (fun i ↦ data.getD i 0) i = 0) ↔ Ends data := by
  have hget : ∀ i < TCP_CLIENT_RX_BUFSIZE,
      overlay m 0 TCP_CLIENT_RX_BUFSIZE (fun i ↦ data.getD i 0) i = data.getD i 0 := by
    intro i hi
    rw [overlay_of_mem (Nat.zero_le i) (by rwa [Nat.zero_add]), Nat.sub_zero]
  constructor
  · rintro ⟨i, hi, hzero⟩
    rw [hget i hi] at hzero
    rcases Nat.lt_or_ge i data.length with hdata | hdata
    · rw [List.getD_eq_getElem _ _ hdata] at hzero
      exact .inr (List.mem_take_iff_getElem.2 ⟨i, by omega, hzero⟩)
    · exact .inl (hdata.trans_lt hi)
  · rintro (hshort | hmem)
    · exact ⟨data.length, hshort, (hget _ hshort).trans (List.getD_eq_default _ _ le_rfl)⟩
    · obtain ⟨i, hi, hzero⟩ := List.mem_take_iff_getElem.1 hmem
      have hi' : i < TCP_CLIENT_RX_BUFSIZE := by omega
      refine ⟨i, hi', (hget i hi').trans ?_⟩
      rw [List.getD_eq_getElem _ _ (by omega), hzero]

/-! ### What a step does to the text -/

/-- Nothing new is to be printed. -/
structure SameText (s s' : World) : Prop where
  recvbuf : s'.tcpClientRecvbuf = s.tcpClientRecvbuf
  newData : s'.tcpClientFlag &&& LWIP_NEW_DATA ≠ 0 → s.tcpClientFlag &&& LWIP_NEW_DATA ≠ 0

theorem SameText.terminated (h : SameText s s') (hs : Terminated s) : Terminated s' := by
  intro hflag
  rw [h.recvbuf]
  exact hs (h.newData hflag)

theorem sameText_of_eq (hbuf : s'.tcpClientRecvbuf = s.tcpClientRecvbuf)
    (hflag : s'.tcpClientFlag &&& LWIP_NEW_DATA = s.tcpClientFlag &&& LWIP_NEW_DATA) :
    SameText s s' := ⟨hbuf, fun h ↦ hflag ▸ h⟩

theorem sameText_closed (s : World) (tpcb : Nat) (es : Option Nat) :
    SameText s (s.closed tpcb es) := sameText_of_eq rfl (andNot_and_of_disjoint rfl _)

variable {a : Abs} {e : Event} {err : ErrT} {segs : List (List UInt8)} {history : List Event}

/-- A packet that is accepted. -/
theorem run_recv_accepted (harg : (s.pcbs pcb).callbackArg = some es) (hsegs : segs ≠ [])
    (hfits : segs.flatten.length < UInt16.size) (hes : (s.es es).state = .ES_TCPCLIENT_CONNECTED) :
    Run (Event.recv pcb (some segs) ERR_OK).body s fun _ s' ↦
      s'.tcpClientRecvbuf =
        overlay s.tcpClientRecvbuf 0 TCP_CLIENT_RX_BUFSIZE (fun i ↦ segs.flatten.getD i 0) ∧
      s'.tcpClientFlag = s.tcpClientFlag ||| LWIP_NEW_DATA := by
  refine run_bind.2 (run_read.2 ?_)
  rw [harg]
  refine run_bind.2 (run_bind.2 (.of_eq (newChain_apply hsegs s) ?_))
  refine run_bind.2 (run_modify.2 (run_pure.2 ?_))
  have hpacket := packet_chained (s := s) hsegs hfits
  refine run_bind.2 (Run.mono (run_tcpClientRecv_packet (s := { s.chained segs with
    log := .handed s.nextPbuf :: s.log }) { hpacket with } hes) ?_)
  rintro _ _ ⟨-, ref, rfl, -⟩
  refine run_pure.2 ⟨?_, rfl⟩
  rw [received_recvbuf]
  exact congrArg (fun data : List UInt8 ↦ overlay s.tcpClientRecvbuf 0 TCP_CLIENT_RX_BUFSIZE
    fun i ↦ data.getD i 0) data_chained

/-- A packet that is not accepted. -/
theorem run_recv_dropped (harg : (s.pcbs pcb).callbackArg = some es) (hsegs : segs ≠ [])
    (hdrop : err = ERR_OK → (s.es es).state ≠ .ES_TCPCLIENT_CONNECTED) :
    Run (Event.recv pcb (some segs) err).body s fun _ s' ↦ SameText s s' := by
  have hfree : ∀ t : World, links t.pbufs = links (s.chained segs).pbufs → SameText s t →
      Run (pbufFree s.nextPbuf) t fun _ s' ↦ SameText s s' := by
    intro t hlinks ht
    have hchain : Chain (links t.pbufs) (some s.nextPbuf) (s.fresh segs) := by
      rw [hlinks]
      exact chain_chained hsegs
    refine run_pbufFree.2 (Run.mono (run_pbufFreeLoop hchain) ?_)
    rintro _ _ ⟨ref, rfl, -⟩
    exact ⟨ht.recvbuf, ht.newData⟩
  refine run_bind.2 (run_read.2 ?_)
  rw [harg]
  refine run_bind.2 (run_bind.2 (.of_eq (newChain_apply hsegs s) ?_))
  refine run_bind.2 (run_modify.2 (run_pure.2 ?_))
  dsimp only
  rw [tcpClientRecv]
  by_cases herr : err = ERR_OK
  · rw [if_neg (not_not.2 herr)]
    refine run_bind.2 (run_bind.2 (run_read.2 ?_))
    have hstate : ((s.chained segs).es es).state ≠ .ES_TCPCLIENT_CONNECTED := hdrop herr
    rw [if_neg hstate]
    refine run_bind.2 (run_read.2 (run_bind.2 (run_modify.2 (run_bind.2 (run_modify.2 ?_)))))
    refine run_bind.2 (Run.mono (hfree _ ?_ ?_) ?_)
    · rfl
    · exact sameText_of_eq rfl rfl
    · exact fun _ _ hs' ↦ run_pure.2 (run_pure.2 hs')
  · rw [if_pos herr]
    refine run_bind.2 (run_bind.2 (Run.mono (hfree _ ?_ ?_) ?_))
    · rfl
    · exact sameText_of_eq rfl rfl
    · exact fun _ _ hs' ↦ run_pure.2 (run_pure.2 hs')

/-- The end of what the peer sends. -/
theorem run_recv_end (harg : (s.pcbs pcb).callbackArg = some es) :
    Run (Event.recv pcb none err).body s fun _ s' ↦ SameText s s' := by
  refine run_bind.2 (run_read.2 ?_)
  rw [harg]
  refine run_bind.2 (run_pure.2 ?_)
  refine run_bind.2 (run_bind.2 (run_modify.2 (run_bind.2 (run_modify.2 (run_pure.2 ?_)))))
  exact run_pure.2 (sameText_of_eq rfl rfl)

/-- The packet of this event is accepted. -/
def Abs.Accepts (a : Abs) : Event → Prop
  | .recv _ (some _) err => err = ERR_OK ∧ a.phase = .opened
  | _ => False

theorem Abs.Accepts.eq (h : a.Accepts e) :
    ∃ pcb segs, e = .recv pcb (some segs) ERR_OK ∧ a.phase = .opened := by
  cases e with
  | recv pcb packet err =>
      cases packet with
      | none => exact h.elim
      | some segs =>
          obtain ⟨rfl, hphase⟩ := h
          exact ⟨pcb, segs, rfl, hphase⟩
  | _ => exact h.elim

theorem Abs.Accepts.of_not_sendsText (h : ¬ a.SendsText e) : a.Accepts e := by
  cases e with
  | recv pcb packet err =>
      cases packet with
      | none => exact absurd trivial h
      | some segs => exact ⟨by_contra fun h0 ↦ h fun he _ ↦ absurd he h0,
          by_contra fun h0 ↦ h fun _ ha ↦ absurd ha h0⟩
  | _ => exact absurd trivial h

theorem step_accepted {segs : List (List UInt8)} (h : Tracks a s)
    (hs : Step s (.recv pcb (some segs) ERR_OK) s') (ha : a.phase = .opened)
    (hfits : segs.flatten.length < UInt16.size) :
    s'.tcpClientRecvbuf =
        overlay s.tcpClientRecvbuf 0 TCP_CLIENT_RX_BUFSIZE (fun i ↦ segs.flatten.getD i 0) ∧
      s'.tcpClientFlag = s.tcpClientFlag ||| LWIP_NEW_DATA := by
  obtain ⟨⟨hlive, hrecv, hsegs⟩, hbody⟩ := hs
  obtain ⟨rfl, es, hes, hphase⟩ := h.registered hlive (.inl hrecv)
  have harg : (s.pcbs s.tcppcb).callbackArg = some es := by
    rw [hes]
    rfl
  rcases hphase with ⟨-, -, hstate⟩ | ⟨hclosing, -, -⟩
  · exact (run_recv_accepted harg (fun h0 ↦ hsegs (congrArg some h0)) hfits hstate).elim hbody
  · rw [ha] at hclosing
    exact Phase.noConfusion hclosing

/-- Every other event leaves the text alone. -/
theorem step_sameText (h : Tracks a s) (hs : Step s e s') (ha : ¬ a.Accepts e) : SameText s s' := by
  cases e with
  | connected pcb e mem =>
      obtain ⟨rfl, -, rfl⟩ := step_connected h hs
      split
      · exact sameText_of_eq rfl (or_and_of_disjoint rfl _)
      · exact sameText_of_eq rfl (andNot_and_of_disjoint rfl _)
  | recv pcb packet err =>
      obtain ⟨⟨hlive, hrecv, hpacket⟩, hbody⟩ := hs
      obtain ⟨rfl, es, hes, hphase⟩ := h.registered hlive (.inl hrecv)
      have harg : (s.pcbs s.tcppcb).callbackArg = some es := by
        rw [hes]
        rfl
      cases packet with
      | none => exact (run_recv_end harg).elim hbody
      | some segs =>
          refine (run_recv_dropped harg (fun h0 ↦ hpacket (congrArg some h0)) ?_).elim hbody
          intro herr
          rcases hphase with ⟨hopened, -, -⟩ | ⟨-, -, hstate⟩
          · exact absurd ⟨herr, hopened⟩ ha
          · rw [hstate]
            decide
  | sent pcb len answers =>
      obtain ⟨es, -, cells, k, ref, log, -, rfl, -⟩ := step_sent h hs
      exact sameText_of_eq rfl rfl
  | poll pcb alloc answers =>
      obtain ⟨es, -, ⟨-, -, rfl⟩ | ⟨-, -, rfl⟩ | ⟨-, hserved, -⟩⟩ := step_poll h hs
      · exact sameText_of_eq rfl rfl
      · exact sameText_closed s s.tcppcb (some es)
      · exact sameText_of_eq hserved.recvbuf hserved.newData
  | err pcb e =>
      obtain ⟨rfl, -, rfl⟩ := step_err h hs
      exact sameText_of_eq rfl rfl
  | newData =>
      rcases step_newData hs with rfl | rfl
      · exact sameText_of_eq rfl rfl
      · refine ⟨rfl, fun hflag ↦ absurd (andNot_and_self _ _) hflag⟩
  | key0 m =>
      rw [step_key0 hs]
      exact sameText_of_eq rfl (or_and_of_disjoint rfl _)
  | key1 =>
      rw [step_key1 hs]
      exact sameText_closed s s.tcppcb none
  | status =>
      rcases step_status h hs with ⟨-, rfl⟩ | ⟨-, rfl⟩
      · exact sameText_of_eq rfl (andNot_and_of_disjoint rfl _)
      · exact sameText_of_eq rfl rfl

/-- After a packet was accepted, there is a NUL exactly when the packet ends. -/
theorem terminated_accepted (hflag : s'.tcpClientFlag = s.tcpClientFlag ||| LWIP_NEW_DATA)
    (hbuf : s'.tcpClientRecvbuf =
      overlay s.tcpClientRecvbuf 0 TCP_CLIENT_RX_BUFSIZE fun i ↦ segs.flatten.getD i 0) :
    Terminated s' ↔ Ends segs.flatten := by
  have hset : s'.tcpClientFlag &&& LWIP_NEW_DATA ≠ 0 := by
    rw [hflag, or_and_self]
    decide
  rw [Terminated, imp_iff_right hset, hbuf, ends_iff]

theorem step_terminated (h : Tracks a s) (hs : Step s e s') (ha : a.Accepts e) (hfits : e.Fits) :
    Terminated s' ↔ a.SendsText e := by
  obtain ⟨pcb, segs, rfl, hphase⟩ := ha.eq
  obtain ⟨hbuf, hflag⟩ := step_accepted h hs hphase hfits
  rw [terminated_accepted hflag hbuf]
  exact ⟨fun hends _ _ ↦ hends, fun hends ↦ hends rfl hphase⟩

/-- **Whatever is to be printed has a NUL throughout a run exactly when every packet that is
accepted ends.** -/
theorem terminated_iff (hfits : ∀ e ∈ history, e.Fits) (h : Reaches Start Step history s) :
    Throughout Start Step (fun _ s ↦ Terminated s) history ↔
      Meets (fun past e ↦ (after past).SendsText e) history := by
  refine throughout_iff_of (I := fun _ s ↦ Terminated s) ?_ ?_ (fun _ _ _ ht ↦ ht) ?_ h hfits
  · intro s hs
    rw [start_iff.1 hs]
    exact fun hflag ↦ absurd rfl hflag
  · intro past s e s' hpast ht hfit he hs
    have htracks := reaches_tracks hpast
    by_cases ha : (after past).Accepts e
    · exact (step_terminated htracks hs ha hfit).2 he
    · exact (step_sameText htracks hs ha).terminated ht
  · intro past s e s' hpast _ hfit he hs ht
    have ha := Abs.Accepts.of_not_sendsText he
    exact he ((step_terminated (reaches_tracks hpast) hs ha hfit).1 ht)

/-- The connection is made, and a packet with this data arrives. -/
def receiveRun (data : List UInt8) : List Event :=
  [.recv 0 (some [data]) ERR_OK, .connected 0 ERR_OK true]

theorem exists_receiveRun {data : List UInt8} (hfits : data.length < UInt16.size) :
    ∃ s, Reaches Start Step (receiveRun data) s := by
  have hrun := run_recv_accepted (show (openedState.pcbs 0).callbackArg = some 0 from rfl)
    (List.cons_ne_nil data []) (by rwa [List.flatten_singleton]) rfl
  obtain ⟨_, s, hbody, -⟩ := hrun
  exact ⟨s, .step reaches_opened ⟨⟨rfl, rfl, fun h0 ↦ nomatch h0⟩, hbody⟩⟩

theorem fits_receiveRun {data : List UInt8} (hfits : data.length < UInt16.size) :
    ∀ e ∈ receiveRun data, e.Fits := by
  refine List.forall_mem_cons.2 ⟨?_, List.forall_mem_cons.2 ⟨trivial, fun e he ↦ (nomatch he)⟩⟩
  change [data].flatten.length < _
  rwa [List.flatten_singleton]

/-- A packet that is one byte shorter than the buffer. -/
theorem terminated_iff_short : ∃ s,
    Reaches Start Step (receiveRun (List.replicate 1499 0x41)) s ∧ Terminated s := by
  have hfits : (List.replicate 1499 (0x41 : UInt8)).length < UInt16.size := by
    rw [List.length_replicate]
    decide
  obtain ⟨s, hs⟩ := exists_receiveRun hfits
  refine ⟨s, hs, ((terminated_iff (fits_receiveRun hfits) hs).2 ?_).now hs⟩
  refine meets_cons.2 ⟨fun _ _ ↦ .inl ?_, meets_cons.2 ⟨trivial, meets_nil⟩⟩
  rw [List.flatten_singleton, List.length_replicate]
  decide

/-- A packet that fills the buffer with text. -/
theorem not_terminated_full : ¬ ∀ history s, (∀ e ∈ history, e.Fits) →
    Reaches Start Step history s → Terminated s := by
  intro h
  have hfits : (List.replicate TCP_CLIENT_RX_BUFSIZE (0x41 : UInt8)).length < UInt16.size := by
    rw [List.length_replicate]
    decide
  obtain ⟨s, hs⟩ := exists_receiveRun hfits
  have hends : Ends [List.replicate TCP_CLIENT_RX_BUFSIZE 0x41].flatten := by
    cases hs with
    | step hpast hstep =>
        exact (step_terminated (reaches_tracks hpast) hstep ⟨rfl, rfl⟩
          (fits_receiveRun hfits _ (List.mem_cons_self ..))).1 (h _ _ (fits_receiveRun hfits)
            (.step hpast hstep)) rfl rfl
  rw [List.flatten_singleton] at hends
  rcases hends with hlen | hmem
  · rw [List.length_replicate] at hlen
    exact lt_irrefl _ hlen
  · have h0 := List.eq_of_mem_replicate (List.mem_of_mem_take hmem)
    exact absurd h0 (by decide)

end Stm32F1.Tcp
