import Stm32F1.Lwip.Pbuf

/-!
# Receiving datagrams

The callbacks of `udp_client.c` and `udp_server.c` copy a datagram to
`lwip_recv_buf`, which the main loop prints as a text.  They copy as much as the
whole chain holds, but out of the memory of its first segment.
-/

namespace Stm32F1.Udp

open Prog Lwip

def LWIP_NEW_DATA : UInt8 := 0x40
def LWIP_RECV_BUF : Nat := 200

/-- What a callback sets in `udp_server_pcb`. -/
structure UdpPcb where
  remoteIp : UInt32
  remotePort : UInt16

structure Globals where
  lwipFlag : UInt8
  lwipRecvBuf : Nat → UInt8
  udpServerPcb : UdpPcb

variable {s : Heap Globals} {p : Nat} {cells : List Nat} {addr : UInt32} {port : UInt16}

/-- `memcpy (lwip_recv_buf, p->payload, n);` -/
def copyRecvBuf (p n : Nat) : Prog (Heap Globals) Unit := do
  note (.read p n)
  let b ← pbufAt p
  Prog.modify fun s ↦ { s with glob := { s.glob with
    lwipRecvBuf := overlay s.glob.lwipRecvBuf 0 n b.payload } }

@[simp] theorem copyRecvBuf_apply (p n : Nat) (s : Heap Globals) : copyRecvBuf p n s =
    some ((), { s with
      log := .read p n :: s.log
      glob := { s.glob with
        lwipRecvBuf := overlay s.glob.lwipRecvBuf 0 n (s.pbufs p).payload } }) := rfl

/-- What both callbacks do first. -/
def takeDatagram (p : Nat) : Prog (Heap Globals) Unit := do
  let b ← pbufAt p
  if b.totLen.toNat ≥ LWIP_RECV_BUF then do
    setPbuf p fun b ↦ { b with payload := Function.update b.payload (LWIP_RECV_BUF - 1) 0 }
    copyRecvBuf p LWIP_RECV_BUF
  else do
    copyRecvBuf p b.totLen.toNat
    Prog.modify fun s ↦ { s with glob := { s.glob with
      lwipRecvBuf := Function.update s.glob.lwipRecvBuf b.totLen.toNat 0 } }
  Prog.modify fun s ↦
    { s with glob := { s.glob with lwipFlag := s.glob.lwipFlag ||| LWIP_NEW_DATA } }

/-- `udp_client_rev` -/
def udpClientRev (p : Option Nat) (_addr : UInt32) (_port : UInt16) : Prog (Heap Globals) Unit :=
  match p with
  | some p => do
      takeDatagram p
      pbufFree p
  | none => pure ()

/-- `udp_server_rev` -/
def udpServerRev (p : Option Nat) (addr : UInt32) (port : UInt16) : Prog (Heap Globals) Unit :=
  match p with
  | some p => do
      takeDatagram p
      Prog.modify fun s ↦ { s with glob := { s.glob with
        udpServerPcb := { s.glob.udpServerPcb with remoteIp := addr } } }
      Prog.modify fun s ↦ { s with glob := { s.glob with
        udpServerPcb := { s.glob.udpServerPcb with remotePort := port } } }
      pbufFree p
  | none => pure ()

/-! ## What is taken -/

/-- So many bytes are copied. -/
def copied (b : Pbuf) : Nat := min b.totLen.toNat LWIP_RECV_BUF

/-- So many bytes of the datagram have room, with a NUL behind them. -/
def room (b : Pbuf) : Nat := min b.totLen.toNat (LWIP_RECV_BUF - 1)

/-- The state once the datagram was taken out of the memory of its first segment. -/
structure Taken (p : Nat) (s s' : Heap Globals) : Prop where
  links : links s'.pbufs = links s.pbufs
  refs : refs s'.pbufs = refs s.pbufs
  recvBuf : s'.glob.lwipRecvBuf = overlay s.glob.lwipRecvBuf 0 (room (s.pbufs p) + 1)
    fun i ↦ if i < room (s.pbufs p) then (s.pbufs p).payload i else 0
  log : s'.log = .read p (copied (s.pbufs p)) :: s.log

theorem links_update_payload (h : Nat → Pbuf) (p i : Nat) (b : UInt8) :
    links (Function.update h p { h p with payload := Function.update (h p).payload i b }) =
      links h := by
  funext q
  by_cases hq : q = p
  · rw [hq, links, Function.update_self, links]
  · rw [links, Function.update_of_ne hq, links]

theorem refs_update_payload (h : Nat → Pbuf) (p i : Nat) (b : UInt8) :
    refs (Function.update h p { h p with payload := Function.update (h p).payload i b }) =
      refs h := by
  funext q
  by_cases hq : q = p
  · rw [hq, refs, Function.update_self, refs]
  · rw [refs, Function.update_of_ne hq, refs]

/-- `takeDatagram` copies the first buffer and sets `LWIP_NEW_DATA`. -/
theorem run_takeDatagram (p : Nat) (s : Heap Globals) :
    Run (takeDatagram p) s fun _ s' ↦ Taken p s s' := by
  refine run_bind.2 (run_read.2 ?_)
  by_cases hlong : (s.pbufs p).totLen.toNat ≥ LWIP_RECV_BUF
  · rw [if_pos hlong]
    have hroom : room (s.pbufs p) = LWIP_RECV_BUF - 1 := Nat.min_eq_right (Nat.le_of_succ_le hlong)
    have hcopied : copied (s.pbufs p) = LWIP_RECV_BUF := Nat.min_eq_right hlong
    refine run_bind.2 (run_modify.2 (run_bind.2 (.of_eq (copyRecvBuf_apply ..) (run_modify.2 ?_))))
    refine ⟨links_update_payload .., refs_update_payload .., ?_, ?_⟩
    · rw [hroom]
      dsimp only
      rw [Function.update_self]
      refine overlay_congr fun i hi ↦ ?_
      by_cases hlast : i < LWIP_RECV_BUF - 1
      · rw [if_pos hlast]
        exact Function.update_of_ne hlast.ne 0 (s.pbufs p).payload
      · obtain rfl : i = LWIP_RECV_BUF - 1 :=
          Nat.le_antisymm (Nat.le_pred_of_lt hi) (Nat.not_lt.1 hlast)
        rw [if_neg hlast]
        exact Function.update_self (LWIP_RECV_BUF - 1) 0 (s.pbufs p).payload
    · rw [hcopied]
  · rw [if_neg hlong]
    have hroom : room (s.pbufs p) = (s.pbufs p).totLen.toNat :=
      Nat.min_eq_left (Nat.le_pred_of_lt (Nat.not_le.1 hlong))
    have hcopied : copied (s.pbufs p) = (s.pbufs p).totLen.toNat :=
      Nat.min_eq_left (Nat.not_le.1 hlong).le
    refine run_bind.2 (.of_eq (copyRecvBuf_apply ..) (run_bind.2 (run_modify.2 (run_modify.2 ?_))))
    refine ⟨rfl, rfl, ?_, ?_⟩
    · rw [hroom, overlay_succ, if_neg (lt_irrefl _), Nat.zero_add]
      refine congrArg (Function.update · _ _) (overlay_congr fun i hi ↦ ?_)
      rw [if_pos hi]
    · rw [hcopied]

/-- The callbacks take the datagram, and free the chain. -/
def Received (p : Nat) (cells : List Nat) (s s' : Heap Globals) : Prop :=
  s'.glob.lwipRecvBuf = overlay s.glob.lwipRecvBuf 0 (room (s.pbufs p) + 1)
      (fun i ↦ if i < room (s.pbufs p) then (s.pbufs p).payload i else 0) ∧
    s'.log = .pbufFree p :: .read p (copied (s.pbufs p)) :: s.log ∧
    ((∀ q ∈ cells, refs s.pbufs q = 1) → ∀ q ∈ cells, refs s'.pbufs q = 0)

/-- The datagram is freed then. -/
theorem free_taken {s' : Heap Globals} (h : Taken p s s') (hp : Packet s.pbufs p cells) :
    Run (pbufFree p) s' fun _ s'' ↦ Received p cells s s'' := by
  have hchain : Chain (links s'.pbufs) (some p) cells := by
    rw [h.links]
    exact hp.chain
  refine Run.mono (run_pbufFree hchain) ?_
  rintro _ _ ⟨ref, rfl, hall⟩
  refine ⟨h.recvBuf, congrArg _ h.log, ?_⟩
  rw [h.refs] at hall
  exact hall

/-- The callback of the client does just this. -/
theorem run_udpClientRev (h : Packet s.pbufs p cells) (addr : UInt32) (port : UInt16) :
    Run (udpClientRev (some p) addr port) s fun _ s' ↦ Received p cells s s' :=
  (run_takeDatagram p s).bind fun _ _ htaken ↦ free_taken htaken h

/-- So does that of the server, which also notes who has sent the datagram. -/
theorem run_udpServerRev (h : Packet s.pbufs p cells) (addr : UInt32) (port : UInt16) :
    Run (udpServerRev (some p) addr port) s fun _ s' ↦ Received p cells s s' := by
  refine (run_takeDatagram p s).bind ?_
  intro _ s₁ htaken
  refine run_bind.2 (run_modify.2 (run_bind.2 (run_modify.2 ?_)))
  have htaken' : Taken p s { s₁ with glob := { s₁.glob with udpServerPcb := ⟨addr, port⟩ } } :=
    ⟨htaken.links, htaken.refs, htaken.recvBuf, htaken.log⟩
  exact free_taken htaken' h

/-! ## The datagram -/

/-- The datagram is kept: its bytes, as far as there is room, and a NUL are in `lwip_recv_buf`; no
read went past the end of a segment; the chain was freed, once. -/
structure Keeps (p : Nat) (cells : List Nat) (s s' : Heap Globals) : Prop where
  text : slice s'.glob.lwipRecvBuf 0 (room (s.pbufs p)) =
    (contents s.pbufs cells).take (room (s.pbufs p))
  nul : s'.glob.lwipRecvBuf (room (s.pbufs p)) = 0
  log : ∃ acts, s'.log = acts ++ s.log ∧
    (∀ q n, .read q n ∈ acts → n ≤ (s.pbufs q).len.toNat) ∧ acts.filter Act.isFree = [.pbufFree p]
  freed : (∀ q ∈ cells, refs s.pbufs q = 1) → ∀ q ∈ cells, refs s'.pbufs q = 0

/-- Enough bytes for the copy are in the first segment. -/
def Fits (b : Pbuf) : Prop := min b.totLen.toNat LWIP_RECV_BUF ≤ b.len.toNat

instance (b : Pbuf) : Decidable (Fits b) := inferInstanceAs (Decidable (_ ≤ _))

/-- A datagram is kept if enough of it is in its first segment. -/
theorem Received.keeps {s' : Heap Globals} (h : Received p cells s s') (hp : Packet s.pbufs p cells)
    (hfits : Fits (s.pbufs p)) : Keeps p cells s s' := by
  obtain ⟨hbuf, hlog, hfreed⟩ := h
  have hroom : room (s.pbufs p) ≤ (s.pbufs p).held.length := by
    rw [Pbuf.length_held]
    exact (min_le_min_left _ (Nat.sub_le ..)).trans hfits
  refine ⟨?_, ?_, ⟨[.pbufFree p, .read p (copied (s.pbufs p))], hlog, ?_, rfl⟩, hfreed⟩
  · obtain ⟨rest, hrest⟩ := hp.contents_eq
    rw [hrest, List.take_append_of_le_length hroom, hbuf]
    refine List.ext_getElem ?_ ?_
    · rw [length_slice, List.length_take, Nat.min_eq_left hroom]
    · intro i hi _
      rw [length_slice] at hi
      rw [getElem_slice, overlay_add (Nat.lt_succ_of_lt hi), if_pos hi, List.getElem_take]
      simp only [Pbuf.held, getElem_slice, Nat.zero_add]
  · have hlast := overlay_add (m := s.glob.lwipRecvBuf) (a := 0)
      (f := fun i ↦ if i < room (s.pbufs p) then (s.pbufs p).payload i else 0)
      (Nat.lt_succ_self (room (s.pbufs p)))
    rw [Nat.zero_add, if_neg (lt_irrefl _)] at hlast
    rw [hbuf]
    exact hlast
  · intro q n hmem
    simp only [List.mem_cons, reduceCtorEq, List.not_mem_nil, or_false, false_or] at hmem
    obtain ⟨rfl, rfl⟩ := Act.read.inj hmem
    exact hfits

/-- Else the copy reads past the end of that segment. -/
theorem Received.fits {s' : Heap Globals} (h : Received p cells s s')
    (hkeeps : Keeps p cells s s') : Fits (s.pbufs p) := by
  obtain ⟨acts, hacts, hreads, -⟩ := hkeeps.log
  have heq : [.pbufFree p, .read p (copied (s.pbufs p))] ++ s.log = acts ++ s.log :=
    h.2.1.symm.trans hacts
  obtain rfl := List.append_cancel_right heq
  exact hreads p _ (List.mem_cons_of_mem _ (List.mem_cons_self ..))

/-- **A datagram is kept** exactly when enough of it is in its first segment. -/
theorem udp_rev_keeps_iff (h : Packet s.pbufs p cells) (addr : UInt32) (port : UInt16) :
    ((Run (udpClientRev (some p) addr port) s fun _ s' ↦ Keeps p cells s s') ↔ Fits (s.pbufs p)) ∧
      ((Run (udpServerRev (some p) addr port) s fun _ s' ↦ Keeps p cells s s') ↔
        Fits (s.pbufs p)) := by
  have hiff {rev : Prog (Heap Globals) Unit} (hrev : Run rev s fun _ s' ↦ Received p cells s s') :
      (Run rev s fun _ s' ↦ Keeps p cells s s') ↔ Fits (s.pbufs p) := by
    constructor
    · rintro ⟨_, s', heq, hkeeps⟩
      exact (hrev.elim heq).fits hkeeps
    · intro hfits
      exact hrev.mono fun _ _ hreceived ↦ hreceived.keeps h hfits
  exact ⟨hiff (run_udpClientRev h addr port), hiff (run_udpServerRev h addr port)⟩

/-! ## Two datagrams -/

/-- 250 bytes, 200 of them in the first segment. -/
def long (q : Nat) : Pbuf :=
  if q = 0 then ⟨some 1, .ofNat, 250, 200, 1⟩ else ⟨none, fun _ ↦ 0x41, 50, 50, 1⟩

/-- Four bytes, two in each segment. -/
def split (q : Nat) : Pbuf :=
  if q = 0 then ⟨some 1, fun _ ↦ 0x41, 4, 2, 1⟩ else ⟨none, fun _ ↦ 0x41, 2, 2, 1⟩

/-- A datagram arrives. -/
def arrived (h : Nat → Pbuf) : Heap Globals := ⟨h, [], ⟨0, fun _ ↦ 0, ⟨0, 0⟩⟩⟩

theorem packet_long : Packet long 0 [0, 1] where
  chain := .cons (.cons .nil)
  total := by
    rw [length_contents]
    decide

theorem packet_split : Packet split 0 [0, 1] where
  chain := .cons (.cons .nil)
  total := rfl

/-- A datagram in two segments, of which `lwip_recv_buf` holds the first. -/
theorem udp_rev_keeps_long :
    (Run (udpClientRev (some 0) 0 0) (arrived long) fun _ s' ↦ Keeps 0 [0, 1] (arrived long) s') ∧
      Run (udpServerRev (some 0) 0 0) (arrived long) fun _ s' ↦
        Keeps 0 [0, 1] (arrived long) s' := by
  have hfits : Fits (long 0) := by decide
  obtain ⟨hclient, hserver⟩ := udp_rev_keeps_iff (s := arrived long) packet_long 0 0
  exact ⟨hclient.2 hfits, hserver.2 hfits⟩

/-- Of a datagram in two segments, four bytes are read from a segment of two. -/
theorem udp_rev_reads_on : ¬ ∀ (s : Heap Globals) (p : Nat) (cells : List Nat) (addr : UInt32)
    (port : UInt16), Packet s.pbufs p cells →
    (Run (udpClientRev (some p) addr port) s fun _ s' ↦ Keeps p cells s s') ∧
      Run (udpServerRev (some p) addr port) s fun _ s' ↦ Keeps p cells s s' := by
  intro h
  obtain ⟨⟨_, s', heq, hkeeps⟩, -⟩ := h (arrived split) 0 [0, 1] 0 0 packet_split
  have hfits : Fits (split 0) :=
    ((run_udpClientRev (s := arrived split) packet_split 0 0).elim heq).fits hkeeps
  exact absurd hfits (by decide)

end Stm32F1.Udp
