import Stm32F1.Lwip.Room

/-!
# Sending the text of a buffer

`udp_client_send_data` and `udp_server_send_data` obtain a packet buffer, with room for its data
and for the headers before it, and then let its payload pointer lead to `lwip_send_buf` instead.
The headers go before the data, so where they go depends on where the linker put that array.
-/

namespace Stm32F1.Udp.Send

open Prog Lwip.Output

def LWIP_SEND_DATA : UInt8 := 0x20
def LWIP_RECV_BUF : Nat := 200
def LWIP_SEND_BUF : Nat := 200

structure Globals where
  lwipFlag : UInt8
  udpClientPcb : UInt32
  udpServerPcb : UInt32
  /-- What was printed, the newest first. -/
  printed : List String

/-- lwIP, and the places of the two arrays. -/
structure App extends Stack Globals where
  lwipRecvBuf : UInt32
  lwipSendBuf : UInt32
  statics_eq : statics = [⟨lwipRecvBuf, LWIP_RECV_BUF⟩, ⟨lwipSendBuf, LWIP_SEND_BUF⟩]
  recv_bound : lwipRecvBuf.toNat + LWIP_RECV_BUF ≤ 2 ^ 32
  send_bound : lwipSendBuf.toNat + LWIP_SEND_BUF ≤ 2 ^ 32
  arrays_apart : lwipRecvBuf.toNat + LWIP_RECV_BUF ≤ lwipSendBuf.toNat ∨
    lwipSendBuf.toNat + LWIP_SEND_BUF ≤ lwipRecvBuf.toNat

variable {G : Type} {k : App} {s s' : Net Globals} {p q base : UInt32}

/-! ## The code -/

/-- `strlen` -/
def strlen (a : UInt32) : Prog (Net G) Nat :=
  repeatM (fun n ↦ do
    let b ← Prog.read fun s ↦ s.ram.mem (a + .ofNat n)
    pure (if b = 0 then .inr n else .inl (n + 1))) 0

def printf (text : String) : Prog (Net Globals) Unit :=
  Prog.modify fun s ↦ { s with glob := { s.glob with printed := text :: s.glob.printed } }

/-- A store through `NULL`; what the code does then is left open. -/
def nullStore : Prog (Net Globals) Unit := fun _ ↦ none

/-- What both functions do, with a PCB and a text. -/
def sendData (k : App) (pcb : Globals → UInt32) (text : String) : Prog (Net Globals) Unit := do
  let g ← Prog.read fun s ↦ s.glob
  if g.lwipFlag &&& LWIP_SEND_DATA = LWIP_SEND_DATA then do
    let len ← strlen k.lwipSendBuf
    let ubuf ← pbufAlloc k.toLayout .transport len.toUInt16
    match ubuf with
    | some p => do
        setPbuf p fun b ↦ { b with payload := k.lwipSendBuf }
        let err ← udpSend k.toStack (pcb g) p
        when (err ≠ Lwip.ERR_OK) (printf text)
        Prog.modify fun s ↦ { s with glob := { s.glob with
          lwipFlag := s.glob.lwipFlag &&& ~~~LWIP_SEND_DATA } }
        pbufFree p
    | none => nullStore
  else pure ()

/-- `udp_client_send_data` -/
def udpClientSendData (k : App) : Prog (Net Globals) Unit :=
  sendData k Globals.udpClientPcb "UDP Client Send Error！"

/-- `udp_server_send_data` -/
def udpServerSendData (k : App) : Prog (Net Globals) Unit :=
  sendData k Globals.udpServerPcb "UDP SERVER Send Error!\r\n"

/-! ## Foreign memory -/

/-- Foreign memory is left alone: what is written is written to packet buffers that were obtained
here, the arrays are as they were, and so is whatever else is outside of such buffers. -/
structure LeavesForeign (k : App) (s s' : Net Globals) : Prop where
  headers : s'.ram.stray = []
  recvBuf : ∀ i < LWIP_RECV_BUF,
    s'.ram.mem (k.lwipRecvBuf + .ofNat i) = s.ram.mem (k.lwipRecvBuf + .ofNat i)
  sendBuf : ∀ i < LWIP_SEND_BUF,
    s'.ram.mem (k.lwipSendBuf + .ofNat i) = s.ram.mem (k.lwipSendBuf + .ofNat i)
  others : ∀ a, s'.ram.owned a = false → s'.ram.mem a = s.ram.mem a

/-- A state in which there is a text to send, and a buffer for it: nothing was obtained yet, and
nothing went astray. -/
structure Ready (k : App) extends Net Globals where
  length : Nat
  length_lt : length < LWIP_SEND_BUF
  text : ∀ i < length, ram.mem (k.lwipSendBuf + .ofNat i) ≠ 0
  nul : ram.mem (k.lwipSendBuf + .ofNat length) = 0
  owns_nothing : ∀ a, ram.owned a = false
  no_stray : ram.stray = []
  pbuf : UInt32
  malloc_eq : k.malloc live (k.pbufSize .transport length.toUInt16) = some pbuf

/-- `udp_sendto_if` comes as far as the header: there is a route, and the PCB has a port or gets
one. -/
def Reaches (k : App) (s : Net Globals) (pcb : UInt32) : Prop :=
  (ipRoute k.toStack (s.pcbs pcb).remoteIp).isSome = true ∧
    ((s.pcbs pcb).localPort = 0 → (k.udpBind (s.pcbs pcb)).1 = Lwip.ERR_OK)

/-- The block of the buffer for the data. -/
def Ready.block (r : Ready k) : Block := ⟨r.pbuf, k.pbufSize .transport r.length.toUInt16⟩

/-- The buffer ends right before the array. -/
def Ready.Adjoins (r : Ready k) : Prop := k.lwipSendBuf = r.pbuf + .ofNat r.block.size

/-- The array is so low that the header gets a buffer of its own, or the buffer of the data ends
right before the array. -/
def WellPlaced (k : App) (r : Ready k) : Prop :=
  k.lwipSendBuf - 8 < r.pbuf + .ofNat SIZEOF_STRUCT_PBUF ∨ r.Adjoins

/-- No header is written but to a packet buffer. -/
def Harmless (k : App) (r : Ready k) (pcb : Globals → UInt32) : Prop :=
  r.glob.lwipFlag &&& LWIP_SEND_DATA = LWIP_SEND_DATA →
    Reaches k r.toNet (pcb r.glob) → WellPlaced k r

/-! ## The buffer of the data -/

/-- The buffer was obtained, and its payload pointer leads to the array. -/
structure Prepared (k : App) (r : Ready k) (s : Net Globals) : Prop where
  mem : s.ram.mem = r.ram.mem
  owned : ∀ a, s.ram.owned a = r.block.covers a
  stray : s.ram.stray = []
  live : r.block ∈ s.live
  next : (s.pbufs r.pbuf).next = none
  type : (s.pbufs r.pbuf).type = .ram
  totLen : (s.pbufs r.pbuf).totLen = r.length.toUInt16
  payload : (s.pbufs r.pbuf).payload = k.lwipSendBuf

variable {r : Ready k}

theorem strlen_apply {a : UInt32} {s : Net G} {len : Nat}
    (htext : ∀ i < len, s.ram.mem (a + .ofNat i) ≠ 0) (hnul : s.ram.mem (a + .ofNat len) = 0) :
    Run (strlen a) s fun n s' ↦ n = len ∧ s' = s := by
  refine run_repeatM (fun n s' ↦ n ≤ len ∧ s' = s) (fun n _ ↦ len - n) ?_ ⟨Nat.zero_le len, rfl⟩
  rintro n _ ⟨hn, rfl⟩
  refine run_bind.2 (run_read.2 (run_pure.2 ?_))
  rcases Nat.eq_or_lt_of_le hn with rfl | hlt
  · rw [if_pos hnul]
    exact ⟨rfl, rfl⟩
  · rw [if_neg (htext n hlt)]
    exact ⟨⟨hlt, rfl⟩, by omega⟩

theorem sendBuf_mem (k : App) : ⟨k.lwipSendBuf, LWIP_SEND_BUF⟩ ∈ k.statics := by
  rw [k.statics_eq]
  exact List.mem_cons_of_mem _ (List.mem_cons_self ..)

theorem recvBuf_mem (k : App) : ⟨k.lwipRecvBuf, LWIP_RECV_BUF⟩ ∈ k.statics := by
  rw [k.statics_eq]
  exact List.mem_cons_self ..

theorem Ready.obtainable (r : Ready k) : Obtainable k.memAlignment k.statics r.live r.block :=
  k.obtainable r.malloc_eq

theorem Prepared.inUse (h : Prepared k r s) : InUse s := by
  intro a ha
  rw [h.owned] at ha
  exact ⟨r.block, h.live, ha⟩

theorem Prepared.headed (h : Prepared k r s) : Headed s r.pbuf r.pbuf := by
  have howned : s.ram.owned r.pbuf = true := by
    rw [h.owned]
    exact k.covers_self ..
  exact ⟨howned, howned, h.next, .inl rfl⟩

theorem Prepared.congr (h : Prepared k r s) (hram : s'.ram = s.ram) (hpbufs : s'.pbufs = s.pbufs)
    (hlive : s'.live = s.live) : Prepared k r s' := by
  obtain ⟨hmem, howned, hstray, hblock, hnext, htype, hlen, hpayload⟩ := h
  rw [← hram] at hmem howned hstray
  rw [← hlive] at hblock
  rw [← hpbufs] at hnext htype hlen hpayload
  exact ⟨hmem, howned, hstray, hblock, hnext, htype, hlen, hpayload⟩

/-- What was done to prepare the buffer. -/
theorem Prepared.sent (h : Prepared k r s) (room : Prop) : Sent k.toLayout room r.toNet s := by
  refine ⟨⟨?_, ?_, ?_⟩, ?_, ?_, ?_⟩
  · intro a ha
    exact absurd ha (by simp [r.owns_nothing])
  · rw [r.no_stray, h.stray]
  · exact fun a _ _ ↦ congrFun h.mem a
  · intro c hc a ha
    rw [h.owned, r.owns_nothing, ← Bool.not_eq_true]
    intro hcovers
    exact absurd ha (by simp [r.obtainable.static c hc a hcovers])
  · intro p hp
    exact absurd hp (by simp [r.owns_nothing])
  · intro _
    rw [r.no_stray, h.stray]

theorem Ready.size_le (r : Ready k) : 70 ≤ r.block.size :=
  (k.le_memAlignSize (SIZEOF_STRUCT_PBUF + PbufLayer.transport.offset)).1.trans
    (Nat.le_add_right ..)

/-- Then the bytes before the array are those at the end of the buffer. -/
theorem Ready.covers_before (r : Ready k) (h : r.Adjoins) {n : Nat} (hn : 0 < n)
    (hsize : n ≤ r.block.size) : r.block.covers (k.lwipSendBuf - .ofNat n) = true := by
  have heq : k.lwipSendBuf - .ofNat n = r.pbuf + .ofNat (r.block.size - n) := by
    have hsum : UInt32.ofNat r.block.size = .ofNat (r.block.size - n) + .ofNat n := by
      rw [← UInt32.ofNat_add, Nat.sub_add_cancel hsize]
    rw [h, hsum, ← UInt32.add_assoc, UInt32.add_sub_cancel]
  rw [heq]
  exact Block.covers_add r.obtainable.bound (Nat.sub_lt (lt_of_lt_of_le hn hsize) hn)

/-- Otherwise the last byte before the array is outside of the buffer. -/
theorem Ready.covers_last_iff (r : Ready k) :
    r.block.covers (k.lwipSendBuf - 1) = true ↔ r.Adjoins := by
  constructor
  · intro hcovers
    have hout : r.block.covers k.lwipSendBuf = false := by
      rw [← Bool.not_eq_true]
      intro hin
      have hstatic := r.obtainable.static _ (sendBuf_mem k) _ hin
      rw [← Bool.not_eq_true, Block.covers_iff] at hstatic
      exact hstatic ⟨le_rfl, Nat.lt_add_of_pos_right (by decide)⟩
    obtain ⟨d, hd, heq⟩ := Block.exists_of_covers hcovers
    have hnext : k.lwipSendBuf = r.pbuf + .ofNat (d + 1) := by
      rw [UInt32.ofNat_add, ← UInt32.add_assoc]
      exact UInt32.sub_eq_iff_eq_add.1 heq
    rcases Nat.eq_or_lt_of_le (Nat.succ_le_of_lt hd) with hlast | hlt
    · rw [Ready.Adjoins, ← hlast]
      exact hnext
    · have hin : r.block.covers (r.pbuf + .ofNat (d + 1)) = true :=
        Block.covers_add r.obtainable.bound hlt
      rw [hnext, hin] at hout
      exact absurd hout (by simp)
  · intro h
    exact r.covers_before h Nat.one_pos (le_trans (by decide) r.size_le)

/-! ## Where the headers go -/

theorem Prepared.totLen_lt (h : Prepared k r s) : (s.pbufs r.pbuf).totLen.toNat < 200 := by
  have hlt := r.length_lt
  rw [h.totLen, Nat.toUInt16, UInt16.toNat_ofNat']
  exact (Nat.mod_le ..).trans_lt hlt

/-- The payload pointer was moved down, and leads to the header of UDP. -/
theorem Prepared.loaded (h : Prepared k r s) :
    Loaded (lowered s r.pbuf UDP_HLEN) r.pbuf r.pbuf (k.lwipSendBuf - 42) where
  toHeaded := h.headed.sent (sent_lowered k.toLayout True s r.pbuf UDP_HLEN)
  inUse := h.inUse
  ram := by
    rw [pbufs_lowered]
    exact h.type
  len := by
    have hlt := h.totLen_lt
    rw [pbufs_lowered]
    change ((s.pbufs r.pbuf).totLen + 8).toNat ≤ 1480
    rw [UInt16.toNat_add]
    change ((s.pbufs r.pbuf).totLen.toNat + 8) % 65536 ≤ 1480
    omega
  payload := by
    rw [pbufs_lowered, Pbuf.moved, h.payload]
    change k.lwipSendBuf - 8 = k.lwipSendBuf - 42 + 34
    grind

theorem Prepared.owns (h : Prepared k r s) (hadjoins : r.Adjoins) :
    Owns s (k.lwipSendBuf - 42) 42 := by
  intro i hi
  have heq : k.lwipSendBuf - 42 + .ofNat i = k.lwipSendBuf - .ofNat (42 - i) := by
    have hsum : (42 : UInt32) = .ofNat (42 - i) + .ofNat i := by
      rw [← UInt32.ofNat_add, Nat.sub_add_cancel hi.le]
      rfl
    rw [hsum]
    grind
  rw [h.owned, heq]
  exact r.covers_before hadjoins (by omega) (by have := r.size_le; omega)

/-- From the header of UDP on: nothing goes astray exactly if the array is well placed. -/
theorem Prepared.run_header (h : Prepared k r s) (pcb dstIp : UInt32) (dstPort : UInt16)
    (netif : Netif) :
    Run (headerPbuf k.toLayout r.pbuf >>= fun q ↦
        match q with
        | some q => udpOutput k.toStack pcb r.pbuf q dstIp dstPort netif
        | none => pure ERR_MEM) s fun _ s' ↦
      Sent k.toLayout False s s' ∧ (s'.ram.stray = [] ↔ WellPlaced k r) := by
  have hhead := h.headed
  by_cases hroom : ((s.pbufs r.pbuf).moved UDP_HLEN).payload < r.pbuf + .ofNat SIZEOF_STRUCT_PBUF
  · have hplaced : WellPlaced k r := by
      rw [Pbuf.moved, h.payload] at hroom
      exact .inl hroom
    have hlen := h.totLen_lt
    refine (run_headerPbuf h.inUse hhead.owned h.next h.type (by omega) hroom).bind ?_
    rintro q s₁ ⟨hs₁, hq⟩
    cases q with
    | none =>
        refine run_pure.2 ⟨hs₁.weaken False.elim, fun _ ↦ hplaced, fun _ ↦ ?_⟩
        rw [hs₁.tidy trivial, h.stray]
    | some q =>
        obtain ⟨base, hload, howns⟩ := hq q rfl
        have hout := run_udpOutput (k := k.toStack) hload (fun _ : True ↦ howns) pcb dstIp
          dstPort netif
        refine hout.mono ?_
        rintro _ s₂ ⟨hs₂, -⟩
        refine ⟨(hs₁.trans hs₂).weaken False.elim, fun _ ↦ hplaced, fun _ ↦ ?_⟩
        rw [hs₂.tidy trivial, hs₁.tidy trivial, h.stray]
  · have howns : r.Adjoins → Owns (lowered s r.pbuf UDP_HLEN) (k.lwipSendBuf - 42) 42 := h.owns
    have hout := run_udpOutput (k := k.toStack) h.loaded howns pcb dstIp dstPort netif
    refine run_bind.2 (.of_eq (headerPbuf_of_room h.type hroom) (hout.mono ?_))
    rintro _ s₂ ⟨hs₂, hlast⟩
    refine ⟨((sent_lowered ..).trans hs₂).weaken False.elim, ?_⟩
    constructor
    · intro hstray
      right
      rw [← r.covers_last_iff]
      by_contra hcovers
      refine hlast ?_ hstray
      have heq : k.lwipSendBuf - 42 + 41 = k.lwipSendBuf - 1 := by grind
      rw [heq]
      exact (h.owned _).trans (Bool.eq_false_iff.2 hcovers)
    · rintro (hshort | hadjoins)
      · rw [Pbuf.moved, h.payload] at hroom
        exact absurd hshort hroom
      · rw [hs₂.tidy hadjoins]
        exact h.stray

theorem Prepared.run_udpSendtoIf (h : Prepared k r s) (pcb dstIp : UInt32) (dstPort : UInt16)
    (netif : Netif) :
    Run (udpSendtoIf k.toStack pcb r.pbuf dstIp dstPort netif) s fun _ s' ↦
      Sent k.toLayout False s s' ∧ (s'.ram.stray = [] ↔
        (((s.pcbs pcb).localPort = 0 → (k.udpBind (s.pcbs pcb)).1 = Lwip.ERR_OK) →
          WellPlaced k r)) := by
  refine (run_bindUnbound k.toStack pcb s).bind ?_
  rintro err s₁ ⟨⟨hram, hpbufs, hlive⟩, herr⟩
  rw [← herr]
  refine run_ite.2 ?_
  split
  · next hne =>
      refine run_pure.2 ⟨Sent.of_ram_eq hram fun _ ↦ by rw [hpbufs], ?_⟩
      exact ⟨fun _ hok ↦ absurd hok hne, fun _ ↦ hram ▸ h.stray⟩
  · next hok =>
      refine ((h.congr hram hpbufs hlive).run_header pcb dstIp dstPort netif).mono ?_
      rintro _ s' ⟨hs, hiff⟩
      refine ⟨hs.since hram hpbufs, hiff.trans ?_⟩
      exact ⟨fun hplaced _ ↦ hplaced, fun hplaced ↦ hplaced (not_not.1 hok)⟩

theorem Prepared.run_udpSend (h : Prepared k r s) (pcb : UInt32) :
    Run (udpSend k.toStack pcb r.pbuf) s fun _ s' ↦
      Sent k.toLayout False s s' ∧ (s'.ram.stray = [] ↔ (Reaches k s pcb → WellPlaced k r)) := by
  refine run_bind.2 (run_read.2 ?_)
  rw [udpSendto, Reaches]
  cases ipRoute k.toStack (s.pcbs pcb).remoteIp with
  | none =>
      refine run_pure.2 ⟨.refl .., fun _ hreach ↦ absurd hreach.1 (by simp), fun _ ↦ h.stray⟩
  | some netif =>
      refine (h.run_udpSendtoIf pcb _ _ netif).mono ?_
      rintro _ s' ⟨hs, hiff⟩
      refine ⟨hs, hiff.trans ?_⟩
      exact ⟨fun hplaced hreach ↦ hplaced hreach.2, fun hplaced hport ↦ hplaced ⟨rfl, hport⟩⟩

/-! ## What becomes of foreign memory -/

/-- The buffer is obtained, and its payload pointer set. -/
theorem Ready.exists_prepared (r : Ready k) : ∃ s,
    setPbuf r.pbuf (fun b ↦ { b with payload := k.lwipSendBuf })
      (allocated k.toLayout r.toNet .transport r.length.toUInt16 r.pbuf) = some ((), s) ∧
    Prepared k r s ∧ s.pcbs = r.pcbs := by
  refine ⟨_, rfl, ⟨rfl, ?_, r.no_stray, List.mem_cons_self .., ?_, ?_, ?_, ?_⟩, rfl⟩
  · intro a
    change (r.ram.owned a || r.block.covers a) = r.block.covers a
    rw [r.owns_nothing, Bool.false_or]
  all_goals
    simp [allocated, fresh]

/-- What comes after `udp_send`. -/
theorem run_afterSend (h : Headed s p p) (err : Lwip.ErrT) (text : String) :
    Run (do
      when (err ≠ Lwip.ERR_OK) (printf text)
      Prog.modify fun s ↦ { s with glob := { s.glob with
        lwipFlag := s.glob.lwipFlag &&& ~~~LWIP_SEND_DATA } }
      pbufFree p) s fun _ s' ↦ Sent k.toLayout True s s' := by
  have hprint : Run (when (err ≠ Lwip.ERR_OK) (printf text)) s fun _ s' ↦
      Sent k.toLayout True s s' :=
    run_when (fun _ ↦ run_modify.2 (.of_ram_eq rfl fun _ ↦ rfl)) fun _ ↦ .refl ..
  refine Sent.bind hprint (fun _ _ hs ↦ hs) ?_
  intro _ s₁ hs₁
  have hends : Ends s₁ (some p) := (h.sent hs₁).ends
  refine run_bind.2 (run_modify.2 ((run_pbufFree k.toLayout True ?_).mono ?_))
  · exact hends
  · exact fun _ _ hs ↦ hs.since rfl rfl

/-- The whole of the function. -/
theorem Ready.run_sendData (r : Ready k) (pcb : Globals → UInt32) (text : String) :
    Run (sendData k pcb text) r.toNet fun _ s' ↦ Sent k.toLayout False r.toNet s' ∧
      (s'.ram.stray = [] ↔ Harmless k r pcb) := by
  refine run_bind.2 (run_read.2 (run_ite.2 ?_))
  split
  · next hflag =>
      obtain ⟨s₁, hset, hprep, hpcbs⟩ := r.exists_prepared
      refine (strlen_apply r.text r.nul).bind ?_
      rintro _ _ ⟨rfl, rfl⟩
      refine run_bind.2 (.of_eq (pbufAlloc_some r.malloc_eq) (run_bind.2 (.of_eq hset ?_)))
      refine (hprep.run_udpSend (pcb r.glob)).bind ?_
      rintro err s₂ ⟨hs₂, hiff⟩
      refine (run_afterSend (k := k) (hprep.headed.sent hs₂) err text).mono ?_
      intro _ s₃ hs₃
      refine ⟨((hprep.sent False).trans hs₂).trans (hs₃.weaken False.elim), ?_⟩
      rw [hs₃.tidy trivial, hiff, Harmless, Reaches, Reaches, hpcbs]
      exact ⟨fun h _ ↦ h, fun h ↦ h hflag⟩
  · next hflag =>
      exact run_pure.2 ⟨.refl .., fun _ h ↦ absurd h hflag, fun _ ↦ r.no_stray⟩

/-- Foreign memory is left alone exactly if nothing went astray. -/
theorem Ready.leavesForeign_iff (r : Ready k) (hs : Sent k.toLayout False r.toNet s') :
    LeavesForeign k r.toNet s' ↔ s'.ram.stray = [] := by
  refine ⟨LeavesForeign.headers, fun hstray ↦ ?_⟩
  have harray {a : UInt32} {n : Nat} (hmem : ⟨a, n⟩ ∈ k.statics) (hbound : a.toNat + n ≤ 2 ^ 32) :
      ∀ i < n, s'.ram.mem (a + .ofNat i) = r.ram.mem (a + .ofNat i) := by
    intro i hi
    refine hs.evolves.unchanged hstray ?_
    rw [hs.static _ hmem _ (Block.covers_add hbound hi)]
    exact r.owns_nothing _
  exact ⟨hstray, harray (recvBuf_mem k) k.recv_bound, harray (sendBuf_mem k) k.send_bound,
    fun a ↦ hs.evolves.unchanged hstray⟩

theorem Ready.run_leavesForeign_iff (r : Ready k) (pcb : Globals → UInt32) (text : String) :
    (Run (sendData k pcb text) r.toNet fun _ s' ↦ LeavesForeign k r.toNet s') ↔
      Harmless k r pcb := by
  obtain ⟨_, s', heq, hs, hiff⟩ := r.run_sendData pcb text
  rw [run_of_eq heq, r.leavesForeign_iff hs, hiff]

/-- **Foreign memory is left alone** exactly if no data is to be sent, or sending fails before the
header, or the array is well placed. -/
theorem sendData_leavesForeign_iff (k : App) (r : Ready k) :
    ((Run (udpClientSendData k) r.toNet fun _ s' ↦ LeavesForeign k r.toNet s') ↔
      Harmless k r Globals.udpClientPcb) ∧
    ((Run (udpServerSendData k) r.toNet fun _ s' ↦ LeavesForeign k r.toNet s') ↔
      Harmless k r Globals.udpServerPcb) :=
  ⟨r.run_leavesForeign_iff .., r.run_leavesForeign_iff ..⟩

/-! ## Two neighbours -/

/-- The interface, 192.168.1.10 in a network of 24 bits, which is up. -/
def ethernetif : Netif where
  ipAddr := ppHtonl 0xc0a8010a
  netmask := ppHtonl 0xffffff00
  gw := ppHtonl 0xc0a80101
  hwaddr := ![0x04, 0x02, 0x35, 0x00, 0x00, 0x01]
  flags := NETIF_FLAG_UP ||| NETIF_FLAG_BROADCAST

/-- `inet_chksum_pseudo`, for a packet in one buffer. -/
def chksumPseudo (s : Net Globals) (p src dest : UInt32) (proto : UInt8) (protoLen : UInt16) :
    UInt16 :=
  let byte (i : Nat) : UInt32 := (s.ram.mem ((s.pbufs p).payload + .ofNat i)).toUInt32
  let acc := (List.range (s.pbufs p).len.toNat).foldl
    (fun acc i ↦ acc + if i % 2 = 0 then byte i else byte i <<< 8) 0
  let acc := acc + halves src + halves dest + (htons proto.toUInt16).toUInt32 +
    (htons protoLen).toUInt32
  ~~~(halves (halves acc)).toUInt16

/-- `lwip_send_buf` lies right behind `lwip_recv_buf`; the heap, below them, is empty. -/
def board : App where
  memAlignment := 4
  memAlignment_eq := .inr (.inr rfl)
  statics := [⟨0x20002000, LWIP_RECV_BUF⟩, ⟨0x200020c8, LWIP_SEND_BUF⟩]
  malloc live n := if live.isEmpty ∧ n ≤ 1600 then some 0x20001010 else none
  obtainable {live n a} h := by
    obtain ⟨⟨hlive, hn⟩, hstart⟩ := Option.ite_none_right_eq_some.1 h
    obtain rfl := Option.some.inj hstart
    rw [List.isEmpty_iff] at hlive
    subst hlive
    refine ⟨?_, ?_, fun c hc ↦ absurd hc List.not_mem_nil, ?_⟩
    · change 0x20001010 + n ≤ 2 ^ 32
      omega
    · change (0x20001010 : UInt32).toNat % 4 = 0
      decide
    · intro c hc a ha
      rw [Block.covers_iff] at ha
      have hlow : a.toNat < 0x20002000 := by
        change _ ∧ a.toNat < 0x20001010 + n at ha
        omega
      rw [← Bool.not_eq_true]
      intro hcovers
      rw [List.mem_pair] at hc
      obtain rfl | rfl := hc
      · exact absurd (Block.covers_iff.1 hcovers).1 (not_le.2 hlow)
      · exact absurd (Block.covers_iff.1 hcovers).1 (not_le.2 (hlow.trans (by decide)))
  netifList := [ethernetif]
  netifDefault := some ethernetif
  udpBind b := (Lwip.ERR_OK, b)
  inetChksumPseudo := chksumPseudo
  ipFrag _ _ _ := pure ERR_BUF
  linkoutput _ _ := Lwip.ERR_OK
  etharpRequest _ _ := pure ERR_MEM
  etharpQuery _ _ _ := pure ERR_MEM
  request_sent _ _ _ _ := run_pure.2 ⟨.refl .., fun _ _ ↦ rfl⟩
  query_sent _ _ _ _ _ _ := run_pure.2 (.refl ..)
  lwipRecvBuf := 0x20002000
  lwipSendBuf := 0x200020c8
  statics_eq := rfl
  recv_bound := by decide
  send_bound := by decide
  arrays_apart := .inl (by decide)

/-- Two bytes are to be sent to the whole network. -/
def toAll : Ready board where
  ram := ⟨fun a ↦ if a = 0x200020c8 then 0x48 else if a = 0x200020c9 then 0x69 else 0,
    fun _ ↦ false, []⟩
  pbufs _ := ⟨none, 0, 0, 0, .ram, 0, 0⟩
  live := []
  pcbs _ := ⟨IPADDR_ANY, ppHtonl 0xffffffff, 0, 255, 0x04, 1500, 2000⟩
  arpTable _ := ⟨0, fun _ ↦ 0, .empty, 0⟩
  etharpCachedEntry := 0
  ipId := 0
  glob := ⟨LWIP_SEND_DATA, 0, 0, []⟩
  length := 2
  length_lt := by decide
  text := by decide
  nul := rfl
  owns_nothing _ := rfl
  no_stray := rfl
  pbuf := 0x20001010
  malloc_eq := rfl

theorem not_harmless_toAll (pcb : Globals → UInt32) : ¬ Harmless board toAll pcb := by
  intro h
  have hreach : Reaches board toAll.toNet (pcb toAll.glob) := by
    have hroute : (ipRoute board.toStack (ppHtonl 0xffffffff)).isSome = true := by decide
    have hport : ¬ (1500 : UInt16) = 0 := by decide
    exact ⟨hroute, fun hzero ↦ absurd hzero hport⟩
  rcases h rfl hreach with hlow | hadjoins
  · exact absurd hlow (by decide)
  · have hgap : ¬ (0x200020c8 : UInt32) = 0x20001010 + .ofNat 76 := by decide
    exact hgap hadjoins

/-- The headers of the two bytes are written to `lwip_recv_buf`. -/
theorem neighbours_not_left : ¬ ∀ (k : App) (r : Ready k),
    (Run (udpClientSendData k) r.toNet fun _ s' ↦ LeavesForeign k r.toNet s') ∧
      Run (udpServerSendData k) r.toNet fun _ s' ↦ LeavesForeign k r.toNet s' := by
  intro h
  obtain ⟨hclient, -⟩ := h board toAll
  exact not_harmless_toAll _ ((toAll.run_leavesForeign_iff _ _).1 hclient)

end Stm32F1.Udp.Send
