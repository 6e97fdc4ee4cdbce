import Stm32F1.Tcp.Senddata
import Stm32F1.Lib.Bits

/-!
# What each event does

For every callback and every action of the main loop, the state it leaves
behind, as far as later arguments need it.
-/

namespace Stm32F1.Tcp

open Prog

variable {s : World} {pcb es : Nat}

/-! ## Closing -/

/-- The entries of `tcp_client_connection_close`. -/
def closeLog (tpcb : Nat) (es : Option Nat) (log : List Act) : List Act :=
  match es with
  | some es => .memFree es :: .tcpPoll tpcb :: .tcpErr tpcb :: .tcpSent tpcb :: .tcpRecv tpcb ::
      .tcpArg tpcb :: .tcpAbort tpcb :: log
  | none => .tcpPoll tpcb :: .tcpErr tpcb :: .tcpSent tpcb :: .tcpRecv tpcb ::
      .tcpArg tpcb :: .tcpAbort tpcb :: log

/-- A connection that was closed by the client. -/
def Pcb.closed (c : Pcb) : Pcb :=
  { c with live := false, callbackArg := none, recv := false, sent := false, errf := false,
           poll := false }

def World.closed (s : World) (tpcb : Nat) (es : Option Nat) : World :=
  { s with
    pcbs := Function.update s.pcbs tpcb (s.pcbs tpcb).closed
    tcpClientFlag := s.tcpClientFlag &&& ~~~LWIP_CONNECTED
    log := closeLog tpcb es s.log }

theorem tcpAbort_apply (s : World) (pcb : Nat) : tcpAbort pcb s = some ((), { s with
    pcbs := Function.update s.pcbs pcb { s.pcbs pcb with live := false }
    log := .tcpAbort pcb :: s.log }) := by
  rw [tcpAbort, bind_of_eq (note_apply _ _), bind_of_eq (pcbAt_apply _ _),
    bind_of_eq (setPcb_apply _ _ _)]
  dsimp only
  cases (s.pcbs pcb).errf <;> rfl

theorem close_apply (s : World) (tpcb : Nat) (es : Option Nat) :
    tcpClientConnectionClose tpcb es s = some ((), s.closed tpcb es) := by
  rw [tcpClientConnectionClose, bind_of_eq (tcpAbort_apply _ _)]
  simp only [tcpArg, tcpRecv, tcpSent, tcpErr, tcpPoll, bind_assoc']
  cases es with
  | none =>
      simp only [bind_apply, note_apply, setPcb_apply, Option.bind_some, Function.update_self,
        Function.update_idem]
      rfl
  | some es =>
      simp only [bind_apply, note_apply, setPcb_apply, ifPtr_some, memFree,
        Option.bind_some, Function.update_self, Function.update_idem]
      rfl

theorem connActs_closeLog (tpcb : Nat) (es : Option Nat) (log : List Act) :
    connActs (closeLog tpcb es log) = .tcpAbort tpcb :: connActs log := by
  cases es <;> rfl

/-- Closing is all that matters to the connections. -/
theorem held_closeLog (tpcb : Nat) (es : Option Nat) (log : List Act) (q : Nat) :
    held (closeLog tpcb es log) q = held log q := by
  cases es <;> simp [closeLog, held_cons, Act.effect]

theorem covered_closeLog {log : List Act} (h : Covered Act.effect log) (tpcb : Nat)
    (es : Option Nat) : Covered Act.effect (closeLog tpcb es log) := by
  have hclose : Covered Act.effect (closeLog tpcb none log) :=
    (((((h.cons fun _ ↦ le_rfl).cons fun _ ↦ le_rfl).cons fun _ ↦ le_rfl).cons fun _ ↦ le_rfl).cons
      fun _ ↦ le_rfl).cons fun _ ↦ le_rfl
  cases es with
  | none => exact hclose
  | some es => exact hclose.cons fun _ ↦ le_rfl

theorem asked_closeLog (tpcb : Nat) (es : Option Nat) (log : List Act) :
    asked (closeLog tpcb es log) = asked log := by
  cases es <;> rfl

theorem accepted_closeLog (tpcb : Nat) (es : Option Nat) (log : List Act) :
    accepted (closeLog tpcb es log) = accepted log := by
  cases es <;> rfl

/-! ## Connecting -/

/-- A connection whose callbacks are registered. -/
def Pcb.opened (es : Nat) : Pcb := ⟨true, .ESTABLISHED, some es, true, true, true, true, true⟩

/-- The state with an open connection. -/
def World.opened (s : World) (tpcb : Nat) : World :=
  { s with
    pcbs := Function.update s.pcbs tpcb (.opened s.nextEs)
    es := Function.update s.es s.nextEs ⟨.ES_TCPCLIENT_CONNECTED, tpcb, none⟩
    nextEs := s.nextEs + 1
    tcpClientFlag := s.tcpClientFlag ||| LWIP_CONNECTED
    log := .flagged tpcb :: .tcpPoll tpcb :: .tcpSent tpcb :: .tcpErr tpcb :: .tcpRecv tpcb ::
      .tcpArg tpcb :: .memMalloc s.nextEs :: s.log }

/-- lwIP regards the connection as established. -/
def World.established (s : World) (pcb : Nat) : World :=
  { s with pcbs := Function.update s.pcbs pcb { s.pcbs pcb with state := .ESTABLISHED } }

theorem run_connected (hlive : (s.pcbs pcb).live) (hconn : (s.pcbs pcb).connected) (e : ErrT)
    (mem : Bool) : (Event.connected pcb e mem).body s = some ((),
      if e = ERR_OK ∧ mem then s.opened pcb else (s.established pcb).closed pcb none) := by
  change (setPcb pcb _ >>= fun _ ↦ tcpClientConnected pcb e mem >>= fun _ ↦ pure ()) s = _
  rw [bind_of_eq (setPcb_apply _ _ _), tcpClientConnected]
  by_cases he : e = ERR_OK
  · rw [if_pos he, bind_assoc']
    cases mem with
    | false =>
        rw [memMalloc, if_neg Bool.false_ne_true, pure_bind', bind_assoc',
          bind_of_eq (close_apply _ _ _), if_neg fun h ↦ Bool.false_ne_true h.2]
        rfl
    | true =>
        rw [if_pos ⟨he, rfl⟩, memMalloc, if_pos rfl]
        simp only [tcpArg, tcpRecv, tcpSent, tcpErr, tcpPoll, bind_assoc', bind_apply, note_apply,
          setPcb_apply, setEs_apply, read_apply, modify_apply, pure_apply,
          Option.bind_some, Function.update_self, Function.update_idem, hlive, hconn]
        rfl
  · rw [if_neg he, bind_assoc', bind_of_eq (close_apply _ _ _), if_neg fun h ↦ he h.1]
    rfl

/-! ## lwIP frees the connection -/

def World.lost (s : World) (pcb : Nat) : World :=
  { s with
    pcbs := Function.update s.pcbs pcb { s.pcbs pcb with live := false }
    log := .freed pcb :: s.log }

theorem run_err (s : World) (pcb : Nat) (e : ErrT) :
    (Event.err pcb e).body s = some ((), s.lost pcb) := by
  change (note _ >>= fun _ ↦ pcbAt pcb >>= fun c ↦ when c.errf _ >>= fun _ ↦ setPcb pcb _) s = _
  rw [bind_of_eq (note_apply _ _), bind_of_eq (pcbAt_apply _ _)]
  dsimp only
  cases (s.pcbs pcb).errf <;> rfl

/-! ## The main loop -/

def World.requested (s : World) (m : Message) : World :=
  { s with
    tcpClientSendbuf := sprintf s.tcpClientSendbuf m
    tcpClientFlag := s.tcpClientFlag ||| LWIP_SEND_DATA
    log := .request m.bytes :: s.log }

theorem run_key0 (s : World) (m : Message) :
    (Event.key0 m).body s = some ((), s.requested m) := rfl

theorem run_key1 (s : World) : Event.key1.body s = some ((), s.closed s.tcppcb none) :=
  close_apply s s.tcppcb none

theorem run_newData (s : World) : Event.newData.body s = some ((),
    if s.tcpClientFlag &&& LWIP_NEW_DATA ≠ 0 then
      { s with tcpClientFlag := s.tcpClientFlag &&& ~~~LWIP_NEW_DATA } else s) := by
  change (if s.tcpClientFlag &&& LWIP_NEW_DATA ≠ 0 then setFlag _ else pure ()) s = _
  split <;> rfl

/-- A connection that is being made. -/
def Pcb.attempting : Pcb := ⟨true, .SYN_SENT, none, true, false, false, false, false⟩

/-- A new connection attempt. -/
def World.connecting (s : World) : World :=
  { s with
    pcbs := Function.update s.pcbs s.nextPcb .attempting
    nextPcb := s.nextPcb + 1
    tcppcb := s.nextPcb
    log := .tcpConnect s.nextPcb :: .tcpNew s.nextPcb :: s.log }

theorem openConnection_apply (s : World) : openConnection s = some ((), s.connecting) := by
  simp only [openConnection, tcpNew, tcpConnect, bind_apply, note_apply, setPcb_apply, read_apply,
    modify_apply, pure_apply, Option.bind_some, Function.update_self, Function.update_idem]
  rfl

theorem run_status (s : World) : Event.status.body s = some ((),
    if s.tcpClientFlag &&& LWIP_CONNECTED ≠ 0 then s else (s.closed s.tcppcb none).connecting) := by
  change (if s.tcpClientFlag &&& LWIP_CONNECTED ≠ 0 then pure () else
    Prog.read World.tcppcb >>= fun tcppcb ↦
      tcpClientConnectionClose tcppcb none >>= fun _ ↦ openConnection) s = _
  split
  · rfl
  · rw [bind_of_eq (read_apply _ _), bind_of_eq (close_apply _ _ _), openConnection_apply]

theorem start_iff : Start s ↔ s = World.boot.connecting := by
  rw [Start, openConnection_apply]
  constructor
  · intro h
    exact (Prod.mk.inj (Option.some.inj h)).2.symm
  · rintro rfl
    rfl

/-! ## Data is acknowledged -/

theorem run_sent (hup : Upward (links s.pbufs) s.nextPbuf)
    (harg : (s.pcbs pcb).callbackArg = some es) (len : UInt16) (answers : Answers) :
    Run (Event.sent pcb len answers).body s fun _ s' ↦ ∃ cells k ref log,
      Chain (links s.pbufs) (s.es es).p cells ∧ s' = s.movedOn es cells k ref log ∧
      Sent s cells k ref log := by
  obtain ⟨cells, hcells⟩ := hup.chain (s.es es).p
  refine run_bind.2 (run_read.2 ?_)
  rw [harg]
  refine run_bind.2 (run_bind.2 (run_read.2 (run_bind.2 ?_)))
  cases hp : (s.es es).p with
  | none =>
      rw [hp] at hcells
      refine run_pure.2 (run_pure.2 (run_pure.2 ⟨cells, 0, _, _, hcells, ?_, .zero s cells⟩))
      exact (World.movedOn_zero (hp.trans hcells.head.symm) s.log).symm
  | some q =>
      change Run (tcpClientSenddata pcb es answers) s _
      refine (run_senddataLoop hcells).mono ?_
      rintro _ _ ⟨ref, log, rfl, hsent⟩
      exact run_pure.2 (run_pure.2 ⟨cells, _, ref, log, hp ▸ hcells, rfl, hsent⟩)

/-! ## Data arrives -/

/-- A structure keeps its connection. -/
theorem pcb_update {m : Nat → TcpClientStruct} {e : TcpClientStruct} (he : e.pcb = (m es).pcb)
    (es' : Nat) : (Function.update m es e es').pcb = (m es').pcb := by
  rcases eq_or_ne es' es with rfl | hne
  · rw [Function.update_self, he]
  · rw [Function.update_of_ne hne]

/-- What a received packet, or the end of them, leaves of the rest; `packet` is what the client
still has to free. -/
structure Received (s : World) (es : Nat) (last : Bool) (packet : Option Nat) (s' : World) :
    Prop where
  pcbs : s'.pcbs = s.pcbs
  nextPcb : s'.nextPcb = s.nextPcb
  tcppcb : s'.tcppcb = s.tcppcb
  sendbuf : s'.tcpClientSendbuf = s.tcpClientSendbuf
  connected : s'.tcpClientFlag &&& LWIP_CONNECTED = s.tcpClientFlag &&& LWIP_CONNECTED
  sending : s'.tcpClientFlag &&& LWIP_SEND_DATA = s.tcpClientFlag &&& LWIP_SEND_DATA
  state : (s'.es es).state = if last then .ES_TCPCLIENT_CLOSING else (s.es es).state
  p : (s'.es es).p = none ∨ (s'.es es).p = (s.es es).p
  upward : Upward (links s'.pbufs) s'.nextPbuf
  nextPbuf : s.nextPbuf ≤ s'.nextPbuf
  old : ∀ q < s.nextPbuf, links s'.pbufs q = links s.pbufs q ∧
    payloads s'.pbufs q = payloads s.pbufs q
  nextEs : s'.nextEs = s.nextEs
  owner : ∀ es', (s'.es es').pcb = (s.es es').pcb
  grows : DataOnly s.log s'.log
  asked : asked s'.log = asked s.log
  accepted : accepted s'.log = accepted s.log
  held : ∀ q, held s'.log q = held s.log q + stake packet q
  covered : Covered Act.effect s.log → Covered Act.effect s'.log

/-- The end of what the peer sends. -/
theorem run_recv_none (hup : Upward (links s.pbufs) s.nextPbuf)
    (harg : (s.pcbs pcb).callbackArg = some es) (e : ErrT) :
    Run (Event.recv pcb none e).body s fun _ s' ↦ Received s es true none s' := by
  refine run_bind.2 (run_read.2 ?_)
  rw [harg]
  refine run_bind.2 (run_pure.2 ?_)
  refine run_bind.2 (run_bind.2 (run_modify.2 (run_bind.2 (run_modify.2 (run_pure.2 ?_)))))
  exact run_pure.2
    { pcbs := rfl, nextPcb := rfl, tcppcb := rfl, sendbuf := rfl, connected := rfl, sending := rfl
      state := by simp
      p := by simp
      upward := hup
      nextPbuf := le_rfl
      old := fun _ _ ↦ ⟨rfl, rfl⟩
      nextEs := rfl
      owner := fun es' ↦ (pcb_update (by rfl) es').trans (pcb_update (by rfl) es')
      grows := .refl s.log
      asked := rfl, accepted := rfl
      held := fun _ ↦ (Int.add_zero _).symm
      covered := id }

variable {segs : List (List UInt8)} {last : Bool} {t : World} {q : Nat}

theorem covered_cons_held {a : Act} {log : List Act} (h : Covered Act.effect log)
    (ha : ∀ q, 0 ≤ a.effect q + held log q) : Covered Act.effect (a :: log) :=
  covered_cons.2 ⟨ha, h⟩

theorem effect_pbufFree (q r : Nat) : (Act.pbufFree q).effect r = - stake (some q) r := by
  rw [stake_some, Act.effect]
  split <;> rfl

/-- A packet is handed over. -/
theorem received_handed (hup : Upward (links s.pbufs) s.nextPbuf) :
    Received s es false (some s.nextPbuf)
      { s.chained segs with log := .handed s.nextPbuf :: s.log } where
  pcbs := rfl
  nextPcb := rfl
  tcppcb := rfl
  sendbuf := rfl
  connected := rfl
  sending := rfl
  state := rfl
  p := .inr rfl
  upward := upward_chained hup
  nextPbuf := Nat.le_add_right ..
  old q hq := by
    rw [links, payloads, chained_old (.inl hq)]
    exact ⟨rfl, rfl⟩
  nextEs := rfl
  owner := fun _ ↦ rfl
  grows := (DataOnly.refl s.log).cons rfl
  asked := rfl
  accepted := rfl
  held q := by
    rw [held_cons, stake_some, Act.effect]
    exact Int.add_comm ..
  covered h := by
    refine h.cons fun q ↦ ?_
    rw [Act.effect]
    split <;> decide

/-- The packet is freed. -/
theorem received_freed (h : Received s es last (some q) t) :
    Run (pbufFree q) t fun _ s' ↦ Received s es last none s' := by
  obtain ⟨cells, hcells⟩ := h.upward.chain (some q)
  refine (run_pbufFree_ref hcells).mono ?_
  rintro _ _ ⟨ref, rfl, -⟩
  have hheld : ∀ r, held (.pbufFree q :: t.log) r = held s.log r := by
    intro r
    rw [held_cons, h.held, effect_pbufFree]
    ring
  exact { h with
    grows := h.grows.cons rfl
    held := fun r ↦ (hheld r).trans (Int.add_zero _).symm
    covered := fun hs ↦ covered_cons_held (h.covered hs) fun r ↦ by
      have hnow := hheld r
      rw [held_cons] at hnow
      rw [hnow]
      exact hs.now r }

/-- The state after the packet was copied. -/
theorem received_copied (h : Received s es false (some q) t) (buf : Nat → UInt8) (n : Nat) :
    Received s es false (some q) { t with
      tcpClientRecvbuf := buf
      tcpClientFlag := t.tcpClientFlag ||| LWIP_NEW_DATA
      log := .tcpRecved pcb n :: t.log } :=
  { h with
    connected := (or_and_of_disjoint rfl _).trans h.connected
    sending := (or_and_of_disjoint rfl _).trans h.sending
    grows := h.grows.cons rfl
    held := fun r ↦ (Int.zero_add _).trans (h.held r)
    covered := fun hs ↦ (h.covered hs).cons fun _ ↦ le_rfl }

/-- The state in which the packet is dropped. -/
theorem received_dropped (h : Received s es false (some q) t) (n : Nat) :
    Received s es false (some q) { t with
      es := Function.update t.es es { t.es es with p := none }
      log := .tcpRecved pcb n :: t.log } :=
  { h with
    state := by
      simp only [Function.update_self]
      exact h.state
    p := by
      simp only [Function.update_self, true_or]
    owner := fun es' ↦ (pcb_update (by rfl) es').trans (h.owner es')
    grows := h.grows.cons rfl
    held := fun r ↦ (Int.zero_add _).trans (h.held r)
    covered := fun hs ↦ (h.covered hs).cons fun _ ↦ le_rfl }

theorem run_tcpClientRecv (h : Received s es false (some q) t) (e : ErrT) :
    Run (tcpClientRecv es pcb (some q) e) t fun _ s' ↦ Received s es false none s' := by
  rw [tcpClientRecv]
  by_cases he : e = ERR_OK
  · rw [if_neg (not_not.2 he)]
    refine run_bind.2 (run_read.2 ?_)
    split
    · refine run_bind.2 (run_modify.2 (run_bind.2 ?_))
      obtain ⟨cells, hcells⟩ := h.upward.chain (some q)
      refine Run.mono (run_copyLoop (s := { t with
        tcpClientRecvbuf := overlay t.tcpClientRecvbuf 0 TCP_CLIENT_RX_BUFSIZE fun _ ↦ 0 })
        hcells 0) ?_
      rintro _ _ ⟨buf, rfl⟩
      refine run_bind.2 (run_modify.2 (run_bind.2 (run_read.2 (run_bind.2 (run_modify.2 ?_)))))
      refine run_bind.2 ((received_freed (received_copied h buf _)).mono ?_)
      intro _ s' hs'
      exact run_pure.2 hs'
    · refine run_bind.2 (run_read.2 (run_bind.2 (run_modify.2 (run_bind.2 (run_modify.2 ?_)))))
      refine run_bind.2 ((received_freed (received_dropped h _)).mono ?_)
      intro _ s' hs'
      exact run_pure.2 hs'
  · rw [if_pos he]
    refine run_bind.2 ((received_freed h).mono ?_)
    intro _ s' hs'
    exact run_pure.2 hs'

theorem run_recv_some (hup : Upward (links s.pbufs) s.nextPbuf)
    (harg : (s.pcbs pcb).callbackArg = some es) (hsegs : segs ≠ []) (e : ErrT) :
    Run (Event.recv pcb (some segs) e).body s fun _ s' ↦ Received s es false none s' := by
  refine run_bind.2 (run_read.2 ?_)
  rw [harg]
  refine run_bind.2 (run_bind.2 (.of_eq (newChain_apply hsegs s) ?_))
  refine run_bind.2 (run_modify.2 (run_pure.2 ?_))
  refine run_bind.2 ((run_tcpClientRecv (received_handed hup) e).mono ?_)
  intro _ s' hs'
  exact run_pure.2 hs'

/-! ## Polling -/

variable {alloc : Option (List (List UInt8))} {answers : Answers}

theorem run_poll_idle (harg : (s.pcbs pcb).callbackArg = some es)
    (hsend : s.tcpClientFlag &&& LWIP_SEND_DATA = 0)
    (hstate : (s.es es).state ≠ .ES_TCPCLIENT_CLOSING) :
    (Event.poll pcb alloc answers).body s = some ((), s) := by
  change (tcpClientPoll (s.pcbs pcb).callbackArg pcb alloc answers >>= fun _ ↦ pure ()) s = _
  rw [harg, tcpClientPoll, bind_assoc', bind_of_eq (getFlag_apply _), if_neg (not_not.2 hsend),
    bind_assoc', pollClose, bind_assoc', bind_of_eq (esAt_apply _ _), if_neg hstate]
  rfl

theorem run_poll_close (harg : (s.pcbs pcb).callbackArg = some es)
    (hsend : s.tcpClientFlag &&& LWIP_SEND_DATA = 0)
    (hstate : (s.es es).state = .ES_TCPCLIENT_CLOSING) :
    (Event.poll pcb alloc answers).body s = some ((), s.closed pcb (some es)) := by
  change (tcpClientPoll (s.pcbs pcb).callbackArg pcb alloc answers >>= fun _ ↦ pure ()) s = _
  rw [harg, tcpClientPoll, bind_assoc', bind_of_eq (getFlag_apply _), if_neg (not_not.2 hsend),
    bind_assoc', pollClose, bind_assoc', bind_of_eq (esAt_apply _ _), if_pos hstate,
    bind_of_eq (close_apply _ _ _)]
  rfl

/-- The message that is in the send buffer. -/
def World.text (s : World) : List UInt8 := s.tcpClientSendbuf.take (strlen s.tcpClientSendbuf)

/-- What is left once a message was to be sent in the buffers `segs`, of which lwIP took `k`. -/
structure Served (s : World) (es : Nat) (segs : List (List UInt8)) (k : Nat) (s' : World) :
    Prop where
  pcbs : s'.pcbs = s.pcbs
  nextPcb : s'.nextPcb = s.nextPcb
  tcppcb : s'.tcppcb = s.tcppcb
  sendbuf : s'.tcpClientSendbuf = s.tcpClientSendbuf
  recvbuf : s'.tcpClientRecvbuf = s.tcpClientRecvbuf
  connected : s'.tcpClientFlag &&& LWIP_CONNECTED = s.tcpClientFlag &&& LWIP_CONNECTED
  newData : s'.tcpClientFlag &&& LWIP_NEW_DATA = s.tcpClientFlag &&& LWIP_NEW_DATA
  sending : s'.tcpClientFlag &&& LWIP_SEND_DATA = 0
  state : (s'.es es).state = (s.es es).state
  p : (s'.es es).p = ((s.fresh segs).drop k).head?
  upward : Upward (links s.pbufs) s.nextPbuf → Upward (links s'.pbufs) s'.nextPbuf
  nextEs : s'.nextEs = s.nextEs
  owner : ∀ es', (s'.es es').pcb = (s.es es').pcb
  grows : DataOnly s.log s'.log
  asked : asked s'.log = asked s.log
  accepted : accepted s'.log = accepted s.log ++ s.text.take (segs.take k).flatten.length
  held : ∀ q, held s'.log q = held s.log q
  covered : Covered Act.effect s.log → Covered Act.effect s'.log
  /-- What is not written is freed. -/
  freed : ∀ q, (s'.es es).p = some q → refs s'.pbufs q = 0
  chain : Chain (links s'.pbufs) (s'.es es).p ((s.fresh segs).drop k)
  known : ∀ q ∈ s.fresh segs, q < s'.nextPbuf
  rest : ((s.fresh segs).drop k).flatMap (payloads s'.pbufs) =
    (s.text.take segs.flatten.length).drop (segs.take k).flatten.length

/-- No buffer could be allocated. -/
theorem run_pollSend_none :
    Run (pollSend es pcb none answers) s fun _ s' ↦ Served s es [] 0 s' := by
  refine run_bind.2 (run_bind.2 (run_pure.2 (run_pure.2 (run_bind.2 (run_modify.2 ?_)))))
  refine run_bind.2 (run_read.2 (run_bind.2 (run_pure.2 (run_bind.2 ?_))))
  have hnone : (Function.update s.es es { s.es es with p := none } es).p = none := by simp
  have hchain : Chain (links s.pbufs) (Function.update s.es es { s.es es with p := none } es).p
      [] := by
    rw [hnone]
    exact .nil
  rw [tcpClientSenddata, senddataLoop_eq]
  refine run_bind.2 (.of_eq (senddataRound_none hnone) (run_pure.2 (run_bind.2 (run_modify.2 ?_))))
  refine run_bind.2 (run_read.2 ?_)
  dsimp only
  rw [hnone]
  refine run_pure.2 ?_
  exact
    { pcbs := rfl, nextPcb := rfl, tcppcb := rfl, sendbuf := rfl, recvbuf := rfl
      connected := andNot_and_of_disjoint rfl _
      newData := andNot_and_of_disjoint rfl _
      sending := andNot_and_self _ _
      state := by simp
      p := hnone
      upward := id
      nextEs := rfl
      owner := pcb_update (by rfl)
      grows := .refl s.log
      asked := rfl
      accepted := (List.append_nil _).symm
      held := fun _ ↦ rfl
      covered := id
      freed := fun q hq ↦ absurd (hnone.symm.trans hq) (Option.some_ne_none q).symm
      chain := hchain
      known := fun q hq ↦ absurd hq List.not_mem_nil
      rest := rfl }

/-- A chain was allocated for the message. -/
def World.allocated (s : World) (es : Nat) (segs : List (List UInt8)) : World :=
  { s.chained segs with
    es := Function.update s.es es { s.es es with p := some s.nextPbuf }
    log := .pbufAlloc s.nextPbuf :: s.log }

/-- The message was copied into it. -/
def World.filled (s : World) (es : Nat) (segs : List (List UInt8)) (payload : Nat → List UInt8) :
    World :=
  { s.allocated es segs with pbufs := withPayloads (s.chained segs).pbufs payload }

theorem length_text (s : World) : s.text.length = strlen s.tcpClientSendbuf :=
  List.length_take_of_le (List.takeWhile_prefix _).length_le

theorem totLen_chained (h : segs ≠ []) :
    ((s.chained segs).pbufs s.nextPbuf).totLen = segs.flatten.length := by
  have hpos : 0 < segs.length := List.length_pos_iff.2 h
  have hhead := chained_fresh (s := s) hpos
  rw [Nat.add_zero] at hhead
  rw [hhead]
  rfl

theorem lengths_chained (s : World) (segs : List (List UInt8)) :
    lengths (s.chained segs).pbufs (s.fresh segs) = segs.map List.length := by
  have hpayloads : ((s.fresh segs).map fun q ↦ ((s.chained segs).pbufs q).payload) = segs :=
    payloads_chained
  have hmap := congrArg (List.map List.length) hpayloads
  rwa [List.map_map] at hmap

/-- The message is copied into a new chain. -/
theorem run_fill {Q : Unit → World → Prop} {rest : Prog World Unit} (hsegs : segs ≠ [])
    (hlen : segs.flatten.length = s.text.length)
    (hrest : ∀ payload, (s.fresh segs).flatMap payload = s.text →
      ((s.fresh segs).map fun q ↦ (payload q).length) = segs.map List.length →
      Run rest (s.filled es segs payload) Q) :
    Run (do
      let p ← pbufAlloc (some segs)
      setEs es fun e ↦ { e with p := p }
      let buf ← Prog.read World.tcpClientSendbuf
      pbufTake p (buf.take (strlen buf))
      rest) s Q := by
  refine run_bind.2 (run_bind.2 (.of_eq (newChain_apply hsegs s) (run_bind.2 ?_)))
  refine run_modify.2 (run_pure.2 (run_bind.2 (run_modify.2 (run_bind.2 (run_read.2 ?_)))))
  change Run (pbufTake (some s.nextPbuf) s.text >>= fun _ ↦ rest) (s.allocated es segs) Q
  have htot : ((s.allocated es segs).pbufs s.nextPbuf).totLen = s.text.length :=
    (totLen_chained hsegs).trans hlen
  have hflat : ((s.fresh segs).flatMap (payloads (s.allocated es segs).pbufs)).length =
      s.text.length := by
    rw [← hlen]
    exact congrArg List.length data_chained
  refine (run_pbufTake (s.allocated es segs) (chain_chained hsegs) htot
    hflat).bind ?_
  rintro _ _ ⟨payload, rfl, htext, hlens⟩
  refine hrest payload htext ?_
  rw [← lengths_chained s segs]
  exact List.map_congr_left fun q _ ↦ hlens q

/-- After the send loop, the flag is cleared and what is left of the chain is freed. -/
theorem run_afterSend {k : Nat} {ref : Nat → UInt16} {log : List Act} {cells : List Nat}
    (h : Chain (links t.pbufs) (cells.drop k).head? (cells.drop k)) :
    Run (do
      setFlag fun flag ↦ flag &&& ~~~LWIP_SEND_DATA
      let e ← esAt es
      ifPtr e.p pbufFree) (t.movedOn es cells k ref log) fun _ s' ↦ ∃ ref' log',
      s' = { t.movedOn es cells k ref' log' with
        tcpClientFlag := t.tcpClientFlag &&& ~~~LWIP_SEND_DATA } ∧
      DataOnly log log' ∧ asked log' = asked log ∧
      accepted log' = accepted log ∧
      (∀ q, held log' q = held log q - stake (cells.drop k).head? q) ∧
      (Covered Act.effect log → (∀ q, stake (cells.drop k).head? q ≤ held log q) →
        Covered Act.effect log') ∧
      ∀ q, (cells.drop k).head? = some q → ref' q = ref q - 1 := by
  refine run_bind.2 (run_modify.2 (run_bind.2 (run_read.2 ?_)))
  have hp : (Function.update t.es es { t.es es with p := (cells.drop k).head? } es).p =
      (cells.drop k).head? := by simp
  change Run (ifPtr (Function.update t.es es { t.es es with p := (cells.drop k).head? } es).p
    pbufFree) _ _
  rw [hp]
  cases hq : (cells.drop k).head? with
  | none =>
      refine run_pure.2 ⟨ref, log, ?_, .refl log, rfl, rfl,
        fun q ↦ (Int.sub_zero _).symm, fun h _ ↦ h,
        fun q hq ↦ absurd hq (Option.some_ne_none q).symm⟩
      rfl
  | some q =>
      rw [hq] at h
      refine Run.mono (run_pbufFree_ref h) ?_
      rintro _ _ ⟨ref', rfl, href⟩
      refine ⟨ref', .pbufFree q :: log, ?_, (DataOnly.refl log).cons rfl, rfl, rfl, fun r ↦ ?_,
        fun hcov hle ↦ ?_, ?_⟩
      · rfl
      · rw [held_cons, effect_pbufFree]
        ring
      · refine covered_cons_held hcov fun r ↦ ?_
        have hr := hle r
        rw [effect_pbufFree]
        omega
      · rintro _ ⟨⟩
        exact href

/-- The bytes that were written, and those that were not. -/
theorem flatMap_split {cells : List Nat} {payload : Nat → List UInt8} {text : List UInt8} (k : Nat)
    (htext : cells.flatMap payload = text)
    (hlens : (cells.map fun q ↦ (payload q).length) = segs.map List.length) :
    (cells.take k).flatMap payload = text.take (segs.take k).flatten.length ∧
      (cells.drop k).flatMap payload = text.drop (segs.take k).flatten.length := by
  have hlen : (segs.take k).flatten.length = ((cells.take k).flatMap payload).length := by
    rw [List.length_flatten, List.length_flatMap, List.map_take, List.map_take, hlens]
  have hsplit : (cells.take k).flatMap payload ++ (cells.drop k).flatMap payload = text := by
    rw [← List.flatMap_append, List.take_append_drop, htext]
  rw [hlen, ← hsplit, List.take_left, List.drop_left]
  exact ⟨rfl, rfl⟩

/-- **A message is sent** in the buffers of a new chain. -/
theorem run_pollSend_some (hsegs : segs ≠ []) (hlen : segs.flatten.length = s.text.length) :
    Run (pollSend es pcb (some segs) answers) s fun _ s' ↦
      Served s es segs (handed answers 0 (segs.map List.length)) s' := by
  refine run_fill hsegs hlen ?_
  intro payload htext hlens
  have hp : ((s.filled es segs payload).es es).p = some s.nextPbuf := by
    simp only [World.filled, World.allocated, Function.update_self]
  have hchain : Chain (links (s.filled es segs payload).pbufs)
      ((s.filled es segs payload).es es).p (s.fresh segs) := hp ▸ chain_chained hsegs
  have hk : handed answers 0 (lengths (s.filled es segs payload).pbufs (s.fresh segs)) =
      handed answers 0 (segs.map List.length) := congrArg (handed answers 0) hlens
  have hhead : (s.fresh segs).head? = some s.nextPbuf := (hchain.head).trans hp
  refine (run_senddataLoop hchain).bind ?_
  rw [hk]
  set k := handed answers 0 (segs.map List.length) with hkdef
  rintro _ _ ⟨ref, log, rfl, hsent⟩
  refine (run_afterSend (hchain.drop k)).mono ?_
  rintro _ _ ⟨ref', log', rfl, hgrows, hasked, haccepted, hheld, hcov, href⟩
  obtain ⟨htake, hdrop⟩ := flatMap_split k htext hlens
  have halloc : ∀ q, held (.pbufAlloc s.nextPbuf :: s.log) q =
      stake (some s.nextPbuf) q + held s.log q := by
    intro q
    rw [held_cons, stake_some, Act.effect]
  have hsentheld : ∀ q, held log q = held s.log q + stake ((s.fresh segs).drop k).head? q := by
    intro q
    have hq := hsent.held q
    rw [hhead] at hq
    change _ = held (.pbufAlloc s.nextPbuf :: s.log) q + _ at hq
    rw [halloc] at hq
    omega
  have hcovered : Covered Act.effect s.log → Covered Act.effect log' := by
    intro hs
    have hallocated : Covered Act.effect (.pbufAlloc s.nextPbuf :: s.log) := by
      refine hs.cons fun q ↦ ?_
      rw [Act.effect]
      split <;> decide
    have hlog : Covered Act.effect log := by
      refine hsent.covered hallocated fun q ↦ ?_
      change _ ≤ held (.pbufAlloc s.nextPbuf :: s.log) q
      rw [hhead, halloc]
      exact Int.le_add_of_nonneg_right (hs.now q)
    refine hcov hlog fun q ↦ ?_
    rw [hsentheld]
    exact Int.le_add_of_nonneg_left (hs.now q)
  have hes : (Function.update (s.filled es segs payload).es es
      { (s.filled es segs payload).es es with p := ((s.fresh segs).drop k).head? } es).p =
      ((s.fresh segs).drop k).head? := by rw [Function.update_self]
  have hfreed : ∀ q, ((s.fresh segs).drop k).head? = some q → ref' q = 0 := by
    intro q hq
    have hone : ref q = 1 := hsent.refs refs_chained q (List.mem_of_mem_head? hq)
    rw [href q hq, hone]
    rfl
  have hwritten : accepted log' =
      accepted s.log ++ s.text.take (segs.take k).flatten.length := by
    rw [haccepted, hsent.accepted, ← htake]
    rfl
  have hrest : ((s.fresh segs).drop k).flatMap payload =
      (s.text.take segs.flatten.length).drop (segs.take k).flatten.length := by
    rw [hlen, List.take_length, hdrop]
  exact
    { pcbs := rfl, nextPcb := rfl, tcppcb := rfl, sendbuf := rfl, recvbuf := rfl
      connected := andNot_and_of_disjoint rfl _
      newData := andNot_and_of_disjoint rfl _
      sending := andNot_and_self _ _
      state := by simp [World.movedOn, World.filled, World.allocated]
      p := hes
      upward := upward_chained
      nextEs := rfl
      owner := fun es' ↦ (pcb_update (by rfl) es').trans (pcb_update (by rfl) es')
      grows := (((DataOnly.refl s.log).cons rfl).trans hsent.grows).trans hgrows
      asked := hasked.trans hsent.asked
      accepted := hwritten
      held := fun q ↦ by
        have hq := hheld q
        rw [hsentheld, Int.add_sub_cancel] at hq
        exact hq
      covered := hcovered
      freed := fun q hq ↦ hfreed q (hes.symm.trans hq)
      chain := by
        have hrestchain := hchain.drop k
        rw [← hes] at hrestchain
        exact hrestchain
      known := fun q hq ↦ by
        obtain ⟨i, hi, rfl⟩ := mem_fresh.1 hq
        exact Nat.add_lt_add_left hi _
      rest := hrest }

/-- The branch of the poll callback for a message that is to be sent. -/
theorem run_pollSend (halloc : ∀ segs, alloc = some segs →
      segs ≠ [] ∧ segs.flatten.length = strlen s.tcpClientSendbuf) :
    Run (pollSend es pcb alloc answers) s fun _ s' ↦ Served s es (alloc.getD [])
      (handed answers 0 ((alloc.getD []).map List.length)) s' := by
  cases alloc with
  | none => exact run_pollSend_none
  | some segs =>
      obtain ⟨hsegs, hlen⟩ := halloc segs rfl
      exact run_pollSend_some hsegs (hlen.trans (length_text s).symm)

theorem run_poll_send (harg : (s.pcbs pcb).callbackArg = some es)
    (hsend : s.tcpClientFlag &&& LWIP_SEND_DATA ≠ 0)
    (halloc : ∀ segs, alloc = some segs →
      segs ≠ [] ∧ segs.flatten.length = strlen s.tcpClientSendbuf) :
    Run (Event.poll pcb alloc answers).body s fun _ s' ↦ Served s es (alloc.getD [])
      (handed answers 0 ((alloc.getD []).map List.length)) s' := by
  refine run_bind.2 (run_read.2 ?_)
  rw [harg, tcpClientPoll, bind_assoc']
  refine run_bind.2 (run_read.2 ?_)
  rw [if_pos hsend, bind_assoc']
  refine (run_pollSend halloc).bind ?_
  intro _ s' hs'
  exact run_bind.2 (run_pure.2 (run_pure.2 hs'))

end Stm32F1.Tcp
