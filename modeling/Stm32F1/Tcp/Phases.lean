import Stm32F1.Tcp.Steps

/-!
# The life of a connection

An abstract client knows only in which *phase* its connection is, and which
message it has been asked to send.  The events alone tell it; no callback of
lwIP and no memory is needed.  The client of the source follows it.
-/

namespace Stm32F1.Tcp

open Prog

/-! ## The abstract client -/

inductive Phase
  | connecting
  | opened
  /-- The peer sends no more, and the client has not yet closed. -/
  | closing
  /-- lwIP has freed the open connection. -/
  | reset
  /-- The connection was aborted, or was lost before it was made. -/
  | ended
deriving DecidableEq, Repr

structure Abs where
  phase : Phase
  /-- The message that waits for the poll callback. -/
  wanted : Option Message

def Abs.next (a : Abs) : Event → Abs
  | .connected _ e mem => { a with phase := if e = ERR_OK ∧ mem then .opened else .ended }
  | .recv _ p _ => { a with phase := if p.isNone then .closing else a.phase }
  | .poll _ _ _ =>
      if a.wanted.isSome then { a with wanted := none }
      else { a with phase := if a.phase = .closing then .ended else a.phase }
  | .err _ _ => { a with phase := if a.phase = .connecting then .ended else .reset }
  | .key0 m => { a with wanted := some m }
  | .key1 => { a with phase := .ended }
  | .status =>
      { a with
        phase := if a.phase = .connecting ∨ a.phase = .ended then .connecting else a.phase }
  | .sent .. | .newData => a

/-- The abstract client after a history, newest event first. -/
def after : List Event → Abs
  | [] => ⟨.connecting, none⟩
  | e :: past => (after past).next e

/-- What an event enters in the log about the connection. -/
def Abs.acts (a : Abs) (tcppcb : Nat) : Event → List Act
  | .connected _ e mem => if e = ERR_OK ∧ mem then [.flagged tcppcb] else [.tcpAbort tcppcb]
  | .poll _ _ _ => if a.wanted.isNone ∧ a.phase = .closing then [.tcpAbort tcppcb] else []
  | .err _ _ => [.freed tcppcb]
  | .key1 => [.tcpAbort tcppcb]
  | .status => if a.phase = .connecting ∨ a.phase = .ended then [.tcpAbort tcppcb] else []
  | .recv .. | .sent .. | .newData | .key0 _ => []

/-! ## The client of the source follows -/

/-- What holds in every phase. -/
structure Ground (wanted : Option Message) (s : World) : Prop where
  upward : Upward (links s.pbufs) s.nextPbuf
  only : ∀ pcb, (s.pcbs pcb).live → pcb = s.tcppcb
  tcppcb : s.tcppcb < s.nextPcb
  gone : ∀ pcb, Gone s.log pcb ↔ pcb < s.nextPcb ∧ (s.pcbs pcb).live = false
  sending : s.tcpClientFlag &&& LWIP_SEND_DATA ≠ 0 ↔ wanted.isSome
  text : ∀ m, wanted = some m → s.text = m.bytes

/-- The connection is open, and the client is in this state. -/
structure Opened (state : TcpClientStates) (s : World) : Prop where
  es : ∃ es, s.pcbs s.tcppcb = .opened es ∧ (s.es es).state = state
  flag : s.tcpClientFlag &&& LWIP_CONNECTED ≠ 0
  flagged : lastFlagged s.log = some s.tcppcb

def InPhase : Phase → World → Prop
  | .connecting, s => s.pcbs s.tcppcb = .attempting ∧ s.tcpClientFlag &&& LWIP_CONNECTED = 0
  | .opened, s => Opened .ES_TCPCLIENT_CONNECTED s
  | .closing, s => Opened .ES_TCPCLIENT_CLOSING s
  | .reset, s => (s.pcbs s.tcppcb).live = false ∧ s.tcpClientFlag &&& LWIP_CONNECTED ≠ 0 ∧
      lastFlagged s.log = some s.tcppcb
  | .ended, s => (s.pcbs s.tcppcb).live = false ∧ s.tcpClientFlag &&& LWIP_CONNECTED = 0

/-- The client of the source is in the state of the abstract one. -/
structure Tracks (a : Abs) (s : World) : Prop extends Ground a.wanted s where
  phase : InPhase a.phase s

variable {a : Abs} {s s' : World} {w w' : Option Message} {pcb : Nat}

/-- A live connection is the one that `main` knows. -/
theorem Tracks.live (h : Tracks a s) (hlive : (s.pcbs pcb).live) :
    pcb = s.tcppcb ∧ a.phase ≠ .reset ∧ a.phase ≠ .ended := by
  obtain rfl := h.only pcb hlive
  have hphase := h.phase
  refine ⟨rfl, ?_, ?_⟩ <;> intro heq <;> rw [heq] at hphase <;>
    exact Bool.false_ne_true (hphase.1.symm.trans hlive)

theorem Tracks.connecting (h : Tracks a s) (hlive : (s.pcbs pcb).live)
    (hstate : (s.pcbs pcb).state = .SYN_SENT) : pcb = s.tcppcb ∧ a.phase = .connecting := by
  obtain ⟨rfl, hreset, hended⟩ := h.live hlive
  refine ⟨rfl, ?_⟩
  have hphase := h.phase
  cases ha : a.phase with
  | connecting => rfl
  | opened =>
      rw [ha] at hphase
      obtain ⟨es, hes, -⟩ := hphase.es
      rw [hes] at hstate
      exact TcpState.noConfusion hstate
  | closing =>
      rw [ha] at hphase
      obtain ⟨es, hes, -⟩ := hphase.es
      rw [hes] at hstate
      exact TcpState.noConfusion hstate
  | reset => exact absurd ha hreset
  | ended => exact absurd ha hended

/-- The callbacks of a connection are registered while it is open only. -/
theorem Tracks.registered (h : Tracks a s) (hlive : (s.pcbs pcb).live)
    (hcb : (s.pcbs pcb).recv ∨ (s.pcbs pcb).sent ∨ (s.pcbs pcb).poll) :
    pcb = s.tcppcb ∧ ∃ es, s.pcbs s.tcppcb = .opened es ∧
      (a.phase = .opened ∧ Opened .ES_TCPCLIENT_CONNECTED s ∧
        (s.es es).state = .ES_TCPCLIENT_CONNECTED ∨
      a.phase = .closing ∧ Opened .ES_TCPCLIENT_CLOSING s ∧
        (s.es es).state = .ES_TCPCLIENT_CLOSING) := by
  obtain ⟨rfl, hreset, hended⟩ := h.live hlive
  refine ⟨rfl, ?_⟩
  have hphase := h.phase
  cases ha : a.phase with
  | connecting =>
      rw [ha] at hphase
      rw [hphase.1] at hcb
      rcases hcb with hcb | hcb | hcb <;> exact absurd hcb Bool.false_ne_true
  | opened =>
      rw [ha] at hphase
      obtain ⟨es, hes, hstate⟩ := hphase.es
      exact ⟨es, hes, .inl ⟨rfl, hphase, hstate⟩⟩
  | closing =>
      rw [ha] at hphase
      obtain ⟨es, hes, hstate⟩ := hphase.es
      exact ⟨es, hes, .inr ⟨rfl, hphase, hstate⟩⟩
  | reset => exact absurd ha hreset
  | ended => exact absurd ha hended

/-- Only an open connection has an argument for its callbacks. -/
theorem Tracks.opened_of_arg {es : Nat} (h : Tracks a s) (hlive : (s.pcbs pcb).live)
    (harg : (s.pcbs pcb).callbackArg = some es) : s.pcbs s.tcppcb = .opened es := by
  obtain ⟨rfl, hreset, hended⟩ := h.live hlive
  have hphase := h.phase
  have hopen : ∀ es', s.pcbs s.tcppcb = .opened es' → s.pcbs s.tcppcb = .opened es := by
    intro es' hes'
    rw [hes'] at harg
    rw [hes', Option.some.inj harg]
  cases ha : a.phase with
  | connecting =>
      rw [ha] at hphase
      rw [hphase.1] at harg
      exact absurd harg (Option.some_ne_none es).symm
  | opened =>
      rw [ha] at hphase
      obtain ⟨es', hes', -⟩ := hphase.es
      exact hopen es' hes'
  | closing =>
      rw [ha] at hphase
      obtain ⟨es', hes', -⟩ := hphase.es
      exact hopen es' hes'
  | reset => exact absurd ha hreset
  | ended => exact absurd ha hended

/-! ### What changes nothing about the connections -/

theorem Ground.same (h : Ground w s) (hup : Upward (links s'.pbufs) s'.nextPbuf)
    (hpcbs : s'.pcbs = s.pcbs) (hnext : s'.nextPcb = s.nextPcb) (htcppcb : s'.tcppcb = s.tcppcb)
    (hacts : connActs s'.log = connActs s.log)
    (hsend : s'.tcpClientFlag &&& LWIP_SEND_DATA ≠ 0 ↔ w'.isSome)
    (htext : ∀ m, w' = some m → s'.text = m.bytes) : Ground w' s' where
  upward := hup
  only := by
    rw [hpcbs, htcppcb]
    exact h.only
  tcppcb := by
    rw [hnext, htcppcb]
    exact h.tcppcb
  gone pcb := by
    rw [← gone_connActs, hacts, gone_connActs, hpcbs, hnext]
    exact h.gone pcb
  sending := hsend
  text := htext

theorem lastFlagged_congr {log log' : List Act} (h : connActs log' = connActs log) :
    lastFlagged log' = lastFlagged log := by
  rw [← lastFlagged_connActs, h, lastFlagged_connActs]

theorem Opened.same {state state' : TcpClientStates} {es : Nat} (h : Opened state s)
    (hes : s.pcbs s.tcppcb = .opened es) (hpcbs : s'.pcbs = s.pcbs)
    (htcppcb : s'.tcppcb = s.tcppcb) (hacts : connActs s'.log = connActs s.log)
    (hflag : s'.tcpClientFlag &&& LWIP_CONNECTED = s.tcpClientFlag &&& LWIP_CONNECTED)
    (hstate : (s'.es es).state = state') : Opened state' s' where
  es := ⟨es, by rw [hpcbs, htcppcb, hes], hstate⟩
  flag := by
    rw [hflag]
    exact h.flag
  flagged := by
    rw [lastFlagged_congr hacts, htcppcb]
    exact h.flagged

theorem InPhase.same {phase : Phase} (h : InPhase phase s) (hpcbs : s'.pcbs = s.pcbs)
    (htcppcb : s'.tcppcb = s.tcppcb) (hacts : connActs s'.log = connActs s.log)
    (hflag : s'.tcpClientFlag &&& LWIP_CONNECTED = s.tcpClientFlag &&& LWIP_CONNECTED)
    (hstate : s'.es = s.es) : InPhase phase s' := by
  cases phase with
  | connecting => exact ⟨by rw [hpcbs, htcppcb, h.1], hflag.trans h.2⟩
  | opened =>
      obtain ⟨es, hes, hst⟩ := h.es
      exact Opened.same h hes hpcbs htcppcb hacts hflag (by rw [hstate, hst])
  | closing =>
      obtain ⟨es, hes, hst⟩ := h.es
      exact Opened.same h hes hpcbs htcppcb hacts hflag (by rw [hstate, hst])
  | reset =>
      refine ⟨by rw [hpcbs, htcppcb, h.1], hflag ▸ h.2.1, ?_⟩
      rw [lastFlagged_congr hacts, htcppcb]
      exact h.2.2
  | ended => exact ⟨by rw [hpcbs, htcppcb, h.1], hflag.trans h.2⟩

/-! ### The end of a connection -/

theorem Ground.closed (h : Ground w s) (es : Option Nat) : Ground w (s.closed s.tcppcb es) where
  upward := h.upward
  only pcb hlive := by
    rcases eq_or_ne pcb s.tcppcb with heq | hne
    · exact heq
    · simp only [World.closed, Function.update_of_ne hne] at hlive
      exact h.only pcb hlive
  tcppcb := h.tcppcb
  gone pcb := by
    rw [← gone_connActs]
    change Gone (connActs (closeLog ..)) pcb ↔ _
    rw [connActs_closeLog]
    rcases eq_or_ne pcb s.tcppcb with rfl | hne
    · simp only [World.closed, Function.update_self, Pcb.closed, and_true]
      exact ⟨fun _ ↦ h.tcppcb, fun _ ↦ .inl (List.mem_cons_self ..)⟩
    · simp only [World.closed, Function.update_of_ne hne]
      rw [← h.gone pcb]
      have hcons : Gone (.tcpAbort s.tcppcb :: connActs s.log) pcb ↔ Gone (connActs s.log) pcb := by
        simp [Gone, hne]
      exact hcons.trans gone_connActs
  sending := by
    rw [← h.sending]
    exact not_congr (by rw [World.closed, andNot_and_of_disjoint rfl])
  text := h.text

/-- A connection that the client aborts. -/
theorem Tracks.closed (h : Ground w s) (es : Option Nat) :
    Tracks ⟨.ended, w⟩ (s.closed s.tcppcb es) where
  toGround := h.closed es
  phase := by
    refine ⟨?_, andNot_and_self _ _⟩
    simp only [World.closed, Function.update_self, Pcb.closed]

/-- A connection that lwIP frees. -/
theorem Ground.lost (h : Ground w s) : Ground w (s.lost s.tcppcb) where
  upward := h.upward
  only pcb hlive := by
    rcases eq_or_ne pcb s.tcppcb with heq | hne
    · exact heq
    · simp only [World.lost, Function.update_of_ne hne] at hlive
      exact h.only pcb hlive
  tcppcb := h.tcppcb
  gone pcb := by
    rcases eq_or_ne pcb s.tcppcb with rfl | hne
    · simp only [World.lost, Function.update_self, and_true]
      exact ⟨fun _ ↦ h.tcppcb, fun _ ↦ .inr (List.mem_cons_self ..)⟩
    · simp only [World.lost, Function.update_of_ne hne]
      rw [← h.gone pcb]
      simp [Gone, hne]
  sending := h.sending
  text := h.text

theorem Tracks.lost (h : Tracks a s) (hlive : (s.pcbs s.tcppcb).live) (e : ErrT) :
    Tracks (a.next (.err s.tcppcb e)) (s.lost s.tcppcb) where
  toGround := h.toGround.lost
  phase := by
    obtain ⟨-, hreset, hended⟩ := h.live hlive
    have hphase := h.phase
    have hdead : ((s.lost s.tcppcb).pcbs s.tcppcb).live = false := by
      simp only [World.lost, Function.update_self]
    change InPhase (if a.phase = .connecting then .ended else .reset) _
    cases ha : a.phase with
    | connecting =>
        rw [ha] at hphase
        exact ⟨hdead, hphase.2⟩
    | opened =>
        rw [ha] at hphase
        exact ⟨hdead, hphase.flag, hphase.flagged⟩
    | closing =>
        rw [ha] at hphase
        exact ⟨hdead, hphase.flag, hphase.flagged⟩
    | reset => exact absurd ha hreset
    | ended => exact absurd ha hended

/-! ### The beginning of a connection -/

/-- A new attempt, the old connection being gone. -/
theorem Tracks.attempt (h : Tracks ⟨.ended, w⟩ s) : Tracks ⟨.connecting, w⟩ s.connecting where
  upward := h.upward
  only pcb hlive := by
    rcases eq_or_ne pcb s.nextPcb with heq | hne
    · exact heq
    · simp only [World.connecting, Function.update_of_ne hne] at hlive
      obtain rfl := h.only pcb hlive
      exact absurd (h.phase.1.symm.trans hlive) Bool.false_ne_true
  tcppcb := Nat.lt_succ_self _
  gone pcb := by
    have hlog : Gone s.connecting.log pcb ↔ Gone s.log pcb := by
      simp [Gone, World.connecting]
    rw [hlog, h.gone pcb]
    rcases eq_or_ne pcb s.nextPcb with rfl | hne
    · simp [World.connecting, Pcb.attempting]
    · simp only [World.connecting, Function.update_of_ne hne]
      exact and_congr_left fun _ ↦ ⟨fun hlt ↦ hlt.trans (Nat.lt_succ_self _),
        fun hlt ↦ lt_of_le_of_ne (Nat.lt_succ_iff.1 hlt) hne⟩
  sending := h.sending
  text := h.text
  phase := ⟨Function.update_self .., h.phase.2⟩

/-- The connection is made. -/
theorem Tracks.opened (h : Ground w s) (hlive : (s.pcbs s.tcppcb).live) :
    Tracks ⟨.opened, w⟩ (s.opened s.tcppcb) where
  upward := h.upward
  only pcb hlive := by
    rcases eq_or_ne pcb s.tcppcb with heq | hne
    · exact heq
    · simp only [World.opened, Function.update_of_ne hne] at hlive
      exact h.only pcb hlive
  tcppcb := h.tcppcb
  gone pcb := by
    have hlog : Gone (s.opened s.tcppcb).log pcb ↔ Gone s.log pcb := by
      simp [Gone, World.opened]
    rw [hlog, h.gone pcb]
    rcases eq_or_ne pcb s.tcppcb with rfl | hne
    · simp [World.opened, Pcb.opened, hlive]
    · simp only [World.opened, Function.update_of_ne hne]
  sending := by
    rw [← h.sending]
    exact not_congr (by rw [World.opened, or_and_of_disjoint rfl])
  text := h.text
  phase :=
    { es := ⟨s.nextEs, Function.update_self .., by simp [World.opened]⟩
      flag := by
        have hflag := or_and_self s.tcpClientFlag LWIP_CONNECTED
        exact fun h0 ↦ absurd (hflag.symm.trans h0) (by decide)
      flagged := rfl }

/-- lwIP regards the connection as made; the client does not know yet. -/
theorem Ground.established (h : Ground w s) (pcb : Nat) : Ground w (s.established pcb) where
  upward := h.upward
  only pcb' hlive := by
    rcases eq_or_ne pcb' pcb with rfl | hne
    · simp only [World.established, Function.update_self] at hlive
      exact h.only _ hlive
    · simp only [World.established, Function.update_of_ne hne] at hlive
      exact h.only pcb' hlive
  tcppcb := h.tcppcb
  gone pcb' := by
    rcases eq_or_ne pcb' pcb with rfl | hne
    · simp only [World.established, Function.update_self]
      exact h.gone _
    · simp only [World.established, Function.update_of_ne hne]
      exact h.gone pcb'
  sending := h.sending
  text := h.text

/-! ### Requests -/

theorem text_sprintf (buf : List UInt8) (m : Message) :
    (sprintf buf m).take (strlen (sprintf buf m)) = m.bytes := by
  have htake : (sprintf buf m).takeWhile (· ≠ 0) = m.bytes := by
    rw [sprintf, List.takeWhile_append_of_pos]
    · simp
    · intro x hx
      have hne : x ≠ 0 := fun h0 ↦ m.text (h0 ▸ hx)
      simpa using hne
  rw [strlen, htake, sprintf, List.take_left]

theorem Tracks.requested (h : Tracks a s) (m : Message) :
    Tracks { a with wanted := some m } (s.requested m) where
  toGround := h.toGround.same h.upward rfl rfl rfl rfl
    (by
      have hflag := or_and_self s.tcpClientFlag LWIP_SEND_DATA
      refine ⟨fun _ ↦ rfl, fun _ h0 ↦ absurd (hflag.symm.trans h0) (by decide)⟩)
    (by
      rintro _ ⟨⟩
      exact text_sprintf s.tcpClientSendbuf m)
  phase := h.phase.same rfl rfl rfl (or_and_of_disjoint rfl _) rfl

/-! ## Every event -/

variable {alloc : Option (List (List UInt8))} {answers : Answers} {len : UInt16} {e : ErrT}
  {mem : Bool} {packet : Option (List (List UInt8))}

theorem step_connected (h : Tracks a s) (hs : Step s (.connected pcb e mem) s') :
    pcb = s.tcppcb ∧ (s.pcbs s.tcppcb).live ∧ s' = if e = ERR_OK ∧ mem then s.opened s.tcppcb
      else (s.established s.tcppcb).closed s.tcppcb none := by
  obtain ⟨⟨hlive, hstate, hconn⟩, hbody⟩ := hs
  obtain ⟨rfl, -⟩ := h.connecting hlive hstate
  rw [run_connected hlive hconn] at hbody
  exact ⟨rfl, hlive, (Prod.mk.inj (Option.some.inj hbody)).2.symm⟩

theorem step_recv (h : Tracks a s) (hs : Step s (.recv pcb packet e) s') :
    ∃ es, s.pcbs s.tcppcb = .opened es ∧ Received s es packet.isNone none s' := by
  obtain ⟨⟨hlive, hrecv, hpacket⟩, hbody⟩ := hs
  obtain ⟨rfl, es, hes, -⟩ := h.registered hlive (.inl hrecv)
  refine ⟨es, hes, ?_⟩
  have harg : (s.pcbs s.tcppcb).callbackArg = some es := by
    rw [hes]
    rfl
  cases packet with
  | none => exact (run_recv_none h.upward harg e).elim hbody
  | some segs =>
      exact (run_recv_some h.upward harg (fun h0 ↦ hpacket (congrArg some h0)) e).elim hbody

theorem step_sent (h : Tracks a s) (hs : Step s (.sent pcb len answers) s') :
    ∃ es, s.pcbs s.tcppcb = .opened es ∧ ∃ cells k ref log,
      Chain (links s.pbufs) (s.es es).p cells ∧ s' = s.movedOn es cells k ref log ∧
      Sent s cells k ref log := by
  obtain ⟨⟨hlive, hsent⟩, hbody⟩ := hs
  obtain ⟨rfl, es, hes, -⟩ := h.registered hlive (.inr (.inl hsent))
  have harg : (s.pcbs s.tcppcb).callbackArg = some es := by
    rw [hes]
    rfl
  exact ⟨es, hes, (run_sent h.upward harg len answers).elim hbody⟩

/-- The poll callback sends the message that waits; if none waits, it closes what is to be
closed. -/
theorem step_poll (h : Tracks a s) (hs : Step s (.poll pcb alloc answers) s') :
    ∃ es, s.pcbs s.tcppcb = .opened es ∧
      (a.wanted = none ∧ a.phase = .opened ∧ s' = s ∨
      a.wanted = none ∧ a.phase = .closing ∧ s' = s.closed s.tcppcb (some es) ∨
      a.wanted.isSome ∧ Served s es (alloc.getD [])
        (handed answers 0 ((alloc.getD []).map List.length)) s' ∧
        ∀ segs, alloc = some segs → segs.flatten.length = s.text.length) := by
  obtain ⟨⟨hlive, hpoll, halloc⟩, hbody⟩ := hs
  obtain ⟨rfl, es, hes, hphase⟩ := h.registered hlive (.inr (.inr hpoll))
  refine ⟨es, hes, ?_⟩
  have harg : (s.pcbs s.tcppcb).callbackArg = some es := by
    rw [hes]
    rfl
  cases hw : a.wanted with
  | some m =>
      have hsend := h.sending.2 (hw ▸ rfl)
      refine .inr (.inr ⟨rfl, (run_poll_send harg hsend halloc).elim hbody, ?_⟩)
      intro segs hsegs
      exact (halloc segs hsegs).2.trans (length_text s).symm
  | none =>
      have hsend : s.tcpClientFlag &&& LWIP_SEND_DATA = 0 := by
        by_contra hne
        have hsome := h.sending.1 hne
        rw [hw] at hsome
        exact Bool.false_ne_true hsome
      rcases hphase with ⟨hphase, -, hstate⟩ | ⟨hphase, -, hstate⟩
      · rw [run_poll_idle harg hsend (by rw [hstate]; decide)] at hbody
        exact .inl ⟨rfl, hphase, (Prod.mk.inj (Option.some.inj hbody)).2.symm⟩
      · rw [run_poll_close harg hsend hstate] at hbody
        exact .inr (.inl ⟨rfl, hphase, (Prod.mk.inj (Option.some.inj hbody)).2.symm⟩)

theorem step_err (h : Tracks a s) (hs : Step s (.err pcb e) s') :
    pcb = s.tcppcb ∧ (s.pcbs s.tcppcb).live ∧ s' = s.lost s.tcppcb := by
  obtain ⟨hlive, hbody⟩ := hs
  obtain ⟨rfl, -⟩ := h.live hlive
  rw [run_err] at hbody
  exact ⟨rfl, hlive, (Prod.mk.inj (Option.some.inj hbody)).2.symm⟩

theorem step_newData (hs : Step s .newData s') : s' = s ∨
    s' = { s with tcpClientFlag := s.tcpClientFlag &&& ~~~LWIP_NEW_DATA } := by
  have hbody := hs.2
  rw [run_newData] at hbody
  have heq := (Prod.mk.inj (Option.some.inj hbody)).2
  split at heq
  · exact .inr heq.symm
  · exact .inl heq.symm

theorem step_key0 {m : Message} (hs : Step s (.key0 m) s') : s' = s.requested m := by
  have hbody := hs.2
  rw [run_key0] at hbody
  exact (Prod.mk.inj (Option.some.inj hbody)).2.symm

theorem step_key1 (hs : Step s .key1 s') : s' = s.closed s.tcppcb none := by
  have hbody := hs.2
  rw [run_key1] at hbody
  exact (Prod.mk.inj (Option.some.inj hbody)).2.symm

/-- The periodic check connects again while the flag is clear. -/
theorem step_status (h : Tracks a s) (hs : Step s .status s') :
    (a.phase = .connecting ∨ a.phase = .ended) ∧ s' = (s.closed s.tcppcb none).connecting ∨
      ¬ (a.phase = .connecting ∨ a.phase = .ended) ∧ s' = s := by
  have hbody := hs.2
  rw [run_status] at hbody
  have heq := (Prod.mk.inj (Option.some.inj hbody)).2
  have hphase := h.phase
  cases ha : a.phase with
  | connecting =>
      rw [ha] at hphase
      rw [if_neg (not_not.2 hphase.2)] at heq
      exact .inl ⟨.inl rfl, heq.symm⟩
  | opened =>
      rw [ha] at hphase
      rw [if_pos hphase.flag] at heq
      exact .inr ⟨by decide, heq.symm⟩
  | closing =>
      rw [ha] at hphase
      rw [if_pos hphase.flag] at heq
      exact .inr ⟨by decide, heq.symm⟩
  | reset =>
      rw [ha] at hphase
      rw [if_pos hphase.2.1] at heq
      exact .inr ⟨by decide, heq.symm⟩
  | ended =>
      rw [ha] at hphase
      rw [if_neg (not_not.2 hphase.2)] at heq
      exact .inl ⟨.inr rfl, heq.symm⟩

/-! ### The abstract client makes the same step -/

/-- A callback that leaves the connection open: the client may be in another state afterwards. -/
theorem Tracks.stays {es : Nat} (h : Tracks a s) (hes : s.pcbs s.tcppcb = .opened es)
    (hground : Ground w' s') (hpcbs : s'.pcbs = s.pcbs) (htcppcb : s'.tcppcb = s.tcppcb)
    (hacts : connActs s'.log = connActs s.log)
    (hflag : s'.tcpClientFlag &&& LWIP_CONNECTED = s.tcpClientFlag &&& LWIP_CONNECTED)
    (hstate : (s'.es es).state = (s.es es).state) : Tracks ⟨a.phase, w'⟩ s' where
  toGround := hground
  phase := by
    have hlive : (s.pcbs s.tcppcb).live := by
      rw [hes]
      rfl
    have hrecv : (s.pcbs s.tcppcb).recv := by
      rw [hes]
      rfl
    obtain ⟨-, es', hes', hphase⟩ := h.registered hlive (.inl hrecv)
    obtain rfl : es' = es := by
      have heq := congrArg Pcb.callbackArg (hes'.symm.trans hes)
      exact Option.some.inj heq
    rcases hphase with ⟨ha, hopen, hst⟩ | ⟨ha, hopen, hst⟩
    · change InPhase a.phase s'
      rw [ha]
      exact hopen.same hes hpcbs htcppcb hacts hflag (hstate.trans hst)
    · change InPhase a.phase s'
      rw [ha]
      exact hopen.same hes hpcbs htcppcb hacts hflag (hstate.trans hst)

theorem follows_connected (h : Tracks a s) (hs : Step s (.connected pcb e mem) s') :
    Tracks (a.next (.connected pcb e mem)) s' ∧
      connActs s'.log = a.acts s.tcppcb (.connected pcb e mem) ++ connActs s.log := by
  obtain ⟨rfl, hlive, rfl⟩ := step_connected h hs
  simp only [Abs.next, Abs.acts]
  split
  · exact ⟨.opened h.toGround hlive, rfl⟩
  · exact ⟨.closed (h.toGround.established s.tcppcb) none, rfl⟩

theorem follows_recv (h : Tracks a s) (hs : Step s (.recv pcb packet e) s') :
    Tracks (a.next (.recv pcb packet e)) s' ∧
      connActs s'.log = a.acts s.tcppcb (.recv pcb packet e) ++ connActs s.log := by
  obtain ⟨es, hes, hr⟩ := step_recv h hs
  have hground : Ground a.wanted s' := by
    refine h.toGround.same hr.upward hr.pcbs hr.nextPcb hr.tcppcb hr.grows.connActs ?_ ?_
    · rw [hr.sending]
      exact h.sending
    · intro m hm
      rw [World.text, hr.sendbuf]
      exact h.text m hm
  refine ⟨?_, hr.grows.connActs⟩
  cases packet with
  | some segs => exact h.stays hes hground hr.pcbs hr.tcppcb hr.grows.connActs hr.connected hr.state
  | none =>
      have hlive : (s.pcbs s.tcppcb).live := by
        rw [hes]
        rfl
      have hrecv : (s.pcbs s.tcppcb).recv := by
        rw [hes]
        rfl
      obtain ⟨-, _, -, hphase⟩ := h.registered hlive (.inl hrecv)
      refine { hground with phase := ?_ }
      rcases hphase with ⟨-, hopen, -⟩ | ⟨-, hopen, -⟩
      · exact hopen.same hes hr.pcbs hr.tcppcb hr.grows.connActs hr.connected hr.state
      · exact hopen.same hes hr.pcbs hr.tcppcb hr.grows.connActs hr.connected hr.state

theorem follows_sent (h : Tracks a s) (hs : Step s (.sent pcb len answers) s') :
    Tracks (a.next (.sent pcb len answers)) s' ∧
      connActs s'.log = a.acts s.tcppcb (.sent pcb len answers) ++ connActs s.log := by
  obtain ⟨es, hes, cells, k, ref, log, -, rfl, hsent⟩ := step_sent h hs
  refine ⟨h.stays hes ?_ rfl rfl hsent.grows.connActs rfl ?_, hsent.grows.connActs⟩
  · exact h.toGround.same h.upward rfl rfl rfl hsent.grows.connActs h.sending h.text
  · simp only [World.movedOn, Function.update_self]

theorem follows_poll (h : Tracks a s) (hs : Step s (.poll pcb alloc answers) s') :
    Tracks (a.next (.poll pcb alloc answers)) s' ∧
      connActs s'.log = a.acts s.tcppcb (.poll pcb alloc answers) ++ connActs s.log := by
  obtain ⟨es, hes, hcases⟩ := step_poll h hs
  simp only [Abs.next, Abs.acts]
  rcases hcases with ⟨hw, hphase, rfl⟩ | ⟨hw, hphase, rfl⟩ | ⟨hw, hserved, -⟩
  · simp only [hw, hphase, Option.isSome_none, Bool.false_eq_true, if_false, reduceCtorEq,
      and_false, List.nil_append, and_true]
    obtain ⟨phase, wanted⟩ := a
    dsimp only at hw hphase
    subst hw hphase
    exact h
  · simp only [hw, hphase, Option.isSome_none, Bool.false_eq_true, if_false, if_true,
      Option.isNone_none, and_self]
    have hclosed := Tracks.closed h.toGround (some es)
    rw [hw] at hclosed
    exact ⟨hclosed, rfl⟩
  · have hnone : ¬ (a.wanted.isNone = true ∧ a.phase = .closing) := by
      rintro ⟨hnone, -⟩
      rw [Option.isNone_iff_eq_none.1 hnone] at hw
      exact Bool.false_ne_true hw
    rw [if_pos hw, if_neg hnone]
    have hacts := hserved.grows.connActs
    refine ⟨h.stays hes ?_ hserved.pcbs hserved.tcppcb hacts hserved.connected hserved.state, hacts⟩
    refine h.toGround.same (hserved.upward h.upward) hserved.pcbs hserved.nextPcb hserved.tcppcb
      hacts ?_ ?_
    · exact ⟨fun hne ↦ absurd hserved.sending hne, fun hf ↦ absurd hf Bool.false_ne_true⟩
    · exact fun m hm ↦ absurd hm (Option.some_ne_none m).symm

theorem follows_newData (h : Tracks a s) (hs : Step s .newData s') :
    Tracks a s' ∧ connActs s'.log = connActs s.log := by
  rcases step_newData hs with rfl | rfl
  · exact ⟨h, rfl⟩
  · refine ⟨⟨h.toGround.same h.upward rfl rfl rfl rfl ?_ h.text, h.phase.same rfl rfl rfl ?_ rfl⟩,
      rfl⟩
    · change (s.tcpClientFlag &&& ~~~LWIP_NEW_DATA) &&& LWIP_SEND_DATA ≠ 0 ↔ _
      rw [andNot_and_of_disjoint rfl]
      exact h.sending
    · exact andNot_and_of_disjoint rfl _

theorem follows_status (h : Tracks a s) (hs : Step s .status s') :
    Tracks (a.next .status) s' ∧
      connActs s'.log = a.acts s.tcppcb .status ++ connActs s.log := by
  simp only [Abs.next, Abs.acts]
  rcases step_status h hs with ⟨hphase, rfl⟩ | ⟨hphase, rfl⟩
  · rw [if_pos hphase, if_pos hphase]
    exact ⟨(Tracks.closed h.toGround none).attempt, rfl⟩
  · rw [if_neg hphase, if_neg hphase]
    exact ⟨h, rfl⟩

/-- **The client of the source follows the abstract client**, and its log shows it. -/
theorem follows {e : Event} (h : Tracks a s) (hs : Step s e s') :
    Tracks (a.next e) s' ∧ connActs s'.log = a.acts s.tcppcb e ++ connActs s.log := by
  cases e with
  | connected pcb e mem => exact follows_connected h hs
  | recv pcb packet e => exact follows_recv h hs
  | sent pcb len answers => exact follows_sent h hs
  | poll pcb alloc answers => exact follows_poll h hs
  | err pcb e =>
      obtain ⟨rfl, hlive, rfl⟩ := step_err h hs
      exact ⟨h.lost hlive e, rfl⟩
  | newData => exact follows_newData h hs
  | key0 m =>
      rw [step_key0 hs]
      exact ⟨h.requested m, rfl⟩
  | key1 =>
      rw [step_key1 hs]
      exact ⟨.closed h.toGround none, rfl⟩
  | status => exact follows_status h hs

theorem tracks_start : Tracks (after []) World.boot.connecting where
  upward q r hr := absurd hr (Option.some_ne_none r).symm
  only pcb hlive := by
    by_contra hne
    have hne' : pcb ≠ World.boot.nextPcb := hne
    simp only [World.connecting, Function.update_of_ne hne'] at hlive
    exact Bool.false_ne_true hlive
  tcppcb := Nat.one_pos
  gone pcb := by
    constructor
    · simp [Gone, World.connecting, World.boot]
    · rintro ⟨hlt, hlive⟩
      obtain rfl : pcb = 0 := Nat.lt_one_iff.1 hlt
      exact Bool.noConfusion hlive
  sending := ⟨fun h ↦ absurd rfl h, fun h ↦ absurd h Bool.false_ne_true⟩
  text m hm := absurd hm (Option.some_ne_none m).symm
  phase := ⟨rfl, rfl⟩

/-- In every run. -/
theorem reaches_tracks {history : List Event} (h : Reaches Start Step history s) :
    Tracks (after history) s := by
  refine Reaches.invariant (I := fun history s ↦ Tracks (after history) s) ?_ ?_ h
  · intro s hs
    rw [start_iff.1 hs]
    exact tracks_start
  · intro past s e s' _ ih hs
    exact (follows ih hs).1

end Stm32F1.Tcp
