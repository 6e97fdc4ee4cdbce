import Stm32F1.Tcp.Ownership

/-!
# The structures of connections

`tcp_client_connected` allocates a structure for its connection, and only the
poll callback frees it, when it closes what the peer has closed.  A structure is
lost with a connection that ends otherwise: `tcp_client_error` frees nothing, and
the main loop closes without naming the structure.
-/

namespace Stm32F1.Tcp

open Prog

variable {a : Abs} {s s' : World} {e : Event} {history : List Event} {es : Nat}

/-- How many structures were allocated and not freed. -/
def World.liveStructs (s : World) : Nat :=
  ((Finset.range s.nextEs).filter fun es ↦ .memMalloc es ∈ s.log ∧ .memFree es ∉ s.log).card

/-- How many connections there are. -/
def World.livePcbs (s : World) : Nat :=
  ((Finset.range s.nextPcb).filter fun pcb ↦ (s.pcbs pcb).live).card

structure NoLeak (s : World) : Prop where
  /-- The structure of a connection that has ended was freed once. -/
  freed : ∀ es, .memMalloc es ∈ s.log → (s.pcbs (s.es es).pcb).live = false →
    s.log.count (.memFree es) = 1
  once : ∀ es, s.log.count (.memFree es) ≤ 1
  few : s.liveStructs ≤ s.livePcbs

/-- An open connection ends in the poll callback. -/
def Abs.Releases (a : Abs) : Event → Prop
  | .err _ _ | .key1 => a.phase ≠ .opened ∧ a.phase ≠ .closing
  | _ => True

/-! ## Between callbacks -/

/-- The structure of the open connection is the only one that was not freed. -/
structure Accounted (a : Abs) (s : World) : Prop where
  phase : a.phase ≠ .reset
  known : ∀ es, .memMalloc es ∈ structActs s.log ↔ es < s.nextEs
  fresh : ∀ es, s.nextEs ≤ es → (structActs s.log).count (.memFree es) = 0
  held : ∀ es, s.pcbs s.tcppcb = .opened es → es < s.nextEs ∧ (s.es es).pcb = s.tcppcb ∧
    (structActs s.log).count (.memFree es) = 0
  freed : ∀ es < s.nextEs, s.pcbs s.tcppcb ≠ .opened es →
    (structActs s.log).count (.memFree es) = 1

theorem Accounted.few (h : Accounted a s) (ht : Tracks a s) : s.liveStructs ≤ s.livePcbs := by
  by_cases hopen : ∃ es, s.pcbs s.tcppcb = .opened es
  · obtain ⟨es, hes⟩ := hopen
    have hstructs : s.liveStructs ≤ ({es} : Finset Nat).card := by
      refine Finset.card_le_card fun es' hes' ↦ ?_
      obtain ⟨hlt, -, hfree⟩ := Finset.mem_filter.1 hes'
      rw [Finset.mem_singleton]
      by_contra hne
      have hcount := h.freed es' (Finset.mem_range.1 hlt) fun h' ↦
        hne (Pcb.opened_inj (h'.symm.trans hes)).symm
      rw [count_structActs rfl] at hcount
      exact hfree (List.count_pos_iff.1 (hcount ▸ Nat.one_pos))
    have hpcbs : 0 < s.livePcbs := by
      refine Finset.card_pos.2 ⟨s.tcppcb, Finset.mem_filter.2 ⟨Finset.mem_range.2 ht.tcppcb, ?_⟩⟩
      rw [hes]
      rfl
    exact hstructs.trans hpcbs
  · have hnone : s.liveStructs = 0 := by
      refine Finset.card_eq_zero.2 (Finset.filter_eq_empty_iff.2 ?_)
      rintro es hlt ⟨-, hfree⟩
      have hcount := h.freed es (Finset.mem_range.1 hlt) fun hes ↦ hopen ⟨es, hes⟩
      rw [count_structActs rfl] at hcount
      exact hfree (List.count_pos_iff.1 (hcount ▸ Nat.one_pos))
    exact hnone.le.trans (Nat.zero_le _)

theorem Accounted.noLeak (h : Accounted a s) (ht : Tracks a s) : NoLeak s where
  freed es hes hlive := by
    rw [← count_structActs rfl]
    refine h.freed es ((h.known es).1 ((mem_structActs rfl).2 hes)) ?_
    intro hopen
    rw [(h.held es hopen).2.1, hopen] at hlive
    exact Bool.noConfusion hlive
  once es := by
    rw [← count_structActs rfl]
    rcases Nat.lt_or_ge es s.nextEs with hlt | hge
    · by_cases hopen : s.pcbs s.tcppcb = .opened es
      · exact (h.held es hopen).2.2.le.trans Nat.one_pos.le
      · exact (h.freed es hlt hopen).le
    · exact (h.fresh es hge).le.trans Nat.one_pos.le
  few := h.few ht

/-- A structure is lost with its connection. -/
theorem not_noLeak (h : Accounted a s) (hes : s.pcbs s.tcppcb = .opened es)
    (hlive : (s'.pcbs s.tcppcb).live = false) (hspec : s'.es = s.es)
    (hacts : structActs s'.log = structActs s.log) : ¬ NoLeak s' := by
  intro hleak
  obtain ⟨hlt, howner, hcount⟩ := h.held es hes
  have hmem : .memMalloc es ∈ s'.log := by
    rw [← mem_structActs rfl, hacts]
    exact (h.known es).2 hlt
  have hone := hleak.freed es hmem (by rwa [hspec, howner])
  rw [← count_structActs rfl, hacts, hcount] at hone
  exact Nat.zero_ne_one hone

/-! ## What a step does to the structures -/

/-- A callback that leaves the connection open. -/
theorem Accounted.stays {a' : Abs} (h : Accounted a s) (ha : a'.phase ≠ .reset)
    (hpcbs : s'.pcbs s'.tcppcb = s.pcbs s.tcppcb) (htcppcb : s'.tcppcb = s.tcppcb)
    (hnext : s'.nextEs = s.nextEs) (howner : ∀ es, (s'.es es).pcb = (s.es es).pcb)
    (hacts : structActs s'.log = structActs s.log) : Accounted a' s' where
  phase := ha
  known es := by
    rw [hacts, hnext]
    exact h.known es
  fresh es := by
    rw [hacts, hnext]
    exact h.fresh es
  held es hes := by
    rw [hacts, hnext, howner, htcppcb]
    exact h.held es (hpcbs ▸ hes)
  freed es := by
    rw [hacts, hnext, hpcbs]
    exact h.freed es

/-- No connection is open, before and after. -/
theorem Accounted.idle {a' : Abs} (h : Accounted a s) (ha : a'.phase ≠ .reset)
    (hbefore : ∀ es, s.pcbs s.tcppcb ≠ .opened es) (hafter : ∀ es, s'.pcbs s'.tcppcb ≠ .opened es)
    (hnext : s'.nextEs = s.nextEs) (hacts : structActs s'.log = structActs s.log) :
    Accounted a' s' where
  phase := ha
  known es := by
    rw [hacts, hnext]
    exact h.known es
  fresh es := by
    rw [hacts, hnext]
    exact h.fresh es
  held es hes := absurd hes (hafter es)
  freed es hlt _ := by
    rw [hacts]
    exact h.freed es (hnext ▸ hlt) (hbefore es)

/-- A structure is allocated. -/
theorem Accounted.opened {a' : Abs} (h : Accounted a s) (ha : a'.phase ≠ .reset)
    (hbefore : ∀ es, s.pcbs s.tcppcb ≠ .opened es) : Accounted a' (s.opened s.tcppcb) := by
  have hacts : structActs (s.opened s.tcppcb).log = .memMalloc s.nextEs :: structActs s.log := rfl
  have hcount : ∀ es, (structActs (s.opened s.tcppcb).log).count (.memFree es) =
      (structActs s.log).count (.memFree es) := by
    intro es
    rw [hacts, List.count_cons_of_ne]
    exact Act.noConfusion
  have hopen : (s.opened s.tcppcb).pcbs (s.opened s.tcppcb).tcppcb = .opened s.nextEs :=
    Function.update_self ..
  refine ⟨ha, fun es ↦ ?_, fun es hge ↦ ?_, fun es hes ↦ ?_, fun es hlt hne ↦ ?_⟩
  · rw [hacts, List.mem_cons, h.known es, Act.memMalloc.injEq]
    change _ ↔ es < s.nextEs + 1
    omega
  · rw [hcount]
    exact h.fresh es ((Nat.le_succ _).trans hge)
  · obtain rfl := Pcb.opened_inj (hopen.symm.trans hes)
    refine ⟨Nat.lt_succ_self _, ?_, ?_⟩
    · simp only [World.opened, Function.update_self]
    · rw [hcount]
      exact h.fresh _ le_rfl
  · rw [hcount]
    refine h.freed es (lt_of_le_of_ne (Nat.lt_succ_iff.1 hlt) ?_) (hbefore es)
    rintro rfl
    exact hne hopen

/-- The poll callback frees the structure with its connection. -/
theorem Accounted.closed {a' : Abs} (h : Accounted a s) (ha : a'.phase ≠ .reset)
    (hes : s.pcbs s.tcppcb = .opened es) : Accounted a' (s.closed s.tcppcb (some es)) := by
  have hacts : structActs (s.closed s.tcppcb (some es)).log = .memFree es :: structActs s.log := rfl
  obtain ⟨hlt, -, hzero⟩ := h.held es hes
  have hdead : ∀ es', (s.closed s.tcppcb (some es)).pcbs s.tcppcb ≠ .opened es' := by
    refine not_opened ?_
    simp only [World.closed, Function.update_self, Pcb.closed]
  refine ⟨ha, fun es' ↦ ?_, fun es' hge ↦ ?_, fun es' hes' ↦ absurd hes' (hdead es'),
    fun es' hlt' _ ↦ ?_⟩
  · rw [hacts, List.mem_cons, or_iff_right Act.noConfusion]
    exact h.known es'
  · have hne : es ≠ es' := (hlt.trans_le hge).ne
    rw [hacts, List.count_cons_of_ne fun h0 ↦ hne (Act.memFree.inj h0)]
    exact h.fresh es' hge
  · rw [hacts]
    rcases eq_or_ne es es' with rfl | hne
    · rw [List.count_cons_self, hzero]
    · rw [List.count_cons_of_ne fun h0 ↦ hne (Act.memFree.inj h0)]
      exact h.freed es' hlt' fun h' ↦ hne (Pcb.opened_inj (h'.symm.trans hes))

/-- A connection is open in two phases only. -/
theorem Tracks.not_opened (h : Tracks a s) (ha : a.phase ≠ .opened ∧ a.phase ≠ .closing)
    (es : Nat) : s.pcbs s.tcppcb ≠ .opened es := by
  have hphase := h.phase
  cases hp : a.phase with
  | connecting =>
      rw [hp] at hphase
      rw [hphase.1]
      exact fun h0 ↦ TcpState.noConfusion (congrArg Pcb.state h0)
  | opened => exact absurd hp ha.1
  | closing => exact absurd hp ha.2
  | reset =>
      rw [hp] at hphase
      exact Tcp.not_opened hphase.1 es
  | ended =>
      rw [hp] at hphase
      exact Tcp.not_opened hphase.1 es

theorem Tracks.exists_opened (h : Tracks a s) (ha : ¬ (a.phase ≠ .opened ∧ a.phase ≠ .closing)) :
    ∃ es, s.pcbs s.tcppcb = .opened es := by
  have hphase := h.phase
  by_cases hp : a.phase = .opened
  · rw [hp] at hphase
    obtain ⟨es, hes, -⟩ := hphase.es
    exact ⟨es, hes⟩
  · have hp' : a.phase = .closing := by_contra fun h0 ↦ ha ⟨hp, h0⟩
    rw [hp'] at hphase
    obtain ⟨es, hes, -⟩ := hphase.es
    exact ⟨es, hes⟩

/-- Where lwIP may free a connection, and no structure is lost, the connection was being made. -/
theorem Abs.Releases.kept (he : a.Releases e) (hs : Step s e s')
    (ht : Tracks a s) : a.Kept e := by
  cases e with
  | err pcb err =>
      obtain ⟨-, hreset, hended⟩ := ht.live hs.1
      change a.phase = .connecting
      cases hp : a.phase with
      | connecting => rfl
      | opened => exact absurd hp he.1
      | closing => exact absurd hp he.2
      | reset => exact absurd hp hreset
      | ended => exact absurd hp hended
  | _ => trivial

theorem step_accounted (ht : Tracks a s) (h : Accounted a s) (he : a.Releases e)
    (hs : Step s e s') : Accounted (a.next e) s' := by
  have ha : (a.next e).phase ≠ .reset := Abs.next_ne_reset h.phase (he.kept hs ht)
  cases e with
  | connected pcb e mem =>
      have hconn := (ht.connecting hs.1.1 hs.1.2.1).2
      have hbefore := ht.not_opened (by rw [hconn]; decide)
      obtain ⟨rfl, -, rfl⟩ := step_connected ht hs
      split
      · exact h.opened ha hbefore
      · refine h.idle ha hbefore (not_opened ?_) rfl rfl
        simp only [World.closed, World.established, Function.update_self, Pcb.closed]
  | recv pcb packet e =>
      obtain ⟨es, -, hr⟩ := step_recv ht hs
      exact h.stays ha (by rw [hr.pcbs, hr.tcppcb]) hr.tcppcb hr.nextEs hr.owner hr.grows.structActs
  | sent pcb len answers =>
      obtain ⟨es, -, cells, k, ref, log, -, rfl, hsent⟩ := step_sent ht hs
      exact h.stays ha rfl rfl rfl (pcb_update rfl) hsent.grows.structActs
  | poll pcb alloc answers =>
      obtain ⟨es, hes, ⟨-, -, rfl⟩ | ⟨-, -, rfl⟩ | ⟨-, hserved, -⟩⟩ := step_poll ht hs
      · exact h.stays ha rfl rfl rfl (fun _ ↦ rfl) rfl
      · exact h.closed ha hes
      · exact h.stays ha (by rw [hserved.pcbs, hserved.tcppcb]) hserved.tcppcb hserved.nextEs
          hserved.owner hserved.grows.structActs
  | err pcb e =>
      have hbefore := ht.not_opened he
      obtain ⟨rfl, -, rfl⟩ := step_err ht hs
      refine h.idle ha hbefore (not_opened ?_) rfl rfl
      simp only [World.lost, Function.update_self]
  | newData =>
      rcases step_newData hs with rfl | rfl
      · exact h.stays ha rfl rfl rfl (fun _ ↦ rfl) rfl
      · exact h.stays ha rfl rfl rfl (fun _ ↦ rfl) rfl
  | key0 m =>
      rw [step_key0 hs]
      exact h.stays ha rfl rfl rfl (fun _ ↦ rfl) rfl
  | key1 =>
      rw [step_key1 hs]
      refine h.idle ha (ht.not_opened he) (not_opened ?_) rfl rfl
      simp only [World.closed, Function.update_self, Pcb.closed]
  | status =>
      rcases step_status ht hs with ⟨hphase, rfl⟩ | ⟨-, rfl⟩
      · have hbefore := ht.not_opened (by rcases hphase with hp | hp <;> rw [hp] <;> decide)
        refine h.idle ha hbefore (fun es hes ↦ ?_) rfl rfl
        have hattempt : Pcb.attempting = .opened es := (Function.update_self ..).symm.trans hes
        exact TcpState.noConfusion (congrArg Pcb.state hattempt)
      · exact h.stays ha rfl rfl rfl (fun _ ↦ rfl) rfl

theorem accounted_start : Accounted (after []) World.boot.connecting where
  phase := by decide
  known es := iff_of_false List.not_mem_nil (Nat.not_lt_zero es)
  fresh _ _ := rfl
  held es hes := TcpState.noConfusion (congrArg Pcb.state hes)
  freed es hlt := absurd hlt (Nat.not_lt_zero es)

/-- Any other event loses the structure. -/
theorem step_loses (ht : Tracks a s) (h : Accounted a s) (he : ¬ a.Releases e)
    (hs : Step s e s') : ¬ NoLeak s' := by
  cases e with
  | err pcb err =>
      obtain ⟨es, hes⟩ := ht.exists_opened he
      obtain ⟨rfl, -, rfl⟩ := step_err ht hs
      refine not_noLeak h hes ?_ rfl rfl
      simp only [World.lost, Function.update_self]
  | key1 =>
      obtain ⟨es, hes⟩ := ht.exists_opened he
      rw [step_key1 hs]
      refine not_noLeak h hes ?_ rfl rfl
      simp only [World.closed, Function.update_self, Pcb.closed]
  | _ => exact absurd trivial he

/-- **Every structure is freed once by the time its connection has ended, throughout a run, exactly
when every open connection ends in the poll callback.** -/
theorem no_leak_iff (h : Reaches Start Step history s) :
    Throughout Start Step (fun _ s ↦ NoLeak s) history ↔
      Meets (fun past e ↦ (after past).Releases e) history := by
  refine throughout_iff (I := fun past s ↦ Accounted (after past) s) ?_ ?_ ?_ ?_ h
  · intro s hs
    rw [start_iff.1 hs]
    exact accounted_start
  · exact fun past s e s' hpast hI he hs ↦ step_accounted (reaches_tracks hpast) hI he hs
  · exact fun past s hpast hI ↦ hI.noLeak (reaches_tracks hpast)
  · exact fun past s e s' hpast hI he hs ↦ step_loses (reaches_tracks hpast) hI he hs

/-- The peer closes, and the poll callback does. -/
def closeRun : List Event :=
  [.poll 0 none ⟨fun _ ↦ 0, fun _ ↦ ERR_OK⟩, .recv 0 none ERR_OK, .connected 0 ERR_OK true]

theorem reaches_close : ∃ s, Reaches Start Step closeRun s := by
  have hrecv := run_recv_none (reaches_tracks reaches_opened).upward
    (show (openedState.pcbs 0).callbackArg = some 0 from rfl) ERR_OK
  obtain ⟨_, t, hbody, ht⟩ := hrecv
  have hpcb : t.pcbs 0 = .opened 0 := by
    rw [ht.pcbs]
    rfl
  have hsend : t.tcpClientFlag &&& LWIP_SEND_DATA = 0 := ht.sending.trans (by decide)
  have hpoll : (Event.poll 0 none ⟨fun _ ↦ 0, fun _ ↦ ERR_OK⟩).body t =
      some ((), t.closed 0 (some 0)) :=
    run_poll_close (show (t.pcbs 0).callbackArg = some 0 by rw [hpcb]; rfl) hsend ht.state
  refine ⟨_, .step (.step reaches_opened ⟨⟨rfl, rfl, fun h0 ↦ nomatch h0⟩, hbody⟩)
    ⟨⟨?_, ?_, fun _ h0 ↦ nomatch h0⟩, hpoll⟩⟩
  · rw [hpcb]
    rfl
  · rw [hpcb]
    rfl

/-- Then nothing is lost. -/
theorem no_leak_iff_closed : ∃ s, Reaches Start Step closeRun s ∧ NoLeak s := by
  obtain ⟨s, hs⟩ := reaches_close
  refine ⟨s, hs, ((no_leak_iff hs).2 ?_).now hs⟩
  exact meets_cons.2 ⟨trivial, meets_cons.2 ⟨trivial, meets_cons.2 ⟨trivial, meets_nil⟩⟩⟩

/-- The peer resets the connection. -/
theorem leak_after_reset : ¬ ∀ history s, Reaches Start Step history s → NoLeak s := by
  intro h
  have hopened : Accounted (after [.connected 0 ERR_OK true]) openedState :=
    step_accounted tracks_start accounted_start (e := .connected 0 ERR_OK true) trivial
      ⟨⟨rfl, rfl, rfl⟩, run_connected rfl rfl ERR_OK true⟩
  refine step_loses (reaches_tracks reaches_opened) hopened (e := .err 0 ERR_RST) ?_
    ⟨rfl, run_err openedState 0 ERR_RST⟩ (h _ _ reaches_reset)
  exact fun hrel ↦ hrel.1 rfl

end Stm32F1.Tcp
