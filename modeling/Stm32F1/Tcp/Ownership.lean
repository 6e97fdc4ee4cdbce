import Stm32F1.Tcp.Lifetime

/-!
# Who owns the packet buffers

The client takes a reference when it allocates a chain and for every buffer it
moves on to, and releases one for every buffer it has written.  As long as lwIP
takes all buffers of a chain at once, `es->p` is `NULL` between callbacks.  If it
does not, the poll callback frees the rest, and leaves `es->p` pointing to it.
-/

namespace Stm32F1.Tcp

open Prog

variable {a : Abs} {s s' : World} {e : Event} {history : List Event}

/-- No reference was released twice, and while a connection is open, the client holds exactly the
reference that `es->p` stands for. -/
structure PbufOwned (s : World) : Prop where
  covered : Covered Act.effect s.log
  held : ∀ pcb es, (s.pcbs pcb).live → (s.pcbs pcb).callbackArg = some es →
    ∀ q, held s.log q = stake (s.es es).p q

/-- If a message is sent, lwIP takes every buffer. -/
def Abs.TakesAll (a : Abs) : Event → Prop
  | .poll _ alloc answers => a.wanted.isSome →
      ∀ j, (h : j < (alloc.getD []).length) → answers.Takes j (alloc.getD [])[j].length
  | _ => True

theorem takes_all_iff {segs : List (List UInt8)} {answers : Answers} :
    (∀ j, (h : j < segs.length) → answers.Takes j segs[j].length) ↔
      handed answers 0 (segs.map List.length) = segs.length := by
  have hle : segs.length ≤ handed answers 0 (segs.map List.length) ↔ _ :=
    le_handed_iff (by rw [List.length_map])
  have hge := handed_le_length answers 0 (segs.map List.length)
  rw [List.length_map] at hge
  constructor
  · intro h
    refine le_antisymm hge (hle.2 fun j hj _ ↦ ?_)
    rw [List.length_map] at hj
    simpa using h j hj
  · intro h j hj
    have := hle.1 h.ge j (by simpa using hj) hj
    simpa using this

/-! ## Between callbacks -/

/-- Between callbacks the client holds no reference. -/
structure Settled (s : World) : Prop where
  covered : Covered Act.effect s.log
  held : ∀ q, held s.log q = 0
  p : ∀ es, s.pcbs s.tcppcb = .opened es → (s.es es).p = none

theorem Settled.owned (h : Settled s) (ht : Tracks a s) : PbufOwned s where
  covered := h.covered
  held pcb es hlive harg q := by
    rw [h.held, h.p es (ht.opened_of_arg hlive harg), stake_none]

theorem Pcb.opened_inj {es es' : Nat} (h : Pcb.opened es = .opened es') : es' = es :=
  (Option.some.inj (congrArg Pcb.callbackArg h)).symm

/-- A connection that was freed is not open. -/
theorem not_opened {c : Pcb} (hlive : c.live = false) (es : Nat) : c ≠ .opened es := by
  rintro rfl
  exact Bool.noConfusion hlive

theorem Settled.closed (h : Settled s) (es : Option Nat) : Settled (s.closed s.tcppcb es) where
  covered := covered_closeLog h.covered s.tcppcb es
  held q := (held_closeLog s.tcppcb es s.log q).trans (h.held q)
  p es' hes' := by
    refine absurd hes' (not_opened ?_ es')
    simp only [World.closed, Function.update_self, Pcb.closed]

theorem Settled.failed (h : Settled s) :
    Settled ((s.established s.tcppcb).closed s.tcppcb none) where
  covered := covered_closeLog h.covered s.tcppcb none
  held q := (held_closeLog s.tcppcb none s.log q).trans (h.held q)
  p es' hes' := by
    refine absurd hes' (not_opened ?_ es')
    simp only [World.closed, World.established, Function.update_self, Pcb.closed]

theorem Settled.opened (h : Settled s) : Settled (s.opened s.tcppcb) where
  covered :=
    ((((((h.covered.cons fun _ ↦ le_rfl).cons fun _ ↦ le_rfl).cons fun _ ↦ le_rfl).cons
      fun _ ↦ le_rfl).cons fun _ ↦ le_rfl).cons fun _ ↦ le_rfl).cons fun _ ↦ le_rfl
  held q := by simp [World.opened, held_cons, Act.effect, h.held q]
  p es hes := by
    simp only [World.opened, Function.update_self] at hes ⊢
    rw [Pcb.opened_inj hes, Function.update_self]

theorem Settled.lost (h : Settled s) : Settled (s.lost s.tcppcb) where
  covered := h.covered.cons fun _ ↦ le_rfl
  held q := (Int.zero_add _).trans (h.held q)
  p es hes := by
    refine absurd hes (not_opened ?_ es)
    simp only [World.lost, Function.update_self]

theorem Settled.connecting (h : Settled s) : Settled s.connecting where
  covered := (h.covered.cons fun _ ↦ le_rfl).cons fun _ ↦ le_rfl
  held q := by simp [World.connecting, held_cons, Act.effect, h.held q]
  p es hes := by
    simp only [World.connecting, Function.update_self] at hes
    exact TcpState.noConfusion (congrArg Pcb.state hes)

/-- Neither a received packet nor its end leaves a reference behind. -/
theorem Settled.received {es : Nat} {last : Bool} (h : Settled s)
    (hes : s.pcbs s.tcppcb = .opened es) (hr : Received s es last none s') : Settled s' where
  covered := hr.covered h.covered
  held q := by rw [hr.held, h.held, stake_none, Int.zero_add]
  p es' hes' := by
    rw [hr.pcbs, hr.tcppcb, hes] at hes'
    rw [Pcb.opened_inj hes']
    rcases hr.p with hp | hp
    · exact hp
    · exact hp.trans (h.p es hes)

/-- There is nothing to go on with when data is acknowledged. -/
theorem Settled.sent {es k : Nat} {cells : List Nat} {ref : Nat → UInt16} {log : List Act}
    (h : Settled s) (hes : s.pcbs s.tcppcb = .opened es)
    (hcells : Chain (links s.pbufs) (s.es es).p cells) (hsent : Sent s cells k ref log) :
    Settled (s.movedOn es cells k ref log) := by
  have hp := h.p es hes
  rw [hp] at hcells
  cases hcells with
  | nil =>
      have hnone : ∀ q, stake (List.drop k ([] : List Nat)).head? q = 0 := by
        intro q
        rw [List.drop_nil]
        rfl
      refine ⟨hsent.covered h.covered fun q ↦ (h.held q).ge, fun q ↦ ?_, fun es' hes' ↦ ?_⟩
      · have hq := hsent.held q
        rw [hnone, h.held] at hq
        exact (Int.add_zero _).symm.trans hq
      · rw [Pcb.opened_inj (hes.symm.trans hes')]
        simp only [World.movedOn, Function.update_self, List.drop_nil, List.head?_nil]

/-- A message of which lwIP took everything is gone. -/
theorem Settled.served {es k : Nat} {segs : List (List UInt8)} (h : Settled s)
    (hes : s.pcbs s.tcppcb = .opened es) (hs : Served s es segs k s') (hk : k = segs.length) :
    Settled s' where
  covered := hs.covered h.covered
  held q := (hs.held q).trans (h.held q)
  p es' hes' := by
    rw [hs.pcbs, hs.tcppcb, hes] at hes'
    rw [Pcb.opened_inj hes', hs.p, hk, World.fresh, List.drop_of_length_le (by simp)]
    rfl

/-- **Every event keeps the client settled** if lwIP takes every buffer of a message. -/
theorem Settled.step (h : Settled s) (ht : Tracks a s) (he : a.TakesAll e) (hs : Step s e s') :
    Settled s' := by
  cases e with
  | connected pcb e mem =>
      obtain ⟨-, -, rfl⟩ := step_connected ht hs
      split
      · exact h.opened
      · exact h.failed
  | recv pcb packet e =>
      obtain ⟨es, hes, hr⟩ := step_recv ht hs
      exact h.received hes hr
  | sent pcb len answers =>
      obtain ⟨es, hes, cells, k, ref, log, hcells, rfl, hsent⟩ := step_sent ht hs
      exact h.sent hes hcells hsent
  | poll pcb alloc answers =>
      obtain ⟨es, hes, hcases⟩ := step_poll ht hs
      rcases hcases with ⟨-, -, rfl⟩ | ⟨-, -, rfl⟩ | ⟨hw, hserved, -⟩
      · exact h
      · exact h.closed (some es)
      · exact h.served hes hserved (takes_all_iff.1 (he hw))
  | err pcb e =>
      obtain ⟨-, -, rfl⟩ := step_err ht hs
      exact h.lost
  | newData =>
      rcases step_newData hs with rfl | rfl
      · exact h
      · exact ⟨h.covered, h.held, h.p⟩
  | key0 m =>
      rw [step_key0 hs]
      exact ⟨h.covered.cons fun _ ↦ le_rfl, fun q ↦ (Int.zero_add _).trans (h.held q), h.p⟩
  | key1 =>
      rw [step_key1 hs]
      exact h.closed none
  | status =>
      rcases step_status ht hs with ⟨-, rfl⟩ | ⟨-, rfl⟩
      · exact (h.closed none).connecting
      · exact h

theorem settled_start : Settled World.boot.connecting :=
  Settled.connecting ⟨covered_nil, fun _ ↦ rfl, fun _ _ ↦ rfl⟩

/-! ## What lwIP does not take -/

/-- If something of a message is left, `es->p` points to a buffer on which no reference is held. -/
theorem Settled.left {es k : Nat} {segs : List (List UInt8)} (h : Settled s)
    (hes : s.pcbs s.tcppcb = .opened es) (hs : Served s es segs k s') (hk : k < segs.length) :
    ¬ PbufOwned s' := by
  intro howned
  have hlt : k < (s.fresh segs).length := by
    rw [World.fresh, List.length_range']
    exact hk
  have hp : (s'.es es).p = some (s.fresh segs)[k] := by
    rw [hs.p, List.head?_drop, List.getElem?_eq_getElem hlt]
  have hnow := howned.held s.tcppcb es (by rw [hs.pcbs, hes]; rfl) (by rw [hs.pcbs, hes]; rfl)
    (s.fresh segs)[k]
  rw [hs.held, h.held, hp, stake_some, if_pos rfl] at hnow
  exact absurd hnow (by decide)

/-- **The client owns what it points to throughout a run exactly when lwIP takes every buffer of
every message at once.** -/
theorem pbuf_owned_iff (h : Reaches Start Step history s) :
    Throughout Start Step (fun _ s ↦ PbufOwned s) history ↔
      Meets (fun past e ↦ (after past).TakesAll e) history := by
  refine throughout_iff (I := fun _ s ↦ Settled s) ?_ ?_ ?_ ?_ h
  · intro s hs
    rw [start_iff.1 hs]
    exact settled_start
  · exact fun past s e s' hpast hsettled he hs ↦ hsettled.step (reaches_tracks hpast) he hs
  · exact fun past s hpast hsettled ↦ hsettled.owned (reaches_tracks hpast)
  · intro past s e s' hpast hsettled he hs
    have ht := reaches_tracks hpast
    cases e with
    | poll pcb alloc answers =>
        obtain ⟨hw, hnot⟩ := Classical.not_imp.1 he
        obtain ⟨es, hes, hcases⟩ := step_poll ht hs
        rcases hcases with ⟨hnone, -, -⟩ | ⟨hnone, -, -⟩ | ⟨-, hserved, -⟩
        · rw [hnone] at hw
          exact absurd hw Bool.false_ne_true
        · rw [hnone] at hw
          exact absurd hw Bool.false_ne_true
        · refine hsettled.left hes hserved (lt_of_le_of_ne ?_ fun heq ↦ hnot (takes_all_iff.2 heq))
          have hle := handed_le_length answers 0 ((alloc.getD []).map List.length)
          rwa [List.length_map] at hle
    | _ => exact absurd trivial he

/-! ## One request -/

/-- The connection is made, and a message is asked for. -/
def askedRun : List Event := [.key0 clientText, .connected 0 ERR_OK true]

theorem reaches_asked : Reaches Start Step askedRun (openedState.requested clientText) :=
  .step reaches_opened ⟨trivial, run_key0 openedState clientText⟩

/-- The message is sent in one buffer. -/
def clientSegs : List (List UInt8) := [List.replicate 22 0]

def polledRun (answers : Answers) : List Event := .poll 0 (some clientSegs) answers :: askedRun

theorem reaches_polled (answers : Answers) : ∃ s, Reaches Start Step (polledRun answers) s ∧
    Served (openedState.requested clientText) 0 clientSegs
      (handed answers 0 (clientSegs.map List.length)) s := by
  have halloc : ∀ segs, some clientSegs = some segs → segs ≠ [] ∧ segs.flatten.length =
      strlen (openedState.requested clientText).tcpClientSendbuf := by
    rintro _ ⟨⟩
    exact ⟨by decide, by decide⟩
  have harg : ((openedState.requested clientText).pcbs 0).callbackArg = some 0 := rfl
  obtain ⟨⟨⟩, s, hbody, hserved⟩ := run_poll_send harg
    (by decide) halloc
  exact ⟨s, .step reaches_asked ⟨⟨rfl, rfl, halloc⟩, hbody⟩, hserved⟩

/-- lwIP takes everything. -/
def Answers.willing : Answers := ⟨fun _ ↦ 2920, fun _ ↦ ERR_OK⟩

/-- The send buffer of lwIP is full. -/
def Answers.full : Answers := ⟨fun _ ↦ 0, fun _ ↦ ERR_OK⟩

theorem pbuf_owned_iff_willing :
    ∃ s, Reaches Start Step (polledRun .willing) s ∧ PbufOwned s := by
  obtain ⟨s, hs, -⟩ := reaches_polled .willing
  have htakes : ∀ j, (h : j < clientSegs.length) →
      Answers.willing.Takes j clientSegs[j].length := by decide
  have hall := (pbuf_owned_iff hs).2 (meets_cons.2 ⟨fun _ ↦ htakes, meets_cons.2 ⟨trivial,
    meets_cons.2 ⟨trivial, meets_nil⟩⟩⟩)
  exact ⟨s, hs, hall.now hs⟩

/-- The buffer that did not fit was freed, and `es->p` still points to it. -/
theorem pbuf_owned_not_full : ¬ ∀ history s, Reaches Start Step history s → PbufOwned s := by
  intro h
  obtain ⟨s, hs, hserved⟩ := reaches_polled .full
  have hsettled : Settled (openedState.requested clientText) := by
    have hopened : Settled openedState := settled_start.opened
    have hstep : Step openedState (.key0 clientText) (openedState.requested clientText) :=
      ⟨trivial, run_key0 openedState clientText⟩
    exact hopened.step (e := .key0 clientText) (reaches_tracks reaches_opened) trivial hstep
  exact hsettled.left rfl hserved (by decide) (h _ _ hs)

end Stm32F1.Tcp
