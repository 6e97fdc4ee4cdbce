import Stm32F1.Tcp.Ownership

/-!
# What becomes of a message

A message waits in `tcp_client_sendbuf` until the poll callback copies it into a
chain of buffers.  What lwIP takes of the chain then and there is all that is ever
sent of it: the rest is freed in the same call, and nothing asks for it again.
-/

namespace Stm32F1.Tcp

open Prog

variable {a : Abs} {s s' : World} {e : Event} {history : List Event} {p : Option Nat}

/-- The bytes that can still be reached from a pointer, in buffers that were not released. -/
inductive Unsent (h : Nat → Pbuf) : Option Nat → List UInt8 → Prop
  | null : Unsent h none []
  | released {q : Nat} : refs h q = 0 → Unsent h (some q) []
  | cons {q : Nat} {bytes : List UInt8} : refs h q ≠ 0 → Unsent h (links h q) bytes →
      Unsent h (some q) (payloads h q ++ bytes)

/-- The message that was asked for last is whole: it still waits, or what was written of it and what
is still to be written make it up. -/
def Whole (s : World) : Prop :=
  ∀ pcb es m, (s.pcbs pcb).live → (s.pcbs pcb).callbackArg = some es → asked s.log = some m →
    s.tcpClientFlag &&& LWIP_SEND_DATA ≠ 0 ∧ accepted s.log = [] ∨
    ∃ bytes, Unsent s.pbufs (s.es es).p bytes ∧ accepted s.log ++ bytes = m

/-- If a message is sent, the buffers that lwIP takes in a row hold all of it. -/
def Abs.SendsAll (a : Abs) : Event → Prop
  | .poll _ alloc answers => ∀ m, a.wanted = some m → ∃ k ≤ (alloc.getD []).length,
      (∀ j, (h : j < (alloc.getD []).length) → j < k →
        answers.Takes j (alloc.getD [])[j].length) ∧
      ((alloc.getD []).take k).flatten.length = m.bytes.length
  | _ => True

/-! ## Chains that hold nothing -/

/-- The buffers that are met from a pointer on are known, and empty. -/
def Blank (s : World) (p : Option Nat) : Prop :=
  ∃ cells, Chain (links s.pbufs) p cells ∧ ∀ q ∈ cells, q < s.nextPbuf ∧ payloads s.pbufs q = []

theorem blank_none (s : World) : Blank s none := ⟨[], .nil, fun _ hq ↦ absurd hq List.not_mem_nil⟩

theorem Unsent.of_blank {cells : List Nat} {h : Nat → Pbuf} {bytes : List UInt8}
    (hcells : Chain (links h) p cells) (hempty : ∀ q ∈ cells, payloads h q = [])
    (hbytes : Unsent h p bytes) : bytes = [] := by
  induction hcells generalizing bytes with
  | nil =>
      cases hbytes with
      | null => rfl
  | @cons q cells _ ih =>
      cases hbytes with
      | released _ => rfl
      | cons _ hrest =>
          have hq := hempty q (List.mem_cons_self ..)
          rw [hq, ih (fun r hr ↦ hempty r (List.mem_cons_of_mem q hr)) hrest]
          rfl

/-- Something can be said about every chain. -/
theorem exists_unsent {cells : List Nat} {h : Nat → Pbuf} (hcells : Chain (links h) p cells) :
    ∃ bytes, Unsent h p bytes := by
  induction hcells with
  | nil => exact ⟨[], .null⟩
  | @cons q cells _ ih =>
      by_cases hq : refs h q = 0
      · exact ⟨[], .released hq⟩
      · obtain ⟨bytes, hbytes⟩ := ih
        exact ⟨_, .cons hq hbytes⟩

theorem Blank.unsent (h : Blank s p) : Unsent s.pbufs p [] := by
  obtain ⟨cells, hcells, hempty⟩ := h
  obtain ⟨bytes, hbytes⟩ := exists_unsent hcells
  obtain rfl := hbytes.of_blank hcells fun q hq ↦ (hempty q hq).2
  exact hbytes

/-- A buffer that is known keeps its link and its contents when a packet arrives. -/
theorem Blank.received {es : Nat} {last : Bool} (h : Blank s p) (hr : Received s es last none s') :
    Blank s' p := by
  obtain ⟨cells, hcells, hempty⟩ := h
  refine ⟨cells, hcells.congr fun q hq ↦ (hr.old q (hempty q hq).1).1, fun q hq ↦ ?_⟩
  obtain ⟨hknown, hq⟩ := hempty q hq
  exact ⟨hknown.trans_le hr.nextPbuf, (hr.old q hknown).2.trans hq⟩

/-! ## Between callbacks -/

/-- A message that waits was not begun, one that was sent is complete, and nothing is left over. -/
structure Intact (a : Abs) (s : World) : Prop where
  waiting : ∀ m, a.wanted = some m → asked s.log = some m.bytes ∧ accepted s.log = []
  sent : a.wanted = none → ∀ m, asked s.log = some m → accepted s.log = m
  blank : ∀ es, s.pcbs s.tcppcb = .opened es → Blank s (s.es es).p

theorem Intact.whole (h : Intact a s) (ht : Tracks a s) : Whole s := by
  intro pcb es m hlive harg hm
  cases hw : a.wanted with
  | some m' => exact .inl ⟨ht.sending.2 (hw ▸ rfl), (h.waiting m' hw).2⟩
  | none =>
      refine .inr ⟨[], (h.blank es (ht.opened_of_arg hlive harg)).unsent, ?_⟩
      rw [List.append_nil]
      exact h.sent hw m hm

/-- An event that has to do neither with messages nor with buffers. -/
theorem Intact.same (h : Intact a s) {a' : Abs} (hw : a'.wanted = a.wanted)
    (hasked : asked s'.log = asked s.log) (haccepted : accepted s'.log = accepted s.log)
    (hblank : ∀ es, s'.pcbs s'.tcppcb = .opened es → Blank s' (s'.es es).p) : Intact a' s' where
  waiting m hm := by
    rw [hasked, haccepted]
    exact h.waiting m (hw.symm.trans hm)
  sent hnone m hm := by
    rw [haccepted]
    exact h.sent (hw.symm.trans hnone) m (hasked.symm.trans hm)
  blank := hblank

theorem Intact.closed (h : Intact a s) {a' : Abs} (hw : a'.wanted = a.wanted) (es : Option Nat) :
    Intact a' (s.closed s.tcppcb es) := by
  refine h.same hw (asked_closeLog ..) (accepted_closeLog ..) fun es' hes' ↦ ?_
  refine absurd hes' (not_opened ?_ es')
  simp only [World.closed, Function.update_self, Pcb.closed]

theorem Intact.failed (h : Intact a s) {a' : Abs} (hw : a'.wanted = a.wanted) :
    Intact a' ((s.established s.tcppcb).closed s.tcppcb none) := by
  have hasked : asked (closeLog s.tcppcb none s.log) = asked s.log := asked_closeLog ..
  have haccepted : accepted (closeLog s.tcppcb none s.log) = accepted s.log := accepted_closeLog ..
  refine h.same hw hasked haccepted fun es' hes' ↦ ?_
  refine absurd hes' (not_opened ?_ es')
  simp only [World.closed, World.established, Function.update_self, Pcb.closed]

theorem Intact.opened (h : Intact a s) {a' : Abs} (hw : a'.wanted = a.wanted) :
    Intact a' (s.opened s.tcppcb) := by
  refine h.same hw rfl rfl fun es hes ↦ ?_
  simp only [World.opened, Function.update_self] at hes ⊢
  rw [Pcb.opened_inj hes, Function.update_self]
  exact blank_none _

theorem Intact.lost (h : Intact a s) {a' : Abs} (hw : a'.wanted = a.wanted) :
    Intact a' (s.lost s.tcppcb) := by
  refine h.same hw rfl rfl fun es hes ↦ ?_
  refine absurd hes (not_opened ?_ es)
  simp only [World.lost, Function.update_self]

theorem Intact.connecting (h : Intact a s) {a' : Abs} (hw : a'.wanted = a.wanted) :
    Intact a' s.connecting := by
  refine h.same hw rfl rfl fun es hes ↦ ?_
  simp only [World.connecting, Function.update_self] at hes
  exact TcpState.noConfusion (congrArg Pcb.state hes)

theorem Intact.received {es : Nat} {last : Bool} (h : Intact a s) {a' : Abs}
    (hw : a'.wanted = a.wanted) (hes : s.pcbs s.tcppcb = .opened es)
    (hr : Received s es last none s') : Intact a' s' := by
  refine h.same hw hr.asked hr.accepted fun es' hes' ↦ ?_
  rw [hr.pcbs, hr.tcppcb, hes] at hes'
  rw [Pcb.opened_inj hes']
  rcases hr.p with hp | hp
  · rw [hp]
    exact blank_none s'
  · rw [hp]
    exact (h.blank es hes).received hr

/-- When data is acknowledged, only empty buffers are written. -/
theorem Intact.acknowledged {es k : Nat} {cells : List Nat} {ref : Nat → UInt16} {log : List Act}
    (h : Intact a s) (hes : s.pcbs s.tcppcb = .opened es)
    (hcells : Chain (links s.pbufs) (s.es es).p cells) (hsent : Sent s cells k ref log) :
    Intact a (s.movedOn es cells k ref log) := by
  obtain ⟨cells', hcells', hempty⟩ := h.blank es hes
  obtain rfl := hcells'.unique hcells
  have hnothing : (cells'.take k).flatMap (payloads s.pbufs) = [] :=
    List.flatMap_eq_nil_iff.2 fun q hq ↦ (hempty q (List.mem_of_mem_take hq)).2
  have haccepted : accepted log = accepted s.log := by
    refine hsent.accepted.trans ?_
    change accepted s.log ++ (cells'.take k).flatMap (payloads s.pbufs) = _
    rw [hnothing, List.append_nil]
  refine h.same rfl hsent.asked haccepted fun es' hes' ↦ ?_
  rw [Pcb.opened_inj (hes.symm.trans hes')]
  have hp : ((s.movedOn es cells' k ref log).es es).p = (cells'.drop k).head? := by
    simp only [World.movedOn, Function.update_self]
  rw [hp]
  exact ⟨cells'.drop k, hcells.drop k, fun q hq ↦ hempty q (List.mem_of_mem_drop hq)⟩

/-! ## Sending -/

variable {alloc : Option (List (List UInt8))} {answers : Answers} {m : Message}

/-- The buffers of a message hold as many bytes as the message has, or there is none. -/
theorem flatten_length_le {segs : List (List UInt8)}
    (hlen : ∀ segs, alloc = some segs → segs.flatten.length = s.text.length)
    (hsegs : alloc.getD [] = segs) : segs.flatten.length ≤ s.text.length := by
  subst hsegs
  cases alloc with
  | none => exact Nat.zero_le _
  | some segs => exact (hlen segs rfl).le

theorem length_take_flatten_mono {segs : List (List UInt8)} {j k : Nat} (h : j ≤ k) :
    (segs.take j).flatten.length ≤ (segs.take k).flatten.length := by
  have hprefix : (segs.take j).flatten <+: (segs.take k).flatten := by
    obtain ⟨rest, hrest⟩ := List.take_prefix_take_left h
    rw [← hrest, List.flatten_append]
    exact List.prefix_append _ _
  exact hprefix.length_le

/-- The number of bytes that are written is the length of the message exactly when lwIP takes
enough buffers in a row. -/
theorem sends_all_iff {pcb : Nat} (hm : a.wanted = some m)
    (hlen : (alloc.getD []).flatten.length ≤ m.bytes.length) :
    a.SendsAll (.poll pcb alloc answers) ↔
      ((alloc.getD []).take (handed answers 0 ((alloc.getD []).map List.length))).flatten.length =
        m.bytes.length := by
  set segs := alloc.getD [] with hsegs
  have hbound : handed answers 0 (segs.map List.length) ≤ segs.length := by
    have hle := handed_le_length answers 0 (segs.map List.length)
    rwa [List.length_map] at hle
  have hrow : ∀ k ≤ segs.length, k ≤ handed answers 0 (segs.map List.length) ↔
      ∀ j, (h : j < segs.length) → j < k → answers.Takes j segs[j].length := by
    intro k hk
    rw [le_handed_iff (by rwa [List.length_map])]
    simp only [List.length_map, List.getElem_map, Nat.zero_add]
  constructor
  · intro h
    obtain ⟨k, hk, htakes, hall⟩ := h m hm
    refine le_antisymm ?_ ?_
    · refine le_trans ?_ hlen
      exact ((List.take_sublist _ _).flatten).length_le
    · rw [← hall]
      exact length_take_flatten_mono ((hrow k hk).2 htakes)
  · intro h m' hm'
    obtain rfl := Option.some.inj (hm.symm.trans hm')
    exact ⟨_, hbound, (hrow _ hbound).1 le_rfl, h⟩

/-- A message that was sent as a whole. -/
theorem Intact.served {es k : Nat} {segs : List (List UInt8)} {a' : Abs} (h : Intact a s)
    (ht : Tracks a s) (hw : a'.wanted = none) (hes : s.pcbs s.tcppcb = .opened es)
    (hm : a.wanted = some m) (hs : Served s es segs k s')
    (hall : (segs.take k).flatten.length = m.bytes.length) : Intact a' s' where
  waiting m' hm' := absurd (hw.symm.trans hm') (Option.some_ne_none m').symm
  sent _ bytes hbytes := by
    obtain ⟨hasked, hnone⟩ := h.waiting m hm
    obtain rfl : m.bytes = bytes :=
      Option.some.inj (hasked.symm.trans (hs.asked.symm.trans hbytes))
    rw [hs.accepted, hnone, ht.text m hm, hall, List.take_length, List.nil_append]
  blank es' hes' := by
    rw [hs.pcbs, hs.tcppcb, hes] at hes'
    rw [Pcb.opened_inj hes']
    have hrest : ((s.fresh segs).drop k).flatMap (payloads s'.pbufs) = [] := by
      rw [hs.rest, ht.text m hm, hall]
      refine List.drop_eq_nil_of_le ?_
      rw [List.length_take]
      exact Nat.min_le_right ..
    refine ⟨_, hs.chain, fun q hq ↦ ⟨hs.known q (List.mem_of_mem_drop hq), ?_⟩⟩
    exact List.flatMap_eq_nil_iff.1 hrest q hq

/-- Of a message that was not sent as a whole, nothing is left to be sent. -/
theorem Intact.torn {es k : Nat} {segs : List (List UInt8)} (h : Intact a s) (ht : Tracks a s)
    (hes : s.pcbs s.tcppcb = .opened es) (hm : a.wanted = some m) (hs : Served s es segs k s')
    (hlen : segs.flatten.length ≤ m.bytes.length)
    (hnot : (segs.take k).flatten.length ≠ m.bytes.length) : ¬ Whole s' := by
  intro hwhole
  obtain ⟨hasked, hnone⟩ := h.waiting m hm
  have hlive : (s'.pcbs s.tcppcb).live := by
    rw [hs.pcbs, hes]
    rfl
  have harg : (s'.pcbs s.tcppcb).callbackArg = some es := by
    rw [hs.pcbs, hes]
    rfl
  rcases hwhole _ es _ hlive harg (hs.asked.trans hasked) with ⟨hsend, -⟩ | ⟨bytes, hbytes, heq⟩
  · exact hsend hs.sending
  · have hnil : bytes = [] := by
      cases hp : (s'.es es).p with
      | none =>
          rw [hp] at hbytes
          cases hbytes with
          | null => rfl
      | some q =>
          have hfreed := hs.freed q hp
          rw [hp] at hbytes
          cases hbytes with
          | released _ => rfl
          | cons hq _ => exact absurd hfreed hq
    rw [hs.accepted, hnone, hnil, List.append_nil, List.nil_append, ht.text m hm] at heq
    have hfew : (segs.take k).flatten.length < m.bytes.length :=
      lt_of_le_of_ne (((List.take_sublist k segs).flatten.length_le).trans hlen) hnot
    have := congrArg List.length heq
    rw [List.length_take] at this
    omega

/-- **Every event keeps the message whole** if lwIP takes all of it at once. -/
theorem Intact.step (h : Intact a s) (ht : Tracks a s) (he : a.SendsAll e) (hs : Step s e s') :
    Intact (a.next e) s' := by
  cases e with
  | connected pcb e mem =>
      obtain ⟨-, -, rfl⟩ := step_connected ht hs
      split
      · exact h.opened rfl
      · exact h.failed rfl
  | recv pcb packet e =>
      obtain ⟨es, hes, hr⟩ := step_recv ht hs
      exact h.received rfl hes hr
  | sent pcb len answers =>
      obtain ⟨es, hes, cells, k, ref, log, hcells, rfl, hsent⟩ := step_sent ht hs
      exact h.acknowledged hes hcells hsent
  | poll pcb alloc answers =>
      obtain ⟨es, hes, hcases⟩ := step_poll ht hs
      rcases hcases with ⟨hw, -, rfl⟩ | ⟨hw, -, rfl⟩ | ⟨hw, hserved, hlen⟩
      · refine h.same ?_ rfl rfl h.blank
        simp only [Abs.next, hw, Option.isSome_none, Bool.false_eq_true, if_false]
      · refine h.closed ?_ (some es)
        simp only [Abs.next, hw, Option.isSome_none, Bool.false_eq_true, if_false]
      · obtain ⟨m, hm⟩ := Option.isSome_iff_exists.1 hw
        have hfits := flatten_length_le hlen rfl
        rw [ht.text m hm] at hfits
        refine h.served ht ?_ hes hm hserved ((sends_all_iff hm hfits).1 he)
        simp only [Abs.next, hw, if_true]
  | err pcb e =>
      obtain ⟨-, -, rfl⟩ := step_err ht hs
      exact h.lost rfl
  | newData =>
      rcases step_newData hs with rfl | rfl
      · exact h
      · exact h.same rfl rfl rfl h.blank
  | key0 m =>
      rw [step_key0 hs]
      refine ⟨fun m' hm' ↦ ?_, fun hnone ↦ absurd hnone (Option.some_ne_none m), h.blank⟩
      obtain rfl := Option.some.inj hm'
      exact ⟨rfl, rfl⟩
  | key1 =>
      rw [step_key1 hs]
      have hwanted : (a.next .key1).wanted = a.wanted := rfl
      exact h.closed hwanted none
  | status =>
      rcases step_status ht hs with ⟨-, rfl⟩ | ⟨-, rfl⟩
      · have hclosed : Intact a (s.closed s.tcppcb none) := h.closed rfl none
        exact hclosed.connecting rfl
      · exact h.same rfl rfl rfl h.blank

theorem intact_start : Intact (after []) World.boot.connecting where
  waiting m hm := absurd hm (Option.some_ne_none m).symm
  sent _ m hm := absurd hm (Option.some_ne_none m).symm
  blank es hes := by
    simp only [World.connecting, Function.update_self] at hes
    exact TcpState.noConfusion (congrArg Pcb.state hes)

/-- **No message is lost or torn throughout a run exactly when the poll callback hands all of every
message over.** -/
theorem message_whole_iff (h : Reaches Start Step history s) :
    Throughout Start Step (fun _ s ↦ Whole s) history ↔
      Meets (fun past e ↦ (after past).SendsAll e) history := by
  refine throughout_iff (I := fun past s ↦ Intact (after past) s) ?_ ?_ ?_ ?_ h
  · intro s hs
    rw [start_iff.1 hs]
    exact intact_start
  · exact fun past s e s' hpast hintact he hs ↦ hintact.step (reaches_tracks hpast) he hs
  · exact fun past s hpast hintact ↦ hintact.whole (reaches_tracks hpast)
  · intro past s e s' hpast hintact he hs
    have ht := reaches_tracks hpast
    cases e with
    | poll pcb alloc answers =>
        obtain ⟨es, hes, hcases⟩ := step_poll ht hs
        rcases hcases with ⟨hw, -, -⟩ | ⟨hw, -, -⟩ | ⟨hw, hserved, hlen⟩
        · exact absurd (fun m hm ↦ absurd (hw.symm.trans hm) (Option.some_ne_none m).symm) he
        · exact absurd (fun m hm ↦ absurd (hw.symm.trans hm) (Option.some_ne_none m).symm) he
        · obtain ⟨m, hm⟩ := Option.isSome_iff_exists.1 hw
          have hfits := flatten_length_le hlen rfl
          rw [ht.text m hm] at hfits
          exact hintact.torn ht hes hm hserved hfits (mt (sends_all_iff hm hfits).2 he)
    | _ => exact absurd trivial he

/-- A run in which lwIP takes the message. -/
theorem message_whole_iff_willing :
    ∃ s, Reaches Start Step (polledRun .willing) s ∧ Whole s := by
  obtain ⟨s, hs, -⟩ := reaches_polled .willing
  have hsends : (after askedRun).SendsAll (.poll 0 (some clientSegs) .willing) := by
    rintro _ ⟨⟩
    exact ⟨1, by decide, by decide, by decide⟩
  have hall := (message_whole_iff hs).2 (meets_cons.2 ⟨hsends, meets_cons.2 ⟨trivial,
    meets_cons.2 ⟨trivial, meets_nil⟩⟩⟩)
  exact ⟨s, hs, hall.now hs⟩

/-- A message that does not fit into the send buffer of lwIP is lost. -/
theorem message_lost_when_full : ¬ ∀ history s, Reaches Start Step history s → Whole s := by
  intro h
  obtain ⟨s, hs, hserved⟩ := reaches_polled .full
  have hopened : Intact (after [.connected 0 ERR_OK true]) openedState := intact_start.opened rfl
  have hintact : Intact (after askedRun) (openedState.requested clientText) := by
    have hstep : Step openedState (.key0 clientText) (openedState.requested clientText) :=
      ⟨trivial, run_key0 openedState clientText⟩
    exact hopened.step (e := .key0 clientText) (reaches_tracks reaches_opened) trivial hstep
  exact hintact.torn (reaches_tracks reaches_asked) rfl rfl hserved (by decide) (by decide)
    (h _ _ hs)

end Stm32F1.Tcp
