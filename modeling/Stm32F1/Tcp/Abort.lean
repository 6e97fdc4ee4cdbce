import Stm32F1.Tcp.Lifetime

/-!
# Aborting in a callback

A callback that aborts its own connection must return `ERR_ABRT`, which keeps
lwIP from touching the freed block, and must not name the connection to lwIP any
more.  `tcp_client_poll` does so where it aborts directly.
`tcp_client_connection_close` aborts first and unregisters the callbacks
afterwards, and neither callback that uses it returns `ERR_ABRT`.
-/

namespace Stm32F1.Tcp

open Prog

variable {s s' : World} {pcb : Nat} {r : ErrT}

/-- A call of lwIP with this connection. -/
def Act.CallsWith (pcb : Nat) : Act → Prop
  | .tcpConnect p | .tcpAbort p | .tcpArg p | .tcpRecv p | .tcpSent p | .tcpErr p | .tcpPoll p
  | .tcpRecved p _ | .tcpWrite p _ _ | .tcpOutput p => p = pcb
  | _ => False

/-- What a callback owes lwIP: if it has aborted the connection, it returns `ERR_ABRT`, and makes no
further call with it. -/
def Obeys (pcb : Nat) (s : World) (r : ErrT) (s' : World) : Prop :=
  ∃ acts, s'.log = acts ++ s.log ∧ ∀ newer older, acts = newer ++ .tcpAbort pcb :: older →
    r = ERR_ABRT ∧ ∀ a ∈ newer, ¬ a.CallsWith pcb

/-- The callbacks that can abort. -/
inductive Callback
  | connected (err : ErrT) (mem : Bool)
  | poll (arg : Option Nat) (alloc : Option (List (List UInt8))) (answers : Answers)

def Callback.run (pcb : Nat) : Callback → Prog World ErrT
  | .connected err mem => tcpClientConnected pcb err mem
  | .poll arg alloc answers => tcpClientPoll arg pcb alloc answers

/-- If `pbuf_alloc` returns a chain, it is as long as was asked for. -/
def Callback.Possible (s : World) : Callback → Prop
  | .connected _ _ => True
  | .poll _ alloc _ => ∀ segs, alloc = some segs →
      segs ≠ [] ∧ segs.flatten.length = strlen s.tcpClientSendbuf

/-- The callback has no reason to close the connection that it was given a structure for, or that it
was to make one for. -/
def Callback.KeepsOpen (s : World) : Callback → Prop
  | .connected err mem => err = ERR_OK ∧ mem
  | .poll (some es) _ _ =>
      s.tcpClientFlag &&& LWIP_SEND_DATA ≠ 0 ∨ (s.es es).state ≠ .ES_TCPCLIENT_CLOSING
  | .poll none _ _ => True

/-! ## Callbacks that do not abort, and those that do -/

theorem obeys_of_notMem (acts : List Act) (h : s'.log = acts ++ s.log)
    (hno : .tcpAbort pcb ∉ acts) : Obeys pcb s r s' := by
  refine ⟨acts, h, ?_⟩
  rintro newer older rfl
  exact absurd (List.mem_append_right _ (List.mem_cons_self ..)) hno

theorem obeys_of_dataOnly (h : DataOnly s.log s'.log) : Obeys pcb s r s' := by
  obtain ⟨acts, hacts, hdata⟩ := h
  exact obeys_of_notMem acts hacts fun hmem ↦ Bool.false_ne_true (hdata _ hmem)

/-- The helper calls lwIP after it has aborted. -/
theorem not_obeys_close (es : Option Nat) (h : s'.log = closeLog pcb es s.log) :
    ¬ Obeys pcb s r s' := by
  rintro ⟨acts, hacts, hobeys⟩
  rw [h] at hacts
  cases es with
  | none =>
      have heq : [.tcpPoll pcb, .tcpErr pcb, .tcpSent pcb, .tcpRecv pcb, .tcpArg pcb,
          .tcpAbort pcb] = acts := List.append_cancel_right hacts
      have hcalls := (hobeys [.tcpPoll pcb, .tcpErr pcb, .tcpSent pcb, .tcpRecv pcb, .tcpArg pcb]
        [] heq.symm).2
      exact hcalls (.tcpPoll pcb) (List.mem_cons_self ..) rfl
  | some es =>
      have heq : [.memFree es, .tcpPoll pcb, .tcpErr pcb, .tcpSent pcb, .tcpRecv pcb, .tcpArg pcb,
          .tcpAbort pcb] = acts := List.append_cancel_right hacts
      have hcalls := (hobeys [.memFree es, .tcpPoll pcb, .tcpErr pcb, .tcpSent pcb, .tcpRecv pcb,
        .tcpArg pcb] [] heq.symm).2
      exact hcalls (.tcpPoll pcb) (List.mem_cons_of_mem _ (List.mem_cons_self ..)) rfl

/-! ## `tcp_client_connected` -/

theorem connected_obeys_iff (s : World) (pcb : Nat) (err : ErrT) (mem : Bool) :
    Run (tcpClientConnected pcb err mem) s fun r s' ↦ Obeys pcb s r s' ↔ err = ERR_OK ∧ mem := by
  by_cases herr : err = ERR_OK
  · subst herr
    cases mem with
    | true =>
        refine ⟨ERR_OK, _, rfl, iff_of_true (obeys_of_notMem [.flagged pcb, .tcpPoll pcb,
          .tcpSent pcb, .tcpErr pcb, .tcpRecv pcb, .tcpArg pcb, .memMalloc s.nextEs] rfl ?_)
          ⟨rfl, rfl⟩⟩
        simp
    | false =>
        refine run_bind.2 (run_pure.2 (run_bind.2 (.of_eq (close_apply s pcb none) ?_)))
        exact run_pure.2 (iff_of_false (not_obeys_close none rfl) fun h ↦ Bool.false_ne_true h.2)
  · rw [tcpClientConnected, if_neg herr]
    refine run_bind.2 (.of_eq (close_apply s pcb none) ?_)
    exact run_pure.2 (iff_of_false (not_obeys_close none rfl) fun h ↦ herr h.1)

/-! ## `tcp_client_poll` -/

theorem poll_none_obeys (s : World) (pcb : Nat) (alloc : Option (List (List UInt8)))
    (answers : Answers) :
    Run (tcpClientPoll none pcb alloc answers) s fun r s' ↦ Obeys pcb s r s' := by
  refine run_bind.2 (.of_eq (tcpAbort_apply s pcb) (run_pure.2 ?_))
  refine ⟨[.tcpAbort pcb], rfl, ?_⟩
  intro newer older heq
  refine ⟨rfl, ?_⟩
  cases newer with
  | nil => exact fun a ha ↦ absurd ha List.not_mem_nil
  | cons a newer => exact absurd (List.cons.inj heq).2 (by simp)

theorem poll_some_obeys_iff {alloc : Option (List (List UInt8))} {answers : Answers} (es : Nat)
    (halloc : ∀ segs, alloc = some segs →
      segs ≠ [] ∧ segs.flatten.length = strlen s.tcpClientSendbuf) :
    Run (tcpClientPoll (some es) pcb alloc answers) s fun r s' ↦ Obeys pcb s r s' ↔
      s.tcpClientFlag &&& LWIP_SEND_DATA ≠ 0 ∨ (s.es es).state ≠ .ES_TCPCLIENT_CLOSING := by
  refine run_bind.2 (run_read.2 ?_)
  by_cases hsend : s.tcpClientFlag &&& LWIP_SEND_DATA ≠ 0
  · rw [if_pos hsend]
    refine (run_pollSend halloc).bind ?_
    intro _ s' hserved
    refine run_bind.2 (run_pure.2 (run_pure.2 ?_))
    exact iff_of_true (obeys_of_dataOnly hserved.grows) (.inl hsend)
  · rw [if_neg hsend, pollClose, bind_assoc']
    refine run_bind.2 (run_read.2 ?_)
    by_cases hstate : (s.es es).state = .ES_TCPCLIENT_CLOSING
    · rw [if_pos hstate]
      refine run_bind.2
        (.of_eq (close_apply s pcb (some es)) (run_bind.2 (run_pure.2 (run_pure.2 ?_))))
      exact iff_of_false (not_obeys_close (some es) rfl)
        fun h ↦ h.elim hsend fun h ↦ h hstate
    · rw [if_neg hstate]
      refine run_bind.2 (run_pure.2 (run_bind.2 (run_pure.2 (run_pure.2 ?_))))
      exact iff_of_true (obeys_of_dataOnly (.refl s.log)) (.inr hstate)

/-- **A callback does what it owes lwIP exactly when it has no reason to close the connection.** -/
theorem obeys_iff (s : World) (pcb : Nat) (c : Callback) (hc : c.Possible s) :
    Run (c.run pcb) s fun r s' ↦ Obeys pcb s r s' ↔ c.KeepsOpen s := by
  cases c with
  | connected err mem => exact connected_obeys_iff s pcb err mem
  | poll arg alloc answers =>
      cases arg with
      | none =>
          refine (poll_none_obeys s pcb alloc answers).mono ?_
          exact fun r s' h ↦ iff_of_true h trivial
      | some es => exact poll_some_obeys_iff es hc

/-- A message is asked for. -/
def requestedState : World := openedState.requested clientText

/-- `pbuf_alloc` has a buffer for it, and lwIP takes it. -/
def willingPoll (arg : Option Nat) : Callback :=
  .poll arg (some [List.replicate 22 0]) ⟨fun _ ↦ 2920, fun _ ↦ ERR_OK⟩

/-- With a structure the message is sent; without one the connection is aborted. -/
theorem obeys_iff_requested : (∀ arg, (willingPoll arg).Possible requestedState) ∧
    Run ((willingPoll (some 0)).run 0) requestedState (Obeys 0 requestedState) ∧
    Run ((willingPoll none).run 0) requestedState fun r s' ↦
      .tcpAbort 0 ∈ s'.log ∧ Obeys 0 requestedState r s' := by
  have hpossible : ∀ arg, (willingPoll arg).Possible requestedState := by
    rintro arg _ ⟨⟩
    exact ⟨by decide, by decide⟩
  have habort : Run ((willingPoll none).run 0) requestedState fun _ s' ↦ .tcpAbort 0 ∈ s'.log :=
    run_bind.2 (.of_eq (tcpAbort_apply requestedState 0) (run_pure.2 (List.mem_cons_self ..)))
  obtain ⟨r, s', hrun, hobeys⟩ := obeys_iff requestedState 0 _ (hpossible none)
  refine ⟨hpossible, ?_, r, s', hrun, habort.elim hrun, hobeys.2 trivial⟩
  have hsend : requestedState.tcpClientFlag &&& LWIP_SEND_DATA ≠ 0 := by decide
  exact (obeys_iff requestedState 0 _ (hpossible (some 0))).mono fun r s' h ↦ h.2 (.inl hsend)

/-- `mem_malloc` fails in the connected callback. -/
theorem not_obeys_no_memory : ¬ ∀ (s : World) (pcb : Nat) (c : Callback), c.Possible s →
    Run (c.run pcb) s fun r s' ↦ Obeys pcb s r s' := by
  intro h
  have hrun := h World.boot.connecting 0 (.connected ERR_OK false) trivial
  obtain ⟨r, s', hbody, hobeys⟩ := hrun
  have hiff := (connected_obeys_iff World.boot.connecting 0 ERR_OK false).elim hbody
  exact Bool.false_ne_true (hiff.1 hobeys).2

end Stm32F1.Tcp
