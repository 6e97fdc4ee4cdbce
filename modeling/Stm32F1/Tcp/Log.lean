import Stm32F1.Tcp.Client
import Stm32F1.Lib.Ledger

/-!
# What the log tells

Who ended which connection, which references the client holds, and what became
of the last message, read off the log.
-/

namespace Stm32F1.Tcp

variable {log : List Act} {a : Act} {pcb q : Nat}

/-! ## Connections -/

/-- Entries about the beginning and the end of a connection. -/
def Act.ofConnection : Act → Bool
  | .tcpAbort _ | .freed _ | .flagged _ => true
  | _ => false

def connActs (log : List Act) : List Act := log.filter Act.ofConnection

/-- An entry about a connection is in that part exactly if it is in the log. -/
theorem mem_connActs (ha : a.ofConnection) : a ∈ connActs log ↔ a ∈ log := by
  rw [connActs, List.mem_filter, and_iff_left ha]

/-- The connection was aborted by the client, or freed by lwIP. -/
def Gone (log : List Act) (pcb : Nat) : Prop := .tcpAbort pcb ∈ log ∨ .freed pcb ∈ log

/-- Whether a connection is gone is told by the entries about connections. -/
theorem gone_connActs : Gone (connActs log) pcb ↔ Gone log pcb :=
  or_congr (mem_connActs rfl) (mem_connActs rfl)

/-- The connection whose connected callback was the last to set `LWIP_CONNECTED`. -/
def lastFlagged : List Act → Option Nat
  | [] => none
  | .flagged pcb :: _ => some pcb
  | _ :: log => lastFlagged log

/-- So is which connection was flagged last. -/
theorem lastFlagged_connActs : lastFlagged (connActs log) = lastFlagged log := by
  induction log with
  | nil => rfl
  | cons a log ih =>
      cases a with
      | flagged pcb => rfl
      | _ => exact ih

/-! ## Structures -/

/-- Entries about the structures of connections. -/
def Act.ofStruct : Act → Bool
  | .memMalloc _ | .memFree _ => true
  | _ => false

def structActs (log : List Act) : List Act := log.filter Act.ofStruct

/-- An entry about a structure is in that part exactly if it is in the log. -/
theorem mem_structActs (ha : a.ofStruct) : a ∈ structActs log ↔ a ∈ log := by
  rw [structActs, List.mem_filter, and_iff_left ha]

/-- And it is there as many times. -/
theorem count_structActs (ha : a.ofStruct) : (structActs log).count a = log.count a :=
  List.count_filter ha

/-! ## Data -/

/-- Entries about data, and about the buffers that hold it. -/
def Act.ofData : Act → Bool
  | .tcpRecved _ _ | .tcpWrite _ _ _ | .tcpOutput _ | .pbufAlloc _ | .pbufRef _ | .pbufFree _
  | .handed _ => true
  | _ => false

/-- Only entries about data were added. -/
def DataOnly (log log' : List Act) : Prop := ∃ acts, log' = acts ++ log ∧ ∀ a ∈ acts, a.ofData

namespace DataOnly

variable {log' log'' : List Act}

/-- Nothing was added. -/
theorem refl (log : List Act) : DataOnly log log := ⟨[], rfl, fun _ ha ↦ absurd ha List.not_mem_nil⟩

/-- One more entry about data. -/
theorem cons (h : DataOnly log log') (ha : a.ofData) : DataOnly log (a :: log') := by
  obtain ⟨acts, rfl, hacts⟩ := h
  exact ⟨a :: acts, rfl, List.forall_mem_cons.2 ⟨ha, hacts⟩⟩

/-- What was added in two stages was added. -/
theorem trans (h : DataOnly log log') (h' : DataOnly log' log'') : DataOnly log log'' := by
  obtain ⟨acts, rfl, hacts⟩ := h
  obtain ⟨acts', rfl, hacts'⟩ := h'
  exact ⟨acts' ++ acts, (List.append_assoc ..).symm, List.forall_mem_append.2 ⟨hacts', hacts⟩⟩

/-- A filter that lets no entry about data through does not see what was added. -/
theorem filter (h : DataOnly log log') {f : Act → Bool} (hf : ∀ a, a.ofData → f a = false) :
    log'.filter f = log.filter f := by
  obtain ⟨acts, rfl, hacts⟩ := h
  have hnil : acts.filter f = [] :=
    List.filter_eq_nil_iff.2 fun a ha ↦ Bool.eq_false_iff.1 (hf a (hacts a ha))
  rw [List.filter_append, hnil, List.nil_append]

theorem connActs (h : DataOnly log log') : Tcp.connActs log' = Tcp.connActs log := by
  refine h.filter fun a ha ↦ ?_
  cases a <;> first | rfl | exact absurd ha Bool.false_ne_true

theorem structActs (h : DataOnly log log') : Tcp.structActs log' = Tcp.structActs log := by
  refine h.filter fun a ha ↦ ?_
  cases a <;> first | rfl | exact absurd ha Bool.false_ne_true

end DataOnly

/-! ## References -/

/-- What an entry does to the references that the client holds on a buffer. -/
def Act.effect : Act → Nat → Int
  | .pbufAlloc p, q | .pbufRef p, q | .handed p, q => if p = q then 1 else 0
  | .pbufFree p, q => if p = q then -1 else 0
  | _, _ => 0

/-- The references on a buffer that the client has taken and not released. -/
def held (log : List Act) (q : Nat) : Int := balance Act.effect log q

/-- The reference that a pointer stands for. -/
def stake (p : Option Nat) (q : Nat) : Int := if p = some q then 1 else 0

@[simp] theorem stake_none : stake none q = 0 := rfl

/-- The reference of a pointer that is not `NULL` is on its own buffer. -/
theorem stake_some (p q : Nat) : stake (some p) q = if p = q then 1 else 0 := by
  simp only [stake, Option.some.injEq]

/-- A pointer stands for one reference or none. -/
theorem stake_nonneg (p : Option Nat) (q : Nat) : 0 ≤ stake p q := by
  rw [stake]
  split <;> decide

/-- The newest entry changes what is held by its effect. -/
theorem held_cons : held (a :: log) q = a.effect q + held log q := rfl

/-! ## Messages -/

/-- The last message that was asked for. -/
def asked : List Act → Option (List UInt8)
  | [] => none
  | .request m :: _ => some m
  | _ :: log => asked log

/-- What `tcp_write` has accepted since then. -/
def accepted : List Act → List UInt8
  | [] => []
  | .request _ :: _ => []
  | .tcpWrite _ bytes result :: log => accepted log ++ if result = ERR_OK then bytes else []
  | _ :: log => accepted log

end Stm32F1.Tcp
