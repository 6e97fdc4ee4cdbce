import Stm32F1.Sd.Wire

/-!
# The SD driver on the wire

What each function of the driver returns, how much of the stream it reads, and
what the monitor has recorded when it is done: one equation a function, for
every stream.
-/

namespace Stm32F1.Sd

open Prog Mcu

variable {m : Nat → UInt8} {s : Nat → UInt8} {p : Nat} {mon : Monitor} {v : SdVars}
  {recs : List Record}

/-- The driver with the stream `s` at position `p`. -/
abbrev onWire (m : Nat → UInt8) (s : Nat → UInt8) (p : Nat) (mon : Monitor) (v : SdVars) :
    Mcu Wire SdVars :=
  ⟨m, ⟨s, p, mon⟩, v⟩

/-! ## Waiting -/

/-- The monitor after `k` idle bytes were sent, from position `p` of the stream on. -/
def Monitor.hear (mon : Monitor) (s : Nat → UInt8) (p : Nat) : Nat → Monitor
  | 0 => mon
  | k + 1 => (mon.hear s p k).exchange 0xFF (s (p + k))

/-- Bytes that pass the monitor unnoticed. -/
theorem Monitor.hear_of_unnoticed {k : Nat}
    (h : ∀ i < k, mon.exchange 0xFF (s (p + i)) = mon) : mon.hear s p k = mon := by
  induction k with
  | zero => rfl
  | succ k ih =>
      rw [Monitor.hear, ih fun i hi ↦ h i (Nat.lt_succ_of_lt hi)]
      exact h k (Nat.lt_succ_self k)

/-- Polling the bus, whatever is going on there. -/
theorem poll_wire (good : UInt8 → Bool) (k : Nat) :
    poll (readWriteByte 0xFF) good k (onWire m s p mon v) =
      some ((s (p + scan (fun i ↦ good (s (p + i))) 0 k), k - scan (fun i ↦ good (s (p + i))) 0 k),
        onWire m s (p + (scan (fun i ↦ good (s (p + i))) 0 k + 1))
          (mon.hear s p (scan (fun i ↦ good (s (p + i))) 0 k + 1)) v) :=
  poll_eq (readWriteByte 0xFF) good (fun i ↦ s (p + i))
    (fun i ↦ onWire m s (p + i) (mon.hear s p i) v) fun _ _ ↦ rfl

/-- A loop that polls the bus, the bytes it does not stop at passing the monitor unnoticed. -/
theorem poll_until {good : UInt8 → Bool}
    (hq : ∀ miso, good miso = false → mon.exchange 0xFF miso = mon) (k : Nat) :
    poll (readWriteByte 0xFF) good k (onWire m s p mon v) =
      some ((s (hit s p good k), k - (hit s p good k - p)),
        onWire m s (hit s p good k + 1) (mon.exchange 0xFF (s (hit s p good k))) v) := by
  have hspec := (scan_spec (fun i ↦ good (s (p + i))) 0 k).2.1
  have hbefore : mon.hear s p (scan (fun i ↦ good (s (p + i))) 0 k) = mon :=
    Monitor.hear_of_unnoticed fun i hi ↦ hq _ (hspec i i.zero_le hi)
  rw [poll_wire, Monitor.hear, hbefore, hit, Nat.add_sub_cancel_left, Nat.add_assoc]

/-- Idle bytes pass the monitor unnoticed. -/
def Monitor.Quiet (mon : Monitor) : Prop := ∀ miso, mon.exchange 0xFF miso = mon

theorem quiet_deselected {phase : Phase} : Monitor.Quiet ⟨false, phase, recs⟩ := fun _ ↦ rfl

theorem quiet_idle : Monitor.Quiet ⟨true, .idle, recs⟩ := by
  intro miso
  have hlisten : Monitor.listen .idle 0xFF = .idle := rfl
  simp [Monitor.exchange, Monitor.step, hlisten]

theorem quiet_token {tok : UInt8} (h : tok ≠ 0xFF) : Monitor.Quiet ⟨true, .token tok, recs⟩ := by
  intro miso
  have hlisten : Monitor.listen (.token tok) 0xFF = .token tok := rfl
  simp [Monitor.exchange, Monitor.step, hlisten, Ne.symm h]

theorem sdWaitReady_eq (hq : mon.Quiet) :
    sdWaitReady (onWire m s p mon v) =
      some (if ready s p then 0 else 1, onWire m s (readyHit s p + 1) mon v) := by
  rw [sdWaitReady, bind_of_eq (poll_until (fun _ _ ↦ hq _) _), pure_apply, hq]
  simp [ready, readyHit]

theorem sdDisSelect_eq :
    sdDisSelect (onWire m s p mon v) =
      some ((), onWire m s (p + 1) ⟨false, .idle, mon.recs⟩ v) := by
  simp [sdDisSelect, bind_apply, Monitor.cs, Monitor.exchange]

theorem sdSelect_eq :
    sdSelect (onWire m s p mon v) =
      if ready s p then some (0, onWire m s (readyHit s p + 1) ⟨true, .idle, mon.recs⟩ v)
      else some (1, onWire m s (readyHit s p + 2) ⟨false, .idle, mon.recs⟩ v) := by
  have hcs : chipSelect false (onWire m s p mon v) =
      some ((), onWire m s p ⟨true, .idle, mon.recs⟩ v) := rfl
  rw [sdSelect, bind_of_eq hcs, bind_of_eq (sdWaitReady_eq quiet_idle)]
  cases ready s p with
  | true => simp
  | false => simp [bind_of_eq sdDisSelect_eq]

/-! ## Commands -/

/-- The monitor after `r1` ended the wait for the reply to a command. -/
def answered (frame : List UInt8) (r1 : UInt8) (recs : List Record) : Monitor :=
  if r1 &&& 0x80 = 0 then ⟨true, .opened frame r1, recs ++ [.reply frame r1]⟩
  else ⟨true, .idle, recs⟩

/-- The monitor while the loop that waits for the reply makes its `i`-th round, the last one being
the `n`-th. -/
def waiting (frame : List UInt8) (s : Nat → UInt8) (p k n : Nat) (recs : List Record) (i : Nat) :
    Monitor :=
  if i ≤ n then ⟨true, .answer frame (k - i), recs⟩ else answered frame (s (p + n)) recs

theorem waiting_step (frame : List UInt8) {k n i : Nat} (hn : n ≤ k)
    (hno : ∀ j < n, s (p + j) &&& 0x80 ≠ 0) (hlast : n < k → s (p + n) &&& 0x80 = 0) (hi : i ≤ n) :
    (waiting frame s p k n recs i).exchange 0xFF (s (p + i)) =
      waiting frame s p k n recs (i + 1) := by
  rw [waiting, if_pos hi]
  rcases Nat.lt_or_eq_of_le hi with hlt | rfl
  · have hleft : k - i ≠ 0 := by omega
    rw [waiting, if_pos (Nat.succ_le_of_lt hlt)]
    simp [Monitor.exchange, Monitor.step, hno i hlt, hleft, Nat.sub_add_eq]
  · rw [waiting, if_neg (Nat.not_succ_le_self i), answered]
    by_cases h : s (p + i) &&& 0x80 = 0
    · simp [Monitor.exchange, Monitor.step, h]
    · have hleft : k - i = 0 := Nat.sub_eq_zero_of_le (not_lt.1 fun hlt ↦ h (hlast hlt))
      simp [Monitor.exchange, Monitor.step, h, hleft]

/-- The loop that waits for the reply. -/
theorem poll_answer (frame : List UInt8) (k : Nat) :
    poll (readWriteByte 0xFF) (fun b ↦ b &&& 0x80 == 0) k
        (onWire m s p ⟨true, .answer frame k, recs⟩ v) =
      some ((s (hit s p (fun b ↦ b &&& 0x80 == 0) k),
          k - (hit s p (fun b ↦ b &&& 0x80 == 0) k - p)),
        onWire m s (hit s p (fun b ↦ b &&& 0x80 == 0) k + 1)
          (answered frame (s (hit s p (fun b ↦ b &&& 0x80 == 0) k)) recs) v) := by
  obtain ⟨hle, hno, hlast⟩ := scan_spec (fun i ↦ s (p + i) &&& 0x80 == 0) 0 k
  rw [hit, Nat.add_sub_cancel_left]
  generalize hn : scan (fun i ↦ s (p + i) &&& 0x80 == 0) 0 k = n at hle hno hlast ⊢
  simp only [Nat.zero_le, true_implies, Nat.zero_add, beq_iff_eq, beq_eq_false_iff_ne]
    at hle hno hlast
  have h := poll_eq (readWriteByte 0xFF) (fun b ↦ b &&& 0x80 == 0) (fun i ↦ s (p + i))
    (fun i ↦ onWire m s (p + i) (waiting frame s p k n recs i) v) (k := k) fun i hi ↦ by
      rw [hn] at hi
      simp only [readWriteByte_apply, Wire.exchange_eq, waiting_step frame hle hno hlast hi]
      rfl
  have hstart : waiting frame s p k n recs 0 = ⟨true, .answer frame k, recs⟩ := if_pos n.zero_le
  have hend : waiting frame s p k n recs (n + 1) = answered frame (s (p + n)) recs :=
    if_neg (Nat.not_succ_le_self n)
  rw [hn, hstart, hend] at h
  exact h

theorem exchange_opens {b : UInt8} (h : b &&& 0xC0 = 0x40) (miso : UInt8) :
    Monitor.exchange ⟨true, .idle, recs⟩ b miso = ⟨true, .frame [b], recs⟩ := by
  simp [Monitor.exchange, Monitor.step, Monitor.listen, h]

theorem exchange_frame {bs : List UInt8} (h : bs.length < 5) (b miso : UInt8) :
    Monitor.exchange ⟨true, .frame bs, recs⟩ b miso = ⟨true, .frame (bs ++ [b]), recs⟩ := by
  simp [Monitor.exchange, Monitor.step, h]

theorem exchange_closes {bs : List UInt8} (h : bs.length = 5) (b miso : UInt8) :
    Monitor.exchange ⟨true, .frame bs, recs⟩ b miso =
      ⟨true, if bs.head? = some 0x4C then .stuff (bs ++ [b]) else .answer (bs ++ [b]) 31,
        recs⟩ := by
  by_cases hs : bs.head? = some 0x4C <;> simp [Monitor.exchange, Monitor.step, h, hs]

/-- The frame of a command on the wire, from an idle monitor. -/
theorem sendAll_frame {cmd : UInt8} (hcmd : (cmd ||| 0x40) &&& 0xC0 = 0x40) (arg : UInt32)
    (crc : UInt8) :
    sendAll (cmdFrame cmd arg crc) (onWire m s p ⟨true, .idle, recs⟩ v) =
      some ((), onWire m s (p + 6) ⟨true, if cmd ||| 0x40 = 0x4C then
        .stuff (cmdFrame cmd arg crc) else .answer (cmdFrame cmd arg crc) 31, recs⟩ v) := by
  simp [sendAll, cmdFrame, bind_apply, exchange_opens hcmd, exchange_frame, exchange_closes]

/-- The byte that `SD_SendCmd` skips after `CMD12`. -/
theorem skip_stuff (frame : List UInt8) (cmd : UInt8) :
    when (cmd == CMD12) (do let _ ← readWriteByte 0xFF)
        (onWire m s p ⟨true, if cmd = CMD12 then .stuff frame else .answer frame 31, recs⟩ v) =
      some ((), onWire m s (p + if cmd = CMD12 then 1 else 0)
        ⟨true, .answer frame 31, recs⟩ v) := by
  by_cases h : cmd = CMD12
  · simp [h, bind_apply, Monitor.exchange, Monitor.step]
  · simp [beq_eq_false_iff_ne.2 h, h]

/-- A command number that fits its frame byte. -/
structure Command (cmd : UInt8) : Prop where
  opens : (cmd ||| 0x40) &&& 0xC0 = 0x40
  skips : cmd ||| 0x40 = 0x4C ↔ cmd = CMD12

/-- **`SD_SendCmd`** on the wire. -/
theorem sdSendCmd_eq {cmd : UInt8} (hcmd : Command cmd) (arg : UInt32) (crc : UInt8) :
    sdSendCmd cmd arg crc (onWire m s p mon v) = some (reply s p cmd,
      onWire m s (afterCmd s p cmd) (if ready s (p + 1) then
        answered (cmdFrame cmd arg crc) (reply s p cmd) mon.recs
      else ⟨false, .idle, mon.recs⟩) v) := by
  rw [sdSendCmd, bind_of_eq sdDisSelect_eq]
  cases hready : ready s (p + 1) with
  | false => simp [bind_apply, sdSelect_eq, hready, reply, afterCmd]
  | true =>
      have hsel : sdSelect (onWire m s (p + 1) ⟨false, .idle, mon.recs⟩ v) =
          some (0, onWire m s (readyHit s (p + 1) + 1) ⟨true, .idle, mon.recs⟩ v) := by
        rw [sdSelect_eq, if_pos hready]
      rw [bind_of_eq hsel, if_neg (by simp), bind_of_eq (sendAll_frame hcmd.opens arg crc)]
      simp only [hcmd.skips]
      rw [bind_of_eq (skip_stuff _ _), bind_of_eq (poll_answer _ _)]
      simp only [pure_apply, reply, hready, afterCmd, replyHit, if_true]

theorem quiet_answered {frame : List UInt8} {r1 : UInt8} (h : r1 ≠ 0) :
    (answered frame r1 recs).Quiet := by
  have hopened : Phase.opened frame r1 = .idle := if_pos h
  rw [answered, hopened]
  split <;> exact quiet_idle

/-- What a command leaves on the bus: at most its own reply, and, if that is not 0, a bus on which
nothing goes on. -/
theorem run_sdSendCmd {cmd : UInt8} (hcmd : Command cmd) (arg : UInt32) (crc : UInt8) :
    Run (sdSendCmd cmd arg crc) (onWire m s p mon v) fun r t ↦ r = reply s p cmd ∧
      ∃ mon' extra, t = onWire m s (afterCmd s p cmd) mon' v ∧ mon'.recs = mon.recs ++ extra ∧
        (∀ rec ∈ extra, rec = .reply (cmdFrame cmd arg crc) (reply s p cmd)) ∧
        (reply s p cmd ≠ 0 → mon'.Quiet) := by
  refine .of_eq (sdSendCmd_eq hcmd arg crc) ⟨rfl, ?_⟩
  split
  · by_cases htop : reply s p cmd &&& 0x80 = 0
    · refine ⟨_, [.reply (cmdFrame cmd arg crc) (reply s p cmd)], rfl, ?_, by simp, quiet_answered⟩
      rw [answered, if_pos htop]
    · refine ⟨_, [], rfl, ?_, by simp, quiet_answered⟩
      rw [answered, if_neg htop, List.append_nil]
  · exact ⟨_, [], rfl, (List.append_nil _).symm, by simp, fun _ ↦ quiet_deselected⟩

/-- A command that was answered with 0 was sent. -/
theorem ready_of_reply {cmd : UInt8} (h : reply s p cmd = 0) : ready s (p + 1) = true := by
  by_contra hready
  rw [reply, if_neg hready] at h
  exact absurd h (by decide)

/-- `SD_SendCmd`, answered with 0. -/
theorem sdSendCmd_zero {cmd : UInt8} (hcmd : Command cmd) (h : reply s p cmd = 0) (arg : UInt32)
    (crc : UInt8) :
    sdSendCmd cmd arg crc (onWire m s p mon v) = some (0, onWire m s (afterCmd s p cmd)
      ⟨true, .opened (cmdFrame cmd arg crc) 0, mon.recs ++ [.reply (cmdFrame cmd arg crc) 0]⟩
      v) := by
  rw [sdSendCmd_eq hcmd, if_pos (ready_of_reply h), h]
  rfl

/-- A card that is ready and answers at once. -/
theorem reply_at_once {cmd : UInt8} (hcmd : cmd ≠ CMD12) (hready : s (p + 1) = 0xFF)
    (htop : s (p + 8) &&& 0x80 = 0) : reply s p cmd = s (p + 8) ∧ afterCmd s p cmd = p + 9 := by
  have hhit : readyHit s (p + 1) = p + 1 := by
    apply hit_of_good
    exact beq_iff_eq.2 hready
  have hisReady : ready s (p + 1) = true := by
    rw [ready, hhit, hready]
    rfl
  have hreply : replyHit s p cmd = p + 8 := by
    rw [replyHit, hhit, if_neg hcmd]
    apply hit_of_good
    exact beq_iff_eq.2 htop
  rw [reply, afterCmd, if_pos hisReady, if_pos hisReady, hreply]
  exact ⟨rfl, rfl⟩

theorem command_cmd12 : Command CMD12 := ⟨by decide, by decide⟩
theorem command_cmd17 : Command CMD17 := ⟨by decide, by decide⟩
theorem command_cmd18 : Command CMD18 := ⟨by decide, by decide⟩
theorem command_cmd23 : Command CMD23 := ⟨by decide, by decide⟩
theorem command_cmd24 : Command CMD24 := ⟨by decide, by decide⟩
theorem command_cmd25 : Command CMD25 := ⟨by decide, by decide⟩
theorem command_cmd55 : Command CMD55 := ⟨by decide, by decide⟩

/-! ## Blocks sent -/

theorem exchange_out {tok : UInt8} {bs : List UInt8} (h : bs.length < 514) (b miso : UInt8) :
    Monitor.exchange ⟨true, .out tok bs, recs⟩ b miso = ⟨true, .out tok (bs ++ [b]), recs⟩ := by
  simp [Monitor.exchange, Monitor.step, h]

theorem exchange_response {tok : UInt8} {bs : List UInt8} (h : bs.length = 514) (b miso : UInt8) :
    Monitor.exchange ⟨true, .out tok bs, recs⟩ b miso =
      ⟨true, if tok = 0xFC then .token tok else .idle, recs ++ [.block (bs.take 512) miso]⟩ := by
  simp [Monitor.exchange, Monitor.step, h]

theorem exchange_token {tok : UInt8} (miso : UInt8) :
    Monitor.exchange ⟨true, .token tok, recs⟩ tok miso = ⟨true, .out tok [], recs⟩ := by
  simp [Monitor.exchange, Monitor.step]

theorem sendBytes_eq (buf : Nat) (tok : UInt8) :
    sendBytes buf (onWire m s p ⟨true, .out tok [], recs⟩ v) =
      some ((), onWire m s (p + 512) ⟨true, .out tok (slice m buf 512), recs⟩ v) := by
  refine (run_forRange (fun k t ↦ t =
    onWire m s (p + k) ⟨true, .out tok (slice m buf k), recs⟩ v) ?_ rfl).eq
  rintro k _ hk rfl
  refine .of_eq (a := ()) ?_ rfl
  have hlen : (slice m buf k).length < 514 := by
    rw [length_slice]
    omega
  simp [bind_apply, exchange_out hlen, slice_succ, Nat.add_assoc]

/-- The response to a block sent from position `p`, the card being ready. -/
def blockResponse (s : Nat → UInt8) (p : Nat) : UInt8 := s (readyHit s p + 516)

/-- What is recorded of a block. -/
def blockRecord (m s : Nat → UInt8) (buf p : Nat) : Record :=
  .block (slice m buf 512) (blockResponse s p)

theorem ready_of_blockOk (h : blockOk s p = true) : ready s p = true := by
  rw [blockOk, Bool.and_eq_true] at h
  exact h.1

theorem blockResponse_of_blockOk (h : blockOk s p = true) : blockResponse s p &&& 0x1F = 0x05 := by
  rw [blockOk, Bool.and_eq_true] at h
  exact beq_iff_eq.1 h.2

/-- **`SD_SendBlock`** of data on the wire. -/
theorem sdSendBlock_eq {tok : UInt8} (hstop : tok ≠ 0xFD) (hidle : tok ≠ 0xFF) (buf : Nat) :
    sdSendBlock buf tok (onWire m s p ⟨true, .token tok, recs⟩ v) =
      some (if blockOk s p then 0 else if ready s p then 2 else 1,
        onWire m s (afterBlock s p)
          (if ready s p then ⟨true, if tok = 0xFC then .token tok else .idle,
            recs ++ [blockRecord m s buf p]⟩ else ⟨true, .token tok, recs⟩) v) := by
  rw [sdSendBlock, bind_of_eq (sdWaitReady_eq (quiet_token hidle))]
  cases hready : ready s p with
  | false => simp [blockOk, afterBlock, hready]
  | true =>
      have htok : readWriteByte tok (onWire m s (readyHit s p + 1) ⟨true, .token tok, recs⟩ v) =
          some (s (readyHit s p + 1),
            onWire m s (readyHit s p + 1 + 1) ⟨true, .out tok [], recs⟩ v) := by
        rw [readWriteByte_apply, Wire.exchange_eq, exchange_token]
      rw [if_pos rfl, if_neg (by simp), bind_of_eq htok, if_pos hstop,
        bind_of_eq (sendBytes_eq _ _)]
      have hlen : (slice m buf 512).length < 514 := by simp
      have hlen₁ : (slice m buf 512 ++ [(0xFF : UInt8)]).length < 514 := by simp
      have hlen₂ : (slice m buf 512 ++ [(0xFF : UInt8)] ++ [(0xFF : UInt8)]).length = 514 := by simp
      have htake : (slice m buf 512 ++ [(0xFF : UInt8)] ++ [(0xFF : UInt8)]).take 512 =
          slice m buf 512 := by
        rw [List.append_assoc, List.take_left' length_slice]
      simp only [bind_apply, readWriteByte_apply, Wire.exchange_eq, Option.bind_some, pure_apply,
        exchange_out hlen, exchange_out hlen₁, exchange_response hlen₂, htake]
      by_cases hok : s (readyHit s p + 516) &&& 0x1F = 0x05 <;>
        simp [blockOk, afterBlock, hready, hok, blockRecord, blockResponse]

theorem blockOk_of_zero (h : (if blockOk s p then 0 else if ready s p then 2 else 1 : UInt8) = 0) :
    blockOk s p = true := by
  by_contra hno
  rw [if_neg hno] at h
  split at h <;> exact absurd h (by decide)

/-- **`SD_SendBlock`** of the stop token. -/
theorem sdSendBlock_stop {tok : UInt8} (h : tok ≠ 0xFD) (hidle : tok ≠ 0xFF) (buf : Nat) :
    sdSendBlock buf 0xFD (onWire m s p ⟨true, .token tok, recs⟩ v) =
      some (if ready s p then 0 else 1,
        onWire m s (if ready s p then readyHit s p + 2 else readyHit s p + 1)
          ⟨true, if ready s p then .idle else .token tok, recs⟩ v) := by
  rw [sdSendBlock, bind_of_eq (sdWaitReady_eq (quiet_token hidle))]
  cases hready : ready s p with
  | false => simp
  | true => simp [bind_apply, Monitor.exchange, Monitor.step, Ne.symm h]

/-! ## Blocks received -/

theorem Monitor.Quiet.hear (hq : mon.Quiet) (k : Nat) : mon.hear s p k = mon :=
  hear_of_unnoticed fun _ _ ↦ hq _

theorem hear_inn (multi : Bool) {k : Nat} (hk : k ≤ 513) :
    Monitor.hear ⟨true, .inn multi [], recs⟩ s p k = ⟨true, .inn multi (slice s p k), recs⟩ := by
  induction k with
  | zero => rfl
  | succ k ih =>
      have hlen : k < 513 := hk
      rw [Monitor.hear, ih (Nat.le_of_succ_le hk), slice_succ]
      simp [Monitor.exchange, Monitor.step, hlen]

/-- After the data and two more bytes the block is recorded. -/
theorem hear_block (multi : Bool) :
    Monitor.hear ⟨true, .inn multi [], recs⟩ s p 514 =
      ⟨true, if multi then .await true else .idle, recs ++ [.data (slice s p 512)]⟩ := by
  rw [Monitor.hear, hear_inn multi le_rfl]
  have htake : (slice s p 513).take 512 = slice s p 512 := by
    rw [slice_succ, List.take_left' length_slice]
  simp [Monitor.exchange, Monitor.step, htake]

/-- Start tokens are the only idle bytes that the monitor notices. -/
def Monitor.Awaits (mon : Monitor) : Prop := ∀ miso, miso ≠ 0xFE → mon.exchange 0xFF miso = mon

theorem awaits_await (multi : Bool) : Monitor.Awaits ⟨true, .await multi, recs⟩ := by
  intro miso h
  have hlisten : Monitor.listen (.await multi) 0xFF = .await multi := rfl
  simp [Monitor.exchange, Monitor.step, h, hlisten]

theorem Monitor.Quiet.awaits (hq : mon.Quiet) : mon.Awaits := fun miso _ ↦ hq miso

theorem tokenFound_iff : tokenFound s p = true ↔ 0xFFFF - (tokenHit s p - p) ≠ 0 := by
  have hge : p ≤ tokenHit s p := Nat.le_add_right _ _
  rw [tokenFound, decide_eq_true_iff]
  omega

theorem miso_tokenHit (h : tokenFound s p = true) : s (tokenHit s p) = 0xFE := by
  have hspec := (scan_spec (fun i ↦ s (p + i) == 0xFE) 0 0xFFFF).2.2
  rw [tokenFound, decide_eq_true_iff, tokenHit, hit] at h
  exact beq_iff_eq.1 (hspec (by omega))

theorem sdGetResponse_eq (ha : mon.Awaits) :
    sdGetResponse 0xFE (onWire m s p mon v) =
      some (if tokenFound s p then 0 else 0xFF,
        onWire m s (tokenHit s p + 1) (mon.exchange 0xFF (s (tokenHit s p))) v) := by
  rw [sdGetResponse, bind_of_eq (poll_until (fun b hb ↦ ha b (beq_eq_false_iff_ne.1 hb)) _),
    pure_apply, ← tokenHit]
  cases hf : tokenFound s p with
  | true => simp [tokenFound_iff.1 hf, MSD_RESPONSE_NO_ERROR]
  | false =>
      have hleft : 0xFFFF - (tokenHit s p - p) = 0 := by
        by_contra hne
        rw [tokenFound_iff.2 hne] at hf
        exact Bool.noConfusion hf
      simp [hleft, MSD_RESPONSE_FAILURE]

/-- Reading the bytes of a block into memory. -/
theorem recvBytes_eq (buf n : Nat) :
    forRange n (fun i ↦ do
        let b ← readWriteByte 0xFF
        store (buf + i) b) (onWire m s p mon v) =
      some ((), onWire (overlay m buf n fun i ↦ s (p + i)) s (p + n) (mon.hear s p n) v) := by
  refine (run_forRange (fun k t ↦ t =
    onWire (overlay m buf k fun i ↦ s (p + i)) s (p + k) (mon.hear s p k) v) ?_ (by
      simp [Monitor.hear])).eq
  rintro k _ hk rfl
  refine .of_eq (a := ()) ?_ rfl
  simp [bind_apply, overlay_succ, Monitor.hear, Nat.add_assoc]

/-- **`SD_RecvData`**, the start token coming in time. -/
theorem sdRecvData_token (ha : mon.Awaits) (h : tokenFound s p = true) (buf : Nat) (n : UInt16) :
    sdRecvData buf n (onWire m s p mon v) =
      some (0, onWire (overlay m buf n.toNat fun i ↦ s (tokenHit s p + 1 + i)) s
        (tokenHit s p + 1 + n.toNat + 2)
        ((mon.exchange 0xFF 0xFE).hear s (tokenHit s p + 1) (n.toNat + 2)) v) := by
  have hhear (mon' : Monitor) (q : Nat) : mon'.hear s q (n.toNat + 2) =
      ((mon'.hear s q n.toNat).exchange 0xFF (s (q + n.toNat))).exchange 0xFF
        (s (q + (n.toNat + 1))) := rfl
  rw [sdRecvData, bind_of_eq (sdGetResponse_eq ha), if_pos h, if_neg (by simp), miso_tokenHit h,
    bind_of_eq (recvBytes_eq _ _), hhear]
  simp only [bind_apply, readWriteByte_apply, Wire.exchange_eq, Option.bind_some, pure_apply,
    Nat.add_assoc, Nat.reduceAdd]

/-- `SD_RecvData` of a block. -/
theorem sdRecvData_found (ha : mon.Awaits) (h : tokenFound s p = true) (buf : Nat) :
    sdRecvData buf 512 (onWire m s p mon v) =
      some (0, onWire (overlay m buf 512 fun i ↦ s (tokenHit s p + 1 + i)) s (tokenHit s p + 515)
        ((mon.exchange 0xFF 0xFE).hear s (tokenHit s p + 1) 514) v) :=
  sdRecvData_token ha h buf 512

/-- **`SD_RecvData`** when the start token does not come. -/
theorem sdRecvData_missing (ha : mon.Awaits) (h : tokenFound s p = false) (buf : Nat) (n : UInt16) :
    sdRecvData buf n (onWire m s p mon v) =
      some (1, onWire m s (tokenHit s p + 1) (mon.exchange 0xFF (s (tokenHit s p))) v) := by
  rw [sdRecvData, bind_of_eq (sdGetResponse_eq ha), h]
  simp

end Stm32F1.Sd
