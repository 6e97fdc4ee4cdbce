import Stm32F1.Lib.Ghost
import Stm32F1.Sd.OnWire

/-!
# What `SD_Initialize` makes of its ready loop

Each way through `SD_Initialize` asks the card to begin until it is answered
with 0, and tells afterwards by the counter whether the loop ran out.  Here the
calls of `SD_SendCmd` and what they returned are noted beside the program, and
for every stream of bytes the notes are compared with the result.

The counter is decremented after it is tested.  A loop that succeeds in its last
round leaves 0 behind and is taken for one that ran out; a loop that ran out
leaves `0xFFFF` and is taken for one that succeeded.
-/

namespace Stm32F1.Sd

open Prog Mcu

/-! ## Noting the calls -/

/-- A device, with the calls of `SD_SendCmd`: the command and what was returned. -/
structure Noted (δ : Type) where
  dev : δ
  calls : List (UInt8 × UInt8)

namespace Noted

variable {δ : Type} [SpiDevice δ]

instance instSpiDevice : SpiDevice (Noted δ) where
  cs level d := { d with dev := SpiDevice.cs level d.dev }
  exchange b d := ((SpiDevice.exchange b d.dev).1, { d with dev := (SpiDevice.exchange b d.dev).2 })

omit [SpiDevice δ]

/-- The state without the notes. -/
def forget (s : Mcu (Noted δ) SdVars) : Mcu δ SdVars := ⟨s.mem, s.dev.dev, s.glob⟩

/-- The state with the notes of another one. -/
def beside (t : Mcu δ SdVars) (s : Mcu (Noted δ) SdVars) : Mcu (Noted δ) SdVars :=
  ⟨t.mem, ⟨t.dev, s.dev.calls⟩, t.glob⟩

/-- Note a call. -/
def note (cmd r1 : UInt8) (s : Mcu (Noted δ) SdVars) : Mcu (Noted δ) SdVars :=
  { s with dev := { s.dev with calls := s.dev.calls ++ [(cmd, r1)] } }

end Noted

open Noted

section Erasing

variable {δ : Type} [SpiDevice δ]

/-- `SD_SendCmd`, with a note. -/
def noteSendCmd (cmd : UInt8) (arg : UInt32) (crc : UInt8) : Prog (Mcu (Noted δ) SdVars) UInt8 := do
  let r1 ← zoom forget beside (sdSendCmd cmd arg crc)
  Prog.modify (note cmd r1)
  pure r1

theorem erases_noteSendCmd (cmd : UInt8) (arg : UInt32) (crc : UInt8) :
    Erases forget (noteSendCmd cmd arg crc) (sdSendCmd cmd arg crc : Prog (Mcu δ SdVars) UInt8) :=
  (erases_zoom fun _ _ ↦ rfl).note fun _ _ ↦ rfl

theorem erases_readWriteByte (b : UInt8) :
    Erases forget (readWriteByte b) (readWriteByte b : Prog (Mcu δ SdVars) UInt8) := fun _ ↦ rfl

omit [SpiDevice δ] in
theorem erases_setSdType (sdType : UInt8) :
    Erases forget (setSdType sdType) (setSdType sdType : Prog (Mcu δ SdVars) Unit) := fun _ ↦ rfl

theorem erases_readFour : Erases forget readFour
    (readFour : Prog (Mcu δ SdVars) (UInt8 × UInt8 × UInt8 × UInt8)) :=
  (erases_readWriteByte _).bind fun _ ↦ (erases_readWriteByte _).bind fun _ ↦
    (erases_readWriteByte _).bind fun _ ↦ (erases_readWriteByte _).bind fun _ ↦ .pure _

omit [SpiDevice δ] in
theorem erases_retrying {q : Prog (Mcu (Noted δ) SdVars) UInt8} {p : Prog (Mcu δ SdVars) UInt8}
    (h : Erases forget q p) (stop : UInt8) (retry : UInt16) :
    Erases forget (retrying q stop retry) (retrying p stop retry) :=
  (h.poll _).bind fun _ ↦ .pure _

theorem erases_acmd41 (arg : UInt32) : Erases forget (sendAcmd41By noteSendCmd arg)
    (sdSendAcmd41 arg : Prog (Mcu δ SdVars) UInt8) :=
  (erases_noteSendCmd _ _ _).bind fun _ ↦ erases_noteSendCmd _ _ _

theorem erases_initV2 : Erases forget (initV2By noteSendCmd)
    (sdInitV2 : Prog (Mcu δ SdVars) UInt8) := by
  refine erases_readFour.bind fun buf ↦ .ite ?_ (.pure _)
  refine (erases_retrying (erases_acmd41 _) _ _).bind fun r ↦ .ite (.pure _) ?_
  refine (erases_noteSendCmd _ _ _).bind fun r58 ↦ .ite ?_ (.pure _)
  exact erases_readFour.bind fun buf ↦ (erases_setSdType _).bind fun _ ↦ .pure _

theorem erases_initV1 : Erases forget (initV1By noteSendCmd)
    (sdInitV1 : Prog (Mcu δ SdVars) UInt8) := by
  refine (erases_acmd41 _).bind fun r1 ↦ .bind (.ite ?_ ?_) fun r ↦ .ite ?_ ?_
  · exact (erases_setSdType _).bind fun _ ↦ erases_retrying (erases_acmd41 _) _ _
  · exact (erases_setSdType _).bind fun _ ↦ erases_retrying (erases_noteSendCmd _ _ _) _ _
  · exact (erases_setSdType _).bind fun _ ↦ .pure _
  · exact (erases_noteSendCmd _ _ _).bind fun r16 ↦ (erases_setSdType _).when.bind fun _ ↦ .pure _

/-- The notes do not disturb `SD_Initialize`. -/
theorem erases_initialize : Erases forget (initializeBy noteSendCmd)
    (sdInitialize : Prog (Mcu δ SdVars) UInt8) := by
  have hspi : Erases forget sdSpiInit (sdSpiInit : Prog (Mcu δ SdVars) Unit) := fun _ ↦ rfl
  have hlow : Erases forget sdSpiSpeedLow (sdSpiSpeedLow : Prog (Mcu δ SdVars) Unit) := fun _ ↦ rfl
  have hhigh : Erases forget sdSpiSpeedHigh (sdSpiSpeedHigh : Prog (Mcu δ SdVars) Unit) :=
    fun _ ↦ rfl
  have hdis : Erases forget sdDisSelect (sdDisSelect : Prog (Mcu δ SdVars) Unit) := fun _ ↦ rfl
  have hget : Erases forget (get SdVars.sdType) (get SdVars.sdType : Prog (Mcu δ SdVars) UInt8) :=
    fun _ ↦ rfl
  refine hspi.bind fun _ ↦ hlow.bind fun _ ↦ ?_
  refine (Erases.forFrom (fun _ ↦ (erases_readWriteByte _).bind fun _ ↦ .pure _) 0 10).bind ?_
  intro _
  refine (erases_retrying (erases_noteSendCmd _ _ _) _ _).bind fun r ↦ ?_
  refine (erases_setSdType _).bind fun _ ↦ .bind (.ite ?_ (.pure _)) fun r1 ↦ ?_
  · exact (erases_noteSendCmd _ _ _).bind fun r8 ↦ erases_initV2.ite erases_initV1
  · exact hdis.bind fun _ ↦ hhigh.bind fun _ ↦ hget.bind fun _ ↦ .pure _

end Erasing

/-! ## What the notes tell -/

/-- The commands that ask a card to begin. -/
def asks (cmd : UInt8) : Bool := cmd == CMD41 || cmd == CMD1

/-- The commands that follow when the card has begun. -/
def goesOn (cmd : UInt8) : Bool := cmd == CMD58 || cmd == CMD16

/-- The last call that asked the card to begin. -/
def lastAsked (calls : List (UInt8 × UInt8)) : Option (UInt8 × UInt8) :=
  (calls.filter fun call ↦ asks call.1).getLast?

/-- The last request after one more call. -/
def asked (cmd r1 : UInt8) (last : Option (UInt8 × UInt8)) : Option (UInt8 × UInt8) :=
  if asks cmd then some (cmd, r1) else last

theorem lastAsked_note (calls : List (UInt8 × UInt8)) (cmd r1 : UInt8) :
    lastAsked (calls ++ [(cmd, r1)]) = asked cmd r1 (lastAsked calls) := by
  rw [lastAsked, List.filter_append, List.filter_singleton, asked]
  cases asks cmd with
  | true => exact List.getLast?_concat
  | false => exact congrArg List.getLast? (List.append_nil _)

/-- The result fits what the card said: success only when the last request was answered with 0, and
such an answer, whenever it comes, is followed by the next command. -/
structure Answered (r1 : UInt8) (calls : List (UInt8 × UInt8)) : Prop where
  success : r1 = 0 → ∃ cmd, lastAsked calls = some (cmd, 0)
  inTime : ∀ cmd, lastAsked calls = some (cmd, 0) → calls.any (fun call ↦ goesOn call.1) = true

/-! ## The ready loop on the stream -/

section Loop

variable (s : Nat → UInt8)

/-- A command from position `p` on: the answer, and the position after it. -/
def cmdRound (cmd : UInt8) (p : Nat) : UInt8 × Nat := (reply s p cmd, afterCmd s p cmd)

/-- `CMD55` and `CMD41`. -/
def acmd41Round (p : Nat) : UInt8 × Nat := cmdRound s CMD41 (afterCmd s p CMD55)

/-- Where the stream stands before round `i` of a loop that starts at `p`. -/
def roundAt (round : Nat → UInt8 × Nat) (p i : Nat) : Nat := (fun q ↦ (round q).2)^[i] p

/-- What round `i` is answered. -/
def answer (round : Nat → UInt8 × Nat) (p i : Nat) : UInt8 := (round (roundAt round p i)).1

/-- A ready loop: its rounds, where it starts, and the command that follows it. -/
structure ReadyLoop where
  round : Nat → UInt8 × Nat
  start : Nat
  next : UInt8

/-- The ready loop that a card leads `SD_Initialize` to, called at position `p` of the stream: after
11 bytes and at most 21 times `CMD0`, the answer to `CMD8` and the four bytes after it, or else that
to `CMD41`, decide which. -/
def readyLoop (p : Nat) : Option ReadyLoop :=
  let n := scan (fun i ↦ answer (cmdRound s CMD0) (p + 11) i == 0x01) 0 20
  if answer (cmdRound s CMD0) (p + 11) n = 0x01 then
    let r8 := cmdRound s CMD8 (roundAt (cmdRound s CMD0) (p + 11) (n + 1))
    if r8.1 = 1 then
      if s (r8.2 + 2) = 0x01 ∧ s (r8.2 + 3) = 0xAA then
        some ⟨acmd41Round s, r8.2 + 4, CMD58⟩
      else none
    else
      let first := acmd41Round s r8.2
      some ⟨if first.1 ≤ 1 then acmd41Round s else cmdRound s CMD1, first.2, CMD16⟩
  else none

/-- The counter tells such a loop rightly: it is answered with 0 in time and before its last round,
the 65535th; or never, and neither is the command that follows. -/
def ReadyLoop.Decided (l : ReadyLoop) : Prop :=
  (∃ i < 0xFFFE, answer l.round l.start i = 0) ∨
    (∀ i ≤ 0xFFFE, answer l.round l.start i ≠ 0) ∧
      reply s (roundAt l.round l.start 0xFFFF) l.next ≠ 0

end Loop

/-! ## `SD_Initialize` on the wire -/

/-- The driver with the stream `s` at position `p`: `SD_Type`, the last request, and whether a
command has followed the loop. -/
structure Heard (s : Nat → UInt8) (p : Nat) (sdType : UInt8) (last : Option (UInt8 × UInt8))
    (on : Bool) (t : Mcu (Noted Wire) SdVars) : Prop where
  miso : t.dev.dev.miso = s
  pos : t.dev.dev.pos = p
  sdType : t.glob.sdType = sdType
  last : lastAsked t.dev.calls = last
  on : t.dev.calls.any (fun call ↦ goesOn call.1) = on

namespace Heard

variable {s : Nat → UInt8} {p : Nat} {sdType : UInt8} {last : Option (UInt8 × UInt8)} {on : Bool}
  {t : Mcu (Noted Wire) SdVars}

theorem byte (h : Heard s p sdType last on t) (b : UInt8) :
    Run (readWriteByte b) t fun r t' ↦ r = s p ∧ Heard s (p + 1) sdType last on t' := by
  obtain ⟨rfl, rfl, rfl, rfl, rfl⟩ := h
  exact .of_eq (readWriteByte_apply b t) ⟨rfl, rfl, rfl, rfl, rfl, rfl⟩

theorem select (h : Heard s p sdType last on t) (level : Bool) :
    Run (chipSelect level) t fun _ t' ↦ Heard s p sdType last on t' :=
  .of_eq (chipSelect_apply level t) ⟨h.miso, h.pos, h.sdType, h.last, h.on⟩

theorem setSdType (h : Heard s p sdType last on t) (x : UInt8) :
    Run (setSdType x) t fun _ t' ↦ Heard s p x last on t' :=
  .of_eq (assign_apply _ t) ⟨h.miso, h.pos, rfl, h.last, h.on⟩

theorem disSelect (h : Heard s p sdType last on t) :
    Run sdDisSelect t fun _ t' ↦ Heard s (p + 1) sdType last on t' := by
  refine (h.select true).bind fun _ _ h₁ ↦ (h₁.byte 0xFF).bind ?_
  rintro _ t' ⟨-, h₂⟩
  exact run_pure.2 h₂

theorem readFour (h : Heard s p sdType last on t) : Run readFour t fun r t' ↦
    r = (s p, s (p + 1), s (p + 2), s (p + 3)) ∧ Heard s (p + 4) sdType last on t' := by
  refine (h.byte 0xFF).bind ?_
  rintro _ _ ⟨rfl, h₁⟩
  refine (h₁.byte 0xFF).bind ?_
  rintro _ _ ⟨rfl, h₂⟩
  refine (h₂.byte 0xFF).bind ?_
  rintro _ _ ⟨rfl, h₃⟩
  refine (h₃.byte 0xFF).bind ?_
  rintro _ _ ⟨rfl, h₄⟩
  exact run_pure.2 ⟨rfl, h₄⟩

theorem send (h : Heard s p sdType last on t) {cmd : UInt8} (hcmd : Command cmd) (arg : UInt32)
    (crc : UInt8) : Run (noteSendCmd cmd arg crc) t fun r t' ↦ r = reply s p cmd ∧
      Heard s (afterCmd s p cmd) sdType (asked cmd r last) (on || goesOn cmd) t' := by
  obtain ⟨m, ⟨⟨_, _, mon⟩, calls⟩, v⟩ := t
  obtain ⟨rfl, rfl, rfl, rfl, rfl⟩ := h
  refine run_bind.2 (run_zoom.2 (.of_eq (sdSendCmd_eq hcmd arg crc) ?_))
  refine run_bind.2 (run_modify.2 (run_pure.2 ⟨rfl, rfl, rfl, rfl, ?_, ?_⟩))
  · exact lastAsked_note calls cmd _
  · refine (List.any_append ..).trans ?_
    rw [List.any_cons, List.any_nil, Bool.or_false]
    rfl

end Heard

/-- The program queries the card with `cmd`, and is answered as `round` says. -/
def Queries (s : Nat → UInt8) (cmd : UInt8) (round : Nat → UInt8 × Nat)
    (q : Prog (Mcu (Noted Wire) SdVars) UInt8) : Prop :=
  ∀ p sdType last on t, Heard s p sdType last on t → Run q t fun r t' ↦
    r = (round p).1 ∧ Heard s (round p).2 sdType (asked cmd r last) on t'

section Rounds

variable {s : Nat → UInt8} {p : Nat} {sdType : UInt8} {last : Option (UInt8 × UInt8)} {on : Bool}
  {t : Mcu (Noted Wire) SdVars} {cmd : UInt8} {round : Nat → UInt8 × Nat}

theorem queries_send (hcmd : Command cmd) (hon : goesOn cmd = false) (arg : UInt32) (crc : UInt8) :
    Queries s cmd (cmdRound s cmd) (noteSendCmd cmd arg crc) := by
  intro p sdType last on t h
  refine (h.send hcmd arg crc).mono ?_
  rintro r t' ⟨hr, ht'⟩
  rw [hon, Bool.or_false] at ht'
  exact ⟨hr, ht'⟩

theorem queries_acmd41 (arg : UInt32) :
    Queries s CMD41 (acmd41Round s) (sendAcmd41By noteSendCmd arg) := by
  intro p sdType last on t h
  refine (queries_send command_cmd55 rfl 0 0x01 p sdType last on t h).bind ?_
  rintro r t' ⟨-, ht'⟩
  exact queries_send ⟨by decide, by decide⟩ rfl arg 0x01 _ _ _ _ _ ht'

theorem roundAt_succ (round : Nat → UInt8 × Nat) (p i : Nat) :
    roundAt round p (i + 1) = (round (roundAt round p i)).2 :=
  Function.iterate_succ_apply' _ i p

/-- A scan is known by where it stops. -/
theorem scan_eq {f : Nat → Bool} {n k : Nat} (hno : ∀ j < n, f j = false) (hle : n ≤ k)
    (hstop : f n = true ∨ n = k) : scan f 0 k = n := by
  obtain ⟨hle', hno', hyes'⟩ := scan_spec f 0 k
  rw [Nat.zero_add] at hle' hyes'
  rcases Nat.lt_trichotomy (scan f 0 k) n with h | h | h
  · have hyes := hyes' (by omega)
    rw [hno _ h] at hyes
    exact absurd hyes Bool.false_ne_true
  · exact h
  · rcases hstop with hf | rfl
    · rw [hno' n n.zero_le h] at hf
      exact absurd hf Bool.false_ne_true
    · omega

/-- **A loop that asks until it is answered with `stop`**: the last answer, what the counter is left
with, and the last request. -/
theorem Heard.retrying (h : Heard s p sdType last on t) {q : Prog (Mcu (Noted Wire) SdVars) UInt8}
    (hq : Queries s cmd round q) (stop : UInt8) (retry : UInt16) :
    Run (retrying q stop retry) t fun r t' ↦
      ∃ n, scan (fun i ↦ answer round p i == stop) 0 retry.toNat = n ∧ r.1 = answer round p n ∧
        r.2 = (if answer round p n = stop then UInt16.ofNat (retry.toNat - n) else 0xFFFF) ∧
        Heard s (roundAt round p (n + 1)) sdType (asked cmd r.1 last) on t' := by
  have hagain (a b : UInt8) (l : Option (UInt8 × UInt8)) :
      asked cmd b (asked cmd a l) = asked cmd b l := by
    rw [asked, asked, asked]
    split <;> rfl
  have hpoll : Run (poll q (fun r1 ↦ r1 == stop) retry.toNat) t fun r t' ↦
      ∃ n, scan (fun i ↦ answer round p i == stop) 0 retry.toNat = n ∧
        r.1 = answer round p n ∧ r.2 = retry.toNat - n ∧
        Heard s (roundAt round p (n + 1)) sdType (asked cmd r.1 last) on t' := by
    refine run_poll (fun k t' ↦ k ≤ retry.toNat ∧
      (∀ j < retry.toNat - k, (answer round p j == stop) = false) ∧
      ∃ last', (∀ a, asked cmd a last' = asked cmd a last) ∧
        Heard s (roundAt round p (retry.toNat - k)) sdType last' on t') _ ?_ ?_
    · rintro k t' ⟨hle, hno, last', hlast, ht'⟩
      refine (hq _ _ _ _ _ ht').mono ?_
      rintro r t'' ⟨rfl, ht''⟩
      rw [hlast, ← roundAt_succ] at ht''
      constructor
      · intro hdone
        refine ⟨retry.toNat - k, scan_eq hno (Nat.sub_le _ _) ?_, rfl, by omega, ht''⟩
        rcases hdone with hdone | rfl
        · exact .inl hdone
        · exact .inr (Nat.sub_zero _)
      · intro hgo hk
        have hstep : retry.toNat - (k - 1) = retry.toNat - k + 1 := by omega
        refine ⟨by omega, ?_, asked cmd (answer round p (retry.toNat - k)) last, ?_, ?_⟩
        · rw [hstep]
          intro j hj
          rcases Nat.lt_succ_iff_lt_or_eq.1 hj with hj | rfl
          · exact hno j hj
          · exact hgo
        · exact fun a ↦ hagain _ a last
        · rw [hstep]
          exact ht''
    · refine ⟨le_rfl, ?_, last, fun _ ↦ rfl, ?_⟩
      · intro j hj
        omega
      · rw [Nat.sub_self]
        exact h
  refine hpoll.bind ?_
  rintro ⟨r, k⟩ t' ⟨n, hn, hr, hk, ht'⟩
  refine run_pure.2 ⟨n, hn, hr, ?_, ht'⟩
  dsimp only at hr hk ⊢
  rw [hr, hk]

end Rounds

/-! ## The two branches -/

/-- The counter is 0 only after a success in the last round. -/
theorem counter_eq_zero {n : Nat} (hn : n ≤ 0xFFFE) (r : UInt8) :
    (if r = 0 then UInt16.ofNat ((0xFFFE : UInt16).toNat - n) else 0xFFFF) = 0 ↔
      r = 0 ∧ n = 0xFFFE := by
  have hmax : (0xFFFE : UInt16).toNat = 0xFFFE := rfl
  by_cases hr : r = 0
  · rw [if_pos hr]
    constructor
    · intro h
      have h := congrArg UInt16.toNat h
      rw [UInt16.toNat_ofNat', UInt16.toNat_zero, hmax, Nat.mod_eq_of_lt (by omega)] at h
      exact ⟨hr, by omega⟩
    · rintro ⟨-, rfl⟩
      rfl
  · rw [if_neg hr]
    constructor
    · intro h
      exact absurd h (by decide)
    · rintro ⟨h, -⟩
      exact absurd h hr

/-- A ready loop `l` has come to its end in round `n`, with the answer `r`; success in its last
round was taken for a timeout, and after anything else the next command decided. -/
def Looped (s : Nat → UInt8) (l : ReadyLoop) (r : UInt8) (t : Mcu (Noted Wire) SdVars) : Prop :=
  ∃ n cmd p sdType on, scan (fun i ↦ answer l.round l.start i == 0) 0 0xFFFE = n ∧
    r = answer l.round l.start n ∧ Heard s p sdType (some (cmd, r)) on t ∧
    (r = 0 ∧ n = 0xFFFE → sdType = 0 ∧ on = false) ∧
    (¬ (r = 0 ∧ n = 0xFFFE) → on = true ∧
      (sdType ≠ 0 ↔ reply s (roundAt l.round l.start (n + 1)) l.next = 0))

section Branches

variable {s : Nat → UInt8} {p : Nat} {sdType : UInt8} {last : Option (UInt8 × UInt8)}
  {t : Mcu (Noted Wire) SdVars}

theorem scan_le (f : Nat → Bool) (k : Nat) : scan f 0 k ≤ k := by
  have h := (scan_spec f 0 k).1
  rwa [Nat.zero_add] at h

theorem run_initV2 (h : Heard s p 0 last false t) : Run (initV2By noteSendCmd) t fun r t' ↦
    (s (p + 2) = 0x01 ∧ s (p + 3) = 0xAA → Looped s ⟨acmd41Round s, p + 4, CMD58⟩ r t') ∧
    (¬ (s (p + 2) = 0x01 ∧ s (p + 3) = 0xAA) → r = 0x01 ∧ ∃ p', Heard s p' 0 last false t') := by
  refine h.readFour.bind ?_
  rintro _ t₁ ⟨rfl, h₁⟩
  by_cases hecho : s (p + 2) = 0x01 ∧ s (p + 3) = 0xAA
  · rw [if_pos hecho]
    refine Run.mono ?_ fun r t' hl ↦ ⟨fun _ ↦ hl, fun h ↦ absurd hecho h⟩
    refine (h₁.retrying (queries_acmd41 0x40000000) 0 0xFFFE).bind ?_
    rintro ⟨r, k⟩ t₂ ⟨n, hn, rfl, hk, h₂⟩
    dsimp only at hk h₂ ⊢
    have hle : n ≤ 0xFFFE := hn ▸ scan_le _ _
    have hcount := counter_eq_zero hle (answer (acmd41Round s) (p + 4) n)
    rw [← hk] at hcount
    rw [run_ite]
    split
    · rename_i hzero
      exact run_pure.2 ⟨n, CMD41, _, _, _, hn, rfl, h₂, fun _ ↦ ⟨rfl, rfl⟩,
        fun h ↦ absurd (hcount.1 hzero) h⟩
    · rename_i hne
      refine (h₂.send ⟨by decide, by decide⟩ 0 0x01).bind ?_
      rintro r58 t₃ ⟨rfl, h₃⟩
      rw [run_ite]
      split
      · rename_i h58
        refine h₃.readFour.bind ?_
        rintro buf t₄ ⟨-, h₄⟩
        refine (h₄.setSdType _).bind fun _ t₅ h₅ ↦ run_pure.2 ?_
        refine ⟨n, CMD41, _, _, _, hn, rfl, h₅, fun h ↦ absurd (hcount.2 h) hne,
          fun _ ↦ ⟨rfl, fun _ ↦ h58, fun _ ↦ ?_⟩⟩
        split <;> decide
      · rename_i h58
        exact run_pure.2 ⟨n, CMD41, _, _, _, hn, rfl, h₃, fun h ↦ absurd (hcount.2 h) hne,
          fun _ ↦ ⟨rfl, fun h ↦ absurd rfl h, fun h ↦ absurd h h58⟩⟩
  · rw [if_neg hecho]
    exact run_pure.2 ⟨fun h ↦ absurd h hecho, fun _ ↦ ⟨rfl, _, h₁⟩⟩

/-- After a loop of the other branch, in which `SD_Type` was set, `CMD16` decides. -/
theorem run_setBlockLen {l : ReadyLoop} {n : Nat} {cmd : UInt8} {on : Bool} {k : UInt16}
    (hnext : l.next = CMD16) (htype : sdType ≠ 0)
    (hn : scan (fun i ↦ answer l.round l.start i == 0) 0 0xFFFE = n)
    (hk : k = if answer l.round l.start n = 0 then UInt16.ofNat ((0xFFFE : UInt16).toNat - n)
      else 0xFFFF) (hon : on = false)
    (h : Heard s (roundAt l.round l.start (n + 1)) sdType
      (some (cmd, answer l.round l.start n)) on t) :
    Run (if k = 0 then do
        setSdType SD_TYPE_ERR
        pure (answer l.round l.start n)
      else do
        let r16 ← noteSendCmd CMD16 512 0x01
        when (r16 != 0) (setSdType SD_TYPE_ERR)
        pure (answer l.round l.start n)) t fun r t' ↦ Looped s l r t' := by
  subst hon
  have hle : n ≤ 0xFFFE := hn ▸ scan_le _ _
  have hcount := counter_eq_zero hle (answer l.round l.start n)
  rw [← hk] at hcount
  rw [run_ite]
  split
  · rename_i hzero
    refine (h.setSdType _).bind fun _ t' h' ↦ run_pure.2 ?_
    exact ⟨n, cmd, _, _, _, hn, rfl, h', fun _ ↦ ⟨rfl, rfl⟩, fun h ↦ absurd (hcount.1 hzero) h⟩
  · rename_i hne
    refine (h.send ⟨by decide, by decide⟩ 512 0x01).bind ?_
    rintro r16 t₁ ⟨rfl, h₁⟩
    rw [← hnext]
    by_cases h16 : reply s (roundAt l.round l.start (n + 1)) l.next = 0
    · rw [h16]
      refine run_pure.2 ⟨n, cmd, _, _, _, hn, rfl, h₁, fun h ↦ absurd (hcount.2 h) hne, ?_⟩
      exact fun _ ↦ ⟨rfl, fun _ ↦ h16, fun _ ↦ htype⟩
    · rw [bne_iff_ne.2 h16]
      refine (h₁.setSdType _).bind fun _ t' h' ↦ run_pure.2 ?_
      exact ⟨n, cmd, _, _, _, hn, rfl, h', fun h ↦ absurd (hcount.2 h) hne,
        fun _ ↦ ⟨rfl, fun h ↦ absurd rfl h, fun h ↦ absurd h h16⟩⟩

theorem run_initV1 (h : Heard s p 0 last false t) : Run (initV1By noteSendCmd) t
    (Looped s ⟨if (acmd41Round s p).1 ≤ 1 then acmd41Round s else cmdRound s CMD1,
      (acmd41Round s p).2, CMD16⟩) := by
  refine (queries_acmd41 0 p 0 last false t h).bind ?_
  rintro _ t₁ ⟨rfl, h₁⟩
  by_cases hle : (acmd41Round s p).1 ≤ 1
  · rw [if_pos hle, if_pos hle, bind_assoc']
    refine (h₁.setSdType SD_TYPE_V1).bind fun _ t₂ h₂ ↦ ?_
    refine (h₂.retrying (queries_acmd41 0) 0 0xFFFE).bind ?_
    rintro ⟨r, k⟩ t₃ ⟨n, hn, rfl, hk, h₃⟩
    exact run_setBlockLen (l := ⟨acmd41Round s, (acmd41Round s p).2, CMD16⟩) rfl (by decide) hn hk
      rfl h₃
  · rw [if_neg hle, if_neg hle, bind_assoc']
    refine (h₁.setSdType SD_TYPE_MMC).bind fun _ t₂ h₂ ↦ ?_
    refine (h₂.retrying (queries_send ⟨by decide, by decide⟩ rfl 0 0x01) 0 0xFFFE).bind ?_
    rintro ⟨r, k⟩ t₃ ⟨n, hn, rfl, hk, h₃⟩
    exact run_setBlockLen (l := ⟨cmdRound s CMD1, (acmd41Round s p).2, CMD16⟩) rfl (by decide) hn hk
      rfl h₃

end Branches

/-! ## The whole of it -/

section Whole

variable {m s : Nat → UInt8} {p : Nat} {mon : Monitor} {v : SdVars}

/-- `SD_Initialize` is called with nothing noted. -/
def unnoted (m s : Nat → UInt8) (p : Nat) (mon : Monitor) (v : SdVars) : Mcu (Noted Wire) SdVars :=
  ⟨m, ⟨⟨s, p, mon⟩, []⟩, v⟩

/-- The end of `SD_Initialize`. -/
def reported (sdType r1 : UInt8) : UInt8 := if sdType ≠ 0 then 0 else if r1 ≠ 0 then r1 else 0xAA

theorem reported_eq_zero {sdType r1 : UInt8} : reported sdType r1 = 0 ↔ sdType ≠ 0 := by
  rw [reported]
  split
  · simp [*]
  · split
    · simp [*]
    · simp [*]

/-- The bytes before the first command. -/
theorem Heard.start {sdType : UInt8} {last : Option (UInt8 × UInt8)} {on : Bool}
    {t : Mcu (Noted Wire) SdVars} (h : Heard s p sdType last on t)
    {q : Prog (Mcu (Noted Wire) SdVars) UInt8} {Q : UInt8 → Mcu (Noted Wire) SdVars → Prop}
    (hq : ∀ t', Heard s (p + 11) sdType last on t' → Run q t' Q) : Run (do
      sdSpiInit
      sdSpiSpeedLow
      forRange 10 fun _ ↦ do
        let _ ← readWriteByte 0xFF
      q) t Q := by
  have hspi : Run sdSpiInit t fun _ t' ↦ Heard s (p + 1) sdType last on t' := by
    refine (h.select true).bind fun _ t₁ h₁ ↦ run_bind.2 ?_
    have h₂ : Heard s p sdType last on { t₁ with glob := { t₁.glob with
        prescaler := SPI_BaudRatePrescaler_256 } } := ⟨h₁.miso, h₁.pos, h₁.sdType, h₁.last, h₁.on⟩
    refine .of_eq (assign_apply _ t₁) ((h₂.byte 0xFF).bind ?_)
    rintro _ t₃ ⟨-, h₃⟩
    exact h₃.select true
  refine hspi.bind fun _ t₁ h₁ ↦ run_bind.2 ?_
  have h₂ : Heard s (p + 1) sdType last on { t₁ with glob := { t₁.glob with
      prescaler := SPI_BaudRatePrescaler_256 } } := ⟨h₁.miso, h₁.pos, h₁.sdType, h₁.last, h₁.on⟩
  refine .of_eq (assign_apply _ t₁) ?_
  refine (run_forRange (fun k t' ↦ Heard s (p + 1 + k) sdType last on t') ?_ h₂).bind fun _ t' ↦
    hq t'
  intro k t' _ ht'
  refine (ht'.byte 0xFF).bind ?_
  rintro _ t'' ⟨-, ht''⟩
  exact run_pure.2 ht''

/-- The bus is released, and the result is that of `SD_Type` and `r1`. -/
theorem Heard.stop {sdType : UInt8} {last : Option (UInt8 × UInt8)} {on : Bool}
    {t : Mcu (Noted Wire) SdVars} (h : Heard s p sdType last on t) (r1 : UInt8) : Run (do
      sdDisSelect
      sdSpiSpeedHigh
      let sdType ← get SdVars.sdType
      pure (if sdType ≠ 0 then 0 else if r1 ≠ 0 then r1 else 0xAA)) t fun r t' ↦
        r = reported sdType r1 ∧ Heard s (p + 1) sdType last on t' := by
  refine h.disSelect.bind fun _ t₁ h₁ ↦ run_bind.2 (.of_eq (assign_apply _ t₁) ?_)
  refine run_bind.2 (run_read.2 (run_pure.2 ⟨?_, h₁.miso, h₁.pos, h₁.sdType, h₁.last, h₁.on⟩))
  rw [reported, ← h₁.sdType]

/-- How `SD_Initialize` ends: after the ready loop, if the card has led to one. -/
structure Ended (s : Nat → UInt8) (p : Nat) (r : UInt8) (t : Mcu (Noted Wire) SdVars) : Prop where
  looped : ∀ l, readyLoop s p = some l → ∃ r1, Looped s l r1 t ∧ r = reported t.glob.sdType r1
  gaveUp : readyLoop s p = none → r ≠ 0 ∧ lastAsked t.dev.calls = none

theorem Heard.gaveUp {q : Nat} {t : Mcu (Noted Wire) SdVars} (h : Heard s q 0 none false t)
    (hl : readyLoop s p = none) (r1 : UInt8) : Run (do
      sdDisSelect
      sdSpiSpeedHigh
      let sdType ← get SdVars.sdType
      pure (if sdType ≠ 0 then 0 else if r1 ≠ 0 then r1 else 0xAA)) t (Ended s p) := by
  refine (h.stop r1).mono ?_
  rintro r t' ⟨rfl, h'⟩
  refine ⟨fun l hsome ↦ ?_, fun _ ↦ ⟨fun h0 ↦ reported_eq_zero.1 h0 rfl, h'.last⟩⟩
  rw [hl] at hsome
  exact absurd hsome (Option.some_ne_none l).symm

theorem Looped.stop {l : ReadyLoop} {r1 : UInt8} {t : Mcu (Noted Wire) SdVars} (h : Looped s l r1 t)
    (hl : readyLoop s p = some l) : Run (do
      sdDisSelect
      sdSpiSpeedHigh
      let sdType ← get SdVars.sdType
      pure (if sdType ≠ 0 then 0 else if r1 ≠ 0 then r1 else 0xAA)) t (Ended s p) := by
  obtain ⟨n, cmd, q, sdType, on, hn, hr, hheard, hlast, hother⟩ := h
  refine (hheard.stop r1).mono ?_
  rintro r t' ⟨rfl, h'⟩
  constructor
  · intro l' hl'
    obtain rfl : l = l' := Option.some.inj (hl.symm.trans hl')
    exact ⟨r1, ⟨n, cmd, _, sdType, on, hn, hr, h', hlast, hother⟩, by rw [h'.sdType]⟩
  · intro hnone
    rw [hl] at hnone
    exact absurd hnone (Option.some_ne_none l)

/-- **`SD_Initialize`** on the wire. -/
theorem run_initialize : Run (initializeBy noteSendCmd) (unnoted m s p mon v) (Ended s p) := by
  have hunnoted : Heard s p v.sdType none false (unnoted m s p mon v) := ⟨rfl, rfl, rfl, rfl, rfl⟩
  have hcmd0 : Queries s CMD0 (cmdRound s CMD0) (noteSendCmd CMD0 0 0x95) :=
    queries_send ⟨by decide, by decide⟩ rfl 0 0x95
  refine hunnoted.start fun t₁ h₁ ↦ ?_
  refine (h₁.retrying hcmd0 0x01 20).bind ?_
  rintro ⟨r, k⟩ t₂ ⟨n, hn, rfl, -, h₂⟩
  refine (h₂.setSdType 0).bind fun _ t₃ h₃ ↦ ?_
  rw [show (20 : UInt16).toNat = 20 from rfl] at hn
  dsimp only
  by_cases hreset : answer (cmdRound s CMD0) (p + 11) n = 0x01
  · rw [if_pos hreset, bind_assoc']
    refine (h₃.send ⟨by decide, by decide⟩ 0x1AA 0x87).bind ?_
    rintro r8 t₄ ⟨rfl, h₄⟩
    set q := roundAt (cmdRound s CMD0) (p + 11) (n + 1) with hq
    by_cases h8 : reply s q CMD8 = 1
    · rw [if_pos h8]
      refine (run_initV2 h₄).bind ?_
      rintro r1 t₅ ⟨hyes, hno⟩
      by_cases hecho : s (afterCmd s q CMD8 + 2) = 0x01 ∧ s (afterCmd s q CMD8 + 3) = 0xAA
      · refine (hyes hecho).stop ?_
        simp only [readyLoop, hn, if_pos hreset, ← hq, cmdRound, if_pos h8, if_pos hecho]
      · obtain ⟨rfl, q', h₅⟩ := hno hecho
        refine h₅.gaveUp ?_ _
        simp only [readyLoop, hn, if_pos hreset, ← hq, cmdRound, if_pos h8, if_neg hecho]
    · rw [if_neg h8]
      refine (run_initV1 h₄).bind fun r1 t₅ h₅ ↦ h₅.stop ?_
      simp only [readyLoop, hn, if_pos hreset, ← hq, cmdRound, if_neg h8]
  · rw [if_neg hreset]
    have hnone : readyLoop s p = none := by
      simp only [readyLoop, hn, if_neg hreset]
    exact run_bind.2 (run_pure.2 (h₃.gaveUp hnone _))

/-- The loop is told rightly exactly when its answers let the counter tell. -/
theorem Looped.answered_iff {l : ReadyLoop} {r1 : UInt8} {t : Mcu (Noted Wire) SdVars}
    (h : Looped s l r1 t) : Answered (reported t.glob.sdType r1) t.dev.calls ↔ l.Decided s := by
  obtain ⟨n, cmd, q, sdType, on, hn, rfl, hheard, hlast, hother⟩ := h
  obtain ⟨hle, hno, hyes⟩ := scan_spec (fun i ↦ answer l.round l.start i == 0) 0 0xFFFE
  rw [hn, Nat.zero_add] at hle
  rw [hn] at hno
  rw [hn, Nat.zero_add] at hyes
  have hbefore (j : Nat) (hj : j < n) : answer l.round l.start j ≠ 0 := by
    have := hno j j.zero_le hj
    exact beq_eq_false_iff_ne.1 this
  by_cases hend : answer l.round l.start n = 0 ∧ n = 0xFFFE
  · -- Success in the last round.
    obtain ⟨hzero, rfl⟩ := hend
    constructor
    · intro htrue
      have hon := htrue.inTime cmd (by rw [hheard.last, hzero])
      rw [hheard.on, (hlast ⟨hzero, rfl⟩).2] at hon
      exact absurd hon Bool.false_ne_true
    · rintro (⟨i, hi, hi0⟩ | ⟨hall, -⟩)
      · exact absurd hi0 (hbefore i hi)
      · exact absurd hzero (hall _ le_rfl)
  · obtain ⟨hon, htype⟩ := hother hend
    by_cases hzero : answer l.round l.start n = 0
    · -- Success in time.
      refine iff_of_true ⟨fun _ ↦ ⟨cmd, by rw [hheard.last, hzero]⟩, fun _ _ ↦ ?_⟩
        (.inl ⟨n, ?_, hzero⟩)
      · rw [hheard.on, hon]
      · exact lt_of_le_of_ne hle fun h ↦ hend ⟨hzero, h⟩
    · -- No success at all.
      have hn' : n = 0xFFFE := by
        by_contra hne
        exact hzero (beq_iff_eq.1 (hyes (lt_of_le_of_ne hle hne)))
      subst hn'
      have hall (i : Nat) (hi : i ≤ 0xFFFE) : answer l.round l.start i ≠ 0 := by
        rcases Nat.lt_or_eq_of_le hi with hi | rfl
        · exact hbefore i hi
        · exact hzero
      constructor
      · intro htrue
        refine .inr ⟨hall, fun hnext ↦ ?_⟩
        obtain ⟨cmd', hcmd'⟩ := htrue.success (reported_eq_zero.2 (by
          rw [hheard.sdType]
          exact htype.2 hnext))
        rw [hheard.last] at hcmd'
        exact hzero (Prod.mk.inj (Option.some.inj hcmd')).2
      · rintro (⟨i, hi, hi0⟩ | ⟨-, hnext⟩)
        · exact absurd hi0 (hall i hi.le)
        · constructor
          · intro h0
            have hne := reported_eq_zero.1 h0
            rw [hheard.sdType] at hne
            exact absurd (htype.1 hne) hnext
          · intro cmd' hcmd'
            rw [hheard.last] at hcmd'
            exact absurd (Prod.mk.inj (Option.some.inj hcmd')).2 hzero

/-- The result is right exactly when the card does not lead `SD_Initialize` to a ready loop, or to
one that its counter tells rightly. -/
theorem answered_iff : Run (initializeBy noteSendCmd) (unnoted m s p mon v) fun r t ↦
    (Answered r t.dev.calls ↔ ∀ l, readyLoop s p = some l → l.Decided s) := by
  refine run_initialize.mono ?_
  rintro r t ⟨hsome, hnone⟩
  cases hl : readyLoop s p with
  | none =>
      obtain ⟨hr, hlast⟩ := hnone hl
      refine iff_of_true ⟨fun h ↦ absurd h hr, fun cmd h ↦ ?_⟩ nofun
      rw [hlast] at h
      exact absurd h (Option.some_ne_none _).symm
  | some l =>
      obtain ⟨r1, hlooped, rfl⟩ := hsome l hl
      rw [hlooped.answered_iff]
      constructor
      · intro h l' hl'
        exact Option.some.inj hl' ▸ h
      · exact fun h ↦ h l rfl

/-- **`SD_Initialize` reports readiness as the card did, exactly when** the card leads it to no
ready loop, or to one that is answered with 0 before its 65535th round, or never, the next command
not being answered with 0 either. -/
theorem ready_reported_iff (m s : Nat → UInt8) (p : Nat) (mon : Monitor) (v : SdVars) :
    Run sdInitialize (onWire m s p mon v) fun r _ ↦
      ∃ t, initializeBy noteSendCmd (unnoted m s p mon v) = some (r, t) ∧
        (Answered r t.dev.calls ↔ ∀ l, readyLoop s p = some l → l.Decided s) := by
  have hrun : Run (initializeBy noteSendCmd) (unnoted m s p mon v) fun r t ↦
      (Answered r t.dev.calls ↔ ∀ l, readyLoop s p = some l → l.Decided s) := answered_iff
  obtain ⟨r, t, ht, hiff⟩ := hrun
  have herase := erases_initialize (unnoted m s p mon v)
  rw [ht] at herase
  exact ⟨r, forget t, herase.symm, t, ht, hiff⟩

end Whole

/-! ## A card that never begins -/

/-- A card that is always ready and answers at once: the `j`-th command after the first 11 bytes
with `rep j`. -/
def brisk (rep : Nat → UInt8) (q : Nat) : UInt8 :=
  if 11 ≤ q ∧ (q - 11) % 9 = 8 then rep ((q - 11) / 9) else 0xFF

theorem brisk_round {rep : Nat → UInt8} {j : Nat} (hrep : rep j &&& 0x80 = 0) {cmd : UInt8}
    (hcmd : cmd ≠ CMD12) : cmdRound (brisk rep) cmd (11 + 9 * j) = (rep j, 11 + 9 * (j + 1)) := by
  have hready : brisk rep (11 + 9 * j + 1) = 0xFF := if_neg (by omega)
  have hat : brisk rep (11 + 9 * j + 8) = rep j := by
    rw [brisk, if_pos (by omega)]
    congr 1
    omega
  obtain ⟨hreply, hafter⟩ := reply_at_once hcmd hready (hat.symm ▸ hrep)
  rw [cmdRound, hreply, hafter, hat]
  rfl

/-- The replies of a card of version 1 that does not begin, and takes the block length after all. -/
def neverBegins (j : Nat) : UInt8 := if j = 1 then 5 else if j < 131074 then 1 else 0

theorem neverBegins_round (j : Nat) {cmd : UInt8} (hcmd : cmd ≠ CMD12) :
    cmdRound (brisk neverBegins) cmd (11 + 9 * j) = (neverBegins j, 11 + 9 * (j + 1)) := by
  apply brisk_round _ hcmd
  rw [neverBegins]
  split
  · decide
  · split <;> decide

theorem neverBegins_acmd41 (j : Nat) : acmd41Round (brisk neverBegins) (11 + 9 * j) =
    (neverBegins (j + 1), 11 + 9 * (j + 2)) := by
  have h55 : afterCmd (brisk neverBegins) (11 + 9 * j) CMD55 = 11 + 9 * (j + 1) :=
    congrArg Prod.snd (neverBegins_round j (by decide))
  rw [acmd41Round, h55, neverBegins_round (j + 1) (by decide)]

theorem neverBegins_roundAt (i : Nat) :
    roundAt (acmd41Round (brisk neverBegins)) 47 i = 11 + 9 * (4 + 2 * i) := by
  induction i with
  | zero => rfl
  | succ i ih =>
      rw [roundAt_succ, ih, neverBegins_acmd41]
      rfl

theorem neverBegins_readyLoop : readyLoop (brisk neverBegins) 0 =
    some ⟨acmd41Round (brisk neverBegins), 47, CMD16⟩ := by
  have hreset : cmdRound (brisk neverBegins) CMD0 11 = (1, 20) := neverBegins_round 0 (by decide)
  have hanswer : answer (cmdRound (brisk neverBegins) CMD0) (0 + 11) 0 = 1 :=
    congrArg Prod.fst hreset
  have hn : scan (fun i ↦ answer (cmdRound (brisk neverBegins) CMD0) (0 + 11) i == 0x01) 0 20 = 0 :=
    scan_eq nofun (Nat.zero_le _) (.inl (beq_iff_eq.2 hanswer))
  have hat : roundAt (cmdRound (brisk neverBegins) CMD0) (0 + 11) (0 + 1) = 20 :=
    congrArg Prod.snd hreset
  have h8 : cmdRound (brisk neverBegins) CMD8 20 = (5, 29) := neverBegins_round 1 (by decide)
  have h41 : acmd41Round (brisk neverBegins) 29 = (1, 47) := neverBegins_acmd41 2
  simp only [readyLoop, hn, hanswer, hat, h8, h41]
  rfl

/-- After 65535 rounds without an answer 0, `SD_Initialize` of this card succeeds. -/
theorem timeout_reported_as_success :
    ¬ ∀ (m s : Nat → UInt8) (p : Nat) (mon : Monitor) (v : SdVars),
    Run sdInitialize (onWire m s p mon v) fun r _ ↦
      ∃ t, initializeBy noteSendCmd (unnoted m s p mon v) = some (r, t) ∧
        Answered r t.dev.calls := by
  intro h
  let mon : Monitor := ⟨false, .idle, []⟩
  obtain ⟨r, _, -, t, ht, htrue⟩ := h (fun _ ↦ 0) (brisk neverBegins) 0 ⟨false, .idle, []⟩ ⟨0, 0⟩
  have hiff := (answered_iff (m := fun _ ↦ 0) (s := brisk neverBegins) (p := 0)).elim ht
  rcases hiff.1 htrue _ neverBegins_readyLoop with ⟨i, hi, hi0⟩ | ⟨-, hnext⟩
  · rw [answer, neverBegins_roundAt] at hi0
    dsimp only at hi0
    rw [neverBegins_acmd41, neverBegins, if_neg (by omega), if_pos (by omega)] at hi0
    have h1 : (1 : UInt8) = 0 := hi0
    exact absurd h1 (by decide)
  · refine hnext ?_
    have h16 : cmdRound (brisk neverBegins) CMD16 (11 + 9 * 131074) =
        (neverBegins 131074, 11 + 9 * (131074 + 1)) := neverBegins_round 131074 (by decide)
    rw [neverBegins_roundAt]
    exact congrArg Prod.fst h16

end Stm32F1.Sd
