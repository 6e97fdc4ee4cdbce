import Stm32F1.Sd.OnWire

/-!
# The wait for a token

`SD_GetResponse` tells by what is left of `Count` whether the token came.  The
counter is compared after the byte: the byte read when it has reached 0 is thrown
away, be it the token or not.
-/

namespace Stm32F1.Sd

open Prog Mcu

variable {m : Nat → UInt8} {s : Nat → UInt8} {p : Nat} {mon : Monitor} {v : SdVars}
  {token : UInt8} {n : Nat}

/-! ## What is asked of the wait -/

/-- Counted from `p`, the byte `n` is the first one that is the token. -/
def FirstAt (s : Nat → UInt8) (p : Nat) (token : UInt8) (n : Nat) : Prop :=
  s (p + n) = token ∧ ∀ i < n, s (p + i) ≠ token

/-- `SD_GetResponse` reads at most 65536 bytes, and reports success exactly when the last of them
is the token. -/
def TokenAwaited (token : UInt8) (t : Mcu Wire SdVars) : Prop :=
  Run (sdGetResponse token) t fun r t' ↦ ∃ n < 65536, t'.dev.pos = t.dev.pos + n + 1 ∧
    (r = MSD_RESPONSE_NO_ERROR ↔ t.dev.miso (t.dev.pos + n) = token)

/-- `SD_RecvData` stores the bytes that follow the start token, which is one of the first 65536;
when it reports a failure it has stored nothing and consumed no start token. -/
def StoredAfterToken (buf : Nat) (len : UInt16) (t : Mcu Wire SdVars) : Prop :=
  Run (sdRecvData buf len) t fun r t' ↦
    (r = 0 → ∃ n < 65536, FirstAt t.dev.miso t.dev.pos 0xFE n ∧
      t'.dev.pos = t.dev.pos + n + 1 + len.toNat + 2 ∧
      t'.mem = overlay t.mem buf len.toNat fun i ↦ t.dev.miso (t.dev.pos + n + 1 + i)) ∧
    (r ≠ 0 → t'.mem = t.mem ∧ ∀ i, t.dev.pos ≤ i → i < t'.dev.pos → t.dev.miso i ≠ 0xFE)

/-! ## The loop -/

/-- The round in which the wait for the token ends. -/
def tokenRound (s : Nat → UInt8) (p : Nat) (token : UInt8) : Nat :=
  scan (fun i ↦ s (p + i) == token) 0 0xFFFF

theorem tokenRound_le (s : Nat → UInt8) (p : Nat) (token : UInt8) :
    tokenRound s p token ≤ 0xFFFF := by
  have hspec := (scan_spec (fun i ↦ s (p + i) == token) 0 0xFFFF).1
  rwa [Nat.zero_add] at hspec

/-- The bytes before the last one are not the token. -/
theorem ne_token_of_lt {i : Nat} (hi : i < tokenRound s p token) : s (p + i) ≠ token := by
  have hspec := (scan_spec (fun i ↦ s (p + i) == token) 0 0xFFFF).2.1 i i.zero_le hi
  exact beq_eq_false_iff_ne.1 hspec

/-- If the counter has not run out, the last byte is the token. -/
theorem firstAt_of_lt (h : tokenRound s p token < 0xFFFF) :
    FirstAt s p token (tokenRound s p token) := by
  have hspec := (scan_spec (fun i ↦ s (p + i) == token) 0 0xFFFF).2.2
  rw [Nat.zero_add] at hspec
  exact ⟨beq_iff_eq.1 (hspec h), fun _ hi ↦ ne_token_of_lt hi⟩

theorem FirstAt.unique {n' : Nat} (h : FirstAt s p token n) (h' : FirstAt s p token n') :
    n = n' := by
  apply Nat.le_antisymm
  · exact not_lt.1 fun hlt ↦ h.2 n' hlt h'.1
  · exact not_lt.1 fun hlt ↦ h'.2 n hlt h.1

/-- The last round finds the token exactly when the token is in no byte before. -/
theorem firstAt_limit_iff :
    FirstAt s p token 0xFFFF ↔ tokenRound s p token = 0xFFFF ∧ s (p + 0xFFFF) = token := by
  constructor
  · intro h
    refine ⟨?_, h.1⟩
    rcases Nat.lt_or_eq_of_le (tokenRound_le s p token) with hlt | heq
    · exact (firstAt_of_lt hlt).unique h
    · exact heq
  · rintro ⟨hround, htoken⟩
    refine ⟨htoken, ?_⟩
    intro i hi
    rw [← hround] at hi
    exact ne_token_of_lt hi

/-- **`SD_GetResponse`**, for every stream and every token. -/
theorem sdGetResponse_wire (token : UInt8) :
    sdGetResponse token (onWire m s p mon v) =
      some (if tokenRound s p token = 0xFFFF then MSD_RESPONSE_FAILURE else MSD_RESPONSE_NO_ERROR,
        onWire m s (p + (tokenRound s p token + 1)) (mon.hear s p (tokenRound s p token + 1))
        v) := by
  have hle := tokenRound_le s p token
  have hleft : 0xFFFF - tokenRound s p token = 0 ↔ tokenRound s p token = 0xFFFF := by omega
  rw [sdGetResponse, bind_of_eq (poll_wire _ _), ← tokenRound, pure_apply]
  simp only [hleft]

/-! ## When it is as asked -/

/-- The wait fails to see the token only where that is the last byte it may read. -/
theorem tokenAwaited_iff (t : Mcu Wire SdVars) :
    TokenAwaited token t ↔ ¬ FirstAt t.dev.miso t.dev.pos token 0xFFFF := by
  obtain ⟨m, ⟨s, p, mon⟩, v⟩ := t
  rw [TokenAwaited, run_of_eq (sdGetResponse_wire token), firstAt_limit_iff]
  have hle := tokenRound_le s p token
  constructor
  · rintro ⟨n, -, hpos, hiff⟩ ⟨hround, htoken⟩
    have hn : n = 0xFFFF := by
      simp only [hround] at hpos
      omega
    subst hn
    rw [if_pos hround] at hiff
    exact absurd (hiff.2 htoken) (by decide)
  · intro h
    refine ⟨tokenRound s p token, Nat.lt_succ_of_le hle, rfl, ?_⟩
    by_cases hround : tokenRound s p token = 0xFFFF
    · rw [if_pos hround]
      have htoken : s (p + tokenRound s p token) ≠ token := by
        intro htoken
        rw [hround] at htoken
        exact h ⟨hround, htoken⟩
      exact ⟨fun hr ↦ absurd hr (by decide), fun ht ↦ absurd ht htoken⟩
    · rw [if_neg hround]
      have hfirst := firstAt_of_lt (lt_of_le_of_ne hle hround)
      exact ⟨fun _ ↦ hfirst.1, fun _ ↦ rfl⟩

/-- The bytes of a block, the token having come in time. -/
theorem sdRecvData_inTime (m : Nat → UInt8) (mon : Monitor) (v : SdVars)
    (h : tokenRound s p 0xFE ≠ 0xFFFF) (buf : Nat) (len : UInt16) :
    ∃ mon', sdRecvData buf len (onWire m s p mon v) =
      some (0, onWire
        (overlay m buf len.toNat fun i ↦ s (p + (tokenRound s p 0xFE + 1) + i)) s
        (p + (tokenRound s p 0xFE + 1) + len.toNat + 1 + 1) mon' v) := by
  rw [sdRecvData, bind_of_eq (sdGetResponse_wire 0xFE), if_neg h, if_neg (by decide),
    bind_of_eq (recvBytes_eq _ _), bind_of_eq (readWriteByte_apply _ _),
    bind_of_eq (readWriteByte_apply _ _), pure_apply]
  exact ⟨_, rfl⟩

/-- The wait gave up. -/
theorem sdRecvData_tooLate (h : tokenRound s p 0xFE = 0xFFFF) (buf : Nat) (len : UInt16) :
    sdRecvData buf len (onWire m s p mon v) =
      some (1, onWire m s (p + 0x10000) (mon.hear s p 0x10000) v) := by
  rw [sdRecvData, bind_of_eq (sdGetResponse_wire 0xFE), if_pos h, if_pos (by decide), pure_apply, h]

/-- `SD_RecvData` drops a start token only where that is the last byte the wait may read. -/
theorem storedAfterToken_iff (buf : Nat) (len : UInt16) (t : Mcu Wire SdVars) :
    StoredAfterToken buf len t ↔ ¬ FirstAt t.dev.miso t.dev.pos 0xFE 0xFFFF := by
  obtain ⟨m, ⟨s, p, mon⟩, v⟩ := t
  by_cases hround : tokenRound s p 0xFE = 0xFFFF
  · rw [StoredAfterToken, run_of_eq (sdRecvData_tooLate hround buf len)]
    constructor
    · rintro ⟨-, hfail⟩ hfirst
      have hmiss := (hfail (by decide)).2 (p + 0xFFFF) (Nat.le_add_right p _) (by simp)
      exact hmiss hfirst.1
    · intro h
      refine ⟨fun h0 ↦ absurd h0 (by decide), fun _ ↦ ⟨rfl, ?_⟩⟩
      intro i hi hi'
      obtain ⟨j, rfl⟩ := Nat.exists_eq_add_of_le hi
      have hj : j < 0x10000 := by
        dsimp only at hi'
        omega
      rcases Nat.lt_or_eq_of_le (Nat.le_of_lt_succ hj) with hlt | rfl
      · rw [← hround] at hlt
        exact ne_token_of_lt hlt
      · intro htoken
        exact h (firstAt_limit_iff.2 ⟨hround, htoken⟩)
  · obtain ⟨mon', heq⟩ := sdRecvData_inTime m mon v hround buf len
    have hlt := lt_of_le_of_ne (tokenRound_le s p 0xFE) hround
    have hfirst := firstAt_of_lt hlt
    rw [StoredAfterToken, run_of_eq heq]
    constructor
    · intro _ hlimit
      exact hround (hfirst.unique hlimit)
    · intro _
      refine ⟨fun _ ↦ ⟨tokenRound s p 0xFE, hlt.trans (by decide), hfirst, ?_, ?_⟩, ?_⟩
      · simp only [Nat.add_assoc]
      · simp only [Nat.add_assoc]
      · intro h
        exact absurd rfl h

/-- **The wait for a token.**  For every stream of the card and every token, `SD_GetResponse` reads
at most 65536 bytes and reports success exactly when the last one is the token, unless the token is
first seen in byte number 65536; and, for every buffer and length, `SD_RecvData` stores what
follows the start token, and reports no failure after consuming it, unless it is there. -/
theorem token_awaited_iff (t : Mcu Wire SdVars) (token : UInt8) (buf : Nat) (len : UInt16) :
    (TokenAwaited token t ↔ ¬ FirstAt t.dev.miso t.dev.pos token 0xFFFF) ∧
      (StoredAfterToken buf len t ↔ ¬ FirstAt t.dev.miso t.dev.pos 0xFE 0xFFFF) :=
  ⟨tokenAwaited_iff t, storedAfterToken_iff buf len t⟩

/-- A card whose start token is byte number 65536. -/
def lateCard : Mcu Wire SdVars :=
  onWire (fun _ ↦ 0) (fun n ↦ if n = 0xFFFF then 0xFE else 0xFF) 0 ⟨true, .await false, []⟩
    ⟨SD_TYPE_V2HC, SPI_BaudRatePrescaler_2⟩

theorem lateCard_firstAt : FirstAt lateCard.dev.miso lateCard.dev.pos 0xFE 0xFFFF := by
  simp only [FirstAt, lateCard, Nat.zero_add, if_true, true_and]
  intro i hi
  rw [if_neg (Nat.ne_of_lt hi)]
  decide

/-- The token is consumed, and a failure reported. -/
theorem lateCard_missed : ¬ TokenAwaited 0xFE lateCard ∧ ¬ StoredAfterToken 0 512 lateCard :=
  ⟨fun h ↦ (tokenAwaited_iff lateCard).1 h lateCard_firstAt,
    fun h ↦ (storedAfterToken_iff 0 512 lateCard).1 h lateCard_firstAt⟩

end Stm32F1.Sd
