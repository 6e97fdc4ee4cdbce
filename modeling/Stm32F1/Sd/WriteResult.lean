import Stm32F1.Sd.OnWire

/-!
# What a reported write means

`SD_WriteDisk` returns 0 exactly when its last step went well, and for more than
one block the last step is the stop token, not the blocks.  This file says, for
every stream, when a return of 0 is the truth: when the write command was answered
with 0 and every block was clocked out and accepted.
-/

namespace Stm32F1.Sd

open Prog Mcu

variable {m : Nat → UInt8} {s : Nat → UInt8} {p : Nat} {mon : Monitor} {v : SdVars}
  {recs : List Record} {buf : Nat} {sector : UInt32}

/-! ## What was written -/

/-- The write command for `cnt` blocks. -/
def writeCmd (cnt : Nat) : UInt8 := if cnt = 1 then CMD24 else CMD25

/-- Among what the bus has seen is the write command answered with 0 and, right after it, the `cnt`
blocks of the buffer, each of them accepted. -/
def Written (m : Nat → UInt8) (buf : Nat) (sdType : UInt8) (sector : UInt32) (cnt : Nat)
    (recs : List Record) : Prop :=
  ∃ (pre post : List Record) (response : Nat → UInt8),
    (∀ i < cnt, response i &&& 0x1F = 0x05) ∧
      recs = pre ++ .reply (cmdFrame (writeCmd cnt) (sectorAddr sdType sector) 0x01) 0 ::
        (List.range cnt).map (fun i ↦ .block (slice m (buf + 512 * i) 512) (response i)) ++ post

/-- The accepted blocks among what the bus has seen. -/
def acceptedBlocks (recs : List Record) : Nat := recs.countP Record.accepted

@[simp] theorem acceptedBlocks_append (r₁ r₂ : List Record) :
    acceptedBlocks (r₁ ++ r₂) = acceptedBlocks r₁ + acceptedBlocks r₂ :=
  List.countP_append

@[simp] theorem acceptedBlocks_reply (frame : List UInt8) (r1 : UInt8) (recs : List Record) :
    acceptedBlocks (.reply frame r1 :: recs) = acceptedBlocks recs :=
  List.countP_cons_of_neg (by simp [Record.accepted])

/-- All of a list of accepted blocks count. -/
theorem acceptedBlocks_map {n : Nat} {f : Nat → Record} (h : ∀ i < n, (f i).accepted = true) :
    acceptedBlocks ((List.range n).map f) = n := by
  rw [acceptedBlocks, List.countP_eq_length.2, List.length_map, List.length_range]
  intro r hr
  obtain ⟨i, hi, rfl⟩ := List.mem_map.1 hr
  exact h i (List.mem_range.1 hi)

/-- What was written was accepted block by block. -/
theorem Written.le_acceptedBlocks {sdType : UInt8} {cnt : Nat}
    (h : Written m buf sdType sector cnt recs) : cnt ≤ acceptedBlocks recs := by
  obtain ⟨pre, post, response, hresp, rfl⟩ := h
  have hblocks := acceptedBlocks_map (n := cnt)
    (f := fun i ↦ .block (slice m (buf + 512 * i) 512) (response i)) fun i hi ↦
      beq_iff_eq.2 (hresp i hi)
  rw [acceptedBlocks_append, acceptedBlocks_append, acceptedBlocks_reply, hblocks]
  omega

/-! ## The stream that misleads -/

/-- Where the stream stands when the write command is sent: a card that is not an MMC is first told
the number of blocks. -/
def preErased (s : Nat → UInt8) (p : Nat) (sdType : UInt8) : Nat :=
  if sdType ≠ SD_TYPE_MMC then afterCmd s (afterCmd s p CMD55) CMD23 else p

/-- Where the stream stands when the `i`-th block is sent. -/
def blockPos (s : Nat → UInt8) (p : Nat) : Nat → Nat
  | 0 => p
  | i + 1 => afterBlock s (blockPos s p i)

/-- The stream answers a write of `cnt` blocks so that its result is lost: there is more than one,
the command is answered with 0, some block is the first not to be accepted, and the card is ready
for the stop token that follows it. -/
def Overwritten (s : Nat → UInt8) (p : Nat) (sdType : UInt8) (cnt : Nat) : Prop :=
  cnt ≠ 1 ∧ reply s (preErased s p sdType) CMD25 = 0 ∧
    ∃ j < cnt,
    (∀ i < j, blockOk s (blockPos s (afterCmd s (preErased s p sdType) CMD25) i) = true) ∧
      blockOk s (blockPos s (afterCmd s (preErased s p sdType) CMD25) j) = false ∧
      ready s (blockPos s (afterCmd s (preErased s p sdType) CMD25) (j + 1)) = true

/-! ## Commands -/

/-- Replies are not blocks. -/
theorem acceptedBlocks_replies {frame : List UInt8} {r1 : UInt8} {extra : List Record}
    (h : ∀ rec ∈ extra, rec = .reply frame r1) : acceptedBlocks extra = 0 := by
  rw [acceptedBlocks, List.countP_eq_zero]
  intro rec hrec
  rw [h rec hrec]
  exact Bool.noConfusion

theorem run_sdPreErase (cnt : UInt8) :
    Run (sdPreErase cnt) (onWire m s p mon v) fun _ t ↦
      ∃ mon', t = onWire m s (preErased s p v.sdType) mon' v ∧
        acceptedBlocks mon'.recs = acceptedBlocks mon.recs := by
  rw [sdPreErase, run_bind, run_of_eq (get_apply _ _), run_ite, preErased]
  split
  · refine (run_sdSendCmd command_cmd55 _ _).bind ?_
    rintro _ _ ⟨-, mon₁, extra₁, rfl, h₁, hextra₁, -⟩
    refine (run_sdSendCmd command_cmd23 _ _).bind ?_
    rintro _ _ ⟨-, mon₂, extra₂, rfl, h₂, hextra₂, -⟩
    refine run_pure.2 ⟨mon₂, rfl, ?_⟩
    rw [h₂, h₁, acceptedBlocks_append, acceptedBlocks_append, acceptedBlocks_replies hextra₁,
      acceptedBlocks_replies hextra₂]
    rfl
  · exact run_pure.2 ⟨mon, rfl, rfl⟩

/-! ## The blocks -/

/-- The records of the first `i` blocks. -/
def blockRecords (m s : Nat → UInt8) (buf p i : Nat) : List Record :=
  (List.range i).map fun j ↦ blockRecord m s (buf + 512 * j) (blockPos s p j)

/-- The blocks so far were accepted. -/
def AllOk (s : Nat → UInt8) (p i : Nat) : Prop := ∀ j < i, blockOk s (blockPos s p j) = true

theorem AllOk.succ {i : Nat} (h : AllOk s p i) (hi : blockOk s (blockPos s p i) = true) :
    AllOk s p (i + 1) := by
  intro j hj
  rcases Nat.lt_succ_iff_lt_or_eq.1 hj with hlt | rfl
  · exact h j hlt
  · exact hi

theorem AllOk.acceptedBlocks {i : Nat} (h : AllOk s p i) :
    acceptedBlocks (blockRecords m s buf p i) = i :=
  acceptedBlocks_map fun j hj ↦ beq_iff_eq.2 (blockResponse_of_blockOk (h j hj))

/-- The blocks of a multiple write: either all are accepted, or some block is the first that is
not and the loop ends with it. -/
theorem run_blocks (n : Nat) :
    Run (doWhileOk (fun buf ↦ sdSendBlock buf 0xFC) (fun buf ↦ buf + 512) buf n)
      (onWire m s p ⟨true, .token 0xFC, recs⟩ v) fun _ t ↦
        (AllOk s p (n + 1) ∧ t = onWire m s (blockPos s p (n + 1))
          ⟨true, .token 0xFC, recs ++ blockRecords m s buf p (n + 1)⟩ v) ∨
        ∃ j < n + 1, AllOk s p j ∧ blockOk s (blockPos s p j) = false ∧
          ∃ recs', acceptedBlocks recs' = acceptedBlocks recs + j ∧
            t = onWire m s (blockPos s p (j + 1)) ⟨true, .token 0xFC, recs'⟩ v := by
  refine (run_doWhileOk
    (fun i a t ↦ a = buf + 512 * i ∧ AllOk s p i ∧ t = onWire m s (blockPos s p i)
      ⟨true, .token 0xFC, recs ++ blockRecords m s buf p i⟩ v)
    (fun j _ t ↦ AllOk s p j ∧ blockOk s (blockPos s p j) = false ∧
      ∃ recs', acceptedBlocks recs' = acceptedBlocks recs + j ∧
        t = onWire m s (blockPos s p (j + 1)) ⟨true, .token 0xFC, recs'⟩ v) ?_
    ⟨rfl, fun j hj ↦ absurd hj j.not_lt_zero, by simp [blockRecords, blockPos]⟩).mono ?_
  · rintro i _ _ hi ⟨rfl, hall, rfl⟩
    refine .of_eq (sdSendBlock_eq (by decide) (by decide) _) ⟨fun h0 ↦ ?_, fun h0 ↦ ?_⟩
    · have hok : blockOk s (blockPos s p i) = true := blockOk_of_zero h0
      have hready : ready s (blockPos s p i) = true := ready_of_blockOk hok
      refine ⟨by rw [Nat.mul_succ, Nat.add_assoc], hall.succ hok, ?_⟩
      rw [if_pos hready, if_pos rfl, blockRecords, blockRecords, List.range_succ, List.map_append,
        List.append_assoc]
      rfl
    · have hno : blockOk s (blockPos s p i) = false := by
        by_contra hok
        rw [if_pos (Bool.eq_true_of_not_eq_false hok)] at h0
        exact h0 rfl
      refine ⟨hall, hno, ?_⟩
      by_cases hready : ready s (blockPos s p i) = true
      · have hresp : (blockRecord m s (buf + 512 * i) (blockPos s p i)).accepted = false := by
          rw [blockOk, hready, Bool.true_and] at hno
          exact hno
        refine ⟨_, ?_, by rw [if_pos hready, if_pos rfl]; rfl⟩
        rw [acceptedBlocks_append, acceptedBlocks_append, hall.acceptedBlocks]
        simp [acceptedBlocks, hresp]
      · refine ⟨_, ?_, by rw [if_neg hready]; rfl⟩
        rw [acceptedBlocks_append, hall.acceptedBlocks]
  · rintro r t ⟨hzero, hne⟩
    by_cases h0 : r = 0
    · obtain ⟨_, -, hall, rfl⟩ := hzero h0
      exact .inl ⟨hall, rfl⟩
    · obtain ⟨j, hj, hE⟩ := hne h0
      exact .inr ⟨j, Nat.lt_succ_of_le hj, hE⟩

/-! ## The result -/

/-- The result of a write that starts with the bus unseen, related to what was written. -/
def Truthful (m : Nat → UInt8) (s : Nat → UInt8) (p : Nat) (buf : Nat) (sdType : UInt8)
    (sector : UInt32) (cnt : Nat) (r : UInt8) (t : Mcu Wire SdVars) : Prop :=
  (r = 0 → Written m buf sdType sector cnt t.dev.monitor.recs) ↔ ¬ Overwritten s p sdType cnt

/-- One block: the result is the truth. -/
theorem run_sdWriteDisk_one :
    Run (sdWriteDisk buf sector 1) (onWire m s p mon v) fun r t ↦
      Truthful m s p buf v.sdType sector 1 r t := by
  have hover : ¬ Overwritten s p v.sdType 1 := fun h ↦ h.1 rfl
  rw [sdWriteDisk, run_bind, run_of_eq (get_apply _ _), if_pos rfl, run_bind]
  by_cases h0 : reply s p CMD24 = 0
  · rw [run_of_eq (sdSendCmd_zero command_cmd24 h0 _ _), if_pos rfl, run_bind]
    have hopened : Phase.opened (cmdFrame CMD24 (sectorAddr v.sdType sector) 0x01) 0 =
        .token 0xFE := rfl
    rw [← sectorAddr, hopened, run_of_eq (sdSendBlock_eq (by decide) (by decide) _), run_bind,
      run_of_eq sdDisSelect_eq, run_pure]
    refine ⟨fun _ ↦ hover, fun _ hr ↦ ?_⟩
    have hok : blockOk s (afterCmd s p CMD24) = true := blockOk_of_zero hr
    have hready : ready s (afterCmd s p CMD24) = true := ready_of_blockOk hok
    refine ⟨mon.recs, [], fun _ ↦ blockResponse s (afterCmd s p CMD24), fun _ _ ↦ ?_, ?_⟩
    · exact blockResponse_of_blockOk hok
    · simp [hready, writeCmd, blockRecord]
  · refine (run_sdSendCmd command_cmd24 _ _).mono ?_
    rintro _ _ ⟨rfl, mon', -, rfl, -⟩
    rw [if_neg h0, run_bind, run_pure, run_bind, run_of_eq sdDisSelect_eq, run_pure]
    exact ⟨fun _ ↦ hover, fun _ hr ↦ absurd hr h0⟩

/-- The stop token, and the end of the write. -/
theorem run_stop :
    Run (do
        let r ← sdSendBlock 0 0xFD
        sdDisSelect
        pure r) (onWire m s p ⟨true, .token 0xFC, recs⟩ v) fun r t ↦
      (r = 0 ↔ ready s p = true) ∧ t.dev.monitor.recs = recs := by
  rw [run_bind, run_of_eq (sdSendBlock_stop (by decide) (by decide) 0), run_bind,
    run_of_eq sdDisSelect_eq, run_pure]
  cases ready s p <;> simp

/-- More than one block: the result is the truth unless it was lost. -/
theorem run_sdWriteDisk_many {cnt : UInt8} (h1 : cnt ≠ 1) (h0 : cnt ≠ 0) (hrecs : mon.recs = []) :
    Run (sdWriteDisk buf sector cnt) (onWire m s p mon v) fun r t ↦
      Truthful m s p buf v.sdType sector cnt.toNat r t := by
  have hne : cnt.toNat ≠ 1 := fun h ↦ h1 (UInt8.toNat_inj.1 h)
  rw [sdWriteDisk, run_bind, run_of_eq (get_apply _ _), if_neg h1, run_bind]
  refine (run_sdPreErase cnt).mono ?_
  rintro _ _ ⟨mon₁, rfl, hmon₁⟩
  rw [hrecs] at hmon₁
  rw [run_bind]
  generalize hq : preErased s p v.sdType = q
  by_cases hreply : reply s q CMD25 = 0
  · have hopened : Phase.opened (cmdFrame CMD25 (sectorAddr v.sdType sector) 0x01) 0 =
        .token 0xFC := rfl
    rw [run_of_eq (sdSendCmd_zero command_cmd25 hreply _ _), if_pos rfl, ← sectorAddr, hopened,
      bind_assoc', run_bind]
    refine (run_blocks (cnt - 1).toNat).mono ?_
    rw [toNat_pred h0]
    rintro _ _ (⟨hall, rfl⟩ | ⟨j, hj, hall, hno, recs', hcount, rfl⟩)
    · refine run_stop.mono fun r t ht ↦ ⟨fun _ hover ↦ ?_, fun _ _ ↦ ?_⟩
      · obtain ⟨-, -, j, hj, -, hno, -⟩ := hover
        rw [hq, hall j hj] at hno
        exact Bool.noConfusion hno
      · refine ⟨mon₁.recs, [], fun i ↦ blockResponse s (blockPos s (afterCmd s q CMD25) i),
          fun i hi ↦ ?_, ?_⟩
        · exact blockResponse_of_blockOk (hall i hi)
        · rw [ht.2, writeCmd, if_neg hne, List.append_nil, List.append_assoc]
          rfl
    · have hcount' : acceptedBlocks recs' = j := by
        rw [hcount, acceptedBlocks_append, hmon₁]
        simp [acceptedBlocks, Record.accepted]
      refine run_stop.mono fun r t ht ↦ ⟨fun hw hover ↦ ?_, fun hover hr ↦ ?_⟩
      · obtain ⟨-, -, i, hi, hall', hno', hready⟩ := hover
        rw [hq] at hall' hno' hready
        have hij : i = j := by
          rcases Nat.lt_trichotomy i j with hlt | heq | hgt
          · rw [hall i hlt] at hno'
            exact Bool.noConfusion hno'
          · exact heq
          · rw [hall' j hgt] at hno
            exact Bool.noConfusion hno
        have hle := (hw (ht.1.2 (hij ▸ hready))).le_acceptedBlocks
        rw [ht.2, hcount'] at hle
        exact absurd hle (Nat.not_le_of_lt hj)
      · exact absurd ⟨hne, hq ▸ hreply, j, hj, hq ▸ hall, hq ▸ hno, hq ▸ ht.1.1 hr⟩ hover
  · refine (run_sdSendCmd command_cmd25 _ _).mono ?_
    rintro _ _ ⟨rfl, mon', -, rfl, -⟩
    rw [if_neg hreply, run_bind, run_pure, run_bind, run_of_eq sdDisSelect_eq, run_pure]
    exact ⟨fun _ hover ↦ hreply (hq ▸ hover.2.1), fun _ hr ↦ absurd hr hreply⟩

theorem run_sdWriteDisk {cnt : UInt8} (h0 : cnt ≠ 0) (hrecs : mon.recs = []) :
    Run (sdWriteDisk buf sector cnt) (onWire m s p mon v) fun r t ↦
      Truthful m s p buf v.sdType sector cnt.toNat r t := by
  by_cases h1 : cnt = 1
  · subst h1
    exact run_sdWriteDisk_one
  · exact run_sdWriteDisk_many h1 h0 hrecs

/-- **When a reported write is the truth.**  For every stream, card type, sector and count from 1
to 128, `SD_WriteDisk` and `disk_write` report success only for blocks that were written, exactly
when the stream is not one that makes the driver overwrite the result of a block. -/
theorem write_success_iff (count : UInt32) (h1 : 1 ≤ count.toNat) (h128 : count.toNat ≤ 128)
    (hrecs : mon.recs = []) :
    (Run (sdWriteDisk buf sector count.toUInt8) (onWire m s p mon v) fun r t ↦
      (r = 0 → Written m buf v.sdType sector count.toNat t.dev.monitor.recs) ↔
        ¬ Overwritten s p v.sdType count.toNat) ∧
    (Run (diskWrite SD_CARD buf sector count) (onWire m s p mon v) fun res t ↦
      (res = .RES_OK → Written m buf v.sdType sector count.toNat t.dev.monitor.recs) ↔
        ¬ Overwritten s p v.sdType count.toNat) := by
  have ⟨hcnt, hne, hcount⟩ := toUInt8_count h1 h128
  have hsd : Run (sdWriteDisk buf sector count.toUInt8) (onWire m s p mon v) fun r t ↦
      Truthful m s p buf v.sdType sector count.toUInt8.toNat r t := run_sdWriteDisk hne hrecs
  rw [hcnt] at hsd
  refine ⟨hsd, ?_⟩
  rw [diskWrite, if_neg hcount, if_pos rfl]
  refine hsd.bind fun r t hr ↦ run_pure.2 ?_
  by_cases h0 : r = 0 <;> simpa [Truthful, h0] using hr

/-- A card that answers `CMD25` with 0, refuses the first of two blocks and is ready at once. -/
def refusing (n : Nat) : UInt8 := if n = 8 then 0x00 else if n = 525 then 0x0B else 0xFF

theorem overwritten_refusing : Overwritten refusing 0 SD_TYPE_MMC 2 := by
  have hready₁ : readyHit refusing 1 = 1 := hit_of_good rfl _
  have hready₉ : readyHit refusing 9 = 9 := hit_of_good rfl _
  have hready₅₂₆ : readyHit refusing 526 = 526 := hit_of_good rfl _
  have hreply : replyHit refusing 0 CMD25 = 8 := by
    rw [replyHit, hready₁]
    exact hit_of_good rfl _
  have hcmd : afterCmd refusing 0 CMD25 = 9 := by
    rw [afterCmd, ready, hready₁, hreply]
    rfl
  have hblock : afterBlock refusing 9 = 526 := by
    rw [afterBlock, ready, hready₉]
    rfl
  have hpre : preErased refusing 0 SD_TYPE_MMC = 0 := rfl
  rw [Overwritten, hpre, hcmd]
  refine ⟨by decide, ?_, 0, by decide, fun i hi ↦ absurd hi i.not_lt_zero, ?_, ?_⟩
  · rw [reply, ready, hready₁, hreply]
    rfl
  · rw [blockPos, blockOk, ready, hready₉]
    rfl
  · rw [blockPos, blockPos, hblock, ready, hready₅₂₆]
    rfl

/-- Two blocks are reported as written although the first was refused. -/
theorem write_false_success :
    Run (sdWriteDisk 0 0 2) (onWire (fun _ ↦ 0) refusing 0 ⟨false, .idle, []⟩ ⟨SD_TYPE_MMC, 0⟩)
      fun r t ↦ r = 0 ∧ ¬ Written (fun _ ↦ 0) 0 SD_TYPE_MMC 0 2 t.dev.monitor.recs := by
  refine (run_sdWriteDisk (by decide : (2 : UInt8) ≠ 0) rfl).mono fun r t ht ↦ ?_
  exact Classical.not_imp.1 fun h ↦ ht.1 h overwritten_refusing

theorem write_success_iff_two_blocks :
    Run (diskWrite SD_CARD 0 0 2) (onWire (fun _ ↦ 0) refusing 0 ⟨false, .idle, []⟩
        ⟨SD_TYPE_MMC, 0⟩)
      fun res t ↦ (res = .RES_OK → Written (fun _ ↦ 0) 0 SD_TYPE_MMC 0 2 t.dev.monitor.recs) ↔
        ¬ Overwritten refusing 0 SD_TYPE_MMC 2 :=
  (write_success_iff 2 (by decide) (by decide) rfl).2

end Stm32F1.Sd
