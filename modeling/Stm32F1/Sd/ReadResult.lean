import Stm32F1.Sd.OnWire

/-!
# What a reported read means

For more than one block `SD_ReadDisk` does not look at the reply to the read
command: it takes whatever follows a byte 0xFE on the bus for the data of a block.
This file says, for every stream, when a return of 0 is the truth: when the read
command was answered with 0 and the buffer holds the blocks that followed the
start tokens.
-/

namespace Stm32F1.Sd

open Prog Mcu

variable {m : Nat → UInt8} {s : Nat → UInt8} {p : Nat} {mon : Monitor} {v : SdVars}
  {recs : List Record} {buf : Nat} {sector : UInt32}

/-! ## What was read -/

/-- The read command for `cnt` blocks. -/
def readCmd (cnt : Nat) : UInt8 := if cnt = 1 then CMD17 else CMD18

/-- Among what the bus has seen is the read command answered with 0 and, right after it, `cnt`
blocks that followed start tokens; the buffer holds them in order. -/
def Received (m : Nat → UInt8) (buf : Nat) (sdType : UInt8) (sector : UInt32) (cnt : Nat)
    (recs : List Record) : Prop :=
  ∃ pre post : List Record,
    recs = pre ++ .reply (cmdFrame (readCmd cnt) (sectorAddr sdType sector) 0x01) 0 ::
      (List.range cnt).map (fun i ↦ .data (slice m (buf + 512 * i) 512)) ++ post

/-- Where the stream stands when the `i`-th block is asked for. -/
def dataPos (s : Nat → UInt8) (p : Nat) : Nat → Nat
  | 0 => p
  | i + 1 => afterData s (dataPos s p i)

/-- The stream answers a read of `cnt` blocks so that its result can be trusted: there is only one,
or the command is answered with 0, or the start token of some block does not come. -/
def Trusted (s : Nat → UInt8) (p : Nat) (cnt : Nat) : Prop :=
  cnt = 1 ∨ reply s p CMD18 = 0 ∨
    ∃ i < cnt, tokenFound s (dataPos s (afterCmd s p CMD18) i) = false

/-! ## The blocks -/

/-- The memory after `i` blocks were stored. -/
def stored (m s : Nat → UInt8) (buf p : Nat) : Nat → Nat → UInt8
  | 0 => m
  | i + 1 => overlay (stored m s buf p i) (buf + 512 * i) 512 fun k ↦
      s (tokenHit s (dataPos s p i) + 1 + k)

/-- The bytes of the `i`-th block on the stream. -/
def streamBlock (s : Nat → UInt8) (p i : Nat) : List UInt8 :=
  slice s (tokenHit s (dataPos s p i) + 1) 512

/-- Later blocks leave the earlier ones alone. -/
theorem slice_stored {n i : Nat} (h : i < n) :
    slice (stored m s buf p n) (buf + 512 * i) 512 = streamBlock s p i := by
  induction n with
  | zero => exact absurd h i.not_lt_zero
  | succ n ih =>
      rcases Nat.lt_succ_iff_lt_or_eq.1 h with hlt | rfl
      · rw [← ih hlt, stored]
        refine slice_congr fun k hk ↦ overlay_of_notMem (.inl ?_)
        omega
      · rw [stored, slice_overlay, streamBlock, slice]

/-- The blocks of a multiple read, for a bus whose monitor goes from `M i` to `M (i + 1)` with the
`i`-th block. -/
theorem run_dataBlocks (M : Nat → Monitor) (ha : ∀ i, (M i).Awaits)
    (hstep : ∀ i, tokenFound s (dataPos s p i) = true →
      ((M i).exchange 0xFF 0xFE).hear s (tokenHit s (dataPos s p i) + 1) 514 = M (i + 1))
      (n : Nat) :
    Run (doWhileOk (fun buf ↦ sdRecvData buf 512) (fun buf ↦ buf + 512) buf n)
      (onWire m s p (M 0) v) fun r t ↦
        (r = 0 → (∀ i < n + 1, tokenFound s (dataPos s p i) = true) ∧
          t = onWire (stored m s buf p (n + 1)) s (dataPos s p (n + 1)) (M (n + 1)) v) ∧
        (r ≠ 0 → (∃ i < n + 1, tokenFound s (dataPos s p i) = false) ∧
          ∃ m' p' mon', t = onWire m' s p' mon' v) := by
  refine (run_doWhileOk
    (fun i a t ↦ a = buf + 512 * i ∧ (∀ j < i, tokenFound s (dataPos s p j) = true) ∧
      t = onWire (stored m s buf p i) s (dataPos s p i) (M i) v)
    (fun i _ t ↦ tokenFound s (dataPos s p i) = false ∧ ∃ m' p' mon', t = onWire m' s p' mon' v)
    ?_ ⟨rfl, fun j hj ↦ absurd hj j.not_lt_zero, rfl⟩).mono ?_
  · rintro i _ _ - ⟨rfl, hfound, rfl⟩
    cases hi : tokenFound s (dataPos s p i) with
    | true =>
        refine .of_eq (sdRecvData_found (ha i) hi _) ⟨fun _ ↦ ⟨?_, ?_, ?_⟩, fun h ↦ absurd rfl h⟩
        · rw [Nat.mul_succ, Nat.add_assoc]
        · intro j hj
          rcases Nat.lt_succ_iff_lt_or_eq.1 hj with hlt | rfl
          · exact hfound j hlt
          · exact hi
        · rw [hstep i hi, dataPos, afterData, if_pos hi]
          rfl
    | false =>
        refine .of_eq (sdRecvData_missing (ha i) hi _ _) ⟨fun h ↦ absurd h (by decide), fun _ ↦ ?_⟩
        exact ⟨rfl, _, _, _, rfl⟩
  · rintro r t ⟨hzero, hne⟩
    refine ⟨fun h0 ↦ ?_, fun h0 ↦ ?_⟩
    · obtain ⟨_, -, hfound, rfl⟩ := hzero h0
      exact ⟨hfound, rfl⟩
    · obtain ⟨i, hi, hno, hE⟩ := hne h0
      exact ⟨⟨i, Nat.lt_succ_of_le hi, hno⟩, hE⟩

/-- The monitor of an accepted multiple read after `i` blocks. -/
def reading (s : Nat → UInt8) (p : Nat) (recs : List Record) (i : Nat) : Monitor :=
  ⟨true, .await true, recs ++ (List.range i).map fun j ↦ .data (streamBlock s p j)⟩

theorem reading_step (i : Nat) :
    ((reading s p recs i).exchange 0xFF 0xFE).hear s (tokenHit s (dataPos s p i) + 1) 514 =
      reading s p recs (i + 1) := by
  have htoken : (reading s p recs i).exchange 0xFF 0xFE =
      ⟨true, .inn true [], recs ++ (List.range i).map fun j ↦ .data (streamBlock s p j)⟩ := by
    simp [reading, Monitor.exchange, Monitor.step]
  rw [htoken, hear_block, reading, List.range_succ, List.map_append, List.append_assoc]
  rfl

/-! ## The result -/

/-- The result of a read, related to what was received. -/
def Honest (s : Nat → UInt8) (p : Nat) (buf : Nat) (sdType : UInt8) (sector : UInt32) (cnt : Nat)
    (r : UInt8) (t : Mcu Wire SdVars) : Prop :=
  (r = 0 → Received t.mem buf sdType sector cnt t.dev.monitor.recs) ↔ Trusted s p cnt

/-- One block: the result is the truth. -/
theorem run_sdReadDisk_one :
    Run (sdReadDisk buf sector 1) (onWire m s p mon v) fun r t ↦
      Honest s p buf v.sdType sector 1 r t := by
  have htrust : Trusted s p 1 := .inl rfl
  rw [sdReadDisk, run_bind, run_of_eq (get_apply _ _), if_pos rfl, run_bind, shiftLeft_nine,
    ← sectorAddr]
  by_cases h0 : reply s p CMD17 = 0
  · have hopened : Phase.opened (cmdFrame CMD17 (sectorAddr v.sdType sector) 0x01) 0 =
        .await false := rfl
    rw [run_of_eq (sdSendCmd_zero command_cmd17 h0 _ _), if_pos rfl, run_bind, hopened]
    cases hfound : tokenFound s (afterCmd s p CMD17) with
    | false =>
        rw [run_of_eq (sdRecvData_missing (awaits_await false) hfound _ _), run_bind,
          run_of_eq sdDisSelect_eq, run_pure]
        exact ⟨fun _ ↦ htrust, fun _ hr ↦ absurd hr (by decide)⟩
    | true =>
        have htoken (recs : List Record) : Monitor.exchange ⟨true, .await false, recs⟩ 0xFF 0xFE =
            ⟨true, .inn false [], recs⟩ := by
          simp [Monitor.exchange, Monitor.step]
        rw [run_of_eq (sdRecvData_found (awaits_await false) hfound _), run_bind,
          run_of_eq sdDisSelect_eq, run_pure, htoken, hear_block]
        refine ⟨fun _ ↦ htrust, fun _ _ ↦ ⟨mon.recs, [], ?_⟩⟩
        simp only [List.range_one, List.map_singleton, List.append_nil, Nat.mul_zero, Nat.add_zero]
        rw [slice_overlay, List.append_assoc]
        rfl
  · refine (run_sdSendCmd command_cmd17 _ _).mono ?_
    rintro _ _ ⟨rfl, mon', -, rfl, -⟩
    rw [if_neg h0, run_bind, run_pure, run_bind, run_of_eq sdDisSelect_eq, run_pure]
    exact ⟨fun _ ↦ htrust, fun _ hr ↦ absurd hr h0⟩

/-- The end of a multiple read: the memory and the result stay, and at most the reply to `CMD12`
is recorded. -/
theorem run_endRead (r : UInt8) :
    Run (do
        let _ ← sdSendCmd CMD12 0 0x01
        sdDisSelect
        pure r) (onWire m s p mon v) fun r' t ↦ r' = r ∧ t.mem = m ∧
      ∃ extra, t.dev.monitor.recs = mon.recs ++ extra ∧
        ∀ rec ∈ extra, ∃ r1, rec = .reply (cmdFrame CMD12 0 0x01) r1 := by
  refine (run_sdSendCmd command_cmd12 _ _).bind ?_
  rintro _ _ ⟨-, mon', extra, rfl, hrecs, hextra, -⟩
  rw [run_bind, run_of_eq sdDisSelect_eq, run_pure]
  exact ⟨rfl, rfl, extra, hrecs, fun rec hrec ↦ ⟨_, hextra rec hrec⟩⟩

/-- A read command that was not answered with 0 leaves no trace of having been. -/
theorem not_received {r1 : UInt8} (hr1 : r1 ≠ 0) {cnt : Nat} (hcnt : cnt ≠ 1)
    {sdType : UInt8} {extra₁ extra₂ : List Record}
    (h₁ : ∀ rec ∈ extra₁, rec = .reply (cmdFrame CMD18 (sectorAddr sdType sector) 0x01) r1)
    (h₂ : ∀ rec ∈ extra₂, ∃ r1, rec = .reply (cmdFrame CMD12 0 0x01) r1) :
    ¬ Received m buf sdType sector cnt (extra₁ ++ extra₂) := by
  rintro ⟨pre, post, heq⟩
  have hmem : Record.reply (cmdFrame (readCmd cnt) (sectorAddr sdType sector) 0x01) 0 ∈
      extra₁ ++ extra₂ := by
    rw [heq]
    simp
  rw [readCmd, if_neg hcnt] at hmem
  rcases List.mem_append.1 hmem with hmem | hmem
  · have h := h₁ _ hmem
    injection h with _ h
    exact hr1 h.symm
  · obtain ⟨r1', h⟩ := h₂ _ hmem
    injection h with h _
    exact absurd (List.cons.inj h).1 (by decide)

/-- More than one block: the result is the truth only if the stream can be trusted. -/
theorem run_sdReadDisk_many {cnt : UInt8} (h1 : cnt ≠ 1) (h0 : cnt ≠ 0) (hrecs : mon.recs = []) :
    Run (sdReadDisk buf sector cnt) (onWire m s p mon v) fun r t ↦
      Honest s p buf v.sdType sector cnt.toNat r t := by
  have hne : cnt.toNat ≠ 1 := fun h ↦ h1 (UInt8.toNat_inj.1 h)
  rw [sdReadDisk, run_bind, run_of_eq (get_apply _ _), if_neg h1, run_bind, shiftLeft_nine,
    ← sectorAddr]
  by_cases hreply : reply s p CMD18 = 0
  · -- The command was accepted: the monitor follows the blocks.
    have htrust : Trusted s p cnt.toNat := .inr (.inl hreply)
    have hopened : Phase.opened (cmdFrame CMD18 (sectorAddr v.sdType sector) 0x01) 0 =
        .await true := rfl
    rw [run_of_eq (sdSendCmd_zero command_cmd18 hreply _ _), hopened, hrecs, List.nil_append,
      run_bind]
    refine (run_dataBlocks (reading s (afterCmd s p CMD18) [.reply (cmdFrame CMD18
      (sectorAddr v.sdType sector) 0x01) 0]) (fun i ↦ awaits_await true) (fun i _ ↦ reading_step i)
      (cnt - 1).toNat).mono ?_
    rw [toNat_pred h0]
    rintro r _ ⟨hzero, hnz⟩
    by_cases hr : r = 0
    · obtain ⟨-, rfl⟩ := hzero hr
      refine (run_endRead r).mono ?_
      rintro _ t ⟨rfl, hmem, extra, hrecs', -⟩
      refine ⟨fun _ ↦ htrust, fun _ _ ↦ ⟨[], extra, ?_⟩⟩
      have hblocks :
        (List.range cnt.toNat).map (fun i ↦ Record.data (slice t.mem (buf + 512 * i) 512)) =
          (List.range cnt.toNat).map fun i ↦ .data (streamBlock s (afterCmd s p CMD18) i) := by
        refine List.map_congr_left fun i hi ↦ ?_
        rw [hmem, slice_stored (List.mem_range.1 hi)]
      rw [hrecs', hblocks, readCmd, if_neg hne]
      rfl
    · obtain ⟨-, m', p', mon', rfl⟩ := hnz hr
      refine (run_endRead r).mono ?_
      rintro _ t ⟨rfl, -⟩
      exact ⟨fun _ ↦ htrust, fun _ h ↦ absurd h hr⟩
  · -- It was not: nothing on the bus is a block, whatever the driver takes for one.
    refine (run_sdSendCmd command_cmd18 _ _).mono ?_
    rintro _ _ ⟨-, mon₁, extra₁, rfl, hrecs₁, hextra₁, hquiet⟩
    rw [hrecs, List.nil_append] at hrecs₁
    have hq : mon₁.Quiet := hquiet hreply
    rw [run_bind]
    refine (run_dataBlocks (fun _ ↦ mon₁) (fun _ ↦ hq.awaits)
      (fun i _ ↦ by rw [hq]; exact hq.hear _) (cnt - 1).toNat).mono ?_
    rw [toNat_pred h0]
    rintro r _ ⟨hzero, hnz⟩
    by_cases hr : r = 0
    · obtain ⟨hfound, rfl⟩ := hzero hr
      refine (run_endRead r).mono ?_
      rintro _ t ⟨rfl, hmem, extra₂, hrecs₂, hextra₂⟩
      have hnot : ¬ Received t.mem buf v.sdType sector cnt.toNat t.dev.monitor.recs := by
        rw [hrecs₂, hrecs₁]
        exact not_received hreply hne hextra₁ hextra₂
      refine ⟨fun h ↦ absurd (h hr) hnot, ?_⟩
      rintro (h | h | ⟨i, hi, hno⟩)
      · exact absurd h hne
      · exact absurd h hreply
      · rw [hfound i hi] at hno
        exact Bool.noConfusion hno
    · obtain ⟨hmissing, m', p', mon', rfl⟩ := hnz hr
      refine (run_endRead r).mono ?_
      rintro _ t ⟨rfl, -⟩
      exact ⟨fun _ ↦ .inr (.inr hmissing), fun _ h ↦ absurd h hr⟩

theorem run_sdReadDisk {cnt : UInt8} (h0 : cnt ≠ 0) (hrecs : mon.recs = []) :
    Run (sdReadDisk buf sector cnt) (onWire m s p mon v) fun r t ↦
      Honest s p buf v.sdType sector cnt.toNat r t := by
  by_cases h1 : cnt = 1
  · subst h1
    exact run_sdReadDisk_one
  · exact run_sdReadDisk_many h1 h0 hrecs

/-- **When a reported read is the truth.**  For every stream, card type, sector and count from 1 to
128, `SD_ReadDisk` and `disk_read` report success only for blocks that were received, exactly when
the stream can be trusted. -/
theorem read_success_iff (count : UInt32) (h1 : 1 ≤ count.toNat) (h128 : count.toNat ≤ 128)
    (hrecs : mon.recs = []) :
    (Run (sdReadDisk buf sector count.toUInt8) (onWire m s p mon v) fun r t ↦
      (r = 0 → Received t.mem buf v.sdType sector count.toNat t.dev.monitor.recs) ↔
        Trusted s p count.toNat) ∧
    (Run (diskRead SD_CARD buf sector count) (onWire m s p mon v) fun res t ↦
      (res = .RES_OK → Received t.mem buf v.sdType sector count.toNat t.dev.monitor.recs) ↔
        Trusted s p count.toNat) := by
  have ⟨hcnt, hne, hcount⟩ := toUInt8_count h1 h128
  have hsd : Run (sdReadDisk buf sector count.toUInt8) (onWire m s p mon v) fun r t ↦
      Honest s p buf v.sdType sector count.toUInt8.toNat r t := run_sdReadDisk hne hrecs
  rw [hcnt] at hsd
  refine ⟨hsd, ?_⟩
  rw [diskRead, if_neg hcount, if_pos rfl, bind_assoc']
  refine hsd.bind fun r t hr ↦ ?_
  by_cases h0 : r = 0
  · subst h0
    simpa [Honest] using hr
  · have hbne : (r != 0) = true := bne_iff_ne.2 h0
    have htrust : Trusted s p count.toNat := hr.1 fun h ↦ absurd h h0
    rw [hbne, when_true]
    simp [sdSpiSpeedLow, sdSpiSpeedHigh, h0, htrust, run_of_eq (assign_apply _ _),
      run_of_eq (readWriteByte_apply _ _)]

/-- A bus on which `CMD18` is answered with 4, an illegal command, and two stray bytes look like
start tokens. -/
def stray (n : Nat) : UInt8 := if n = 8 then 0x04 else if n = 9 ∨ n = 524 then 0xFE else 0xFF

theorem not_trusted_stray : ¬ Trusted stray 0 2 := by
  have hready : readyHit stray 1 = 1 := hit_of_good rfl _
  have hreplyHit : replyHit stray 0 CMD18 = 8 := by
    rw [replyHit, hready]
    exact hit_of_good rfl _
  have hreply : reply stray 0 CMD18 = 0x04 := by
    rw [reply, ready, hready, hreplyHit]
    rfl
  have hcmd : afterCmd stray 0 CMD18 = 9 := by
    rw [afterCmd, ready, hready, hreplyHit]
    rfl
  have htoken₉ : tokenHit stray 9 = 9 := hit_of_good rfl _
  have htoken₅₂₄ : tokenHit stray 524 = 524 := hit_of_good rfl _
  have hfound : tokenFound stray 9 = true := by
    rw [tokenFound, htoken₉]
    simp
  have hdata : afterData stray 9 = 524 := by
    rw [afterData, if_pos hfound, htoken₉]
  rw [Trusted, hreply, hcmd]
  rintro (h | h | ⟨i, hi, hno⟩)
  · exact absurd h (by decide)
  · exact absurd h (by decide)
  · rcases Nat.lt_succ_iff_lt_or_eq.1 hi with hi | rfl
    · obtain rfl := Nat.lt_one_iff.1 hi
      exact absurd (hfound.symm.trans hno) Bool.noConfusion
    · rw [dataPos, dataPos, hdata, tokenFound, htoken₅₂₄] at hno
      simp at hno

/-- Two sectors are reported as read although the card refused the command. -/
theorem read_false_success :
    Run (sdReadDisk 0 0 2) (onWire (fun _ ↦ 0) stray 0 ⟨false, .idle, []⟩ ⟨SD_TYPE_V1, 0⟩)
      fun r t ↦ r = 0 ∧ ¬ Received t.mem 0 SD_TYPE_V1 0 2 t.dev.monitor.recs := by
  refine (run_sdReadDisk (by decide : (2 : UInt8) ≠ 0) rfl).mono fun r t ht ↦ ?_
  exact Classical.not_imp.1 fun h ↦ not_trusted_stray (ht.1 h)

theorem read_success_iff_two_sectors :
    Run (diskRead SD_CARD 0 0 2) (onWire (fun _ ↦ 0) stray 0 ⟨false, .idle, []⟩ ⟨SD_TYPE_V1, 0⟩)
      fun res t ↦ (res = .RES_OK → Received t.mem 0 SD_TYPE_V1 0 2 t.dev.monitor.recs) ↔
        Trusted stray 0 2 :=
  (read_success_iff 2 (by decide) (by decide) rfl).2

end Stm32F1.Sd
