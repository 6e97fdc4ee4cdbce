import Stm32F1.Enc.Rules

/-!
# Waiting for the chip

The driver waits in three places: for the end of a transmission, for the receiver
to be at rest, and, at most a number of times, for an access to the PHY.  What is
left to wait for is a measure that goes down with every byte on the bus, or with
every look.
-/

namespace Stm32F1.Enc

open Prog Mcu

variable {old : List (Access (Framed Enc28j60))} {I J : Enc28j60 → Prop} {m : Nat → UInt8}
  {next : UInt32} {s : Board} {addr r v : UInt8} {c : Enc28j60}

/-! ## What is left -/

namespace Enc28j60

theorem receive_tx (c : Enc28j60) (f : Frame) : (c.receive f).tx = c.tx ∧
    (c.receive f).mii = c.mii ∧ (c.receive f).phy = c.phy ∧ (c.receive f).mird = c.mird := by
  rcases c.receive_eq f with heq | ⟨-, -, -, heq⟩
  · rw [heq]
    exact ⟨rfl, rfl, rfl, rfl⟩
  · rw [heq]
    exact ⟨rfl, rfl, rfl, rfl⟩

/-- What arrives is no business of the transmitter, nor of the PHY. -/
theorem arrive_tx (c : Enc28j60) (fs : List Frame) : (fs.foldl receive c).tx = c.tx ∧
    (fs.foldl receive c).mii = c.mii ∧ (fs.foldl receive c).phy = c.phy ∧
    (fs.foldl receive c).mird = c.mird := by
  refine foldl_receive (I := fun d ↦ d.tx = c.tx ∧ d.mii = c.mii ∧ d.phy = c.phy ∧
    d.mird = c.mird) ?_ fs ⟨rfl, rfl, rfl, rfl⟩
  rintro d f ⟨h₁, h₂, h₃, h₄⟩
  obtain ⟨h₁', h₂', h₃', h₄'⟩ := d.receive_tx f
  exact ⟨h₁'.trans h₁, h₂'.trans h₂, h₃'.trans h₃, h₄'.trans h₄⟩

theorem access_tx (c : Enc28j60) : c.access.tx = c.tx := by
  rw [access]
  split <;> rfl

theorem transmit_mii (c : Enc28j60) : c.transmit.mii = c.mii ∧ c.transmit.phy = c.phy ∧
    c.transmit.mird = c.mird ∧ c.transmit.regs = c.regs := by
  rw [transmit]
  split <;> exact ⟨rfl, rfl, rfl, rfl⟩

/-- The bytes until no transmission goes on. -/
def txLeft (c : Enc28j60) : Nat := c.tx.elim 0 (· + 1)

theorem txLeft_pass (c : Enc28j60) : c.pass.txLeft = c.txLeft - 1 := by
  have htx : c.pass.tx = ((c.course.arrivals c.time).foldl receive c).transmit.tx := access_tx _
  have harrive := (c.arrive_tx (c.course.arrivals c.time)).1
  rw [txLeft, htx, transmit, txLeft]
  cases h : c.tx with
  | none =>
      rw [h] at harrive
      rw [harrive, harrive]
      rfl
  | some k =>
      rw [h] at harrive
      cases k with
      | zero =>
          rw [harrive]
          rfl
      | succ k =>
          rw [harrive]
          rfl

/-- The bytes until no access to the PHY goes on. -/
def miiLeft (c : Enc28j60) : Nat := c.mii.elim 0 (·.2 + 1)

theorem miiLeft_eq_zero : c.miiLeft = 0 ↔ c.mii = none := by
  rw [miiLeft]
  cases h : c.mii with
  | none => exact ⟨fun _ ↦ rfl, fun _ ↦ rfl⟩
  | some p =>
    exact ⟨fun h ↦ absurd h (Nat.succ_ne_zero _), fun h ↦ absurd h (Option.some_ne_none _)⟩

/-- The chip when its access to the PHY goes on. -/
theorem pass_mii (c : Enc28j60) : ∃ d : Enc28j60, d.mii = c.mii ∧ d.phy = c.phy ∧ d.mird = c.mird ∧
    d.regs = c.regs ∧ c.pass.mii = d.access.mii ∧ c.pass.phy = d.access.phy ∧
    c.pass.mird = d.access.mird := by
  obtain ⟨-, hmii, hphy, hmird⟩ := c.arrive_tx (c.course.arrivals c.time)
  obtain ⟨hmii', hphy', hmird', hregs'⟩ :=
    ((c.course.arrivals c.time).foldl receive c).transmit_mii
  have hregs : ((c.course.arrivals c.time).foldl receive c).regs = c.regs :=
    foldl_receive (I := fun d ↦ d.regs = c.regs) (fun d f h ↦ (same_receive d f).regs.trans h) _ rfl
  exact ⟨_, hmii'.trans hmii, hphy'.trans hphy, hmird'.trans hmird, hregs'.trans hregs, rfl,
    rfl, rfl⟩

theorem miiLeft_pass (c : Enc28j60) : c.pass.miiLeft = c.miiLeft - 1 := by
  obtain ⟨d, hd, -, -, -, hpass, -⟩ := c.pass_mii
  rw [miiLeft, hpass, access, miiLeft, ← hd]
  rcases h : d.mii with _ | ⟨_ | _, _ | k⟩
  · rw [h]
    rfl
  · rfl
  · rfl
  · rfl
  · rfl

end Enc28j60

/-! ## The transmitter -/

theorem kept_txLeft (n : Nat) : Kept fun c ↦ c.txLeft ≤ n where
  pass c h := by
    rw [c.txLeft_pass]
    exact (Nat.sub_le _ _).trans h
  econ1 _ _ _ h := h

/-- `while (ENC28J60_Read (ECON1) & 0X08);` -/
theorem On.waitEcon1 (hI : Kept I) (h : On old I m next s) :
    Run (whileM do
      let b ← enc28j60Read ECON1
      pure (b &&& 0x08 != 0)) s fun _ s' ↦ On old (fun c ↦ I c ∧ c.tx = none) m next s' := by
  refine run_whileM (On old I m next) (fun s ↦ s.dev.chip.txLeft) ?_ h
  intro s hs
  let n := s.dev.chip.txLeft
  have hstart : On old (fun c ↦ I c ∧ c.txLeft ≤ n) m next s :=
    { hs with chip := ⟨hs.chip, le_rfl⟩ }
  have hfirst (c : Enc28j60) (hc : I c ∧ c.txLeft ≤ n) : I c.pass ∧ c.pass.txLeft ≤ n - 1 := by
    refine ⟨hI.pass c hc.1, ?_⟩
    rw [c.txLeft_pass]
    exact Nat.sub_le_sub_right hc.2 1
  have hread := hstart.readLater (hI.and (kept_txLeft n)) hfirst
    (hI.and (kept_txLeft (n - 1))).pass (by decide : Named ECON1)
    (V := fun v c ↦ (I c ∧ c.txLeft ≤ n - 1) ∧
      v &&& ECON1_TXRTS = if c.tx.isSome then ECON1_TXRTS else 0)
    fun c hc ↦ ⟨hc, c.peek_econ1_txrts⟩
  refine hread.bind ?_
  rintro v s' hs'
  obtain ⟨⟨hchip, hleft⟩, hv⟩ := hs'.chip
  have hv : v &&& (0x08 : UInt8) = if s'.dev.chip.tx.isSome then ECON1_TXRTS else 0 := hv
  refine run_pure.2 ?_
  rw [hv, Enc28j60.txLeft] at *
  cases htx : s'.dev.chip.tx with
  | none =>
      have hdone : ((if (none : Option Nat).isSome then ECON1_TXRTS else 0) != 0) = false := rfl
      rw [hdone]
      exact { hs' with chip := ⟨hchip, htx⟩ }
  | some k =>
      have hbusy : ((if (some k).isSome then ECON1_TXRTS else 0) != 0) = true := rfl
      rw [htx] at hleft
      rw [hbusy]
      have hsucc : k + 1 ≤ n - 1 := hleft
      refine ⟨{ hs' with chip := hchip }, ?_⟩
      change k + 1 < n
      omega

/-! ## The receiver -/

/-- An invariant that a look at a register does not change either. -/
structure Calm (I : Enc28j60 → Prop) : Prop extends Kept I where
  looked : ∀ c r, I c → I (Enc28j60.looked c r)

/-- `while (ENC28J60_Read (ESTAT) & 0X04);` -/
theorem On.waitEstat (hI : Calm I) (h : On old I m next s) :
    Run (whileM do
      let b ← enc28j60Read ESTAT
      pure (b &&& 0x04 != 0)) s fun _ s' ↦ On old I m next s' := by
  let course := s.dev.chip.course
  -- The looks until the receiver rests.
  let rest (n : Nat) : Nat := Nat.find (course.rests n) - n
  refine run_whileM (Q := On old I m next)
    (On old (fun c ↦ I c ∧ c.course = course) m next) (fun s ↦ rest s.dev.chip.looks) ?_
    { h with chip := ⟨h.chip, rfl⟩ }
  intro s hs
  obtain ⟨hchip, hcourse⟩ := hs.chip
  let n := s.dev.chip.looks
  have hstart : On old (fun c ↦ I c ∧ c.course = course ∧ c.looks = n) m next s :=
    { hs with chip := ⟨hchip, hcourse, rfl⟩ }
  refine (hstart.read (hI.toKept.and (kept_course course n)) (by decide : Named ESTAT)
    (V := fun v c ↦ (I c ∧ c.course = course) ∧ c.looks = n + 1 ∧ v = course.estat n) ?_).bind ?_
  · rintro c ⟨hc, hcourse, hlooks⟩
    refine ⟨⟨hI.looked c ESTAT hc, hcourse⟩, ?_, ?_⟩
    · rw [← hlooks]
      rfl
    · rw [← hcourse, ← hlooks]
      rfl
  · rintro v s' hs'
    obtain ⟨hc, hlooks, rfl⟩ := hs'.chip
    refine run_pure.2 ?_
    by_cases hbusy : course.estat n &&& 0x04 = 0
    · rw [hbusy]
      exact { hs' with chip := hc.1 }
    · rw [bne_iff_ne.2 hbusy]
      refine ⟨{ hs' with chip := hc }, ?_⟩
      obtain ⟨hle, hrest⟩ := Nat.find_spec (course.rests n)
      have hne : Nat.find (course.rests n) ≠ n := fun heq ↦ hbusy (heq ▸ hrest)
      have hfind : Nat.find (course.rests (n + 1)) ≤ Nat.find (course.rests n) :=
        Nat.find_min' _ ⟨by omega, hrest⟩
      rw [hlooks]
      change Nat.find (course.rests (n + 1)) - (n + 1) < Nat.find (course.rests n) - n
      omega

/-! ## The PHY -/

/-- The loop keeps what time keeps, however it ends. -/
theorem On.waitMii (hI : Kept I) (h : On old I m next s) :
    Run waitMii s fun _ s' ↦ On old I m next s' := by
  refine (run_poll_inv (I := On old I m next) ?_ h).bind ?_
  · intro s hs
    exact hs.read (V := fun _ c ↦ I c) hI (by decide) fun c hc ↦ hc
  · intro _ s' hs'
    exact run_pure.2 hs'

theorem Kept.timed (hI : Kept I) : Timed fun n c ↦ I c ∧ c.miiLeft ≤ n where
  pass n c h := by
    refine ⟨hI.pass c h.1, ?_⟩
    rw [c.miiLeft_pass]
    exact Nat.sub_le_of_le_add h.2
  econ1 n c v hv h := ⟨hI.econ1 c v hv h.1, h.2⟩

/-- A register is read, in the time that it takes. -/
theorem On.readTimed {K : Nat → Enc28j60 → Prop} (hK : Timed K) (hr : Named addr) {n : Nat}
    (h : On old (K (n + readTime addr + bankTime s.glob.enc28j60bank addr)) m next s) :
    Run (enc28j60Read addr) s fun v s' ↦ On old (fun c' ↦ ∃ c, K n c ∧ v = c.peek addr ∧
      c' = c.looked addr) m next s' ∧ s'.glob.enc28j60bank = addr &&& BANK_MASK := by
  have hiterate (k : Nat) : ∀ c, K (n + k) c → K n (Enc28j60.pass^[k] c) := by
    induction k with
    | zero => exact fun c hc ↦ hc
    | succ k ih => exact fun c hc ↦ ih c.pass (hK.pass _ c hc)
  obtain ⟨hchip, hbank, rfl, rfl, haccesses⟩ := h
  refine (run_setBankTimed hK hchip fun heq ↦ by rw [hbank, heq]).bind ?_
  rintro _ _ ⟨c, rx, hc, hbsel, rfl⟩
  refine (run_readSelected (g := { s.glob with enc28j60bank := _ }) hr hbsel rfl haccesses).mono ?_
  rintro v s' ⟨hs', hbank'⟩
  exact ⟨hs'.mono fun c' hc' ↦ ⟨_, hiterate _ c hc, hc'⟩, hbank'⟩

/-- The bytes on the bus in which the driver looks for the end of an access to the PHY. -/
def miiLimit : Nat := 4 + 0x10000 * 3

/-- An access to the PHY that ends in time has ended behind the loop. -/
theorem On.waitMii_idle (hI : Kept I) (hbank : s.glob.enc28j60bank ≠ MISTAT &&& BANK_MASK)
    (h : On old (fun c ↦ I c ∧ c.miiLeft ≤ miiLimit) m next s) :
    Run Enc.waitMii s fun _ s' ↦ On old (fun c ↦ I c ∧ c.mii = none) m next s' := by
  refine (run_poll (Q := fun _ ↦ On old (fun c ↦ I c ∧ c.mii = none) m next)
    (fun k s ↦ On old (fun c ↦ I c ∧
      c.miiLeft ≤ k * 3 + readTime MISTAT + bankTime s.glob.enc28j60bank MISTAT) m next s) ?_
      ?_).bind ?_
  · intro k s hs
    refine (hs.readTimed hI.timed (by decide : Named MISTAT)).mono ?_
    rintro v s' ⟨hs', hbank'⟩
    obtain ⟨c, ⟨hc, hleft⟩, rfl, hlooked⟩ := hs'.chip
    have hchip : s'.dev.chip = c := hlooked
    have hstop (hnone : c.mii = none) : On old (fun c ↦ I c ∧ c.mii = none) m next s' :=
      { hs' with chip := hchip.symm ▸ ⟨hc, hnone⟩ }
    constructor
    · rintro (hdone | rfl)
      · refine hstop ?_
        have hpeek : c.peek MISTAT = if c.mii.isSome then MISTAT_BUSY else 0 := rfl
        cases hmii : c.mii with
        | none => rfl
        | some p =>
            have hbusy : ¬ (MISTAT_BUSY &&& MISTAT_BUSY == 0) = true := by decide
            rw [hpeek, hmii] at hdone
            exact absurd hdone hbusy
      · rw [Nat.zero_mul, Nat.le_zero] at hleft
        exact hstop (Enc28j60.miiLeft_eq_zero.1 hleft)
    · intro _ hk
      refine { hs' with chip := hchip.symm ▸ ⟨hc, ?_⟩ }
      have htime : bankTime s'.glob.enc28j60bank MISTAT = 0 := if_pos hbank'
      have hread : readTime MISTAT = 3 := rfl
      rw [htime, hread]
      omega
  · have htime : bankTime s.glob.enc28j60bank MISTAT = 4 := if_neg hbank
    rw [htime]
    exact h.mono fun c hc ↦ hc
  · intro _ s' hs'
    exact run_pure.2 hs'

end Stm32F1.Enc
