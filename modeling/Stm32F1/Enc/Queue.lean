import Stm32F1.Enc.Rules

/-!
# The receive ring

Between `ERXRDPT` and the write pointer lie the frames that were not taken yet,
one behind the other.  The frames that the chip has stored are those that were
taken and, in the same order, those in the ring.
-/

namespace Stm32F1.Enc

open Enc28j60

/-- The number of cells of the ring. -/
def ringSize : Nat := RXSTOP_INIT.toNat + 1

/-- The address after `a`, when `ERXST` and `ERXND` are set as the driver sets them. -/
def ringNext (a : Nat) : Nat := if a = RXSTOP_INIT.toNat then 0 else (a + 1) % 8192

variable {a k p freed : Nat} {c c' : Enc28j60} {f : Frame} {taken pending front : List Frame}
  {r v : UInt8} {regs : UInt8 → UInt8}

theorem ringNext_of_lt (h : a < ringSize) : ringNext a = (a + 1) % ringSize := by
  rw [ringNext]
  change a < 6673 at h
  change (if a = 6672 then 0 else (a + 1) % 8192) = (a + 1) % 6673
  split
  · omega
  · omega

theorem ringNext_iterate (h : a < ringSize) : ringNext^[k] a = (a + k) % ringSize := by
  induction k with
  | zero => exact (Nat.mod_eq_of_lt h).symm
  | succ k ih =>
      have hlt : (a + k) % ringSize < ringSize := Nat.mod_lt _ (by decide)
      rw [Function.iterate_succ_apply', ih, ringNext_of_lt hlt, Nat.mod_add_mod, Nat.add_assoc]

theorem ringNext_iterate_lt (h : a < ringSize) : ringNext^[k] a < ringSize := by
  rw [ringNext_iterate h]
  exact Nat.mod_lt _ (by decide)

theorem apart_ringNext (h : a < ringSize) {n : Nat} (hn : n ≤ ringSize) : Apart ringNext a n := by
  intro j k hjk hk
  rw [ringNext_iterate h, ringNext_iterate h]
  change a < 6673 at h
  change n ≤ 6673 at hn
  change (a + j) % 6673 ≠ (a + k) % 6673
  omega

/-- How the receiver lays a frame down. -/
def frameShape : Shape Nat UInt8 Frame where
  extent a f := 6 + f.data.length + ringNext^[6 + f.data.length] a % 2
  image a f := image (ringNext^[6 + f.data.length + ringNext^[6 + f.data.length] a % 2] a) f
  fits a f := by
    simp only [image, word, List.length_append, List.length_cons, List.length_nil]
    omega

/-! ## The invariant -/

/-- The ring begins at `p`; the frames `pending` are in it, and `freed` more are counted still. -/
structure Holding (p : Nat) (taken pending : List Frame) (freed : Nat) (c : Enc28j60) : Prop where
  erxst : pointer c.regs ERXSTL = 0
  erxnd : pointer c.regs ERXNDL = RXSTOP_INIT.toNat
  autoinc : c.regs ECON2 &&& ECON2_AUTOINC ≠ 0
  tx : c.tx = none
  lt : p < ringSize
  erxrdpt : c.erxrdpt = p
  erxwrpt : c.erxwrpt = ringNext^[frameShape.span ringNext p pending] p
  span : frameShape.span ringNext p pending < ringSize
  epktcnt : c.epktcnt = pending.length + freed
  count : c.epktcnt ≤ 255
  stored : c.stored = taken ++ pending
  queued : frameShape.Queued ringNext c.mem p pending

/-- Such a ring, of which some of the frames that were not taken are known. -/
def Ring (p : Nat) (taken front : List Frame) (freed : Nat) (c : Enc28j60) : Prop :=
  ∃ rest, Holding p taken (front ++ rest) freed c

theorem Holding.after (h : Holding p taken pending freed c) : c.after = ringNext := by
  funext a
  rw [Enc28j60.after, h.erxst, h.erxnd, ringNext]

/-- The free cells are those that the frames do not take up, less one. -/
theorem Holding.free (h : Holding p taken pending freed c) :
    c.free + frameShape.span ringNext p pending = RXSTOP_INIT.toNat := by
  have hspan := h.span
  have hlt := h.lt
  rw [Enc28j60.free, h.erxst, h.erxnd, h.erxrdpt, h.erxwrpt, ringNext_iterate h.lt]
  generalize frameShape.span ringNext p pending = n at *
  change n < 6673 at hspan
  change p < 6673 at hlt
  change (if p < (p + n) % 6673 then 6672 - 0 - ((p + n) % 6673 - p)
    else if (p + n) % 6673 = p then 6672 - 0 else p - (p + n) % 6673 - 1) + n = 6672
  split
  · omega
  · split
    · omega
    · omega

/-- A frame arrives. -/
theorem Holding.receive (h : Holding p taken pending freed c) (f : Frame) :
    ∃ more, Holding p taken (pending ++ more) freed (c.receive f) := by
  rcases c.receive_eq f with heq | ⟨hcount, hroom, -, heq⟩
  · rw [heq]
    exact ⟨[], by rwa [List.append_nil]⟩
  · have hfree := h.free
    have hextent : c.extent c.erxwrpt f = frameShape.extent c.erxwrpt f := by
      rw [Enc28j60.extent, h.after, frameShape]
    rw [hextent] at hroom
    have hspan : frameShape.span ringNext p (pending ++ [f]) < ringSize := by
      rw [Shape.span_concat, ← h.erxwrpt]
      change _ < RXSTOP_INIT.toNat + 1
      omega
    refine ⟨[f], ?_⟩
    rw [heq, h.after, hextent]
    exact
      { erxst := h.erxst, erxnd := h.erxnd, autoinc := h.autoinc, tx := h.tx, lt := h.lt
        erxrdpt := h.erxrdpt
        erxwrpt := by
          rw [Shape.span_concat, Nat.add_comm (frameShape.span ..), Function.iterate_add_apply,
            ← h.erxwrpt]
        span := hspan
        epktcnt := by
          have hlength : (pending ++ [f]).length = pending.length + 1 := List.length_append
          rw [hlength, Nat.add_right_comm, ← h.epktcnt]
        count := hcount
        stored := by rw [h.stored, List.append_assoc]
        queued := by
          have hpush := h.queued.push (f := f) (apart_ringNext h.lt hspan.le)
          rw [← h.erxwrpt] at hpush
          exact hpush }

/-- What the ring has nothing to do with. -/
theorem Holding.congr (h : Holding p taken pending freed c)
    (hst : pointer c'.regs ERXSTL = pointer c.regs ERXSTL)
    (hnd : pointer c'.regs ERXNDL = pointer c.regs ERXNDL)
    (hauto : c'.regs ECON2 = c.regs ECON2) (htx : c'.tx = c.tx) (hrd : c'.erxrdpt = c.erxrdpt)
    (hwr : c'.erxwrpt = c.erxwrpt) (hcnt : c'.epktcnt = c.epktcnt) (hsto : c'.stored = c.stored)
    (hmem : c'.mem = c.mem) : Holding p taken pending freed c' where
  erxst := hst.trans h.erxst
  erxnd := hnd.trans h.erxnd
  autoinc := hauto ▸ h.autoinc
  tx := htx.trans h.tx
  lt := h.lt
  erxrdpt := hrd.trans h.erxrdpt
  erxwrpt := hwr.trans h.erxwrpt
  span := h.span
  epktcnt := hcnt.trans h.epktcnt
  count := hcnt ▸ h.count
  stored := hsto.trans h.stored
  queued := hmem ▸ h.queued

theorem Holding.pass (h : Holding p taken pending freed c) :
    ∃ more, Holding p taken (pending ++ more) freed c.pass := by
  have harrive : ∃ more, Holding p taken (pending ++ more) freed
      ((c.course.arrivals c.time).foldl Enc28j60.receive c) := by
    refine foldl_receive (I := fun c ↦ ∃ more, Holding p taken (pending ++ more) freed c) ?_ _
      ⟨[], by rwa [List.append_nil]⟩
    rintro d f ⟨more, hd⟩
    obtain ⟨more', hd'⟩ := hd.receive f
    exact ⟨more ++ more', by rwa [List.append_assoc] at hd'⟩
  obtain ⟨more, hmore⟩ := harrive
  refine ⟨more, ?_⟩
  have htransmit : ((c.course.arrivals c.time).foldl Enc28j60.receive c).transmit =
      (c.course.arrivals c.time).foldl Enc28j60.receive c := by
    rw [Enc28j60.transmit, hmore.tx]
  have haccess : Holding p taken (pending ++ more) freed
      ((c.course.arrivals c.time).foldl Enc28j60.receive c).access := by
    rw [Enc28j60.access]
    split <;> exact hmore.congr rfl rfl rfl rfl rfl rfl rfl rfl rfl
  rw [Enc28j60.pass, htransmit]
  exact haccess.congr rfl rfl rfl rfl rfl rfl rfl rfl rfl

end Stm32F1.Enc
