import Stm32F1.Lib.Bits
import Stm32F1.Enc.Driver

/-!
# Access to the chip

What an access to a register or to the buffer memory does, whatever the network
and the chip do in the meantime.  An *invariant that is kept* is one that neither
the passing of time nor the choice of a register bank changes; it still holds at
the moment at which an access takes effect.
-/

namespace Stm32F1.Enc

open Prog Mcu

abbrev Board := Mcu (Framed Enc28j60) (Globals (Framed Enc28j60))

variable {c : Enc28j60} {s s' : Board} {f : Frame} {r v addr b : UInt8}

/-! ## Time passes -/

namespace Enc28j60

theorem receive_eq (c : Enc28j60) (f : Frame) : c.receive f = c ∨
    c.epktcnt < 255 ∧ c.extent c.erxwrpt f ≤ c.free ∧ c.regs ECON1 &&& ECON1_RXEN ≠ 0 ∧
    c.receive f = { c with
      mem := storeAlong c.after c.erxwrpt (image (c.after^[c.extent c.erxwrpt f] c.erxwrpt) f) c.mem
      erxwrpt := c.after^[c.extent c.erxwrpt f] c.erxwrpt
      epktcnt := c.epktcnt + 1
      stored := c.stored ++ [f] } := by
  rw [receive]
  split
  · rename_i h
    exact .inr ⟨h.2.1, h.2.2, h.1, rfl⟩
  · exact .inl rfl

/-- What every frame keeps is kept while frames arrive. -/
theorem foldl_receive {I : Enc28j60 → Prop} (hI : ∀ c f, I c → I (c.receive f)) (fs : List Frame)
    (h : I c) : I (fs.foldl receive c) := by
  induction fs generalizing c with
  | nil => exact h
  | cons f fs ih => exact ih (hI c f h)

/-- What is neither of the memory nor of the transmitter nor of the MII. -/
structure Same (c c' : Enc28j60) : Prop where
  course : c'.course = c.course
  looks : c'.looks = c.looks
  regs : c'.regs = c.regs
  erxrdpt : c'.erxrdpt = c.erxrdpt

theorem Same.trans {c c' c'' : Enc28j60} (h : Same c c') (h' : Same c' c'') : Same c c'' where
  course := h'.course.trans h.course
  looks := h'.looks.trans h.looks
  regs := h'.regs.trans h.regs
  erxrdpt := h'.erxrdpt.trans h.erxrdpt

theorem same_receive (c : Enc28j60) (f : Frame) : Same c (c.receive f) := by
  rcases c.receive_eq f with heq | ⟨-, -, -, heq⟩
  · rw [heq]
    exact ⟨rfl, rfl, rfl, rfl⟩
  · rw [heq]
    exact ⟨rfl, rfl, rfl, rfl⟩

theorem same_transmit (c : Enc28j60) : Same c c.transmit := by
  rw [transmit]
  split <;> exact ⟨rfl, rfl, rfl, rfl⟩

theorem same_access (c : Enc28j60) : Same c c.access := by
  rw [access]
  split <;> exact ⟨rfl, rfl, rfl, rfl⟩

theorem same_pass (c : Enc28j60) : Same c c.pass := by
  have harrive : Same c ((c.course.arrivals c.time).foldl receive c) :=
    foldl_receive (fun d f h ↦ h.trans (same_receive d f)) _ ⟨rfl, rfl, rfl, rfl⟩
  obtain ⟨h₁, h₂, h₃, h₄⟩ := (harrive.trans (same_transmit _)).trans (same_access _)
  exact ⟨h₁, h₂, h₃, h₄⟩

@[simp] theorem pass_course (c : Enc28j60) : c.pass.course = c.course := c.same_pass.course

@[simp] theorem pass_looks (c : Enc28j60) : c.pass.looks = c.looks := c.same_pass.looks

@[simp] theorem pass_regs (c : Enc28j60) : c.pass.regs = c.regs := c.same_pass.regs

end Enc28j60

/-! ## Pointers -/

theorem pointer_update (hlo : addr ≠ r) (hhi : addr + 1 ≠ r) (regs : UInt8 → UInt8) (v : UInt8) :
    pointer (Function.update regs r v) addr = pointer regs addr := by
  rw [pointer, Function.update_of_ne hlo, Function.update_of_ne hhi, pointer]

/-- A pointer that was set. -/
theorem pointer_setPointer (regs : UInt8 → UInt8) (lo : UInt8) (a : Nat) :
    pointer (setPointer regs lo a) lo = a % 8192 := by
  have hne : lo ≠ lo + 1 := by
    revert lo
    decide +kernel
  have hlo : setPointer regs lo a lo = UInt8.ofNat a := by
    rw [setPointer, Function.update_of_ne hne, Function.update_self]
  have hhi : setPointer regs lo a (lo + 1) = UInt8.ofNat (a / 256) := Function.update_self ..
  rw [pointer, hlo, hhi, UInt8.toNat_ofNat', UInt8.toNat_ofNat']
  omega

namespace Enc28j60

/-! ## Commands -/

/-- A register that is nothing but a register. -/
def Plain (r : UInt8) : Prop :=
  ¬ ReadOnly r ∧ r ≠ ERXRDPTH ∧ r ≠ ERXSTL ∧ r ≠ ERXSTH ∧ r ≠ ECON1 ∧ r ≠ ECON2 ∧ r ≠ MIWRH ∧
    r ≠ MICMD

instance (r : UInt8) : Decidable (Plain r) := inferInstanceAs (Decidable (_ ∧ _))

theorem poke_plain (hr : Plain r) (v : UInt8) :
    c.poke r v = { c with regs := Function.update c.regs r v } := by
  obtain ⟨hro, hrd, hsl, hsh, he₁, he₂, hw, hm⟩ := hr
  rw [poke, if_neg hro, if_neg hrd, if_neg (not_or.2 ⟨hsl, hsh⟩), if_neg he₁, if_neg he₂,
    if_neg hw, if_neg fun h ↦ hm h.1]

theorem poke_plain_self (hr : Plain r) (v : UInt8) : (c.poke r v).regs r = v := by
  rw [poke_plain hr]
  exact Function.update_self r v c.regs

theorem poke_plain_of_ne {r' : UInt8} (hr : Plain r) (hne : r' ≠ r) (v : UInt8) :
    (c.poke r v).regs r' = c.regs r' := by
  rw [poke_plain hr]
  exact Function.update_of_ne hne v c.regs

/-- A write to the MII may begin an access to the PHY. -/
theorem poke_mii (hr : r = MIWRH ∨ r = MICMD) (v : UInt8) : ∃ mii,
    c.poke r v = { c with regs := Function.update c.regs r v, mii := mii } := by
  rcases hr with rfl | rfl
  · exact ⟨_, rfl⟩
  · by_cases hv : v &&& MICMD_MIIRD = 0
    · exact ⟨c.mii, if_neg fun h ↦ h.2 hv⟩
    · exact ⟨_, if_pos ⟨rfl, hv⟩⟩

theorem poke_erxrdpth (v : UInt8) : c.poke ERXRDPTH v = { c with
    regs := Function.update c.regs ERXRDPTH v
    erxrdpt := pointer (Function.update c.regs ERXRDPTH v) ERXRDPTL } := rfl

theorem poke_erxst (hr : r = ERXSTL ∨ r = ERXSTH) (v : UInt8) : c.poke r v = { c with
    regs := Function.update c.regs r v
    erxwrpt := pointer (Function.update c.regs r v) ERXSTL } := by
  rcases hr with rfl | rfl <;> rfl

theorem poke_econ2 (v : UInt8) : c.poke ECON2 v = { c with
    regs := Function.update c.regs ECON2 (v &&& ~~~ECON2_PKTDEC)
    epktcnt := if v &&& ECON2_PKTDEC = 0 then c.epktcnt else c.epktcnt - 1 } := rfl

theorem poke_econ1 (v : UInt8) : c.poke ECON1 v = { c with
    regs := Function.update c.regs ECON1 (v &&& ~~~ECON1_TXRTS)
    tx := if v &&& ECON1_TXRTS = 0 then none
      else some (c.tx.getD (c.course.txTime c.time)) } := rfl

/-- The registers of the receiver, the transmitter and the packet counter, to which a write does
more than to change them. -/
def Acting (r : UInt8) : Prop := r = ERXRDPTH ∨ r = ERXSTL ∨ r = ERXSTH ∨ r = ECON1 ∨ r = ECON2

instance (r : UInt8) : Decidable (Acting r) := inferInstanceAs (Decidable (_ ∨ _))

/-- A write elsewhere changes that register at most, and may begin an access to the PHY. -/
theorem poke_of_not_acting (hr : ¬ Acting r) (v : UInt8) : ∃ regs mii,
    c.poke r v = { c with regs := regs, mii := mii } ∧ (∀ r' ≠ r, regs r' = c.regs r') ∧
      (r ≠ MIWRH → r ≠ MICMD → mii = c.mii) := by
  have hupdate (r' : UInt8) (hne : r' ≠ r) : Function.update c.regs r v r' = c.regs r' :=
    Function.update_of_ne hne ..
  by_cases hro : ReadOnly r
  · exact ⟨c.regs, c.mii, by rw [poke, if_pos hro], fun _ _ ↦ rfl, fun _ _ ↦ rfl⟩
  by_cases hmii : r = MIWRH ∨ r = MICMD
  · obtain ⟨mii, heq⟩ := c.poke_mii hmii v
    exact ⟨_, mii, heq, hupdate, fun h₁ h₂ ↦ absurd hmii (not_or.2 ⟨h₁, h₂⟩)⟩
  · rw [not_or] at hmii
    simp only [Acting, not_or] at hr
    exact ⟨_, c.mii, poke_plain ⟨hro, hr.1, hr.2.1, hr.2.2.1, hr.2.2.2.1, hr.2.2.2.2, hmii.1,
      hmii.2⟩ v, hupdate, fun _ _ ↦ rfl⟩

/-- Only a write to `ECON1` changes that register. -/
theorem poke_regs_econ1 (hr : r ≠ ECON1) (v : UInt8) :
    (c.poke r v).regs ECON1 = c.regs ECON1 := by
  have hupdate : Function.update c.regs r v ECON1 = c.regs ECON1 := Function.update_of_ne hr.symm ..
  by_cases hact : Acting r
  · rcases hact with rfl | rfl | rfl | rfl | rfl
    · exact hupdate
    · exact hupdate
    · exact hupdate
    · exact absurd rfl hr
    · have hne : ECON1 ≠ ECON2 := by decide
      change Function.update c.regs ECON2 (v &&& ~~~ECON2_PKTDEC) ECON1 = _
      rw [Function.update_of_ne hne]
  · obtain ⟨regs, mii, heq, hregs, -⟩ := c.poke_of_not_acting hact v
    rw [heq]
    exact hregs ECON1 hr.symm

/-- Nor does a pointer that moves on. -/
theorem advance_econ1 (lo : UInt8) (a : Nat) (hlo : lo ≠ ECON1) (hhi : lo + 1 ≠ ECON1) :
    (c.advance lo a).regs ECON1 = c.regs ECON1 := by
  rw [advance]
  split
  · exact (Function.update_of_ne hhi.symm ..).trans (Function.update_of_ne hlo.symm ..)
  · rfl

@[simp] theorem looked_regs (c : Enc28j60) (r : UInt8) : (c.looked r).regs = c.regs := by
  rw [looked]
  split <;> rfl

end Enc28j60

/-- The register that an address stands for: the bank is in the bits 5 and 6. -/
def target (addr : UInt8) : UInt8 := regAt ((addr &&& BANK_MASK) >>> 5) (addr &&& ADDR_MASK)

/-- The address that the driver has for a register. -/
def Named (addr : UInt8) : Prop := target addr = addr

instance (addr : UInt8) : Decidable (Named addr) := inferInstanceAs (Decidable (_ = _))

/-- The bank that is selected. -/
def Enc28j60.bsel (c : Enc28j60) : UInt8 := c.regs ECON1 &&& 0x03

@[simp] theorem Enc28j60.pass_bsel (c : Enc28j60) : c.pass.bsel = c.bsel := by
  rw [bsel, pass_regs, bsel]

theorem op_and_mask {op : UInt8} (hop : op &&& ADDR_MASK = 0) (addr : UInt8) :
    (op ||| (addr &&& ADDR_MASK)) &&& ADDR_MASK = addr &&& ADDR_MASK := by
  rw [or_and_distrib, hop, UInt8.zero_or, UInt8.and_assoc, UInt8.and_self]

theorem op_and_code {op : UInt8} (hop : op &&& 0xE0 = op) (addr : UInt8) :
    (op ||| (addr &&& ADDR_MASK)) &&& 0xE0 = op := by
  have hmask : ADDR_MASK &&& (0xE0 : UInt8) = 0 := rfl
  rw [or_and_distrib, hop, UInt8.and_assoc, hmask, UInt8.and_zero, UInt8.or_zero]

/-- In the right bank, the command reaches the register that its address stands for. -/
theorem Enc28j60.named_eq {op : UInt8} (hop : op &&& ADDR_MASK = 0)
    (hbank : c.bsel = (addr &&& BANK_MASK) >>> 5) :
    c.named (op ||| (addr &&& ADDR_MASK)) = target addr := by
  have hbank' : c.regs ECON1 &&& (0x03 : UInt8) = (addr &&& BANK_MASK) >>> 5 := hbank
  rw [named, op_and_mask hop, hbank', target]

/-! ## Commands on the bus -/

variable {op data : UInt8} {I J : Enc28j60 → Prop}

/-- The commands that change a register. -/
def Changes (op : UInt8) : Prop :=
  op = ENC28J60_WRITE_CTRL_REG ∨ op = ENC28J60_BIT_FIELD_SET ∨ op = ENC28J60_BIT_FIELD_CLR

/-- A byte with another operation code is another command. -/
theorem code_ne {op code : UInt8} (hop : op &&& 0xE0 = op) (h : code &&& 0xE0 ≠ op) (addr : UInt8) :
    op ||| (addr &&& ADDR_MASK) ≠ code := by
  rintro rfl
  exact h (op_and_code hop addr)

/-- Such a command is no other. -/
theorem Changes.code (hop : Changes op) (addr : UInt8) :
    op ||| (addr &&& ADDR_MASK) ≠ ENC28J60_SOFT_RESET ∧
      op ||| (addr &&& ADDR_MASK) ≠ ENC28J60_READ_BUF_MEM ∧
      op ||| (addr &&& ADDR_MASK) ≠ ENC28J60_WRITE_BUF_MEM ∧
      (op ||| (addr &&& ADDR_MASK)) &&& 0xE0 ≠ ENC28J60_READ_CTRL_REG := by
  have hcode : op &&& 0xE0 = op := by
    rcases hop with rfl | rfl | rfl <;> rfl
  rw [op_and_code hcode addr]
  refine ⟨code_ne hcode ?_ addr, code_ne hcode ?_ addr, code_ne hcode ?_ addr, ?_⟩ <;>
    rcases hop with rfl | rfl | rfl <;> decide

/-- A command that changes a register takes effect with its second byte. -/
theorem writeOp_eq (hop : Changes op) (addr data : UInt8) (s : Board) :
    enc28j60WriteOp op addr data s = some ((), { s with
      dev := ⟨s.dev.chip.pass.pass.change (op ||| (addr &&& ADDR_MASK)) data, none⟩ }) := by
  obtain ⟨hreset, hread, hwrite, hctrl⟩ := hop.code addr
  refine Run.eq (run_bind.2 (run_modify.2 (run_bind.2 (run_act.2 (run_bind.2 (run_act.2 ?_))))))
  have hfirst (c : Enc28j60) : (FramedChip.shift [] (op ||| (addr &&& ADDR_MASK)) c).2 = c.pass :=
    if_neg hreset
  have hsecond (c : Enc28j60) : (FramedChip.shift [op ||| (addr &&& ADDR_MASK)] data c).2 =
      c.pass.change (op ||| (addr &&& ADDR_MASK)) data := by
    change (c.pass.exchange [op ||| (addr &&& ADDR_MASK)] data).2 = _
    rw [Enc28j60.exchange, if_neg hread, if_neg hwrite, if_neg hctrl, if_pos rfl]
  simp only [Framed.cs_low, Framed.exchange_selected, List.nil_append, hfirst, hsecond]
  exact run_modify.2 rfl

/-- What time keeps still holds at that moment. -/
theorem run_writeOp (hI : ∀ c, I c → I c.pass) (hop : Changes op) (h : I s.dev.chip) :
    Run (enc28j60WriteOp op addr data) s fun _ s' ↦ ∃ c, I c ∧ c.regs = s.dev.chip.regs ∧
      s' = { s with dev := ⟨c.change (op ||| (addr &&& ADDR_MASK)) data, none⟩ } :=
  .of_eq (writeOp_eq hop addr data s) ⟨_, hI _ (hI _ h), by simp, rfl⟩

/-- The byte that asks for a register. -/
theorem read_code (addr : UInt8) :
    ENC28J60_READ_CTRL_REG ||| (addr &&& ADDR_MASK) ≠ ENC28J60_SOFT_RESET ∧
      ENC28J60_READ_CTRL_REG ||| (addr &&& ADDR_MASK) ≠ ENC28J60_READ_BUF_MEM ∧
      ENC28J60_READ_CTRL_REG ||| (addr &&& ADDR_MASK) ≠ ENC28J60_WRITE_BUF_MEM ∧
      (ENC28J60_READ_CTRL_REG ||| (addr &&& ADDR_MASK)) &&& 0xE0 = ENC28J60_READ_CTRL_REG :=
  ⟨code_ne rfl (by decide) addr, code_ne rfl (by decide) addr, code_ne rfl (by decide) addr,
    op_and_code rfl addr⟩

/-- The chip answers with the register; those of the MAC and the MII come one byte later. -/
theorem exchange_read (hbank : c.bsel = (addr &&& BANK_MASK) >>> 5) (args : List UInt8)
    (b : UInt8) : c.exchange ((ENC28J60_READ_CTRL_REG ||| (addr &&& ADDR_MASK)) :: args) b =
      if target addr &&& 0x80 ≠ 0 ∧ args = [] then (c.course.dummy c.time, c)
      else (c.peek (target addr), c.looked (target addr)) := by
  obtain ⟨-, hread, hwrite, hctrl⟩ := read_code addr
  rw [Enc28j60.exchange, if_neg hread, if_neg hwrite, if_pos hctrl, Enc28j60.named_eq rfl hbank]

/-- The bytes until the register is read. -/
def readTime (addr : UInt8) : Nat := if addr &&& 0x80 = 0 then 2 else 3

/-- A register is read. -/
theorem readOp_eq (hr : Named addr) (s : Board)
    (hbank : s.dev.chip.bsel = (addr &&& BANK_MASK) >>> 5) :
    enc28j60ReadOp ENC28J60_READ_CTRL_REG addr s =
      some ((Enc28j60.pass^[readTime addr] s.dev.chip).peek addr, { s with
        dev := ⟨(Enc28j60.pass^[readTime addr] s.dev.chip).looked addr, none⟩ }) := by
  obtain ⟨hreset, -, -, -⟩ := read_code addr
  have hread := fun (c : Enc28j60) (hc : c.bsel = (addr &&& BANK_MASK) >>> 5) args ↦
    exchange_read hc args 0xFF
  rw [hr] at hread
  obtain ⟨op, heq⟩ : ∃ op, ENC28J60_READ_CTRL_REG ||| (addr &&& ADDR_MASK) = op := ⟨_, rfl⟩
  rw [heq] at hreset
  simp only [heq] at hread
  have hop (c : Enc28j60) : (FramedChip.shift [] op c).2 = c.pass := if_neg hreset
  have hnext (c : Enc28j60) (hc : c.bsel = (addr &&& BANK_MASK) >>> 5) (args : List UInt8) :
      FramedChip.shift (op :: args) 0xFF c = if addr &&& 0x80 ≠ 0 ∧ args = [] then
        (c.pass.course.dummy c.pass.time, c.pass) else (c.pass.peek addr, c.pass.looked addr) :=
    hread c.pass (c.pass_bsel.trans hc) args
  have hbank' : s.dev.chip.pass.bsel = (addr &&& BANK_MASK) >>> 5 :=
    (s.dev.chip.pass_bsel).trans hbank
  suffices h : Run (enc28j60ReadOp ENC28J60_READ_CTRL_REG addr) s fun v s' ↦
      v = (Enc28j60.pass^[readTime addr] s.dev.chip).peek addr ∧ s' = { s with
        dev := ⟨(Enc28j60.pass^[readTime addr] s.dev.chip).looked addr, none⟩ } by
    obtain ⟨v, s', hrun, rfl, rfl⟩ := h
    exact hrun
  rw [enc28j60ReadOp, heq]
  refine run_bind.2 (run_modify.2 (run_bind.2 (run_act.2 (run_bind.2 (run_act.2 ?_)))))
  simp only [Framed.cs_low, Framed.exchange_selected, List.nil_append, hop, hnext _ hbank']
  by_cases hmac : addr &&& 0x80 = 0
  · rw [if_neg (fun h : addr &&& 0x80 ≠ 0 ∧ _ ↦ h.1 hmac), if_neg (not_not.2 hmac), readTime,
      if_pos hmac]
    exact run_bind.2 (run_pure.2 (run_bind.2 (run_modify.2 (run_pure.2 ⟨rfl, rfl⟩))))
  · rw [if_pos hmac]
    refine run_bind.2 (run_act.2 (run_bind.2 (run_modify.2 (run_pure.2 ?_))))
    have hbank'' : s.dev.chip.pass.pass.bsel = (addr &&& BANK_MASK) >>> 5 :=
      (s.dev.chip.pass.pass_bsel).trans hbank'
    have hlast : FramedChip.shift (op :: [0xFF]) 0xFF s.dev.chip.pass.pass =
        (s.dev.chip.pass.pass.pass.peek addr, s.dev.chip.pass.pass.pass.looked addr) := by
      rw [hnext _ hbank'', if_neg fun h ↦ List.cons_ne_nil _ _ h.2]
    rw [if_pos ⟨hmac, trivial⟩, readTime, if_neg hmac]
    refine ⟨congrArg Prod.fst hlast, ?_⟩
    simp only [Framed.exchange_selected, List.cons_append, List.nil_append, hlast]
    rfl

/-- Whatever the address, the chip is only looked at. -/
theorem run_readOp_any (hI : ∀ c, I c → I c.pass) (hlook : ∀ c r, I c → I (Enc28j60.looked c r))
    (h : I s.dev.chip) :
    Run (enc28j60ReadOp ENC28J60_READ_CTRL_REG addr) s fun _ s' ↦ ∃ c, I c ∧
      c.regs = s.dev.chip.regs ∧ s' = { s with dev := ⟨c, none⟩ } := by
  obtain ⟨hreset, hread, hwrite, hctrl⟩ := read_code addr
  obtain ⟨op, heq⟩ : ∃ op, ENC28J60_READ_CTRL_REG ||| (addr &&& ADDR_MASK) = op := ⟨_, rfl⟩
  rw [heq] at hreset hread hwrite hctrl
  let J (c : Enc28j60) : Prop := I c ∧ c.regs = s.dev.chip.regs
  have hJ (c : Enc28j60) (hc : J c) : J c.pass := ⟨hI c hc.1, c.pass_regs.trans hc.2⟩
  have hop (c : Enc28j60) : (FramedChip.shift [] op c).2 = c.pass := if_neg hreset
  have hnext (c : Enc28j60) (hc : J c) (args : List UInt8) :
      J (FramedChip.shift (op :: args) 0xFF c).2 := by
    change J (c.pass.exchange (op :: args) 0xFF).2
    rw [Enc28j60.exchange, if_neg hread, if_neg hwrite, if_pos hctrl]
    split
    · exact hJ c hc
    · exact ⟨hlook _ _ (hJ c hc).1, (c.pass.looked_regs _).trans (hJ c hc).2⟩
  have hfirst : J (FramedChip.shift [op] 0xFF s.dev.chip.pass).2 := hnext _ (hJ _ ⟨h, rfl⟩) []
  rw [enc28j60ReadOp, heq]
  refine run_bind.2 (run_modify.2 (run_bind.2 (run_act.2 (run_bind.2 (run_act.2 ?_)))))
  simp only [Framed.cs_low, Framed.exchange_selected, List.nil_append, hop]
  by_cases hmac : addr &&& 0x80 = 0
  · rw [if_neg (not_not.2 hmac)]
    exact run_bind.2
      (run_pure.2 (run_bind.2 (run_modify.2 (run_pure.2 ⟨_, hfirst.1, hfirst.2, rfl⟩))))
  · rw [if_pos hmac]
    have hsecond := hnext _ hfirst [0xFF]
    exact run_bind.2 (run_act.2 (run_bind.2 (run_modify.2
      (run_pure.2 ⟨_, hsecond.1, hsecond.2, rfl⟩))))

/-! ## Banks -/

/-- The chip with another value in `ECON1`. -/
def Enc28j60.withEcon1 (c : Enc28j60) (v : UInt8) : Enc28j60 :=
  { c with regs := Function.update c.regs ECON1 v }

@[simp] theorem Enc28j60.withEcon1_econ1 (c : Enc28j60) (v : UInt8) :
    (c.withEcon1 v).regs ECON1 = v := by
  simp only [withEcon1, Function.update_self]

theorem Enc28j60.withEcon1_of_ne (hr : r ≠ ECON1) (c : Enc28j60) (v : UInt8) :
    (c.withEcon1 v).regs r = c.regs r := by
  change Function.update c.regs ECON1 v r = c.regs r
  exact Function.update_of_ne hr v c.regs

/-- What an invariant must not notice: that time passes, and that a bank is selected. -/
structure Kept (I : Enc28j60 → Prop) : Prop where
  pass : ∀ c, I c → I c.pass
  econ1 : ∀ c v, v &&& ECON1_RXEN = c.regs ECON1 &&& ECON1_RXEN → I c → I (c.withEcon1 v)

theorem Kept.and (hI : Kept I) (hJ : Kept J) : Kept fun c ↦ I c ∧ J c where
  pass c h := ⟨hI.pass c h.1, hJ.pass c h.2⟩
  econ1 c v hv h := ⟨hI.econ1 c v hv h.1, hJ.econ1 c v hv h.2⟩

theorem kept_reg (hr : r ≠ ECON1) (v : UInt8) : Kept fun c ↦ c.regs r = v where
  pass c h := (congrFun c.pass_regs r).trans h
  econ1 _ _ _ h := (Function.update_of_ne hr ..).trans h

theorem kept_course (course : Course) (n : Nat) : Kept fun c ↦ c.course = course ∧ c.looks = n where
  pass c h := ⟨c.pass_course.trans h.1, c.pass_looks.trans h.2⟩
  econ1 _ _ _ h := h

namespace Enc28j60

/-- The last five addresses are the same in every bank. -/
theorem named_common (hop : op &&& ADDR_MASK = 0) (hr : 0x1B ≤ r &&& ADDR_MASK) (c : Enc28j60) :
    c.named (op ||| (r &&& ADDR_MASK)) = r &&& ADDR_MASK := by
  rw [named, op_and_mask hop]
  exact if_pos hr

theorem change_set (hr : 0x1B ≤ r &&& ADDR_MASK) (hmac : r &&& ADDR_MASK = r) (c : Enc28j60)
    (b : UInt8) : c.change (ENC28J60_BIT_FIELD_SET ||| (r &&& ADDR_MASK)) b =
      c.poke r (c.peek r ||| b) := by
  have hcode : (ENC28J60_BIT_FIELD_SET ||| (r &&& ADDR_MASK)) &&& 0xE0 = ENC28J60_BIT_FIELD_SET :=
    op_and_code rfl r
  have heth : r &&& 0x80 = 0 := by
    rw [← hmac, UInt8.and_assoc]
    exact UInt8.and_zero
  rw [change, c.named_common rfl hr, hcode, hmac, if_neg (by decide), if_pos ⟨rfl, heth⟩]

theorem change_clear (hr : 0x1B ≤ r &&& ADDR_MASK) (hmac : r &&& ADDR_MASK = r) (c : Enc28j60)
    (b : UInt8) : c.change (ENC28J60_BIT_FIELD_CLR ||| (r &&& ADDR_MASK)) b =
      c.poke r (c.peek r &&& ~~~b) := by
  have hcode : (ENC28J60_BIT_FIELD_CLR ||| (r &&& ADDR_MASK)) &&& 0xE0 = ENC28J60_BIT_FIELD_CLR :=
    op_and_code rfl r
  have heth : r &&& 0x80 = 0 := by
    rw [← hmac, UInt8.and_assoc]
    exact UInt8.and_zero
  rw [change, c.named_common rfl hr, hcode, hmac, if_neg (by decide),
    if_neg fun h ↦ absurd h.1 (by decide), if_pos ⟨rfl, heth⟩]

theorem change_write (hbank : c.bsel = (addr &&& BANK_MASK) >>> 5) (v : UInt8) :
    c.change (ENC28J60_WRITE_CTRL_REG ||| (addr &&& ADDR_MASK)) v = c.poke (target addr) v := by
  have hcode : (ENC28J60_WRITE_CTRL_REG ||| (addr &&& ADDR_MASK)) &&& 0xE0 =
      ENC28J60_WRITE_CTRL_REG := op_and_code rfl addr
  rw [change, named_eq rfl hbank, hcode, if_pos rfl]

theorem peek_econ1 (c : Enc28j60) : c.peek ECON1 =
    c.regs ECON1 &&& ~~~ECON1_TXRTS ||| if c.tx.isSome then ECON1_TXRTS else 0 := rfl

/-- Other bits of `ECON1` are as they are in the register. -/
theorem peek_econ1_and {m : UInt8} (hm : ~~~ECON1_TXRTS &&& m = m) (htx : ECON1_TXRTS &&& m = 0)
    (c : Enc28j60) : c.peek ECON1 &&& m = c.regs ECON1 &&& m := by
  rw [peek_econ1, or_and_distrib, andNot_and_of_disjoint hm]
  split
  · rw [htx, UInt8.or_zero]
  · rw [UInt8.zero_and, UInt8.or_zero]

theorem peek_econ1_txrts (c : Enc28j60) :
    c.peek ECON1 &&& ECON1_TXRTS = if c.tx.isSome then ECON1_TXRTS else 0 := by
  rw [peek_econ1, or_and_distrib, andNot_and_self, UInt8.zero_or]
  split
  · exact UInt8.and_self
  · exact UInt8.zero_and

/-- Whoever leaves `TXRTS` as it is disturbs no transmission. -/
theorem poke_econ1_of_txrts (h : v &&& ECON1_TXRTS = c.peek ECON1 &&& ECON1_TXRTS) :
    c.poke ECON1 v = c.withEcon1 (v &&& ~~~ECON1_TXRTS) := by
  rw [peek_econ1_txrts] at h
  rw [poke_econ1, h, withEcon1]
  cases htx : c.tx with
  | none => rfl
  | some k => rfl

end Enc28j60

/-- The bits of a bank. -/
theorem bank_and (addr : UInt8) : ((addr &&& BANK_MASK) >>> (5 : UInt8)) &&& (0x03 : UInt8) =
      (addr &&& BANK_MASK) >>> (5 : UInt8) ∧
    ((addr &&& BANK_MASK) >>> (5 : UInt8)) &&& ECON1_TXRTS = 0 ∧
    ((addr &&& BANK_MASK) >>> (5 : UInt8)) &&& ECON1_RXEN = 0 := by
  revert addr
  decide +kernel

theorem Enc28j60.clear_bank (c : Enc28j60) :
    c.change (ENC28J60_BIT_FIELD_CLR ||| (ECON1 &&& ADDR_MASK)) (ECON1_BSEL1 ||| ECON1_BSEL0) =
      c.withEcon1 (c.peek ECON1 &&& ~~~(ECON1_BSEL1 ||| ECON1_BSEL0) &&& ~~~ECON1_TXRTS) := by
  rw [change_clear (by decide) rfl]
  exact poke_econ1_of_txrts (andNot_and_of_disjoint rfl _)

theorem Enc28j60.set_bank (c : Enc28j60) (addr : UInt8) :
    c.change (ENC28J60_BIT_FIELD_SET ||| (ECON1 &&& ADDR_MASK)) ((addr &&& BANK_MASK) >>> 5) =
      c.withEcon1 ((c.peek ECON1 ||| (addr &&& BANK_MASK) >>> 5) &&& ~~~ECON1_TXRTS) := by
  rw [change_set (by decide) rfl]
  exact poke_econ1_of_txrts (or_and_of_disjoint (bank_and addr).2.1 _)

/-- The two bits of the bank are cleared, then set: four bytes on the bus. -/
theorem run_selectBank (addr : UInt8) (s : Board) :
    Run (do
      enc28j60WriteOp ENC28J60_BIT_FIELD_CLR ECON1 (ECON1_BSEL1 ||| ECON1_BSEL0)
      enc28j60WriteOp ENC28J60_BIT_FIELD_SET ECON1 ((addr &&& BANK_MASK) >>> 5)
      assign fun v ↦ { v with enc28j60bank := addr &&& BANK_MASK }) s fun _ s' ↦
      ∃ v w : UInt8, v &&& ECON1_RXEN = s.dev.chip.regs ECON1 &&& ECON1_RXEN ∧
        w &&& ECON1_RXEN = v &&& ECON1_RXEN ∧ w &&& (0x03 : UInt8) = (addr &&& BANK_MASK) >>> 5 ∧
        s' = ⟨s.mem, ⟨((s.dev.chip.pass.pass.withEcon1 v).pass.pass).withEcon1 w, none⟩,
          { s.glob with enc28j60bank := addr &&& BANK_MASK }⟩ := by
  rw [Run, bind_of_eq (writeOp_eq (.inr (.inr rfl)) _ _ s),
    bind_of_eq (writeOp_eq (.inr (.inl rfl)) _ _ _), assign_apply, Enc28j60.clear_bank,
    Enc28j60.set_bank]
  generalize hc₁ : s.dev.chip.pass.pass = c₁
  have hregs₁ : c₁.regs = s.dev.chip.regs := by
    rw [← hc₁, Enc28j60.pass_regs, Enc28j60.pass_regs]
  have hrxen₁ : c₁.peek ECON1 &&& ~~~(ECON1_BSEL1 ||| ECON1_BSEL0) &&& ~~~ECON1_TXRTS &&&
      ECON1_RXEN = c₁.regs ECON1 &&& ECON1_RXEN := by
    rw [andNot_and_of_disjoint rfl, andNot_and_of_disjoint rfl, c₁.peek_econ1_and rfl rfl]
  have hbsel₁ : c₁.peek ECON1 &&& ~~~(ECON1_BSEL1 ||| ECON1_BSEL0) &&& ~~~ECON1_TXRTS &&&
      (0x03 : UInt8) = 0 := by
    rw [andNot_and_of_disjoint rfl]
    exact andNot_and_self _ _
  generalize c₁.peek ECON1 &&& ~~~(ECON1_BSEL1 ||| ECON1_BSEL0) &&& ~~~ECON1_TXRTS = v
    at hrxen₁ hbsel₁ ⊢
  generalize hc₂ : (c₁.withEcon1 v).pass.pass = c₂
  have hecon₂ : c₂.regs ECON1 = v := by
    rw [← hc₂, Enc28j60.pass_regs, Enc28j60.pass_regs, Enc28j60.withEcon1_econ1]
  obtain ⟨hthree, -, hrxen⟩ := bank_and addr
  have hrxen₂ : (c₂.peek ECON1 ||| (addr &&& BANK_MASK) >>> 5) &&& ~~~ECON1_TXRTS &&& ECON1_RXEN =
      v &&& ECON1_RXEN := by
    rw [andNot_and_of_disjoint rfl, or_and_of_disjoint hrxen, c₂.peek_econ1_and rfl rfl, hecon₂]
  have hbsel₂ : (c₂.peek ECON1 ||| (addr &&& BANK_MASK) >>> 5) &&& ~~~ECON1_TXRTS &&&
      (0x03 : UInt8) = (addr &&& BANK_MASK) >>> 5 := by
    rw [andNot_and_of_disjoint rfl, or_and_distrib, c₂.peek_econ1_and rfl rfl, hecon₂,
      hbsel₁, hthree, UInt8.zero_or]
  exact ⟨(), _, rfl, v, _, hrxen₁.trans (by rw [hregs₁]), hrxen₂, hbsel₂, by rw [hc₂]⟩

end Stm32F1.Enc
