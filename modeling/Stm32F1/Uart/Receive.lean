import Stm32F1.Lib.Lines
import Stm32F1.Lib.History

/-!
# The receive interrupt

The interrupt handlers of `usart.c` put the bytes that come into `USART_RX_BUF`
and keep the state of the line in one word, `USART_RX_STA`: the low bits count
the bytes, and two flags above them tell that a CR has come and that the line is
complete.  The projects differ in the width of that word and in the size of the
buffer, and in what is done about a complete line.

What the word and the buffer mean is given by `Pieces`, the stream of the bytes
cut into lines.
-/

namespace Stm32F1.Uart

/-! ## The handler -/

/-- The constants of a handler: the flags and the mask of `USART_RX_STA`, and the last index. -/
structure Variant where
  width : Nat
  completed : BitVec width
  gotCr : BitVec width
  mask : BitVec width
  last : Nat
  /-- The bits that count. -/
  bits : Nat
  width_eq : width = bits + 2
  completed_eq : completed = BitVec.twoPow width (bits + 1)
  gotCr_eq : gotCr = BitVec.twoPow width bits
  mask_eq : mask = BitVec.ofNat width (2 ^ bits - 1)
  last_lt : last < 2 ^ bits

/-- The global variables of `usart.c`.  The buffer is the memory from its address on. -/
structure Rx (width : Nat) where
  usartRxSta : BitVec width
  usartRxBuf : Nat → UInt8
  /-- The indices at which a byte was stored, newest first. -/
  stores : List Nat

/-- The mark that may end a line. -/
def CR : UInt8 := 0x0d

/-- The mark that ends it behind a CR. -/
def LF : UInt8 := 0x0a

variable {v : Variant}

/-- A byte is stored at the index that the low bits count. -/
def Rx.store (v : Variant) (res : UInt8) (r : Rx v.width) : Rx v.width :=
  { usartRxBuf := Function.update r.usartRxBuf (r.usartRxSta &&& v.mask).toNat res
    usartRxSta := if (r.usartRxSta + 1).toNat > v.last then 0 else r.usartRxSta + 1
    stores := (r.usartRxSta &&& v.mask).toNat :: r.stores }

/-- What the handlers do about a byte. -/
def Rx.receive (v : Variant) (res : UInt8) (r : Rx v.width) : Rx v.width :=
  if r.usartRxSta &&& v.completed = 0 then
    if r.usartRxSta &&& v.gotCr ≠ 0 then
      if res ≠ LF then { r with usartRxSta := 0 }
      else { r with usartRxSta := r.usartRxSta ||| v.completed }
    else if res = CR then { r with usartRxSta := r.usartRxSta ||| v.gotCr }
    else r.store v res
  else r

/-- An interrupt, with the byte that has come if `USART_IT_RXNE` is set. -/
def Rx.interrupt (v : Variant) (b : Option UInt8) (r : Rx v.width) : Rx v.width :=
  match b with
  | some res => r.receive v res
  | none => r

/-- The line is complete. -/
def Rx.Completed (v : Variant) (r : Rx v.width) : Prop := r.usartRxSta &&& v.completed ≠ 0

instance (r : Rx v.width) : Decidable (r.Completed v) := inferInstanceAs (Decidable (_ ≠ _))

/-! ## The bits of `USART_RX_STA` -/

namespace Variant

variable {n : Nat}

/-- The size of the buffer. -/
def size (v : Variant) : Nat := v.last + 1

/-- The flags in each state of the line. -/
def flags (v : Variant) : Mode → BitVec v.width
  | .inside => 0
  | .marked => v.gotCr
  | .complete => v.gotCr ||| v.completed

/-- A number has no bit above those it needs. -/
theorem ofNat_and_twoPow {w k : Nat} (h : n < 2 ^ k) :
    BitVec.ofNat w n &&& BitVec.twoPow w k = 0 := by
  rw [BitVec.and_twoPow, if_neg]
  · rfl
  · rw [BitVec.getLsbD_ofNat, Nat.testBit_lt_two_pow h, Bool.and_false]
    exact Bool.false_ne_true

/-- An index of the buffer fits in the bits that count. -/
theorem lt_of_le_last (h : n ≤ v.last) : n < 2 ^ v.bits := h.trans_lt v.last_lt

/-- An index does not reach into the flag for a complete line. -/
theorem index_and_completed (h : n ≤ v.last) : BitVec.ofNat v.width n &&& v.completed = 0 := by
  rw [v.completed_eq]
  exact ofNat_and_twoPow ((lt_of_le_last h).trans (Nat.pow_lt_pow_succ (by decide)))

/-- Nor into the flag for a CR. -/
theorem index_and_gotCr (h : n ≤ v.last) : BitVec.ofNat v.width n &&& v.gotCr = 0 := by
  rw [v.gotCr_eq]
  exact ofNat_and_twoPow (lt_of_le_last h)

/-- An index is not cut off by the width of the word. -/
theorem toNat_index (h : n ≤ v.last) : (BitVec.ofNat v.width n).toNat = n := by
  have hwidth : 2 ^ v.bits ≤ 2 ^ v.width :=
    Nat.pow_le_pow_right (by decide) (v.width_eq ▸ Nat.le_add_right ..)
  rw [BitVec.toNat_ofNat, Nat.mod_eq_of_lt ((lt_of_le_last h).trans_le hwidth)]

/-- The mask has all the bits that count. -/
theorem toNat_mask (v : Variant) : v.mask.toNat = 2 ^ v.bits - 1 := by
  have hwidth : 2 ^ v.bits ≤ 2 ^ v.width :=
    Nat.pow_le_pow_right (by decide) (v.width_eq ▸ Nat.le_add_right ..)
  have hpos := Nat.two_pow_pos v.bits
  rw [v.mask_eq, BitVec.toNat_ofNat, Nat.mod_eq_of_lt (by omega)]

/-- So it keeps an index whole. -/
theorem index_and_mask (h : n ≤ v.last) :
    BitVec.ofNat v.width n &&& v.mask = BitVec.ofNat v.width n := by
  apply BitVec.eq_of_toNat_eq
  rw [BitVec.toNat_and, toNat_index h, v.toNat_mask, Nat.and_two_pow_sub_one_eq_mod,
    Nat.mod_eq_of_lt (lt_of_le_last h)]

/-- It keeps nothing of the flag for a CR. -/
theorem gotCr_and_mask (v : Variant) : v.gotCr &&& v.mask = 0 := by
  have hpos := Nat.two_pow_pos v.bits
  rw [v.gotCr_eq, v.mask_eq, BitVec.and_comm]
  exact ofNat_and_twoPow (by omega)

/-- Nor of the flag for a complete line. -/
theorem completed_and_mask (v : Variant) : v.completed &&& v.mask = 0 := by
  have hpos := Nat.two_pow_pos v.bits
  rw [v.completed_eq, v.mask_eq, BitVec.and_comm]
  exact ofNat_and_twoPow (by rw [Nat.pow_succ]; omega)

/-- The flag for a CR is a bit of the word. -/
theorem gotCr_ne_zero (v : Variant) : v.gotCr ≠ 0 := by
  rw [v.gotCr_eq]
  intro h
  have hbit := congrArg (BitVec.getLsbD · v.bits) h
  simp only [BitVec.getLsbD_twoPow] at hbit
  simp [v.width_eq] at hbit

/-- The flag for a complete line is a bit of the word. -/
theorem completed_ne_zero (v : Variant) : v.completed ≠ 0 := by
  rw [v.completed_eq]
  intro h
  have hbit := congrArg (BitVec.getLsbD · (v.bits + 1)) h
  simp only [BitVec.getLsbD_twoPow] at hbit
  simp [v.width_eq] at hbit

/-- The two flags are different bits. -/
theorem gotCr_and_completed (v : Variant) : v.gotCr &&& v.completed = 0 := by
  rw [v.gotCr_eq, v.completed_eq, BitVec.and_twoPow, if_neg]
  · rfl
  · rw [BitVec.getLsbD_twoPow]
    simp

/-- `USART_RX_STA` with an index and the flags of a state. -/
def word (v : Variant) (n : Nat) (m : Mode) : BitVec v.width := BitVec.ofNat v.width n ||| v.flags m

/-- The index is read back from the word with the mask. -/
theorem word_and_mask (h : n ≤ v.last) (m : Mode) : (v.word n m &&& v.mask).toNat = n := by
  have hflags : v.flags m &&& v.mask = 0 := by
    cases m with
    | inside => exact BitVec.zero_and
    | marked => exact v.gotCr_and_mask
    | complete =>
        rw [flags, BitVec.and_or_distrib_right, v.gotCr_and_mask, v.completed_and_mask]
        exact BitVec.or_zero
  rw [word, BitVec.and_or_distrib_right, hflags, index_and_mask h]
  exact (congrArg BitVec.toNat BitVec.or_zero).trans (toNat_index h)

/-- The upper flag tells whether the line is complete. -/
theorem word_and_completed (h : n ≤ v.last) (m : Mode) :
    v.word n m &&& v.completed = if m = .complete then v.completed else 0 := by
  rw [word, BitVec.and_or_distrib_right, index_and_completed h]
  refine BitVec.zero_or.trans ?_
  cases m with
  | inside => exact BitVec.zero_and
  | marked => exact v.gotCr_and_completed
  | complete =>
      rw [flags, BitVec.and_or_distrib_right, v.gotCr_and_completed, BitVec.and_self]
      exact BitVec.zero_or

/-- The lower one tells whether a CR has come, also in a complete line. -/
theorem word_and_gotCr (h : n ≤ v.last) (m : Mode) :
    v.word n m &&& v.gotCr = if m = .inside then 0 else v.gotCr := by
  rw [word, BitVec.and_or_distrib_right, index_and_gotCr h]
  refine BitVec.zero_or.trans ?_
  cases m with
  | inside => exact BitVec.zero_and
  | marked => exact BitVec.and_self
  | complete =>
      rw [flags, BitVec.and_or_distrib_right, BitVec.and_self, BitVec.and_comm,
        v.gotCr_and_completed]
      exact BitVec.or_zero

/-- Inside a line the word is the index. -/
theorem word_inside (v : Variant) (n : Nat) : v.word n .inside = BitVec.ofNat v.width n :=
  BitVec.or_zero

/-- A CR sets the lower flag. -/
theorem word_marked (v : Variant) (n : Nat) : v.word n .inside ||| v.gotCr = v.word n .marked := by
  rw [word_inside, word, flags]

/-- The LF behind it sets the upper one. -/
theorem word_complete (v : Variant) (n : Nat) :
    v.word n .marked ||| v.completed = v.word n .complete := by
  rw [word, flags, BitVec.or_assoc, word, flags]

end Variant

/-! ## The line in the buffer -/

/-- The bytes at the beginning of the buffer. -/
def Begins (buf : Nat → UInt8) (bytes : List UInt8) : Prop :=
  ∀ i, (h : i < bytes.length) → buf i = bytes[i]

/-- Every buffer begins with no bytes. -/
theorem begins_nil (buf : Nat → UInt8) : Begins buf [] := fun i h ↦ absurd h (Nat.not_lt_zero i)

/-- A byte that is stored behind the ones at the beginning is one of them. -/
theorem Begins.concat {buf : Nat → UInt8} {bytes : List UInt8} (h : Begins buf bytes) (b : UInt8) :
    Begins (Function.update buf bytes.length b) (bytes ++ [b]) := by
  intro i hi
  rw [List.length_append, List.length_singleton] at hi
  rcases Nat.lt_succ_iff_lt_or_eq.1 hi with hlt | rfl
  · rw [Function.update_of_ne hlt.ne, List.getElem_append_left hlt]
    exact h i hlt
  · rw [Function.update_self, List.getElem_concat_length]
    rfl

/-- The word and the buffer are those of a stream that was cut into lines. -/
structure Tracks (v : Variant) (r : Rx v.width) (p : Pieces UInt8) : Prop where
  sta : r.usartRxSta = v.word p.piece.length p.mode
  buf : Begins r.usartRxBuf p.piece
  sound : p.Sound v.size CR
  stores : ∀ i ∈ r.stores, i < v.size

/-- The next state of the stream. -/
def nextPieces (v : Variant) (p : Pieces UInt8) (b : UInt8) : Pieces UInt8 := p.next v.size CR LF b

namespace Tracks

variable {r : Rx v.width} {p : Pieces UInt8} {b : UInt8}

/-- The index at which the next byte is stored is in the buffer. -/
theorem le_last (h : Tracks v r p) : p.piece.length ≤ v.last :=
  Nat.lt_succ_iff.1 (h.sound.short (Nat.succ_ne_zero _))

/-- What the handlers test tells whether the line is complete. -/
theorem completed_iff (h : Tracks v r p) : r.Completed v ↔ p.mode = .complete := by
  rw [Rx.Completed, h.sta, Variant.word_and_completed h.le_last]
  by_cases hm : p.mode = .complete
  · rw [if_pos hm]
    exact ⟨fun _ ↦ hm, fun _ ↦ v.completed_ne_zero⟩
  · rw [if_neg hm]
    exact ⟨fun h ↦ absurd rfl h, fun h ↦ absurd h hm⟩

/-- The test of `Rx.receive`, which fails as long as the line is not complete. -/
theorem completed_eq_zero (h : Tracks v r p) (hm : p.mode ≠ .complete) :
    r.usartRxSta &&& v.completed = 0 := not_not.1 (mt h.completed_iff.1 hm)

/-- The index at which the next byte is stored is the length of the piece. -/
theorem index (h : Tracks v r p) : (r.usartRxSta &&& v.mask).toNat = p.piece.length := by
  rw [h.sta, Variant.word_and_mask h.le_last]

/-- What comes while a line is complete is lost. -/
theorem receive_complete (h : Tracks v r p) (hm : p.mode = .complete) (b : UInt8) :
    r.receive v b = r := if_neg (h.completed_iff.2 hm)

/-- A CR inside a line is noted in `USART_RX_STA` and not stored. -/
theorem receive_cr (h : Tracks v r p) (hm : p.mode = .inside) :
    r.receive v CR = { r with usartRxSta := v.word p.piece.length .marked } := by
  have hcr : r.usartRxSta &&& v.gotCr = 0 := by
    rw [h.sta, Variant.word_and_gotCr h.le_last, if_pos hm]
  rw [Rx.receive, if_pos (h.completed_eq_zero (by rw [hm]; decide)), if_neg (not_not.2 hcr),
    if_pos rfl, h.sta, hm, Variant.word_marked]

/-- Any other byte is stored. -/
theorem receive_store (h : Tracks v r p) (hm : p.mode = .inside) (hb : b ≠ CR) :
    r.receive v b = r.store v b := by
  have hcr : r.usartRxSta &&& v.gotCr = 0 := by
    rw [h.sta, Variant.word_and_gotCr h.le_last, if_pos hm]
  rw [Rx.receive, if_pos (h.completed_eq_zero (by rw [hm]; decide)), if_neg (not_not.2 hcr),
    if_neg hb]

/-- Behind a CR the test of `Rx.receive` for one succeeds. -/
theorem gotCr_ne_zero (h : Tracks v r p) (hm : p.mode = .marked) :
    r.usartRxSta &&& v.gotCr ≠ 0 := by
  rw [h.sta, Variant.word_and_gotCr h.le_last, if_neg (by rw [hm]; decide)]
  exact v.gotCr_ne_zero

/-- The LF behind a CR completes the line. -/
theorem receive_lf (h : Tracks v r p) (hm : p.mode = .marked) :
    r.receive v LF = { r with usartRxSta := v.word p.piece.length .complete } := by
  rw [Rx.receive, if_pos (h.completed_eq_zero (by rw [hm]; decide)), if_pos (h.gotCr_ne_zero hm),
    if_neg (not_not.2 rfl), h.sta, hm, Variant.word_complete]

/-- Any other byte there makes the line begin anew. -/
theorem receive_giveUp (h : Tracks v r p) (hm : p.mode = .marked) (hb : b ≠ LF) :
    r.receive v b = { r with usartRxSta := 0 } := by
  rw [Rx.receive, if_pos (h.completed_eq_zero (by rw [hm]; decide)), if_pos (h.gotCr_ne_zero hm),
    if_pos hb]

/-- The line begins anew when `USART_RX_STA` is set to 0. -/
theorem restart (h : Tracks v r p) {p' : Pieces UInt8} (hp : p'.piece = [])
    (hm : p'.mode = .inside) : Tracks v { r with usartRxSta := 0 } p' where
  sta := by
    rw [hp, hm, Variant.word_inside]
    rfl
  buf := hp ▸ begins_nil _
  sound := Pieces.sound_nil hp
  stores := h.stores

/-- Storing a byte adds it to the piece, which begins anew when the buffer is full. -/
theorem store (h : Tracks v r p) (hm : p.mode = .inside) (hb : b ≠ CR) :
    Tracks v (r.store v b) (p.add v.size b) := by
  have hle := h.le_last
  have hwidth : 2 ^ v.bits < 2 ^ v.width :=
    Nat.pow_lt_pow_right (by decide) (by rw [v.width_eq]; omega)
  have hlast := v.last_lt
  have hsta : r.usartRxSta = BitVec.ofNat v.width p.piece.length := by
    rw [h.sta, hm, Variant.word_inside]
  have hsucc : r.usartRxSta + 1 = BitVec.ofNat v.width (p.piece.length + 1) := by
    rw [hsta, BitVec.ofNat_add]
    rfl
  have htoNat : (r.usartRxSta + 1).toNat = p.piece.length + 1 := by
    rw [hsucc, BitVec.toNat_ofNat, Nat.mod_eq_of_lt (by omega)]
  have hstores : ∀ i ∈ (r.store v b).stores, i < v.size := by
    intro i hi
    rcases List.mem_cons.1 hi with rfl | hi
    · rw [h.index]
      exact Nat.lt_succ_of_le hle
    · exact h.stores i hi
  have hsound := h.sound.add hb
  by_cases hlen : p.piece.length + 1 = v.size
  · rw [Pieces.add_of_length hlen] at hsound ⊢
    have hwrap : (r.usartRxSta + 1).toNat > v.last := by
      rw [htoNat, hlen]
      exact Nat.lt_succ_self _
    refine ⟨?_, begins_nil _, hsound, hstores⟩
    rw [Rx.store, if_pos hwrap]
    exact (Variant.word_inside v 0).symm
  · rw [Pieces.add_of_ne hlen] at hsound ⊢
    have hwrap : ¬ (r.usartRxSta + 1).toNat > v.last := by
      rw [htoNat]
      change p.piece.length + 1 ≠ v.last + 1 at hlen
      omega
    refine ⟨?_, ?_, hsound, hstores⟩
    · rw [Rx.store, if_neg hwrap, hsucc, List.length_append, List.length_singleton]
      change _ = v.word _ p.mode
      rw [hm, Variant.word_inside]
    · have hconcat := h.buf.concat b
      rw [Rx.store, h.index]
      exact hconcat

/-- **The handler follows the stream.** -/
theorem receive (h : Tracks v r p) (b : UInt8) : Tracks v (r.receive v b) (nextPieces v p b) := by
  rw [nextPieces]
  cases hm : p.mode with
  | inside =>
      by_cases hb : b = CR
      · rw [hb, h.receive_cr hm, Pieces.next_first hm]
        exact ⟨rfl, h.buf, ⟨h.sound.clean, h.sound.short⟩, h.stores⟩
      · rw [h.receive_store hm hb, Pieces.next_add hm hb]
        exact h.store hm hb
  | marked =>
      by_cases hb : b = LF
      · rw [hb, h.receive_lf hm, Pieces.next_second hm]
        exact ⟨rfl, h.buf, ⟨h.sound.clean, h.sound.short⟩, h.stores⟩
      · rw [h.receive_giveUp hm hb, Pieces.next_giveUp hm hb]
        exact h.restart rfl rfl
  | complete =>
      rw [h.receive_complete hm, Pieces.next_complete hm]
      exact h

end Tracks

end Stm32F1.Uart
