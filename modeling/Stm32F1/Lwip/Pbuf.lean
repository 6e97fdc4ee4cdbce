import Stm32F1.Lib.Loop
import Stm32F1.Lib.Overlay
import Stm32F1.Lib.Counted

/-!
# Packet buffers

The packet buffers of lwIP 1.4.1 as they look to code that copies packets: a
packet is a chain of segments, and the payload pointer of a segment leads to
memory of which the first `len` bytes are data.  What lies behind them is
whatever was there before.

What the code does with the buffers is entered in a log, newest first, that no
code looks at.
-/

namespace Stm32F1.Lwip

open Prog

/-- `err_t` -/
abbrev ErrT := Int8

def ERR_OK : ErrT := 0

/-- `struct pbuf`; `payload` is the memory that the pointer leads to. -/
structure Pbuf where
  next : Option Nat
  payload : Nat → UInt8
  totLen : UInt16
  len : UInt16
  ref : UInt16

/-- Entries of the log. -/
inductive Act
  /-- So many bytes of the payload are read, from its beginning on. -/
  | read (p n : Nat)
  | pbufFree (p : Nat)
  /-- So many bytes of `lwip_buf` are read or written, from an offset on. -/
  | lwipBuf (offset n : Nat)
  /-- `netif->input` is called, the buffers being as they are. -/
  | input (p : Nat) (pbufs : Nat → Pbuf)

def Act.isFree : Act → Bool
  | .pbufFree _ => true
  | _ => false

/-- The packet buffers, and the rest of the memory. -/
structure Heap (G : Type) where
  pbufs : Nat → Pbuf
  log : List Act
  glob : G

variable {G : Type} {s : Heap G} {p : Option Nat} {q : Nat} {cells : List Nat}

def note (a : Act) : Prog (Heap G) Unit := Prog.modify fun s ↦ { s with log := a :: s.log }

def pbufAt (p : Nat) : Prog (Heap G) Pbuf := Prog.read fun s ↦ s.pbufs p

def setPbuf (p : Nat) (f : Pbuf → Pbuf) : Prog (Heap G) Unit :=
  Prog.modify fun s ↦ { s with pbufs := Function.update s.pbufs p (f (s.pbufs p)) }

/-- Reading a buffer changes nothing. -/
@[simp] theorem pbufAt_apply (p : Nat) (s : Heap G) : pbufAt p s = some (s.pbufs p, s) := rfl

/-- One buffer changes. -/
@[simp] theorem setPbuf_apply (p : Nat) (f : Pbuf → Pbuf) (s : Heap G) : setPbuf p f s =
    some ((), { s with pbufs := Function.update s.pbufs p (f (s.pbufs p)) }) := rfl

/-- The loop of `pbuf_free`. -/
def pbufFreeLoop (p : Option Nat) : Prog (Heap G) Unit :=
  repeatM (fun p ↦
    match p with
    | some p => do
        setPbuf p fun b ↦ { b with ref := b.ref - 1 }
        let b ← pbufAt p
        if b.ref = 0 then pure (.inl b.next) else pure (.inl none)
    | none => pure (.inr ())) p

/-- `pbuf_free` -/
def pbufFree (p : Nat) : Prog (Heap G) Unit := do
  note (.pbufFree p)
  pbufFreeLoop (some p)

/-- What the pool answers when buffers are asked for: a chain of the length that is asked for, or
`NULL`. -/
structure Pool where
  alloc : UInt16 → Option (List (Nat × UInt16))
  nonempty : ∀ {length segs}, alloc length = some segs → segs ≠ []
  nodup : ∀ {length segs}, alloc length = some segs → (segs.map Prod.fst).Nodup
  total : ∀ {length segs}, alloc length = some segs →
    (segs.map fun seg ↦ seg.2.toNat).sum = length.toNat

/-- The buffers when these are linked; their payload is what it was. -/
def chainOf (h : Nat → Pbuf) : List (Nat × UInt16) → Nat → Pbuf
  | [] => h
  | (q, len) :: segs => Function.update (chainOf h segs) q
      { next := (segs.head?).map Prod.fst
        payload := (h q).payload
        totLen := .ofNat (((q, len) :: segs).map fun seg ↦ seg.2.toNat).sum
        len := len
        ref := 1 }

/-- `pbuf_alloc (PBUF_RAW, length, PBUF_POOL)` -/
def pbufAlloc (pool : Pool) (length : UInt16) : Prog (Heap G) (Option Nat) :=
  match pool.alloc length with
  | some segs => do
      Prog.modify fun s ↦ { s with pbufs := chainOf s.pbufs segs }
      pure ((segs.head?).map Prod.fst)
  | none => pure none

/-! ## Chains -/

/-- The links between the buffers. -/
def links (h : Nat → Pbuf) : Nat → Option Nat := fun q ↦ (h q).next

/-- How often each buffer is referenced. -/
def refs (h : Nat → Pbuf) : Nat → UInt16 := fun q ↦ (h q).ref

/-- The same buffers, referenced otherwise. -/
def withRefs (h : Nat → Pbuf) (ref : Nat → UInt16) : Nat → Pbuf := fun q ↦ { h q with ref := ref q }

/-- The data of a segment. -/
def Pbuf.held (b : Pbuf) : List UInt8 := slice b.payload 0 b.len.toNat

/-- The data of a chain. -/
def contents (h : Nat → Pbuf) (cells : List Nat) : List UInt8 := cells.flatMap fun q ↦ (h q).held

/-- A packet as it is handed over: `tot_len` of its first buffer is the length of all. -/
structure Packet (h : Nat → Pbuf) (p : Nat) (cells : List Nat) : Prop where
  chain : Chain (links h) (some p) cells
  total : (h p).totLen.toNat = (contents h cells).length

/-- A buffer holds as many bytes as its `len` says. -/
@[simp] theorem Pbuf.length_held (b : Pbuf) : b.held.length = b.len.toNat := length_slice

/-- They are the first ones of its payload. -/
theorem Pbuf.held_getD (b : Pbuf) {i : Nat} (hi : i < b.len.toNat) :
    b.held.getD i 0 = b.payload i := by
  have hlen : i < b.held.length := b.length_held.symm ▸ hi
  rw [List.getD_eq_getElem _ _ hlen]
  simp only [held, getElem_slice, Nat.zero_add]

/-- The contents of a chain begin with those of its first buffer. -/
theorem contents_cons (h : Nat → Pbuf) (q : Nat) (cells : List Nat) :
    contents h (q :: cells) = (h q).held ++ contents h cells := rfl

/-- The first segment comes first. -/
theorem Packet.contents_eq {h : Nat → Pbuf} {p : Nat} (hp : Packet h p cells) :
    ∃ rest, contents h cells = (h p).held ++ contents h rest := by
  obtain ⟨chain, -⟩ := hp
  cases chain with
  | @cons _ rest _ => exact ⟨rest, contents_cons h p rest⟩

/-- The length of a chain. -/
def total (h : Nat → Pbuf) (cells : List Nat) : Nat := (cells.map fun q ↦ (h q).len.toNat).sum

/-- And its length with the length of that one. -/
theorem total_cons (h : Nat → Pbuf) (q : Nat) (cells : List Nat) :
    total h (q :: cells) = (h q).len.toNat + total h cells := List.sum_cons

/-- The lengths add up to that of the contents. -/
@[simp] theorem length_contents (h : Nat → Pbuf) (cells : List Nat) :
    (contents h cells).length = total h cells := by
  induction cells with
  | nil => rfl
  | cons q cells ih => rw [contents_cons, List.length_append, Pbuf.length_held, ih, total_cons]

/-- Changing `ref` of a buffer is changing the counts. -/
theorem update_ref (h : Nat → Pbuf) (q : Nat) (r : UInt16) :
    Function.update h q { h q with ref := r } = withRefs h (Function.update (refs h) q r) := by
  funext q'
  by_cases hq : q' = q
  · subst hq
    simp [withRefs]
  · simp [withRefs, refs, hq]

/-! ## Chains from the pool -/

/-- The segments are chained in their order. -/
theorem chain_chainOf (h : Nat → Pbuf) {segs : List (Nat × UInt16)}
    (hnodup : (segs.map Prod.fst).Nodup) :
    Chain (links (chainOf h segs)) ((segs.head?).map Prod.fst) (segs.map Prod.fst) := by
  induction segs with
  | nil => exact .nil
  | cons seg segs ih =>
      obtain ⟨q, len⟩ := seg
      rw [List.map_cons, List.nodup_cons] at hnodup
      refine .cons ?_
      have hnext : links (chainOf h ((q, len) :: segs)) q = (segs.head?).map Prod.fst := by
        rw [links, chainOf, Function.update_self]
      rw [hnext]
      refine (ih hnodup.2).congr fun r hr ↦ ?_
      rw [links, chainOf, Function.update_of_ne (ne_of_mem_of_not_mem hr hnodup.1), links]

/-- Every segment has its length. -/
theorem len_chainOf (h : Nat → Pbuf) {segs : List (Nat × UInt16)}
    (hnodup : (segs.map Prod.fst).Nodup) : ∀ seg ∈ segs, (chainOf h segs seg.1).len = seg.2 := by
  induction segs with
  | nil => exact fun seg hseg ↦ absurd hseg List.not_mem_nil
  | cons seg segs ih =>
      rw [List.map_cons, List.nodup_cons] at hnodup
      intro seg' hseg'
      rcases List.mem_cons.1 hseg' with rfl | hmem
      · rw [chainOf, Function.update_self]
      · have hne : seg'.1 ≠ seg.1 := ne_of_mem_of_not_mem (List.mem_map_of_mem hmem) hnodup.1
        rw [chainOf, Function.update_of_ne hne]
        exact ih hnodup.2 seg' hmem

/-- And the chain that of all of them. -/
theorem total_chainOf (h : Nat → Pbuf) {segs : List (Nat × UInt16)}
    (hnodup : (segs.map Prod.fst).Nodup) :
    total (chainOf h segs) (segs.map Prod.fst) = (segs.map fun seg ↦ seg.2.toNat).sum := by
  rw [total, List.map_map]
  refine congrArg List.sum (List.map_congr_left fun seg hseg ↦ ?_)
  rw [Function.comp_apply, len_chainOf h hnodup seg hseg]

/-! ## Freeing -/

/-- Where the links and the references are. -/
def counted : Counted (Heap G) where
  next s := links s.pbufs
  refs s := refs s.pbufs
  put ref s := { s with pbufs := withRefs s.pbufs ref }
  refs_put _ _ := rfl
  put_put _ _ _ := rfl
  put_refs _ := rfl
  next_put _ _ := rfl

/-- The loop of `pbuf_free` releases a reference, as `Counted` says. -/
theorem releases_pbufFreeLoop : (counted (G := G)).Releases pbufFreeLoop := by
  refine Counted.releases_repeatM rfl fun s q ↦ ?_
  dsimp only
  rw [bind_of_eq (setPbuf_apply ..), update_ref, bind_of_eq (pbufAt_apply ..)]
  have hself : (withRefs s.pbufs (Function.update (refs s.pbufs) q (refs s.pbufs q - 1)) q).ref =
      refs s.pbufs q - 1 := Function.update_self ..
  change (if (withRefs s.pbufs (Function.update (refs s.pbufs) q (refs s.pbufs q - 1)) q).ref = 0
    then pure (.inl (links s.pbufs q)) else pure (.inl none) :
    Prog (Heap G) (Option Nat ⊕ Unit)) _ =
    some (.inl (if refs s.pbufs q - 1 = 0 then links s.pbufs q else none), _)
  rw [hself]
  by_cases hzero : refs s.pbufs q - 1 = 0
  · rw [if_pos hzero, if_pos hzero]
    rfl
  · rw [if_neg hzero, if_neg hzero]
    rfl

/-- `pbuf_free` changes references only. -/
theorem run_pbufFree (h : Chain (links s.pbufs) (some q) cells) :
    Run (pbufFree q) s fun _ s' ↦ ∃ ref,
      s' = { s with
        pbufs := withRefs s.pbufs ref
        log := .pbufFree q :: s.log } ∧
      ((∀ r ∈ cells, refs s.pbufs r = 1) → ∀ r ∈ cells, ref r = 0) := by
  refine run_bind.2 (run_modify.2 (Run.mono (releases_pbufFreeLoop.run h) ?_))
  rintro _ _ ⟨ref, rfl, -, -, hall⟩
  exact ⟨ref, rfl, hall⟩

end Stm32F1.Lwip
