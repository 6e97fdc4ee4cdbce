import Stm32F1.Lib.Ghost
import Stm32F1.Lwip.Pbuf
import Stm32F1.Enc.Chip

/-!
# The network interface

`ethernetif.c`: between lwIP, which has packets in chains of buffers, and the
driver of the chip, which has frames in one piece, lies the static buffer
`lwip_buf`.  A packet that is sent is gathered there; a frame that was received
is scattered from there over a chain from the pool.

The driver is a parameter, and so is the address of `lwip_buf`.
-/

namespace Stm32F1.Netif

open Prog Mcu Lwip Enc

/-- `lwip_buf` is an array of this size. -/
def LWIP_BUF_SIZE : Nat := 1500 * 2

def ETHTYPE_ARP : UInt16 := 0x0806
def ETHTYPE_IP : UInt16 := 0x0800

/-- A driver: `ENC28J60_Packet_Send` and `ENC28J60_Packet_Receive`. -/
structure Nic (δ γ : Type) where
  packetSend : UInt32 → Nat → Prog (Mcu δ γ) Unit
  packetReceive : UInt32 → Nat → Prog (Mcu δ γ) UInt32

variable {δ γ : Type} {s : Heap (Mcu δ γ)} {lwipBuf k : Nat} {p : Option Nat} {q : Nat}
  {cells : List Nat}

/-- The driver does not know the packet buffers. -/
def onBoard {α : Type} (prog : Prog (Mcu δ γ) α) : Prog (Heap (Mcu δ γ)) α :=
  zoom Heap.glob (fun t s ↦ { s with glob := t }) prog

/-- What the driver does on the board, it does in the whole. -/
theorem onBoard_eq {α : Type} {prog : Prog (Mcu δ γ) α} {a : α} {t : Mcu δ γ}
    (h : prog s.glob = some (a, t)) : onBoard prog s = some (a, { s with glob := t }) := zoom_eq h

/-! ## `ethernetif.c` -/

/-- The loop of `low_level_output`: `memcpy (&lwip_buf[send_len], q->payload, q->len);`. -/
def gatherLoop (lwipBuf : Nat) (q : Option Nat) (sendLen : UInt32) :
    Prog (Heap (Mcu δ γ)) UInt32 :=
  repeatM (fun (q, sendLen) ↦
    match q with
    | some q => do
        let b ← pbufAt q
        note (.read q b.len.toNat)
        note (.lwipBuf sendLen.toNat b.len.toNat)
        Prog.modify fun s ↦ { s with glob := { s.glob with
          mem := overlay s.glob.mem (lwipBuf + sendLen.toNat) b.len.toNat b.payload } }
        pure (.inl (b.next, sendLen + b.len.toUInt32))
    | none => pure (.inr sendLen)) (q, sendLen)

/-- `low_level_output` -/
def lowLevelOutput (nic : Nic δ γ) (lwipBuf : Nat) (p : Option Nat) :
    Prog (Heap (Mcu δ γ)) ErrT := do
  let sendLen ← gatherLoop lwipBuf p 0
  note (.lwipBuf 0 sendLen.toNat)
  onBoard (nic.packetSend sendLen lwipBuf)
  pure ERR_OK

/-- The loop of `low_level_input`: `memcpy (q->payload, &lwip_buf[rev_len], q->len);`. -/
def scatterLoop (lwipBuf : Nat) (q : Option Nat) (revLen : UInt32) :
    Prog (Heap (Mcu δ γ)) Unit :=
  repeatM (fun (q, revLen) ↦
    match q with
    | some q => do
        let b ← pbufAt q
        let s ← Prog.read fun s ↦ s
        note (.lwipBuf revLen.toNat b.len.toNat)
        setPbuf q fun b ↦ { b with
          payload := overlay b.payload 0 b.len.toNat fun i ↦
            s.glob.mem (lwipBuf + revLen.toNat + i) }
        pure (.inl (b.next, revLen + b.len.toUInt32))
    | none => pure (.inr ())) (q, revLen)

/-- `low_level_input` -/
def lowLevelInput (nic : Nic δ γ) (lwipBuf : Nat) (pool : Pool) :
    Prog (Heap (Mcu δ γ)) (Option Nat) := do
  note (.lwipBuf 0 MAX_FRAMELEN.toNat)
  let len ← onBoard (nic.packetReceive MAX_FRAMELEN lwipBuf)
  let p ← pbufAlloc pool len.toUInt16
  match p with
  | some p => do
      scatterLoop lwipBuf (some p) 0
      pure (some p)
  | none => pure none

/-- `htons (ethhdr->type)` -/
def ethType (b : Pbuf) : UInt16 := (b.payload 12).toUInt16 <<< 8 ||| (b.payload 13).toUInt16

/-- `netif->input`, whose result is that of the stack. -/
def netifInput (p : Nat) (err : ErrT) : Prog (Heap (Mcu δ γ)) ErrT := do
  let s ← Prog.read fun s ↦ s
  note (.input p s.pbufs)
  pure err

/-- `ethernetif_input` -/
def ethernetifInput (nic : Nic δ γ) (lwipBuf : Nat) (pool : Pool) (err : ErrT) :
    Prog (Heap (Mcu δ γ)) Unit := do
  let p ← lowLevelInput nic lwipBuf pool
  match p with
  | some p => do
      let ethhdr ← pbufAt p
      if ethType ethhdr = ETHTYPE_IP ∨ ethType ethhdr = ETHTYPE_ARP then do
        let result ← netifInput p err
        if result ≠ ERR_OK then pbufFree p else pure ()
      else pbufFree p
  | none => pure ()

/-- The calls of `netif->input`, newest first. -/
def inputs : List Act → List (Nat × (Nat → Pbuf))
  | [] => []
  | .input p pbufs :: log => (p, pbufs) :: inputs log
  | _ :: log => inputs log

/-! ## What is done with `lwip_buf` -/

/-- Of `lwip_buf` only the first bytes were used, as many as the bound says. -/
def Uses (bound : Nat) (log log' : List Act) : Prop :=
  ∃ acts, log' = acts ++ log ∧ ∀ offset n, .lwipBuf offset n ∈ acts → offset + n ≤ bound

namespace Uses

variable {bound bound' offset n : Nat} {log log' log'' : List Act}

/-- Nothing was read. -/
theorem refl (bound : Nat) (log : List Act) : Uses bound log log :=
  ⟨[], rfl, fun _ _ h ↦ absurd h List.not_mem_nil⟩

/-- Two stages. -/
theorem trans (h : Uses bound log log') (h' : Uses bound log' log'') : Uses bound log log'' := by
  obtain ⟨acts, rfl, hacts⟩ := h
  obtain ⟨acts', rfl, hacts'⟩ := h'
  refine ⟨acts' ++ acts, (List.append_assoc ..).symm, fun o n hmem ↦ ?_⟩
  rcases List.mem_append.1 hmem with hmem | hmem
  · exact hacts' o n hmem
  · exact hacts o n hmem

/-- A larger bound. -/
theorem mono (h : Uses bound log log') (hle : bound ≤ bound') : Uses bound' log log' := by
  obtain ⟨acts, rfl, hacts⟩ := h
  exact ⟨acts, rfl, fun o n hmem ↦ (hacts o n hmem).trans hle⟩

/-- One use more. -/
theorem use (hle : offset + n ≤ bound) (log : List Act) :
    Uses bound log (.lwipBuf offset n :: log) := by
  refine ⟨[.lwipBuf offset n], rfl, fun o m hmem ↦ ?_⟩
  obtain ⟨rfl, rfl⟩ := Act.lwipBuf.inj (List.mem_singleton.1 hmem)
  exact hle

/-- One read within the bound. -/
theorem read (bound : Nat) (log : List Act) (q n : Nat) : Uses bound log (.read q n :: log) := by
  refine ⟨[.read q n], rfl, fun o m hmem ↦ ?_⟩
  exact Act.noConfusion (List.mem_singleton.1 hmem)

end Uses

/-! ## Gathering -/

/-- The offset is a number of 32 bits. -/
theorem toNat_offset (hk : k < UInt32.size) : (UInt32.ofNat k).toNat = k :=
  UInt32.toNat_ofNat_of_lt' hk

theorem ofNat_add_len (k : Nat) (len : UInt16) :
    UInt32.ofNat k + len.toUInt32 = .ofNat (k + len.toNat) := by
  rw [UInt32.ofNat_add, ← UInt16.toNat_toUInt32, UInt32.ofNat_toNat]

/-- The end of the chain. -/
theorem gatherLoop_none (lwipBuf : Nat) (sendLen : UInt32) :
    (gatherLoop lwipBuf none sendLen : Prog (Heap (Mcu δ γ)) UInt32) = pure sendLen := by
  rw [gatherLoop, repeatM_unfold]
  rfl

/-- The bytes are stored in the memory. -/
def stored (t : Mcu δ γ) (a : Nat) (bytes : List UInt8) : Mcu δ γ :=
  { t with mem := overlay t.mem a bytes.length fun i ↦ bytes.getD i 0 }

/-- What was stored is there, and the rest as before. -/
theorem stored_mem (t : Mcu δ γ) (a : Nat) (bytes : List UInt8) :
    (stored t a bytes).mem = overlay t.mem a bytes.length fun i ↦ bytes.getD i 0 := rfl

theorem stored_nil (t : Mcu δ γ) (a : Nat) : stored t a [] = t := by
  rw [stored, List.length_nil, overlay_zero]

/-- Stored at once or in two parts. -/
theorem stored_append (t : Mcu δ γ) (a : Nat) (bytes bytes' : List UInt8) :
    stored (stored t a bytes) (a + bytes.length) bytes' = stored t a (bytes ++ bytes') := by
  refine Mcu.ext ?_ rfl rfl
  rw [stored, stored, stored, List.length_append]
  exact overlay_append ..

/-- The state after one round of the loop. -/
def gathered (lwipBuf q k : Nat) (s : Heap (Mcu δ γ)) : Heap (Mcu δ γ) where
  pbufs := s.pbufs
  log := .lwipBuf k (s.pbufs q).len.toNat :: .read q (s.pbufs q).len.toNat :: s.log
  glob := stored s.glob (lwipBuf + k) (s.pbufs q).held

/-- One segment is copied to its place in `lwip_buf`. -/
theorem gatherLoop_some (lwipBuf q : Nat) (hk : k < UInt32.size) (s : Heap (Mcu δ γ)) :
    gatherLoop lwipBuf (some q) (.ofNat k) s =
      gatherLoop lwipBuf (links s.pbufs q) (.ofNat (k + (s.pbufs q).len.toNat))
        (gathered lwipBuf q k s) := by
  have hheld : overlay s.glob.mem (lwipBuf + k) (s.pbufs q).len.toNat (s.pbufs q).payload =
      (stored s.glob (lwipBuf + k) (s.pbufs q).held).mem := by
    rw [stored, Pbuf.length_held]
    exact overlay_congr fun i hi ↦ ((s.pbufs q).held_getD hi).symm
  have hglob : { s.glob with
      mem := overlay s.glob.mem (lwipBuf + k) (s.pbufs q).len.toNat (s.pbufs q).payload } =
      stored s.glob (lwipBuf + k) (s.pbufs q).held := Mcu.ext hheld rfl rfl
  rw [gathered, ← hglob, ← ofNat_add_len]
  conv_lhs => rw [gatherLoop, repeatM_unfold]
  rw [← toNat_offset hk, UInt32.ofNat_toNat]
  rfl

/-- **The packet is gathered**: its data are in `lwip_buf`, one segment behind the other. -/
theorem run_gatherLoop (lwipBuf : Nat) (h : Chain (links s.pbufs) p cells)
    (hk : k + total s.pbufs cells < UInt32.size) :
    Run (gatherLoop lwipBuf p (.ofNat k)) s fun n s' ↦
      n = .ofNat (k + total s.pbufs cells) ∧ s'.pbufs = s.pbufs ∧
      s'.glob = stored s.glob (lwipBuf + k) (contents s.pbufs cells) ∧
      Uses (k + total s.pbufs cells) s.log s'.log := by
  induction cells generalizing p s k with
  | nil =>
      cases h with
      | nil =>
          rw [gatherLoop_none]
          exact run_pure.2 ⟨rfl, rfl, (stored_nil ..).symm, .refl ..⟩
  | cons q cells ih =>
      cases h with
      | cons h =>
          rw [total_cons, ← Nat.add_assoc] at hk ⊢
          rw [Run, gatherLoop_some lwipBuf q (by omega)]
          refine Run.mono (ih (s := gathered lwipBuf q k s) h hk) ?_
          rintro n s' ⟨rfl, hpbufs, hglob, huses⟩
          refine ⟨rfl, hpbufs, ?_, ?_⟩
          · have hbehind : lwipBuf + (k + (s.pbufs q).len.toNat) =
                lwipBuf + k + (s.pbufs q).held.length := by
              rw [Pbuf.length_held, Nat.add_assoc]
            rw [hglob, hbehind]
            exact stored_append ..
          · exact ((Uses.read ..).trans (.use (Nat.le_add_right ..) _)).trans huses

/-- **A packet is sent**: the driver is given the data of the chain in one piece. -/
theorem run_lowLevelOutput (nic : Nic δ γ) {Q : Mcu δ γ → Prop}
    (h : Chain (links s.pbufs) p cells) (hlen : total s.pbufs cells < UInt32.size)
    (hsend : Run (nic.packetSend (.ofNat (total s.pbufs cells)) lwipBuf)
      (stored s.glob lwipBuf (contents s.pbufs cells)) fun _ t ↦ Q t) :
    Run (lowLevelOutput nic lwipBuf p) s fun r s' ↦ r = ERR_OK ∧ s'.pbufs = s.pbufs ∧ Q s'.glob ∧
      Uses (total s.pbufs cells) s.log s'.log := by
  have hgather := run_gatherLoop (k := 0) lwipBuf h (by rwa [Nat.zero_add])
  rw [Nat.zero_add, Nat.add_zero] at hgather
  refine run_bind.2 (hgather.mono ?_)
  rintro n s₁ ⟨rfl, hpbufs, hglob, huses⟩
  rw [← hglob] at hsend
  refine run_bind.2 (run_modify.2 (run_bind.2 (run_zoom.2 (hsend.mono ?_))))
  intro _ t ht
  refine run_pure.2 ⟨rfl, hpbufs, ht, huses.trans (.use ?_ _)⟩
  rw [Nat.zero_add, toNat_offset hlen]

/-! ## Scattering -/

/-- The end of the chain. -/
theorem scatterLoop_none (lwipBuf : Nat) (revLen : UInt32) :
    (scatterLoop lwipBuf none revLen : Prog (Heap (Mcu δ γ)) Unit) = pure () := by
  rw [scatterLoop, repeatM_unfold]
  rfl

/-- The segment with the bytes of the memory from an address on. -/
def filled (b : Pbuf) (m : Nat → UInt8) (a : Nat) : Pbuf :=
  { b with payload := overlay b.payload 0 b.len.toNat fun i ↦ m (a + i) }

/-- A segment holds the bytes that were copied to it. -/
theorem held_filled (b : Pbuf) (m : Nat → UInt8) (a : Nat) :
    (filled b m a).held = slice m a b.len.toNat := by
  change slice (overlay b.payload 0 b.len.toNat fun i ↦ m (a + i)) 0 b.len.toNat = _
  rw [slice_overlay, slice]

/-- Behind them it is as it was. -/
theorem filled_stale {i : Nat} (b : Pbuf) (m : Nat → UInt8) (a : Nat) (hi : b.len.toNat ≤ i) :
    (filled b m a).payload i = b.payload i := by
  change overlay b.payload 0 b.len.toNat (fun i ↦ m (a + i)) i = b.payload i
  exact overlay_of_notMem (.inr ((Nat.zero_add _).le.trans hi))

/-- The state after one round of the loop. -/
def scattered (lwipBuf q k : Nat) (s : Heap (Mcu δ γ)) : Heap (Mcu δ γ) where
  pbufs := Function.update s.pbufs q (filled (s.pbufs q) s.glob.mem (lwipBuf + k))
  log := .lwipBuf k (s.pbufs q).len.toNat :: s.log
  glob := s.glob

/-- The segment is filled from its place in `lwip_buf`. -/
theorem scattered_self (lwipBuf q k : Nat) (s : Heap (Mcu δ γ)) :
    (scattered lwipBuf q k s).pbufs q = filled (s.pbufs q) s.glob.mem (lwipBuf + k) :=
  Function.update_self ..

/-- Other ones are left alone. -/
theorem scattered_of_ne {r : Nat} (hr : r ≠ q) (lwipBuf k : Nat) (s : Heap (Mcu δ γ)) :
    (scattered lwipBuf q k s).pbufs r = s.pbufs r := Function.update_of_ne hr ..

/-- One segment is filled. -/
theorem scatterLoop_some (lwipBuf q : Nat) (hk : k < UInt32.size) (s : Heap (Mcu δ γ)) :
    scatterLoop lwipBuf (some q) (.ofNat k) s =
      scatterLoop lwipBuf (links s.pbufs q) (.ofNat (k + (s.pbufs q).len.toNat))
        (scattered lwipBuf q k s) := by
  rw [← ofNat_add_len]
  conv_lhs => rw [scatterLoop, repeatM_unfold]
  rw [← toNat_offset hk, UInt32.ofNat_toNat]
  rfl

/-- What the scattering of a frame leaves behind. -/
structure Scattered (lwipBuf k : Nat) (cells : List Nat) (s s' : Heap (Mcu δ γ)) : Prop where
  glob : s'.glob = s.glob
  links : Lwip.links s'.pbufs = Lwip.links s.pbufs
  len : ∀ r, (s'.pbufs r).len = (s.pbufs r).len
  other : ∀ r ∉ cells, s'.pbufs r = s.pbufs r
  /-- Behind its data a segment has what it had. -/
  stale : ∀ r i, (s.pbufs r).len.toNat ≤ i → (s'.pbufs r).payload i = (s.pbufs r).payload i
  contents : Lwip.contents s'.pbufs cells = slice s.glob.mem (lwipBuf + k) (total s.pbufs cells)
  uses : Uses (k + total s.pbufs cells) s.log s'.log
  inputs : Netif.inputs s'.log = Netif.inputs s.log

/-- **The frame is scattered** over the chain, one segment behind the other. -/
theorem run_scatterLoop (lwipBuf : Nat) (h : Chain (links s.pbufs) p cells)
    (hk : k + total s.pbufs cells < UInt32.size) :
    Run (scatterLoop lwipBuf p (.ofNat k)) s fun _ s' ↦ Scattered lwipBuf k cells s s' := by
  induction cells generalizing p s k with
  | nil =>
      cases h with
      | nil =>
          rw [scatterLoop_none]
          exact run_pure.2 ⟨rfl, rfl, fun _ ↦ rfl, fun _ _ ↦ rfl, fun _ _ _ ↦ rfl, rfl,
            .refl .., rfl⟩
  | cons q cells ih =>
      cases h with
      | cons h =>
          have hq := h.notMem_tail
          have hone {α : Type} (f : Pbuf → α) (hf : ∀ b m a, f (filled b m a) = f b) (r : Nat) :
              f ((scattered lwipBuf q k s).pbufs r) = f (s.pbufs r) := by
            by_cases hr : r = q
            · rw [hr, scattered_self, hf]
            · rw [scattered_of_ne hr]
          have hlinks : links (scattered lwipBuf q k s).pbufs = links s.pbufs :=
            funext (hone Pbuf.next fun _ _ _ ↦ rfl)
          have hlen := hone Pbuf.len fun _ _ _ ↦ rfl
          have htotal : total (scattered lwipBuf q k s).pbufs cells = total s.pbufs cells := by
            simp only [total, hlen]
          rw [total_cons, ← Nat.add_assoc] at hk
          rw [Run, scatterLoop_some lwipBuf q (by omega)]
          refine Run.mono
            (ih (s := scattered lwipBuf q k s) (hlinks.symm ▸ h) (htotal.symm ▸ hk)) ?_
          rintro _ s' ⟨hglob, hlinks', hlen', hother, hstale, hcontents, huses, hinputs⟩
          have hself : s'.pbufs q = filled (s.pbufs q) s.glob.mem (lwipBuf + k) :=
            (hother q hq).trans (scattered_self ..)
          refine ⟨hglob, hlinks'.trans hlinks, fun r ↦ (hlen' r).trans (hlen r), ?_, ?_, ?_, ?_,
            hinputs⟩
          · intro r hr
            rw [List.mem_cons, not_or] at hr
            exact (hother r hr.2).trans (scattered_of_ne hr.1 ..)
          · intro r i hi
            rw [hstale r i ((hlen r).symm ▸ hi)]
            by_cases hr : r = q
            · subst hr
              rw [scattered_self, filled_stale _ _ _ hi]
            · rw [scattered_of_ne hr]
          · rw [contents_cons, hself, held_filled, hcontents, htotal, total_cons, slice_append,
              Nat.add_assoc lwipBuf]
            rfl
          · rw [htotal] at huses
            rw [total_cons, ← Nat.add_assoc]
            exact (Uses.use (Nat.le_add_right ..) _).trans huses

/-! ## Receiving -/

variable (nic : Nic δ γ) {pool : Pool} {t : Mcu δ γ} {n : UInt32} {segs : List (Nat × UInt16)}

/-- The state before a frame is scattered: these buffers are linked, the driver has returned. -/
def allotted (s : Heap (Mcu δ γ)) (t : Mcu δ γ) (segs : List (Nat × UInt16)) : Heap (Mcu δ γ) where
  pbufs := chainOf s.pbufs segs
  log := .lwipBuf 0 MAX_FRAMELEN.toNat :: s.log
  glob := t

/-- Without a buffer the frame is dropped. -/
theorem run_lowLevelInput_none
    (hreceive : nic.packetReceive MAX_FRAMELEN lwipBuf s.glob = some (n, t))
    (hpool : pool.alloc n.toUInt16 = none) :
    Run (lowLevelInput nic lwipBuf pool) s fun p s' ↦ p = none ∧ s' = allotted s t [] := by
  refine run_bind.2 (run_modify.2 (run_bind.2 (.of_eq (onBoard_eq hreceive) ?_)))
  rw [pbufAlloc, hpool]
  exact run_bind.2 (run_pure.2 (run_pure.2 ⟨rfl, rfl⟩))

/-- **A frame is received** into the chain that the pool has for it. -/
theorem run_lowLevelInput (hreceive : nic.packetReceive MAX_FRAMELEN lwipBuf s.glob = some (n, t))
    (hpool : pool.alloc n.toUInt16 = some segs) :
    Run (lowLevelInput nic lwipBuf pool) s fun p s' ↦ p = (segs.head?).map Prod.fst ∧
      Scattered lwipBuf 0 (segs.map Prod.fst) (allotted s t segs) s' := by
  have hnodup := pool.nodup hpool
  have hsmall : 0 + total (allotted s t segs).pbufs (segs.map Prod.fst) < UInt32.size := by
    have htotal := (total_chainOf s.pbufs hnodup).trans (pool.total hpool)
    have hlt : n.toUInt16.toNat < 65536 := n.toUInt16.toNat_lt
    change 0 + total (chainOf s.pbufs segs) (segs.map Prod.fst) < 4294967296
    omega
  have hchain := chain_chainOf s.pbufs hnodup
  refine run_bind.2 (run_modify.2 (run_bind.2 (.of_eq (onBoard_eq hreceive) ?_)))
  rw [pbufAlloc, hpool]
  cases segs with
  | nil => exact absurd rfl (pool.nonempty hpool)
  | cons seg segs =>
      have hscatter := run_scatterLoop (s := allotted s t (seg :: segs)) lwipBuf hchain hsmall
      refine run_bind.2 (run_bind.2 (run_modify.2 (run_pure.2 ?_)))
      refine run_bind.2 (hscatter.mono ?_)
      intro _ s' hs'
      exact run_pure.2 ⟨rfl, hs'⟩

end Stm32F1.Netif
