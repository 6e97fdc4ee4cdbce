import Stm32F1.Lib.Bits
import Stm32F1.Lib.History
import Stm32F1.Netif.Ethernetif

/-!
# What reaches lwIP

`ethernetif_input` takes what the driver returns, asks the pool for a buffer and
reads the type of the frame from the first buffer.  That there was no frame is to
show in the buffer being `NULL`.  But the pool has a buffer of no length, too;
then the type is read from what the buffer was last used for.

Between two calls the buffers and the rest of the memory are used by others.
-/

namespace Stm32F1.Netif

open Prog Mcu Lwip Enc

/-- A call of `ethernetif_input`: the driver returns these bytes, or none if there is no frame. -/
structure Poll where
  bytes : List UInt8
  short : bytes.length < MAX_FRAMELEN.toNat
  pool : Pool
  /-- What `netif->input` would return. -/
  err : ErrT

variable {δ γ : Type} {nic : Nic δ γ} {lwipBuf p q : Nat} {e : Poll} {history : List Poll}
  {s s' : Heap (Mcu δ γ)} {t t' : Mcu δ γ} {n : UInt32} {len : UInt16} {rest : List (Nat × UInt16)}

/-- Nothing was handed to lwIP yet. -/
def Fresh (s : Heap (Mcu δ γ)) : Prop := s.log = []

/-- The call is made, whatever is in the buffers and in the memory. -/
def Polls (nic : Nic δ γ) (lwipBuf : Nat) (s : Heap (Mcu δ γ)) (e : Poll) (s' : Heap (Mcu δ γ)) :
    Prop :=
  ∃ pbufs t n t', nic.packetReceive MAX_FRAMELEN lwipBuf t = some (n, t') ∧
    slice t'.mem lwipBuf n.toNat = e.bytes ∧
    ethernetifInput nic lwipBuf e.pool e.err ⟨pbufs, s.log, t⟩ = some ((), s')

/-- The frames that were returned, newest first. -/
def frames (history : List Poll) : List (List UInt8) := (history.map Poll.bytes).filter (· ≠ [])

/-- A buffer that `netif->input` is called with is the first of a chain with these bytes. -/
def Holds (i : Nat × (Nat → Pbuf)) (bytes : List UInt8) : Prop :=
  ∃ cells, Chain (links i.2) (some i.1) cells ∧ contents i.2 cells = bytes

/-- **No phantom frames**: lwIP is handed frames that were returned, each at most once, and which
ones does not depend on what the buffers held before. -/
structure NoPhantom (nic : Nic δ γ) (lwipBuf : Nat) (history : List Poll) (s : Heap (Mcu δ γ)) :
    Prop where
  frames : ∃ fs, fs.Sublist (frames history) ∧ List.Forall₂ Holds (inputs s.log) fs
  dispatch : ∀ s', Reaches Fresh (Polls nic lwipBuf) history s' →
    (inputs s'.log).map Prod.fst = (inputs s.log).map Prod.fst

/-! ## The type of a frame -/

/-- It is one of those that lwIP is handed. -/
def Known (b : Pbuf) : Prop := ethType b = ETHTYPE_IP ∨ ethType b = ETHTYPE_ARP

instance (b : Pbuf) : Decidable (Known b) := inferInstanceAs (Decidable (_ ∨ _))

theorem ethType_toNat (b : Pbuf) :
    (ethType b).toNat = (b.payload 13).toNat + 256 * (b.payload 12).toNat := by
  rw [ethType, UInt16.or_comm, toNat_word16]

theorem known_iff (b : Pbuf) :
    Known b ↔ b.payload 12 = 0x08 ∧ (b.payload 13 = 0x00 ∨ b.payload 13 = 0x06) := by
  have hlo := (b.payload 13).toNat_lt
  have hip : ETHTYPE_IP.toNat = 2048 := rfl
  have harp : ETHTYPE_ARP.toNat = 2054 := rfl
  have htype : (0x08 : UInt8).toNat = 8 := rfl
  have hzero : (0x00 : UInt8).toNat = 0 := rfl
  have hsix : (0x06 : UInt8).toNat = 6 := rfl
  rw [Known, ← UInt16.toNat_inj, ← UInt16.toNat_inj, ethType_toNat, ← UInt8.toNat_inj,
    ← UInt8.toNat_inj, ← UInt8.toNat_inj]
  omega

/-! ## One call -/

/-- What is in the first buffer of the frame: its bytes, and behind them what was there before. -/
theorem payload_scattered {u : Heap (Mcu δ γ)}
    (h : Scattered lwipBuf 0 (((p, len) :: rest).map Prod.fst)
    (allotted u t ((p, len) :: rest)) s) :
    (∀ i < len.toNat, (s.pbufs p).payload i = t.mem (lwipBuf + i)) ∧
      ∀ i, len.toNat ≤ i → (s.pbufs p).payload i = (u.pbufs p).payload i := by
  have hfirst : (allotted u t ((p, len) :: rest)).pbufs p =
      { next := (rest.head?).map Prod.fst
        payload := (u.pbufs p).payload
        totLen := .ofNat (((p, len) :: rest).map fun seg ↦ seg.2.toNat).sum
        len := len
        ref := 1 } := Function.update_self ..
  have hlen : (s.pbufs p).len = len := (h.len p).trans (congrArg Pbuf.len hfirst)
  constructor
  · intro i hi
    have hheld : i < (s.pbufs p).held.length := by rwa [Pbuf.length_held, hlen]
    have htotal : i < total (allotted u t ((p, len) :: rest)).pbufs (p :: rest.map Prod.fst) := by
      rw [total_cons, hfirst]
      exact Nat.lt_add_right _ hi
    have hcontents := congrArg (fun bytes ↦ bytes.getD i 0) h.contents
    change (contents s.pbufs (p :: rest.map Prod.fst)).getD i 0 =
      (slice t.mem (lwipBuf + 0) (total _ (p :: rest.map Prod.fst))).getD i 0 at hcontents
    rw [contents_cons, List.getD_append _ _ _ _ hheld, Pbuf.held_getD _ (hlen.symm ▸ hi),
      List.getD_eq_getElem _ _ (htotal.trans_eq length_slice.symm), getElem_slice] at hcontents
    exact hcontents
  · intro i hi
    rw [h.stale p i (hfirst ▸ hi), hfirst]

/-- Without a buffer nothing happens. -/
theorem run_ethernetifInput_none {u : Heap (Mcu δ γ)} {pool : Pool}
    (hreceive : nic.packetReceive MAX_FRAMELEN lwipBuf u.glob = some (n, t))
    (hpool : pool.alloc n.toUInt16 = none) (err : ErrT) :
    Run (ethernetifInput nic lwipBuf pool err) u fun _ s' ↦ inputs s'.log = inputs u.log := by
  refine run_bind.2 ((run_lowLevelInput_none nic hreceive hpool).mono ?_)
  rintro p s' ⟨rfl, rfl⟩
  exact run_pure.2 rfl

/-- The type that is found in the first buffer decides. -/
theorem run_ethernetifInput_some {u : Heap (Mcu δ γ)} {pool : Pool}
    (hreceive : nic.packetReceive MAX_FRAMELEN lwipBuf u.glob = some (n, t))
    (hpool : pool.alloc n.toUInt16 = some ((p, len) :: rest)) (err : ErrT) :
    Run (ethernetifInput nic lwipBuf pool err) u fun _ s' ↦ ∃ s₁,
      Scattered lwipBuf 0 (((p, len) :: rest).map Prod.fst) (allotted u t ((p, len) :: rest)) s₁ ∧
      inputs s'.log =
        if Known (s₁.pbufs p) then (p, s₁.pbufs) :: inputs u.log else inputs u.log := by
  have hchain := chain_chainOf u.pbufs (pool.nodup hpool)
  refine run_bind.2 ((run_lowLevelInput nic hreceive hpool).mono ?_)
  rintro _ s₁ ⟨rfl, hs₁⟩
  have hlinks : Chain (links s₁.pbufs) (some p) (((p, len) :: rest).map Prod.fst) := by
    rw [hs₁.links]
    exact hchain
  have hfree (s₂ : Heap (Mcu δ γ)) (hpbufs : s₂.pbufs = s₁.pbufs) :
      Run (pbufFree p) s₂ fun _ s' ↦ inputs s'.log = inputs s₂.log := by
    refine (run_pbufFree (hpbufs.symm ▸ hlinks)).mono ?_
    rintro _ s' ⟨ref, rfl, -⟩
    rfl
  have hinputs : inputs s₁.log = inputs u.log := hs₁.inputs
  refine run_bind.2 (run_read.2 (run_ite.2 ?_))
  dsimp only
  split
  · rename_i hknown
    refine run_bind.2 (run_bind.2 (run_read.2 (run_bind.2 (run_modify.2 (run_pure.2 ?_)))))
    have hhanded : inputs (.input p s₁.pbufs :: s₁.log) =
        if Known (s₁.pbufs p) then (p, s₁.pbufs) :: inputs u.log else inputs u.log := by
      rw [if_pos (show Known (s₁.pbufs p) from hknown), inputs, hinputs]
    refine run_ite.2 ?_
    split
    · refine (hfree { s₁ with log := .input p s₁.pbufs :: s₁.log } rfl).mono ?_
      intro _ s' hs'
      exact ⟨s₁, hs₁, hs'.trans hhanded⟩
    · exact run_pure.2 ⟨s₁, hs₁, hhanded⟩
  · rename_i hknown
    refine (hfree s₁ rfl).mono ?_
    intro _ s' hs'
    refine ⟨s₁, hs₁, ?_⟩
    rw [if_neg (show ¬ Known (s₁.pbufs p) from hknown), hs', hinputs]

/-! ## Enough of a frame -/

/-- The length of the first buffer. -/
def firstLen : List (Nat × UInt16) → Nat
  | [] => 0
  | (_, len) :: _ => len.toNat

/-- The type of the frame is in the first buffer, or so much of it that it is known not to be one of
those; or there is no buffer. -/
def Typed (e : Poll) : Prop :=
  ∀ segs, e.pool.alloc (.ofNat e.bytes.length) = some segs →
    14 ≤ firstLen segs ∨ firstLen segs = 13 ∧ e.bytes.getD 12 0 ≠ 0x08

/-- The frame is of a type that lwIP is handed. -/
def Poll.Ours (e : Poll) : Prop :=
  e.bytes.getD 12 0 = 0x08 ∧ (e.bytes.getD 13 0 = 0x00 ∨ e.bytes.getD 13 0 = 0x06)

instance (e : Poll) : Decidable e.Ours := inferInstanceAs (Decidable (_ ∧ _))

/-- The buffer that lwIP is handed. -/
def Poll.handed (e : Poll) : List Nat :=
  match e.pool.alloc (.ofNat e.bytes.length) with
  | some ((p, _) :: _) => if e.Ours then [p] else []
  | _ => []

theorem Poll.Ours.ne_nil (h : e.Ours) : e.bytes ≠ [] := by
  intro hnil
  have htype := h.1
  rw [hnil] at htype
  exact absurd htype (by decide)

/-- What a call does, with the buffers and the memory as they are. -/
theorem run_poll_some (hreceive : nic.packetReceive MAX_FRAMELEN lwipBuf t = some (n, t'))
    (hbytes : slice t'.mem lwipBuf n.toNat = e.bytes)
    (hpool : e.pool.alloc (.ofNat e.bytes.length) = some ((p, len) :: rest))
    (pbufs : Nat → Pbuf) (log : List Act) :
    Run (ethernetifInput nic lwipBuf e.pool e.err) ⟨pbufs, log, t⟩ fun _ s' ↦ ∃ pbufs',
      Holds (p, pbufs') e.bytes ∧
      (∀ i < len.toNat, (pbufs' p).payload i = e.bytes.getD i 0) ∧
      (∀ i, len.toNat ≤ i → (pbufs' p).payload i = (pbufs p).payload i) ∧
      inputs s'.log = if Known (pbufs' p) then (p, pbufs') :: inputs log else inputs log := by
  have hlength : n.toNat = e.bytes.length := by rw [← hbytes, length_slice]
  have hshort := e.short
  have hmax : MAX_FRAMELEN.toNat = 1518 := rfl
  have hn : n.toUInt16 = .ofNat e.bytes.length := by
    rw [← hlength]
    rfl
  have hn' : n.toUInt16.toNat = n.toNat := by
    rw [UInt32.toNat_toUInt16]
    exact Nat.mod_eq_of_lt (by omega)
  rw [← hn] at hpool
  have hnodup := e.pool.nodup hpool
  have htotal := (total_chainOf pbufs hnodup).trans ((e.pool.total hpool).trans hn')
  have hlen : len.toNat ≤ n.toNat := by
    have hsum : len.toNat + (rest.map fun seg ↦ seg.2.toNat).sum = n.toNat :=
      (e.pool.total hpool).trans hn'
    omega
  refine (run_ethernetifInput_some (u := ⟨pbufs, log, t⟩) hreceive hpool e.err).mono ?_
  rintro _ s' ⟨s₁, hs₁, hinputs⟩
  obtain ⟨hfresh, hstale⟩ := payload_scattered hs₁
  refine ⟨s₁.pbufs, ⟨((p, len) :: rest).map Prod.fst, ?_, ?_⟩, ?_, hstale, hinputs⟩
  · rw [hs₁.links]
    exact chain_chainOf pbufs hnodup
  · rw [hs₁.contents, ← hbytes]
    exact congrArg (slice t'.mem lwipBuf) htotal
  · intro i hi
    have hi' : i < (slice t'.mem lwipBuf n.toNat).length := by
      rw [length_slice]
      omega
    rw [hfresh i hi, ← hbytes, List.getD_eq_getElem _ _ hi', getElem_slice]

/-- A call with enough of a frame hands it over if it is of such a type, and is otherwise silent. -/
theorem Polls.typed (h : Polls nic lwipBuf s e s') (he : Typed e) :
    (e.handed = [] ∧ inputs s'.log = inputs s.log) ∨
      ∃ p pbufs', e.Ours ∧ e.handed = [p] ∧ Holds (p, pbufs') e.bytes ∧
        inputs s'.log = (p, pbufs') :: inputs s.log := by
  obtain ⟨pbufs, t, n, t', hreceive, hbytes, hrun⟩ := h
  cases hpool : e.pool.alloc (.ofNat e.bytes.length) with
  | none =>
      have hn : e.pool.alloc n.toUInt16 = none := by
        rw [← hpool, ← hbytes, length_slice]
        rfl
      refine .inl
        ⟨?_, (run_ethernetifInput_none (u := ⟨pbufs, s.log, t⟩) hreceive hn e.err).elim hrun⟩
      rw [Poll.handed, hpool]
  | some segs =>
      obtain _ | ⟨⟨p, len⟩, rest⟩ := segs
      · exact absurd rfl (e.pool.nonempty hpool)
      have hhanded : e.handed = if e.Ours then [p] else [] := by rw [Poll.handed, hpool]
      obtain ⟨pbufs', hholds, hfresh, -, hinputs⟩ :=
        (run_poll_some hreceive hbytes hpool pbufs s.log).elim hrun
      have hknown : Known (pbufs' p) ↔ e.Ours := by
        rw [known_iff, Poll.Ours]
        rcases he _ hpool with hlen | ⟨hlen, hne⟩
        · have hlen : 14 ≤ len.toNat := hlen
          rw [hfresh 12 (by omega), hfresh 13 (by omega)]
        · have hlen : len.toNat = 13 := hlen
          rw [hfresh 12 (by omega)]
          exact ⟨fun h ↦ absurd h.1 hne, fun h ↦ absurd h.1 hne⟩
      by_cases hours : e.Ours
      · rw [if_pos hours] at hhanded
        rw [if_pos (hknown.2 hours)] at hinputs
        exact .inr ⟨p, pbufs', hours, hhanded, hholds, hinputs⟩
      · rw [if_neg hours] at hhanded
        rw [if_neg fun h ↦ hours (hknown.1 h)] at hinputs
        exact .inl ⟨hhanded, hinputs⟩

/-- What lwIP has been handed after calls with enough of a frame. -/
theorem inputs_typed (hs : Reaches Fresh (Polls nic lwipBuf) history s)
    (h : ∀ e ∈ history, Typed e) :
    (inputs s.log).map Prod.fst = history.flatMap Poll.handed ∧
      ∃ fs, fs.Sublist (frames history) ∧ List.Forall₂ Holds (inputs s.log) fs := by
  induction hs with
  | start hs =>
      rw [hs]
      exact ⟨rfl, [], .slnil, .nil⟩
  | @step past s s' e _ hstep ih =>
      obtain ⟨he, hpast⟩ := List.forall_mem_cons.1 h
      obtain ⟨hfst, fs, hsub, hholds⟩ := ih hpast
      rw [List.flatMap_cons, ← hfst]
      rcases hstep.typed he with ⟨hhanded, hinputs⟩ | ⟨p, pbufs', hours, hhanded, hframe, hinputs⟩
      · have hframes : (frames past).Sublist (frames (e :: past)) :=
          (List.sublist_cons_self ..).filter _
        rw [hhanded, hinputs]
        exact ⟨rfl, fs, hsub.trans hframes, hholds⟩
      · have hframes : frames (e :: past) = e.bytes :: frames past :=
          List.filter_cons_of_pos (decide_eq_true hours.ne_nil)
        rw [hhanded, hinputs, hframes]
        exact ⟨rfl, e.bytes :: fs, hsub.cons_cons _, .cons hframe hholds⟩

/-! ## Too little of a frame -/

/-- The same buffers, with the first byte of the type of IP in their memory, and else `b`. -/
def leftover (b : UInt8) (h : Nat → Pbuf) (q : Nat) : Pbuf :=
  { h q with payload := fun i ↦ if i = 12 then 0x08 else b }

/-- Without enough of a frame, what the buffer held before decides whether lwIP is handed it. -/
theorem Polls.untyped (h : Polls nic lwipBuf s e s') (he : ¬ Typed e) : ∃ p s₀ s₁,
    Polls nic lwipBuf s e s₀ ∧ (inputs s₀.log).map Prod.fst = p :: (inputs s.log).map Prod.fst ∧
    Polls nic lwipBuf s e s₁ ∧ (inputs s₁.log).map Prod.fst = (inputs s.log).map Prod.fst := by
  obtain ⟨pbufs, t, n, t', hreceive, hbytes, -⟩ := h
  rw [Typed] at he
  push Not at he
  obtain ⟨segs, hpool, hlen, hthirteen⟩ := he
  obtain _ | ⟨⟨p, len⟩, rest⟩ := segs
  · exact absurd rfl (e.pool.nonempty hpool)
  have hlen : len.toNat < 14 := hlen
  -- The first byte of the type is that of IP, whether it came with the frame or not.
  have hrun (b : UInt8) : ∃ s', Polls nic lwipBuf s e s' ∧ ∃ pbufs',
      (Known (pbufs' p) ↔ b = 0x00 ∨ b = 0x06) ∧
      inputs s'.log = if Known (pbufs' p) then (p, pbufs') :: inputs s.log else inputs s.log := by
    obtain ⟨_, s', heq, pbufs', -, hfresh, hstale, hinputs⟩ :=
      run_poll_some hreceive hbytes hpool (leftover b pbufs) s.log
    refine ⟨s', ⟨_, t, n, t', hreceive, hbytes, heq⟩, pbufs', ?_, hinputs⟩
    have hlow : (pbufs' p).payload 13 = b := hstale 13 (by omega)
    have hhigh : (pbufs' p).payload 12 = 0x08 := by
      by_cases h13 : len.toNat = 13
      · rw [hfresh 12 (by omega)]
        exact hthirteen h13
      · exact hstale 12 (by omega)
    rw [known_iff, hlow]
    exact and_iff_right hhigh
  obtain ⟨s₀, hs₀, pbufs₀, hknown₀, hinputs₀⟩ := hrun 0x00
  obtain ⟨s₁, hs₁, pbufs₁, hknown₁, hinputs₁⟩ := hrun 0x01
  have hne : ¬ ((0x01 : UInt8) = 0x00 ∨ (0x01 : UInt8) = 0x06) := by decide
  rw [if_pos (hknown₀.2 (.inl rfl))] at hinputs₀
  rw [if_neg fun h ↦ hne (hknown₁.1 h)] at hinputs₁
  exact ⟨p, s₀, s₁, hs₀, congrArg (List.map Prod.fst) hinputs₀, hs₁,
    congrArg (List.map Prod.fst) hinputs₁⟩

/-! ## All runs -/

/-- **There are no phantom frames exactly as long as every first buffer has enough of a frame to
tell its type.**  A call without a frame, for which the pool has a buffer all the same, has not. -/
theorem no_phantom_iff (hs : Reaches Fresh (Polls nic lwipBuf) history s) :
    Throughout Fresh (Polls nic lwipBuf) (NoPhantom nic lwipBuf) history ↔
      ∀ e ∈ history, Typed e := by
  rw [← meets_const]
  refine throughout_iff (I := fun past _ ↦ ∀ e ∈ past, Typed e) ?_ ?_ ?_ ?_ hs
  · exact fun _ _ e he ↦ absurd he List.not_mem_nil
  · exact fun past s e s' _ hpast he _ ↦ List.forall_mem_cons.2 ⟨he, hpast⟩
  · intro past s hs hpast
    obtain ⟨hfst, hframes⟩ := inputs_typed hs hpast
    refine ⟨hframes, fun s' hs' ↦ ?_⟩
    rw [hfst]
    exact (inputs_typed hs' hpast).1
  · intro past s e s' hs _ he hstep hphantom
    obtain ⟨p, s₀, s₁, hs₀, hfst₀, hs₁, hfst₁⟩ := hstep.untyped he
    have heq := (hphantom.dispatch s₀ (hs.step hs₀)).trans (hphantom.dispatch s₁ (hs.step hs₁)).symm
    rw [hfst₀, hfst₁] at heq
    exact absurd heq (List.cons_ne_self _ _)

/-! ## A phantom -/

/-- A driver whose device is the frame that it is about to return. -/
def delivering : Nic (List UInt8) Unit where
  packetSend _ _ := pure ()
  packetReceive _ packet := do
    let bytes ← Prog.read fun t ↦ t.dev
    if bytes = [] then pure 0
    else do
      Prog.modify fun t ↦ stored t packet (bytes ++ [0x00])
      pure (.ofNat bytes.length)

theorem run_delivering (t : Mcu (List UInt8) Unit) (a : Nat) (hlen : t.dev.length < UInt32.size) :
    Run (delivering.packetReceive MAX_FRAMELEN a) t fun n t' ↦ slice t'.mem a n.toNat = t.dev := by
  refine run_bind.2 (run_read.2 (run_ite.2 ?_))
  split
  · rename_i hnil
    exact run_pure.2 hnil.symm
  · refine run_bind.2 (run_modify.2 (run_pure.2 ?_))
    rw [toNat_offset hlen, stored_mem, slice_overlay_take, List.take_left]
    · rw [List.length_append]
      exact Nat.le_add_right ..
    · rw [List.length_append]
      exact Nat.le_add_right ..

/-- The driver can return what it is to return. -/
theorem delivering_receives (e : Poll) (a : Nat) : ∃ t n t',
    delivering.packetReceive MAX_FRAMELEN a t = some (n, t') ∧ slice t'.mem a n.toNat = e.bytes :=
  ⟨_, run_delivering ⟨fun _ ↦ 0, e.bytes, ()⟩ a (e.short.trans (by decide))⟩

/-- A pool with one buffer that is large enough for everything. -/
def oneBuffer : Pool where
  alloc n := some [(7, n)]
  nonempty h := by
    obtain rfl := Option.some.inj h
    exact List.cons_ne_nil _ _
  nodup h := by
    obtain rfl := Option.some.inj h
    exact List.nodup_singleton 7
  total h := by
    obtain rfl := Option.some.inj h
    exact Nat.add_zero _

/-- The smallest frame that IP is sent in. -/
def ipFrame : Poll where
  bytes := List.replicate 12 0xFF ++ [0x08, 0x00] ++ List.replicate 46 0x00
  short := by decide
  pool := oneBuffer
  err := ERR_OK

/-- Nothing was received. -/
def nothing : Poll where
  bytes := []
  short := by decide
  pool := oneBuffer
  err := ERR_OK

/-- Before the first call. -/
def idle : Heap (Mcu (List UInt8) Unit) where
  pbufs _ := { next := none, payload := fun _ ↦ 0, totLen := 0, len := 0, ref := 0 }
  log := []
  glob := { mem := fun _ ↦ 0, dev := [], glob := () }

/-- The frame is handed over, and its type stays in the buffer. -/
theorem reaches_ipFrame : ∃ s pbufs, Reaches Fresh (Polls delivering 0x20000000) [ipFrame] s ∧
    inputs s.log = [(7, pbufs)] ∧ (pbufs 7).payload 12 = 0x08 ∧ (pbufs 7).payload 13 = 0x00 := by
  have hstart : Reaches Fresh (Polls delivering 0x20000000) [] idle := .start rfl
  have hpool : ipFrame.pool.alloc (.ofNat ipFrame.bytes.length) = some [(7, 60)] := rfl
  obtain ⟨t, n, t', hreceive, hbytes⟩ := delivering_receives ipFrame 0x20000000
  obtain ⟨_, s, hrun, pbufs, -, hfresh, -, hinputs⟩ :=
    run_poll_some hreceive hbytes hpool idle.pbufs idle.log
  have hhigh : (pbufs 7).payload 12 = 0x08 := hfresh 12 (by decide)
  have hlow : (pbufs 7).payload 13 = 0x00 := hfresh 13 (by decide)
  rw [if_pos ((known_iff _).2 ⟨hhigh, .inl hlow⟩)] at hinputs
  exact ⟨s, pbufs, hstart.step ⟨_, t, n, t', hreceive, hbytes, hrun⟩, hinputs, hhigh, hlow⟩

/-- Frames whose type is in the buffer. -/
theorem no_phantom_frame : ∃ s, Reaches Fresh (Polls delivering 0x20000000) [ipFrame] s ∧
    Throughout Fresh (Polls delivering 0x20000000) (NoPhantom delivering 0x20000000) [ipFrame] := by
  obtain ⟨s, -, hs, -⟩ := reaches_ipFrame
  refine ⟨s, hs, (no_phantom_iff hs).2 ?_⟩
  intro e he segs hsegs
  obtain rfl := List.mem_singleton.1 he
  obtain rfl := Option.some.inj hsegs
  exact .inl (by decide)

/-- A frame of IP comes, and then nothing, while the buffer still holds the frame. -/
theorem phantom : ∃ s, Reaches Fresh (Polls delivering 0x20000000) [nothing, ipFrame] s ∧
    ¬ NoPhantom delivering 0x20000000 [nothing, ipFrame] s := by
  obtain ⟨s, pbufs, hs, hinputs, hhigh, hlow⟩ := reaches_ipFrame
  have hpool : nothing.pool.alloc (.ofNat nothing.bytes.length) = some [(7, 0)] := rfl
  obtain ⟨t, n, t', hreceive, hbytes⟩ := delivering_receives nothing 0x20000000
  obtain ⟨_, s', hrun, pbufs', -, -, hstale, hinputs'⟩ :=
    run_poll_some hreceive hbytes hpool pbufs s.log
  have hhigh' : (pbufs' 7).payload 12 = 0x08 := (hstale 12 (Nat.zero_le _)).trans hhigh
  have hlow' : (pbufs' 7).payload 13 = 0x00 := (hstale 13 (Nat.zero_le _)).trans hlow
  rw [if_pos ((known_iff _).2 ⟨hhigh', .inl hlow'⟩), hinputs] at hinputs'
  refine ⟨s', hs.step ⟨_, t, n, t', hreceive, hbytes, hrun⟩, fun hphantom ↦ ?_⟩
  -- Two buffers were handed over, and there was one frame.
  obtain ⟨fs, hsub, hholds⟩ := hphantom.frames
  have hlength := hholds.length_eq.trans_le hsub.length_le
  rw [hinputs'] at hlength
  exact absurd (Nat.le_of_succ_le_succ hlength) (Nat.not_succ_le_zero 0)

end Stm32F1.Netif
