import Stm32F1.Tcp.Log
import Stm32F1.Lib.Counted

/-!
# The loops over packet buffers

Links are set when a chain is made, and lead upwards; nothing changes them
afterwards.  So every loop over a chain ends, also over one that was freed.
-/

namespace Stm32F1.Tcp

open Prog

variable {s : World} {p : Option Nat} {cells : List Nat} {q : Nat}

/-- The links between the buffers. -/
def links (h : Nat → Pbuf) : Nat → Option Nat := fun q ↦ (h q).next

/-- The same buffers, referenced otherwise. -/
def withRefs (h : Nat → Pbuf) (ref : Nat → UInt16) : Nat → Pbuf := fun q ↦ { h q with ref := ref q }

/-- How often each buffer is referenced. -/
def refs (h : Nat → Pbuf) : Nat → UInt16 := fun q ↦ (h q).ref

@[simp] theorem refs_withRefs (h : Nat → Pbuf) (ref : Nat → UInt16) :
    refs (withRefs h ref) = ref := rfl

@[simp] theorem withRefs_refs (h : Nat → Pbuf) : withRefs h (refs h) = h := rfl

theorem update_ref (h : Nat → Pbuf) (q : Nat) (r : UInt16) :
    Function.update h q { h q with ref := r } = withRefs h (Function.update (refs h) q r) := by
  funext q'
  by_cases hq : q' = q
  · subst hq
    simp [withRefs]
  · simp [withRefs, refs, hq]

/-! ## `pbuf_free` -/

/-- Where the links and the references are. -/
def counted : Counted World where
  next s := links s.pbufs
  refs s := refs s.pbufs
  put ref s := { s with pbufs := withRefs s.pbufs ref }
  refs_put _ _ := rfl
  put_put _ _ _ := rfl
  put_refs _ := rfl
  next_put _ _ := rfl

theorem releases_pbufFreeLoop : counted.Releases pbufFreeLoop := by
  refine Counted.releases_repeatM rfl fun s q ↦ ?_
  dsimp only
  rw [bind_of_eq (setPbuf_apply ..), update_ref, bind_of_eq (pbufAt_apply ..)]
  have hself : (withRefs s.pbufs (Function.update (refs s.pbufs) q (refs s.pbufs q - 1)) q).ref =
      refs s.pbufs q - 1 := Function.update_self ..
  change (if (withRefs s.pbufs (Function.update (refs s.pbufs) q (refs s.pbufs q - 1)) q).ref = 0
    then pure (.inl (links s.pbufs q)) else pure (.inl none) : Prog World (Option Nat ⊕ Unit)) _ =
    some (.inl (if refs s.pbufs q - 1 = 0 then links s.pbufs q else none), _)
  rw [hself]
  by_cases hzero : refs s.pbufs q - 1 = 0
  · rw [if_pos hzero, if_pos hzero]
    rfl
  · rw [if_neg hzero, if_neg hzero]
    rfl

theorem pbufFreeLoop_none : pbufFreeLoop none = pure () := releases_pbufFreeLoop.null

/-- One round of `pbuf_free`. -/
theorem pbufFreeLoop_some (s : World) (q : Nat) : pbufFreeLoop (some q) s =
    pbufFreeLoop (if refs s.pbufs q - 1 = 0 then links s.pbufs q else none)
      { s with
        pbufs := withRefs s.pbufs (Function.update (refs s.pbufs) q (refs s.pbufs q - 1)) } :=
  releases_pbufFreeLoop.cell s q

/-- `pbuf_free` changes references only, and only upwards from the buffer.  A chain whose buffers
are referenced once is freed as a whole. -/
theorem run_pbufFreeLoop (h : Chain (links s.pbufs) p cells) :
    Run (pbufFreeLoop p) s fun _ s' ↦ ∃ ref, s' = { s with pbufs := withRefs s.pbufs ref } ∧
      (∀ q, p = some q → ref q = refs s.pbufs q - 1) ∧ (∀ q ∉ cells, ref q = refs s.pbufs q) ∧
      ((∀ q ∈ cells, refs s.pbufs q = 1) → ∀ q ∈ cells, ref q = 0) :=
  releases_pbufFreeLoop.run h

theorem pbufRef_apply (s : World) (q : Nat) : pbufRef q s = some ((), { s with
    pbufs := withRefs s.pbufs (Function.update (refs s.pbufs) q (refs s.pbufs q + 1))
    log := .pbufRef q :: s.log }) := by
  rw [← update_ref]
  rfl

theorem run_pbufFree {Q : Unit → World → Prop} : Run (pbufFree q) s Q ↔
    Run (pbufFreeLoop (some q)) { s with log := .pbufFree q :: s.log } Q := Iff.rfl

/-- `pbuf_free` releases a reference on the buffer. -/
theorem run_pbufFree_ref (h : Chain (links s.pbufs) (some q) cells) :
    Run (pbufFree q) s fun _ s' ↦ ∃ ref, s' = { s with
      pbufs := withRefs s.pbufs ref
      log := .pbufFree q :: s.log } ∧ ref q = refs s.pbufs q - 1 := by
  refine run_pbufFree.2 (Run.mono (run_pbufFreeLoop h) ?_)
  rintro _ _ ⟨ref, rfl, hq, -, -⟩
  exact ⟨ref, rfl, hq q rfl⟩

/-- Freeing a buffer that is referenced once, before one that is referenced twice. -/
theorem pbufFreeLoop_pair {n : Nat} (hnext : links s.pbufs q = some n) (hq : refs s.pbufs q = 1)
    (hn : refs s.pbufs n = 2) (hne : n ≠ q) : pbufFreeLoop (some q) s = some ((), { s with
      pbufs := withRefs s.pbufs
        (Function.update (Function.update (refs s.pbufs) q 0) n 1) }) := by
  have hone : (1 : UInt16) - 1 = 0 := rfl
  have htwo : (2 : UInt16) - 1 = 1 := rfl
  have hne' : (1 : UInt16) ≠ 0 := by decide
  rw [pbufFreeLoop_some, hq, hone, if_pos rfl, hnext, pbufFreeLoop_some]
  simp only [refs_withRefs, Function.update_of_ne hne, hn, htwo]
  rw [if_neg hne', pbufFreeLoop_none]
  rfl

/-! ## New chains -/

/-- The state with a new chain. -/
def World.chained (s : World) (segs : List (List UInt8)) : World :=
  { s with
    nextPbuf := s.nextPbuf + segs.length
    pbufs := overlay s.pbufs s.nextPbuf segs.length (freshPbuf s.nextPbuf segs) }

/-- The buffers of the new chain. -/
def World.fresh (s : World) (segs : List (List UInt8)) : List Nat :=
  List.range' s.nextPbuf segs.length

variable {segs : List (List UInt8)}

theorem newChain_apply (h : segs ≠ []) (s : World) :
    newChain segs s = some (some s.nextPbuf, s.chained segs) := by
  rw [newChain, if_neg h]
  rfl

theorem chained_pbufs : (s.chained segs).pbufs =
    overlay s.pbufs s.nextPbuf segs.length (freshPbuf s.nextPbuf segs) := rfl

theorem chained_fresh {i : Nat} (hi : i < segs.length) :
    (s.chained segs).pbufs (s.nextPbuf + i) = freshPbuf s.nextPbuf segs i := by
  rw [chained_pbufs, overlay_add hi]

theorem chained_old (hq : q < s.nextPbuf ∨ s.nextPbuf + segs.length ≤ q) :
    (s.chained segs).pbufs q = s.pbufs q := by
  rw [chained_pbufs, overlay_of_notMem hq]

theorem mem_fresh {r : Nat} : r ∈ s.fresh segs ↔ ∃ i < segs.length, r = s.nextPbuf + i := by
  rw [World.fresh, List.mem_range']
  simp only [Nat.one_mul]

theorem chain_chained (h : segs ≠ []) :
    Chain (links (s.chained segs).pbufs) (some s.nextPbuf) (s.fresh segs) := by
  refine chain_range s.nextPbuf (fun h0 ↦ h (List.length_eq_zero_iff.1 h0)) ?_
  intro i hi
  rw [links, chained_fresh hi]
  rfl

theorem upward_chained (hup : Upward (links s.pbufs) s.nextPbuf) :
    Upward (links (s.chained segs).pbufs) (s.chained segs).nextPbuf := by
  intro q r hr
  change q < r ∧ r < s.nextPbuf + segs.length
  by_cases hq : s.nextPbuf ≤ q ∧ q < s.nextPbuf + segs.length
  · obtain ⟨i, rfl⟩ : ∃ i, q = s.nextPbuf + i := ⟨q - s.nextPbuf, by omega⟩
    rw [links, chained_fresh (by omega), freshPbuf] at hr
    dsimp only at hr
    split at hr
    · obtain rfl := Option.some.inj hr
      omega
    · exact absurd hr (Option.some_ne_none r).symm
  · rw [links, chained_old (by omega)] at hr
    have := hup q r hr
    omega

theorem refs_chained : ∀ r ∈ s.fresh segs, refs (s.chained segs).pbufs r = 1 := by
  intro r hr
  obtain ⟨i, hi, rfl⟩ := mem_fresh.1 hr
  rw [refs, chained_fresh hi]
  rfl

theorem payloads_chained :
    ((s.fresh segs).map fun r ↦ ((s.chained segs).pbufs r).payload) = segs := by
  refine List.ext_getElem (by simp [World.fresh]) ?_
  intro i hi hi'
  have hfresh : i < (s.fresh segs).length := by simpa [World.fresh] using hi'
  have hget : (s.fresh segs)[i] = s.nextPbuf + i := by simp [World.fresh]
  rw [List.getElem_map, hget, chained_fresh hi', freshPbuf, List.getD_eq_getElem _ _ hi']

/-! ## `pbuf_take` -/

/-- The same buffers with other contents. -/
def withPayloads (h : Nat → Pbuf) (payload : Nat → List UInt8) : Nat → Pbuf :=
  fun q ↦ { h q with payload := payload q }

def payloads (h : Nat → Pbuf) : Nat → List UInt8 := fun q ↦ (h q).payload

/-- What the buffers of a new chain hold. -/
theorem data_chained : (s.fresh segs).flatMap (payloads (s.chained segs).pbufs) = segs.flatten := by
  rw [List.flatMap_def]
  exact congrArg List.flatten payloads_chained

theorem update_payload (h : Nat → Pbuf) (q : Nat) (bytes : List UInt8) :
    Function.update h q { h q with payload := bytes } =
      withPayloads h (Function.update (payloads h) q bytes) := by
  funext q'
  by_cases hq : q' = q
  · subst hq
    simp [withPayloads]
  · simp [withPayloads, payloads, hq]

theorem pbufTakeLoop_nil : pbufTakeLoop p [] = pure () := by
  rw [pbufTakeLoop, repeatM_unfold]
  rfl

theorem pbufTakeLoop_none (data : List UInt8) : pbufTakeLoop none data = pure () := by
  rw [pbufTakeLoop, repeatM_unfold]
  dsimp only
  split <;> rfl

/-- One round of `pbuf_take`. -/
theorem pbufTakeLoop_some {data : List UInt8} (h : data ≠ []) (s : World) (q : Nat) :
    pbufTakeLoop (some q) data s =
      pbufTakeLoop (links s.pbufs q) (data.drop (min data.length (payloads s.pbufs q).length))
        { s with pbufs := withPayloads s.pbufs (Function.update (payloads s.pbufs) q
          (data.take (min data.length (payloads s.pbufs q).length) ++
            (payloads s.pbufs q).drop (min data.length (payloads s.pbufs q).length))) } := by
  rw [← update_payload]
  conv_lhs => rw [pbufTakeLoop, repeatM_unfold]
  dsimp only
  rw [if_neg h]
  rfl

/-- `pbuf_take` spreads as many bytes as the chain holds over the chain. -/
theorem run_pbufTakeLoop {data : List UInt8} (h : Chain (links s.pbufs) p cells)
    (hlen : (cells.flatMap (payloads s.pbufs)).length = data.length) :
    Run (pbufTakeLoop p data) s fun _ s' ↦ ∃ payload,
      s' = { s with pbufs := withPayloads s.pbufs payload } ∧
      cells.flatMap payload = data ∧
      (∀ q, (payload q).length = (payloads s.pbufs q).length) ∧
      ∀ q ∉ cells, payload q = payloads s.pbufs q := by
  induction cells generalizing p s data with
  | nil =>
      cases h with
      | nil =>
          have hdata : data = [] := List.length_eq_zero_iff.1 hlen.symm
          rw [pbufTakeLoop_none]
          exact run_pure.2 ⟨payloads s.pbufs, rfl, hdata.symm, fun _ ↦ rfl, fun _ _ ↦ rfl⟩
  | cons q cells ih =>
      cases h with
      | cons h =>
          rw [List.flatMap_cons, List.length_append] at hlen
          by_cases hdata : data = []
          · subst hdata
            rw [pbufTakeLoop_nil]
            refine run_pure.2 ⟨payloads s.pbufs, rfl, ?_, fun _ ↦ rfl, fun _ _ ↦ rfl⟩
            refine List.length_eq_zero_iff.1 ?_
            rw [List.flatMap_cons, List.length_append]
            exact hlen
          · have hq := h.notMem_tail
            have hmin : min data.length (payloads s.pbufs q).length =
                (payloads s.pbufs q).length := Nat.min_eq_right (by omega)
            have hdrop : (payloads s.pbufs q).drop (payloads s.pbufs q).length = [] :=
              List.drop_length
            rw [Run, pbufTakeLoop_some hdata, hmin, hdrop, List.append_nil]
            set bytes := data.take (payloads s.pbufs q).length with hbytes
            have hcells : cells.flatMap (Function.update (payloads s.pbufs) q bytes) =
                cells.flatMap (payloads s.pbufs) :=
              List.flatMap_congr fun r hr ↦ Function.update_of_ne (ne_of_mem_of_not_mem hr hq) ..
            refine Run.mono (ih h ?_) ?_
            · change (cells.flatMap (Function.update (payloads s.pbufs) q bytes)).length = _
              rw [hcells, List.length_drop]
              omega
            · rintro _ _ ⟨payload, rfl, hflat, hlens, hrest⟩
              have hhead : payload q = bytes := (hrest q hq).trans (Function.update_self ..)
              refine ⟨payload, rfl, ?_, fun r ↦ ?_, fun r hr ↦ ?_⟩
              · rw [List.flatMap_cons, hflat, hhead, hbytes, List.take_append_drop]
              · rw [hlens r]
                change (Function.update (payloads s.pbufs) q bytes r).length = _
                rcases eq_or_ne r q with rfl | hne
                · rw [Function.update_self, hbytes, List.length_take, Nat.min_comm, hmin]
                · rw [Function.update_of_ne hne]
              · rw [hrest r fun hmem ↦ hr (List.mem_cons_of_mem q hmem)]
                exact Function.update_of_ne (fun heq ↦ hr (List.mem_cons.2 (.inl heq))) ..

theorem run_pbufTake (s : World) {data : List UInt8} (h : Chain (links s.pbufs) (some q) cells)
    (htot : (s.pbufs q).totLen = data.length)
    (hlen : (cells.flatMap (payloads s.pbufs)).length = data.length) :
    Run (pbufTake (some q) data) s fun _ s' ↦ ∃ payload,
      s' = { s with pbufs := withPayloads s.pbufs payload } ∧
      cells.flatMap payload = data ∧
      ∀ q, (payload q).length = (payloads s.pbufs q).length := by
  have hfits : ¬ (s.pbufs q).totLen < data.length := htot ▸ lt_irrefl _
  rw [pbufTake, run_bind, run_of_eq (pbufAt_apply _ _), if_neg hfits]
  refine (run_pbufTakeLoop h hlen).mono ?_
  rintro _ _ ⟨payload, rfl, hflat, hlens, -⟩
  exact ⟨payload, rfl, hflat, hlens⟩

/-! ## Copying a received chain -/

/-- The state once a buffer was copied to the offset `dataLen`. -/
def World.copied (s : World) (q : Nat) (dataLen : UInt32) : World :=
  { s with
    tcpClientRecvbuf := overlay s.tcpClientRecvbuf dataLen.toNat
      (copyLen (.ofNat (s.pbufs q).len) dataLen).toNat fun i ↦ (s.pbufs q).payload.getD i 0 }

theorem copyLoop_none (dataLen : UInt32) : copyLoop none dataLen = pure () := by
  rw [copyLoop, repeatM_unfold]
  rfl

/-- One round of the copy. -/
theorem copyLoop_some (s : World) (q : Nat) (dataLen : UInt32) : copyLoop (some q) dataLen s =
    (if dataLen + .ofNat (s.pbufs q).len > .ofNat TCP_CLIENT_RX_BUFSIZE then pure ()
      else copyLoop (links s.pbufs q) (dataLen + .ofNat (s.pbufs q).len)) (s.copied q dataLen) := by
  conv_lhs => rw [copyLoop, repeatM_unfold]
  dsimp only
  rw [bind_assoc', bind_of_eq (pbufAt_apply _ _), bind_assoc', bind_of_eq (modify_apply _ _)]
  by_cases hlen : dataLen + .ofNat (s.pbufs q).len > .ofNat TCP_CLIENT_RX_BUFSIZE
  · rw [if_pos hlen, if_pos hlen]
    rfl
  · rw [if_neg hlen, if_neg hlen]
    rfl

/-- The copy changes the receive buffer only. -/
theorem run_copyLoop (h : Chain (links s.pbufs) p cells) (dataLen : UInt32) :
    Run (copyLoop p dataLen) s fun _ s' ↦ ∃ buf, s' = { s with tcpClientRecvbuf := buf } := by
  induction cells generalizing p s dataLen with
  | nil =>
      cases h with
      | nil =>
          rw [copyLoop_none]
          exact run_pure.2 ⟨_, rfl⟩
  | cons q cells ih =>
      cases h with
      | cons h =>
          rw [Run, copyLoop_some]
          by_cases hlen : dataLen + .ofNat (s.pbufs q).len > .ofNat TCP_CLIENT_RX_BUFSIZE
          · rw [if_pos hlen]
            exact run_pure.2 ⟨_, rfl⟩
          · rw [if_neg hlen]
            refine Run.mono (ih (s := s.copied q dataLen) h _) ?_
            rintro _ _ ⟨buf, rfl⟩
            exact ⟨buf, rfl⟩

end Stm32F1.Tcp
