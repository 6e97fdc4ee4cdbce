import Stm32F1.Lib.Loop
import Stm32F1.Lib.Linked

/-!
# Reference counted chains

Cells that are linked into chains and counted: a cell is given back when its
last reference is released, and with it the reference that it had on the next
one.  The cells may be part of any state; `Counted` says where the links and the
counts are in it.
-/

namespace Stm32F1

open Prog

/-- Links, and the counts of the references, in a state. -/
structure Counted (σ : Type) where
  next : σ → Nat → Option Nat
  refs : σ → Nat → UInt16
  put : (Nat → UInt16) → σ → σ
  refs_put : ∀ ref s, refs (put ref s) = ref
  put_put : ∀ ref ref' s, put ref (put ref' s) = put ref s
  put_refs : ∀ s, put (refs s) s = s
  next_put : ∀ ref s, next (put ref s) = next s

namespace Counted

variable {σ : Type} {c : Counted σ} {loop : Option Nat → Prog σ Unit} {s : σ} {p : Option Nat}
  {cells : List Nat}

/-- A loop that releases a reference on a cell, and goes on behind a cell that has none left. -/
structure Releases (c : Counted σ) (loop : Option Nat → Prog σ Unit) : Prop where
  null : loop none = pure ()
  cell : ∀ s q, loop (some q) s = loop (if c.refs s q - 1 = 0 then c.next s q else none)
    (c.put (Function.update (c.refs s) q (c.refs s q - 1)) s)

/-- The round of such a loop. -/
theorem releases_repeatM {body : Option Nat → Prog σ (Option Nat ⊕ Unit)}
    (hnull : body none = pure (.inr ()))
    (hcell : ∀ s q, body (some q) s =
      some (.inl (if c.refs s q - 1 = 0 then c.next s q else none),
        c.put (Function.update (c.refs s) q (c.refs s q - 1)) s)) :
    c.Releases (repeatM body) where
  null := by
    rw [repeatM_unfold, hnull]
    rfl
  cell s q := by
    conv_lhs => rw [repeatM_unfold, bind_of_eq (hcell s q)]
    rfl

/-- **Releasing a reference** changes counts only, and only along the chain.  A chain whose cells
are referenced once is given back as a whole. -/
theorem Releases.run (h : c.Releases loop) (hchain : Chain (c.next s) p cells) :
    Run (loop p) s fun _ s' ↦ ∃ ref, s' = c.put ref s ∧
      (∀ q, p = some q → ref q = c.refs s q - 1) ∧ (∀ q ∉ cells, ref q = c.refs s q) ∧
      ((∀ q ∈ cells, c.refs s q = 1) → ∀ q ∈ cells, ref q = 0) := by
  induction cells generalizing p s with
  | nil =>
      cases hchain with
      | nil =>
          rw [h.null]
          exact run_pure.2 ⟨c.refs s, (c.put_refs s).symm, fun _ hq ↦ (nomatch hq), fun _ _ ↦ rfl,
            fun _ _ hq ↦ absurd hq List.not_mem_nil⟩
  | cons q cells ih =>
      cases hchain with
      | cons hchain =>
          have hq := hchain.notMem_tail
          rw [Run, h.cell]
          by_cases hzero : c.refs s q - 1 = 0
          · rw [if_pos hzero]
            have hrest : Chain (c.next (c.put (Function.update (c.refs s) q (c.refs s q - 1)) s))
                (c.next s q) cells := by
              rw [c.next_put]
              exact hchain
            refine Run.mono (ih hrest) ?_
            rintro _ _ ⟨ref, rfl, -, hkept, hall⟩
            rw [c.refs_put] at hkept hall
            have hhead : ref q = c.refs s q - 1 := by
              rw [hkept q hq, Function.update_self]
            refine ⟨ref, c.put_put .., ?_, ?_, fun hone r hr ↦ ?_⟩
            · rintro _ ⟨⟩
              exact hhead
            · intro r hr
              rw [hkept r (fun hmem ↦ hr (List.mem_cons_of_mem q hmem)),
                Function.update_of_ne (fun heq ↦ hr (List.mem_cons.2 (.inl heq)))]
            · rcases List.mem_cons.1 hr with rfl | hr
              · rw [hhead, hzero]
              · refine hall (fun r' hr' ↦ ?_) r hr
                rw [Function.update_of_ne (ne_of_mem_of_not_mem hr' hq)]
                exact hone r' (List.mem_cons_of_mem q hr')
          · rw [if_neg hzero, h.null]
            refine run_pure.2 ⟨_, rfl, ?_, ?_, fun hone _ _ ↦ ?_⟩
            · rintro _ ⟨⟩
              rw [Function.update_self]
            · intro r hr
              rw [Function.update_of_ne (fun heq ↦ hr (List.mem_cons.2 (.inl heq)))]
            · rw [hone q (List.mem_cons_self ..)] at hzero
              exact absurd rfl hzero

end Counted

end Stm32F1
