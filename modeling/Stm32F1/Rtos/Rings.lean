import Stm32F1.Lib.Carousel
import Stm32F1.Lib.Path
import Stm32F1.Rtos.List

/-!
# The lists are rings

`Ringed` says that the links of a list lead through its items, in order, and back the
same way.  Every function of `list.c` then does to one ring what a `Carousel` says, and
nothing to the others.
-/

namespace Stm32F1.Rtos

open Prog

variable {ι κ : Type}

/-- The end marker and the items. -/
def nodes (l : κ) (xs : List ι) : List (Node ι κ) := .xListEnd l :: xs.map .item

/-- The list is the ring of the items, with the index at its place. -/
structure Ringed (m : Lists ι κ) (l : κ) (r : Carousel ι) : Prop where
  ring : Path m.pxNext (.xListEnd l) (r.items.map .item) (.xListEnd l)
  back : ∀ p ∈ nodes l r.items, m.pxPrevious (m.pxNext p) = p
  index : m.pxIndex l = (r.passed.head?.map Node.item).getD (.xListEnd l)
  contained : ∀ i, m.pxContainer i = some l ↔ i ∈ r.items
  nodup : r.items.Nodup
  number : m.uxNumberOfItems l = UInt32.ofNat r.items.length
  limit : m.xItemValue (.xListEnd l) = portMAX_DELAY

/-- Every list is a ring. -/
def Lists.Holds (m : Lists ι κ) (r : κ → Carousel ι) : Prop := ∀ l, Ringed m l (r l)

variable {m m' : Lists ι κ} {l l' : κ} {i j : ι} {r r' : Carousel ι} {p q : Node ι κ}
  {xs us vs : List ι}

theorem item_mem_nodes : .item i ∈ nodes l xs ↔ i ∈ xs := by
  simp [nodes]

theorem end_mem_nodes : .xListEnd l' ∈ nodes l xs ↔ l' = l := by
  simp [nodes]

theorem mem_nodes_append : p ∈ nodes l (us ++ vs) ↔ p ∈ nodes l us ∨ p ∈ vs.map Node.item := by
  simp [nodes, or_assoc]

theorem nodup_nodes (l : κ) (h : xs.Nodup) : (nodes l xs).Nodup := by
  refine List.nodup_cons.2 ⟨by simp, h.map ?_⟩
  intro i j hij
  exact Node.item.inj hij

/-- The last of some items, or the end marker. -/
theorem lastCell_map (l : κ) (us : List ι) :
    lastCell (.xListEnd l) (us.map Node.item) = (us.getLast?.map Node.item).getD (.xListEnd l) := by
  rw [lastCell, List.getLast?_map]

namespace Ringed

/-- A ring depends on its own nodes only. -/
theorem congr (h : Ringed m l r) (hnext : ∀ p ∈ nodes l r.items, m'.pxNext p = m.pxNext p)
    (hprevious : ∀ p ∈ nodes l r.items, m'.pxPrevious p = m.pxPrevious p)
    (hindex : m'.pxIndex l = m.pxIndex l)
    (hcontainer : ∀ i, m'.pxContainer i = some l ↔ m.pxContainer i = some l)
    (hnumber : m'.uxNumberOfItems l = m.uxNumberOfItems l)
    (hlimit : m'.xItemValue (.xListEnd l) = m.xItemValue (.xListEnd l)) : Ringed m' l r where
  ring := h.ring.congr hnext
  back p hp := by
    rw [hnext p hp, hprevious _ ?_]
    · exact h.back p hp
    · rcases h.ring.next_mem hp with heq | hmem
      · exact heq ▸ List.mem_cons_self
      · exact List.mem_cons_of_mem _ hmem
  index := hindex.trans h.index
  contained i := (hcontainer i).trans (h.contained i)
  nodup := h.nodup
  number := hnumber.trans h.number
  limit := hlimit.trans h.limit

theorem next_mem (h : Ringed m l r) (hp : p ∈ nodes l r.items) : m.pxNext p ∈ nodes l r.items := by
  rcases h.ring.next_mem hp with heq | hmem
  · exact heq ▸ List.mem_cons_self
  · exact List.mem_cons_of_mem _ hmem

/-- Different nodes lead to different ones. -/
theorem next_inj (h : Ringed m l r) (hp : p ∈ nodes l r.items) (hq : q ∈ nodes l r.items)
    (heq : m.pxNext p = m.pxNext q) : p = q := by
  rw [← h.back p hp, heq, h.back q hq]

/-- The node before some items leads to the first of them. -/
theorem next_last (h : Ringed m l r) (hitems : r.items = us ++ vs) :
    m.pxNext (lastCell (.xListEnd l) (us.map .item)) =
      (vs.head?.map Node.item).getD (.xListEnd l) := by
  have hring := h.ring
  rw [hitems, List.map_append] at hring
  rw [hring.behind.next_eq, List.head?_map]

theorem last_mem (hitems : r.items = us ++ vs) :
    lastCell (.xListEnd l) (us.map Node.item) ∈ nodes l r.items := by
  rw [hitems, mem_nodes_append]
  exact .inl lastCell_mem

/-- And back. -/
theorem previous_head (h : Ringed m l r) (hitems : r.items = us ++ vs) :
    m.pxPrevious ((vs.head?.map Node.item).getD (.xListEnd l)) =
      lastCell (.xListEnd l) (us.map .item) := by
  rw [← h.next_last hitems, h.back _ (last_mem hitems)]

/-- The nodes of two lists are different ones. -/
theorem disjoint (h : Ringed m l r) (h' : Ringed m l' r') (hl : l ≠ l') (hp : p ∈ nodes l r.items) :
    p ∉ nodes l' r'.items := by
  cases p with
  | item i =>
      rw [item_mem_nodes] at hp ⊢
      intro hp'
      exact hl (Option.some.inj (((h.contained i).2 hp).symm.trans ((h'.contained i).2 hp')))
  | xListEnd k =>
      rw [end_mem_nodes] at hp ⊢
      exact hp ▸ hl

end Ringed

/-! ## Inserting -/

variable [DecidableEq ι] [DecidableEq κ]

theorem insertBehind_next (p : Node ι κ) : (insertBehind l i p m).pxNext =
    Function.update (Function.update m.pxNext (.item i) (m.pxNext p)) p (.item i) := rfl

theorem insertBehind_previous (p : Node ι κ) : (insertBehind l i p m).pxPrevious =
    Function.update (Function.update m.pxPrevious (m.pxNext p) (.item i)) (.item i) p := by
  simp [insertBehind, Lists.setNext, Lists.setPrevious, Lists.setContainer, Lists.setNumber]

theorem insertBehind_container (p : Node ι κ) :
    (insertBehind l i p m).pxContainer = Function.update m.pxContainer i (some l) := rfl

theorem insertBehind_number (p : Node ι κ) : (insertBehind l i p m).uxNumberOfItems =
    Function.update m.uxNumberOfItems l (m.uxNumberOfItems l + 1) := rfl

/-- **An item inserted** behind the first ones of a ring. -/
theorem Ringed.insertBehind (h : Ringed m l r) (hi : i ∉ r.items) (hitems : r.items = us ++ vs)
    (hitems' : r'.items = us ++ i :: vs) (hhead : r'.passed.head? = r.passed.head?) :
    Ringed (insertBehind l i (lastCell (.xListEnd l) (us.map .item)) m) l r' := by
  have hmem := last_mem (l := l) hitems
  have hnodup := nodup_nodes l h.nodup
  have hnext := h.next_last hitems
  have hne {p : Node ι κ} (hp : p ∈ nodes l r.items) : p ≠ .item i := by
    rintro rfl
    exact hi (item_mem_nodes.1 hp)
  have hlast := hne hmem
  refine ⟨?_, ?_, ?_, ?_, ?_, ?_, h.limit⟩
  · have hring := h.ring
    rw [hitems, List.map_append] at hring
    rw [hitems', List.map_append, List.map_cons, insertBehind_next]
    rw [nodes, hitems, List.map_append, ← List.cons_append] at hnodup
    obtain ⟨hleft, -, hapart⟩ := List.nodup_append.1 hnodup
    refine hring.splice hleft ?_ ⟨Function.update_self .., ?_⟩
    · intro p hp hplast
      have hp' : p ∈ nodes l r.items := by
        rw [hitems, mem_nodes_append]
        exact .inl hp
      rw [Function.update_of_ne hplast, Function.update_of_ne (hne hp')]
    · refine hring.behind.enter ?_ ?_
      · rw [Function.update_of_ne hlast.symm, Function.update_self]
      · intro p hp
        have hp' : p ∈ nodes l r.items := by
          rw [hitems, mem_nodes_append]
          exact .inr hp
        rw [Function.update_of_ne (hapart _ lastCell_mem p hp).symm,
          Function.update_of_ne (hne hp')]
  · intro p hp
    rw [insertBehind_next, insertBehind_previous]
    have hp' : p = .item i ∨ p ∈ nodes l r.items := by
      rw [hitems', mem_nodes_append, List.map_cons, List.mem_cons] at hp
      rw [hitems, mem_nodes_append]
      tauto
    rcases hp' with rfl | hp'
    · have hq := hne (h.next_mem hmem)
      rw [Function.update_of_ne hlast.symm, Function.update_self, Function.update_of_ne hq,
        Function.update_self]
    · by_cases hplast : p = lastCell (.xListEnd l) (us.map .item)
      · rw [hplast, Function.update_self, Function.update_self]
      · have hq : m.pxNext p ≠ m.pxNext (lastCell (.xListEnd l) (us.map .item)) := fun heq ↦
          hplast (h.next_inj hp' hmem heq)
        rw [Function.update_of_ne hplast, Function.update_of_ne (hne hp'),
          Function.update_of_ne (hne (h.next_mem hp')), Function.update_of_ne hq, h.back p hp']
  · rw [hhead]
    exact h.index
  · intro j
    rw [insertBehind_container, hitems']
    by_cases hj : j = i
    · subst hj
      simp
    · rw [Function.update_of_ne hj, h.contained, hitems]
      simp [hj]
  · rw [hitems', List.nodup_middle, ← hitems]
    exact List.nodup_cons.2 ⟨hi, h.nodup⟩
  · rw [insertBehind_number, Function.update_self, h.number, hitems, hitems', List.length_append,
      List.length_append, List.length_cons, ← Nat.add_assoc,
      UInt32.ofNat_add (us.length + vs.length)]
    rfl

/-- Another ring is not touched. -/
theorem Ringed.insertBehind_other (h : Ringed m l r) (h' : Ringed m l' r') (hl : l ≠ l')
    (hi : m.pxContainer i = none) (hp : p ∈ nodes l r.items) :
    Ringed (Rtos.insertBehind l i p m) l' r' := by
  have hitem {q : Node ι κ} (hq : q ∈ nodes l' r'.items) : q ≠ .item i := by
    rintro rfl
    have hsome := (h'.contained i).2 (item_mem_nodes.1 hq)
    rw [hi] at hsome
    exact absurd hsome nofun
  have hout {q p : Node ι κ} (hq : q ∈ nodes l' r'.items) (hp : p ∈ nodes l r.items) : q ≠ p := by
    rintro rfl
    exact h.disjoint h' hl hp hq
  refine h'.congr ?_ ?_ rfl ?_ ?_ rfl
  · intro q hq
    rw [insertBehind_next, Function.update_of_ne (hout hq hp), Function.update_of_ne (hitem hq)]
  · intro q hq
    rw [insertBehind_previous, Function.update_of_ne (hitem hq),
      Function.update_of_ne (hout hq (h.next_mem hp))]
  · intro j
    rw [insertBehind_container]
    by_cases hj : j = i
    · subst hj
      simp [hl, hi]
    · rw [Function.update_of_ne hj]
  · rw [insertBehind_number, Function.update_of_ne hl.symm]

namespace Lists

variable {r : κ → Carousel ι}

/-- What inserting does to all the lists. -/
theorem Holds.insertBehind (h : m.Holds r) (hi : m.pxContainer i = none)
    (hitems : (r l).items = us ++ vs) (hitems' : r'.items = us ++ i :: vs)
    (hhead : r'.passed.head? = (r l).passed.head?) :
    (Rtos.insertBehind l i (lastCell (.xListEnd l) (us.map .item)) m).Holds
      (Function.update r l r') := by
  have hout : i ∉ (r l).items := fun hmem ↦ by
    rw [((h l).contained i).2 hmem] at hi
    exact absurd hi nofun
  intro k
  by_cases hk : k = l
  · subst hk
    rw [Function.update_self]
    exact (h k).insertBehind hout hitems hitems' hhead
  · rw [Function.update_of_ne hk]
    exact (h l).insertBehind_other (h k) (Ne.symm hk) hi (Ringed.last_mem hitems)

/-- `vListInsertEnd` inserts behind the node before the index. -/
theorem vListInsertEnd_eq (h : Ringed m l (r l)) (hi : i ∉ (r l).items) :
    vListInsertEnd l i m = Rtos.insertBehind l i (m.pxPrevious (m.pxIndex l)) m := by
  obtain ⟨us, vs, hitems, -, hhead, -⟩ := (r l).items_join i
  have hindex := h.index
  rw [hhead] at hindex
  have hprevious := h.previous_head hitems
  rw [← hindex] at hprevious
  have hne : m.pxIndex l ≠ .item i := by
    rw [hindex]
    cases vs with
    | nil => exact nofun
    | cons j vs =>
        rintro heq
        obtain rfl := Node.item.inj heq
        exact hi (hitems ▸ List.mem_append_right us List.mem_cons_self)
  have hnext : m.pxNext (m.pxPrevious (m.pxIndex l)) = m.pxIndex l := by
    rw [hprevious, h.next_last hitems, hindex]
  have hcommute := Function.update_comm hne (Node.item i) (m.pxPrevious (m.pxIndex l)) m.pxPrevious
  simp [vListInsertEnd, Rtos.insertBehind, setNext, setPrevious, setContainer, setNumber,
    hnext, hne, hcommute]

/-- **`vListInsertEnd`** lets an item join. -/
theorem Holds.vListInsertEnd (h : m.Holds r) (hi : m.pxContainer i = none) :
    (Rtos.vListInsertEnd l i m).Holds (Function.update r l ((r l).join i)) := by
  have hout : i ∉ (r l).items := fun hmem ↦ by
    rw [((h l).contained i).2 hmem] at hi
    exact absurd hi nofun
  obtain ⟨us, vs, hitems, hitems', hhead, hhead'⟩ := (r l).items_join i
  have hprevious : m.pxPrevious (m.pxIndex l) = lastCell (.xListEnd l) (us.map .item) := by
    rw [(h l).index, hhead, (h l).previous_head hitems]
  rw [vListInsertEnd_eq (h l) hout, hprevious]
  exact h.insertBehind hi hitems hitems' hhead'

end Lists

/-! ## Inserting by value -/

omit [DecidableEq ι] [DecidableEq κ] in
theorem insertionPoint_unfold (v : TickType) (p : Node ι κ) : insertionPoint v p m =
    if m.xItemValue (m.pxNext p) ≤ v then insertionPoint v (m.pxNext p) m else some (p, m) := by
  have : Nonempty (Node ι κ) := ⟨p⟩
  rw [insertionPoint, repeatM_unfold, bind_apply, bind_of_eq (read_apply _ _),
    bind_of_eq (read_apply _ _)]
  split <;> rfl

omit [DecidableEq ι] [DecidableEq κ] in
/-- The loop gets to the last node in front of the first item with a greater value. -/
theorem Ringed.insertionPoint_eq (h : Ringed m l r) {v : TickType} (hv : v ≠ portMAX_DELAY)
    (hitems : r.items = us ++ vs) :
    insertionPoint v (lastCell (.xListEnd l) (us.map .item)) m = some
      (lastCell (.xListEnd l) ((us ++ vs.takeWhile fun j ↦ m.xItemValue (.item j) ≤ v).map .item),
      m) := by
  induction vs generalizing us with
  | nil =>
      have hnext := h.next_last hitems
      rw [insertionPoint_unfold, hnext, if_neg]
      · simp
      · show ¬ m.xItemValue (.xListEnd l) ≤ v
        rw [h.limit, UInt32.not_le, portMAX_DELAY, UInt32.lt_iff_toNat_lt]
        have hlt := v.toNat_lt
        have hne : v.toNat ≠ 2 ^ 32 - 1 := fun heq ↦ hv (UInt32.toNat_inj.1 heq)
        show v.toNat < 2 ^ 32 - 1
        omega
  | cons j vs ih =>
      have hnext := h.next_last hitems
      have hitems' : r.items = (us ++ [j]) ++ vs := by simp [hitems]
      have hlast : lastCell (.xListEnd l) ((us ++ [j]).map Node.item) = .item j := by simp
      rw [insertionPoint_unfold, hnext]
      show (if m.xItemValue (.item j) ≤ v then insertionPoint v (.item j) m else _) = _
      by_cases hle : m.xItemValue (.item j) ≤ v
      · rw [if_pos hle, ← hlast, ih hitems', List.takeWhile_cons_of_pos (by simpa using hle)]
        simp
      · rw [if_neg hle, List.takeWhile_cons_of_neg (by simpa using hle), List.append_nil]

namespace Lists

variable {r : κ → Carousel ι}

/-- The items that `vListInsert` passes. -/
def upTo (m : Lists ι κ) (v : TickType) (j : ι) : Bool := m.xItemValue (.item j) ≤ v

/-- **`vListInsert`** returns, and has put the item behind the first ones with values up to its
own. -/
theorem Holds.run_vListInsert (h : m.Holds r) (hi : m.pxContainer i = none) :
    Run (vListInsert l i) m fun _ m' ↦
      m'.Holds (Function.update r l ((r l).place (m.upTo (m.xItemValue (.item i))) i)) ∧
      m'.xItemValue = m.xItemValue ∧ m'.pxContainer = Function.update m.pxContainer i (some l) := by
  have hitems' := (r l).items_place (m.upTo (m.xItemValue (.item i))) i
  have hhead' := (r l).head_place (m.upTo (m.xItemValue (.item i))) i
  have hitems : (r l).items = (r l).items.takeWhile (m.upTo (m.xItemValue (.item i))) ++
      (r l).items.dropWhile (m.upTo (m.xItemValue (.item i))) :=
    (List.takeWhile_append_dropWhile).symm
  have hresult := h.insertBehind hi hitems hitems' hhead'
  rw [vListInsert, run_bind, run_of_eq (read_apply _ _)]
  by_cases hmax : m.xItemValue (.item i) = portMAX_DELAY
  · have hall : (r l).items.takeWhile (m.upTo (m.xItemValue (.item i))) = (r l).items := by
      refine List.takeWhile_eq_self_iff.2 fun j _ ↦ ?_
      unfold upTo
      rw [hmax, decide_eq_true_iff, UInt32.le_iff_toNat_le]
      exact Nat.le_of_lt_succ (m.xItemValue (.item j)).toNat_lt
    have hnone : (r l).items = (r l).items ++ [] := by simp
    have hprevious : m.pxPrevious (.xListEnd l) = lastCell (.xListEnd l) ((r l).items.map .item) :=
      (h l).previous_head hnone
    rw [if_pos hmax, run_bind, run_of_eq (read_apply _ _), run_of_eq (modify_apply _ _)]
    rw [hprevious, ← hall]
    exact ⟨hresult, rfl, rfl⟩
  · have hfirst : (r l).items = [] ++ (r l).items := rfl
    have hloop : insertionPoint (m.xItemValue (.item i)) (.xListEnd l) m = some
        (lastCell (.xListEnd l) (((r l).items.takeWhile
          (m.upTo (m.xItemValue (.item i)))).map .item), m) :=
      (h l).insertionPoint_eq hmax hfirst
    rw [if_neg hmax, run_bind, run_of_eq hloop, run_of_eq (modify_apply _ _)]
    exact ⟨hresult, rfl, rfl⟩

end Lists

/-! ## Removing -/

theorem removeFrom_next (hi : m.pxNext (.item i) ≠ .item i) : (removeFrom l i m).pxNext =
    Function.update m.pxNext (m.pxPrevious (.item i)) (m.pxNext (.item i)) := by
  unfold removeFrom
  dsimp only
  split <;>
    simp [Lists.setNext, Lists.setPrevious, Lists.setContainer, Lists.setNumber, Lists.setIndex,
      hi.symm]

theorem removeFrom_previous : (removeFrom l i m).pxPrevious =
    Function.update m.pxPrevious (m.pxNext (.item i)) (m.pxPrevious (.item i)) := by
  unfold removeFrom
  dsimp only
  split <;> rfl

theorem removeFrom_index (hi : m.pxNext (.item i) ≠ .item i) : (removeFrom l i m).pxIndex =
    if m.pxIndex l = .item i then Function.update m.pxIndex l (m.pxPrevious (.item i))
    else m.pxIndex := by
  by_cases h : m.pxIndex l = .item i
  · simp [removeFrom, Lists.setNext, Lists.setPrevious, Lists.setContainer, Lists.setNumber,
      Lists.setIndex, h, hi.symm]
  · simp [removeFrom, Lists.setNext, Lists.setPrevious, Lists.setContainer, Lists.setNumber, h]

theorem removeFrom_container :
    (removeFrom l i m).pxContainer = Function.update m.pxContainer i none := by
  unfold removeFrom
  dsimp only
  split <;> rfl

theorem removeFrom_number : (removeFrom l i m).uxNumberOfItems =
    Function.update m.uxNumberOfItems l (m.uxNumberOfItems l - 1) := by
  unfold removeFrom
  dsimp only
  split <;> rfl

theorem removeFrom_value : (removeFrom l i m).xItemValue = m.xItemValue := by
  unfold removeFrom
  dsimp only
  split <;> rfl

namespace Ringed

omit [DecidableEq ι] [DecidableEq κ] in
/-- What is around an item of a ring. -/
theorem around (h : Ringed m l r) (hitems : r.items = us ++ i :: vs) :
    m.pxPrevious (.item i) = lastCell (.xListEnd l) (us.map .item) ∧
      m.pxNext (.item i) = (vs.head?.map Node.item).getD (.xListEnd l) := by
  refine ⟨h.previous_head hitems, ?_⟩
  have hitems' : r.items = (us ++ [i]) ++ vs := by simp [hitems]
  have hnext := h.next_last hitems'
  rwa [List.map_append, List.map_singleton, lastCell_concat] at hnext

omit [DecidableEq ι] [DecidableEq κ] in
theorem next_ne (h : Ringed m l r) (hi : i ∈ r.items) : m.pxNext (.item i) ≠ .item i := by
  obtain ⟨us, vs, hitems⟩ := List.append_of_mem hi
  rw [(h.around hitems).2]
  have hnodup := h.nodup
  rw [hitems] at hnodup
  cases vs with
  | nil => exact nofun
  | cons j vs =>
      rintro heq
      obtain rfl := Node.item.inj heq
      exact (List.nodup_cons.1 (List.nodup_append.1 hnodup).2.1).1 List.mem_cons_self

/-- **An item removed** from a ring. -/
theorem removeFrom (h : Ringed m l r) (hi : i ∈ r.items) :
    Ringed (removeFrom l i m) l (r.leave i) := by
  obtain ⟨us, vs, hitems⟩ := List.append_of_mem hi
  obtain ⟨hprevious, hnext⟩ := h.around hitems
  have hne := h.next_ne hi
  have hleave : (r.leave i).items = us ++ vs := by
    have hnodup := h.nodup
    rw [hitems] at hnodup
    have hout := (List.nodup_cons.1 (List.nodup_middle.1 hnodup)).1
    rw [List.mem_append, not_or] at hout
    rw [r.items_leave h.nodup, hitems, List.erase_append_right _ hout.1, List.erase_cons_head]
  have hitem : .item i ∈ nodes l r.items := item_mem_nodes.2 hi
  refine ⟨?_, ?_, ?_, ?_, ?_, ?_, ?_⟩
  · have hring := h.ring
    have hnodup := nodup_nodes l h.nodup
    rw [hitems, List.map_append] at hring
    rw [hleave, List.map_append, removeFrom_next hne, hprevious]
    rw [nodes, hitems, List.map_append, ← List.cons_append] at hnodup
    obtain ⟨hleft, -, hapart⟩ := List.nodup_append.1 hnodup
    refine hring.splice hleft ?_ ?_
    · intro p _ hplast
      exact Function.update_of_ne hplast ..
    · refine hring.behind.2.enter (Function.update_self ..) ?_
      intro p hp
      exact Function.update_of_ne (hapart _ lastCell_mem p (List.mem_cons_of_mem _ hp)).symm ..
  · intro p hp
    rw [removeFrom_next hne, removeFrom_previous, hprevious]
    have hp' : p ∈ nodes l r.items ∧ p ≠ .item i := by
      have hnodup := nodup_nodes l h.nodup
      rw [hleave] at hp
      rw [hitems] at hnodup ⊢
      constructor
      · rw [mem_nodes_append] at hp ⊢
        exact hp.imp_right (List.mem_cons_of_mem _)
      · rintro rfl
        rw [nodes, List.map_append, List.map_cons, ← List.cons_append] at hnodup
        rw [nodes, List.map_append, ← List.cons_append] at hp
        exact (List.nodup_cons.1 (List.nodup_middle.1 hnodup)).1 hp
    by_cases hplast : p = lastCell (.xListEnd l) (us.map .item)
    · rw [hplast, Function.update_self, Function.update_self]
    · have hq : m.pxNext p ≠ m.pxNext (.item i) := fun heq ↦ hp'.2 (h.next_inj hp'.1 hitem heq)
      rw [Function.update_of_ne hplast, Function.update_of_ne hq, h.back p hp'.1]
  · rw [removeFrom_index hne]
    have hindex := h.index
    by_cases hhead : r.passed.head? = some i
    · rw [hhead] at hindex
      have hself : m.pxIndex l = .item i := hindex
      rw [if_pos hself, Function.update_self, r.head_leave_self h.nodup hitems hhead, hprevious,
        lastCell_map]
    · have hother : m.pxIndex l ≠ .item i := by
        rw [hindex]
        cases hpassed : r.passed.head? with
        | none => exact nofun
        | some j =>
            rintro heq
            obtain rfl := Node.item.inj heq
            exact hhead hpassed
      rw [if_neg hother, r.head_leave_of_ne hhead, hindex]
  · intro j
    rw [removeFrom_container, r.items_leave h.nodup, h.nodup.mem_erase_iff]
    by_cases hj : j = i
    · subst hj
      simp
    · rw [Function.update_of_ne hj, h.contained]
      simp [hj]
  · rw [r.items_leave h.nodup]
    exact h.nodup.erase i
  · rw [removeFrom_number, Function.update_self, h.number, hitems, hleave, List.length_append,
      List.length_append, List.length_cons, ← Nat.add_assoc,
      UInt32.ofNat_add (us.length + vs.length)]
    exact UInt32.add_sub_cancel ..
  · rw [removeFrom_value]
    exact h.limit

/-- Another ring is not touched. -/
theorem removeFrom_other (h : Ringed m l r) (h' : Ringed m l' r') (hl : l ≠ l') (hi : i ∈ r.items) :
    Ringed (Rtos.removeFrom l i m) l' r' := by
  obtain ⟨us, vs, hitems⟩ := List.append_of_mem hi
  obtain ⟨hprevious, -⟩ := h.around hitems
  have hout {q p : Node ι κ} (hq : q ∈ nodes l' r'.items) (hp : p ∈ nodes l r.items) : q ≠ p := by
    rintro rfl
    exact h.disjoint h' hl hp hq
  refine h'.congr ?_ ?_ ?_ ?_ ?_ ?_
  · intro q hq
    rw [removeFrom_next (h.next_ne hi), hprevious,
      Function.update_of_ne (hout hq (last_mem hitems))]
  · intro q hq
    rw [removeFrom_previous,
      Function.update_of_ne (hout hq (h.next_mem (item_mem_nodes.2 hi)))]
  · rw [removeFrom_index (h.next_ne hi)]
    split
    · rw [Function.update_of_ne hl.symm]
    · rfl
  · intro j
    rw [removeFrom_container]
    by_cases hj : j = i
    · subst hj
      simp [(h.contained j).2 hi, hl]
    · rw [Function.update_of_ne hj]
  · rw [removeFrom_number, Function.update_of_ne hl.symm]
  · rw [removeFrom_value]

end Ringed

namespace Lists

variable {r : κ → Carousel ι}

/-- **`uxListRemove`** lets an item leave. -/
theorem Holds.uxListRemove (h : m.Holds r) (hi : m.pxContainer i = some l) :
    Run (Rtos.uxListRemove i) m fun n m' ↦ m'.Holds (Function.update r l ((r l).leave i)) ∧
      m'.xItemValue = m.xItemValue ∧ m'.pxContainer = Function.update m.pxContainer i none ∧
      n = UInt32.ofNat ((r l).leave i).items.length := by
  have hmem := ((h l).contained i).1 hi
  have hrun : Rtos.uxListRemove i m =
      some ((Rtos.removeFrom l i m).uxNumberOfItems l, Rtos.removeFrom l i m) := by
    simp [Rtos.uxListRemove, hi]
  have hring := (h l).removeFrom hmem
  rw [run_of_eq hrun]
  refine ⟨?_, removeFrom_value, removeFrom_container, hring.number⟩
  intro k
  by_cases hk : k = l
  · subst hk
    rw [Function.update_self]
    exact hring
  · rw [Function.update_of_ne hk]
    exact (h l).removeFrom_other (h k) (Ne.symm hk) hmem

/-! ## The next entry -/

omit [DecidableEq ι] in
/-- Only the index is moved. -/
theorem Holds.setIndex {r' : Carousel ι} (h : m.Holds r) (hitems : r'.items = (r l).items)
    (hindex : p = (r'.passed.head?.map Node.item).getD (.xListEnd l)) :
    (m.setIndex l p).Holds (Function.update r l r') := by
  intro k
  by_cases hk : k = l
  · subst hk
    rw [Function.update_self]
    refine ⟨?_, ?_, ?_, ?_, ?_, ?_, (h k).limit⟩
    · rw [hitems]
      exact (h k).ring
    · rw [hitems]
      exact (h k).back
    · rw [← hindex]
      exact Function.update_self ..
    · rw [hitems]
      exact (h k).contained
    · rw [hitems]
      exact (h k).nodup
    · rw [hitems]
      exact (h k).number
  · rw [Function.update_of_ne hk]
    exact (h k).congr (fun _ _ ↦ rfl) (fun _ _ ↦ rfl) (Function.update_of_ne hk ..)
      (fun _ ↦ Iff.rfl) rfl rfl

end Lists

namespace Ringed

omit [DecidableEq ι] [DecidableEq κ] in
/-- Behind the index is the first item ahead. -/
theorem next_index (h : Ringed m l r) :
    m.pxNext (m.pxIndex l) = (r.ahead.head?.map Node.item).getD (.xListEnd l) := by
  have hitems : r.items = r.passed.reverse ++ r.ahead := rfl
  have hindex : m.pxIndex l = lastCell (.xListEnd l) (r.passed.reverse.map .item) := by
    rw [lastCell_map, List.getLast?_reverse, h.index]
  rw [hindex, h.next_last hitems]

omit [DecidableEq ι] [DecidableEq κ] in
theorem next_end (h : Ringed m l r) :
    m.pxNext (.xListEnd l) = (r.items.head?.map Node.item).getD (.xListEnd l) := by
  have hitems : r.items = [] ++ r.items := rfl
  exact h.next_last hitems

end Ringed

namespace Lists

variable {r : κ → Carousel ι}

/-- **`listGET_OWNER_OF_NEXT_ENTRY`** gives the next one its turn. -/
theorem Holds.listGET_OWNER_OF_NEXT_ENTRY {r' : Carousel ι} (h : m.Holds r)
    (hnext : (r l).advance = some (i, r')) :
    Run (Rtos.listGET_OWNER_OF_NEXT_ENTRY l) m fun j m' ↦ j = i ∧
      m'.Holds (Function.update r l r') ∧ m'.xItemValue = m.xItemValue ∧
      m'.pxContainer = m.pxContainer := by
  have hhead := (r l).head_advance hnext
  have hresult : (m.setIndex l (.item i)).Holds (Function.update r l r') := by
    refine h.setIndex ((r l).items_advance hnext) ?_
    rw [hhead]
    rfl
  rw [Rtos.listGET_OWNER_OF_NEXT_ENTRY, run_bind, run_of_eq (modify_apply _ _), run_bind,
    run_of_eq (read_apply _ _), run_bind]
  have hfirst := (h l).next_index
  have hself (p : Node ι κ) : (m.setIndex l p).pxIndex l = p := Function.update_self ..
  rw [hself]
  cases hahead : (r l).ahead with
  | cons j js =>
      obtain rfl : j = i := by
        have hj := hnext
        unfold Carousel.advance at hj
        rw [hahead] at hj
        exact congrArg Prod.fst (Option.some.inj hj)
      rw [hahead] at hfirst
      replace hfirst : m.pxNext (m.pxIndex l) = .item j := hfirst
      rw [hfirst]
      refine run_when (fun heq ↦ absurd heq nofun) fun _ ↦ ?_
      rw [run_bind, run_of_eq (read_apply _ _), hself]
      exact run_pure.2 ⟨rfl, hresult, rfl, rfl⟩
  | nil =>
      rw [hahead] at hfirst
      replace hfirst : m.pxNext (m.pxIndex l) = .xListEnd l := hfirst
      have hitems : (r l).items = (r l).passed.reverse := by
        rw [Carousel.items, hahead, List.append_nil]
      have hstart : m.pxNext (.xListEnd l) = .item i := by
        rw [(h l).next_end, hitems]
        have hj := hnext
        unfold Carousel.advance at hj
        rw [hahead] at hj
        dsimp only at hj
        cases hrev : (r l).passed.reverse with
        | nil => simp [hrev] at hj
        | cons j js =>
            rw [hrev] at hj
            obtain rfl : j = i := congrArg Prod.fst (Option.some.inj hj)
            rfl
      rw [hfirst]
      refine run_when (fun _ ↦ ?_) fun hne ↦ absurd rfl hne
      rw [run_of_eq (modify_apply _ _), hself, run_bind, run_of_eq (read_apply _ _)]
      have htwice : (m.setIndex l (.xListEnd l)).setIndex l
          ((m.setIndex l (.xListEnd l)).pxNext (.xListEnd l)) = m.setIndex l (.item i) := by
        show (m.setIndex l (.xListEnd l)).setIndex l (m.pxNext (.xListEnd l)) = _
        rw [hstart]
        simp [Lists.setIndex]
      rw [htwice, hself]
      exact run_pure.2 ⟨rfl, hresult, rfl, rfl⟩

/-- An empty list has no next entry. -/
theorem Holds.next_empty (h : m.Holds r) (hempty : (r l).items = []) :
    Rtos.listGET_OWNER_OF_NEXT_ENTRY l m = none := by
  have hparts := List.append_eq_nil_iff.1 hempty
  have hindex := (h l).next_index
  have hend := (h l).next_end
  rw [hparts.2] at hindex
  rw [hempty] at hend
  replace hindex : m.pxNext (m.pxIndex l) = .xListEnd l := hindex
  replace hend : m.pxNext (.xListEnd l) = .xListEnd l := hend
  have hself (m : Lists ι κ) (p : Node ι κ) : (m.setIndex l p).pxIndex l = p :=
    Function.update_self ..
  have htwice : (m.setIndex l (.xListEnd l)).pxNext (.xListEnd l) = .xListEnd l := hend
  rw [Rtos.listGET_OWNER_OF_NEXT_ENTRY, bind_of_eq (modify_apply _ _), bind_of_eq (read_apply _ _),
    hself, hindex, decide_eq_true rfl, when_true, bind_of_eq (modify_apply _ _),
    bind_of_eq (read_apply _ _), hself, hself, htwice]

theorem Holds.advance_of_next (h : m.Holds r)
    (hrun : Rtos.listGET_OWNER_OF_NEXT_ENTRY l m = some (i, m')) :
    ∃ r', (r l).advance = some (i, r') := by
  cases hadvance : (r l).advance with
  | none =>
      rw [h.next_empty (Carousel.advance_eq_none.1 hadvance)] at hrun
      exact absurd hrun nofun
  | some turn =>
      obtain ⟨j, r'⟩ := turn
      obtain ⟨rfl, -⟩ := (h.listGET_OWNER_OF_NEXT_ENTRY hadvance).elim hrun
      exact ⟨r', rfl⟩

end Lists

end Stm32F1.Rtos
