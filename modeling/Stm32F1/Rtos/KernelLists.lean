import Stm32F1.Rtos.Kernel
import Stm32F1.Rtos.Rings

/-!
# The lists of the scheduler

What the scheduler does to its lists, said by the list that every item is in and by its
value; and the bits of `uxTopReadyPriority`.  The two lists of delayed tasks are sorted.
-/

namespace Stm32F1.Rtos

open Prog

/-! ## The bits of the ready priorities -/

/-- The bit of a priority is set. -/
def Marked (x : UInt32) (p : Priority) : Prop := x.toBitVec.getLsbD p = true

variable {x : UInt32} {p q : Priority}

theorem getLsbD_priorityBit (p q : Priority) :
    (priorityBit p).toBitVec.getLsbD q = decide (q = p) := by
  revert p q
  decide +kernel

theorem marked_record : Marked (x ||| priorityBit p) q ↔ Marked x q ∨ q = p := by
  unfold Marked
  rw [UInt32.toBitVec_or, BitVec.getLsbD_or, getLsbD_priorityBit]
  simp

theorem marked_reset : Marked (x &&& ~~~priorityBit p) q ↔ Marked x q ∧ q ≠ p := by
  unfold Marked
  rw [UInt32.toBitVec_and, BitVec.getLsbD_and, UInt32.toBitVec_not, BitVec.getLsbD_not,
    getLsbD_priorityBit]
  simp

/-- The highest priority whose bit is set is found, if there is one. -/
theorem highest (h : Marked x p) : ∃ hlt : (portGET_HIGHEST_PRIORITY x).toNat < 32,
    Marked x ⟨(portGET_HIGHEST_PRIORITY x).toNat, hlt⟩ ∧
      ∀ q, Marked x q → q ≤ ⟨(portGET_HIGHEST_PRIORITY x).toNat, hlt⟩ := by
  have hne : x.toBitVec ≠ 0 := fun h0 ↦ by
    unfold Marked at h
    rw [h0] at h
    simp at h
  have hclz : (clz x).toNat < 32 := BitVec.clz_lt_iff_ne_zero.2 hne
  have htop : (portGET_HIGHEST_PRIORITY x).toNat = 31 - (clz x).toNat := by
    rw [portGET_HIGHEST_PRIORITY, UInt32.toNat_sub_of_le _ _ (UInt32.le_iff_toNat_le.2 ?_)]
    · rfl
    · exact Nat.le_of_lt_succ hclz
  have hlt : (portGET_HIGHEST_PRIORITY x).toNat < 32 := by omega
  refine ⟨hlt, ?_, ?_⟩
  · show x.toBitVec.getLsbD (portGET_HIGHEST_PRIORITY x).toNat = true
    rw [htop]
    exact BitVec.getLsbD_true_clz_of_ne_zero (by decide) hne
  · intro q hq
    by_contra hgreater
    have hless : (portGET_HIGHEST_PRIORITY x).toNat < q := not_le.1 hgreater
    have hbound : x.toNat < 2 ^ (32 - (clz x).toNat) := BitVec.toNat_lt_two_pow_sub_clz
    have hpow : x.toNat < 2 ^ (q : Nat) :=
      hbound.trans_le (Nat.pow_le_pow_right (by decide) (by omega))
    have hbit : x.toNat.testBit q = true := hq
    rw [Nat.testBit_lt_two_pow hpow] at hbit
    exact Bool.false_ne_true hbit

/-! ## Sorted lists -/

variable {τ ε α : Type}

/-- The values of the items increase. -/
def Sorted (m : Lists (Item τ) (KernelList ε)) (xs : List (Item τ)) : Prop :=
  xs.Pairwise fun i j ↦ m.xItemValue (.item i) ≤ m.xItemValue (.item j)

/-- The lists are rings, and those of delayed tasks are sorted. -/
def Kernel.Rings (k : Kernel τ ε) : Prop := ∃ r, k.lists.Holds r ∧
  Sorted k.lists (r k.pxDelayedTaskList).items ∧
  Sorted k.lists (r k.pxOverflowDelayedTaskList).items

variable {k k' : Kernel τ ε} {m m' : Lists (Item τ) (KernelList ε)} {i j : Item τ}
  {l : KernelList ε}
  {v : TickType} {xs : List (Item τ)} {c : Carousel (Item τ)} {r : KernelList ε → Carousel (Item τ)}

theorem run_onLists {p : Prog (Lists (Item τ) (KernelList ε)) α} {Q : α → Kernel τ ε → Prop} :
    Run (onLists p) k Q ↔ Run p k.lists fun a m ↦ Q a { k with lists := m } := by
  unfold Run onLists
  constructor
  · rintro ⟨a, k', heq, hQ⟩
    obtain ⟨⟨b, m⟩, hp, hb⟩ := Option.map_eq_some_iff.1 heq
    obtain ⟨rfl, rfl⟩ := Prod.mk.inj hb
    exact ⟨b, m, hp, hQ⟩
  · rintro ⟨a, m, hp, hQ⟩
    exact ⟨a, _, by rw [hp]; rfl, hQ⟩

theorem Sorted.congr (h : Sorted m xs)
    (hv : ∀ i ∈ xs, m'.xItemValue (.item i) = m.xItemValue (.item i)) : Sorted m' xs := by
  refine List.Pairwise.imp_of_mem ?_ h
  intro i j hi hj hle
  rw [hv i hi, hv j hj]
  exact hle

/-- An item put behind those with values up to its own. -/
theorem Sorted.place (h : Sorted m c.items) :
    Sorted m (c.place (m.upTo (m.xItemValue (.item i))) i).items := by
  rw [c.items_place]
  generalize hp : m.upTo (m.xItemValue (.item i)) = p
  have hsplit : c.items.takeWhile p ++ c.items.dropWhile p = c.items :=
    List.takeWhile_append_dropWhile
  unfold Sorted at h ⊢
  rw [← hsplit] at h
  obtain ⟨htake, hdrop, hacross⟩ := List.pairwise_append.1 h
  have hbefore : ∀ j ∈ c.items.takeWhile p, m.xItemValue (.item j) ≤ m.xItemValue (.item i) := by
    intro j hj
    have hpj := List.mem_takeWhile_imp hj
    rw [← hp] at hpj
    simpa [Lists.upTo] using hpj
  have hbehind : ∀ j ∈ c.items.dropWhile p, m.xItemValue (.item i) ≤ m.xItemValue (.item j) := by
    intro j hj
    cases hlist : c.items.dropWhile p with
    | nil =>
        rw [hlist] at hj
        exact absurd hj List.not_mem_nil
    | cons a as =>
        have hne : c.items.dropWhile p ≠ [] := by
          rw [hlist]
          simp
        have hhead := List.head_dropWhile_not p hne
        have ha : m.xItemValue (.item i) < m.xItemValue (.item a) := by
          simp only [hlist, List.head_cons] at hhead
          rw [← hp] at hhead
          simpa [Lists.upTo] using hhead
        rw [hlist] at hj hdrop
        rcases List.mem_cons.1 hj with rfl | hj
        · exact UInt32.le_of_lt ha
        · exact UInt32.le_trans (UInt32.le_of_lt ha) ((List.pairwise_cons.1 hdrop).1 j hj)
  refine List.pairwise_append.2 ⟨htake, List.pairwise_cons.2 ⟨hbehind, hdrop⟩, ?_⟩
  intro j hj j' hj'
  rcases List.mem_cons.1 hj' with rfl | hj'
  · exact hbefore j hj
  · exact hacross j hj j' hj'

/-- The first item has the least value. -/
theorem Sorted.head_le (h : Sorted m (i :: xs)) (hj : j ∈ i :: xs) :
    m.xItemValue (.item i) ≤ m.xItemValue (.item j) := by
  rcases List.mem_cons.1 hj with rfl | hj
  · exact UInt32.le_refl _
  · exact (List.pairwise_cons.1 h).1 j hj

/-- The number of items is small enough to be counted. -/
theorem number_eq_zero_iff [Fintype τ] (hfew : Fintype.card (Item τ) < 2 ^ 32)
    (h : Ringed m l (r l)) : m.uxNumberOfItems l = 0 ↔ ∀ i, m.pxContainer i ≠ some l := by
  have hlt : (r l).items.length < 2 ^ 32 := h.nodup.length_le_card.trans_lt hfew
  rw [h.number, ← UInt32.toNat_inj, UInt32.toNat_ofNat_of_lt' hlt]
  show (r l).items.length = 0 ↔ _
  rw [List.length_eq_zero_iff, List.eq_nil_iff_forall_not_mem]
  exact forall_congr' fun i ↦ not_congr (h.contained i).symm

/-! ## What one call does -/

/-- Only the lists differ: where the items are, and their values. -/
structure Becomes (k k' : Kernel τ ε) (container : Item τ → Option (KernelList ε))
    (value : Node (Item τ) (KernelList ε) → TickType) : Prop where
  same : k' = { k with lists := k'.lists }
  rings : k'.Rings
  container : k'.lists.pxContainer = container
  value : k'.lists.xItemValue = value

namespace Kernel.Rings

theorem run_listLIST_IS_EMPTY [Fintype τ] (hfew : Fintype.card (Item τ) < 2 ^ 32) (h : k.Rings) :
    Run (listLIST_IS_EMPTY l) k fun b k' ↦
      k' = k ∧ (b = true ↔ ∀ i, k.lists.pxContainer i ≠ some l) := by
  obtain ⟨r, hholds, -⟩ := h
  refine run_read.2 ⟨rfl, ?_⟩
  rw [decide_eq_true_iff]
  exact number_eq_zero_iff hfew (hholds l)

/-- The first item of a list that is not empty, the one with the least value in the list of delayed
tasks. -/
theorem head (h : k.Rings) (hi : k.lists.pxContainer i = some l) : ∃ j,
    k.lists.pxNext (.xListEnd l) = .item j ∧ k.lists.pxContainer j = some l ∧
      (l = k.pxDelayedTaskList → ∀ i, k.lists.pxContainer i = some l →
        k.lists.xItemValue (.item j) ≤ k.lists.xItemValue (.item i)) := by
  obtain ⟨r, hholds, hdelayed, -⟩ := h
  have hmem := ((hholds l).contained i).1 hi
  have hnext := (hholds l).next_end
  cases hitems : (r l).items with
  | nil =>
      rw [hitems] at hmem
      exact absurd hmem List.not_mem_nil
  | cons j js =>
      rw [hitems] at hnext
      refine ⟨j, hnext, ((hholds l).contained j).2 (by rw [hitems]; exact List.mem_cons_self), ?_⟩
      rintro rfl i hi
      rw [hitems] at hdelayed
      have hi' := ((hholds k.pxDelayedTaskList).contained i).1 hi
      rw [hitems] at hi'
      exact hdelayed.head_le hi'

theorem run_listGET_OWNER_OF_HEAD_ENTRY (h : k.Rings) (hi : k.lists.pxContainer i = some l) :
    Run (listGET_OWNER_OF_HEAD_ENTRY l) k fun t k' ↦ k' = k ∧ ∃ j, t = j.pvOwner ∧
      k.lists.pxContainer j = some l ∧
      (l = k.pxDelayedTaskList → ∀ i, k.lists.pxContainer i = some l →
        k.lists.xItemValue (.item j) ≤ k.lists.xItemValue (.item i)) := by
  obtain ⟨j, hnext, hj, hleast⟩ := h.head hi
  have hrun : listGET_OWNER_OF_HEAD_ENTRY l k = some (j.pvOwner, k) := by
    rw [listGET_OWNER_OF_HEAD_ENTRY, hnext]
  exact (run_of_eq hrun).2 ⟨rfl, j, rfl, hj, hleast⟩

/-- The lists of delayed tasks after one list has been changed. -/
theorem change [DecidableEq ε] (hholds : m'.Holds (Function.update r l c))
    (hvalue : ∀ i, m'.xItemValue (.item i) = k.lists.xItemValue (.item i))
    (hc : l = k.pxDelayedTaskList ∨ l = k.pxOverflowDelayedTaskList → Sorted k.lists c.items)
    (hdelayed : Sorted k.lists (r k.pxDelayedTaskList).items)
    (hoverflow : Sorted k.lists (r k.pxOverflowDelayedTaskList).items) :
    Rings { k with lists := m' } := by
  refine ⟨_, hholds, ?_, ?_⟩
  · by_cases hl : k.pxDelayedTaskList = l
    · rw [← hl, Function.update_self]
      exact (hc (.inl hl.symm)).congr fun i _ ↦ hvalue i
    · rw [Function.update_of_ne hl]
      exact hdelayed.congr fun i _ ↦ hvalue i
  · by_cases hl : k.pxOverflowDelayedTaskList = l
    · rw [← hl, Function.update_self]
      exact (hc (.inr hl.symm)).congr fun i _ ↦ hvalue i
    · rw [Function.update_of_ne hl]
      exact hoverflow.congr fun i _ ↦ hvalue i

variable [DecidableEq τ] [DecidableEq ε]

theorem run_listRemove [Fintype τ] (hfew : Fintype.card (Item τ) < 2 ^ 32) (h : k.Rings)
    (hi : k.lists.pxContainer i = some l) : Run (listRemove i) k fun n k' ↦
      Becomes k k' (Function.update k.lists.pxContainer i none) k.lists.xItemValue ∧
      (n = 0 ↔ ∀ j, k'.lists.pxContainer j ≠ some l) := by
  obtain ⟨r, hholds, hdelayed, hoverflow⟩ := h
  rw [listRemove, run_onLists]
  refine (hholds.uxListRemove hi).mono ?_
  rintro n m' ⟨hholds', hvalue, hcontainer, hn⟩
  have hsorted {l' : KernelList ε} (hs : Sorted k.lists (r l').items) :
      Sorted k.lists ((r l').leave i).items := by
    rw [(r l').items_leave (hholds l').nodup]
    exact List.Pairwise.sublist List.erase_sublist hs
  refine ⟨⟨rfl, change hholds' (fun _ ↦ by rw [hvalue]) ?_ hdelayed hoverflow, hcontainer, hvalue⟩,
    ?_⟩
  · rintro (rfl | rfl)
    · exact hsorted hdelayed
    · exact hsorted hoverflow
  · have hring := hholds' l
    rw [Function.update_self] at hring
    have hlt : ((r l).leave i).items.length < 2 ^ 32 := hring.nodup.length_le_card.trans_lt hfew
    rw [hn, ← UInt32.toNat_inj, UInt32.toNat_ofNat_of_lt' hlt]
    show ((r l).leave i).items.length = 0 ↔ _
    rw [List.length_eq_zero_iff, List.eq_nil_iff_forall_not_mem]
    exact forall_congr' fun j ↦ not_congr (hring.contained j).symm

theorem run_listInsertEnd (h : k.Rings) (hi : k.lists.pxContainer i = none)
    (hl : l ≠ k.pxDelayedTaskList ∧ l ≠ k.pxOverflowDelayedTaskList) :
    Run (listInsertEnd l i) k fun _ k' ↦
      Becomes k k' (Function.update k.lists.pxContainer i (some l)) k.lists.xItemValue := by
  obtain ⟨r, hholds, hdelayed, hoverflow⟩ := h
  rw [listInsertEnd, run_onLists, run_of_eq (modify_apply _ _)]
  refine ⟨rfl, change (hholds.vListInsertEnd hi) (fun _ ↦ rfl) ?_ hdelayed hoverflow, rfl, rfl⟩
  rintro (heq | heq)
  · exact absurd heq hl.1
  · exact absurd heq hl.2

theorem run_listInsert (h : k.Rings) (hi : k.lists.pxContainer i = none) :
    Run (listInsert l i) k fun _ k' ↦
      Becomes k k' (Function.update k.lists.pxContainer i (some l)) k.lists.xItemValue := by
  obtain ⟨r, hholds, hdelayed, hoverflow⟩ := h
  rw [listInsert, run_onLists]
  refine (hholds.run_vListInsert hi).mono ?_
  rintro _ m' ⟨hholds', hvalue, hcontainer⟩
  refine ⟨rfl, change hholds' (fun _ ↦ by rw [hvalue]) ?_ hdelayed hoverflow, hcontainer, hvalue⟩
  rintro (rfl | rfl)
  · exact hdelayed.place
  · exact hoverflow.place

/-- The value of an item that is not in a list of delayed tasks. -/
theorem run_listSET_LIST_ITEM_VALUE (h : k.Rings)
    (hi : k.lists.pxContainer i ≠ some k.pxDelayedTaskList ∧
      k.lists.pxContainer i ≠ some k.pxOverflowDelayedTaskList) :
    Run (listSET_LIST_ITEM_VALUE i v) k fun _ k' ↦
      Becomes k k' k.lists.pxContainer (Function.update k.lists.xItemValue (.item i) v) := by
  obtain ⟨r, hholds, hdelayed, hoverflow⟩ := h
  rw [listSET_LIST_ITEM_VALUE, run_onLists, run_of_eq (modify_apply _ _)]
  have hother {l : KernelList ε} (hl : k.lists.pxContainer i ≠ some l) :
      ∀ j ∈ (r l).items, (k.lists.setValue (.item i) v).xItemValue (.item j) =
        k.lists.xItemValue (.item j) := by
    intro j hj
    have hne : (Node.item j : Node (Item τ) (KernelList ε)) ≠ .item i := by
      rintro heq
      obtain rfl := Node.item.inj heq
      exact hl (((hholds l).contained _).2 hj)
    exact Function.update_of_ne hne ..
  refine ⟨rfl, ⟨r, ?_, ?_, ?_⟩, rfl, rfl⟩
  · intro l
    have hend : (Node.xListEnd l : Node (Item τ) (KernelList ε)) ≠ .item i := by simp
    exact (hholds l).congr (fun _ _ ↦ rfl) (fun _ _ ↦ rfl) rfl (fun _ ↦ Iff.rfl) rfl
      (Function.update_of_ne hend v k.lists.xItemValue)
  · exact hdelayed.congr (hother hi.1)
  · exact hoverflow.congr (hother hi.2)

/-- The next entry of a list that is not empty. -/
theorem run_listGET_OWNER_OF_NEXT_ENTRY (h : k.Rings) (hi : k.lists.pxContainer i = some l) :
    Run (onLists (listGET_OWNER_OF_NEXT_ENTRY l)) k fun j k' ↦
      Becomes k k' k.lists.pxContainer k.lists.xItemValue ∧ k.lists.pxContainer j = some l := by
  obtain ⟨r, hholds, hdelayed, hoverflow⟩ := h
  have hmem := ((hholds l).contained i).1 hi
  cases hadvance : (r l).advance with
  | none =>
      rw [Carousel.advance_eq_none.1 hadvance] at hmem
      exact absurd hmem List.not_mem_nil
  | some turn =>
      obtain ⟨j, c⟩ := turn
      have hitems := Carousel.items_advance hadvance
      have hhead := Carousel.head_advance hadvance
      rw [run_onLists]
      refine (hholds.listGET_OWNER_OF_NEXT_ENTRY hadvance).mono ?_
      rintro _ m' ⟨rfl, hholds', hvalue, hcontainer⟩
      refine ⟨⟨rfl, change hholds' (fun _ ↦ by rw [hvalue]) ?_ hdelayed hoverflow, hcontainer,
        hvalue⟩, ?_⟩
      · rw [hitems]
        rintro (rfl | rfl)
        · exact hdelayed
        · exact hoverflow
      · refine ((hholds l).contained _).2 ?_
        rw [← hitems, Carousel.mem_items]
        exact .inl (List.mem_of_mem_head? hhead)

end Kernel.Rings

end Stm32F1.Rtos
