import Stm32F1.Lib.History
import Stm32F1.Rtos.Rings

/-!
# Every sequence of calls

Whatever is inserted, removed and given its turn, and in whatever order, the lists in
memory are those that the calls say.  An item that stays in a list gets its turn, also
while others come and go.
-/

namespace Stm32F1.Rtos

open Prog

variable {ι κ : Type} [DecidableEq ι] [DecidableEq κ]

inductive ListEvent (ι κ : Type)
  | value (i : ι) (v : TickType)
  | insertEnd (l : κ) (i : ι)
  | insert (l : κ) (i : ι)
  | remove (i : ι)
  | next (l : κ) (i : ι)
deriving DecidableEq

/-! ## Memory -/

namespace Lists

/-- Every list and every item has been initialised. -/
def Starts (value : ι → TickType) (m : Lists ι κ) : Prop :=
  (∀ l, vListInitialise l m = m) ∧ (∀ i, vListInitialiseItem i m = m) ∧
    ∀ i, m.xItemValue (.item i) = value i

/-- Items are inserted that are in no list. -/
inductive Step : Lists ι κ → ListEvent ι κ → Lists ι κ → Prop
  | value {m : Lists ι κ} {i : ι} {v : TickType} : Step m (.value i v) (m.setValue (.item i) v)
  | insertEnd {m : Lists ι κ} {l : κ} {i : ι} : m.pxContainer i = none →
      Step m (.insertEnd l i) (vListInsertEnd l i m)
  | insert {m m' : Lists ι κ} {l : κ} {i : ι} : m.pxContainer i = none →
      vListInsert l i m = some ((), m') → Step m (.insert l i) m'
  | remove {m m' : Lists ι κ} {i : ι} {n : UInt32} : uxListRemove i m = some (n, m') →
      Step m (.remove i) m'
  | next {m m' : Lists ι κ} {l : κ} {i : ι} : listGET_OWNER_OF_NEXT_ENTRY l m = some (i, m') →
      Step m (.next l i) m'

end Lists

/-! ## What the calls say -/

/-- The order of every list, and the values. -/
structure Orders (ι κ : Type) where
  ring : κ → Carousel ι
  value : ι → TickType

namespace Orders

/-- Every list is empty. -/
def initial (value : ι → TickType) : Orders ι κ := ⟨fun _ ↦ .empty, value⟩

def next (a : Orders ι κ) : ListEvent ι κ → Orders ι κ
  | .value i v => { a with value := Function.update a.value i v }
  | .insertEnd l i => { a with ring := Function.update a.ring l ((a.ring l).join i) }
  | .insert l i => { a with
      ring := Function.update a.ring l ((a.ring l).place (fun j ↦ a.value j ≤ a.value i) i) }
  | .remove i => { a with ring := fun l ↦ (a.ring l).leave i }
  | .next l _ => { a with
      ring := Function.update a.ring l (((a.ring l).advance.map Prod.snd).getD (a.ring l)) }

end Orders

/-- Memory holds the lists in this order. -/
structure Lists.Refines (m : Lists ι κ) (a : Orders ι κ) : Prop where
  holds : m.Holds a.ring
  value : ∀ i, m.xItemValue (.item i) = a.value i

variable {m m' : Lists ι κ} {a : Orders ι κ} {e : ListEvent ι κ} {l : κ} {i j : ι}
  {value : ι → TickType} {history recent past : List (ListEvent ι κ)} {N : Nat}

omit [DecidableEq ι] [DecidableEq κ] in
theorem Lists.Refines.contained (h : m.Refines a) :
    m.pxContainer i = some l ↔ i ∈ (a.ring l).items := (h.holds l).contained i

theorem Lists.Starts.refines (h : Lists.Starts value m) : m.Refines (.initial value) := by
  obtain ⟨hlists, hitems, hvalue⟩ := h
  refine ⟨fun l ↦ ?_, hvalue⟩
  have hnext : m.pxNext (.xListEnd l) = .xListEnd l := by
    rw [← hlists l]
    exact Function.update_self ..
  have hprevious : m.pxPrevious (.xListEnd l) = .xListEnd l := by
    rw [← hlists l]
    exact Function.update_self ..
  refine ⟨hnext, ?_, ?_, ?_, List.nodup_nil, ?_, ?_⟩
  · intro p hp
    obtain rfl : p = .xListEnd l := by
      simpa [nodes, Orders.initial] using hp
    rw [hnext, hprevious]
  · rw [← hlists l]
    exact Function.update_self ..
  · intro i
    rw [← hitems i]
    simp [vListInitialiseItem, Lists.setContainer, Orders.initial]
  · rw [← hlists l]
    exact Function.update_self ..
  · rw [← hlists l]
    exact Function.update_self ..

omit [DecidableEq κ] in
theorem Carousel.leave_of_not_mem {r : Carousel ι} (h : i ∉ r.items) : r.leave i = r := by
  rw [Carousel.mem_items, not_or] at h
  unfold Carousel.leave
  rw [List.erase_of_not_mem h.1, List.erase_of_not_mem h.2]

/-- **One call** does to memory what it says. -/
theorem Lists.Step.refines (hstep : Lists.Step m e m') (h : m.Refines a) :
    m'.Refines (a.next e) := by
  cases hstep with
  | @value i v =>
      refine ⟨fun l ↦ ?_, fun j ↦ ?_⟩
      · have hend : (Node.xListEnd l : Node ι κ) ≠ .item i := by simp
        exact (h.holds l).congr (fun _ _ ↦ rfl) (fun _ _ ↦ rfl) rfl (fun _ ↦ Iff.rfl) rfl
          (Function.update_of_ne hend v m.xItemValue)
      · show Function.update m.xItemValue (.item i) v (.item j) = Function.update a.value i v j
        by_cases hj : j = i
        · subst hj
          rw [Function.update_self, Function.update_self]
        · have hne : (Node.item j : Node ι κ) ≠ .item i := fun heq ↦ hj (Node.item.inj heq)
          rw [Function.update_of_ne hne, Function.update_of_ne hj, h.value]
  | insertEnd hi => exact ⟨h.holds.vListInsertEnd hi, h.value⟩
  | @insert _ l i hi hrun =>
      obtain ⟨hholds, hvalue, -⟩ := (h.holds.run_vListInsert hi).elim hrun
      have hupTo : m.upTo (m.xItemValue (.item i)) = fun j ↦ decide (a.value j ≤ a.value i) := by
        funext j
        rw [Lists.upTo, h.value, h.value]
      rw [hupTo] at hholds
      refine ⟨hholds, fun j ↦ ?_⟩
      rw [hvalue]
      exact h.value j
  | @remove _ i n hrun =>
      cases hi : m.pxContainer i with
      | none =>
          rw [uxListRemove, hi] at hrun
          exact absurd hrun (by simp)
      | some l =>
          obtain ⟨hholds, hvalue, -⟩ := (h.holds.uxListRemove hi).elim hrun
          have hring : Function.update a.ring l ((a.ring l).leave i) =
              fun k ↦ (a.ring k).leave i := by
            funext k
            by_cases hk : k = l
            · subst hk
              rw [Function.update_self]
            · have hout : i ∉ (a.ring k).items := fun hmem ↦
                hk (Option.some.inj ((h.contained.2 hmem).symm.trans hi))
              rw [Function.update_of_ne hk, Carousel.leave_of_not_mem hout]
          rw [hring] at hholds
          refine ⟨hholds, fun j ↦ ?_⟩
          rw [hvalue]
          exact h.value j
  | @next _ l i hrun =>
      obtain ⟨r', hadvance⟩ := h.holds.advance_of_next hrun
      obtain ⟨-, hholds, hvalue, -⟩ := (h.holds.listGET_OWNER_OF_NEXT_ENTRY hadvance).elim hrun
      refine ⟨?_, fun j ↦ ?_⟩
      · show m'.Holds (Function.update a.ring l _)
        rw [hadvance]
        exact hholds
      · rw [hvalue]
        exact h.value j

/-- What the calls so far say. -/
def ordered (κ : Type) [DecidableEq κ] (value : ι → TickType) (history : List (ListEvent ι κ)) :
    Orders ι κ :=
  after Orders.next (.initial value) history

theorem refines_ordered (h : Reaches (Lists.Starts value) Lists.Step history m) :
    m.Refines (ordered κ value history) := by
  induction h with
  | start hs => exact hs.refines
  | step _ hstep ih => exact hstep.refines ih

/-- What is to be expected of the lists. -/
structure Lists.Sound (m : Lists ι κ) (a : Orders ι κ) : Prop where
  /-- The links lead through the items and back. -/
  forwards : ∀ l, Path m.pxNext (.xListEnd l) ((a.ring l).items.map .item) (.xListEnd l)
  backwards : ∀ l, Path m.pxPrevious (.xListEnd l) ((a.ring l).items.reverse.map .item)
    (.xListEnd l)
  number : ∀ l, m.uxNumberOfItems l = UInt32.ofNat (a.ring l).items.length
  container : ∀ i l, m.pxContainer i = some l ↔ i ∈ (a.ring l).items
  /-- `vListInsert` ends. -/
  insert : ∀ l i, m.pxContainer i = none → ∃ m', vListInsert l i m = some ((), m')
  /-- The turn goes to the item behind the one that had it last, and from the last item back to the
  first. -/
  next : ∀ l, (a.ring l).items ≠ [] → ∃ i ∈ (a.ring l).items, ∃ r m',
    (a.ring l).advance = some (i, r) ∧ listGET_OWNER_OF_NEXT_ENTRY l m = some (i, m')

theorem Lists.Refines.sound (h : m.Refines a) : m.Sound a where
  forwards l := (h.holds l).ring
  backwards l := by
    rw [List.map_reverse]
    exact (h.holds l).ring.reverse (h.holds l).back
  number l := (h.holds l).number
  container i l := h.contained
  insert l i hi := by
    obtain ⟨_, m', hrun, -⟩ := h.holds.run_vListInsert (l := l) hi
    exact ⟨m', hrun⟩
  next l hne := by
    cases hadvance : (a.ring l).advance with
    | none => exact absurd (Carousel.advance_eq_none.1 hadvance) hne
    | some turn =>
        obtain ⟨i, r'⟩ := turn
        obtain ⟨_, m', hrun, rfl, -⟩ := h.holds.listGET_OWNER_OF_NEXT_ENTRY hadvance
        have hhead := Carousel.head_advance hadvance
        refine ⟨_, ?_, r', m', rfl, hrun⟩
        rw [← Carousel.items_advance hadvance, Carousel.mem_items]
        exact .inl (List.mem_of_mem_head? hhead)

/-- **After every sequence of calls** the lists in memory are those that the calls say. -/
theorem lists_sound (h : Reaches (Lists.Starts value) Lists.Step history m) :
    m.Sound (ordered κ value history) :=
  (refines_ordered h).sound

/-- Lists that have been initialised. -/
def Lists.initial (ι κ : Type) : Lists ι κ where
  xItemValue _ := portMAX_DELAY
  pxNext p := p
  pxPrevious p := p
  pxContainer _ := none
  pxIndex l := .xListEnd l
  uxNumberOfItems _ := 0

theorem Lists.starts_initial : (Lists.initial ι κ).Starts fun _ ↦ portMAX_DELAY := by
  refine ⟨fun l ↦ ?_, fun i ↦ ?_, fun _ ↦ rfl⟩
  · simp [vListInitialise, setIndex, setValue, setNext, setPrevious, setNumber, initial]
  · simp [vListInitialiseItem, setContainer, initial]

/-- Two items that take turns. -/
theorem reaches_alternating : ∃ m, Reaches (Lists.Starts fun _ ↦ portMAX_DELAY) Lists.Step
    [.next () true, .next () false, .next () true, .insertEnd () false, .insertEnd () true] m := by
  have h0 : Reaches (Lists.Starts fun _ ↦ portMAX_DELAY) Lists.Step [] (Lists.initial Bool Unit) :=
    .start Lists.starts_initial
  have h1 := h0.step (.insertEnd (l := ()) (i := true) rfl)
  have h2 := h1.step (.insertEnd (l := ()) (i := false) rfl)
  exact ⟨_, ((h2.step (.next rfl)).step (.next rfl)).step (.next rfl)⟩

theorem lists_sound_alternating :
    ∃ m : Lists Bool Unit, m.Sound (ordered Unit (fun _ ↦ portMAX_DELAY)
    [.next () true, .next () false, .next () true, .insertEnd () false, .insertEnd () true]) := by
  obtain ⟨m, hm⟩ := reaches_alternating
  exact ⟨m, lists_sound hm⟩

/-! ## Everyone's turn -/

/-- A turn that the list gives. -/
def ListEvent.gives (l : κ) : ListEvent ι κ → Bool
  | .next k _ => k = l
  | _ => false

/-- How many turns the list has given. -/
def turns (l : κ) (history : List (ListEvent ι κ)) : Nat := history.countP (ListEvent.gives l)

/-- The list is never longer than `N` from `past` on. -/
def Short (value : ι → TickType) (l : κ) (N : Nat) (recent past : List (ListEvent ι κ)) : Prop :=
  ∀ now, past <:+ now → now <:+ recent ++ past → ((ordered κ value now).ring l).items.length ≤ N

/-- One call does not put an item that stays off, and another one's turn brings its own closer. -/
theorem Lists.Refines.wait_next (h : m.Refines a) (hstep : Lists.Step m e m')
    (hi : i ∈ (a.ring l).items) (hshort : (a.ring l).items.length ≤ N) (hstay : e ≠ .remove i)
    (hsorted : ∀ j, e ≠ .insert l j) (hnever : e ≠ .next l i) :
    i ∈ ((a.next e).ring l).items ∧
      ((a.next e).ring l).wait N i + turns l [e] ≤ (a.ring l).wait N i := by
  cases hstep with
  | value => exact ⟨hi, le_rfl⟩
  | @insertEnd k j hj =>
      by_cases hk : l = k
      · subst hk
        obtain ⟨us, vs, hitems, hitems', -⟩ := (a.ring l).items_join j
        simp only [Orders.next, Function.update_self]
        refine ⟨?_, Carousel.wait_join hi⟩
        rw [hitems] at hi
        rw [hitems']
        simp only [List.mem_append, List.mem_cons] at hi ⊢
        tauto
      · simp only [Orders.next, Function.update_of_ne hk]
        exact ⟨hi, le_rfl⟩
  | @insert _ k j _ _ =>
      have hk : l ≠ k := fun hk ↦ hsorted j (hk ▸ rfl)
      simp only [Orders.next, Function.update_of_ne hk]
      exact ⟨hi, le_rfl⟩
  | @remove _ j _ _ =>
      have hne : j ≠ i := fun hj ↦ hstay (hj ▸ rfl)
      refine ⟨?_, Carousel.wait_leave hne⟩
      show i ∈ ((a.ring l).leave j).items
      rw [Carousel.items_leave (h.holds l).nodup]
      exact (List.mem_erase_of_ne hne.symm).2 hi
  | @next _ k j hrun =>
      by_cases hk : l = k
      · subst hk
        have hne : j ≠ i := fun hj ↦ hnever (hj ▸ rfl)
        obtain ⟨r', hadvance⟩ := h.holds.advance_of_next hrun
        have hring : (a.next (.next l j)).ring l = r' := by
          simp [Orders.next, hadvance]
        rw [hring, Carousel.items_advance hadvance]
        refine ⟨hi, ?_⟩
        have hless := Carousel.wait_advance hi hshort hadvance hne
        have hone : turns l [(.next l j : ListEvent ι κ)] = 1 := by simp [turns, ListEvent.gives]
        omega
      · have hnone : turns l [(.next k j : ListEvent ι κ)] = 0 := by
          simp [turns, ListEvent.gives, Ne.symm hk]
        rw [hnone]
        simp only [Orders.next, Function.update_of_ne hk]
        exact ⟨hi, le_rfl⟩

theorem wait_add_turns (h : Reaches (Lists.Starts value) Lists.Step (recent ++ past) m)
    (hi : i ∈ ((ordered κ value past).ring l).items) (hshort : Short value l N recent past)
    (hstay : .remove i ∉ recent) (hsorted : ∀ j, .insert l j ∉ recent)
    (hnever : .next l i ∉ recent) : i ∈ ((ordered κ value (recent ++ past)).ring l).items ∧
      ((ordered κ value (recent ++ past)).ring l).wait N i + turns l recent ≤
        ((ordered κ value past).ring l).wait N i := by
  induction recent generalizing m with
  | nil => exact ⟨hi, le_rfl⟩
  | cons e recent ih =>
      obtain _ | ⟨hpast, hstep⟩ := h
      replace hpast : Reaches (Lists.Starts value) Lists.Step (recent ++ past) _ := hpast
      simp only [List.mem_cons, not_or] at hstay hsorted hnever
      have hbefore : Short value l N recent past := fun now h1 h2 ↦
        hshort now h1 (h2.trans (List.suffix_cons e _))
      obtain ⟨hmem, hwait⟩ := ih hpast hbefore hstay.2 (fun j ↦ (hsorted j).2) hnever.2
      have hlength := hshort (recent ++ past) (List.suffix_append ..) (List.suffix_cons e _)
      obtain ⟨hmem', hwait'⟩ := (refines_ordered hpast).wait_next hstep hmem hlength
        (Ne.symm hstay.1) (fun j ↦ Ne.symm (hsorted j).1) (Ne.symm hnever.1)
      have hturns : turns l (e :: recent) = turns l [e] + turns l recent := by
        simp [turns, List.countP_cons, Nat.add_comm]
      refine ⟨hmem', ?_⟩
      rw [hturns]
      show (((ordered κ value (recent ++ past)).next e).ring l).wait N i + _ ≤ _
      omega

/-- **Everyone's turn comes**: an item that stays in a list of never more than `N` items is among
any `2 * N - 1` entries that the list gives one after the other, whatever joins and leaves
meanwhile. -/
theorem next_of_stays (h : Reaches (Lists.Starts value) Lists.Step (recent ++ past) m)
    (hi : i ∈ ((ordered κ value past).ring l).items) (hshort : Short value l N recent past)
    (hstay : .remove i ∉ recent) (hsorted : ∀ j, .insert l j ∉ recent)
    (hturns : 2 * N - 1 ≤ turns l recent) : .next l i ∈ recent := by
  by_contra hnever
  obtain ⟨-, hwait⟩ := wait_add_turns h hi hshort hstay hsorted hnever
  have hfirst := hshort past (List.suffix_refl _) (List.suffix_append ..)
  have hle := Carousel.wait_le hi hfirst
  have hpos : 0 < N := (List.length_pos_of_mem hi).trans_le hfirst
  have hleft : 0 < ((ordered κ value (recent ++ past)).ring l).wait N i := Carousel.wait_pos hpos
  omega

theorem next_of_stays_alternating :
    .next () false ∈
    ([.next () true, .next () false, .next () true] : List (ListEvent Bool Unit)) := by
  obtain ⟨m, hm⟩ := reaches_alternating
  have hm' : Reaches (Lists.Starts fun _ ↦ portMAX_DELAY) Lists.Step
      ([.next () true, .next () false, .next () true] ++ [.insertEnd () false, .insertEnd () true])
      m := hm
  refine next_of_stays (N := 2) hm' (by decide) ?_ (by decide) (by simp) (by decide)
  have hall : ∀ now ∈ ([.next () true, .next () false, .next () true, .insertEnd () false,
      .insertEnd () true] : List (ListEvent Bool Unit)).tails,
      ((ordered Unit (fun _ ↦ portMAX_DELAY) now).ring ()).items.length ≤ 2 := by decide
  exact fun now _ hnow ↦ hall now ((List.mem_tails ..).2 hnow)

end Stm32F1.Rtos
