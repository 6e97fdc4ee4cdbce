import Stm32F1.Lib.Loop

/-!
# `list.c`

The lists of the kernel are rings: the items, and the end marker that lies in the
`List_t` itself.  A field of the items is a function of where they are.

`vListInsert` looks for the place from the end marker on; it is the only loop.
-/

namespace Stm32F1.Rtos

open Prog

abbrev TickType := UInt32

def portMAX_DELAY : TickType := 0xffffffff

/-- Where a `ListItem_t` is: an item, or the `xListEnd` of a list. -/
inductive Node (ι κ : Type)
  | item (i : ι)
  | xListEnd (l : κ)
deriving DecidableEq

/-- Every `ListItem_t` and `List_t`. -/
structure Lists (ι κ : Type) where
  xItemValue : Node ι κ → TickType
  pxNext : Node ι κ → Node ι κ
  pxPrevious : Node ι κ → Node ι κ
  pxContainer : ι → Option κ
  pxIndex : κ → Node ι κ
  uxNumberOfItems : κ → UInt32

variable {ι κ : Type} [DecidableEq ι] [DecidableEq κ]

namespace Lists

def setValue (p : Node ι κ) (v : TickType) (m : Lists ι κ) : Lists ι κ :=
  { m with xItemValue := Function.update m.xItemValue p v }

def setNext (p q : Node ι κ) (m : Lists ι κ) : Lists ι κ :=
  { m with pxNext := Function.update m.pxNext p q }

def setPrevious (p q : Node ι κ) (m : Lists ι κ) : Lists ι κ :=
  { m with pxPrevious := Function.update m.pxPrevious p q }

def setContainer (i : ι) (l : Option κ) (m : Lists ι κ) : Lists ι κ :=
  { m with pxContainer := Function.update m.pxContainer i l }

def setIndex (l : κ) (p : Node ι κ) (m : Lists ι κ) : Lists ι κ :=
  { m with pxIndex := Function.update m.pxIndex l p }

def setNumber (l : κ) (n : UInt32) (m : Lists ι κ) : Lists ι κ :=
  { m with uxNumberOfItems := Function.update m.uxNumberOfItems l n }

end Lists

/-! ## The functions -/

def vListInitialise (l : κ) (m : Lists ι κ) : Lists ι κ :=
  let m := m.setIndex l (.xListEnd l)
  let m := m.setValue (.xListEnd l) portMAX_DELAY
  let m := m.setNext (.xListEnd l) (.xListEnd l)
  let m := m.setPrevious (.xListEnd l) (.xListEnd l)
  m.setNumber l 0

def vListInitialiseItem (i : ι) (m : Lists ι κ) : Lists ι κ := m.setContainer i none

def vListInsertEnd (l : κ) (i : ι) (m : Lists ι κ) : Lists ι κ :=
  let pxIndex := m.pxIndex l
  let m := m.setNext (.item i) pxIndex
  let m := m.setPrevious (.item i) (m.pxPrevious pxIndex)
  let m := m.setNext (m.pxPrevious pxIndex) (.item i)
  let m := m.setPrevious pxIndex (.item i)
  let m := m.setContainer i (some l)
  m.setNumber l (m.uxNumberOfItems l + 1)

/-- The loop of `vListInsert`. -/
def insertionPoint (xValueOfInsertion : TickType) (pxIterator : Node ι κ) :
    Prog (Lists ι κ) (Node ι κ) :=
  have : Nonempty (Node ι κ) := ⟨pxIterator⟩
  repeatM (fun pxIterator ↦ do
    let pxNext ← read fun m ↦ m.pxNext pxIterator
    let xItemValue ← read fun m ↦ m.xItemValue pxNext
    if xItemValue ≤ xValueOfInsertion then pure (.inl pxNext) else pure (.inr pxIterator))
      pxIterator

/-- `vListInsert` behind `pxIterator`. -/
def insertBehind (l : κ) (i : ι) (pxIterator : Node ι κ) (m : Lists ι κ) : Lists ι κ :=
  let m := m.setNext (.item i) (m.pxNext pxIterator)
  let m := m.setPrevious (m.pxNext (.item i)) (.item i)
  let m := m.setPrevious (.item i) pxIterator
  let m := m.setNext pxIterator (.item i)
  let m := m.setContainer i (some l)
  m.setNumber l (m.uxNumberOfItems l + 1)

def vListInsert (l : κ) (i : ι) : Prog (Lists ι κ) Unit := do
  let xValueOfInsertion ← read fun m ↦ m.xItemValue (.item i)
  let pxIterator ←
    if xValueOfInsertion = portMAX_DELAY then read fun m ↦ m.pxPrevious (.xListEnd l)
    else insertionPoint xValueOfInsertion (.xListEnd l)
  modify (insertBehind l i pxIterator)

/-- `uxListRemove` of an item whose list is `l`. -/
def removeFrom (l : κ) (i : ι) (m : Lists ι κ) : Lists ι κ :=
  let m := m.setPrevious (m.pxNext (.item i)) (m.pxPrevious (.item i))
  let m := m.setNext (m.pxPrevious (.item i)) (m.pxNext (.item i))
  let m := if m.pxIndex l = .item i then m.setIndex l (m.pxPrevious (.item i)) else m
  let m := m.setContainer i none
  m.setNumber l (m.uxNumberOfItems l - 1)

/-- An item that is in no list must not be removed. -/
def uxListRemove (i : ι) : Prog (Lists ι κ) UInt32 := fun m ↦
  (m.pxContainer i).map fun l ↦ ((removeFrom l i m).uxNumberOfItems l, removeFrom l i m)

/-- `listGET_OWNER_OF_NEXT_ENTRY`: the item whose owner it is; the end marker has none. -/
def listGET_OWNER_OF_NEXT_ENTRY (l : κ) : Prog (Lists ι κ) ι := do
  modify fun m ↦ m.setIndex l (m.pxNext (m.pxIndex l))
  let pxIndex ← read fun m ↦ m.pxIndex l
  when (pxIndex = .xListEnd l) (modify fun m ↦ m.setIndex l (m.pxNext (m.pxIndex l)))
  let pxIndex ← read fun m ↦ m.pxIndex l
  match pxIndex with
  | .item i => pure i
  | .xListEnd _ => fun _ ↦ none

end Stm32F1.Rtos
