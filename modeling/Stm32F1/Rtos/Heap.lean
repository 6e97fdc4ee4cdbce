import Stm32F1.Lib.Loop

/-!
# `heap_4.c`

The allocator of the kernel: free blocks are linked in the order of their addresses,
the first one that is large enough is taken and what is left of it given back, and a
block that is freed is merged with the free ones that it touches.  An allocated block
has the top bit of its size set.

Memory is the `BlockLink_t` that lies at each multiple of eight.  The kernel is
suspended while `pvPortMalloc` runs, and in `vPortFree` only after the block has been
marked, so that `vPortFree` is two actions.
-/

namespace Stm32F1.Rtos

open Prog

def portBYTE_ALIGNMENT : UInt32 := 8
def portBYTE_ALIGNMENT_MASK : UInt32 := 7
def xHeapStructSize : UInt32 := 8
def heapMINIMUM_BLOCK_SIZE : UInt32 := xHeapStructSize <<< 1

/-- `BlockLink_t`, or any eight bytes. -/
structure BlockLink where
  pxNextFreeBlock : Nat
  xBlockSize : UInt32

/-- The static variables, and memory. -/
structure Heap where
  link : Nat → BlockLink
  pxEnd : Nat
  xFreeBytesRemaining : UInt32
  xMinimumEverFreeBytesRemaining : UInt32
  xNumberOfSuccessfulAllocations : UInt32
  xNumberOfSuccessfulFrees : UInt32
  xBlockAllocatedBit : UInt32

/-- Before the first call. -/
def Heap.initial (link : Nat → BlockLink) : Heap := ⟨link, 0, 0, 0, 0, 0, 0⟩

/-- Where the linker put `ucHeap` and `xStart`, and the size of the heap. -/
structure Placement where
  ucHeap : UInt32
  configTOTAL_HEAP_SIZE : UInt32
  xStart : Nat
  notNull : 0 < ucHeap.toNat
  inMemory : ucHeap.toNat + configTOTAL_HEAP_SIZE.toNat ≤ 2 ^ 32
  large : 32 ≤ configTOTAL_HEAP_SIZE.toNat
  small : configTOTAL_HEAP_SIZE.toNat < 2 ^ 31
  apart : xStart + 8 ≤ ucHeap.toNat ∨ ucHeap.toNat + configTOTAL_HEAP_SIZE.toNat ≤ xStart

/-! ## Accesses -/

def deref (p : Nat) : Prog Heap BlockLink := read fun s ↦ s.link p

def Heap.withLink (s : Heap) (p : Nat) (l : BlockLink) : Heap :=
  { s with link := Function.update s.link p l }

def setNextFreeBlock (p q : Nat) : Prog Heap Unit :=
  modify fun s ↦ s.withLink p { s.link p with pxNextFreeBlock := q }

def setBlockSize (p : Nat) (n : UInt32) : Prog Heap Unit :=
  modify fun s ↦ s.withLink p { s.link p with xBlockSize := n }

/-! ## The functions -/

/-- The address rounded up, and the heap that is left from there on. -/
def alignedHeap (P : Placement) : UInt32 × UInt32 :=
  let uxAddress := P.ucHeap
  let xTotalHeapSize := P.configTOTAL_HEAP_SIZE
  if uxAddress &&& portBYTE_ALIGNMENT_MASK ≠ 0 then
    let uxAddress := uxAddress + (portBYTE_ALIGNMENT - 1)
    let uxAddress := uxAddress &&& ~~~portBYTE_ALIGNMENT_MASK
    (uxAddress, xTotalHeapSize - (uxAddress - P.ucHeap))
  else (uxAddress, xTotalHeapSize)

def prvHeapInit (P : Placement) : Prog Heap Unit := do
  let pucAlignedHeap := (alignedHeap P).1
  let xTotalHeapSize := (alignedHeap P).2
  setNextFreeBlock P.xStart pucAlignedHeap.toNat
  setBlockSize P.xStart 0
  let uxAddress := pucAlignedHeap + xTotalHeapSize
  let uxAddress := uxAddress - xHeapStructSize
  let uxAddress := uxAddress &&& ~~~portBYTE_ALIGNMENT_MASK
  let pxEnd := uxAddress.toNat
  modify fun s ↦ { s with pxEnd := pxEnd }
  setBlockSize pxEnd 0
  setNextFreeBlock pxEnd 0
  let pxFirstFreeBlock := pucAlignedHeap.toNat
  setBlockSize pxFirstFreeBlock (uxAddress - pucAlignedHeap)
  setNextFreeBlock pxFirstFreeBlock pxEnd
  let first ← deref pxFirstFreeBlock
  modify fun s ↦ { s with
    xMinimumEverFreeBytesRemaining := first.xBlockSize
    xFreeBytesRemaining := first.xBlockSize
    xBlockAllocatedBit := (1 : UInt32) <<< 31 }

/-- The loop of `prvInsertBlockIntoFreeList`: the last block before `pxBlockToInsert`. -/
def insertPosition (pxBlockToInsert : Nat) : Nat → Prog Heap Nat :=
  repeatM fun pxIterator ↦ do
    let iterator ← deref pxIterator
    if iterator.pxNextFreeBlock < pxBlockToInsert then pure (.inl iterator.pxNextFreeBlock)
    else pure (.inr pxIterator)

/-- The block before is extended by the one that is inserted, if they touch: the block to go on
with. -/
def joinBefore (pxIterator pxBlockToInsert : Nat) : Prog Heap Nat := do
  let iterator ← deref pxIterator
  if pxIterator + iterator.xBlockSize.toNat = pxBlockToInsert then do
    let block ← deref pxBlockToInsert
    setBlockSize pxIterator (iterator.xBlockSize + block.xBlockSize)
    pure pxIterator
  else pure pxBlockToInsert

/-- The block is extended by the one behind it, if they touch, and linked to the next one. -/
def joinBehind (pxIterator pxBlockToInsert : Nat) : Prog Heap Unit := do
  let block ← deref pxBlockToInsert
  let iterator ← deref pxIterator
  if pxBlockToInsert + block.xBlockSize.toNat = iterator.pxNextFreeBlock then do
    let pxEnd ← read Heap.pxEnd
    if iterator.pxNextFreeBlock ≠ pxEnd then do
      let next ← deref iterator.pxNextFreeBlock
      setBlockSize pxBlockToInsert (block.xBlockSize + next.xBlockSize)
      setNextFreeBlock pxBlockToInsert next.pxNextFreeBlock
    else setNextFreeBlock pxBlockToInsert pxEnd
  else setNextFreeBlock pxBlockToInsert iterator.pxNextFreeBlock

def prvInsertBlockIntoFreeList (P : Placement) (pxBlockToInsert : Nat) : Prog Heap Unit := do
  let pxIterator ← insertPosition pxBlockToInsert P.xStart
  let pxBlockToInsert ← joinBefore pxIterator pxBlockToInsert
  joinBehind pxIterator pxBlockToInsert
  when (pxIterator ≠ pxBlockToInsert) (setNextFreeBlock pxIterator pxBlockToInsert)

/-- The wanted size with the header, rounded up; 0 where that overflows. -/
def wantedSize (xWantedSize : UInt32) : UInt32 :=
  if xWantedSize > 0 ∧ xWantedSize + xHeapStructSize > xWantedSize then
    let xWantedSize := xWantedSize + xHeapStructSize
    if xWantedSize &&& portBYTE_ALIGNMENT_MASK ≠ 0 then
      let padding := portBYTE_ALIGNMENT - (xWantedSize &&& portBYTE_ALIGNMENT_MASK)
      if xWantedSize + padding > xWantedSize then xWantedSize + padding else 0
    else xWantedSize
  else 0

/-- The loop of `pvPortMalloc`, over `pxPreviousBlock` and `pxBlock`: what it ends with. -/
def findBlock (xWantedSize : UInt32) : Nat × Nat → Prog Heap (Nat × Nat) :=
  repeatM fun blocks ↦ do
    let block ← deref blocks.2
    if block.xBlockSize < xWantedSize ∧ block.pxNextFreeBlock ≠ 0 then
      pure (.inl (blocks.2, block.pxNextFreeBlock))
    else pure (.inr blocks)

/-- The block is taken out of the free list, and what it has too much is put back. -/
def cutBlock (P : Placement) (xWantedSize : UInt32) (pxPreviousBlock pxBlock : Nat) :
    Prog Heap Unit := do
  let block ← deref pxBlock
  setNextFreeBlock pxPreviousBlock block.pxNextFreeBlock
  when (block.xBlockSize - xWantedSize > heapMINIMUM_BLOCK_SIZE) do
    let pxNewBlockLink := pxBlock + xWantedSize.toNat
    setBlockSize pxNewBlockLink (block.xBlockSize - xWantedSize)
    setBlockSize pxBlock xWantedSize
    prvInsertBlockIntoFreeList P pxNewBlockLink

/-- The block is accounted for and marked. -/
def markBlock (pxBlock : Nat) : Prog Heap Unit := do
  let block ← deref pxBlock
  modify fun s ↦ { s with xFreeBytesRemaining := s.xFreeBytesRemaining - block.xBlockSize }
  modify fun s ↦
    if s.xFreeBytesRemaining < s.xMinimumEverFreeBytesRemaining then
      { s with xMinimumEverFreeBytesRemaining := s.xFreeBytesRemaining }
    else s
  let xBlockAllocatedBit ← read Heap.xBlockAllocatedBit
  setBlockSize pxBlock (block.xBlockSize ||| xBlockAllocatedBit)
  setNextFreeBlock pxBlock 0
  modify fun s ↦ { s with xNumberOfSuccessfulAllocations := s.xNumberOfSuccessfulAllocations + 1 }

/-- What `pvPortMalloc` does with the block that it has found. -/
def takeBlock (P : Placement) (xWantedSize : UInt32) (pxPreviousBlock pxBlock : Nat) :
    Prog Heap Nat := do
  let previous ← deref pxPreviousBlock
  let pvReturn := previous.pxNextFreeBlock + xHeapStructSize.toNat
  cutBlock P xWantedSize pxPreviousBlock pxBlock
  markBlock pxBlock
  pure pvReturn

/-- `pvPortMalloc` after the heap has been initialised. -/
def allocate (P : Placement) (xWantedSize : UInt32) : Prog Heap Nat := do
  let xBlockAllocatedBit ← read Heap.xBlockAllocatedBit
  if xWantedSize &&& xBlockAllocatedBit = 0 then do
    let xWantedSize := wantedSize xWantedSize
    let xFreeBytesRemaining ← read Heap.xFreeBytesRemaining
    if xWantedSize > 0 ∧ xWantedSize ≤ xFreeBytesRemaining then do
      let start ← deref P.xStart
      let (pxPreviousBlock, pxBlock) ← findBlock xWantedSize (P.xStart, start.pxNextFreeBlock)
      let pxEnd ← read Heap.pxEnd
      if pxBlock ≠ pxEnd then takeBlock P xWantedSize pxPreviousBlock pxBlock else pure 0
    else pure 0
  else pure 0

def pvPortMalloc (P : Placement) (xWantedSize : UInt32) : Prog Heap Nat := do
  let pxEnd ← read Heap.pxEnd
  when (pxEnd = 0) (prvHeapInit P)
  allocate P xWantedSize

/-- `vPortFree` up to `vTaskSuspendAll`: whether there is a block to be given back. -/
def vPortFreeMark (pv : Nat) : Prog Heap Bool :=
  if pv ≠ 0 then do
    let pxLink := pv - xHeapStructSize.toNat
    let link ← deref pxLink
    let xBlockAllocatedBit ← read Heap.xBlockAllocatedBit
    if link.xBlockSize &&& xBlockAllocatedBit ≠ 0 ∧ link.pxNextFreeBlock = 0 then do
      setBlockSize pxLink (link.xBlockSize &&& ~~~xBlockAllocatedBit)
      pure true
    else pure false
  else pure false

/-- `vPortFree` while the kernel is suspended. -/
def vPortFreeReturn (P : Placement) (pv : Nat) : Prog Heap Unit := do
  let pxLink := pv - xHeapStructSize.toNat
  let link ← deref pxLink
  modify fun s ↦ { s with xFreeBytesRemaining := s.xFreeBytesRemaining + link.xBlockSize }
  prvInsertBlockIntoFreeList P pxLink
  modify fun s ↦ { s with xNumberOfSuccessfulFrees := s.xNumberOfSuccessfulFrees + 1 }

def vPortFree (P : Placement) (pv : Nat) : Prog Heap Unit := do
  let marked ← vPortFreeMark pv
  when marked (vPortFreeReturn P pv)

end Stm32F1.Rtos
