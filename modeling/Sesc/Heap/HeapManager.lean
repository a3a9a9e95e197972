import Mathlib.Algebra.Group.Nat.Defs
import Mathlib.Data.Prod.Lex
import Sesc.Lib.Check
import Sesc.Lib.Machine
import Sesc.Lib.OrderedTable
import Sesc.Messages

/-!
# `HeapManager`

The heap of the simulated program: the blocks in use, by address, and the free blocks, by address
and by size.  Every block begins at a multiple of `MinBlockSize` and takes up a multiple of it.

A `VAddr` and a `size_t` are numbers here; their widths are those of the platform.
-/

namespace Sesc.Heap

open Lib

def minBlockSize : ℕ := 64

/-- The numbers of bits of a `VAddr` and of a `size_t`; both hold a block size. -/
structure Widths where
  vaddrBits : ℕ
  sizeBits : ℕ
  six_le : 6 ≤ vaddrBits
  vaddrBits_le : vaddrBits ≤ sizeBits

namespace Widths

/-- Addresses and sizes of 32 bits. -/
def narrow : Widths := ⟨32, 32, by decide, Nat.le_refl _⟩

variable (w : Widths)

/-- A value is converted to a `VAddr`. -/
def vaddr (n : ℕ) : ℕ := n % 2 ^ w.vaddrBits

/-- A value is converted to a `size_t`. -/
def sizeT (n : ℕ) : ℕ := n % 2 ^ w.sizeBits

/-- A difference of two values of type `size_t`. -/
def sub (m n : ℕ) : ℕ := w.sizeT (m + 2 ^ w.sizeBits - n)

/-- `roundUp`: the low bits of the sum are cleared. -/
def roundUp (size : ℕ) : ℕ := w.sizeT (size + 63) - w.sizeT (size + 63) % minBlockSize

end Widths

structure BlockInfo where
  addr : ℕ
  size : ℕ
deriving DecidableEq, Repr

/-- `lessBySize` is the order of these pairs. -/
def BlockInfo.bySize (b : BlockInfo) : ℕ ×ₗ ℕ := toLex (b.size, b.addr)

abbrev BlocksByAddr := Table BlockInfo.addr

abbrev BlocksBySize := Table BlockInfo.bySize

structure HeapManager where
  heapAddrLb : ℕ
  heapAddrUb : ℕ
  usedAddrUb : ℕ
  busyByAddr : BlocksByAddr
  freeByAddr : BlocksByAddr
  freeBySize : BlocksBySize

namespace HeapManager

variable (w : Widths) (h : HeapManager)

/-- The constructor. -/
def new (base : ℕ) (size : ℕ) : Except Fault HeapManager := do
  check .assertion (base ≠ 0 ∧ base % minBlockSize = 0)
  check .assertion (size ≠ 0 ∧ size % minBlockSize = 0)
  return {
    heapAddrLb := base
    heapAddrUb := w.vaddr (base + size)
    usedAddrUb := base
    busyByAddr := ∅
    freeByAddr := (∅ : BlocksByAddr).add ⟨base, size⟩
    freeBySize := (∅ : BlocksBySize).add ⟨base, size⟩ }

/-- A block is inserted into both sets of free blocks. -/
def insertFree (b : BlockInfo) : HeapManager :=
  { h with freeByAddr := h.freeByAddr.add b, freeBySize := h.freeBySize.add b }

/-- A block is erased from both sets of free blocks. -/
def eraseFree (b : BlockInfo) : HeapManager :=
  { h with freeByAddr := h.freeByAddr.erase b.addr, freeBySize := h.freeBySize.erase b.bySize }

def insertBusy (b : BlockInfo) : HeapManager := { h with busyByAddr := h.busyByAddr.add b }

def eraseBusy (addr : ℕ) : HeapManager := { h with busyByAddr := h.busyByAddr.erase addr }

/-- `usedAddrUb` is raised to the end of a block. -/
def use (addr : ℕ) (blockSize : ℕ) : HeapManager :=
  { h with usedAddrUb := if w.sizeT (addr + blockSize) > h.usedAddrUb then w.vaddr (addr + blockSize)
      else h.usedAddrUb }

/-- What is left behind a block of `blockSize` bytes at the beginning of a free block. -/
def insertRest (addr : ℕ) (foundSize blockSize : ℕ) : HeapManager :=
  if foundSize > blockSize then
    h.insertFree ⟨w.vaddr (addr + blockSize), foundSize - blockSize⟩
  else h

/-! ## Allocation -/

/-- `allocate` at the beginning of the block that has been found. -/
def allocateIn (size : ℕ) (found : BlockInfo) : Except Fault (ℕ × HeapManager) := do
  check .assertion (found.size ≥ w.roundUp size)
  check .assertion (h.freeByAddr.find found.addr ≠ none)
  let h := (h.eraseFree found).insertBusy ⟨found.addr, size⟩
  let h := h.insertRest w found.addr found.size (w.roundUp size)
  return (found.addr, h.use w found.addr (w.roundUp size))

/-- `allocate(size)`: the smallest free block that is large enough. -/
def allocate (size : ℕ) : Except Fault (ℕ × HeapManager) :=
  match h.freeBySize.lowerBound (toLex (w.roundUp size, 0)) with
  | none => .ok (0, h)
  | some found => h.allocateIn w size found

/-- What is left of a free block in front of the requested address. -/
def insertFront (found : BlockInfo) (addr : ℕ) : HeapManager :=
  if found.addr < addr then h.insertFree ⟨found.addr, addr - found.addr⟩ else h

/-- `allocate(addr, size)` in the block that has been found. -/
def allocateAtIn (addr : ℕ) (size : ℕ) (found : BlockInfo) :
    Except Fault (ℕ × HeapManager) := do
  check .assertion (h.freeBySize.find found.bySize = some found)
  let h := (h.eraseFree found).insertFront found addr
  let foundSize := w.sub found.size (addr - found.addr)
  check .assertion (foundSize ≥ w.roundUp size)
  let h := h.insertRest w addr foundSize (w.roundUp size)
  return (addr, (h.insertBusy ⟨addr, w.roundUp size⟩).use w addr (w.roundUp size))

/-- `allocate(addr, size)`. -/
def allocateAt (addr : ℕ) (size : ℕ) : Except Fault (ℕ × HeapManager) :=
  match h.freeByAddr.beforeUpperBound addr with
  | none => h.allocate w size
  | some found =>
    if w.sizeT (found.addr + found.size) < w.sizeT (addr + w.roundUp size) then h.allocate w size
    else h.allocateAtIn w addr size found

/-! ## Deallocation -/

/-- `blockAddr+(VAddr)blockSize`, the end of a block. -/
def blockEnd (b : BlockInfo) : ℕ := w.vaddr (b.addr + w.vaddr b.size)

/-- A block is merged with the free block that follows it, if there is one. -/
def mergeNext (b : BlockInfo) : Except Fault (BlockInfo × HeapManager) :=
  match h.freeByAddr.upperBound b.addr with
  | none => .ok (b, h)
  | some next => do
    check .assertion (blockEnd w b ≤ next.addr)
    if blockEnd w b = next.addr then
      let h := h.eraseFree next
      check .assertion ((h.freeByAddr.upperBound b.addr).all fun next' =>
        blockEnd w ⟨b.addr, w.sizeT (b.size + next.size)⟩ < next'.addr)
      return (⟨b.addr, w.sizeT (b.size + next.size)⟩, h)
    else return (b, h)

/-- A block is merged with the free block that precedes it, if there is one. -/
def mergePrevious (b : BlockInfo) : Except Fault (BlockInfo × HeapManager) :=
  match h.freeByAddr.beforeUpperBound b.addr with
  | none => .ok (b, h)
  | some previous => do
    check .assertion (blockEnd w previous ≤ b.addr)
    if blockEnd w previous = b.addr then
      return (⟨previous.addr, w.sizeT (b.size + previous.size)⟩, h.eraseFree previous)
    else return (b, h)

/-- `deallocate`. -/
def deallocate (addr : ℕ) : Except Fault (ℕ × HeapManager) := do
  let busy ← (h.busyByAddr.find addr).elim (.error .assertion) .ok
  let h := h.eraseBusy addr
  let (b, h) ← h.mergeNext w ⟨addr, w.roundUp busy.size⟩
  let (b, h) ← h.mergePrevious w b
  return (busy.size, h.insertFree b)

end HeapManager

/-! ## Runs -/

inductive Call
  | allocate (size : ℕ)
  | allocateAt (addr : ℕ) (size : ℕ)
  | deallocate (addr : ℕ)
deriving DecidableEq, Repr

/-- A heap with the blocks that have ever been allocated, their addresses and their rounded
sizes. -/
structure System where
  heap : HeapManager
  allocated : List BlockInfo

namespace System

variable (w : Widths) (s : System)

/-- The result of an allocation is noted. -/
def note (size : ℕ) (r : ℕ × HeapManager) : System where
  heap := r.2
  allocated := if r.1 = 0 then s.allocated else s.allocated ++ [⟨r.1, w.roundUp size⟩]

def step : Call → Except Fault System
  | .allocate size => do
    let r ← s.heap.allocate w size
    return s.note w size r
  | .allocateAt addr size => do
    let r ← s.heap.allocateAt w addr size
    return s.note w size r
  | .deallocate addr => do
    let r ← s.heap.deallocate w addr
    return { s with heap := r.2 }

end System

/-- A heap as a machine, from the heap that the constructor returns. -/
def heapMachine (w : Widths) (heap : HeapManager) : Machine System Call Fault where
  init := ⟨heap, []⟩
  step s := s.step w

end Sesc.Heap
