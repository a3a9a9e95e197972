import Mathlib.Data.List.FinRange
import Mathlib.Logic.Function.Basic
import Sesc.Tm.Slices

/-!
# The unaligned loads and stores

`lwl`, `lwr`, `swl` and `swr` access the part of a word that is on one side of an address.  Each of them
has a version for branch delay slots.  The access goes through the pointer that `TMInterface::RedirectAddr`
returns for a range of bytes, and the helpers find the rest of the word by the alignment of their
pointer; the blocks of a slice are aligned like those of shared memory.
-/

namespace Sesc.Mint

open Lib Sesc.Trans Sesc.Tm

/-- The bytes of a word, the most significant one first. -/
abbrev Word := Fin 4 → UInt8

/-- A pointer to a byte of shared memory, or to the new value of the byte in a slice. -/
inductive RAddr
  | shared (addr : Address)
  | slice (id : Level) (addr : Address)
deriving DecidableEq, Repr

namespace RAddr

def addr : RAddr → Address
  | shared a => a
  | slice _ a => a

/-- Pointer arithmetic in a block. -/
def move (f : Address → Address) : RAddr → RAddr
  | shared a => shared (f a)
  | slice id a => slice id (f a)

end RAddr

/-! ## Memory -/

lemma mod_blockSize_lt (a : Address) : a % BlockSize < BlockSize := Nat.mod_lt _ (Nat.succ_pos 7)

/-- The byte of a block that an address belongs to. -/
def blockIndex (a : Address) : Fin BlockSize := ⟨a % BlockSize, mod_blockSize_lt a⟩

def blockOf (s : PrivateMemory) (a : Address) : PrivateMemoryBlock :=
  (s.memMap.find (a / BlockSize)).getD .new

def setNewByte (s : PrivateMemory) (a : Address) (v : UInt8) : PrivateMemory :=
  { s with
    memMap := s.memMap.insert (a / BlockSize)
      (Function.update (blockOf s a) (blockIndex a)
        { blockOf s a (blockIndex a) with newData := v }) }

/-- The byte that a pointer points to. -/
def byteAt (m : Memories) : RAddr → UInt8
  | .shared a => m.shared a
  | .slice id a => (m.privateMemorySet.find id).elim 0 fun s => (blockOf s a (blockIndex a)).newData

def setByte (m : Memories) (p : RAddr) (v : UInt8) : Memories :=
  match p with
  | .shared a => { m with shared := Function.update m.shared a v }
  | .slice id a => m.setSlices (m.privateMemorySet.modify id (fun s => setNewByte s a v) fun _ => rfl)

/-- An access to shared memory: before a store, the slices that keep old values get them. -/
def beforeShared (m : Memories) (pid : Pid) (isRead : Bool) (addr : Address) (size : ℕ) :
    Except Fault Memories :=
  if isRead then .ok m else m.registerOldValues pid addr size

/-- `TMInterface::RedirectAddr`. -/
def redirectAddr (m : Memories) (pid : Pid) (isRead : Bool) (addr : Address) (size : ℕ) :
    Except Fault (RAddr × Memories) :=
  if m.latestMemorySlice pid = 0 then do
    let m ← beforeShared m pid isRead addr size
    return (.shared addr, m)
  else do
    let m ← m.redirectToSlice pid isRead addr size
    return (.slice (m.latestMemorySlice pid) addr, m)

/-! ## The helpers -/

/-- The bytes from the pointer to the end of its word are the first ones of the result. -/
def mipsLwl (value : Word) (m : Memories) (p : RAddr) : Word := fun i =>
  if i < 4 - p.addr % 4 then byteAt m (p.move (· + i)) else value i

/-- The bytes from the beginning of its word to the pointer are the last ones of the result. -/
def mipsLwr (value : Word) (m : Memories) (p : RAddr) : Word := fun i =>
  if 3 - i ≤ p.addr % 4 then byteAt m (p.move (· - (3 - i))) else value i

def mipsSwl (value : Word) (m : Memories) (p : RAddr) : Memories :=
  ((List.finRange 4).filter fun i : Fin 4 => i < 4 - p.addr % 4).foldl
    (fun m (i : Fin 4) => setByte m (p.move (· + i)) (value i)) m

def mipsSwr (value : Word) (m : Memories) (p : RAddr) : Memories :=
  ((List.finRange 4).filter fun i : Fin 4 => 3 - i ≤ p.addr % 4).foldl
    (fun m (i : Fin 4) => setByte m (p.move (· - (3 - i))) (value i)) m

/-! ## The instructions -/

/-- The arguments of `MarkLoad` or `MarkStore`. -/
structure Mark where
  isLoad : Bool
  pid : Pid
  vaddr : Address
  size : ℕ
deriving DecidableEq, Repr

structure ThreadContext where
  reg : ℕ → Word
  memories : Memories
  marks : List Mark

/-- The instruction that is executed next. -/
inductive NextInst
  | next
  | target
deriving DecidableEq, Repr

/-- The process, its translation to virtual addresses, and the register of the instruction. -/
structure Icode where
  pid : Pid
  real2virt : Address → Address
  rt : ℕ

section

variable (c : Icode) (t : ThreadContext)

/-- A load of a range of bytes that is merged into the register through a pointer into the range. -/
def loadUnaligned (start : Address) (size offset : ℕ) (merge : Word → Memories → RAddr → Word)
    (nextInst : NextInst) : Except Fault (NextInst × ThreadContext) := do
  let (raddr, m) ← redirectAddr t.memories c.pid true start size
  return (nextInst, {
    memories := m
    marks := t.marks ++ [⟨true, c.pid, c.real2virt start, size⟩]
    reg := Function.update t.reg c.rt (merge (t.reg c.rt) m (raddr.move (· + offset))) })

def storeUnaligned (start : Address) (size offset : ℕ) (merge : Word → Memories → RAddr → Memories)
    (nextInst : NextInst) : Except Fault (NextInst × ThreadContext) := do
  let (raddr, m) ← redirectAddr t.memories c.pid false start size
  return (nextInst, { t with
    memories := merge (t.reg c.rt) m (raddr.move (· + offset))
    marks := t.marks ++ [⟨false, c.pid, c.real2virt start, size⟩] })

/-- The size of the accesses of `lwl` and `swl`. -/
def leftSize (rAddr : Address) : ℕ := (rAddr ||| 4) - rAddr

def augAddr (rAddr : Address) : Address := rAddr - rAddr % 4

/-- The size of the accesses of `lwr` and `swr`. -/
def rightSize (rAddr : Address) : ℕ := 1 + (rAddr - augAddr rAddr)

variable (rAddr : Address)

def lwlOp2 := loadUnaligned c t rAddr (leftSize rAddr) 0 mipsLwl .next

def lwlOp3 := loadUnaligned c t rAddr (leftSize rAddr) 0 mipsLwl .target

def lwrOp2 :=
  loadUnaligned c t (augAddr rAddr) (rightSize rAddr) (rightSize rAddr - 1) mipsLwr .next

/-- The pointer is not moved to the address. -/
def lwrOp3 := loadUnaligned c t (augAddr rAddr) (rightSize rAddr) 0 mipsLwr .target

def swlOp2 := storeUnaligned c t rAddr (leftSize rAddr) 0 mipsSwl .next

def swlOp3 := storeUnaligned c t rAddr (leftSize rAddr) 0 mipsSwl .target

def swrOp2 :=
  storeUnaligned c t (augAddr rAddr) (rightSize rAddr) (rightSize rAddr - 1) mipsSwr .next

def swrOp3 :=
  storeUnaligned c t (augAddr rAddr) (rightSize rAddr) (rightSize rAddr - 1) mipsSwr .target

inductive UnalignedOp
  | lwl
  | lwr
  | swl
  | swr
deriving DecidableEq, Repr

inductive Version
  | normal
  | delaySlot
deriving DecidableEq, Repr

def exec : UnalignedOp → Version → Except Fault (NextInst × ThreadContext)
  | .lwl, .normal => lwlOp2 c t rAddr
  | .lwl, .delaySlot => lwlOp3 c t rAddr
  | .lwr, .normal => lwrOp2 c t rAddr
  | .lwr, .delaySlot => lwrOp3 c t rAddr
  | .swl, .normal => swlOp2 c t rAddr
  | .swl, .delaySlot => swlOp3 c t rAddr
  | .swr, .normal => swrOp2 c t rAddr
  | .swr, .delaySlot => swrOp3 c t rAddr

end

end Sesc.Mint
