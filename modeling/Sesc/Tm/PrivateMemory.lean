import Sesc.Lib.Check
import Sesc.Lib.FinMap
import Sesc.Lib.ListSet
import Sesc.Lib.Table
import Sesc.Trans.Instruction

/-!
# `TMInterface::PrivateMemory`

Every transaction runs on a slice of private memory, which has the bytes that the transaction
has touched or that must be kept from changing, with the value each had in shared memory and
its present value.  The slices of a process are stacked: a slice begins as a copy of the one
below it.  A pointer to a slice is the identifier of its transaction, and following it to a
slice that has been deleted is a fault.
-/

namespace Sesc.Tm

open Lib Sesc.Trans

/-- `BlockSize`. -/
abbrev BlockSize : ℕ := 8

/-- The entries of the six arrays of a `PrivateMemoryBlock` for one byte. -/
structure ByteEntry where
  newData : UInt8
  oldData : UInt8
  valid : Bool
  isRead : Bool
  isWrite : Bool
  relevant : Bool
deriving DecidableEq, Repr

abbrev PrivateMemoryBlock := Fin BlockSize → ByteEntry

/-- The constructor of `PrivateMemoryBlock`. -/
def PrivateMemoryBlock.new : PrivateMemoryBlock := fun _ =>
  { newData := 0xcd
    oldData := 0xcd
    valid := false
    isRead := false
    isWrite := false
    relevant := false }

/-- What `PrivateMemoryBlock::CheckMemory` asserts of a byte. -/
def ByteEntry.checkMemory (e : ByteEntry) : Bool :=
  if e.valid then e.relevant = (e.isRead || e.isWrite) ∧ (!e.isWrite → e.oldData = e.newData)
  else !e.relevant ∧ !e.isRead ∧ !e.isWrite ∧ e.newData = e.oldData ∧ e.newData = 0xcd

/-- The contents of the simulated shared memory. -/
abbrev Memory := Address → UInt8

/-- The address of byte `i` of a block. -/
def byteAddr (tag : ℕ) (i : Fin BlockSize) : Address := tag * BlockSize + i

/-- The bytes of its block that an access touches. -/
def touches (addr : Address) (size : ℕ) (i : Fin BlockSize) : Bool :=
  addr % BlockSize ≤ i ∧ i < addr % BlockSize + size

structure PrivateMemory where
  memMap : FinMap ℕ PrivateMemoryBlock
  pidReliance : ListSet Pid
  previous : Option Level
  next : Option Level
  transID : Level
  committed : Bool
  pid : Pid

namespace PrivateMemory

/-- The constructor of `PrivateMemory`; `parent` is the slice below. -/
def new (pid : Pid) (parent : Option PrivateMemory) (transID : Level) : PrivateMemory where
  memMap := (parent.map memMap).getD ∅
  pidReliance := (parent.map pidReliance).getD ∅
  previous := parent.map PrivateMemory.transID
  next := none
  transID := transID
  committed := false
  pid := pid

variable (s : PrivateMemory)

/-- The bytes of an access that are not valid yet get their value in shared memory. -/
def registerByte (shared : Memory) (addr : Address) (size : ℕ) (b : PrivateMemoryBlock) :
    PrivateMemoryBlock := fun i =>
  if touches addr size i && !(b i).valid then
    { b i with
      valid := true
      oldData := shared (byteAddr (addr / BlockSize) i)
      newData := shared (byteAddr (addr / BlockSize) i) }
  else b i

/-- What `RegisterOldValue` asserts. -/
def mayRegister (addr : Address) (size : ℕ) : Bool :=
  let b := (s.memMap.find (addr / BlockSize)).getD .new
  addr % BlockSize + size ≤ BlockSize ∧ ∀ i, touches addr size i → !(b i).valid →
    (b i).oldData = (b i).newData ∧ (b i).oldData = 0xcd ∧ !(b i).relevant

/-- `RegisterOldValue`. -/
def registerOldValue (shared : Memory) (addr : Address) (size : ℕ) : PrivateMemory :=
  { s with
    memMap := s.memMap.insert (addr / BlockSize)
      (registerByte shared addr size ((s.memMap.find (addr / BlockSize)).getD .new)) }

/-- The flags of the bytes of an access are set. -/
def markByte (addr : Address) (size : ℕ) (isRead : Bool) (b : PrivateMemoryBlock) :
    PrivateMemoryBlock := fun i =>
  if touches addr size i then
    { b i with
      relevant := true
      isRead := (b i).isRead || isRead
      isWrite := (b i).isWrite || !isRead }
  else b i

/-- `TranslateAddress`, which returns a pointer into the block. -/
def translateAddress (addr : Address) (size : ℕ) (isRead : Bool) : Except Fault PrivateMemory := do
  check .assertion (addr % BlockSize + size ≤ BlockSize)
  let b ← (s.memMap.find (addr / BlockSize)).elim (.error .assertion) .ok
  check .assertion (∀ i, touches addr size i → (b i).valid)
  return { s with memMap := s.memMap.insert (addr / BlockSize) (markByte addr size isRead b) }

/-- What the program reads through the pointer that `TranslateAddress` returned. -/
def readThrough (addr : Address) (size : ℕ) : List UInt8 :=
  (List.finRange BlockSize).filter (touches addr size) |>.map fun i =>
    (((s.memMap.find (addr / BlockSize)).getD .new) i).newData

/-- The program writes the bytes `data`. -/
def writeByte (addr : Address) (data : List UInt8) (b : PrivateMemoryBlock) :
    PrivateMemoryBlock := fun i =>
  if touches addr data.length i then
    { b i with newData := data.getD (i - addr % BlockSize) 0 }
  else b i

/-- What the program writes through the pointer that `TranslateAddress` returned. -/
def writeThrough (addr : Address) (data : List UInt8) : PrivateMemory :=
  { s with
    memMap := s.memMap.insert (addr / BlockSize)
      (writeByte addr data ((s.memMap.find (addr / BlockSize)).getD .new)) }

/-- `TestIntegrity`: all relevant bytes are in shared memory as they were. -/
def testIntegrity (shared : Memory) : Except Fault Bool := do
  check .assertion (s.previous = none)
  check .assertion (s.memMap.all fun _ b => ∀ i, (b i).valid →
    (b i).relevant = ((b i).isRead || (b i).isWrite))
  return s.memMap.all fun tag b => ∀ i, (b i).valid → (b i).relevant →
    (b i).oldData = shared (byteAddr tag i)

/-- Shared memory with the bytes written in a block. -/
def applyByte (e : ByteEntry) (old : UInt8) : UInt8 :=
  if e.valid && e.isWrite then e.newData else old

/-- `ApplyChanges`. -/
def applyChanges (shared : Memory) : Except Fault Memory := do
  check .assertion (s.previous = none)
  check .assertion (s.memMap.all fun tag b => ∀ i, (b i).valid → (b i).isWrite →
    (b i).relevant ∧ shared (byteAddr tag i) = (b i).oldData)
  return fun addr =>
    (s.memMap.find (addr / BlockSize)).elim (shared addr) fun b =>
      applyByte (b ⟨addr % BlockSize, Nat.mod_lt _ (by decide)⟩) (shared addr)

/-- The bytes of `b` that the committed block `c` wrote and that are not valid get the value
they had before. -/
def freezeByte (c b : PrivateMemoryBlock) : PrivateMemoryBlock := fun i =>
  if (c i).valid && (c i).isWrite && !(b i).valid then
    { b i with oldData := (c i).oldData, newData := (c i).oldData, valid := true }
  else b i

/-- What `IncorporateCommitted` asserts of the committed slice. -/
def mayIncorporate (shared : Memory) : Bool :=
  s.memMap.all fun tag c => ∀ i, (c i).valid → (c i).isWrite →
    (c i).relevant ∧ shared (byteAddr tag i) = (c i).newData

/-- `IncorporateCommitted`; `RelevantOverlap` records the process and always returns true. -/
def incorporateCommitted (pm : PrivateMemory) : PrivateMemory :=
  { s with
    pidReliance := s.pidReliance.insert pm.pid
    memMap := s.memMap.mergeWith pm.memMap fun _ b c =>
      if ∃ i, (c i).valid && (c i).isWrite then some (freezeByte c (b.getD .new)) else b }

/-- The old values of block `b` after the relevant bytes of the block `c` below have been
committed. -/
def rebaseByte (c b : PrivateMemoryBlock) : PrivateMemoryBlock := fun i =>
  if (c i).valid && (c i).relevant then { b i with oldData := (c i).newData } else b i

/-- What `RemoveFromUnder` asserts. -/
def mayRemoveFromUnder (shared : Memory) (pm : PrivateMemory) : Bool :=
  s.pid = pm.pid ∧ s.memMap.all fun tag c => (pm.memMap.find tag).elim true fun b =>
    ∀ i, (c i).valid → (c i).relevant →
      (c i).oldData = (b i).oldData ∧ (b i).valid ∧ (b i).relevant ∧
        shared (byteAddr tag i) = (c i).newData

/-- `RemoveFromUnder`: the slice `s` is taken from under `pm`, which is returned. -/
def removeFromUnder (pm : PrivateMemory) : PrivateMemory :=
  { pm with memMap := pm.memMap.mergeWith s.memMap fun _ b c => b.map (rebaseByte c) }

/-- `CheckMemory`. -/
def checkMemory (addr : Address) : Bool :=
  (s.memMap.find (addr / BlockSize)).elim false fun b => ∀ i, (b i).checkMemory

def keepingOldValuesOf (pid : Pid) : Bool := pid ∈ s.pidReliance

end PrivateMemory

end Sesc.Tm
