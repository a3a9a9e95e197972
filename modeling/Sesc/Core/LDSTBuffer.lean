import Mathlib.Data.List.Basic
import Mathlib.Logic.Function.Basic
import Sesc.Core.LDSTQ
import Sesc.Lib.Check
import Sesc.Lib.Machine
import Sesc.Messages

/-!
# The load/store buffer

`LDSTBuffer` has, for each word, the last store that has entered, of whichever context.  A load waits
for the store of its own context that it finds there.  A store that has entered after that one hides
it from the load, and even when it has left, it has taken the place.
-/

namespace Sesc.Core

open Lib

/-- The fields of a load or store that the buffer reads. -/
structure BufferedInst where
  contextId : ℕ
  vaddr : ℕ
  instructionStamp : ℕ
  executed : Bool
  deadStore : Bool
  /-- The loads that wait for it. -/
  pending : List Ptr

/-- A store that has entered. -/
structure EnteredStore where
  dinst : Ptr
  contextId : ℕ
  word : Word
  /-- It has been performed. -/
  left : Bool
deriving DecidableEq, Repr

/-- The store is performed, if it is the given one. -/
def EnteredStore.leave (p : Ptr) (e : EnteredStore) : EnteredStore :=
  if e.dinst = p then { e with left := true } else e

/-- A load that has entered: the store that it ought to wait for, whether the two may forward, and the
store that it waits for. -/
structure EnteredLoad where
  expected : Option Ptr
  mayForward : Bool
  fakeSrc : Option Ptr
deriving DecidableEq, Repr

structure LDSTBuffer where
  insts : Ptr → BufferedInst
  stores : Word → Option Ptr
  /-- The transaction entry of each access of `TMInterface`, by the stamp of the instruction. -/
  accessSet : ℕ → Option ℕ
  /-- All stores that have entered, the youngest first. -/
  entered : List EnteredStore
  loads : List EnteredLoad

namespace BufferedInst

def calcWord (d : BufferedInst) : Word := d.vaddr >>> 2

/-- A new instruction. -/
def new (contextId vaddr instructionStamp : ℕ) : BufferedInst :=
  ⟨contextId, vaddr, instructionStamp, false, false, []⟩

end BufferedInst

inductive BufferEvent
  | getStoreEntry (p : Ptr) (contextId vaddr instructionStamp : ℕ)
  | getLoadEntry (p : Ptr) (contextId vaddr instructionStamp : ℕ)
  /-- A store executes, and wakes the loads up that wait for it. -/
  | execute (p : Ptr)
  | storeLocallyPerformed (p : Ptr)
  /-- An access begins, with its transaction entry, or is destroyed. -/
  | setAccess (instructionStamp : ℕ) (transactionEntry : Option ℕ)
deriving DecidableEq, Repr

namespace LDSTBuffer

variable (s : LDSTBuffer) (p : Ptr) (d : BufferedInst)

/-- `TMInterface::MayForward`. -/
def MayForward (load store : ℕ) : Bool :=
  match s.accessSet load, s.accessSet store with
  | some l, some t => l = t
  | _, _ => true

def modifyInst (f : BufferedInst → BufferedInst) : LDSTBuffer :=
  { s with insts := Function.update s.insts p (f (s.insts p)) }

/-- The store that the new one makes dead. -/
def overwritten : Option Ptr :=
  (s.stores d.calcWord).filter fun q =>
    (s.insts q).pending.isEmpty && d.contextId = (s.insts q).contextId

def getStoreEntry : LDSTBuffer :=
  let s := match s.overwritten d with
    | some q => s.modifyInst q fun d => { d with deadStore := true }
    | none => s
  { s with stores := Function.update s.stores d.calcWord (some p) }

/-- The store that a load waits for. -/
def fakeSrc : Option Ptr :=
  (s.stores d.calcWord).filter fun q =>
    s.MayForward d.instructionStamp (s.insts q).instructionStamp &&
      d.contextId = (s.insts q).contextId && !(s.insts q).executed

def getLoadEntry : LDSTBuffer :=
  match s.fakeSrc d with
  | some q => s.modifyInst q fun d => { d with pending := d.pending ++ [p] }
  | none => s

def storeLocallyPerformed : LDSTBuffer :=
  let word := (s.insts p).calcWord
  if s.stores word = some p then { s with stores := Function.update s.stores word none } else s

/-! ### The stores in the buffer -/

/-- The store is in the buffer. -/
def Inside : Prop := ∃ e ∈ s.entered, e.dinst = p ∧ e.left = false

instance : Decidable (s.Inside p) := inferInstanceAs (Decidable (∃ _ ∈ _, _))

/-- The youngest store of a context to a word that is in the buffer. -/
def youngestStore (contextId : ℕ) (word : Word) : Option EnteredStore :=
  s.entered.find? fun e => e.contextId = contextId && e.word = word && !e.left

/-- The store that a load ought to wait for: the youngest one of its context, unless it has executed. -/
def expected : Option Ptr :=
  ((s.youngestStore d.contextId d.calcWord).map EnteredStore.dinst).filter
    fun q => !(s.insts q).executed

/-- The load and the youngest store of its context may forward. -/
def mayForwardOwn : Bool :=
  (s.youngestStore d.contextId d.calcWord).all fun e =>
    s.MayForward d.instructionStamp (s.insts e.dinst).instructionStamp

/-- The stores of a context enter in its program order, and a pointer is not used again before its
store has left. -/
def act : BufferEvent → Except Fault LDSTBuffer
  | .getStoreEntry p contextId vaddr instructionStamp => do
    check .noSuchEvent ¬s.Inside p
    let d := BufferedInst.new contextId vaddr instructionStamp
    let s := s.getStoreEntry p d
    return { s with
      insts := Function.update s.insts p d
      entered := ⟨p, contextId, d.calcWord, false⟩ :: s.entered }
  | .getLoadEntry p contextId vaddr instructionStamp => do
    check .noSuchEvent ¬s.Inside p
    let d := BufferedInst.new contextId vaddr instructionStamp
    return { s.getLoadEntry p d with
      loads := ⟨s.expected d, s.mayForwardOwn d, s.fakeSrc d⟩ :: s.loads }
  | .execute p => do
    check .noSuchEvent (s.Inside p ∧ (s.insts p).executed = false)
    return s.modifyInst p fun d => { d with executed := true, pending := [] }
  | .storeLocallyPerformed p => do
    check .noSuchEvent (s.Inside p)
    return { s.storeLocallyPerformed p with
      entered := s.entered.map (.leave p) }
  | .setAccess instructionStamp transactionEntry =>
    .ok { s with accessSet := Function.update s.accessSet instructionStamp transactionEntry }

end LDSTBuffer

/-- The buffer, which is empty at first. -/
def ldstBuffer : Machine LDSTBuffer BufferEvent Fault where
  init := ⟨fun _ => .new 0 0 0, fun _ => none, fun _ => none, [], []⟩
  step s e := s.act e

end Sesc.Core
