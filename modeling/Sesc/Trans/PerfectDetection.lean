import Sesc.Trans.Instruction

/-!
# `PerfectCollisionDetection`

The lines that each active transaction has read and written, in sets.  The loops over the bytes
of an access skip a byte whose line is that of the byte before; as they begin with the line 0,
they skip the bytes of line 0 at the start.
-/

namespace Sesc.Trans

open Lib

/-- `CalcLineAddr`. -/
def calcLineAddr (lineSize : ℕ) (addr : Address) : Address := addr - addr % lineSize

/-- The lines that a loop over byte addresses looks at, after a byte of the line `last`. -/
def linesFrom (lineSize : ℕ) : List Address → Address → List Address
  | [], _ => []
  | a :: rest, last =>
    if calcLineAddr lineSize a = last then linesFrom lineSize rest last
    else calcLineAddr lineSize a :: linesFrom lineSize rest (calcLineAddr lineSize a)

/-- The lines that the loops over the bytes of an access look at. -/
def accessLines (lineSize : ℕ) (addr : Address) (size : ℕ) : List Address :=
  linesFrom lineSize ((List.range size).map (addr + ·)) 0

/-- `PerfectCollisionDetection::TransData`. -/
structure TransData where
  pid : Pid
  transLevel : Level
  parentLevel : Level
  readSet : List Address
  writeSet : List Address
deriving DecidableEq, Repr

namespace TransData

variable (t : TransData)

/-- The set of lines that have been read or written. -/
def lines (read : Bool) : List Address := if read then t.readSet else t.writeSet

/-- The lines that are not in the set yet are inserted. -/
def insert (read : Bool) (lines : List Address) : TransData :=
  if read then { t with readSet := t.readSet ∪ lines }
  else { t with writeSet := t.writeSet ∪ lines }

end TransData

/-- `PerfectCollisionDetection::CollisionReport`. -/
structure CollisionReport where
  enemyPid : Pid
  enemyLevel : Level
  enemyIsRead : Bool
deriving DecidableEq, Repr

/-- The registers and the active transactions, of which no two have the same level.
`currentCpu` is none where the source has -1. -/
structure Perfect where
  currentAddr : Address
  currentCpu : Option Pid
  currentIsRead : Bool
  currentIsAccess : Bool
  currentAccessSize : ℕ
  opCode : TMOpCode
  oldLevel : Level
  newLevel : Level
  activeTransactions : List TransData
  collisionIndex : ℕ
  collisionSet : List CollisionReport

namespace Perfect

def new : Perfect where
  currentAddr := 0
  currentCpu := none
  currentIsRead := false
  currentIsAccess := false
  currentAccessSize := 0
  opCode := .transBegin
  oldLevel := 0
  newLevel := 0
  activeTransactions := []
  collisionIndex := 0
  collisionSet := []

variable (lineSize : ℕ) (s : Perfect)

/-- The active transaction of a level. -/
def find (level : Level) : Option TransData :=
  s.activeTransactions.find? fun t => t.transLevel == level

/-- The active transaction of a level changes. -/
def modify (level : Level) (f : TransData → TransData) : List TransData :=
  s.activeTransactions.map fun t => if t.transLevel = level then f t else t

/-- `ObserveAccess` and `ObserveTransactionInst`. -/
def observe (i : Instruction) : Perfect :=
  match i with
  | .access isRead pid transactionEntry address size =>
    { s with
      currentIsAccess := true
      currentIsRead := isRead
      currentCpu := some pid
      currentAccessSize := size
      currentAddr := address
      oldLevel := transactionEntry }
  | .transaction pid oldLevel newLevel opCode =>
    { s with
      currentIsAccess := false
      currentCpu := some pid
      oldLevel := oldLevel
      newLevel := newLevel
      opCode := opCode }

/-- The end of a transaction promotes its sets to its parent; a parent that is not active would
get unset fields in the source. -/
def promote (t : TransData) : List TransData :=
  if t.parentLevel = 0 then s.activeTransactions
  else s.modify t.parentLevel fun p => (p.insert true t.readSet).insert false t.writeSet

/-- `FinalizeInstruction`, for the instruction of a process. -/
def finalizeObserved (pid : Pid) : Except Fault (List TransData) :=
  if s.currentIsAccess then
    if s.oldLevel = 0 then .ok s.activeTransactions
    else do
      check .assertion (s.find s.oldLevel ≠ none)
      return s.modify s.oldLevel fun t =>
        t.insert s.currentIsRead (accessLines lineSize s.currentAddr s.currentAccessSize)
  else
    match s.opCode with
    | .transBegin => do
      check .assertion (s.find s.newLevel = none)
      return s.activeTransactions ++
        [{ pid := pid, transLevel := s.newLevel, parentLevel := s.oldLevel, readSet := []
           writeSet := [] }]
    | op =>
      match s.find s.oldLevel with
      | none => .error .assertion
      | some t => do
        check .assertion (t.pid = pid)
        let active := if op = .transEnd then s.promote t else s.activeTransactions
        return active.filter fun t => t.transLevel ≠ s.oldLevel

/-- `FinalizeInstruction`. -/
def finalizeInstruction : Except Fault Perfect :=
  match s.currentCpu with
  | none => .ok s
  | some pid => do
    let active ← s.finalizeObserved lineSize pid
    return { s with activeTransactions := active, currentCpu := none }

/-- `RollbackInstruction`. -/
def rollbackInstruction : Perfect := { s with currentCpu := none }

/-- The collisions of the observed access with an active transaction. -/
def collisionsWith (t : TransData) : List CollisionReport :=
  (accessLines lineSize s.currentAddr s.currentAccessSize).filterMap fun line =>
    if line ∈ t.writeSet then some ⟨t.pid, t.transLevel, false⟩
    else if s.currentIsRead = false ∧ line ∈ t.readSet then some ⟨t.pid, t.transLevel, true⟩
    else none

/-- `CollisionCount`. -/
def collisionCount : Except Fault (ℕ × Perfect) :=
  match s.currentCpu with
  | none => .ok (0, { s with collisionSet := [], collisionIndex := 0 })
  | some pid =>
    let reports := if s.currentIsAccess = true ∧ s.oldLevel ≠ 0 then
        (s.activeTransactions.filter fun t => t.pid ≠ pid).flatMap (s.collisionsWith lineSize)
      else []
    .ok (reports.length, { s with collisionSet := reports, collisionIndex := 0 })

/-- `FetchCollision`. -/
def fetchCollision : Except Fault (Collision × Perfect) :=
  match s.currentCpu, s.collisionSet[s.collisionIndex]? with
  | some pid, some c =>
    .ok ({ localPid := pid
           localLevel := s.oldLevel
           localIsDetermined := true
           localIsRead := s.currentIsRead
           enemyPid := c.enemyPid
           enemyLevel := c.enemyLevel
           enemyIsDetermined := true
           enemyIsRead := c.enemyIsRead },
      { s with collisionIndex := s.collisionIndex + 1 })
  | _, _ => .error .noSuchEvent

/-- The exact collision detection. -/
def detection : ITMCollisionDetection Perfect where
  observe i s := s.observe i
  collisionCount := collisionCount lineSize
  fetchCollision := fetchCollision
  finalizeInstruction := finalizeInstruction lineSize
  rollbackInstruction := rollbackInstruction

end Perfect

end Sesc.Trans
