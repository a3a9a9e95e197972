import Sesc.Trans.TableDetection

/-!
# `LogTMCollisionDetectionBase`

Each process has a table of `associativity * cacheWidth` entries; the entry with the index
`cacheWidth * iteration + set` is the entry of that way and set.  When all ways of a set are
taken, the overflow bit of the set, or of all sets, stands for what no longer fits.
-/

namespace Sesc.Trans

open Lib

/-- `LogTMCollisionDetectionBase::CollisionDataEntry`. -/
structure CollisionDataEntry where
  valid : Bool
  tag : ℕ
  readSet : Bool
  writeSet : Bool
deriving DecidableEq, Repr

namespace CollisionDataEntry

/-- An entry after `ClearCollisionData`. -/
def clear : CollisionDataEntry where
  valid := false
  tag := 0
  readSet := false
  writeSet := false

/-- The flag of an entry for reads or writes. -/
def flag (e : CollisionDataEntry) (read : Bool) : Bool := if read then e.readSet else e.writeSet

/-- Setting the flag of an entry for reads or writes. -/
def setFlag (e : CollisionDataEntry) (read : Bool) : CollisionDataEntry :=
  if read then { e with readSet := true } else { e with writeSet := true }

/-- An entry that is not valid is taken for the tag. -/
def take (e : CollisionDataEntry) (tag : ℕ) : CollisionDataEntry :=
  if e.valid then e else { e with tag := tag, valid := true }

end CollisionDataEntry

structure LogTMConfig where
  associativity : ℕ
  cacheWidth : ℕ
  lineSize : ℕ
  setSpecificOverflow : Bool
  procCount : ℕ

/-- The tables of a `LogTMCollisionDetectionBase`. -/
structure LogTM where
  /-- The entry of a process, a way and a set. -/
  collisionVector : Pid → ℕ → ℕ → CollisionDataEntry
  /-- The overflow bit of a process and a set. -/
  overflow : Pid → ℕ → Bool

/-- After `Initialize`; the source leaves the flags unset until a transaction begins. -/
def LogTM.new : LogTM where
  collisionVector := fun _ _ _ => .clear
  overflow := fun _ _ => false

/-- `ClearCollisionData`. -/
def LogTM.clearCollisionData (s : LogTM) (pid : Pid) : LogTM where
  collisionVector := Function.update s.collisionVector pid fun _ _ => .clear
  overflow := Function.update s.overflow pid fun _ => false

namespace LogTMConfig

variable (cfg : LogTMConfig)

/-- `CalcTag`. -/
def calcTag (addr : Address) : ℕ := addr / cfg.lineSize

/-- The set of a tag. -/
def setOf (tag : ℕ) : ℕ := tag % cfg.cacheWidth

/-- `GetDataEntry`. -/
def getDataEntry (s : LogTM) (pid : Pid) (tag iteration : ℕ) : CollisionDataEntry :=
  s.collisionVector pid iteration (cfg.setOf tag)

/-- Writing the entry of a process, a way and the set of a tag. -/
def setDataEntry (s : LogTM) (pid : Pid) (tag iteration : ℕ) (e : CollisionDataEntry) : LogTM :=
  { s with
    collisionVector := Function.update s.collisionVector pid
      (Function.update (s.collisionVector pid) iteration
        (Function.update (s.collisionVector pid iteration) (cfg.setOf tag) e)) }

/-- `IsOverflown`. -/
def isOverflown (s : LogTM) (pid : Pid) (addr : Address) : Bool :=
  s.overflow pid (cfg.setOf (cfg.calcTag addr))

/-- `IsInSet`. -/
def isInSet (s : LogTM) (pid : Pid) (addr : Address) (read : Bool) : Bool :=
  let tag := cfg.calcTag addr
  match (List.range cfg.associativity).find? fun i =>
      (cfg.getDataEntry s pid tag i).valid && (cfg.getDataEntry s pid tag i).tag == tag with
  | some i => (cfg.getDataEntry s pid tag i).flag read
  | none => false

/-- `ExistsCollision`; the source asks for the reads of the enemy when the access is a read. -/
def existsCollision (s : LogTM) (pid : Pid) (addr : Address) (isRead : Bool) : Bool :=
  cfg.isOverflown s pid addr || cfg.isInSet s pid addr false ||
    (if isRead then cfg.isInSet s pid addr true else false)

/-- `AddToSet`. -/
def addToSet (s : LogTM) (pid : Pid) (addr : Address) (read : Bool) : LogTM :=
  let tag := cfg.calcTag addr
  match (List.range cfg.associativity).find? fun i =>
      !(cfg.getDataEntry s pid tag i).valid || (cfg.getDataEntry s pid tag i).tag == tag with
  | some i =>
    cfg.setDataEntry s pid tag i (((cfg.getDataEntry s pid tag i).take tag).setFlag read)
  | none =>
    if cfg.isOverflown s pid addr then s
    else if cfg.setSpecificOverflow then
      { s with
        overflow := Function.update s.overflow pid
          (Function.update (s.overflow pid) (cfg.setOf tag) true) }
    else { s with overflow := Function.update s.overflow pid fun _ => true }

/-- The collision detection of a configuration. -/
def logTM : TableDetection LogTM where
  procCount := cfg.procCount
  init := .new
  addToSet := cfg.addToSet
  clearCollisionData := LogTM.clearCollisionData
  existsCollision := cfg.existsCollision

end LogTMConfig

end Sesc.Trans
