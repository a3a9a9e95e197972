import Sesc.BPred.Basic

/-!
# The YAGS predictor

The choice predictor says in which direction a branch goes by default; the direction cache of the
opposite direction has the exceptions, found by the key of the branch mixed with the history.

The cache for taken branches and the one for the others should be handled alike.  They are, but for the
counter that is trained when an entry for an exception to "taken" is made.
-/

namespace Sesc.BPred

open Lib

/-- The sizes of the two direction caches; a tag has at most 7 bits. -/
structure YagsConfig where
  btb : BTBConfig
  l1size : ℕ
  l2size : ℕ
  tagbits : ℕ
  tagbits_le : tagbits ≤ 7

namespace YagsConfig

variable (C : YagsConfig)

def CacheTakenMask : HistoryType := BitVec.ofNat 64 C.l1size - 1
def CacheTakenTagMask : HistoryType := BitVec.ofNat 64 (2 ^ C.tagbits - 1)
def CacheNotTakenMask : HistoryType := BitVec.ofNat 64 C.l2size - 1
def CacheNotTakenTagMask : HistoryType := BitVec.ofNat 64 (2 ^ C.tagbits - 1)

/-- The configuration with the sizes exchanged. -/
def mirror : YagsConfig := { C with l1size := C.l2size, l2size := C.l1size }

end YagsConfig

/-- The tables of `BPyags`; the caches have tags of 8 bits. -/
@[ext] structure Directions where
  ctableTaken : SCTable
  ctableNotTaken : SCTable
  CacheTaken : HistoryType → BitVec 8
  CacheNotTaken : HistoryType → BitVec 8

structure BPyags extends Directions where
  btb : BPBTB
  table : SCTable
  ghr : HistoryType

/-- The new value of a history of branches. -/
def shiftHistory (history iID : HistoryType) (taken : Bool) : HistoryType :=
  (history <<< 1) ||| (((iID >>> 2) &&& 1) ^^^ (if taken then 1 else 0))

namespace Directions

variable (C : YagsConfig) (d : Directions) (iID iIDHist : HistoryType) (taken doUpdate : Bool)

def hitsNotTaken : Bool :=
  (d.CacheNotTaken (iIDHist &&& C.CacheNotTakenMask)).zeroExtend 64 = iID &&& C.CacheNotTakenTagMask

def hitsTaken : Bool :=
  (d.CacheTaken (iIDHist &&& C.CacheTakenMask)).zeroExtend 64 = iID &&& C.CacheTakenTagMask

/-- The tag of a branch in an entry of the cache for branches that are not taken. -/
def setNotTaken : Directions :=
  let tag := (iID &&& C.CacheNotTakenTagMask).truncate 8
  { d with CacheNotTaken := Function.update d.CacheNotTaken (iIDHist &&& C.CacheNotTakenMask) tag }

def setTaken : Directions :=
  let tag := (iID &&& C.CacheTakenTagMask).truncate 8
  { d with CacheTaken := Function.update d.CacheTaken (iIDHist &&& C.CacheTakenMask) tag }

/-- The part of `predict` for a branch that is taken by default. -/
def searchNotTaken : Bool × Directions :=
  if d.hitsNotTaken C iID iIDHist then
    if doUpdate then
      let d := d.setNotTaken C iID iIDHist
      let (ptaken, ctableNotTaken) := d.ctableNotTaken.predictUpdate iIDHist taken
      (ptaken, { d with ctableNotTaken })
    else (d.ctableNotTaken.predict iIDHist, d)
  else if doUpdate ∧ taken = false then
    let d := d.setNotTaken C iID iIDHist
    (true, { d with ctableNotTaken := d.ctableNotTaken.update iID taken })
  else (true, d)

/-- The part of `predict` for a branch that is not taken by default. -/
def searchTaken : Bool × Directions :=
  if d.hitsTaken C iID iIDHist then
    if doUpdate then
      let d := d.setTaken C iID iIDHist
      let (ptaken, ctableTaken) := d.ctableTaken.predictUpdate iIDHist taken
      (ptaken, { d with ctableTaken })
    else (d.ctableTaken.predict iIDHist, d)
  else if doUpdate ∧ taken = true then
    let d := d.setTaken C iID iIDHist
    (false, { d with ctableTaken := d.ctableTaken.update iIDHist taken })
  else (false, d)

end Directions

namespace BPBTB

/-- The end of most predictors: a branch that is predicted as taken is looked up in the target
buffer. -/
def conclude (C : BTBConfig) (b : BPBTB) (inst : Instruction) (oracleID : InstID)
    (taken ptaken doUpdate odd : Bool) : Except BPredFault (PredType × BPBTB) :=
  if taken ≠ ptaken then
    if doUpdate then do
      let b ← b.updateOnly C inst oracleID odd
      return (.MissPrediction, b)
    else .ok (.MissPrediction, b)
  else if ptaken then b.predict C inst oracleID doUpdate odd
  else .ok (.CorrectPrediction, b)

end BPBTB

namespace BPyags

def historySize : ℕ := 24
def historyMask : HistoryType := 0xFFFFFF

/-- The key of a branch, mixed with the history. -/
def mixed (history iID : HistoryType) : HistoryType :=
  ((history ^^^ iID) &&& historyMask) ||| (iID <<< historySize)

def predict (C : YagsConfig) (y : BPyags) (inst : Instruction) (oracleID : InstID)
    (doUpdate odd : Bool) : Except BPredFault (PredType × BPyags) :=
  if inst.isBranchTaken then do
    let (pred, btb) ← y.btb.predict C.btb inst oracleID doUpdate odd
    return (pred, { y with btb })
  else do
    let taken := decide (inst.calcNextInstID ≠ oracleID)
    let iID := calcInstID C.btb.bpred4CycleAddrShift inst.currentID
    let iIDHist := mixed y.ghr iID
    let choice := y.table.predict iID
    let ghr := if doUpdate then shiftHistory y.ghr iID taken &&& historyMask else y.ghr
    let table := if doUpdate then y.table.update iID taken else y.table
    let (ptaken, d) :=
      if choice then y.searchNotTaken C iID iIDHist taken doUpdate
      else y.searchTaken C iID iIDHist taken doUpdate
    let (pred, btb) ← y.btb.conclude C.btb inst oracleID taken ptaken doUpdate odd
    return (pred, ⟨d, btb, table, ghr⟩)

end BPyags

end Sesc.BPred
