import Sesc.BPred.Ogehl
import Sesc.BPred.TargetBuffer
import Sesc.Lib.Machine

/-!
# The branch predictors

The return address stack, the predictors with tables for the direction of a branch, and the choice of a
predictor.

The masks for the histories are computed by shifts that are not defined for 31 bits and more, so they
are parameters.
-/

namespace Sesc.BPred

open Lib

/-! ## The return address stack -/

structure BPRas where
  stack : ℕ → InstID
  index : ℕ

namespace BPRas

/-- The position before another one. -/
def previous (RasSize index : ℕ) : ℕ := if index = 0 then RasSize - 1 else index - 1

/-- The position after another one. -/
def following (RasSize index : ℕ) : ℕ := if RasSize ≤ index + 1 then 0 else index + 1

def predict (RasSize : ℕ) (s : BPRas) (inst : Instruction) (oracleID : InstID) (doUpdate : Bool) :
    PredType × BPRas :=
  if inst.isFuncRet then
    if RasSize = 0 then (.CorrectPrediction, s)
    else
      let s := if doUpdate then { s with index := previous RasSize s.index } else s
      (if s.stack s.index = oracleID then .CorrectPrediction else .MissPrediction, s)
  else if inst.isFuncCall ∧ RasSize ≠ 0 ∧ doUpdate then
    (.NoPrediction, { s with
      stack := Function.update s.stack s.index inst.calcNextInstID
      index := following RasSize s.index })
  else (.NoPrediction, s)

end BPRas

/-! ## Predictors of the direction -/

/-- The lookup in a table of counters, with or without an update. -/
def SCTable.ask (t : SCTable) (cid : HistoryType) (taken doUpdate : Bool) : Bool × SCTable :=
  if doUpdate then t.predictUpdate cid taken else (t.predict cid, t)

/-- A predictor with a target buffer and tables for the direction of a branch. -/
structure Directed (σ : Type) where
  btb : BPBTB
  tables : σ

/-- What tables say about a branch, given its outcome and whether they are updated. -/
abbrev Direction (σ : Type) := σ → Instruction → Bool → Bool → Bool × σ

/-- The prediction that most predictors make, for the direction that their tables give. -/
def Directed.predict {σ : Type} (C : BTBConfig) (direction : Direction σ) (s : Directed σ)
    (inst : Instruction) (oracleID : InstID) (doUpdate odd : Bool) :
    Except BPredFault (PredType × Directed σ) :=
  if inst.isBranchTaken then do
    let (pred, btb) ← s.btb.predict C inst oracleID doUpdate odd
    return (pred, { s with btb })
  else do
    let taken := decide (inst.calcNextInstID ≠ oracleID)
    let (ptaken, tables) := direction s.tables inst taken doUpdate
    let (pred, btb) ← s.btb.conclude C inst oracleID taken ptaken doUpdate odd
    return (pred, ⟨btb, tables⟩)

namespace BPStatic

/-- The direction is encoded in the instruction; a jump is no special case. -/
def predict (C : BTBConfig) (btb : BPBTB) (inst : Instruction) (oracleID : InstID)
    (doUpdate odd : Bool) : Except BPredFault (PredType × BPBTB) :=
  btb.conclude C inst oracleID (inst.calcNextInstID ≠ oracleID) inst.guessAsTaken doUpdate odd

end BPStatic

namespace BP2bit

def direction (C : BTBConfig) : Direction SCTable := fun table inst taken doUpdate =>
  table.ask (calcInstID C.bpred4CycleAddrShift inst.currentID) taken doUpdate

def predict (C : BTBConfig) := Directed.predict C (direction C)

end BP2bit

/-- The key of a branch, mixed with a history. -/
def mixHistory (historySize : ℕ) (historyMask history iID : HistoryType) : HistoryType :=
  ((history ^^^ iID) &&& historyMask) ||| (iID <<< historySize)

namespace BP2level

structure Config where
  btb : BTBConfig
  l1SizeMask : HistoryType
  historySize : ℕ
  historyMask : HistoryType

structure Tables where
  historyTable : HistoryType → HistoryType
  globalTable : SCTable

def direction (C : Config) : Direction Tables := fun s inst taken doUpdate =>
  let iID := calcInstID C.btb.bpred4CycleAddrShift inst.currentID
  let l1Index := iID &&& C.l1SizeMask
  let history := s.historyTable l1Index
  let historyTable :=
    if doUpdate then
      Function.update s.historyTable l1Index (shiftHistory history iID taken &&& C.historyMask)
    else s.historyTable
  let l2Index := mixHistory C.historySize C.historyMask history iID
  let (ptaken, globalTable) := s.globalTable.ask l2Index taken doUpdate
  (ptaken, ⟨historyTable, globalTable⟩)

def predict (C : Config) := Directed.predict C.btb (direction C)

end BP2level

namespace BPHybrid

structure Config where
  btb : BTBConfig
  historySize : ℕ
  historyMask : HistoryType

structure Tables where
  ghr : HistoryType
  globalTable : SCTable
  localTable : SCTable
  metaTable : SCTable

/-- The choice between the global and the local prediction; it is trained when one of them is wrong. -/
def choose (metaTable : SCTable) (l2Index : HistoryType) (globalTaken localTaken taken doUpdate : Bool) :
    Bool × SCTable :=
  if !doUpdate then (metaTable.predict l2Index, metaTable)
  else if globalTaken = taken ∧ localTaken ≠ taken then metaTable.predictUpdate l2Index false
  else if globalTaken ≠ taken ∧ localTaken = taken then metaTable.predictUpdate l2Index true
  else (metaTable.predict l2Index, metaTable)

def direction (C : Config) : Direction Tables := fun s inst taken doUpdate =>
  let iID := calcInstID C.btb.bpred4CycleAddrShift inst.currentID
  let ghr := if doUpdate then shiftHistory s.ghr iID taken &&& C.historyMask else s.ghr
  let l2Index := mixHistory C.historySize C.historyMask s.ghr iID
  let (globalTaken, globalTable) := s.globalTable.ask l2Index taken doUpdate
  let (localTaken, localTable) := s.localTable.ask iID taken doUpdate
  let (metaOut, metaTable) := choose s.metaTable l2Index globalTaken localTaken taken doUpdate
  (if metaOut then localTaken else globalTaken, ⟨ghr, globalTable, localTable, metaTable⟩)

def predict (C : Config) := Directed.predict C.btb (direction C)

end BPHybrid

namespace BP2BcgSkew

structure Config where
  btb : BTBConfig
  G0HistorySize : ℕ
  G0HistoryMask : HistoryType
  G1HistorySize : ℕ
  G1HistoryMask : HistoryType
  MetaHistorySize : ℕ
  MetaHistoryMask : HistoryType

structure Tables where
  BIM : SCTable
  G0 : SCTable
  G1 : SCTable
  metaTable : SCTable
  history : HistoryType

/-- The vote of three predictions. -/
def vote (G0Out G1Out BIMOut : Bool) : Bool := 2 ≤ G0Out.toNat + G1Out.toNat + BIMOut.toNat

/-- The training after a wrong prediction. -/
def trainWrong (s : Tables) (iID G0Index G1Index metaIndex : HistoryType) (taken : Bool) : Tables :=
  let BIM := s.BIM.update iID taken
  let G0 := s.G0.update G0Index taken
  let G1 := s.G1.update G1Index taken
  let BIMOut := BIM.predict iID
  let gskewOut := vote (G0.predict G0Index) (G1.predict G1Index) BIMOut
  let metaTable :=
    if BIMOut ≠ gskewOut then s.metaTable.update metaIndex (BIMOut = taken)
    else s.metaTable.reset metaIndex (BIMOut = taken)
  ⟨BIM, G0, G1, metaTable, s.history⟩

/-- The training after a correct prediction: without the choice of BIM, of those that are right. -/
def trainRight (s : Tables) (iID G0Index G1Index metaIndex : HistoryType)
    (metaOut BIMOut G0Out G1Out taken : Bool) : Tables where
  BIM := if metaOut ∨ BIMOut = taken then s.BIM.update iID taken else s.BIM
  G0 := if !metaOut ∧ G0Out = taken then s.G0.update G0Index taken else s.G0
  G1 := if !metaOut ∧ G1Out = taken then s.G1.update G1Index taken else s.G1
  metaTable :=
    if BIMOut ≠ vote G0Out G1Out BIMOut then s.metaTable.update metaIndex (BIMOut = taken)
    else s.metaTable
  history := shiftHistory s.history iID taken

def direction (C : Config) : Direction Tables := fun s inst taken doUpdate =>
  let iID := calcInstID C.btb.bpred4CycleAddrShift inst.currentID
  let metaIndex :=
    ((s.history ^^^ iID) &&& C.MetaHistoryMask) ||| (iID <<< C.MetaHistorySize)
  let G0Index := ((s.history ^^^ (iID >>> 2)) &&& C.G0HistoryMask) ||| (iID <<< C.G0HistorySize)
  let G1Index := ((s.history ^^^ (iID >>> 4)) &&& C.G1HistoryMask) ||| (iID <<< C.G1HistorySize)
  let metaOut := s.metaTable.predict metaIndex
  let BIMOut := s.BIM.predict iID
  let G0Out := s.G0.predict G0Index
  let G1Out := s.G1.predict G1Index
  let ptaken := if metaOut then BIMOut else vote G0Out G1Out BIMOut
  let tables :=
    if !doUpdate then s
    else if ptaken ≠ taken then trainWrong s iID G0Index G1Index metaIndex taken
    else trainRight s iID G0Index G1Index metaIndex metaOut BIMOut G0Out G1Out taken
  (ptaken, tables)

def predict (C : Config) := Directed.predict C.btb (direction C)

end BP2BcgSkew

/-! ## The choice of a predictor -/

/-- A `BPred` of one of the classes, with its configuration. -/
inductive Predictor
  | ras (RasSize : ℕ) (s : BPRas)
  | btb (C : BTBConfig) (s : BPBTB)
  | static (C : BTBConfig) (s : BPBTB)
  | twoBit (C : BTBConfig) (s : Directed SCTable)
  | twoLevel (C : BP2level.Config) (s : Directed BP2level.Tables)
  | hybrid (C : BPHybrid.Config) (s : Directed BPHybrid.Tables)
  | twoBcgSkew (C : BP2BcgSkew.Config) (s : Directed BP2BcgSkew.Tables)
  | yags (C : YagsConfig) (s : BPyags)
  | ogehl (C : OgehlConfig) (s : BPOgehl)

namespace Predictor

def predict (inst : Instruction) (oracleID : InstID) (doUpdate odd : Bool) :
    Predictor → Except BPredFault (PredType × Predictor)
  | .ras n s => .ok ((s.predict n inst oracleID doUpdate).map id (.ras n))
  | .btb C s => (s.predict C inst oracleID doUpdate odd).map (Prod.map id (.btb C))
  | .static C s => (BPStatic.predict C s inst oracleID doUpdate odd).map (Prod.map id (.static C))
  | .twoBit C s => (BP2bit.predict C s inst oracleID doUpdate odd).map (Prod.map id (.twoBit C))
  | .twoLevel C s => (BP2level.predict C s inst oracleID doUpdate odd).map (Prod.map id (.twoLevel C))
  | .hybrid C s => (BPHybrid.predict C s inst oracleID doUpdate odd).map (Prod.map id (.hybrid C))
  | .twoBcgSkew C s =>
    (BP2BcgSkew.predict C s inst oracleID doUpdate odd).map (Prod.map id (.twoBcgSkew C))
  | .yags C s => (s.predict C inst oracleID doUpdate odd).map (Prod.map id (.yags C))
  | .ogehl C s => (s.predict C inst oracleID doUpdate odd).map (Prod.map id (.ogehl C))

/-- The target buffer is empty; the tables may have any contents. -/
def Fresh : Predictor → Prop
  | .ras _ _ => True
  | .btb C s => s = .new C
  | .static C s => s = .new C
  | .twoBit C s => s.btb = .new C
  | .twoLevel C s => s.btb = .new C.btb
  | .hybrid C s => s.btb = .new C.btb
  | .twoBcgSkew C s => s.btb = .new C.btb
  | .yags C s => s.btb = .new C.btb
  | .ogehl C s => s.btb = .new C.btb

/-- A predictor, over any sequence of calls. -/
def calls (p : Predictor) : Machine Predictor Branch BPredFault where
  init := p
  step p e := (p.predict e.inst e.oracleID e.doUpdate e.odd).map Prod.snd

end Predictor

end Sesc.BPred
