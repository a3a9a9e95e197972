import Mathlib.Data.Int.Notation
import Sesc.BPred.Basic
import Sesc.Core.FastQueue

/-!
# The fetch engine

A fetch engine fills a bucket with the instructions that its flow executes, and counts them.

What happens while it does so is recorded: for each time that it asks for an instruction, what it gets,
what the branch predictor says to it, and whether a context switch takes place.  Histograms and the
scheduling of `unBlockFetch` are left out, and so is the fetching of wrong paths, which is not compiled
in; `unBlockFetch` itself is a step of the environment.
-/

namespace Sesc.Core

open Lib Sesc.BPred

structure FetchConfig where
  FetchWidth : ℕ
  bb4Cycle : ℕ
  nInst2Sim : ℕ
  one_le_FetchWidth : 1 ≤ FetchWidth
  FetchWidth_le : FetchWidth ≤ 1024
  bb4Cycle_le : bb4Cycle ≤ 1024

/-- The limit of taken branches for a cycle; 0 stands for no limit. -/
def FetchConfig.BB4Cycle (C : FetchConfig) : BitVec 16 :=
  if C.bb4Cycle = 0 then 65535 else BitVec.ofNat 16 C.bb4Cycle

/-- An executed instruction, with the instruction that follows it and the prediction for it. -/
structure FetchedInst where
  isBranch : Bool
  calcNextInstID : InstID
  oracleID : InstID
  prediction : PredType
deriving DecidableEq, Repr

/-- What `executePC` does: it may switch to another process, and it may return no instruction. -/
structure Execution where
  dinst : Option FetchedInst
  switchedTo : Option ℤ
  isBusyWaiting : Bool
deriving DecidableEq, Repr

/-- The execution returns an instruction. -/
def Execution.found (o : Execution) : Bool := o.dinst.isSome

structure FetchEngine where
  pid : ℤ
  missInstID : InstID
  missFetchTime : ℕ
  bbSize : BitVec 16
  fbSize : BitVec 16
  fbSizeBB : BitVec 16
  maxBB : BitVec 16
  nFetched : ℕ
  nGradInsts : ℕ
deriving DecidableEq, Repr

/-- The counters outside of the engine: that of all engines, whether the simulation has been stopped, and
what the engines have handed over to their processes. -/
structure FetchTotals where
  totalnInst : ℕ
  stopped : Bool
  handedOver : ℕ
deriving DecidableEq, Repr

/-- An engine with these counters. -/
structure FetchState extends FetchEngine, FetchTotals
deriving DecidableEq, Repr

/-- The bucket that an engine fills. -/
abbrev FetchBuffer := FastQueue FetchedInst

namespace FetchEngine

def new (C : FetchConfig) : FetchEngine where
  pid := -1
  missInstID := 0
  missFetchTime := 0
  bbSize := 0
  fbSize := 0
  fbSizeBB := C.BB4Cycle
  maxBB := 0
  nFetched := 0
  nGradInsts := 0

variable (C : FetchConfig) (fe : FetchEngine)

def hasWork : Bool := 0 ≤ fe.pid

def unBlockFetch : Except Fault FetchEngine := do
  check .assertion (fe.missInstID ≠ 0)
  return { fe with missInstID := 0, missFetchTime := 0 }

def switchIn (i : ℤ) : Except Fault FetchEngine := do
  check .assertion (fe.pid = -1)
  check .assertion (0 ≤ i)
  return { fe with pid := i }

/-- A taken branch ends a fetch block after `BB4Cycle` of them. -/
def endBlock : FetchEngine :=
  if fe.fbSizeBB - 1 = 0 then { fe with fbSize := 0, fbSizeBB := C.BB4Cycle }
  else { fe with fbSizeBB := fe.fbSizeBB - 1 }

/-- The result tells whether to go on. -/
def processBranch (now : ℕ) (d : FetchedInst) : Except Fault (Bool × FetchEngine) :=
  let taken := decide (d.oracleID ≠ d.calcNextInstID)
  let fe := if taken then fe.endBlock C else fe
  if d.prediction = .CorrectPrediction then
    if taken then .ok (fe.maxBB - 1 ≠ 0, { fe with maxBB := fe.maxBB - 1 })
    else .ok (true, fe)
  else do
    check .assertion (fe.missInstID = 0)
    check .assertion (fe.missFetchTime = 0)
    return (false, { fe with missFetchTime := now, missInstID := d.calcNextInstID })

/-- What is done with an instruction that has been put into the bucket. -/
def countInst (now : ℕ) (d : FetchedInst) : Except Fault (Bool × FetchEngine) :=
  let fe := { fe with bbSize := fe.bbSize + 1, fbSize := fe.fbSize + 1 }
  if d.isBranch then { fe with bbSize := 0 }.processBranch C now d else .ok (true, fe)

end FetchEngine

namespace FetchState

variable (C : FetchConfig) (s : FetchState)

/-- The counted instructions are handed over to the process that is switched out. -/
def getAndClearnGradInsts : FetchState :=
  { s with nGradInsts := 0, handedOver := s.handedOver + s.nGradInsts }

def switchOut : Except Fault FetchState := do
  check .assertion (0 ≤ s.pid)
  return { s.getAndClearnGradInsts with pid := -1 }

/-- An instruction is counted before it is executed, since there may be a context switch. -/
def executePC (o : Execution) : FetchState :=
  let s := { s with nGradInsts := s.nGradInsts + 1 }
  match o.switchedTo with
  | none => s
  | some pid => { s.getAndClearnGradInsts with pid }

/-- The loop of `realFetch`, over the record of the executions; the result has what is left of it. -/
def fetchLoop (now : ℕ) (myPid : ℤ) : List Execution → ℤ → FetchState → FetchBuffer →
    Except Fault (ℤ × FetchState × FetchBuffer × List Execution)
  | [], _, _, _ => .error .noSuchEvent
  | o :: rest, n2Fetched, s, bucket =>
    let s := s.executePC o
    match o.dinst with
    | none => .ok (n2Fetched, s, bucket, rest)
    | some d => do
      let bucket ← bucket.push d
      let n2Fetched := n2Fetched - 1
      let (goesOn, fe) ← s.countInst C now d
      let s := { s with toFetchEngine := fe }
      if goesOn ∧ 0 < n2Fetched ∧ s.pid = myPid ∧ !o.isBusyWaiting then
        fetchLoop now myPid rest n2Fetched s bucket
      else return (n2Fetched, s, bucket, rest)

/-- What remains of the limit is subtracted from the width, as an unsigned number of 16 bits. -/
def countFetched (n2Fetched : ℤ) : FetchState :=
  let tmp := ((C.FetchWidth - n2Fetched) % 65536).toNat
  { s with
    totalnInst := s.totalnInst + tmp
    stopped := s.stopped || C.nInst2Sim ≤ s.totalnInst + tmp
    nFetched := s.nFetched + tmp }

/-- The instructions to fetch at most. -/
def limit (fetchMax : ℤ) : ℤ := if 0 < fetchMax then fetchMax else C.FetchWidth

/-- The record has an entry for each time that an instruction is asked for. -/
def realFetch (now : ℕ) (fetchMax : ℤ) (os : List Execution) (bucket : FetchBuffer) :
    Except Fault (FetchState × FetchBuffer) := do
  let s := { s with maxBB := C.BB4Cycle }
  check .assertion (0 ≤ s.pid)
  check .assertion (s.maxBB ≠ 0)
  check .assertion (bucket.size = 0)
  check .assertion (s.missInstID = 0)
  let (n2Fetched, s, bucket, rest) ← fetchLoop C now s.pid os (limit C fetchMax) s bucket
  check .noSuchEvent (rest.isEmpty)
  return (s.countFetched C n2Fetched, bucket)

/-- An engine that waits for a branch fetches nothing. -/
def fetch (now : ℕ) (fetchMax : ℤ) (os : List Execution) (bucket : FetchBuffer) :
    Except Fault (FetchState × FetchBuffer) :=
  if s.missInstID ≠ 0 then do
    check .noSuchEvent (os.isEmpty)
    return (s, bucket)
  else s.realFetch C now fetchMax os bucket

end FetchState

/-! ## Several flows -/

structure SMTConfig extends FetchConfig where
  smtContexts : ℕ
  one_lt_smtContexts : 1 < smtContexts

/-- The flows of a processor, with the variables of the loop over them that fetches.  The instructions in
the buckets are counted by `delivered`, which is not in the code. -/
structure SMTProcessor extends FetchTotals where
  flow : ℕ → FetchEngine
  cFetchId : Option ℕ
  i : ℕ
  nFetched : ℕ
  fetchMax : ℤ
  delivered : ℕ

/-- What happens to the flows: the fetch stage of a cycle begins, it serves the next flow, which may have
no bucket, or something happens to a flow from outside. -/
inductive FetchEvent
  | advanceClock
  | serve (now : ℕ) (hasBucket : Bool) (os : List Execution)
  | unBlockFetch (k : ℕ)
  | switchIn (pid : ℤ)
  | switchOut (pid : ℤ)
deriving DecidableEq, Repr

namespace SMTProcessor

variable (C : SMTConfig) (s : SMTProcessor)

def new : SMTProcessor where
  totalnInst := 0
  stopped := false
  handedOver := 0
  flow _ := .new C.toFetchConfig
  cFetchId := some 0
  i := C.smtContexts
  nFetched := 0
  fetchMax := 0
  delivered := 0

/-- The round-robin policy: the next flow with work, within the given number of tries. -/
def nextFlow : ℕ → Option ℕ → Option ℕ
  | 0, _ => none
  | tries + 1, k =>
    let k := (k.elim 0 (· + 1)) % C.smtContexts
    if (s.flow k).hasWork then some k else nextFlow tries (some k)

/-- The first flow that passes a test. -/
def findFlow (p : FetchEngine → Bool) : Except Fault ℕ :=
  ((List.range C.smtContexts).find? fun k => p (s.flow k)).elim (.error .assertion) .ok

def selectFetchFlow : SMTProcessor := { s with cFetchId := s.nextFlow C C.smtContexts s.cFetchId }

/-- A flow with the counters that it shares. -/
def fetching (k : ℕ) : FetchState := ⟨s.flow k, s.toFetchTotals⟩

def setFetching (k : ℕ) (f : FetchState) : SMTProcessor :=
  { s with flow := Function.update s.flow k f.toFetchEngine, toFetchTotals := f.toFetchTotals }

/-- The limit for the next flow. -/
def nextFetchMax : ℤ :=
  if C.FetchWidth - s.nFetched < s.fetchMax then C.FetchWidth - s.nFetched else s.fetchMax

/-- One step of the loop over the flows. -/
def serve (now : ℕ) (hasBucket : Bool) (os : List Execution) : Except Fault SMTProcessor := do
  check .noSuchEvent (s.i < C.smtContexts ∧ s.nFetched < C.FetchWidth)
  let s := { s.selectFetchFlow C with i := s.i + 1 }
  match s.cFetchId with
  | none => return s
  | some k => do
    check .assertion (0 < s.nextFetchMax C)
    let s := { s with fetchMax := s.nextFetchMax C }
    if hasBucket then do
      let bucket ← FastQueue.new (C.FetchWidth + 1)
      let (f, bucket) ← (s.fetching k).fetch C.toFetchConfig now s.fetchMax os bucket
      let s := s.setFetching k f
      return { s with nFetched := s.nFetched + bucket.size, delivered := s.delivered + bucket.size }
    else return s

def step : SMTProcessor → FetchEvent → Except Fault SMTProcessor
  | s, .advanceClock => .ok { s with i := 0, nFetched := 0, fetchMax := C.FetchWidth }
  | s, .serve now hasBucket os => s.serve C now hasBucket os
  | s, .unBlockFetch k => do
    let fe ← (s.flow k).unBlockFetch
    return { s with flow := Function.update s.flow k fe }
  | s, .switchIn pid => do
    let k ← s.findFlow C fun fe => fe.pid < 0
    let fe ← (s.flow k).switchIn pid
    return { s with flow := Function.update s.flow k fe }
  | s, .switchOut pid => do
    let k ← s.findFlow C fun fe => fe.pid = pid
    let f ← (s.fetching k).switchOut
    return s.setFetching k f

/-- The fetch stages of a processor, with several flows. -/
def fetchStage : Machine SMTProcessor FetchEvent Fault := ⟨new C, step C⟩

end SMTProcessor

end Sesc.Core
