import Mathlib.Algebra.Group.Nat.Defs
import Mathlib.Data.Int.Notation
import Mathlib.Data.Nat.Notation
import Mathlib.Logic.Function.Basic
import Sesc.CacheCore.CacheGeneric
import Sesc.Lib.Check

/-!
# Branch prediction

What the branch predictors have in common: the key of an instruction, tables of saturating counters and
the branch target buffer.  Statistics and energy counters are left out.
-/

namespace Sesc.BPred

open Lib Sesc.CacheCore

/-- How a prediction may abort: by an assertion, an access outside of an array, a shift by a negative
amount or a division by zero. -/
inductive BPredFault
  | assertion
  | bound
  | shift
  | division
deriving DecidableEq, Repr

inductive PredType
  | CorrectPrediction
  | NoPrediction
  | NoBTBPrediction
  | MissPrediction
deriving DecidableEq, Repr

abbrev InstID := BitVec 32
abbrev HistoryType := BitVec 64

/-- The kinds of branches that the predictors tell apart. -/
inductive SubCode
  | BJUncond
  | BJCall
  | BJRet
  | other
deriving DecidableEq, Repr

structure Instruction where
  currentID : InstID
  subCode : SubCode
  guessTaken : Bool
  skipDelay : InstID
deriving DecidableEq, Repr

namespace Instruction

variable (inst : Instruction)

def calcNextInstID : InstID := inst.currentID + inst.skipDelay
def isBranchTaken : Bool := inst.subCode = .BJUncond
def isFuncCall : Bool := inst.subCode = .BJCall
def isFuncRet : Bool := inst.subCode = .BJRet
def guessAsTaken : Bool := inst.guessTaken

end Instruction

/-- A call of a predictor; the flag `odd` is the choice of a skewed target buffer. -/
structure Branch where
  inst : Instruction
  oracleID : InstID
  doUpdate : Bool
  odd : Bool
deriving DecidableEq, Repr

namespace Branch

variable (e : Branch)

def taken : Bool := e.inst.calcNextInstID ≠ e.oracleID

end Branch

/-! ## The key of an instruction -/

def roundUpPower2 (x : BitVec 32) : BitVec 32 :=
  let x := x - 1
  let x := x ||| x >>> 1
  let x := x ||| x >>> 2
  let x := x ||| x >>> 4
  let x := x ||| x >>> 8
  let x := x ||| x >>> 16
  x + 1

/-- The loop of `log2i`: the number of doublings until `m` is at least `n`. -/
def doublings (n : ℕ) : ℕ → ℕ → ℕ → ℕ
  | 0, i, _ => i
  | steps + 1, i, m => if m < n then doublings n steps (i + 1) (2 * m) else i

def log2i (n : BitVec 32) : ℕ :=
  if n = 1 then 0 else doublings (roundUpPower2 n).toNat 32 0 1

/-- The shift for a fetch width; without a configured `bpred4Cycle`, this is the fetch width. -/
def bpred4CycleAddrShift (fetchWidth : ℕ) (bpred4Cycle : Option ℕ) : ℕ :=
  log2i (BitVec.ofNat 32 (fetchWidth / bpred4Cycle.getD fetchWidth))

def calcInstID (bpred4CycleAddrShift : ℕ) (currentID : InstID) : HistoryType :=
  let cid := currentID.zeroExtend 64
  let cid := cid >>> bpred4CycleAddrShift
  let cid := (cid >>> 17) ^^^ cid
  if cid = 0 ∧ currentID.toNat < 10 then (currentID + 1).zeroExtend 64 else cid

/-! ## Tables of saturating counters -/

/-- A table of counters. -/
@[ext] structure SCTable where
  bits : ℕ
  sizeMask : HistoryType
  table : HistoryType → ℕ
  bits_pos : 0 < bits
  table_le : ∀ cid, table cid ≤ 2 ^ bits - 1

namespace SCTable

/-- The least value that predicts a taken branch. -/
def saturate (bits : ℕ) : ℕ := if 1 < bits then 2 ^ (bits - 1) else 1

/-- The counters of one bit and the others have as many values below the least one that predicts a
taken branch as from there on. -/
lemma two_mul_saturate {bits : ℕ} (h : 0 < bits) : 2 * saturate bits = 2 ^ bits - 1 + 1 := by
  have hpow : 2 ^ (bits - 1 + 1) = 2 ^ (bits - 1) * 2 := pow_succ 2 (bits - 1)
  have hpos : 0 < 2 ^ (bits - 1) := Nat.two_pow_pos _
  rw [Nat.sub_add_cancel h] at hpow
  unfold saturate
  split
  · omega
  · have hone : bits = 1 := by omega
    rw [hone]
    rfl

/-- The counters alternate between 1 and the value that makes up the saturation with it. -/
def new (size bits : ℕ) (h : 0 < bits) : SCTable where
  bits := bits
  sizeMask := BitVec.ofNat 64 size - 1
  table cid := if cid.toNat % 2 = 0 then 1 else saturate bits - 1
  bits_pos := h
  table_le cid := by
    have hsaturate := two_mul_saturate h
    split <;> omega

variable (t : SCTable) (cid : HistoryType) (taken : Bool)

def Saturate : ℕ := saturate t.bits
def MaxValue : ℕ := 2 ^ t.bits - 1

/-- The position of the counter of a key. -/
def index : HistoryType := cid &&& t.sizeMask

def entry : ℕ := t.table (t.index cid)

/-- The value of a counter after an outcome. -/
def train (entry : ℕ) : ℕ :=
  if taken then if entry < t.MaxValue then entry + 1 else entry
  else if 0 < entry then entry - 1 else entry

lemma train_le {entry : ℕ} (h : entry ≤ 2 ^ t.bits - 1) : t.train taken entry ≤ 2 ^ t.bits - 1 := by
  unfold train MaxValue
  split <;> split <;> omega

/-- Changing the counter of a key. -/
def set (value : ℕ) (h : value ≤ 2 ^ t.bits - 1) : SCTable where
  bits := t.bits
  sizeMask := t.sizeMask
  table := Function.update t.table (t.index cid) value
  bits_pos := t.bits_pos
  table_le c := by
    by_cases hc : c = t.index cid
    · rw [hc, Function.update_self]
      exact h
    · rw [Function.update_of_ne hc]
      exact t.table_le c

def predict : Bool := t.Saturate ≤ t.entry cid

def update : SCTable := t.set cid (t.train taken (t.entry cid)) (t.train_le taken (t.table_le _))

/-- The `predict` that is given the outcome, and updates the counter. -/
def predictUpdate : Bool × SCTable := (t.predict cid, t.update cid taken)

lemma resetValue_le : (if taken then t.Saturate else t.Saturate - 1) ≤ 2 ^ t.bits - 1 := by
  have hsaturate := two_mul_saturate t.bits_pos
  unfold Saturate
  split <;> omega

def reset : SCTable := t.set cid (if taken then t.Saturate else t.Saturate - 1) (t.resetValue_le taken)

/-- What a lookup reads after an update of the same counter. -/
lemma table_update : (t.update cid taken).table =
    Function.update t.table (t.index cid) (t.train taken (t.entry cid)) := rfl

lemma train_eq_self {entry : ℕ} :
    t.train taken entry = entry ↔ if taken then t.MaxValue ≤ entry else entry = 0 := by
  unfold train
  cases taken
  · simp only [Bool.false_eq_true, if_false]
    split <;> omega
  · simp only [if_true]
    split <;> omega

/-- Updates of two counters have the same effect on a table if they are one counter, or both have come
to their end. -/
lemma update_eq_update_iff {cid' : HistoryType} :
    t.update cid taken = t.update cid' taken ↔ t.index cid = t.index cid' ∨
      t.train taken (t.entry cid) = t.entry cid ∧ t.train taken (t.entry cid') = t.entry cid' := by
  constructor
  · intro h
    by_cases hindex : t.index cid = t.index cid'
    · exact .inl hindex
    · have htable : (t.update cid taken).table = (t.update cid' taken).table := by rw [h]
      rw [table_update, table_update] at htable
      have hfirst := congrFun htable (t.index cid)
      have hsecond := congrFun htable (t.index cid')
      rw [Function.update_self, Function.update_of_ne hindex] at hfirst
      rw [Function.update_self, Function.update_of_ne (Ne.symm hindex)] at hsecond
      exact .inr ⟨hfirst, hsecond.symm⟩
  · rintro (h | ⟨h, h'⟩)
    · refine SCTable.ext rfl rfl ?_
      rw [table_update, table_update, entry, entry, h]
    · refine SCTable.ext rfl rfl ?_
      rw [table_update, table_update, h, h', entry, entry, Function.update_eq_self,
        Function.update_eq_self]

end SCTable

/-! ## The branch target buffer -/

/-- The configuration of a branch target buffer; one of size 0 has no cache. -/
structure BTBConfig where
  bpred4CycleAddrShift : ℕ
  cache : Option (Implementation × Geometry)

/-- The cache of a branch target buffer, with the target in each line. -/
structure BPBTB where
  data : CacheGeneric
  inst : Line → InstID

namespace BPBTB

variable (C : BTBConfig) (b : BPBTB)

def new (C : BTBConfig) : BPBTB where
  data := C.cache.elim ⟨[], [], 0⟩ fun c => .new c.2
  inst _ := 0

/-- The address under which an instruction is in the cache. -/
def key (inst : Instruction) : Addr :=
  ((calcInstID C.bpred4CycleAddrShift inst.currentID).truncate 32).toNat

/-- A lookup; a line that is found is valid. -/
def readLine (impl : Implementation) (g : Geometry) (key : Addr) :
    Except BPredFault (Option Line × BPBTB) := do
  let cl := (b.data.findLine g key impl).1
  check .assertion (cl.all fun l => (b.data.line l).isValid)
  return (cl, { b with data := (b.data.findLine g key impl).2 })

/-- The flag is the choice of a skewed cache. -/
def fillLine (impl : Implementation) (g : Geometry) (key : Addr) (odd : Bool) :
    Except BPredFault (Line × BPBTB) :=
  match b.data.fillLine g impl key false odd with
  | (none, _, _) => .error .assertion
  | (some l, _, data) => do
    check .assertion (g.calcTag key ≠ 0)
    return (l, { b with data })

def updateOnly (inst : Instruction) (oracleID : InstID) (odd : Bool) : Except BPredFault BPBTB :=
  match C.cache with
  | none => .ok b
  | some (impl, g) =>
    if inst.calcNextInstID = oracleID then .ok b
    else do
      let (cl, b) ← b.fillLine impl g (key C inst) odd
      return { b with inst := Function.update b.inst cl oracleID }

def predict (inst : Instruction) (oracleID : InstID) (doUpdate odd : Bool) :
    Except BPredFault (PredType × BPBTB) :=
  let ntaken := decide (inst.calcNextInstID = oracleID)
  match C.cache with
  | none => do
    check .assertion (oracleID ≠ 0)
    return (if ntaken then .NoBTBPrediction else .CorrectPrediction, b)
  | some (impl, g) =>
    if ntaken ∨ !doUpdate then do
      let (cl, b) ← b.readLine impl g (key C inst)
      return (cl.elim .NoBTBPrediction fun cl =>
        if b.inst cl = oracleID then .CorrectPrediction else .NoBTBPrediction, b)
    else do
      let (cl, b) ← b.fillLine impl g (key C inst) odd
      let predictID := b.inst cl
      let b := { b with inst := Function.update b.inst cl oracleID }
      return (if predictID = oracleID then .CorrectPrediction else .NoBTBPrediction, b)

end BPBTB

end Sesc.BPred
