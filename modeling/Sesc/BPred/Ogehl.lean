import Mathlib.Algebra.Ring.Int.Defs
import Sesc.BPred.Yags

/-!
# The O-GEHL predictor

The prediction is the sign of the sum of the counters that several tables have for a branch.  Each table
is indexed by a hash of the branch, the history of paths and a part of the history of outcomes, whose
length grows from table to table and adapts to the program.

An `int` that is shifted left keeps its low 32 bits.  The lengths of the histories are computed with real
numbers; they are at most `glength`.
-/

namespace Sesc.BPred

open Lib

/-- The configurations that the constructor accepts. -/
structure OgehlConfig where
  btb : BTBConfig
  /-- The logarithm of `tsize`. -/
  logTsize : ℕ
  mtables : ℕ
  tbits : ℕ
  tcbits : ℕ
  histLength : ℕ → ℕ
  one_le_logTsize : 1 ≤ logTsize
  logTsize_le : logTsize ≤ 30
  six_le_mtables : 6 ≤ mtables
  mtables_le : mtables ≤ 32
  one_le_tbits : 1 ≤ tbits
  tbits_le : tbits ≤ 15
  one_le_tcbits : 1 ≤ tcbits
  tcbits_le : tcbits ≤ 15
  histLength_le : ∀ i, histLength i ≤ 200

namespace OgehlConfig

variable (C : OgehlConfig)

def tsize : ℕ := 2 ^ C.logTsize
def logpred : ℕ := log2i (BitVec.ofNat 32 C.tsize)
def M_SIZ : ℕ := C.mtables
def THETAUP : ℤ := 2 ^ (C.tcbits - 1)
def PREDUP : ℤ := 2 ^ (C.tbits - 1)

/-- The `logpred` that is in force for a table. -/
def logpredOf (i : ℕ) : ℕ := if i = 1 then C.logpred - 1 else C.logpred

end OgehlConfig

def glength : ℕ := 200
def nentry : ℕ := 3
def addwidth : ℕ := 8
def MAXTHETA : ℤ := 31

structure BPOgehl where
  btb : BPBTB
  THETA : ℤ
  phist : BitVec 64
  ghist : ℕ → BitVec 64
  usedHistLength : ℕ → ℕ
  T : ℕ → ℕ
  AC : ℤ
  MINITAG : ℕ → ℤ
  pred : ℕ → ℕ → BitVec 8
  TC : ℤ

/-! ## The index function -/

namespace Geoidx

/-- A shift to the right, of a signed number. -/
def shiftRight (x : BitVec 64) (k : ℤ) : Except BPredFault (BitVec 64) := do
  check .shift (0 ≤ k)
  return x.sshiftRight k.toNat

def shiftLeft (x : BitVec 64) (k : ℤ) : Except BPredFault (BitVec 64) := do
  check .shift (0 ≤ k)
  return x <<< k.toNat

/-- The `int` with the lowest bits set. -/
def lowest (k : ℕ) : BitVec 64 := (1#32 <<< k - 1#32).signExtend 64

variable (sizeT : ℕ) (T : ℕ → ℕ)

/-- The word of the history that the next bit is taken from, the number of words in use, and the
distance to the bit. -/
def nextWord (histo : ℕ → BitVec 64) (i PT : ℕ) (Hh : BitVec 64) :
    Except BPredFault (BitVec 64 × ℕ × ℤ) :=
  if T i &&& 0xffc0 = T (i - 1) &&& 0xffc0 then .ok (Hh, PT, T i - T (i - 1))
  else do
    check .bound (PT ≤ glength >>> 6)
    return (histo PT, PT + 1, (T i &&& 63 : ℕ))

/-- The loop over the positions in the history of outcomes; no more steps are possible than there are
entries of `T`.  The result is the first position that is not in the history, and the bits. -/
def sampleHistory (histo : ℕ → BitVec 64) (m : ℕ) :
    ℕ → ℕ → ℕ → BitVec 64 → BitVec 64 → Except BPredFault (ℕ × BitVec 64)
  | 0, _, _, _, _ => .error .bound
  | steps + 1, i, PT, Hh, inter => do
    check .bound (i < sizeT)
    if T i < m then do
      let (Hh, PT, shift) ← nextWord T histo i PT Hh
      let inter := inter <<< 1
      let Hh ← shiftRight Hh shift
      sampleHistory histo m steps (i + 1) PT Hh (inter ^^^ (Hh &&& 1))
    else return (i, inter)

/-- The loops over the positions in the address and in the history of paths, which are the ones from
`start` up to `stop`. -/
def sampleBits (Hh : BitVec 64) (start stop : ℕ) :
    ℕ → ℕ → BitVec 64 → Except BPredFault (ℕ × BitVec 64)
  | 0, _, _ => .error .bound
  | steps + 1, i, inter => do
    check .bound (i < sizeT)
    if T i < stop then do
      let inter := inter <<< 1
      let bits ← shiftRight Hh (T i - start)
      sampleBits Hh start stop steps (i + 1) (inter ^^^ (bits &&& 1))
    else return (i, inter)

/-- The `n` positions that are sampled, with the end behind them. -/
def spread (n total : ℕ) : ℕ → ℕ := fun x =>
  if x < n then x * (total - 1) / (n - 1) else if x = n then total else T x

def positions (logpred m plength : ℕ) : Except BPredFault (ℕ → ℕ) := do
  let n := nentry * logpred
  check .bound (n < sizeT)
  check .division (n = 0 ∨ n - 1 ≠ 0)
  return spread T n (addwidth + m + plength)

/-- The sampled bits, when there are too few entries for all of them. -/
def sample (Add : BitVec 64) (histo : ℕ → BitVec 64) (phisto : BitVec 64) (m plength : ℕ) :
    Except BPredFault (BitVec 64) := do
  check .bound (0 < sizeT)
  let Hh ← shiftRight (histo 0) (T 0)
  let (i, inter) ← sampleHistory sizeT T histo m (sizeT - 1) 1 1 Hh (Hh &&& 1)
  let (i, inter) ← sampleBits sizeT T Add m (m + addwidth) (sizeT - i + 1) i inter
  let (_, inter) ←
    sampleBits sizeT T phisto (m + addwidth) (m + plength + addwidth) (sizeT - i + 1) i inter
  return inter

/-- The loop that folds the sampled bits into an index. -/
def fold (logpred : ℕ) : ℕ → BitVec 64 → ℕ → BitVec 64 → Except BPredFault (BitVec 64)
  | 0, _, _, Res => .ok Res
  | steps + 1, inter, FUNCT, Res => do
    let inter := inter.sshiftRight logpred
    let low ← shiftRight (inter &&& lowest logpred) FUNCT
    let high ← shiftLeft (inter &&& lowest FUNCT) (logpred - FUNCT)
    check .division (logpred ≠ 0)
    fold logpred steps inter ((FUNCT + 1) % logpred) (Res ^^^ (low ^^^ high))

end Geoidx

/-- The index, and the positions that are left in the scratch array `T`. -/
def geoidx (sizeT : ℕ) (T : ℕ → ℕ) (logpred : ℕ) (Add : BitVec 64) (histo : ℕ → BitVec 64)
    (phisto : BitVec 64) (m funct : ℕ) : Except BPredFault (ℕ × (ℕ → ℕ)) := do
  let plength := if m < 16 then m else 16
  let MinAdd : ℤ := min (nentry * logpred - m - plength) 20
  let finish (inter : BitVec 64) (T : ℕ → ℕ) : Except BPredFault (ℕ × (ℕ → ℕ)) := do
    let Res ← Geoidx.fold logpred (nentry - 1) inter funct (inter &&& Geoidx.lowest logpred)
    return (Res.toNat, T)
  if 8 ≤ MinAdd then
    let MinAdd := MinAdd.toNat
    finish (((histo 0 &&& Geoidx.lowest m) <<< (MinAdd + plength)) +
      ((Add &&& Geoidx.lowest MinAdd) <<< plength) + (phisto &&& Geoidx.lowest plength)) T
  else do
    let T ← Geoidx.positions sizeT T logpred m plength
    let inter ← Geoidx.sample sizeT T Add histo phisto m plength
    finish inter T

/-! ## The predictor -/

namespace BPOgehl

variable (C : OgehlConfig) (s : BPOgehl) (inst : Instruction)

def new (C : OgehlConfig) (btb : BPBTB) (T : ℕ → ℕ) : BPOgehl where
  btb := btb
  THETA := C.mtables
  phist := 0
  ghist _ := 0
  usedHistLength := C.histLength
  T := T
  AC := 0
  MINITAG _ := 0
  pred _ _ := 0
  TC := 0

/-- The indices into the first tables, the sum of their counters and the scratch array. -/
def lookup : ℕ → Except BPredFault ((ℕ → ℕ) × ℤ × (ℕ → ℕ))
  | 0 => .ok (fun _ => 0, (C.M_SIZ / 2 : ℕ), s.T)
  | i + 1 => do
    let (iID, S, T) ← lookup i
    let (index, T) ← geoidx (nentry * C.logpred + 1) T (C.logpredOf i)
      (inst.currentID.zeroExtend 64) s.ghist s.phist (s.usedHistLength i) ((i &&& 3) + 1)
    check .bound (index < 2 ^ C.logpred)
    return (Function.update iID i index, S + (s.pred i index).toInt, T)

/-- The threshold after an outcome. -/
def adjustTheta (taken ptaken : Bool) (S : ℤ) : BPOgehl :=
  if taken ≠ ptaken then
    if C.THETAUP - 1 < s.TC + 1 then
      if s.THETA < MAXTHETA then { s with TC := 0, THETA := s.THETA + 1 }
      else { s with TC := C.THETAUP - 1 }
    else { s with TC := s.TC + 1 }
  else if S < s.THETA ∧ -s.THETA ≤ S then
    if s.TC - 1 < -C.THETAUP then
      if 0 < s.THETA then { s with TC := 0, THETA := s.THETA - 1 }
      else { s with TC := -C.THETAUP }
    else { s with TC := s.TC - 1 }
  else s

/-- A counter after an outcome; it is a signed number of 8 bits. -/
def trainCounter (taken : Bool) (p : BitVec 8) : BitVec 8 :=
  if taken then if p.toInt < C.PREDUP - 1 then p + 1 else p
  else if -C.PREDUP < p.toInt then p - 1 else p

def trainTables (iID : ℕ → ℕ) (taken : Bool) : BPOgehl :=
  { s with pred := fun i j =>
      if i < C.M_SIZ ∧ j = iID i then trainCounter C taken (s.pred i j) else s.pred i j }

/-- The lengths of three histories are set, from the given tables. -/
def setLengths (AC : ℤ) (i6 i4 i2 : ℕ) : Except BPredFault BPOgehl := do
  check .bound (6 < C.M_SIZ ∧ i6 < C.M_SIZ + 3 ∧ i4 < C.M_SIZ + 3 ∧ i2 < C.M_SIZ + 3)
  return { s with
    AC := AC
    usedHistLength := Function.update (Function.update (Function.update s.usedHistLength
      6 (C.histLength i6)) 4 (C.histLength i4)) 2 (C.histLength i2) }

/-- The counter that adapts the lengths, after a wrong prediction. -/
def adaptLengths (taken ptaken : Bool) (miniTag : ℤ) : Except BPredFault BPOgehl :=
  if taken = ptaken then .ok s
  else if miniTag ≠ (inst.currentID.toNat % 2 : ℕ) then
    if s.AC - 4 < -256 then s.setLengths C (-256) 6 4 2 else .ok { s with AC := s.AC - 4 }
  else if 256 - 1 < s.AC + 1 then
    s.setLengths C (256 - 1) (C.M_SIZ + 2) (C.M_SIZ + 1) C.M_SIZ
  else .ok { s with AC := s.AC + 1 }

/-- What is done with the tag of an entry of the last table. -/
def updateTag (last : ℕ) (taken ptaken : Bool) : Except BPredFault BPOgehl :=
  if last % 2 = 0 then do
    check .bound (last / 2 < 2 ^ (C.logpred - 1))
    let s ← s.adaptLengths C inst taken ptaken (s.MINITAG (last / 2))
    return { s with MINITAG := Function.update s.MINITAG (last / 2) (inst.currentID.toNat % 2 : ℕ) }
  else .ok s

def shiftHistories (taken : Bool) : BPOgehl :=
  { s with
    phist := (s.phist <<< 1) + (inst.currentID.zeroExtend 64 &&& 1)
    ghist := fun i =>
      if i = 0 then if taken then (s.ghist 0 <<< 1) + 1 else s.ghist 0 <<< 1
      else if i ≤ glength >>> 6 then (s.ghist i <<< 1) + (if (s.ghist (i - 1)).toInt < 0 then 1 else 0)
      else s.ghist i }

/-- Whether the tables are trained. -/
def Trains (taken ptaken : Bool) (S : ℤ) : Prop := taken ≠ ptaken ∨ S < s.THETA ∧ -s.THETA ≤ S

instance (taken ptaken : Bool) (S : ℤ) : Decidable (s.Trains taken ptaken S) :=
  inferInstanceAs (Decidable (_ ∨ _))

/-- The training of the tables, and of what goes with them. -/
def trainAll (oracleID : InstID) (odd taken ptaken : Bool) (S : ℤ) (iID : ℕ → ℕ) :
    Except BPredFault BPOgehl :=
  if s.Trains taken ptaken S then do
    let s := s.trainTables C iID taken
    let btb ← s.btb.updateOnly C.btb inst oracleID odd
    { s with btb }.updateTag C inst (iID (C.M_SIZ - 1)) taken ptaken
  else .ok s

def update (oracleID : InstID) (doUpdate odd taken ptaken : Bool) (S : ℤ) (iID : ℕ → ℕ) :
    Except BPredFault BPOgehl :=
  if doUpdate then do
    let s ← (s.adjustTheta C taken ptaken S).trainAll C inst oracleID odd taken ptaken S iID
    return s.shiftHistories inst taken
  else .ok s

def predict (oracleID : InstID) (doUpdate odd : Bool) : Except BPredFault (PredType × BPOgehl) :=
  if inst.isBranchTaken then do
    let (pred, btb) ← s.btb.predict C.btb inst oracleID doUpdate odd
    return (pred, { s with btb })
  else do
    let taken := decide (inst.calcNextInstID ≠ oracleID)
    let (iID, S, T) ← s.lookup C inst C.M_SIZ
    let ptaken := decide (0 ≤ S)
    let s ← { s with T }.update C inst oracleID doUpdate odd taken ptaken S iID
    if taken ≠ ptaken then return (.MissPrediction, s)
    else if ptaken then do
      let (pred, btb) ← s.btb.predict C.btb inst oracleID doUpdate odd
      return (pred, { s with btb })
    else return (.CorrectPrediction, s)

end BPOgehl

end Sesc.BPred
