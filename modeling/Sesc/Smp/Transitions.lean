import Sesc.Smp.Coherence

/-!
# What one event does to a line

The steps of a line as a relation: each constructor names one branch of the code together with the guards
that lead to it, and no assertion is left in it.  What the assertions say is part of the invariant `Sound`,
which is about the operations of the requests, and about the lines that are on their way out.
-/

namespace Sesc.Smp

open Lib Mshr

namespace MESIState

/-- The state of a line that gives way. -/
def leaving (s : MESIState) : MESIState := if s.isDirty then .TRANS_INV_D else .TRANS_INV

/-- The state of a line that is asked for. -/
def missing (memOp : MemOperation) : MESIState := if memOp = .MemRead then .TRANS_RD else .TRANS_WR

end MESIState

/-- What holds of a request wherever it is. -/
structure SMPMemRequest.WellFormed {n : ℕ} (r : SMPMemRequest n) : Prop where
  special : r.memOp ≠ .MemSpecialOp
  write : r.memOp = .MemWrite → r.needData = false
  read : r.memOp = .MemRead → r.needData = true
  upgrade : r.needData = false → r.needSnoop = true

namespace Line

variable {n : ℕ}

/-- The operations of the accesses and requests, and the lines that they are about. -/
structure Operations (L : Line n) : Prop where
  special : ∀ c a, L.access c = some a → a.memOp ≠ .MemSpecialOp
  waiting : ∀ c memOp, memOp ∈ L.waiting c → memOp ≠ .MemSpecialOp
  missed : ∀ c a, L.access c = some a → a.stage = .queued ∨ a.stage = .granted →
    L.state c = .INVALID ∨ a.memOp ≠ .MemRead ∧ (L.state c = .SHARED ∨ L.state c = .TRANS_INV)
  allocating : ∀ c memOp rpl, L.access c = some ⟨memOp, .allocating rpl⟩ → memOp ≠ .MemWrite
  request : ∀ c location r, L.sent c = some (location, r) → r.WellFormed
  fresh : ∀ c r, L.sent c = some (.toBus, r) → r.state = .INVALID
  owned : ∀ c location r, L.sent c = some (location, r) → r.state.canBeWritten = true → ∀ d,
    L.snoop c d = .received → (L.state d).canBeRead = false

/-- The lines that are on their way out of a cache. -/
structure Departures (upperCaches : ℕ) (L : Line n) : Prop where
  entry : ∀ d e, L.pendInvTable d = some e → 0 < e.outsResps ∧ e.outsResps ≤ upperCaches ∧
    ((e.invalidate = true ∧ e.writeback = false ∧ ∃ c, e.cb = .ack c) ∨
      (e.invalidate = false ∧ ∃ addr, e.cb = .allocate addr))
  replacing : ∀ d, L.replacing d ≠ none → 0 < upperCaches
  leaving : ∀ d, L.state d = .TRANS_INV ∨ L.state d = .TRANS_INV_D →
    L.pendInvTable d ≠ none ∨ L.replacing d ≠ none
  invalidating : ∀ c d, L.snoop c d = .invalidating → ∃ e, L.pendInvTable d = some e ∧ e.cb = .ack c

/-- What also holds of a line. -/
structure Sound (upperCaches : ℕ) (L : Line n) : Prop extends Operations L, Departures upperCaches L

section

variable (L : Line n) (c d : Fin n)

/-- A line is asked for. -/
def fetch (memOp : MemOperation) : Line n :=
  (L.changeStateTo c (.missing memOp)).sendRequest c memOp true

/-- The modified line that the cache `d` has supplied is written back. -/
def supply (r : SMPMemRequest n) : Line n :=
  if r.supplier = some d ∧ r.writeDown then L.doWriteBack d else L

/-- The bus counts the answers that are still due. -/
def collect (r : SMPMemRequest n) : Line n :=
  if L.due c = 0 then L.finalizeAccess c r
  else { L.setStage c r.memOp (.sent .snooping r) with
    pendReqsTable := Function.update L.pendReqsTable c (some (L.due c)) }

/-- The cache `d` has answered. -/
def respond (r : SMPMemRequest n) : Line n := ((L.supply d r).setSnoop c d .idle).collect c r

def setPendInv (o : Option (Entry n)) : Line n :=
  { L with pendInvTable := Function.update L.pendInvTable d o }

def setReplacing (o : Option Addr) : Line n :=
  { L with replacing := Function.update L.replacing d o }

end

/-- The answer to a request, and the state of the line that it leads to. -/
inductive Answer (r : SMPMemRequest n) : MESIState → Prop
  | shared : r.memOp = .MemRead → r.state ≠ .INVALID → Answer r .SHARED
  | exclusive : r.memOp = .MemRead → r.state = .INVALID → r.needSnoop = false → Answer r .EXCLUSIVE
  | modified : r.memOp ≠ .MemRead → (r.needSnoop = true → r.needData = true → r.state ≠ .INVALID) →
      Answer r .MODIFIED

section

variable (L : Line n)

/-- What the events do. -/
inductive Transition (upperCaches : ℕ) : LineEvent n → Line n → Prop
  | special {c} : Transition upperCaches (.access c .MemSpecialOp) L
  | start {c memOp} : memOp ≠ .MemPush → memOp ≠ .MemSpecialOp → L.access c = none →
      Transition upperCaches (.access c memOp) (L.setStage c memOp .scheduled)
  | wait {c memOp} : memOp ≠ .MemPush → memOp ≠ .MemSpecialOp → L.access c ≠ none →
      Transition upperCaches (.access c memOp)
        { L with waiting := Function.update L.waiting c (L.waiting c ++ [memOp]) }
  | readHit {c} : L.access c = some ⟨.MemRead, .scheduled⟩ → (L.state c).canBeRead = true →
      Transition upperCaches (.run c) (L.retireOutsReq c)
  | writeHit {c memOp} : L.access c = some ⟨memOp, .scheduled⟩ → memOp ≠ .MemRead →
      (L.state c).canBeWritten = true →
      Transition upperCaches (.run c) ((L.changeStateTo c .MODIFIED).retireOutsReq c)
  | locked {c memOp} : L.access c = some ⟨memOp, .scheduled⟩ → (L.state c).isLocked = true →
      Transition upperCaches (.run c) (L.setStage c (mutateWriteToRead memOp) .scheduled)
  | miss {c memOp} : L.access c = some ⟨memOp, .scheduled⟩ → L.state c = .INVALID →
      Transition upperCaches (.run c) (L.issueMutExcl c (mutateWriteToRead memOp))
  | missShared {c memOp} : L.access c = some ⟨memOp, .scheduled⟩ → memOp ≠ .MemRead → L.state c = .SHARED →
      Transition upperCaches (.run c) (L.issueMutExcl c memOp)
  | upgrade {c memOp allocated} : L.access c = some ⟨memOp, .granted⟩ → memOp ≠ .MemRead →
      L.state c = .SHARED →
      Transition upperCaches (.send c allocated) ((L.changeStateTo c .TRANS_WR).sendRequest c memOp false)
  | send {c memOp} : L.access c = some ⟨memOp, .granted⟩ → L.state c = .INVALID →
      Transition upperCaches (.send c .line) (L.fetch c (mutateWriteToRead memOp))
  | sendRetry {c memOp} : L.access c = some ⟨memOp, .granted⟩ → L.state c = .INVALID →
      Transition upperCaches (.send c .retry) (L.setStage c (mutateWriteToRead memOp) (.allocating none))
  | sendWaiting {c memOp rpl} : L.access c = some ⟨memOp, .granted⟩ → L.state c = .INVALID →
      Transition upperCaches (.send c (.waiting rpl))
        (L.setStage c (mutateWriteToRead memOp) (.allocating (some rpl)))
  | allocate {c memOp} : L.access c = some ⟨memOp, .allocating none⟩ →
      Transition upperCaches (.retryAllocate c .line) (L.fetch c memOp)
  | retry {c memOp} : L.access c = some ⟨memOp, .allocating none⟩ →
      Transition upperCaches (.retryAllocate c .retry) (L.setStage c memOp (.allocating none))
  | retryWaiting {c memOp rpl} : L.access c = some ⟨memOp, .allocating none⟩ →
      Transition upperCaches (.retryAllocate c (.waiting rpl)) (L.setStage c memOp (.allocating (some rpl)))
  | reserve {c memOp rpl} : L.access c = some ⟨memOp, .allocating (some rpl)⟩ →
      Transition upperCaches (.reserve c rpl) (L.fetch c memOp)
  | evict {c} : upperCaches = 0 → (L.state c).canBeRead = true →
      Transition upperCaches (.evict c) ((L.writeBackDirty c).changeStateTo c .INVALID)
  | startEviction {c addr} : 0 < upperCaches → (L.state c).canBeRead = true →
      Transition upperCaches (.startEviction c addr)
        ((L.setPendInv c (some ⟨upperCaches, false, true, .allocate addr⟩)).changeStateTo c (L.state c).leaving)
  | finishEviction {c} : L.replacing c ≠ none →
      Transition upperCaches (.finishEviction c)
        (((L.writeBackDirty c).changeStateTo c .INVALID).setReplacing c none)
  | toMemory {c r} : L.sent c = some (.toBus, r) → r.needSnoop = false →
      Transition upperCaches (.bus c) (L.setStage c r.memOp (.sent .inMemory r))
  | single {c r} : L.sent c = some (.toBus, r) → r.needSnoop = true → n - 1 = 0 →
      Transition upperCaches (.bus c) (L.finalizeAccess c r)
  | broadcast {c r} : L.sent c = some (.toBus, r) → r.needSnoop = true → n - 1 ≠ 0 →
      Transition upperCaches (.bus c) { L.setStage c r.memOp (.sent .snooping r) with
        pendReqsTable := Function.update L.pendReqsTable c (some (n - 1))
        snoop := Function.update L.snoop c fun d => if d = c then .idle else .received }
  | unaffected {c d r} : L.sent c = some (.snooping, r) → L.snoop c d = .received →
      (L.state d).canBeRead = false → Transition upperCaches (.receive c d) (L.respond c d r)
  | share {c d r r'} : L.sent c = some (.snooping, r) → L.snoop c d = .received →
      (L.state d).canBeRead = true → r.memOp = .MemRead → r.combineResponses d (L.state d) = .ok r' →
      Transition upperCaches (.receive c d) ((L.changeStateTo d .SHARED).respond c d r')
  | yield {c d r r'} : L.sent c = some (.snooping, r) → L.snoop c d = .received →
      (L.state d).canBeRead = true → r.memOp ≠ .MemRead → r.combineResponses d (L.state d) = .ok r' →
      0 < upperCaches →
      Transition upperCaches (.receive c d)
        ((((L.setStage c r'.memOp (.sent .snooping r')).setSnoop c d .invalidating).setPendInv d
          (some ⟨upperCaches, true, false, .ack c⟩)).changeStateTo d (L.state d).leaving)
  | yieldNow {c d r r'} : L.sent c = some (.snooping, r) → L.snoop c d = .received →
      (L.state d).canBeRead = true → r.memOp ≠ .MemRead → r.combineResponses d (L.state d) = .ok r' →
      upperCaches = 0 →
      Transition upperCaches (.receive c d)
        (((L.setStage c r'.memOp (.sent .snooping r')).setSnoop c d .acking).changeStateTo d .INVALID)
  | oneInvalidated {d e} : L.pendInvTable d = some e → 1 < e.outsResps →
      Transition upperCaches (.upperInvalidated d) (L.setPendInv d (some { e with outsResps := e.outsResps - 1 }))
  | allInvalidated {c d e} : L.pendInvTable d = some e → e.outsResps = 1 → e.cb = .ack c →
      Transition upperCaches (.upperInvalidated d)
        (((L.setPendInv d none).changeStateTo d .INVALID).setSnoop c d .acking)
  | gaveWay {d e addr} : L.pendInvTable d = some e → e.outsResps = 1 → e.cb = .allocate addr →
      Transition upperCaches (.upperInvalidated d) ((L.setPendInv d none).setReplacing d (some addr))
  | ack {c d r} : L.sent c = some (.snooping, r) → L.snoop c d = .acking →
      Transition upperCaches (.ack c d) (L.respond c d r)
  | memory {c r} : L.sent c = some (.inMemory, r) →
      Transition upperCaches (.memory c) (L.setStage c r.memOp (.sent .toRequestor r))
  | goToMemory {c r} : L.sent c = some (.toRequestor, r) → r.state = .INVALID → r.needSnoop = true →
      r.needData = true →
      Transition upperCaches (.answer c)
        ((L.changeStateTo c (if r.memOp = .MemRead then .TRANS_RD_MEM else .TRANS_WR_MEM)).setStage c r.memOp
          (.sent .toBus { r with needSnoop := false }))
  | conclude {c r st} : L.sent c = some (.toRequestor, r) → Answer r st →
      Transition upperCaches (.answer c) ((L.changeStateTo c st).concludeAccess c)

/-! ## The code takes the transitions -/

/-- The events that may happen to the line. -/
def Enabled (upperCaches : ℕ) : LineEvent n → Prop
  | .access _ memOp => memOp ≠ .MemPush
  | .run c => ∃ memOp, L.access c = some ⟨memOp, .scheduled⟩
  | .send c _ => (∃ memOp, L.access c = some ⟨memOp, .granted⟩) ∧ L.state c ≠ .TRANS_INV
  | .retryAllocate c _ => ∃ memOp, L.access c = some ⟨memOp, .allocating none⟩
  | .reserve c rpl => ∃ memOp, L.access c = some ⟨memOp, .allocating (some rpl)⟩
  | .evict c => upperCaches = 0 ∧ (L.state c).canBeRead = true
  | .startEviction c _ => 0 < upperCaches ∧ (L.state c).canBeRead = true
  | .finishEviction c => L.replacing c ≠ none
  | .bus c => ∃ r, L.sent c = some (.toBus, r)
  | .receive c d => ∃ r, L.sent c = some (.snooping, r) ∧ L.snoop c d = .received
  | .upperInvalidated d => L.pendInvTable d ≠ none
  | .ack c d => ∃ r, L.sent c = some (.snooping, r) ∧ L.snoop c d = .acking
  | .memory c => ∃ r, L.sent c = some (.inMemory, r)
  | .answer c => ∃ r, L.sent c = some (.toRequestor, r)

/-- The code performs the event. -/
def Steps (upperCaches : ℕ) (e : LineEvent n) : Prop :=
  ∃ L', L.step upperCaches e = .ok L' ∧ L.Transition upperCaches e L'

end

variable {L : Line n} {c d : Fin n} {upperCaches : ℕ} {memOp : MemOperation} {r r' : SMPMemRequest n} {st : MESIState}

lemma withRequest_of_sent {location : Location} (hc : L.sent c = some (location, r))
    (f : SMPMemRequest n → Except Fault (Line n)) : L.withRequest c location f = f r := by
  obtain ⟨memOp, ha⟩ := sent_eq_some.1 hc
  simp [withRequest, withAccess, ha]

lemma withAccess_of_access {stage : Stage n} (hc : L.access c = some ⟨memOp, stage⟩)
    (f : MemOperation → Stage n → Except Fault (Line n)) : L.withAccess c f = f memOp stage := by
  simp [withAccess, hc]

lemma changeState_of (h : (L.state d).mayBecome st = true) :
    L.changeState d st = .ok (L.changeStateTo d st) := changeState_eq_ok.2 ⟨h, rfl⟩

lemma setStage_self {stage : Stage n} (hc : L.access c = some ⟨memOp, stage⟩) :
    L.setStage c memOp stage = L := by
  rw [setStage, ← hc, Function.update_eq_self]

lemma Steps.access (hmemOp : memOp ≠ .MemPush) : L.Steps upperCaches (.access c memOp) := by
  by_cases hspecial : memOp = .MemSpecialOp
  · subst hspecial
    exact ⟨L, rfl, .special⟩
  by_cases hc : L.access c = none
  · refine ⟨_, ?_, .start hmemOp hspecial hc⟩
    cases memOp <;> first | contradiction | simp [Line.step, accessCache, hc]
  · refine ⟨_, ?_, .wait hmemOp hspecial hc⟩
    obtain ⟨a, ha⟩ := Option.ne_none_iff_exists'.1 hc
    cases memOp <;> first | contradiction | simp [Line.step, accessCache, ha]

lemma Steps.run_read (hc : L.access c = some ⟨.MemRead, .scheduled⟩) : L.Steps upperCaches (.run c) := by
  have hrun : L.step upperCaches (.run c) = L.doRead c .MemRead := by
    simp [Line.step, withAccess_of_access hc, check]
  rw [Steps, hrun, Line.doRead]
  by_cases hread : (L.state c).canBeRead = true
  · exact ⟨_, if_pos hread, .readHit hc hread⟩
  rw [if_neg hread]
  by_cases hlocked : (L.state c).isLocked = true
  · have h : L.Transition upperCaches (.run c) (L.setStage c .MemRead .scheduled) := .locked hc hlocked
    rw [setStage_self hc] at h
    exact ⟨L, if_pos hlocked, h⟩
  · refine ⟨_, if_neg hlocked, .miss hc ?_⟩
    by_contra hstate
    exact hlocked (MESIState.isLocked_iff.2 ⟨hstate, by simpa using hread⟩)

lemma mayBecome_modified (h : st.canBeWritten = true) : st.mayBecome .MODIFIED = true := by
  rcases MESIState.canBeWritten_iff.1 h with rfl | rfl <;> rfl

/-- A line that is neither invalid nor locked nor exclusive. -/
lemma eq_shared (hvalid : st ≠ .INVALID) (hlocked : st.isLocked ≠ true) (hwrite : st.canBeWritten ≠ true) :
    st = .SHARED := by
  cases st <;> first | rfl | exact absurd rfl hvalid | exact absurd rfl hlocked | exact absurd rfl hwrite

lemma Steps.run_write (hc : L.access c = some ⟨memOp, .scheduled⟩) (hmemOp : memOp ≠ .MemRead) :
    L.Steps upperCaches (.run c) := by
  have hrun : L.step upperCaches (.run c) = L.doWrite c memOp := by
    simp [Line.step, withAccess_of_access hc, check, hmemOp]
  rw [Steps, hrun, Line.doWrite]
  by_cases hwrite : (L.state c).canBeWritten = true
  · have hvalid := MESIState.isValid_iff.2 (ne_invalid (MESIState.canBeRead_of_canBeWritten hwrite))
    refine ⟨_, ?_, .writeHit hc hmemOp hwrite⟩
    simp [hwrite, makeDirty, hvalid, check, changeState_of (mayBecome_modified hwrite)]
  rw [if_neg hwrite]
  by_cases hlocked : (L.state c).isLocked = true
  · exact ⟨_, if_pos hlocked, .locked hc hlocked⟩
  rw [if_neg hlocked]
  by_cases hstate : L.state c = .INVALID
  · have hvalid : (L.state c).isValid = false := by rw [hstate]; rfl
    refine ⟨_, rfl, ?_⟩
    simpa [hvalid] using Transition.miss hc hstate
  · have hvalid := MESIState.isValid_iff.2 hstate
    refine ⟨_, rfl, ?_⟩
    simpa [hvalid] using Transition.missShared hc hmemOp (eq_shared hstate hlocked hwrite)

lemma callMiss_reserved : (L.changeStateTo c .TRANS_RSV).callMiss c memOp = .ok (L.fetch c memOp) := by
  have hmay : ∀ st, (st = .TRANS_RD ∨ st = .TRANS_WR) →
      (L.changeStateTo c .TRANS_RSV).changeState c st = .ok (L.changeStateTo c st) := by
    rintro st hst
    rw [changeState_of, changeStateTo_changeStateTo rfl]
    · rcases hst with rfl | rfl <;> rfl
    · rcases hst with rfl | rfl <;> simp [MESIState.mayBecome]
  by_cases hread : memOp = .MemRead <;>
    simp [callMiss, sendMiss, hread, hmay, fetch, MESIState.missing, check, MESIState.isValid, MESIState.bits]

lemma check_not_valid {α : Type} {f : Fault} {g : PUnit → Except Fault α} (h : L.state c = .INVALID) :
    (check f (!(L.state c).isValid) >>= g) = g ⟨⟩ := by
  rw [h]
  rfl

lemma afterAllocate_line (h : L.state c = .INVALID) : L.afterAllocate c memOp .line = .ok (L.fetch c memOp) := by
  have hmay : L.changeState c .TRANS_RSV = .ok (L.changeStateTo c .TRANS_RSV) :=
    changeState_of (by simp [h, MESIState.mayBecome])
  rw [afterAllocate, check_not_valid h]
  simp only [hmay, ok_bind, callMiss_reserved]

lemma afterAllocate_retry (h : L.state c = .INVALID) :
    L.afterAllocate c memOp .retry = .ok (L.setStage c memOp (.allocating none)) := by
  rw [afterAllocate, check_not_valid h]

lemma afterAllocate_waiting {rpl : Addr} (h : L.state c = .INVALID) :
    L.afterAllocate c memOp (.waiting rpl) = .ok (L.setStage c memOp (.allocating (some rpl))) := by
  rw [afterAllocate, check_not_valid h]

/-- `read` or `write` of the protocol when the cache has not got the line. -/
lemma step_send_invalid {allocated : Allocated} (hc : L.access c = some ⟨memOp, .granted⟩)
    (h : L.state c = .INVALID) :
    L.step upperCaches (.send c allocated) = L.afterAllocate c (mutateWriteToRead memOp) allocated := by
  have hvalid : (L.state c).isValid = false := by rw [h]; rfl
  have hmutate : (if memOp ≠ .MemReadW then mutateWriteToRead memOp else memOp) = mutateWriteToRead memOp := by
    split_ifs with hm
    · rfl
    · rw [not_not.1 hm]
      rfl
  by_cases hread : memOp = .MemRead
  · subst hread
    simp [Line.step, withAccess_of_access hc, check, sendRead, hvalid, mutateWriteToRead]
  · simp only [Line.step, withAccess_of_access hc, sendWrite, hread, if_false, hvalid, hmutate]
    simp [check]

lemma Steps.send (hs : L.Sound upperCaches) {allocated : Allocated}
    (hc : L.access c = some ⟨memOp, .granted⟩) (hne : L.state c ≠ .TRANS_INV) :
    L.Steps upperCaches (.send c allocated) := by
  rcases hs.missed c _ hc (.inr rfl) with h | ⟨hread, h | h⟩
  · rw [Steps, step_send_invalid hc h]
    cases allocated with
    | line => exact ⟨_, afterAllocate_line h, .send hc h⟩
    | retry => exact ⟨_, afterAllocate_retry h, .sendRetry hc h⟩
    | waiting rpl => exact ⟨_, afterAllocate_waiting h, .sendWaiting hc h⟩
  · have hmay : L.changeState c .TRANS_WR = .ok (L.changeStateTo c .TRANS_WR) :=
      changeState_of (by simp [h, MESIState.mayBecome])
    refine ⟨_, ?_, .upgrade hc hread h⟩
    simp only [Line.step, withAccess_of_access hc, sendWrite, hread, if_false, hmay]
    simp [h, check, MESIState.isValid, MESIState.isLocked, MESIState.canBeWritten, MESIState.bits]
  · exact absurd h hne

lemma Steps.retryAllocate (h : L.Inv) {allocated : Allocated}
    (hc : L.access c = some ⟨memOp, .allocating none⟩) : L.Steps upperCaches (.retryAllocate c allocated) := by
  have hstate := h.allocating c _ _ hc
  have hstep : L.step upperCaches (.retryAllocate c allocated) = L.retryAllocate c memOp allocated := by
    simp [Line.step, withAccess_of_access hc, check]
  rw [Steps, hstep]
  cases allocated with
  | line =>
    refine ⟨_, ?_, .allocate hc⟩
    rw [Line.retryAllocate, check_not_valid hstate]
    exact callMiss_reserved
  | retry =>
    refine ⟨_, ?_, .retry hc⟩
    rw [Line.retryAllocate, check_not_valid hstate]
  | waiting rpl =>
    refine ⟨_, ?_, .retryWaiting hc⟩
    rw [Line.retryAllocate, check_not_valid hstate]

lemma Steps.reserve {rpl : Addr} (hc : L.access c = some ⟨memOp, .allocating (some rpl)⟩) :
    L.Steps upperCaches (.reserve c rpl) := by
  refine ⟨_, ?_, .reserve hc⟩
  simp only [Line.step, withAccess_of_access hc, Line.reserve, callMiss_reserved]
  simp [check]

/-! ### Giving way -/

lemma Steps.evict (hupper : upperCaches = 0) (hread : (L.state c).canBeRead = true) :
    L.Steps upperCaches (.evict c) := by
  refine ⟨_, ?_, .evict hupper hread⟩
  have hlocked : (L.state c).isLocked = false := by
    rcases MESIState.canBeRead_iff.1 hread with h | h | h <;> rw [h] <;> rfl
  simp [Line.step, hupper, check, Line.evict, MESIState.isStable_eq, hread, invalidate, hlocked]

lemma preInvalidate_of_read (hread : (L.state d).canBeRead = true) :
    L.preInvalidate d = .ok (L.changeStateTo d (L.state d).leaving) := by
  have hmay : (L.state d).mayBecome (L.state d).leaving = true := by
    rcases MESIState.canBeRead_iff.1 hread with h | h | h <;> rw [h] <;> decide
  have hvalid := MESIState.isValid_iff.2 (ne_invalid hread)
  rw [preInvalidate, hvalid]
  by_cases hdirty : (L.state d).isDirty = true <;> rw [MESIState.leaving] at hmay ⊢ <;>
    simp [check, hdirty] at hmay ⊢ <;> exact changeState_of hmay

lemma Steps.startEviction (h : L.Inv) {addr : Addr} (hupper : 0 < upperCaches)
    (hread : (L.state c).canBeRead = true) : L.Steps upperCaches (.startEviction c addr) := by
  refine ⟨_, ?_, .startEviction hupper hread⟩
  have hpend := (h.not_leaving (ne_leaving hread)).1
  simp only [Line.step, Line.startEviction, MESIState.isStable_eq, hread, hpend, preInvalidate_of_read (d := c)]
  simp [check, hupper.ne', setPendInv]

lemma Steps.finishEviction (h : L.Inv) (hc : L.replacing c ≠ none) :
    L.Steps upperCaches (.finishEviction c) := by
  refine ⟨_, ?_, .finishEviction hc⟩
  have hlocked : (L.state c).isValid = true ∧ (L.state c).isLocked = true := by
    rcases h.leaving c (.inr hc) with h | h <;> rw [h] <;> exact ⟨rfl, rfl⟩
  simp [Line.step, check, hc, Line.finishEviction, hlocked, setReplacing]

/-! ### The bus -/

lemma Steps.bus (h : L.Inv) (hc : L.sent c = some (.toBus, r)) : L.Steps upperCaches (.bus c) := by
  have hstep : L.step upperCaches (.bus c) = L.busAccess c r := withRequest_of_sent hc _
  have hpend := ((h.onItsWay c _ r hc).elsewhere (by simp)).1
  rw [Steps, hstep, busAccess, hpend]
  by_cases hsnoop : r.needSnoop = true
  · rw [if_neg (by simp [hsnoop])]
    by_cases hn : n - 1 = 0
    · exact ⟨_, if_pos hn, .single hc hsnoop hn⟩
    · exact ⟨_, if_neg hn, .broadcast hc hsnoop hn⟩
  · exact ⟨_, if_pos (by simpa using hsnoop), .toMemory hc (by simpa using hsnoop)⟩

lemma due_congr {L₁ : Line n} (h : L₁.snoop c = L.snoop c) : L₁.due c = L.due c := by rw [due, due, h]

@[simp] lemma snoop_supply : (L.supply d r).snoop = L.snoop := by
  unfold supply
  split_ifs <;> rfl

@[simp] lemma pendReqsTable_supply : (L.supply d r).pendReqsTable = L.pendReqsTable := by
  unfold supply
  split_ifs <;> rfl

/-- The bus takes the answer of a cache. -/
lemma respondBelow_of (h : L.Inv) (hc : L.sent c = some (.snooping, r)) (hd : L.snoop c d ≠ .idle)
    (hr : Follows r r') {M : Line n} (hpend : M.pendReqsTable = L.pendReqsTable) (hsnoop : M.snoop = L.snoop) :
    M.respondBelow c d r' = .ok (M.respond c d r') := by
  obtain ⟨hneed, hdue⟩ := (h.onItsWay c _ r hc).snooping rfl
  have hone := due_setSnoop_idle hd
  have hle : L.due c ≤ n := (Finset.card_filter_le _ _).trans (by simp)
  have hdue₁ : ((M.supply d r').setSnoop c d .idle).due c = (L.setSnoop c d .idle).due c :=
    due_congr (by simp [setSnoop, hsnoop])
  refine (busAccess_of_pending (hr.needSnoop.trans hneed) (k := L.due c) ?_).2 ⟨by omega, ?_⟩
  · exact (congrFun pendReqsTable_supply c).trans ((congrFun hpend c).trans hdue)
  · rw [respond, collect, hdue₁, ← hone, Nat.add_sub_cancel]
    rfl

lemma Steps.ack (h : L.Inv) (hc : L.sent c = some (.snooping, r)) (hd : L.snoop c d = .acking) :
    L.Steps upperCaches (.ack c d) := by
  refine ⟨_, ?_, .ack hc hd⟩
  have := respondBelow_of h hc (d := d) (by simp [hd]) (.refl r) rfl rfl
  simp only [Line.step, withRequest_of_sent hc, hd, this]
  simp [check]

lemma Steps.memory (hc : L.sent c = some (.inMemory, r)) : L.Steps upperCaches (.memory c) :=
  ⟨_, withRequest_of_sent hc _, .memory hc⟩

/-! ### Requests from other caches -/

/-- No other cache has the line in a state of its own, so that the answers fit together. -/
lemma combineResponses_of_read (h : L.Inv) (hs : L.Sound upperCaches) (hc : L.sent c = some (.snooping, r))
    (hd : L.snoop c d = .received) (hread : (L.state d).canBeRead = true) :
    ∃ r', r.combineResponses d (L.state d) = .ok r' ∧ Follows r r' := by
  have howned : r.state.canBeWritten = false := by
    by_contra hw
    have := hs.owned c _ r hc (by simpa using hw) d hd
    rw [hread] at this
    cases this
  have hstate : r.state ≠ .EXCLUSIVE ∧ r.state ≠ .MODIFIED := by
    constructor <;> intro he <;> rw [he] at howned <;> cases howned
  have hvalid : ¬(L.state d = .INVALID ∨ (L.state d).isLocked = true) := by
    rintro (hi | hl)
    · exact ne_invalid hread hi
    · exact absurd (MESIState.isLocked_iff.1 hl).2 (by simp [hread])
  have hok : ∃ r', r.combineResponses d (L.state d) = .ok r' := by
    rw [SMPMemRequest.combineResponses, if_neg hvalid, check_bind hstate]
    rcases MESIState.canBeRead_iff.1 hread with he | he | he
    · exact ⟨_, by rw [if_neg (by simp [he]), if_pos he]⟩
    · exact ⟨_, by rw [if_neg (by simp [he]), if_neg (by simp [he]), check_bind he]⟩
    · exact ⟨_, by rw [if_pos he]⟩
  obtain ⟨r', hr'⟩ := hok
  exact ⟨r', hr', (combineResponses_spec hread (h.onItsWay c _ r hc).found hr').1⟩

lemma changeStateTo_shared (hread : (L.state d).canBeRead = true) :
    L.changeState d .SHARED = .ok (L.changeStateTo d .SHARED) := by
  refine changeState_of ?_
  rcases MESIState.canBeRead_iff.1 hread with h | h | h <;> rw [h] <;> decide

lemma invalidate_of_leaving (hstate : L.state d = .TRANS_INV ∨ L.state d = .TRANS_INV_D) :
    L.realInvalidate d false = .ok (L.changeStateTo d .INVALID) := by
  rcases hstate with h | h <;>
    simp [realInvalidate, invalidate, h, check, MESIState.isValid, MESIState.isLocked,
      MESIState.isBeingInvalidated, MESIState.bits]

lemma leaving_cases (st : MESIState) : st.leaving = .TRANS_INV ∨ st.leaving = .TRANS_INV_D := by
  unfold MESIState.leaving
  split_ifs <;> simp

/-- A line that becomes dirty no more than it was. -/
lemma changeStateTo_leaving (hread : (L.state d).canBeRead = true) :
    (L.changeStateTo d (L.state d).leaving).changeStateTo d .INVALID = L.changeStateTo d .INVALID := by
  rcases MESIState.canBeRead_iff.1 hread with h | h | h <;>
    simp [Line.changeStateTo, h, MESIState.leaving, MESIState.isDirty, MESIState.bits]

lemma setSnoop_setSnoop {s₁ s₂ : Snoop} : (L.setSnoop c d s₁).setSnoop c d s₂ = L.setSnoop c d s₂ := by
  simp [setSnoop]

lemma doInvalidate_last {e : Entry n} (he : L.pendInvTable d = some e) (hlast : e.outsResps ≤ 1) :
    L.doInvalidate d = (do
      let L ← (L.setPendInv d none).invalidateFor d e
      .ok (L.schedule d e.cb)) := by
  rw [doInvalidate, he]
  exact if_pos (by omega)

lemma setPendInv_none (hpend : L.pendInvTable d = none) {e : Entry n} :
    ((L.setPendInv d (some e)).changeStateTo d st).setPendInv d none = L.changeStateTo d st := by
  simp [setPendInv, Line.changeStateTo, ← hpend]
  rfl

lemma invalidateLine_of (upperCaches : ℕ) (hread : (L.state d).canBeRead = true) (hpend : L.pendInvTable d = none) :
    L.invalidateLine d upperCaches (.ack c) false = .ok (if upperCaches = 0 then
      (L.setSnoop c d .acking).changeStateTo d .INVALID
    else (L.setPendInv d (some ⟨upperCaches, true, false, .ack c⟩)).changeStateTo d (L.state d).leaving) := by
  have hvalid := MESIState.isValid_iff.2 (ne_invalid hread)
  have hpre : ∀ e, (L.setPendInv d e).preInvalidate d = .ok ((L.setPendInv d e).changeStateTo d (L.state d).leaving) :=
    fun e => preInvalidate_of_read (L := L.setPendInv d e) hread
  by_cases hupper : upperCaches = 0
  · subst hupper
    have hreal := invalidate_of_leaving (d := d) (L := L.changeStateTo d (L.state d).leaving)
      (by simpa using leaving_cases _)
    rw [changeStateTo_leaving hread] at hreal
    have hlast := doInvalidate_last (L := (L.setPendInv d (some ⟨0, true, false, .ack c⟩)).changeStateTo d (L.state d).leaving)
      (d := d) (e := ⟨0, true, false, .ack c⟩) (by simp [setPendInv, Line.changeStateTo]) (by simp)
    rw [setPendInv_none hpend, invalidateFor, if_pos rfl, hreal, ok_bind] at hlast
    have hpre := hpre (some ⟨0, true, false, .ack c⟩)
    simp only [setPendInv] at hpre hlast
    simp [invalidateLine, hvalid, check, hpend, hpre, hlast, schedule]
    rfl
  · have := hpre (some ⟨upperCaches, true, false, .ack c⟩)
    simp only [setPendInv] at this
    simp [invalidateLine, hvalid, check, hpend, hupper, setPendInv, this]

lemma Steps.receive (h : L.Inv) (hs : L.Sound upperCaches) (hc : L.sent c = some (.snooping, r))
    (hd : L.snoop c d = .received) : L.Steps upperCaches (.receive c d) := by
  have hstep : L.step upperCaches (.receive c d) = L.doReceiveFromBelow c d upperCaches r := by
    simp only [Line.step, withRequest_of_sent hc, hd]
    rfl
  have hidle : L.snoop c d ≠ .idle := by simp [hd]
  have hpush := (h.onItsWay c _ r hc).memOp
  obtain ⟨hspecial, hwrite, -, -⟩ := hs.request c _ r hc
  rw [Steps, hstep]
  by_cases hread : (L.state d).canBeRead = true
  · obtain ⟨r', hr', hfollows⟩ := combineResponses_of_read h hs hc hd hread
    by_cases hmemOp : r.memOp = .MemRead
    · refine ⟨_, ?_, .share hc hd hread hmemOp hr'⟩
      have hrespond := respondBelow_of h hc hidle hfollows (M := L.changeStateTo d .SHARED) rfl rfl
      simp [doReceiveFromBelow, hmemOp, readMissHandler, MESIState.isStable_eq, hread, hr',
        changeStateTo_shared hread, hrespond]
    · -- the line is given up
      have hmiss : L.writeMissHandler c d upperCaches r = ((L.setStage c r'.memOp (.sent .snooping r')).setSnoop c d
          .invalidating).invalidateLine d upperCaches (.ack c) false := by
        simp [writeMissHandler, MESIState.isStable_eq, hread, hr']
      have hcall : L.doReceiveFromBelow c d upperCaches r = L.writeMissHandler c d upperCaches r := by
        unfold doReceiveFromBelow
        split <;> simp_all [check]
      have hinv := invalidateLine_of upperCaches (c := c)
        (L := (L.setStage c r'.memOp (.sent .snooping r')).setSnoop c d .invalidating) hread
        (h.not_leaving (ne_leaving hread)).1
      rw [hcall, hmiss, hinv]
      by_cases hupper : upperCaches = 0
      · refine ⟨_, rfl, ?_⟩
        rw [if_pos hupper, setSnoop_setSnoop]
        exact .yieldNow hc hd hread hmemOp hr' hupper
      · refine ⟨_, rfl, ?_⟩
        rw [if_neg hupper]
        exact .yield hc hd hread hmemOp hr' (by omega)
  · have hread : (L.state d).canBeRead = false := by simpa using hread
    refine ⟨_, ?_, .unaffected hc hd hread⟩
    have hrespond := respondBelow_of h hc hidle (.refl r) (M := L) rfl rfl
    unfold doReceiveFromBelow
    split <;> simp_all [check, readMissHandler, writeMissHandler, MESIState.isStable_eq]

lemma Steps.upperInvalidated (h : L.Inv) (hs : L.Sound upperCaches) {e : Entry n}
    (hd : L.pendInvTable d = some e) : L.Steps upperCaches (.upperInvalidated d) := by
  have hstep : L.step upperCaches (.upperInvalidated d) = L.doInvalidate d := by
    simp [Line.step, hd, check]
  obtain ⟨hpos, hle, hcb⟩ := hs.entry d e hd
  rw [Steps, hstep]
  by_cases hlast : e.outsResps = 1
  · rw [doInvalidate_last hd hlast.le]
    rcases hcb with ⟨hinv, hwb, c, hcb⟩ | ⟨hinv, addr, hcb⟩
    · refine ⟨_, ?_, .allInvalidated hd hlast hcb⟩
      have hreal := invalidate_of_leaving (L := L.setPendInv d none) (h.leaving d (.inl (by simp [hd])))
      simp [invalidateFor, hinv, hwb, hreal, schedule, hcb]
    · refine ⟨_, ?_, .gaveWay hd hlast hcb⟩
      simp [invalidateFor, hinv, schedule, hcb, setReplacing]
  · refine ⟨_, ?_, .oneInvalidated hd (by omega)⟩
    rw [doInvalidate, hd]
    exact if_neg (by omega)

/-! ### Answers -/

lemma goToMemory_of (h : L.Inv) (hc : L.sent c = some (.toRequestor, r)) (hmiss : r.state = .INVALID)
    (st : MESIState) (hmay : (L.state c).mayBecome st = true) : L.goToMemory c r st =
      .ok ((L.changeStateTo c st).setStage c r.memOp (.sent .toBus { r with needSnoop := false })) := by
  have hfound : r.found = false := by
    by_contra hf
    exact (h.onItsWay c _ r hc).found (by simpa using hf) hmiss
  simp [goToMemory, hfound, check, changeState_of hmay]

lemma Steps.answer_read (h : L.Inv) (hs : L.Sound upperCaches) (hc : L.sent c = some (.toRequestor, r))
    (hmemOp : r.memOp = .MemRead) : L.Steps upperCaches (.answer c) := by
  have hstep : L.step upperCaches (.answer c) = L.readMissAckHandler c r := by
    simp only [Line.step, withRequest_of_sent hc, returnAccess, hmemOp]
  have hstate := (h.onItsWay c _ r hc).state
  have hdata := (hs.request c _ r hc).read hmemOp
  rw [Steps, hstep]
  by_cases hsnoop : r.needSnoop = true
  · have hstate : L.state c = .TRANS_RD := by simp [hstate, SMPMemRequest.transient, hmemOp, hsnoop]
    by_cases hmiss : r.state = .INVALID
    · have h := goToMemory_of h hc hmiss .TRANS_RD_MEM (by simp [hstate, MESIState.mayBecome])
      refine ⟨_, ?_, .goToMemory hc hmiss hsnoop hdata⟩
      simp [readMissAckHandler, hmiss, hstate, h, check, MESIState.isValid, MESIState.bits, hmemOp]
    · refine ⟨_, ?_, .conclude hc (.shared hmemOp hmiss)⟩
      have hmay : L.changeState c .SHARED = .ok (L.changeStateTo c .SHARED) :=
        changeState_of (by simp [hstate, MESIState.mayBecome])
      simp [readMissAckHandler, hmiss, hstate, hmay, check, MESIState.isValid, MESIState.bits]
  · have hsnoop : r.needSnoop = false := by simpa using hsnoop
    have hstate : L.state c = .TRANS_RD_MEM := by simp [hstate, SMPMemRequest.transient, hmemOp, hsnoop]
    have hmiss := (h.onItsWay c _ r hc).missed hsnoop
    refine ⟨_, ?_, .conclude hc (.exclusive hmemOp hmiss hsnoop)⟩
    have hmay : L.changeState c .EXCLUSIVE = .ok (L.changeStateTo c .EXCLUSIVE) :=
      changeState_of (by simp [hstate, MESIState.mayBecome])
    simp [readMissAckHandler, hmiss, hstate, hmay, check, MESIState.isValid, MESIState.bits]

lemma Steps.answer_write (h : L.Inv) (hs : L.Sound upperCaches) (hc : L.sent c = some (.toRequestor, r))
    (hmemOp : r.memOp ≠ .MemRead) : L.Steps upperCaches (.answer c) := by
  obtain ⟨hspecial, hwrite, -, hupgrade⟩ := hs.request c _ r hc
  have hpush := (h.onItsWay c _ r hc).memOp
  have hstate := (h.onItsWay c _ r hc).state
  have hmodified : ∀ st, st = .TRANS_WR ∨ st = .TRANS_WR_MEM → L.state c = st →
      L.changeState c .MODIFIED = .ok (L.changeStateTo c .MODIFIED) := by
    rintro st (rfl | rfl) hst <;> exact changeState_of (by simp [hst, MESIState.mayBecome])
  by_cases hdata : r.needData = true
  · have hstep : L.step upperCaches (.answer c) = L.writeMissAckHandler c r := by
      simp only [Line.step, withRequest_of_sent hc, returnAccess]
      split <;> simp_all
    rw [Steps, hstep]
    by_cases hsnoop : r.needSnoop = true
    · have hstate : L.state c = .TRANS_WR := by simp [hstate, SMPMemRequest.transient, hmemOp, hsnoop]
      by_cases hmiss : r.state = .INVALID
      · have h := goToMemory_of h hc hmiss .TRANS_WR_MEM (by simp [hstate, MESIState.mayBecome])
        refine ⟨_, ?_, .goToMemory hc hmiss hsnoop hdata⟩
        simp [writeMissAckHandler, hmiss, hstate, h, check, MESIState.isValid, MESIState.bits, hdata, hmemOp]
      · refine ⟨_, ?_, .conclude hc (.modified hmemOp fun _ _ => hmiss)⟩
        have hmay := hmodified _ (.inl rfl) hstate
        simp [writeMissAckHandler, hmiss, hstate, hmay, check, MESIState.isValid, MESIState.bits, hdata]
    · have hsnoop : r.needSnoop = false := by simpa using hsnoop
      have hstate : L.state c = .TRANS_WR_MEM := by simp [hstate, SMPMemRequest.transient, hmemOp, hsnoop]
      refine ⟨_, ?_, .conclude hc (.modified hmemOp fun hn => absurd hn (by simp [hsnoop]))⟩
      have hmay := hmodified _ (.inr rfl) hstate
      simp [writeMissAckHandler, hstate, hmay, check, MESIState.isValid, MESIState.bits, hdata]
  · have hdata : r.needData = false := by simpa using hdata
    have hsnoop := hupgrade hdata
    have hstate : L.state c = .TRANS_WR := by simp [hstate, SMPMemRequest.transient, hmemOp, hsnoop]
    have hmay := hmodified _ (.inl rfl) hstate
    have hack : L.invalidateAckHandler c = .ok ((L.changeStateTo c .MODIFIED).concludeAccess c) := by
      simp [invalidateAckHandler, hstate, hmay, check, MESIState.isValid, MESIState.bits]
    have hstep : L.step upperCaches (.answer c) = L.invalidateAckHandler c := by
      simp only [Line.step, withRequest_of_sent hc, returnAccess]
      split <;> simp_all [check]
    rw [Steps, hstep, hack]
    exact ⟨_, rfl, .conclude hc (.modified hmemOp fun _ hd => absurd hd (by simp [hdata]))⟩

/-- The code performs each event that may happen, and this is a transition. -/
lemma Enabled.steps (h : L.Inv) (hs : L.Sound upperCaches) {e : LineEvent n} (he : L.Enabled upperCaches e) :
    L.Steps upperCaches e := by
  cases e with
  | access c memOp => exact .access he
  | run c =>
    obtain ⟨memOp, hc⟩ := he
    by_cases hread : memOp = .MemRead
    · exact .run_read (hread ▸ hc)
    · exact .run_write hc hread
  | send c allocated =>
    obtain ⟨⟨memOp, hc⟩, hne⟩ := he
    exact .send hs hc hne
  | retryAllocate c allocated =>
    obtain ⟨memOp, hc⟩ := he
    exact .retryAllocate h hc
  | reserve c rpl =>
    obtain ⟨memOp, hc⟩ := he
    exact .reserve hc
  | evict c => exact .evict he.1 he.2
  | startEviction c addr => exact .startEviction h he.1 he.2
  | finishEviction c => exact .finishEviction h he
  | bus c =>
    obtain ⟨r, hc⟩ := he
    exact .bus h hc
  | receive c d =>
    obtain ⟨r, hc, hd⟩ := he
    exact .receive h hs hc hd
  | upperInvalidated d =>
    obtain ⟨e, hd⟩ := Option.ne_none_iff_exists'.1 he
    exact .upperInvalidated h hs hd
  | ack c d =>
    obtain ⟨r, hc, hd⟩ := he
    exact .ack h hc hd
  | memory c =>
    obtain ⟨r, hc⟩ := he
    exact .memory hc
  | answer c =>
    obtain ⟨r, hc⟩ := he
    by_cases hread : r.memOp = .MemRead
    · exact .answer_read h hs hc hread
    · exact .answer_write h hs hc hread

/-! ## What fails an assertion -/

/-- The events that fail an assertion: a request that no cache sends, and a write that waited for a
shared line that is being evicted when its turn comes. -/
def Fails : LineEvent n → Prop
  | .access _ memOp => memOp = .MemPush
  | .send c _ => (∃ memOp, L.access c = some ⟨memOp, .granted⟩) ∧ L.state c = .TRANS_INV
  | _ => False

lemma withAccess_eq_client {f : MemOperation → Stage n → Except Fault (Line n)}
    (h : ∀ memOp stage, L.access c = some ⟨memOp, stage⟩ → f memOp stage = .error .client) :
    L.withAccess c f = .error .client := by
  unfold withAccess
  split
  · rfl
  next a ha => exact h a.memOp a.stage ha

lemma withRequest_eq_client {location : Location} {f : SMPMemRequest n → Except Fault (Line n)}
    (h : ∀ r, L.sent c = some (location, r) → f r = .error .client) :
    L.withRequest c location f = .error .client := by
  unfold withRequest withAccess
  split
  · rfl
  next a ha =>
    dsimp only
    split
    next l r hstage =>
      split_ifs with hl
      · exact h r (by rw [sent_of_access ha, hstage, hl]; rfl)
      · rfl
    · rfl

/-- What may not happen is refused. -/
lemma step_of_not_enabled {e : LineEvent n} (he : ¬L.Enabled upperCaches e)
    (hf : ¬L.Fails e) : L.step upperCaches e = .error .client := by
  unfold Line.step
  cases e with
  | access c memOp => exact absurd (not_not.1 he) hf
  | run c =>
    refine withAccess_eq_client fun memOp stage hc => ?_
    refine check_bind_of_not fun hstage => ?_
    exact he ⟨memOp, hstage ▸ hc⟩
  | send c allocated =>
    refine withAccess_eq_client fun memOp stage hc => ?_
    refine check_bind_of_not fun hstage => ?_
    subst hstage
    by_cases hstate : L.state c = .TRANS_INV
    · exact hf ⟨⟨memOp, hc⟩, hstate⟩
    · exact he ⟨⟨memOp, hc⟩, hstate⟩
  | retryAllocate c allocated =>
    refine withAccess_eq_client fun memOp stage hc => ?_
    refine check_bind_of_not fun hstage => ?_
    exact he ⟨memOp, hstage ▸ hc⟩
  | reserve c rpl =>
    refine withAccess_eq_client fun memOp stage hc => ?_
    refine check_bind_of_not fun hstage => ?_
    exact he ⟨memOp, hstage ▸ hc⟩
  | evict c =>
    by_cases hupper : upperCaches = 0
    · have hread := Bool.eq_false_iff.2 fun hread => he ⟨hupper, hread⟩
      refine (check_bind hupper).trans ?_
      rw [Line.evict, MESIState.isStable_eq, hread]
      rfl
    · exact check_bind_of_not hupper
  | startEviction c addr =>
    by_cases hupper : upperCaches = 0
    · exact check_bind_of_not (not_not_intro hupper)
    · have hread := Bool.eq_false_iff.2 fun hread => he ⟨Nat.pos_of_ne_zero hupper, hread⟩
      refine (check_bind hupper).trans ?_
      rw [Line.startEviction, MESIState.isStable_eq, hread]
      rfl
  | finishEviction c => exact check_bind_of_not he
  | bus c => exact withRequest_eq_client fun r hc => absurd ⟨r, hc⟩ he
  | receive c d =>
    refine withRequest_eq_client fun r hc => check_bind_of_not fun hd => he ⟨r, hc, hd⟩
  | upperInvalidated d => exact check_bind_of_not he
  | ack c d =>
    refine withRequest_eq_client fun r hc => check_bind_of_not fun hd => he ⟨r, hc, hd⟩
  | memory c => exact withRequest_eq_client fun r hc => absurd ⟨r, hc⟩ he
  | answer c => exact withRequest_eq_client fun r hc => absurd ⟨r, hc⟩ he

end Line

end Sesc.Smp
