import Mathlib.Data.Fintype.Card
import Mathlib.Tactic.Common
import Sesc.Smp.MESIProtocol

/-!
# One writer or many readers

Only the cache whose access the registers have granted changes a line into one that it may read or
write.  Before it does so, each other cache has answered its request, and has given the line up or has
become one of its readers.
-/

namespace Sesc.Smp

open Lib Mshr

namespace MESIState

variable {s : MESIState}

/-- A state between two accesses. -/
def atRest : MESIState → Bool
  | .INVALID | .TRANS_INV | .TRANS_INV_D | .MODIFIED | .EXCLUSIVE | .SHARED => true
  | _ => false

lemma canBeRead_of_canBeWritten (h : s.canBeWritten = true) : s.canBeRead = true := by
  cases s <;> first | rfl | exact absurd h (by decide)

lemma canBeWritten_iff : s.canBeWritten = true ↔ s = .EXCLUSIVE ∨ s = .MODIFIED := by
  cases s <;> decide

lemma canBeRead_iff : s.canBeRead = true ↔ s = .EXCLUSIVE ∨ s = .MODIFIED ∨ s = .SHARED := by
  cases s <;> decide

lemma isStable_eq : s.isStable = s.canBeRead := by cases s <;> decide

lemma isValid_iff : s.isValid = true ↔ s ≠ .INVALID := by cases s <;> decide

lemma isLocked_iff : s.isLocked = true ↔ s ≠ .INVALID ∧ s.canBeRead = false := by
  cases s <;> decide

end MESIState

/-- A state change that gives the cache no new right. -/
structure MESIState.Weakens (s s' : MESIState) : Prop where
  written : s'.canBeWritten = true → s.canBeWritten = true
  read : s'.canBeRead = true → s.canBeRead = true

namespace Stage

variable {n : ℕ}

/-- `mutExclBuffer` has granted the access. -/
def holds : Stage n → Bool
  | .scheduled | .queued => false
  | .granted | .allocating _ | .sent _ _ => true

/-- The request to the bus. -/
def request : Stage n → Option (Location × SMPMemRequest n)
  | .sent location r => some (location, r)
  | _ => none

end Stage

namespace SMPMemRequest

variable {n : ℕ} (r : SMPMemRequest n)

/-- The state of the line at the requestor. -/
def transient : MESIState :=
  if r.memOp = .MemRead then
    if r.needSnoop then .TRANS_RD else .TRANS_RD_MEM
  else if r.needSnoop then .TRANS_WR else .TRANS_WR_MEM

/-- The line of another cache that has answered the request. -/
structure Answered (st : MESIState) : Prop where
  written : st.canBeWritten = false
  read : st.canBeRead = true → r.memOp = .MemRead ∧ r.state ≠ .INVALID

lemma Answered.weaken {r : SMPMemRequest n} {st st' : MESIState} (h : r.Answered st)
    (hst : st.Weakens st') : r.Answered st' where
  written := Bool.eq_false_iff.2 fun hw => Bool.eq_false_iff.1 h.written (hst.written hw)
  read hr := h.read (hst.read hr)

lemma canBeRead_transient : r.transient.canBeRead = false := by
  unfold transient
  split_ifs <;> rfl

lemma atRest_transient : r.transient.atRest = false := by
  unfold transient
  split_ifs <;> rfl

end SMPMemRequest

namespace Line

variable {n : ℕ}

/-- The request of a cache that is on its way, and where it is. -/
def sent (L : Line n) (c : Fin n) : Option (Location × SMPMemRequest n) :=
  (L.access c).bind fun a => a.stage.request

/-- The number of caches that have still to answer a request. -/
def due (L : Line n) (c : Fin n) : ℕ := (Finset.univ.filter fun d => L.snoop c d ≠ .idle).card

/-- The registers of a line. -/
structure Registers (L : Line n) : Prop where
  memOp : ∀ c a, L.access c = some a → a.memOp ≠ .MemPush
  waiting : ∀ c memOp, memOp ∈ L.waiting c → memOp ≠ .MemPush
  holder : ∀ c a, L.access c = some a → a.stage.holds = true → L.holder = some c
  nodup : L.queue.Nodup
  queued : ∀ c, c ∈ L.queue → ∃ memOp, L.access c = some ⟨memOp, .queued⟩

/-- A request on its way, and the line of its requestor. -/
structure OnItsWay (L : Line n) (c : Fin n) (location : Location) (r : SMPMemRequest n) : Prop where
  state : L.state c = r.transient
  memOp : r.memOp ≠ .MemPush
  inMemory : location = .inMemory → r.needSnoop = false
  missed : r.needSnoop = false → r.state = .INVALID
  found : r.found = true → r.state ≠ .INVALID
  self : L.snoop c c = .idle
  snooping : location = .snooping → r.needSnoop = true ∧ L.pendReqsTable c = some (L.due c)
  elsewhere : location ≠ .snooping → L.pendReqsTable c = none ∧ ∀ d, L.snoop c d = .idle
  answered : (location = .toBus → r.needSnoop = false) → ∀ d, d ≠ c → L.snoop c d ≠ .received →
    r.Answered (L.state d)

/-- A cache that has no request on its way. -/
structure Quiet (L : Line n) (c : Fin n) : Prop where
  atRest : (L.state c).atRest = true
  notPending : L.pendReqsTable c = none
  idle : ∀ d, L.snoop c d = .idle

structure Inv (L : Line n) : Prop where
  registers : L.Registers
  onItsWay : ∀ c location r, L.sent c = some (location, r) → L.OnItsWay c location r
  quiet : ∀ c, L.sent c = none → L.Quiet c
  alone : ∀ c d, c ≠ d → (L.state c).canBeWritten = true → (L.state d).canBeRead = false
  invalidating : ∀ c d e, L.pendInvTable d = some e → e.cb = .ack c → L.snoop c d = .invalidating
  leaving : ∀ d, L.pendInvTable d ≠ none ∨ L.replacing d ≠ none →
    L.state d = .TRANS_INV ∨ L.state d = .TRANS_INV_D
  replacing : ∀ d, L.replacing d ≠ none → L.pendInvTable d = none
  evicting : ∀ d e addr, L.pendInvTable d = some e → e.cb = .allocate addr → e.invalidate = false
  allocating : ∀ c memOp rpl, L.access c = some ⟨memOp, .allocating rpl⟩ → L.state c = .INVALID

variable {L L' : Line n} {c d : Fin n} {memOp : MemOperation} {stage : Stage n} {r r' : SMPMemRequest n}
  {location : Location} {st : MESIState}

lemma sent_eq_some : L.sent c = some (location, r) ↔
    ∃ memOp, L.access c = some ⟨memOp, .sent location r⟩ := by
  constructor
  · intro h
    obtain ⟨⟨memOp, stage⟩, ha, hstage⟩ := Option.bind_eq_some_iff.1 h
    cases stage <;> simp only [Stage.request, reduceCtorEq, Option.some.injEq, Prod.mk.injEq] at hstage
    obtain ⟨rfl, rfl⟩ := hstage
    exact ⟨memOp, ha⟩
  · rintro ⟨memOp, ha⟩
    simp [sent, ha, Stage.request]

lemma sent_of_access {a : Access n} (ha : L.access c = some a) : L.sent c = a.stage.request := by
  simp [sent, ha]

lemma sent_setStage (L : Line n) (memOp : MemOperation) (stage : Stage n) (c' : Fin n) :
    (L.setStage c memOp stage).sent c' =
    if c' = c then stage.request else L.sent c' := by
  by_cases h : c' = c
  · subst h
    simp [sent, setStage]
  · simp [sent, setStage, h]

lemma Inv.new : (Line.new : Line n).Inv where
  registers := ⟨by simp [Line.new], by simp [Line.new], by simp [Line.new], List.nodup_nil, by simp [Line.new]⟩
  onItsWay := by simp [sent, Line.new]
  quiet _ _ := ⟨rfl, rfl, fun _ => rfl⟩
  alone := by simp [Line.new, MESIState.canBeWritten_iff]
  invalidating := by simp [Line.new]
  leaving := by simp [Line.new]
  replacing := by simp [Line.new]
  evicting := by simp [Line.new]
  allocating := by simp [Line.new]

/-! ## The registers -/

/-- One cache at most has a request on its way. -/
lemma Registers.unique (h : L.Registers) {a b : Access n} (ha : L.access c = some a)
    (hb : L.access d = some b) (hca : a.stage.holds = true) (hdb : b.stage.holds = true) : c = d :=
  Option.some.inj ((h.holder c a ha hca).symm.trans (h.holder d b hb hdb))

lemma Registers.sent_eq_none (h : L.Registers) (hc : L.sent c = some (location, r)) (hd : d ≠ c) :
    L.sent d = none := by
  rcases hd' : L.sent d with _ | ⟨location', r'⟩
  · rfl
  obtain ⟨memOp, ha⟩ := sent_eq_some.1 hc
  obtain ⟨memOp', hb⟩ := sent_eq_some.1 hd'
  exact absurd (h.unique hb ha rfl rfl) hd

/-- An access goes on. -/
lemma Registers.setStage (h : L.Registers) (memOp : MemOperation) (stage : Stage n) {a : Access n}
    (ha : L.access c = some a) (hq : a.stage ≠ .queued) (hmemOp : memOp ≠ .MemPush)
    (hholds : stage.holds = true → L.holder = some c) : (L.setStage c memOp stage).Registers where
  memOp c' a' := by
    simp only [Line.setStage, Function.update_apply]
    split_ifs with hc'
    · rintro ⟨⟩
      exact hmemOp
    · exact h.memOp c' a'
  waiting := h.waiting
  holder c' a' := by
    simp only [Line.setStage, Function.update_apply]
    split_ifs with hc'
    · rintro ⟨⟩
      rw [hc']
      exact hholds
    · exact h.holder c' a'
  nodup := h.nodup
  queued c' hc' := by
    obtain ⟨memOp', ha'⟩ := h.queued c' hc'
    have hne : c' ≠ c := by
      rintro rfl
      rw [ha] at ha'
      cases ha'
      exact hq rfl
    exact ⟨memOp', by simpa [Line.setStage, hne] using ha'⟩

lemma Registers.retireOutsReq (h : L.Registers) {a : Access n} (ha : L.access c = some a)
    (hq : a.stage ≠ .queued) : (L.retireOutsReq c).Registers := by
  unfold Line.retireOutsReq
  split
  · refine ⟨?_, h.waiting, ?_, h.nodup, ?_⟩
    · intro c' a' ha'
      simp only [Function.update_apply] at ha'
      split_ifs at ha' with hc'
      exact h.memOp c' a' ha'
    · intro c' a' ha'
      simp only [Function.update_apply] at ha'
      split_ifs at ha' with hc'
      exact h.holder c' a' ha'
    · intro c' hc'
      obtain ⟨memOp', ha'⟩ := h.queued c' hc'
      have hne : c' ≠ c := by
        rintro rfl
        rw [ha] at ha'
        cases ha'
        exact hq rfl
      exact ⟨memOp', by simpa [hne] using ha'⟩
  next memOp rest hwaiting =>
    have hset := h.setStage memOp .scheduled ha hq
      (h.waiting c memOp (by simp [hwaiting])) (by simp [Stage.holds])
    refine ⟨hset.memOp, ?_, hset.holder, h.nodup, hset.queued⟩
    intro c' memOp'
    simp only [Function.update_apply]
    split_ifs with hc'
    · intro hmem
      exact h.waiting c memOp' (by simp [hwaiting, hmem])
    · exact h.waiting c' memOp'

lemma Registers.issueMutExcl (h : L.Registers) {a : Access n} (ha : L.access c = some a)
    (hstage : a.stage = .scheduled) (hmemOp : memOp ≠ .MemPush) :
    (L.issueMutExcl c memOp).Registers := by
  have hq : a.stage ≠ .queued := by simp [hstage]
  have hc : c ∉ L.queue := by
    intro hc
    obtain ⟨memOp', ha'⟩ := h.queued c hc
    rw [ha] at ha'
    cases ha'
    exact hq rfl
  unfold Line.issueMutExcl
  split
  next hnone =>
    have hset := h.setStage memOp .queued ha hq hmemOp (by simp [Stage.holds])
    refine ⟨?_, h.waiting, ?_, h.nodup, ?_⟩
    · intro c' a' ha'
      simp only [Line.setStage, Function.update_apply] at ha'
      split_ifs at ha' with hc'
      · cases ha'
        exact hmemOp
      · exact h.memOp c' a' ha'
    · intro c' a' ha' hholds
      simp only [Line.setStage, Function.update_apply] at ha'
      split_ifs at ha' with hc'
      · rw [hc']
      · have := h.holder c' a' ha' hholds
        rw [hnone] at this
        cases this
    · intro c' hc'
      obtain ⟨memOp', ha'⟩ := h.queued c' hc'
      have hne : c' ≠ c := ne_of_mem_of_not_mem hc' hc
      exact ⟨memOp', by simpa [Line.setStage, hne] using ha'⟩
  · have hset := h.setStage memOp .queued ha hq hmemOp (by simp [Stage.holds])
    refine ⟨hset.memOp, h.waiting, hset.holder, ?_, ?_⟩
    · exact h.nodup.append (List.nodup_singleton c) (by simpa using hc)
    · intro c' hc'
      rcases List.mem_append.1 hc' with hc' | hc'
      · exact hset.queued c' hc'
      · cases List.mem_singleton.1 hc'
        exact ⟨memOp, by simp [Line.setStage]⟩

/-- The registers after the access of the holder has been retired. -/
lemma Registers.retireMutExcl (h : L.Registers)
    (hc : ∀ d a, L.access d = some a → a.stage.holds = false) : L.retireMutExcl.Registers := by
  unfold Line.retireMutExcl
  split
  · exact ⟨h.memOp, h.waiting, fun d a ha hholds => absurd (hc d a ha) (by simp [hholds]), h.nodup, h.queued⟩
  next d rest hqueue =>
    have hnodup := h.nodup
    rw [hqueue] at hnodup
    obtain ⟨hd, hrest⟩ := List.nodup_cons.1 hnodup
    obtain ⟨memOp, had⟩ := h.queued d (by simp [hqueue])
    refine ⟨?_, h.waiting, ?_, hrest, ?_⟩
    · intro c' a' ha'
      simp only [Function.update_apply] at ha'
      split_ifs at ha' with hc'
      · rw [had] at ha'
        cases ha'
        exact h.memOp d ⟨memOp, .queued⟩ had
      · exact h.memOp c' a' ha'
    · intro c' a' ha' hholds
      simp only [Function.update_apply] at ha'
      split_ifs at ha' with hc'
      · rw [hc']
      · exact absurd (hc c' a' ha') (by simp [hholds])
    · intro c' hc'
      obtain ⟨memOp', ha'⟩ := h.queued c' (by simp [hqueue, hc'])
      have hne : c' ≠ d := ne_of_mem_of_not_mem hc' hd
      exact ⟨memOp', by simpa [hne] using ha'⟩

/-! ## What the steps keep -/

/-- The requests, the states and the bus are all that the rest of the invariant speaks of. -/
lemma Inv.congr (h : L.Inv) (hregisters : L'.Registers) (hsent : L'.sent = L.sent)
    (hstate : L'.state = L.state) (hpend : L'.pendReqsTable = L.pendReqsTable)
    (hsnoop : L'.snoop = L.snoop) (hinv : L'.pendInvTable = L.pendInvTable)
    (hreplacing : L'.replacing = L.replacing)
    (hallocating : ∀ c memOp rpl, L'.access c = some ⟨memOp, .allocating rpl⟩ → L.state c = .INVALID) :
    L'.Inv where
  registers := hregisters
  onItsWay c location r hr := by
    rw [hsent] at hr
    obtain ⟨h1, hm, h2, h3, h3', h4, h5, h6, h7⟩ := h.onItsWay c location r hr
    refine ⟨by rw [hstate, h1], hm, h2, h3, h3', by rw [hsnoop, h4], ?_, ?_, ?_⟩
    · rw [hpend, due, hsnoop]
      exact h5
    · rw [hpend, hsnoop]
      exact h6
    · rw [hsnoop, hstate]
      exact h7
  quiet c hc := by
    rw [hsent] at hc
    obtain ⟨h1, h2, h3⟩ := h.quiet c hc
    exact ⟨by rw [hstate, h1], by rw [hpend, h2], by rw [hsnoop]; exact h3⟩
  alone := by
    rw [hstate]
    exact h.alone
  invalidating := by
    rw [hsnoop, hinv]
    exact h.invalidating
  leaving := by
    rw [hinv, hreplacing, hstate]
    exact h.leaving
  replacing := by
    rw [hinv, hreplacing]
    exact h.replacing
  evicting := by
    rw [hinv]
    exact h.evicting
  allocating := by
    rw [hstate]
    exact hallocating

lemma Inv.setStage (h : L.Inv) (memOp : MemOperation) (stage : Stage n) {a : Access n}
    (ha : L.access c = some a) (hq : a.stage ≠ .queued) (hearly : a.stage.request = none)
    (hearly' : stage.request = none) (hmemOp : memOp ≠ .MemPush)
    (hholds : stage.holds = true → L.holder = some c)
    (hallocating : ∀ rpl, stage = .allocating rpl → L.state c = .INVALID) :
    (L.setStage c memOp stage).Inv := by
  refine h.congr (h.registers.setStage memOp stage ha hq hmemOp hholds) ?_ rfl rfl rfl rfl rfl ?_
  · funext c'
    rw [sent_setStage]
    split_ifs with hc'
    · rw [hc', sent_of_access ha, hearly, hearly']
    · rfl
  · intro c' memOp' rpl hstage
    simp only [Line.setStage, Function.update_apply] at hstage
    split_ifs at hstage with hc'
    · cases hstage
      rw [hc']
      exact hallocating rpl rfl
    · exact h.allocating c' memOp' rpl hstage

lemma Inv.retireOutsReq (h : L.Inv) {a : Access n} (ha : L.access c = some a) (hq : a.stage ≠ .queued)
    (hearly : a.stage.request = none) : (L.retireOutsReq c).Inv := by
  have hregisters := h.registers.retireOutsReq ha hq
  unfold Line.retireOutsReq at hregisters ⊢
  split at hregisters
  · refine h.congr hregisters ?_ rfl rfl rfl rfl rfl ?_
    · funext c'
      by_cases hc' : c' = c
      · subst hc'
        simp [sent, ha, hearly]
      · simp [sent, hc']
    · intro c' memOp' rpl hstage
      simp only [Function.update_apply] at hstage
      split_ifs at hstage with hc'
      exact h.allocating c' memOp' rpl hstage
  · refine h.congr hregisters ?_ rfl rfl rfl rfl rfl ?_
    · funext c'
      by_cases hc' : c' = c
      · subst hc'
        rw [sent_of_access ha, hearly]
        simp [sent, Stage.request]
      · simp [sent, hc']
    · intro c' memOp' rpl hstage
      simp only [Function.update_apply] at hstage
      split_ifs at hstage with hc'
      · cases hstage
      · exact h.allocating c' memOp' rpl hstage

lemma Inv.issueMutExcl (h : L.Inv) {a : Access n} (ha : L.access c = some a)
    (hstage : a.stage = .scheduled) (hmemOp : memOp ≠ .MemPush) : (L.issueMutExcl c memOp).Inv := by
  have hregisters := h.registers.issueMutExcl ha hstage hmemOp
  have hearly : L.sent c = none := by rw [sent_of_access ha, hstage]; rfl
  unfold Line.issueMutExcl at hregisters ⊢
  split at hregisters
  · refine h.congr hregisters ?_ rfl rfl rfl rfl rfl ?_
    · funext c'
      refine (sent_setStage _ _ .granted c').trans ?_
      split_ifs with hc'
      · rw [hc', hearly]
        rfl
      · rfl
    · intro c' memOp' rpl hstage'
      simp only [Line.setStage, Function.update_apply] at hstage'
      split_ifs at hstage' with hc'
      · cases hstage'
      · exact h.allocating c' memOp' rpl hstage'
  · refine h.congr hregisters ?_ rfl rfl rfl rfl rfl ?_
    · funext c'
      refine (sent_setStage _ _ .queued c').trans ?_
      split_ifs with hc'
      · rw [hc', hearly]
        rfl
      · rfl
    · intro c' memOp' rpl hstage'
      simp only [Line.setStage, Function.update_apply] at hstage'
      split_ifs at hstage' with hc'
      · cases hstage'
      · exact h.allocating c' memOp' rpl hstage'

lemma Registers.changeStateTo (h : L.Registers) : (L.changeStateTo d st).Registers :=
  ⟨h.memOp, h.waiting, h.holder, h.nodup, h.queued⟩

@[simp] lemma state_changeStateTo (c : Fin n) :
    (L.changeStateTo d st).state c = if c = d then st else L.state c := by
  simp [Line.changeStateTo, Function.update_apply]

@[simp] lemma sent_changeStateTo : (L.changeStateTo d st).sent = L.sent := rfl
@[simp] lemma snoop_changeStateTo : (L.changeStateTo d st).snoop = L.snoop := rfl
lemma access_setStage_of_ne (L : Line n) (memOp : MemOperation) (stage : Stage n) {c' : Fin n} (h : c' ≠ c) :
    (L.setStage c memOp stage).access c' = L.access c' := Function.update_of_ne h _ _

@[simp] lemma state_setStage : (L.setStage c memOp stage).state = L.state := rfl
@[simp] lemma snoop_setStage : (L.setStage c memOp stage).snoop = L.snoop := rfl

/-- The line changes in a cache that has no request on its way. -/
lemma Inv.changeStateTo (h : L.Inv) (hd : L.sent d = none) (hrest : st.atRest = true)
    (hweak : (L.state d).Weakens st) (hvalid : L.state d ≠ .INVALID)
    (hleaving : (L.pendInvTable d = none ∧ L.replacing d = none) ∨ st = .TRANS_INV ∨ st = .TRANS_INV_D) :
    (L.changeStateTo d st).Inv where
  registers := h.registers.changeStateTo
  onItsWay c location r hr := by
    obtain ⟨h1, hm, h2, h3, h3', h4, h5, h6, h7⟩ := h.onItsWay c location r hr
    have hne : c ≠ d := by
      rintro rfl
      exact absurd (hd.symm.trans hr) (by simp)
    refine ⟨?_, hm, h2, h3, h3', h4, h5, h6, ?_⟩
    · rw [state_changeStateTo, if_neg hne, h1]
    · intro hloc d' hd' hs
      rw [state_changeStateTo]
      split_ifs with hdd
      · exact ((hdd ▸ h7 hloc d' hd' hs) : r.Answered (L.state d)).weaken hweak
      · exact h7 hloc d' hd' hs
  quiet c hc := by
    obtain ⟨h1, h2, h3⟩ := h.quiet c hc
    refine ⟨?_, h2, h3⟩
    rw [state_changeStateTo]
    split_ifs
    · exact hrest
    · exact h1
  alone c c' hne hw := by
    rw [state_changeStateTo] at hw ⊢
    by_cases h1 : c = d
    · rw [if_pos h1] at hw
      rw [if_neg fun h2 => hne (h1.trans h2.symm)]
      exact h.alone d c' (h1 ▸ hne) (hweak.written hw)
    · rw [if_neg h1] at hw
      split_ifs with h2
      · exact Bool.eq_false_iff.2 fun hr => Bool.eq_false_iff.1 (h.alone c d h1 hw) (hweak.read hr)
      · exact h.alone c c' hne hw
  invalidating := h.invalidating
  leaving d' hd' := by
    rw [state_changeStateTo]
    split_ifs with hdd
    · refine hleaving.resolve_left ?_
      rintro ⟨h1, h2⟩
      rw [hdd] at hd'
      exact hd'.elim (fun hp => hp h1) fun hr => hr h2
    · exact h.leaving d' hd'
  replacing := h.replacing
  evicting := h.evicting
  allocating c memOp rpl hstage := by
    rw [state_changeStateTo, if_neg]
    · exact h.allocating c memOp rpl hstage
    · rintro rfl
      exact hvalid (h.allocating c memOp rpl hstage)

/-- A line that a cache may use is not being invalidated. -/
lemma Inv.not_leaving (h : L.Inv) (hd : L.state d ≠ .TRANS_INV ∧ L.state d ≠ .TRANS_INV_D) :
    L.pendInvTable d = none ∧ L.replacing d = none := by
  by_contra hcon
  rw [Classical.not_and_iff_not_or_not] at hcon
  exact (h.leaving d hcon).elim hd.1 hd.2

/-- A cache whose access was granted sends its request. -/
lemma Inv.sendRequest (h : L.Inv) {a : Access n} (ha : L.access c = some a)
    (hholds : a.stage.holds = true) (hearly : a.stage.request = none) (hmemOp : memOp ≠ .MemPush)
    (sendData : Bool) (hst : st = if memOp = .MemRead then .TRANS_RD else .TRANS_WR)
    (hleaving : L.state c ≠ .TRANS_INV ∧ L.state c ≠ .TRANS_INV_D) :
    ((L.changeStateTo c st).sendRequest c memOp sendData).Inv := by
  have hc : L.sent c = none := by rw [sent_of_access ha, hearly]
  have hquiet := h.quiet c hc
  have hq : a.stage ≠ .queued := by
    intro hq
    simp [hq, Stage.holds] at hholds
  have hread : st.canBeRead = false := by
    rw [hst]
    split_ifs <;> rfl
  refine ⟨?_, ?_, ?_, ?_, h.invalidating, ?_, h.replacing, h.evicting, ?_⟩
  · exact h.registers.changeStateTo.setStage _ _ ha hq hmemOp fun _ => h.registers.holder c a ha hholds
  · intro c' location r hr
    rw [Line.sendRequest, sent_setStage] at hr
    split_ifs at hr with hc'
    · subst hc'
      simp only [Stage.request, Option.some.injEq, Prod.mk.injEq] at hr
      obtain ⟨rfl, rfl⟩ := hr
      refine ⟨?_, hmemOp, by simp, by simp [hmemOp], by simp, hquiet.idle c', by simp,
        fun _ => ⟨hquiet.notPending, hquiet.idle⟩, fun hloc => ?_⟩
      · simp [Line.sendRequest, SMPMemRequest.transient, hst, hmemOp]
      · simp [hmemOp] at hloc
    · obtain ⟨memOp', hb⟩ := sent_eq_some.1 hr
      exact absurd (h.registers.unique hb ha rfl hholds) hc'
  · intro c' hc'
    rw [Line.sendRequest, sent_setStage] at hc'
    split_ifs at hc' with hcc
    · cases hc'
    obtain ⟨h1, h2, h3⟩ := h.quiet c' hc'
    refine ⟨?_, h2, h3⟩
    rw [Line.sendRequest, state_setStage, state_changeStateTo, if_neg hcc]
    exact h1
  · intro c' d hne hw
    rw [Line.sendRequest, state_setStage, state_changeStateTo] at hw ⊢
    by_cases h1 : c' = c
    · rw [if_pos h1] at hw
      exact absurd (MESIState.canBeRead_of_canBeWritten hw) (by simp [hread])
    · rw [if_neg h1] at hw
      split_ifs
      · exact hread
      · exact h.alone c' d hne hw
  · intro d hd
    rw [Line.sendRequest, state_setStage, state_changeStateTo, if_neg]
    · exact h.leaving d hd
    · rintro rfl
      obtain ⟨h1, h2⟩ := h.not_leaving hleaving
      exact hd.elim (fun hp => hp h1) fun hr => hr h2
  · intro c' memOp' rpl hstage
    simp only [Line.sendRequest, Line.setStage, Line.changeStateTo, Function.update_apply] at hstage
    split_ifs at hstage with hc'
    · cases hstage
    · rw [Line.sendRequest, state_setStage, state_changeStateTo, if_neg hc']
      exact h.allocating c' memOp' rpl hstage

/-! ## The bus -/

/-- A request is at another place, or has changed, and nothing else. -/
lemma Registers.move (h : L.Registers) (hc : L.sent c = some (location, r)) (location' : Location)
    (r' : SMPMemRequest n) (hmemOp : memOp ≠ .MemPush) : (L.setStage c memOp (.sent location' r')).Registers := by
  obtain ⟨memOp', ha⟩ := sent_eq_some.1 hc
  exact h.setStage _ _ ha (by simp) hmemOp fun _ => h.holder c _ ha rfl

/-- A line that is being invalidated is not on its way to its cache. -/
lemma Inv.sent_of_leaving (h : L.Inv) (hd : L.state d = .TRANS_INV ∨ L.state d = .TRANS_INV_D) :
    L.sent d = none := by
  rcases hs : L.sent d with _ | ⟨location, r⟩
  · rfl
  have htrans := (h.onItsWay d location r hs).state
  have := SMPMemRequest.atRest_transient r
  rw [← htrans] at this
  rcases hd with hd | hd <;> rw [hd] at this <;> cases this

/-- A line in which the request of one cache has gone on. -/
lemma Inv.move (h : L.Inv) (hc : L.sent c = some (location, r)) (location' : Location)
    (r' : SMPMemRequest n) (hregisters : L'.Registers) (hsent : ∀ c', L'.sent c' = if c' = c then some (location', r') else L.sent c')
    (hc' : L'.OnItsWay c location' r') (hstate : ∀ c', c' ≠ c → L'.state c' = L.state c')
    (hpend : ∀ c', c' ≠ c → L'.pendReqsTable c' = L.pendReqsTable c')
    (hsnoop : ∀ c', c' ≠ c → L'.snoop c' = L.snoop c') (hpendInv : L'.pendInvTable = L.pendInvTable)
    (hreplacing : L'.replacing = L.replacing)
    (hinv : ∀ c d e, L.pendInvTable d = some e → e.cb = .ack c → L'.snoop c d = .invalidating)
    (haccess : ∀ c', c' ≠ c → L'.access c' = L.access c') : L'.Inv where
  registers := hregisters
  onItsWay c' location'' r'' hr := by
    rw [hsent] at hr
    split_ifs at hr with hcc
    · cases hr
      rw [hcc]
      exact hc'
    · rw [h.registers.sent_eq_none hc hcc] at hr
      cases hr
  quiet c' hr := by
    rw [hsent] at hr
    split_ifs at hr with hcc
    obtain ⟨h1, h2, h3⟩ := h.quiet c' hr
    exact ⟨by rw [hstate c' hcc, h1], by rw [hpend c' hcc, h2], by rw [hsnoop c' hcc]; exact h3⟩
  alone c' d hne hw := by
    have hread : (L'.state c).canBeRead = false := by
      rw [hc'.state]
      exact r'.canBeRead_transient
    by_cases hcc : c' = c
    · rw [hcc] at hw
      exact absurd (MESIState.canBeRead_of_canBeWritten hw) (by simp [hread])
    by_cases hdc : d = c
    · rw [hdc]
      exact hread
    · rw [hstate d hdc]
      rw [hstate c' hcc] at hw
      exact h.alone c' d hne hw
  invalidating := by
    rw [hpendInv]
    exact hinv
  leaving d hd := by
    rw [hpendInv, hreplacing] at hd
    have hleaving := h.leaving d hd
    have hne : d ≠ c := by
      rintro rfl
      rw [h.sent_of_leaving hleaving] at hc
      cases hc
    rw [hstate d hne]
    exact hleaving
  replacing := by
    rw [hpendInv, hreplacing]
    exact h.replacing
  evicting := by
    rw [hpendInv]
    exact h.evicting
  allocating c' memOp rpl hstage := by
    have hne : c' ≠ c := by
      rintro rfl
      have := hsent c'
      rw [if_pos rfl, sent_of_access hstage] at this
      cases this
    rw [hstate c' hne]
    rw [haccess c' hne] at hstage
    exact h.allocating c' memOp rpl hstage

/-- The request is answered by all. -/
lemma Inv.finalizeAccess (h : L.Inv) (hc : L.sent c = some (location, r))
    (hstate : L.state c = r'.transient) (hmissed : r'.needSnoop = false → r'.state = .INVALID)
    (hfound : r'.found = true → r'.state ≠ .INVALID) (hmemOp : r'.memOp ≠ .MemPush)
    (hidle : ∀ d, L.snoop c d = .idle) (hanswered : ∀ d, d ≠ c → r'.Answered (L.state d)) : (L.finalizeAccess c r').Inv := by
  refine h.move hc .toRequestor r' ?_ ?_ ?_ (fun _ _ => rfl) ?_ (fun _ _ => rfl) rfl rfl h.invalidating
    fun c' hc' => access_setStage_of_ne _ _ _ hc'
  · obtain ⟨h1, h2, h3, h4, h5⟩ := h.registers.move hc .toRequestor r' hmemOp
    exact ⟨h1, h2, h3, h4, h5⟩
  · exact fun c' => sent_setStage _ _ (.sent .toRequestor r') c'
  · exact ⟨hstate, hmemOp, by simp, hmissed, hfound, hidle c, by simp,
      fun _ => ⟨by simp [Line.finalizeAccess], hidle⟩, fun _ d hd _ => hanswered d hd⟩
  · intro c' hc'
    simp [Line.finalizeAccess, hc', Line.setStage]

lemma Inv.finalizeAccess_alone (h : L.Inv) (hc : L.sent c = some (.toBus, r)) (hn : n - 1 = 0)
    (hmemOp : r.memOp ≠ .MemPush) : (L.finalizeAccess c r).Inv := by
  obtain ⟨h1, hm, h2, h3, h3', h4, h5, h6, h7⟩ := h.onItsWay c _ r hc
  refine h.finalizeAccess hc h1 h3 h3' hmemOp (h6 (by simp)).2 fun d hd => ?_
  have := Fin.val_ne_of_ne hd
  have := d.isLt
  have := c.isLt
  omega

lemma card_received (c : Fin n) :
    (Finset.univ.filter fun d : Fin n => (if d = c then Snoop.idle else .received) ≠ .idle).card = n - 1 := by
  have : (Finset.univ.filter fun d : Fin n => (if d = c then Snoop.idle else .received) ≠ .idle)
      = Finset.univ.erase c := by
    ext d
    by_cases h : d = c <;> simp [h]
  rw [this, Finset.card_erase_of_mem (Finset.mem_univ c), Finset.card_univ, Fintype.card_fin]

/-- The bus takes a new request. -/
lemma Inv.busAccess (h : L.Inv) (hc : L.sent c = some (.toBus, r)) (hmemOp : r.memOp ≠ .MemPush)
    (hs : L.busAccess c r = .ok L') : L'.Inv := by
  obtain ⟨h1, hm, h2, h3, h3', h4, h5, h6, h7⟩ := h.onItsWay c _ r hc
  obtain ⟨hnone, hidle⟩ := h6 (by simp)
  rw [Line.busAccess, hnone] at hs
  split_ifs at hs with hsnoop hn
  · cases hs
    refine h.move hc .inMemory r (h.registers.move hc _ _ hmemOp)
      (fun c' => sent_setStage _ _ (.sent .inMemory r) c') ?_ (fun _ _ => rfl) (fun _ _ => rfl)
      (fun _ _ => rfl) rfl rfl h.invalidating fun c' hc' => access_setStage_of_ne _ _ _ hc'
    exact ⟨h1, hm, fun _ => hsnoop, h3, h3', h4, by simp, fun _ => ⟨hnone, hidle⟩, fun _ => h7 fun _ => hsnoop⟩
  · cases hs
    exact h.finalizeAccess_alone hc hn hmemOp
  · cases hs
    refine h.move hc .snooping r ?_
      (fun c' => sent_setStage _ _ (.sent .snooping r) c') ?_ (fun _ _ => rfl) ?_ ?_ rfl rfl ?_
      fun c' hc' => access_setStage_of_ne _ _ _ hc'
    · obtain ⟨g1, g2, g3, g4, g5⟩ := h.registers.move hc .snooping r hmemOp
      exact ⟨g1, g2, g3, g4, g5⟩
    · refine ⟨h1, hm, by simp, h3, h3', by simp, fun _ => ⟨by simpa using hsnoop, ?_⟩, by simp, ?_⟩
      · simp only [Function.update_self, due]
        rw [card_received c]
      · intro _ d hd hr
        simp [hd] at hr
    · intro c' hc'
      simp [hc']
    · intro c' hc'
      simp [hc']
    · intro c' d e he hcb
      have hinv := h.invalidating c' d e he hcb
      have hne : c' ≠ c := by
        rintro rfl
        rw [hidle d] at hinv
        cases hinv
      simpa [hne, Line.setStage] using hinv

@[simp] lemma state_setSnoop (st : Snoop) : (L.setSnoop c d st).state = L.state := rfl

@[simp] lemma snoop_setSnoop (c' d' : Fin n) (st : Snoop) : (L.setSnoop c d st).snoop c' d' =
    if c' = c ∧ d' = d then st else L.snoop c' d' := by
  by_cases hc : c' = c
  · subst hc
    by_cases hd : d' = d <;> simp [setSnoop, hd]
  · simp [setSnoop, hc]

/-- A cache has answered. -/
lemma due_setSnoop_idle (h : L.snoop c d ≠ .idle) : (L.setSnoop c d .idle).due c + 1 = L.due c := by
  have : (Finset.univ.filter fun d' => (L.setSnoop c d .idle).snoop c d' ≠ .idle)
      = (Finset.univ.filter fun d' => L.snoop c d' ≠ .idle).erase d := by
    ext d'
    by_cases hd : d' = d <;> simp [hd]
  rw [due, this, due, Finset.card_erase_add_one]
  simpa using h

/-- The change of a cache that has still to answer. -/
lemma due_setSnoop {st : Snoop} (h : L.snoop c d ≠ .idle) (hst : st ≠ .idle) :
    (L.setSnoop c d st).due c = L.due c := by
  unfold due
  congr 1
  ext d'
  by_cases hd : d' = d <;> simp [hd, h, hst]

lemma idle_of_due_eq_zero (h : L.due c = 0) (d : Fin n) : L.snoop c d = .idle := by
  by_contra hd
  exact absurd (Finset.card_eq_zero.1 h ▸ Finset.mem_filter.2 ⟨Finset.mem_univ d, hd⟩) (Finset.notMem_empty d)

/-- A request that tells at least as much as before. -/
structure Follows (r r' : SMPMemRequest n) : Prop where
  memOp : r'.memOp = r.memOp
  needSnoop : r'.needSnoop = r.needSnoop
  found : r'.state = .INVALID → r.state = .INVALID

lemma Follows.refl (r : SMPMemRequest n) : Follows r r := ⟨rfl, rfl, id⟩

lemma Follows.answered (h : Follows r r') (hr : r.Answered st) : r'.Answered st where
  written := hr.written
  read hread := ⟨h.memOp.trans (hr.read hread).1, fun hi => (hr.read hread).2 (h.found hi)⟩

lemma Follows.transient (h : Follows r r') : r'.transient = r.transient := by
  rw [SMPMemRequest.transient, SMPMemRequest.transient, h.memOp, h.needSnoop]

/-- An answer to a request. -/
lemma busAccess_of_pending {k : ℕ} (hsnoop : r.needSnoop = true) (hpend : L.pendReqsTable c = some k) :
    L.busAccess c r = .ok L' ↔ (0 < k ∧ k ≤ n) ∧ L' = if k - 1 = 0 then L.finalizeAccess c r
      else { L.setStage c r.memOp (.sent .snooping r) with
        pendReqsTable := Function.update L.pendReqsTable c (some (k - 1)) } := by
  rw [Line.busAccess, if_neg (by simp [hsnoop]), hpend]
  dsimp only
  rw [check_bind_eq_ok, check_bind_eq_ok, and_assoc]
  by_cases hk : k - 1 = 0
  · rw [if_neg (not_not_intro hk), if_pos hk, Except.ok.injEq, eq_comm (a := L')]
  · rw [if_pos hk, if_neg hk, Except.ok.injEq, eq_comm (a := L')]

/-- The cache `d` answers, and the bus takes the answer. -/
lemma Inv.respond (h : L.Inv) (hc : L.sent c = some (.snooping, r)) (hd : L.snoop c d ≠ .idle)
    (hinv : L.snoop c d ≠ .invalidating) (hr : Follows r r')
    (hfound : r'.found = true → r'.state ≠ .INVALID) (hanswered : r'.Answered (L.state d))
    (hmemOp : r.memOp ≠ .MemPush) (hs : (L.setSnoop c d .idle).busAccess c r' = .ok L') : L'.Inv := by
  obtain ⟨h1, hm, h2, h3, h3', h4, h5, h6, h7⟩ := h.onItsWay c _ r hc
  obtain ⟨hsnoop, hpend⟩ := h5 rfl
  have hmemOp' : r'.memOp ≠ .MemPush := hr.memOp ▸ hmemOp
  have hstate' : L.state c = r'.transient := h1.trans hr.transient.symm
  have hsnoop' : r'.needSnoop = true := hr.needSnoop.trans hsnoop
  have hmissed : r'.needSnoop = false → r'.state = .INVALID := fun hn => absurd hn (by simp [hsnoop'])
  have hdue := due_setSnoop_idle hd
  have hself : (L.setSnoop c d .idle).snoop c c = .idle := by
    rw [snoop_setSnoop, h4]
    split_ifs <;> rfl
  have hothers : ∀ d', d' ≠ c → (L.setSnoop c d .idle).snoop c d' ≠ .received →
      r'.Answered (L.state d') := by
    intro d' hd' hs'
    by_cases hdd : d' = d
    · rw [hdd]
      exact hanswered
    · refine hr.answered (h7 (by simp) d' hd' ?_)
      simpa [hdd] using hs'
  have hkeep : ∀ c' d' e, L.pendInvTable d' = some e → e.cb = .ack c' →
      (L.setSnoop c d .idle).snoop c' d' = .invalidating := by
    intro c' d' e he hcb
    have := h.invalidating c' d' e he hcb
    rw [snoop_setSnoop, if_neg]
    · exact this
    · rintro ⟨rfl, rfl⟩
      exact hinv this
  have hother : ∀ c', c' ≠ c → (L.setSnoop c d .idle).snoop c' = L.snoop c' := by
    intro c' hc'
    simp [setSnoop, hc']
  obtain ⟨⟨-, -⟩, rfl⟩ := (busAccess_of_pending (L := L.setSnoop c d .idle) hsnoop' hpend).1 hs
  split_ifs with hlast
  · obtain ⟨g1, g2, g3, g4, g5⟩ := h.registers.move hc .toRequestor r' hmemOp'
    refine h.move hc .toRequestor r' ⟨g1, g2, g3, g4, g5⟩
      (fun c' => sent_setStage _ _ (.sent .toRequestor r') c') ?_ (fun _ _ => rfl) ?_ hother rfl rfl
      hkeep fun c' hc' => access_setStage_of_ne _ _ _ hc'
    · have hidle := idle_of_due_eq_zero (L := L.setSnoop c d .idle) (c := c) (by omega)
      exact ⟨hstate', hmemOp', by simp, hmissed, hfound, hself, by simp,
        fun _ => ⟨by simp [Line.finalizeAccess], hidle⟩,
        fun _ d' hd' _ => hothers d' hd' (by rw [hidle d']; simp)⟩
    · intro c' hc'
      simp [Line.finalizeAccess, hc', setSnoop]
  · obtain ⟨g1, g2, g3, g4, g5⟩ := h.registers.move hc .snooping r' hmemOp'
    refine h.move hc .snooping r' ⟨g1, g2, g3, g4, g5⟩
      (fun c' => sent_setStage _ _ (.sent .snooping r') c') ?_ (fun _ _ => rfl) ?_ hother rfl rfl hkeep
      fun c' hc' => access_setStage_of_ne _ _ _ hc'
    · refine ⟨hstate', hmemOp', by simp, hmissed, hfound, hself, fun _ => ⟨hsnoop', ?_⟩, by simp,
        fun _ d' hd' hs' => hothers d' hd' hs'⟩
      have hdue' : (L.setSnoop c d .idle).due c = L.due c - 1 := by omega
      exact (Function.update_self ..).trans (congrArg some hdue'.symm)
    · intro c' hc'
      simp [hc', setSnoop]

lemma Inv.doWriteBack (h : L.Inv) : (L.doWriteBack d).Inv :=
  h.congr ⟨h.registers.memOp, h.registers.waiting, h.registers.holder, h.registers.nodup, h.registers.queued⟩
    rfl rfl rfl rfl rfl rfl h.allocating

lemma Inv.respondBelow (h : L.Inv) (hc : L.sent c = some (.snooping, r)) (hd : L.snoop c d ≠ .idle)
    (hinv : L.snoop c d ≠ .invalidating) (hr : Follows r r')
    (hfound : r'.found = true → r'.state ≠ .INVALID) (hanswered : r'.Answered (L.state d))
    (hmemOp : r.memOp ≠ .MemPush) (hs : L.respondBelow c d r' = .ok L') : L'.Inv := by
  unfold Line.respondBelow at hs
  split_ifs at hs with hdown
  · exact h.doWriteBack.respond hc hd hinv hr hfound hanswered hmemOp hs
  · exact h.respond hc hd hinv hr hfound hanswered hmemOp hs

/-! ## Requests from other caches -/

lemma changeState_eq_ok : L.changeState d st = .ok L' ↔
    (L.state d).mayBecome st = true ∧ L' = L.changeStateTo d st := by
  rw [Line.changeState, bind_eq_ok]
  constructor
  · rintro ⟨_, hmay, hs⟩
    exact ⟨check_test_eq_ok.1 hmay, (Except.ok.inj hs).symm⟩
  · rintro ⟨hmay, rfl⟩
    exact ⟨⟨⟩, check_test_eq_ok.2 hmay, rfl⟩

lemma changeStateTo_of_preInvalidate (hs : L.preInvalidate d = .ok L') :
    ∃ st, L' = L.changeStateTo d st ∧ (st = .TRANS_INV ∨ st = .TRANS_INV_D) := by
  obtain ⟨_, _, hs⟩ := bind_eq_ok.1 hs
  split_ifs at hs
  · exact ⟨_, (changeState_eq_ok.1 hs).2, .inr rfl⟩
  · exact ⟨_, (changeState_eq_ok.1 hs).2, .inl rfl⟩

lemma weakens_of_not_read {s st : MESIState} (h : st.canBeRead = false) : s.Weakens st where
  written hw := absurd (MESIState.canBeRead_of_canBeWritten hw) (by simp [h])
  read hr := absurd hr (by simp [h])

/-- The line is given up, or begins to be. -/
lemma Inv.giveUp (h : L.Inv) (hd : L.sent d = none) (hvalid : L.state d ≠ .INVALID)
    (hst : st = .INVALID ∨ st = .TRANS_INV ∨ st = .TRANS_INV_D)
    (hleaving : st = .INVALID → L.pendInvTable d = none ∧ L.replacing d = none) :
    (L.changeStateTo d st).Inv := by
  have hrest : st.atRest = true := by
    rcases hst with rfl | rfl | rfl <;> rfl
  have hread : st.canBeRead = false := by
    rcases hst with rfl | rfl | rfl <;> rfl
  exact h.changeStateTo hd hrest (weakens_of_not_read hread) hvalid (hst.imp_left hleaving)

/-- An entry of `pendInvTable` comes or goes. -/
lemma Inv.setPendInv (h : L.Inv) {o : Option (Entry n)}
    (ho : ∀ e c, o = some e → e.cb = .ack c → L.snoop c d = .invalidating)
    (hevicting : ∀ e addr, o = some e → e.cb = .allocate addr → e.invalidate = false)
    (hleaving : o ≠ none → (L.state d = .TRANS_INV ∨ L.state d = .TRANS_INV_D) ∧ L.replacing d = none) :
    { L with pendInvTable := Function.update L.pendInvTable d o }.Inv where
  registers := ⟨h.registers.memOp, h.registers.waiting, h.registers.holder, h.registers.nodup,
    h.registers.queued⟩
  onItsWay c location r hr := by
    obtain ⟨h1, hm, h2, h3, h3', h4, h5, h6, h7⟩ := h.onItsWay c location r hr
    exact ⟨h1, hm, h2, h3, h3', h4, h5, h6, h7⟩
  quiet c hc := by
    obtain ⟨h1, h2, h3⟩ := h.quiet c hc
    exact ⟨h1, h2, h3⟩
  alone := h.alone
  invalidating c d' e he hcb := by
    simp only [Function.update_apply] at he
    split_ifs at he with hd
    · exact hd ▸ ho e c he hcb
    · exact h.invalidating c d' e he hcb
  leaving d' hd' := by
    simp only [Function.update_apply] at hd'
    split_ifs at hd' with hd
    · rcases hd' with ho' | hr
      · exact hd ▸ (hleaving ho').1
      · exact h.leaving d' (.inr hr)
    · exact h.leaving d' hd'
  replacing d' hd' := by
    simp only [Function.update_apply]
    split_ifs with hd
    · by_contra ho'
      exact hd' (hd ▸ (hleaving ho').2)
    · exact h.replacing d' hd'
  evicting d' e addr he hcb := by
    simp only [Function.update_apply] at he
    split_ifs at he with hd
    · exact hevicting e addr he hcb
    · exact h.evicting d' e addr he hcb
  allocating := h.allocating

lemma combineResponses_spec (hst : st.canBeRead = true) (hfound : r.found = true → r.state ≠ .INVALID)
    (hs : r.combineResponses d st = .ok r') : Follows r r' ∧ r'.state ≠ .INVALID := by
  have hvalid : ¬(st = .INVALID ∨ st.isLocked = true) := by
    rintro (rfl | hl)
    · cases hst
    · exact absurd (MESIState.isLocked_iff.1 hl).2 (by simp [hst])
  unfold SMPMemRequest.combineResponses at hs
  rw [if_neg hvalid, check_bind_eq_ok] at hs
  obtain ⟨-, hs⟩ := hs
  split_ifs at hs with hshared hf hex
  · cases hs
    exact ⟨.refl r, hfound hf⟩
  · cases hs
    exact ⟨⟨rfl, rfl, fun hi => absurd (hshared ▸ hi) (by simp)⟩, by simp [hshared]⟩
  · cases hs
    exact ⟨⟨rfl, rfl, fun hi => absurd (hex ▸ hi) (by simp)⟩, by simp [hex]⟩
  · obtain ⟨hmod, hs⟩ := check_bind_eq_ok.1 hs
    cases hs
    exact ⟨⟨rfl, rfl, fun hi => absurd (hmod ▸ hi) (by simp)⟩, by simp [hmod]⟩

/-- A cache is asked for a line that it does not have. -/
lemma answered_of_not_stable (hst : st.isStable = false) : r.Answered st := by
  rw [MESIState.isStable_eq] at hst
  exact ⟨Bool.eq_false_iff.2 fun hw => absurd (MESIState.canBeRead_of_canBeWritten hw) (by simp [hst]),
    fun hr => absurd hr (by simp [hst])⟩

lemma ne_invalid {st : MESIState} (h : st.canBeRead = true) : st ≠ .INVALID := by
  rintro rfl
  cases h

lemma ne_leaving {st : MESIState} (h : st.canBeRead = true) : st ≠ .TRANS_INV ∧ st ≠ .TRANS_INV_D := by
  constructor <;> rintro rfl <;> cases h

lemma Inv.readMissHandler (h : L.Inv) (hc : L.sent c = some (.snooping, r)) (hd : L.snoop c d = .received)
    (hmemOp : r.memOp = .MemRead) (hs : L.readMissHandler c d r = .ok L') : L'.Inv := by
  have hne : d ≠ c := by
    rintro rfl
    rw [(h.onItsWay d _ r hc).self] at hd
    cases hd
  have hquiet := h.registers.sent_eq_none hc hne
  have hfound := (h.onItsWay c _ r hc).found
  unfold Line.readMissHandler at hs
  split_ifs at hs with hstable
  · obtain ⟨r', hr', hs⟩ := bind_eq_ok.1 hs
    obtain ⟨L₁, hL₁, hs⟩ := bind_eq_ok.1 hs
    obtain ⟨-, rfl⟩ := changeState_eq_ok.1 hL₁
    rw [MESIState.isStable_eq] at hstable
    obtain ⟨hfollows, hvalid⟩ := combineResponses_spec hstable hfound hr'
    have hweak : (L.state d).Weakens .SHARED := ⟨fun hw => absurd hw (by decide), fun _ => hstable⟩
    have hL₁ : (L.changeStateTo d .SHARED).Inv := h.changeStateTo hquiet rfl hweak (ne_invalid hstable)
      (.inl (h.not_leaving (ne_leaving hstable)))
    refine hL₁.respondBelow hc (by simp [hd]) (by simp [hd]) hfollows (fun _ => hvalid) ?_ (by simp [hmemOp]) hs
    rw [state_changeStateTo, if_pos rfl]
    exact ⟨rfl, fun _ => ⟨hfollows.memOp.trans hmemOp, hvalid⟩⟩
  · exact h.respondBelow hc (by simp [hd]) (by simp [hd]) (.refl r) hfound
      (answered_of_not_stable (Bool.eq_false_iff.2 hstable)) (by simp [hmemOp]) hs

/-- The callback of an invalidation is scheduled. -/
lemma Inv.schedule (h : L.Inv) {cb : Callback n} (hcb : ∀ c, cb = .ack c → L.snoop c d = .invalidating)
    (hnone : L.pendInvTable d = none) (hleaving : ∀ addr, cb = .allocate addr →
      L.state d = .TRANS_INV ∨ L.state d = .TRANS_INV_D) : (L.schedule d cb).Inv := by
  rcases cb with c | addr
  · have hinv := hcb c rfl
    have hdue : (L.setSnoop c d .acking).due c = L.due c := due_setSnoop (by simp [hinv]) (by simp)
    rcases hc : L.sent c with _ | ⟨location, r⟩
    · rw [(h.quiet c hc).idle d] at hinv
      cases hinv
    obtain ⟨h1, hm, h2, h3, h3', h4, h5, h6, h7⟩ := h.onItsWay c _ r hc
    refine h.move hc location r ⟨h.registers.memOp, h.registers.waiting, h.registers.holder,
      h.registers.nodup, h.registers.queued⟩ ?_ ?_ (fun _ _ => rfl) (fun _ _ => rfl) ?_ rfl
      rfl ?_ fun _ _ => rfl
    · intro c'
      split_ifs with hc'
      · rw [hc', ← hc]
        rfl
      · rfl
    · have hne : d ≠ c := by
        rintro rfl
        rw [h4] at hinv
        cases hinv
      refine ⟨h1, hm, h2, h3, h3', ?_, fun hloc => ⟨(h5 hloc).1, ?_⟩, fun hloc => ?_, fun hloc d' hd' hs => ?_⟩
      · exact (snoop_setSnoop ..).trans (by simp [hne.symm, h4])
      · exact (h5 hloc).2.trans (congrArg some hdue.symm)
      · rw [(h6 hloc).2 d] at hinv
        cases hinv
      · refine h7 hloc d' hd' fun hr => hs ?_
        refine (snoop_setSnoop ..).trans ?_
        rw [if_neg, hr]
        rintro ⟨-, rfl⟩
        rw [hr] at hinv
        cases hinv
    · intro c' hc'
      funext d'
      exact (snoop_setSnoop ..).trans (by simp [hc'])
    · intro c' d' e he hcb'
      refine (snoop_setSnoop ..).trans ?_
      rw [if_neg]
      · exact h.invalidating c' d' e he hcb'
      · rintro ⟨-, rfl⟩
        exact absurd (hnone.symm.trans he) (by simp)
  · refine ⟨⟨h.registers.memOp, h.registers.waiting, h.registers.holder, h.registers.nodup,
      h.registers.queued⟩, fun c location r hr => ?_, fun c hc => ?_, h.alone, h.invalidating, ?_, ?_,
      h.evicting, h.allocating⟩
    · obtain ⟨h1, hm, h2, h3, h3', h4, h5, h6, h7⟩ := h.onItsWay c location r hr
      exact ⟨h1, hm, h2, h3, h3', h4, h5, h6, h7⟩
    · obtain ⟨h1, h2, h3⟩ := h.quiet c hc
      exact ⟨h1, h2, h3⟩
    · intro d' hd'
      by_cases hdd : d' = d
      · rw [hdd]
        exact hleaving addr rfl
      · simp only [Line.schedule, Function.update_of_ne hdd] at hd'
        exact h.leaving d' hd'
    · intro d' hd'
      by_cases hdd : d' = d
      · rw [hdd]
        exact hnone
      · simp only [Line.schedule, Function.update_of_ne hdd] at hd'
        exact h.replacing d' hd'

lemma invalidate_eq_ok (hs : L.invalidate d = .ok L') : L' = L.changeStateTo d .INVALID := by
  obtain ⟨_, _, hs⟩ := bind_eq_ok.1 hs
  exact (Except.ok.inj hs).symm

lemma Inv.writeBackDirty (h : L.Inv) : (L.writeBackDirty d).Inv := by
  unfold Line.writeBackDirty
  split_ifs
  · exact h.doWriteBack
  · exact h

@[simp] lemma sent_writeBackDirty : (L.writeBackDirty d).sent = L.sent := by
  unfold Line.writeBackDirty
  split_ifs <;> rfl

@[simp] lemma state_writeBackDirty : (L.writeBackDirty d).state = L.state := by
  unfold Line.writeBackDirty
  split_ifs <;> rfl

@[simp] lemma pendInvTable_writeBackDirty : (L.writeBackDirty d).pendInvTable = L.pendInvTable := by
  unfold Line.writeBackDirty
  split_ifs <;> rfl

@[simp] lemma replacing_writeBackDirty : (L.writeBackDirty d).replacing = L.replacing := by
  unfold Line.writeBackDirty
  split_ifs <;> rfl

lemma Inv.realInvalidate (h : L.Inv) (hd : L.sent d = none) (hp : L.pendInvTable d = none)
    (hr : L.replacing d = none) {writeBack : Bool} (hs : L.realInvalidate d writeBack = .ok L') :
    L'.Inv := by
  unfold Line.realInvalidate at hs
  split_ifs at hs with hvalid hwb
  · rw [invalidate_eq_ok hs]
    exact h.writeBackDirty.giveUp (by simpa using hd) (by simpa using MESIState.isValid_iff.1 hvalid)
      (.inl rfl) fun _ => by simp [hp, hr]
  · rw [invalidate_eq_ok hs]
    exact h.giveUp hd (MESIState.isValid_iff.1 hvalid) (.inl rfl) fun _ => ⟨hp, hr⟩
  · cases hs
    exact h

lemma realInvalidate_frame {writeBack : Bool} (hs : L.realInvalidate d writeBack = .ok L') :
    L'.snoop = L.snoop ∧ L'.pendInvTable = L.pendInvTable := by
  unfold Line.realInvalidate at hs
  split_ifs at hs with hvalid hwb
  · rw [invalidate_eq_ok hs]
    unfold Line.writeBackDirty
    split_ifs <;> exact ⟨rfl, rfl⟩
  · rw [invalidate_eq_ok hs]
    exact ⟨rfl, rfl⟩
  · cases hs
    exact ⟨rfl, rfl⟩

lemma Inv.doInvalidate (h : L.Inv) (hs : L.doInvalidate d = .ok L') : L'.Inv := by
  unfold Line.doInvalidate at hs
  rcases he : L.pendInvTable d with _ | e <;> rw [he] at hs
  · cases hs
  have hstate := h.leaving d (.inl (by simp [he]))
  have hreplacing : L.replacing d = none := by
    by_contra hr
    exact absurd (he.symm.trans (h.replacing d hr)) (by simp)
  have hsent := h.sent_of_leaving hstate
  dsimp only at hs
  split_ifs at hs with hlast
  · obtain ⟨L₁, hL₁, hs⟩ := bind_eq_ok.1 hs
    cases hs
    have h₀ := h.setPendInv (d := d) (o := none) (by simp) (by simp) (by simp)
    have hcb : ∀ c, e.cb = .ack c → L.snoop c d = .invalidating := fun c => h.invalidating c d e he
    unfold Line.invalidateFor at hL₁
    split_ifs at hL₁ with hinvalidate
    · obtain ⟨hsnoop, hpend⟩ := realInvalidate_frame hL₁
      refine (h₀.realInvalidate hsent (by simp) hreplacing hL₁).schedule ?_ (by simp [hpend]) ?_
      · rw [hsnoop]
        exact hcb
      · intro addr hcb'
        exact absurd (h.evicting d e addr he hcb') (by simp [hinvalidate])
    · cases hL₁
      exact h₀.schedule hcb (by simp) fun _ _ => hstate
  · cases hs
    refine h.setPendInv (fun e' c he' hcb => ?_) (fun e' addr he' hcb => ?_) fun _ => ⟨hstate, hreplacing⟩
    · cases he'
      exact h.invalidating c d e he hcb
    · cases he'
      exact h.evicting d e addr he hcb

/-- The line begins to be invalidated. -/
lemma Inv.preInvalidate (h : L.Inv) (hd : L.sent d = none) (hstable : (L.state d).canBeRead = true)
    {e : Entry n} (he : ∀ c, e.cb = .ack c → L.snoop c d = .invalidating)
    (hevicting : ∀ addr, e.cb = .allocate addr → e.invalidate = false)
    (hs : { L with pendInvTable := Function.update L.pendInvTable d (some e) }.preInvalidate d = .ok L') :
    L'.Inv := by
  obtain ⟨st, rfl, hst⟩ := changeStateTo_of_preInvalidate hs
  have hst' : st ≠ .INVALID := by
    rintro rfl
    simp at hst
  have h₀ := h.giveUp hd (ne_invalid hstable) (.inr hst) fun hi => absurd hi hst'
  refine h₀.setPendInv (fun e' c he' hcb => he c (Option.some.inj he' ▸ hcb))
    (fun e' addr he' hcb => Option.some.inj he' ▸ hevicting addr (Option.some.inj he' ▸ hcb)) fun _ => ?_
  exact ⟨by simpa using hst, (h.not_leaving (ne_leaving hstable)).2⟩

/-- The cache `d` begins to give the line up for the request of the cache `c`. -/
lemma Inv.yields (h : L.Inv) (hc : L.sent c = some (.snooping, r)) (hd : L.snoop c d = .received)
    (hr : Follows r r') (hfound : r'.found = true → r'.state ≠ .INVALID) (hmemOp : r.memOp ≠ .MemPush)
    (hst : (L.state d).canBeRead = false) :
    ((L.setStage c r'.memOp (.sent .snooping r')).setSnoop c d .invalidating).Inv := by
  obtain ⟨h1, hm, h2, h3, h3', h4, h5, h6, h7⟩ := h.onItsWay c _ r hc
  obtain ⟨hsnoop, hpend⟩ := h5 rfl
  have hne : d ≠ c := by
    rintro rfl
    rw [h4] at hd
    cases hd
  have hdue : (L.setSnoop c d .invalidating).due c = L.due c := due_setSnoop (by simp [hd]) (by simp)
  obtain ⟨g1, g2, g3, g4, g5⟩ := h.registers.move hc .snooping r' (hr.memOp ▸ hmemOp)
  refine h.move hc .snooping r' ⟨g1, g2, g3, g4, g5⟩ (fun c' => sent_setStage _ _ (.sent .snooping r') c') ?_
    (fun _ _ => rfl) (fun _ _ => rfl) ?_ rfl rfl ?_ fun c' hc' => access_setStage_of_ne _ _ _ hc'
  · refine ⟨h1.trans hr.transient.symm, hr.memOp ▸ hmemOp, by simp, ?_, hfound, ?_, fun _ => ⟨hr.needSnoop.trans hsnoop, ?_⟩,
      by simp, fun _ d' hd' hs' => ?_⟩
    · intro hn
      exact absurd (hr.needSnoop.symm.trans hn) (by simp [hsnoop])
    · exact (snoop_setSnoop ..).trans (by simp [hne.symm, h4])
    · exact hpend.trans (congrArg some hdue.symm)
    · by_cases hdd : d' = d
      · rw [hdd]
        exact answered_of_not_stable (MESIState.isStable_eq.trans hst)
      · refine hr.answered (h7 (by simp) d' hd' fun hr' => hs' ?_)
        exact (snoop_setSnoop ..).trans (by simp [hdd, hr'])
  · intro c' hc'
    funext d'
    exact (snoop_setSnoop ..).trans (by simp [hc'])
  · intro c' d' e he hcb
    refine (snoop_setSnoop ..).trans ?_
    split_ifs
    · rfl
    · exact h.invalidating c' d' e he hcb

lemma Inv.writeMissHandler (h : L.Inv) (hc : L.sent c = some (.snooping, r)) (hd : L.snoop c d = .received)
    (hmemOp : r.memOp ≠ .MemPush) {upperCaches : ℕ}
    (hs : L.writeMissHandler c d upperCaches r = .ok L') : L'.Inv := by
  obtain ⟨h1, hm, h2, h3, h3', h4, h5, h6, h7⟩ := h.onItsWay c _ r hc
  have hne : d ≠ c := by
    rintro rfl
    rw [h4] at hd
    cases hd
  have hquiet := h.registers.sent_eq_none hc hne
  unfold Line.writeMissHandler at hs
  split_ifs at hs with hstable
  · obtain ⟨r', hr', hs⟩ := bind_eq_ok.1 hs
    rw [MESIState.isStable_eq] at hstable
    obtain ⟨hfollows, hvalid⟩ := combineResponses_spec hstable h3' hr'
    obtain ⟨_, -, hs⟩ := bind_eq_ok.1 hs
    obtain ⟨-, hs⟩ := check_bind_eq_ok.1 hs
    obtain ⟨L₁, hL₁, hs⟩ := bind_eq_ok.1 hs
    obtain ⟨st, rfl, hst⟩ := changeStateTo_of_preInvalidate hL₁
    -- the state changes first, so that nobody reads the line any more when the answer is under way
    have hread : st.canBeRead = false := by
      rcases hst with rfl | rfl <;> rfl
    have h₀ := h.giveUp hquiet (ne_invalid hstable) (.inr hst) fun hi => by simp [hi] at hst
    have h₂ := (h₀.yields hc hd hfollows (fun _ => hvalid) hmemOp (by simp [hread])).setPendInv (d := d)
      (o := some ⟨upperCaches, true, false, .ack c⟩) ?_ ?_ fun _ => ⟨by simpa using hst, ?_⟩
    · split_ifs at hs
      · exact Inv.doInvalidate h₂ hs
      · cases hs
        exact h₂
    · intro e c' he hcb
      cases he
      cases hcb
      simp
    · intro e addr he hcb
      cases he
      cases hcb
    · exact (h.not_leaving (ne_leaving hstable)).2
  · exact h.respondBelow hc (by simp [hd]) (by simp [hd]) (.refl r) h3'
      (answered_of_not_stable (Bool.eq_false_iff.2 hstable)) hmemOp hs

/-! ## Accesses -/

/-- An access that `outsReq` grants at once. -/
lemma Inv.start (h : L.Inv) (hc : L.access c = none) (hmemOp : memOp ≠ .MemPush) :
    (L.setStage c memOp .scheduled).Inv := by
  refine h.congr ⟨?_, h.registers.waiting, ?_, h.registers.nodup, ?_⟩ ?_ rfl rfl rfl rfl rfl ?_
  · intro c' a ha
    simp only [Line.setStage, Function.update_apply] at ha
    split_ifs at ha
    · cases ha
      exact hmemOp
    · exact h.registers.memOp c' a ha
  · intro c' a ha hholds
    simp only [Line.setStage, Function.update_apply] at ha
    split_ifs at ha
    · cases ha
      cases hholds
    · exact h.registers.holder c' a ha hholds
  · intro c' hc'
    obtain ⟨memOp', ha⟩ := h.registers.queued c' hc'
    have hne : c' ≠ c := by
      rintro rfl
      exact absurd (hc.symm.trans ha) (by simp)
    exact ⟨memOp', (access_setStage_of_ne _ _ _ hne).trans ha⟩
  · funext c'
    rw [sent_setStage]
    split_ifs with hc'
    · simp [hc', sent, hc, Stage.request]
    · rfl
  · intro c' memOp' rpl hstage
    simp only [Line.setStage, Function.update_apply] at hstage
    split_ifs at hstage
    · cases hstage
    · exact h.allocating c' memOp' rpl hstage

/-- An access that waits in `outsReq`. -/
lemma Inv.wait (h : L.Inv) (hmemOp : memOp ≠ .MemPush) :
    { L with waiting := Function.update L.waiting c (L.waiting c ++ [memOp]) }.Inv := by
  refine h.congr ⟨h.registers.memOp, ?_, h.registers.holder, h.registers.nodup, h.registers.queued⟩
    rfl rfl rfl rfl rfl rfl h.allocating
  intro c' memOp' hmem
  simp only [Function.update_apply] at hmem
  split_ifs at hmem with hc'
  · rcases List.mem_append.1 hmem with hmem | hmem
    · exact h.registers.waiting c memOp' hmem
    · rw [List.mem_singleton.1 hmem]
      exact hmemOp
  · exact h.registers.waiting c' memOp' hmem

lemma Inv.accessCache (h : L.Inv) (hs : L.accessCache c memOp = .ok L') : L'.Inv := by
  cases hc : L.access c with
  | none =>
    cases memOp with
    | MemPush => cases hs
    | MemSpecialOp =>
      cases hs
      exact h
    | _ =>
      simp only [Line.accessCache, hc] at hs
      cases hs
      exact h.start hc (by simp)
  | some a =>
    cases memOp with
    | MemPush => cases hs
    | MemSpecialOp =>
      cases hs
      exact h
    | _ =>
      simp only [Line.accessCache, hc] at hs
      cases hs
      exact h.wait (by simp)

lemma Inv.doRead (h : L.Inv) (hc : L.access c = some ⟨memOp, .scheduled⟩)
    (hs : L.doRead c memOp = .ok L') : L'.Inv := by
  unfold Line.doRead at hs
  split_ifs at hs
  · cases hs
    exact h.retireOutsReq hc (by simp) rfl
  · cases hs
    exact h
  · cases hs
    exact h.issueMutExcl hc rfl (h.registers.memOp c _ hc)

lemma mutateWriteToRead_ne (h : memOp ≠ .MemPush) : mutateWriteToRead memOp ≠ .MemPush := by
  unfold mutateWriteToRead
  split_ifs
  · simp
  · exact h

lemma makeDirty_eq_ok (hs : L.makeDirty c = .ok L') :
    (L.state c).mayBecome .MODIFIED = true ∧ L' = L.changeStateTo c .MODIFIED := by
  obtain ⟨_, _, hs⟩ := bind_eq_ok.1 hs
  exact changeState_eq_ok.1 hs

lemma Inv.doWrite (h : L.Inv) (hc : L.access c = some ⟨memOp, .scheduled⟩)
    (hs : L.doWrite c memOp = .ok L') : L'.Inv := by
  have hmemOp := h.registers.memOp c _ hc
  have hsent : L.sent c = none := sent_of_access hc
  unfold Line.doWrite at hs
  split_ifs at hs with hwrite hlocked hvalid
  · obtain ⟨L₁, hL₁, hs⟩ := bind_eq_ok.1 hs
    obtain ⟨-, rfl⟩ := makeDirty_eq_ok hL₁
    cases hs
    have hread := MESIState.canBeRead_of_canBeWritten hwrite
    have h₁ : (L.changeStateTo c .MODIFIED).Inv := h.changeStateTo hsent rfl ⟨fun _ => hwrite, fun _ => hread⟩
      (ne_invalid hread) (.inl (h.not_leaving (ne_leaving hread)))
    exact h₁.retireOutsReq hc (by simp) rfl
  · cases hs
    exact h.setStage _ _ hc (by simp) rfl rfl (mutateWriteToRead_ne hmemOp) (by simp [Stage.holds]) (by simp)
  · cases hs
    exact h.issueMutExcl hc rfl hmemOp
  · cases hs
    exact h.issueMutExcl hc rfl (mutateWriteToRead_ne hmemOp)

/-! ## Misses -/

/-- Two changes to clean states are one. -/
lemma changeStateTo_changeStateTo {s₁ s₂ : MESIState} (h₁ : s₁.isDirty = false) (h₂ : s₂.isDirty = false) :
    (L.changeStateTo c s₁).changeStateTo c s₂ = L.changeStateTo c s₂ := by
  simp [Line.changeStateTo, h₁, h₂]

/-- A line that has been reserved is asked for. -/
lemma Inv.callMiss (h : L.Inv) {a : Access n} (hc : L.access c = some a) (hholds : a.stage.holds = true)
    (hearly : a.stage.request = none) (hmemOp : memOp ≠ .MemPush)
    (hleaving : L.state c ≠ .TRANS_INV ∧ L.state c ≠ .TRANS_INV_D)
    (hs : (L.changeStateTo c .TRANS_RSV).callMiss c memOp = .ok L') : L'.Inv := by
  unfold Line.callMiss Line.sendMiss at hs
  split_ifs at hs with hread
  · obtain ⟨_, -, hs⟩ := bind_eq_ok.1 hs
    obtain ⟨-, hs⟩ := check_bind_eq_ok.1 hs
    obtain ⟨L₁, hL₁, hs⟩ := bind_eq_ok.1 hs
    obtain ⟨-, rfl⟩ := changeState_eq_ok.1 hL₁
    cases hs
    rw [changeStateTo_changeStateTo rfl rfl]
    exact h.sendRequest hc hholds hearly hmemOp true (by rw [if_pos hread]) hleaving
  · obtain ⟨_, -, hs⟩ := bind_eq_ok.1 hs
    obtain ⟨-, hs⟩ := check_bind_eq_ok.1 hs
    obtain ⟨L₁, hL₁, hs⟩ := bind_eq_ok.1 hs
    obtain ⟨-, rfl⟩ := changeState_eq_ok.1 hL₁
    cases hs
    rw [changeStateTo_changeStateTo rfl rfl]
    exact h.sendRequest hc hholds hearly hmemOp true (by rw [if_neg hread]) hleaving

section

variable {a : Access n} (hc : L.access c = some a) (hholds : a.stage.holds = true)
  (hearly : a.stage.request = none) (hmemOp : memOp ≠ .MemPush)

include hc hholds hearly hmemOp

lemma Inv.setAllocating (h : L.Inv) (hstate : L.state c = .INVALID) (rpl : Option Addr) :
    (L.setStage c memOp (.allocating rpl)).Inv := by
  refine h.setStage _ _ hc ?_ hearly rfl hmemOp (fun _ => h.registers.holder c a hc hholds) fun _ _ => hstate
  intro hq
  rw [hq] at hholds
  cases hholds

lemma Inv.afterAllocate (h : L.Inv) {allocated : Allocated}
    (hs : L.afterAllocate c memOp allocated = .ok L') : L'.Inv := by
  obtain ⟨_, hinvalid, hs⟩ := bind_eq_ok.1 hs
  have hstate : L.state c = .INVALID := by
    by_contra hne
    have := check_test_eq_ok.1 hinvalid
    rw [MESIState.isValid_iff.2 hne] at this
    cases this
  cases allocated with
  | line =>
    obtain ⟨L₁, hL₁, hs⟩ := bind_eq_ok.1 hs
    obtain ⟨-, rfl⟩ := changeState_eq_ok.1 hL₁
    exact h.callMiss hc hholds hearly hmemOp (by simp [hstate]) hs
  | retry =>
    cases hs
    exact h.setAllocating hc hholds hearly hmemOp hstate none
  | waiting rpl =>
    cases hs
    exact h.setAllocating hc hholds hearly hmemOp hstate (some rpl)

lemma Inv.sendRead (h : L.Inv) {allocated : Allocated} (hs : L.sendRead c memOp allocated = .ok L') :
    L'.Inv := by
  obtain ⟨hlocked, hs⟩ := check_bind_eq_ok.1 hs
  split_ifs at hs with hvalid
  · obtain ⟨L₁, hL₁, hs⟩ := bind_eq_ok.1 hs
    obtain ⟨-, rfl⟩ := changeState_eq_ok.1 hL₁
    have hread : (L.state c).canBeRead = true := by
      rw [← MESIState.isStable_eq, MESIState.isStable, hvalid, hlocked hvalid]
      rfl
    exact h.callMiss hc hholds hearly hmemOp (ne_leaving hread) hs
  · exact h.afterAllocate hc hholds hearly hmemOp hs

lemma Inv.sendWrite (h : L.Inv) {allocated : Allocated} (hread : memOp ≠ .MemRead)
    (hs : L.sendWrite c memOp allocated = .ok L') : L'.Inv := by
  obtain ⟨hshared, hs⟩ := check_bind_eq_ok.1 hs
  by_cases hvalid : (L.state c).isValid ∧ (L.state c).canBeWritten = false
  · rw [if_pos hvalid] at hs
    obtain ⟨L₁, hL₁, hs⟩ := bind_eq_ok.1 hs
    obtain ⟨-, rfl⟩ := changeState_eq_ok.1 hL₁
    cases hs
    exact h.sendRequest hc hholds hearly hmemOp false (by rw [if_neg hread])
      (by simp [(hshared hvalid.1).2])
  · rw [if_neg hvalid] at hs
    obtain ⟨_, -, hs⟩ := bind_eq_ok.1 hs
    refine h.afterAllocate hc hholds hearly ?_ hs
    split_ifs
    · exact mutateWriteToRead_ne hmemOp
    · exact hmemOp

lemma Inv.reserve (h : L.Inv) (hstate : L.state c = .INVALID) (hs : L.reserve c memOp = .ok L') : L'.Inv :=
  h.callMiss hc hholds hearly hmemOp (by simp [hstate]) hs

lemma Inv.retryAllocate (h : L.Inv) (hstate : L.state c = .INVALID) {allocated : Allocated}
    (hs : L.retryAllocate c memOp allocated = .ok L') : L'.Inv := by
  obtain ⟨_, _, hs⟩ := bind_eq_ok.1 hs
  cases allocated with
  | line => exact h.reserve hc hholds hearly hmemOp hstate hs
  | retry =>
    cases hs
    exact h.setAllocating hc hholds hearly hmemOp hstate none
  | waiting rpl =>
    cases hs
    exact h.setAllocating hc hholds hearly hmemOp hstate (some rpl)

end

/-! ## Giving way -/

lemma Inv.sent_of_read (h : L.Inv) (hd : (L.state d).canBeRead = true) : L.sent d = none := by
  rcases hs : L.sent d with _ | ⟨location, r⟩
  · rfl
  rw [(h.onItsWay d location r hs).state, SMPMemRequest.canBeRead_transient] at hd
  cases hd

lemma Inv.evict (h : L.Inv) (hs : L.evict d = .ok L') : L'.Inv := by
  obtain ⟨_, hstable, hs⟩ := bind_eq_ok.1 hs
  have hread := MESIState.isStable_eq.symm.trans (check_test_eq_ok.1 hstable)
  rw [invalidate_eq_ok hs]
  exact h.writeBackDirty.giveUp (by simpa using h.sent_of_read hread) (by simpa using ne_invalid hread)
    (.inl rfl) fun _ => by simpa using h.not_leaving (ne_leaving hread)

lemma Inv.startEviction (h : L.Inv) {upperCaches : ℕ} {addr : Addr}
    (hs : L.startEviction d upperCaches addr = .ok L') : L'.Inv := by
  obtain ⟨_, hstable, hs⟩ := bind_eq_ok.1 hs
  have hread := MESIState.isStable_eq.symm.trans (check_test_eq_ok.1 hstable)
  obtain ⟨-, hs⟩ := check_bind_eq_ok.1 hs
  exact h.preInvalidate (h.sent_of_read hread) hread (by simp) (by simp) hs

/-- `doAllocateLine` is no more to be called for the line. -/
lemma Inv.eraseReplacing (h : L.Inv) :
    { L with replacing := Function.update L.replacing d none }.Inv where
  registers := ⟨h.registers.memOp, h.registers.waiting, h.registers.holder, h.registers.nodup,
    h.registers.queued⟩
  onItsWay c location r hr := by
    obtain ⟨h1, hm, h2, h3, h3', h4, h5, h6, h7⟩ := h.onItsWay c location r hr
    exact ⟨h1, hm, h2, h3, h3', h4, h5, h6, h7⟩
  quiet c hc := by
    obtain ⟨h1, h2, h3⟩ := h.quiet c hc
    exact ⟨h1, h2, h3⟩
  alone := h.alone
  invalidating := h.invalidating
  leaving d' hd' := by
    refine h.leaving d' (hd'.imp_right fun hr => ?_)
    simp only [Function.update_apply] at hr
    split_ifs at hr
    · exact absurd rfl hr
    · exact hr
  replacing d' hd' := by
    simp only [Function.update_apply] at hd'
    split_ifs at hd'
    · exact absurd rfl hd'
    · exact h.replacing d' hd'
  evicting := h.evicting
  allocating := h.allocating

lemma Inv.finishEviction (h : L.Inv) (hd : L.replacing d ≠ none) (hs : L.finishEviction d = .ok L') :
    L'.Inv := by
  obtain ⟨-, hs⟩ := check_bind_eq_ok.1 hs
  cases hs
  have hstate := h.leaving d (.inr hd)
  have hvalid : L.state d ≠ .INVALID := by
    rcases hstate with hstate | hstate <;> simp [hstate]
  have h₁ := (h.writeBackDirty (d := d)).eraseReplacing (d := d)
  have hsent : (L.writeBackDirty d).sent d = none := by simpa using h.sent_of_leaving hstate
  exact h₁.giveUp hsent (by simpa using hvalid) (.inl rfl)
    fun _ => ⟨by simpa using h.replacing d hd, by simp⟩

/-! ## Answers -/

lemma access_concludeAccess {c' : Fin n} {a : Access n} (ha : (L.concludeAccess c).access c' = some a) :
    (c' ≠ c ∧ L.access c' = some a) ∨ a.stage = .scheduled ∨ a.stage = .granted := by
  have hretire : ∀ {a}, (L.retireOutsReq c).access c' = some a →
      (c' ≠ c ∧ L.access c' = some a) ∨ a.stage = .scheduled ∨ a.stage = .granted := by
    intro a ha
    unfold Line.retireOutsReq at ha
    split at ha <;> simp only [Function.update_apply] at ha <;> split_ifs at ha with hc'
    · exact .inl ⟨hc', ha⟩
    · cases ha
      exact .inr (.inl rfl)
    · exact .inl ⟨hc', ha⟩
  unfold Line.concludeAccess Line.retireMutExcl at ha
  split at ha
  · exact hretire ha
  · simp only [Function.update_apply] at ha
    split_ifs at ha with hd
    · obtain ⟨b, -, rfl⟩ := Option.map_eq_some_iff.1 ha
      exact .inr (.inr rfl)
    · exact hretire ha

lemma concludeAccess_frame : (L.concludeAccess c).state = L.state ∧ (L.concludeAccess c).snoop = L.snoop ∧
    (L.concludeAccess c).pendReqsTable = L.pendReqsTable ∧
    (L.concludeAccess c).pendInvTable = L.pendInvTable ∧ (L.concludeAccess c).replacing = L.replacing := by
  unfold Line.concludeAccess Line.retireMutExcl Line.retireOutsReq
  split <;> split <;> exact ⟨rfl, rfl, rfl, rfl, rfl⟩

/-- The access of the holder is over, and the holder may use the line. -/
lemma Inv.conclude (h : L.Inv) (hc : L.sent c = some (.toRequestor, r)) (hrest : st.atRest = true)
    (hread : ∀ d, d ≠ c → (L.state d).canBeWritten = false)
    (hwrite : st.canBeWritten = true → ∀ d, d ≠ c → (L.state d).canBeRead = false) :
    ((L.changeStateTo c st).concludeAccess c).Inv := by
  obtain ⟨memOp, ha⟩ := sent_eq_some.1 hc
  obtain ⟨h1, hm, h2, h3, h3', h4, h5, h6, h7⟩ := h.onItsWay c _ r hc
  obtain ⟨hpend, hidle⟩ := h6 (by simp)
  have hfree : ∀ c' a, L.access c' = some a → a.stage.holds = true → c' = c :=
    fun c' a ha' hholds => h.registers.unique ha' ha hholds rfl
  have haccess : ∀ c' a, ((L.changeStateTo c st).concludeAccess c).access c' = some a →
      a.stage.holds = true → a.stage = .granted := by
    intro c' a ha' hholds
    rcases access_concludeAccess ha' with ⟨hne, ha'⟩ | hstage | hstage
    · exact absurd (hfree c' a ha' hholds) hne
    · rw [hstage] at hholds
      cases hholds
    · exact hstage
  have hsent : ∀ c', ((L.changeStateTo c st).concludeAccess c).sent c' = none := by
    intro c'
    rcases hs : ((L.changeStateTo c st).concludeAccess c).sent c' with _ | ⟨location, r'⟩
    · rfl
    obtain ⟨memOp', hb⟩ := sent_eq_some.1 hs
    cases haccess c' _ hb rfl
  obtain ⟨hstate', hsnoop', hpend', hinv', hreplacing'⟩ := (L.changeStateTo c st).concludeAccess_frame (c := c)
  refine ⟨?_, fun c' location r' hr' => ?_, fun c' _ => ?_, fun c' d hne hw => ?_, ?_, fun d hd => ?_, ?_, ?_,
    fun c' memOp' rpl hb => ?_⟩
  · refine (h.registers.changeStateTo.retireOutsReq ha (by simp)).retireMutExcl fun d b hb => ?_
    rcases hholds : b.stage.holds
    · rfl
    unfold Line.retireOutsReq at hb
    split at hb <;> simp only [Function.update_apply] at hb <;> split_ifs at hb with hd
    · exact absurd (hfree d b hb hholds) hd
    · cases hb
      cases hholds
    · exact absurd (hfree d b hb hholds) hd
  · rw [hsent c'] at hr'
    cases hr'
  · refine ⟨?_, ?_, ?_⟩
    · rw [hstate', state_changeStateTo]
      split_ifs with hcc
      · exact hrest
      · exact (h.quiet c' (h.registers.sent_eq_none hc hcc)).atRest
    · rw [hpend']
      by_cases hcc : c' = c
      · rw [hcc]
        exact hpend
      · exact (h.quiet c' (h.registers.sent_eq_none hc hcc)).notPending
    · rw [hsnoop']
      by_cases hcc : c' = c
      · rw [hcc]
        exact hidle
      · exact (h.quiet c' (h.registers.sent_eq_none hc hcc)).idle
  · rw [hstate', state_changeStateTo] at hw ⊢
    by_cases hcc : c' = c
    · rw [if_pos hcc] at hw
      have hd : d ≠ c := fun e => hne (hcc.trans e.symm)
      rw [if_neg hd]
      exact hwrite hw d hd
    · rw [if_neg hcc, hread c' hcc] at hw
      cases hw
  · rw [hsnoop', hinv']
    exact h.invalidating
  · rw [hinv', hreplacing'] at hd
    have hleaving := h.leaving d hd
    rw [hstate', state_changeStateTo, if_neg]
    · exact hleaving
    · rintro rfl
      rw [h.sent_of_leaving hleaving] at hc
      cases hc
  · rw [hinv', hreplacing']
    exact h.replacing
  · rw [hinv']
    exact h.evicting
  · cases haccess c' _ hb rfl

/-- No cache has the line. -/
lemma Inv.goToMemory (h : L.Inv) (hc : L.sent c = some (.toRequestor, r)) (hmemOp : r.memOp ≠ .MemPush)
    (hmiss : r.state = .INVALID)
    (hst : st = if r.memOp = .MemRead then .TRANS_RD_MEM else .TRANS_WR_MEM)
    (hs : L.goToMemory c r st = .ok L') : L'.Inv := by
  obtain ⟨_, -, hs⟩ := bind_eq_ok.1 hs
  obtain ⟨L₁, hL₁, hs⟩ := bind_eq_ok.1 hs
  obtain ⟨-, rfl⟩ := changeState_eq_ok.1 hL₁
  cases hs
  obtain ⟨h1, hm, h2, h3, h3', h4, h5, h6, h7⟩ := h.onItsWay c _ r hc
  obtain ⟨hpend, hidle⟩ := h6 (by simp)
  have hregisters := h.registers.changeStateTo.move (L := L.changeStateTo c st) hc .toBus
    { r with needSnoop := false } hmemOp
  refine h.move hc .toBus { r with needSnoop := false } hregisters
    (fun c' => sent_setStage _ _ (.sent .toBus { r with needSnoop := false }) c') ?_ ?_ (fun _ _ => rfl)
    (fun _ _ => rfl) rfl rfl h.invalidating fun c' hc' => access_setStage_of_ne _ _ _ hc'
  · refine ⟨?_, hm, by simp, fun _ => hmiss, h3', h4, by simp, fun _ => ⟨hpend, hidle⟩, fun _ d hd hs => ?_⟩
    · simp [SMPMemRequest.transient, hst]
    · obtain ⟨hw, hr⟩ := h7 (by simp) d hd hs
      rw [state_setStage, state_changeStateTo, if_neg hd]
      exact ⟨hw, hr⟩
  · intro c' hc'
    rw [state_setStage, state_changeStateTo, if_neg hc']

lemma Inv.readMissAckHandler (h : L.Inv) (hc : L.sent c = some (.toRequestor, r))
    (hmemOp : r.memOp = .MemRead) (hs : L.readMissAckHandler c r = .ok L') : L'.Inv := by
  obtain ⟨h1, hm, h2, h3, h3', h4, h5, h6, h7⟩ := h.onItsWay c _ r hc
  have hanswered : ∀ d, d ≠ c → r.Answered (L.state d) := fun d hd =>
    h7 (by simp) d hd (by simp [(h6 (by simp)).2 d])
  obtain ⟨_, -, hs⟩ := bind_eq_ok.1 hs
  split_ifs at hs with hmem hmiss
  · exact h.goToMemory hc (by simp [hmemOp]) hmem.1 (by rw [if_pos hmemOp]) hs
  · obtain ⟨-, hs⟩ := check_bind_eq_ok.1 hs
    obtain ⟨L₁, hL₁, hs⟩ := bind_eq_ok.1 hs
    obtain ⟨-, rfl⟩ := changeState_eq_ok.1 hL₁
    cases hs
    refine h.conclude hc rfl (fun d hd => (hanswered d hd).written) fun _ d hd => ?_
    by_contra hread
    exact ((hanswered d hd).read (by simpa using hread)).2 hmiss
  · obtain ⟨-, hs⟩ := check_bind_eq_ok.1 hs
    obtain ⟨L₁, hL₁, hs⟩ := bind_eq_ok.1 hs
    obtain ⟨-, rfl⟩ := changeState_eq_ok.1 hL₁
    cases hs
    exact h.conclude hc rfl (fun d hd => (hanswered d hd).written) fun hw => absurd hw (by decide)

/-- All other caches have given the line up. -/
lemma Inv.becomeModified (h : L.Inv) (hc : L.sent c = some (.toRequestor, r)) (hmemOp : r.memOp ≠ .MemRead) :
    ((L.changeStateTo c .MODIFIED).concludeAccess c).Inv := by
  obtain ⟨h1, hm, h2, h3, h3', h4, h5, h6, h7⟩ := h.onItsWay c _ r hc
  have hanswered : ∀ d, d ≠ c → r.Answered (L.state d) := fun d hd =>
    h7 (by simp) d hd (by simp [(h6 (by simp)).2 d])
  refine h.conclude hc rfl (fun d hd => (hanswered d hd).written) fun _ d hd => ?_
  by_contra hread
  exact hmemOp ((hanswered d hd).read (by simpa using hread)).1

lemma Inv.writeMissAckHandler (h : L.Inv) (hc : L.sent c = some (.toRequestor, r))
    (hmemOp : r.memOp = .MemReadW) (hs : L.writeMissAckHandler c r = .ok L') : L'.Inv := by
  obtain ⟨_, -, hs⟩ := bind_eq_ok.1 hs
  obtain ⟨_, -, hs⟩ := bind_eq_ok.1 hs
  split_ifs at hs with hmem
  · exact h.goToMemory hc (by simp [hmemOp]) hmem.1 (by simp [hmemOp]) hs
  · obtain ⟨-, hs⟩ := check_bind_eq_ok.1 hs
    obtain ⟨L₁, hL₁, hs⟩ := bind_eq_ok.1 hs
    obtain ⟨-, rfl⟩ := changeState_eq_ok.1 hL₁
    cases hs
    exact h.becomeModified hc (by simp [hmemOp])

lemma Inv.invalidateAckHandler (h : L.Inv) (hc : L.sent c = some (.toRequestor, r))
    (hmemOp : r.memOp ≠ .MemRead) (hs : L.invalidateAckHandler c = .ok L') : L'.Inv := by
  obtain ⟨_, -, hs⟩ := bind_eq_ok.1 hs
  obtain ⟨-, hs⟩ := check_bind_eq_ok.1 hs
  obtain ⟨L₁, hL₁, hs⟩ := bind_eq_ok.1 hs
  obtain ⟨-, rfl⟩ := changeState_eq_ok.1 hL₁
  cases hs
  exact h.becomeModified hc hmemOp

lemma Inv.returnAccess (h : L.Inv) (hc : L.sent c = some (.toRequestor, r))
    (hs : L.returnAccess c r = .ok L') : L'.Inv := by
  unfold Line.returnAccess at hs
  split at hs
  next hmemOp => exact h.readMissAckHandler hc hmemOp hs
  next hmemOp =>
    split_ifs at hs with hdata
    · exact h.writeMissAckHandler hc hmemOp hs
    · obtain ⟨_, -, hs⟩ := bind_eq_ok.1 hs
      exact h.invalidateAckHandler hc (by simp [hmemOp]) hs
  next hmemOp =>
    obtain ⟨_, -, hs⟩ := bind_eq_ok.1 hs
    obtain ⟨_, -, hs⟩ := bind_eq_ok.1 hs
    exact h.invalidateAckHandler hc (by simp [hmemOp]) hs
  · cases hs
    exact h
  · cases hs
    exact h

/-! ## Runs -/

lemma withRequest_eq_ok {f : SMPMemRequest n → Except Fault (Line n)}
    (hs : L.withRequest c location f = .ok L') : ∃ r, L.sent c = some (location, r) ∧ f r = .ok L' := by
  unfold withRequest withAccess at hs
  split at hs
  · cases hs
  next a ha =>
    dsimp only at hs
    split at hs
    next l r hstage =>
      split_ifs at hs with hloc
      refine ⟨r, ?_, hs⟩
      rw [sent_of_access ha, hstage, hloc]
      rfl
    · cases hs

lemma withAccess_eq_ok {f : MemOperation → Stage n → Except Fault (Line n)}
    (hs : L.withAccess c f = .ok L') : ∃ memOp stage, L.access c = some ⟨memOp, stage⟩ ∧ f memOp stage = .ok L' := by
  unfold withAccess at hs
  split at hs
  · cases hs
  next a ha => exact ⟨a.memOp, a.stage, ha, hs⟩

lemma Inv.step {upperCaches : ℕ} {e : LineEvent n} (h : L.Inv) (hs : L.step upperCaches e = .ok L') : L'.Inv := by
  unfold Line.step at hs
  cases e with
  | access c memOp => exact h.accessCache hs
  | run c =>
    obtain ⟨memOp, stage, hc, hs⟩ := withAccess_eq_ok hs
    obtain ⟨rfl, hs⟩ := check_bind_eq_ok.1 hs
    split_ifs at hs
    · exact h.doRead hc hs
    · exact h.doWrite hc hs
  | send c allocated =>
    obtain ⟨memOp, stage, hc, hs⟩ := withAccess_eq_ok hs
    obtain ⟨rfl, hs⟩ := check_bind_eq_ok.1 hs
    split_ifs at hs with hread
    · exact h.sendRead hc rfl rfl (h.registers.memOp c _ hc) hs
    · exact h.sendWrite hc rfl rfl (h.registers.memOp c _ hc) hread hs
  | retryAllocate c allocated =>
    obtain ⟨memOp, stage, hc, hs⟩ := withAccess_eq_ok hs
    obtain ⟨rfl, hs⟩ := check_bind_eq_ok.1 hs
    exact h.retryAllocate hc rfl rfl (h.registers.memOp c _ hc) (h.allocating c _ _ hc) hs
  | reserve c rpl =>
    obtain ⟨memOp, stage, hc, hs⟩ := withAccess_eq_ok hs
    obtain ⟨rfl, hs'⟩ := check_bind_eq_ok.1 hs
    exact h.reserve hc rfl rfl (h.registers.memOp c _ hc) (h.allocating c _ _ hc) hs'
  | evict c =>
    obtain ⟨-, hs⟩ := check_bind_eq_ok.1 hs
    exact h.evict hs
  | startEviction c addr =>
    obtain ⟨-, hs⟩ := check_bind_eq_ok.1 hs
    exact h.startEviction hs
  | finishEviction c =>
    obtain ⟨hc, hs⟩ := check_bind_eq_ok.1 hs
    exact h.finishEviction hc hs
  | bus c =>
    obtain ⟨r, hc, hs⟩ := withRequest_eq_ok hs
    exact h.busAccess hc (h.onItsWay c _ r hc).memOp hs
  | receive c d =>
    obtain ⟨r, hc, hs⟩ := withRequest_eq_ok hs
    obtain ⟨hd, hs⟩ := check_bind_eq_ok.1 hs
    have hmemOp := (h.onItsWay c _ r hc).memOp
    unfold doReceiveFromBelow at hs
    split at hs
    next hread => exact h.readMissHandler hc hd hread hs
    · exact h.writeMissHandler hc hd hmemOp hs
    · obtain ⟨-, hs⟩ := check_bind_eq_ok.1 hs
      exact h.writeMissHandler hc hd hmemOp hs
    · cases hs
    · cases hs
  | upperInvalidated d =>
    obtain ⟨-, hs⟩ := check_bind_eq_ok.1 hs
    exact h.doInvalidate hs
  | ack c d =>
    obtain ⟨r, hc, hs⟩ := withRequest_eq_ok hs
    obtain ⟨hd, hs⟩ := check_bind_eq_ok.1 hs
    obtain ⟨h1, hm, h2, h3, h3', h4, h5, h6, h7⟩ := h.onItsWay c _ r hc
    have hne : d ≠ c := by
      rintro rfl
      rw [h4] at hd
      cases hd
    exact h.respondBelow hc (by simp [hd]) (by simp [hd]) (.refl r) h3' (h7 (by simp) d hne (by simp [hd])) hm hs
  | memory c =>
    obtain ⟨r, hc, hs⟩ := withRequest_eq_ok hs
    cases hs
    obtain ⟨h1, hm, h2, h3, h3', h4, h5, h6, h7⟩ := h.onItsWay c _ r hc
    refine h.move hc .toRequestor r (h.registers.move hc _ _ hm)
      (fun c' => sent_setStage _ _ (.sent .toRequestor r) c') ?_ (fun _ _ => rfl) (fun _ _ => rfl)
      (fun _ _ => rfl) rfl rfl h.invalidating fun c' hc' => access_setStage_of_ne _ _ _ hc'
    exact ⟨h1, hm, by simp, h3, h3', h4, by simp, fun _ => h6 (by simp), fun _ => h7 (by simp)⟩
  | answer c =>
    obtain ⟨r, hc, hs⟩ := withRequest_eq_ok hs
    exact h.returnAccess hc hs

end Line

end Sesc.Smp
