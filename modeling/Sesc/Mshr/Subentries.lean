import Mathlib.Order.Basic
import Mathlib.Tactic.Common
import Sesc.Mshr.SingleMSHR

/-!
# The counters of the subentries

The free subentries of an entry add up in both modes, and the counters of the full entries are exact.  Each
operation of the registers is described by what it does to the table of the entries.
-/

namespace Sesc.Mshr

open Lib

namespace MSHRentry

variable {e e' : MSHRentry} {r : Request} {nrd nwr : ℤ} {mo : MemOperation} {lineAddr : Addr}

/-- The number of the requests that the entry has taken. -/
def used (e : MSHRentry) : ℤ := e.getUsedReads + e.getUsedWrites

/-- What holds of an entry, for numbers of subentries. -/
structure Sound (e : MSHRentry) (nrd nwr : ℤ) : Prop where
  nReads : e.nReads = nrd
  nWrites : e.nWrites = if nwr = 0 then nrd else nwr
  rdWrSharing : e.rdWrSharing = decide (nwr = 0)
  reads : 0 ≤ e.nFreeReads ∧ e.nFreeReads ≤ e.nReads
  writes : 0 ≤ e.nFreeWrites ∧ e.nFreeWrites ≤ e.nWrites
  free : 0 ≤ e.nFreeSEntries
  subentries : e.nFreeSEntries = if nwr = 0 then e.nReads - e.used else e.nFreeReads + e.nFreeWrites
  pending : 1 + e.cc.length ≤ e.used

/-- The first request of an entry. -/
lemma firstRequest_spec (lineAddr : Addr) (hnrd : 1 ≤ nrd) (hnwr : 0 ≤ nwr) (hmo : mo = .MemRead ∨ mo = .MemWrite) :
    ∃ e, firstRequest lineAddr nrd nwr mo = .ok e ∧ e.Sound nrd nwr ∧ e.reqLineAddr = lineAddr ∧
      e.cc = [] := by
  rcases hmo with rfl | rfl
  · refine ⟨_, rfl, ?_, rfl, rfl⟩
    refine ⟨rfl, rfl, rfl, ⟨?_, ?_⟩, ⟨?_, ?_⟩, ?_, ?_, ?_⟩
    all_goals
      simp only [used, getUsedReads, getUsedWrites, List.length_nil]
      omega
  · refine ⟨_, rfl, ?_, rfl, rfl⟩
    refine ⟨rfl, rfl, rfl, ⟨?_, ?_⟩, ⟨?_, ?_⟩, ?_, ?_, ?_⟩
    all_goals
      simp only [used, getUsedReads, getUsedWrites, List.length_nil]
      omega

/-- A request is accepted when there is a free subentry for its kind. -/
def accepts (e : MSHRentry) (mo : MemOperation) : Prop :=
  ¬(e.nFreeSEntries = 0 ∨ (mo = .MemRead ∧ e.nFreeReads = 0) ∨ (mo = .MemWrite ∧ e.nFreeWrites = 0))

instance : Decidable (e.accepts mo) := inferInstanceAs (Decidable (¬_))

lemma addRequest_of_not_accepts (h : e.Sound nrd nwr) (hfull : ¬e.accepts r.mo) :
    e.addRequest r = .ok (false, e) := by
  rw [addRequest, check_bind h.reads.1, check_bind h.reads.2, check_bind h.writes.1,
    check_bind h.writes.2, check_bind h.free]
  exact if_pos (not_not.1 hfull)

/-- The entry with another request. -/
def withRequest (e : MSHRentry) (r : Request) : MSHRentry :=
  { e with
    nFreeReads := e.nFreeReads - if r.mo = .MemRead then 1 else 0
    nFreeWrites := e.nFreeWrites - if r.mo = .MemRead then 0 else 1
    nFreeSEntries := e.nFreeSEntries - 1
    cc := e.cc ++ [.cb r] }

lemma addRequest_of_accepts (h : e.Sound nrd nwr) (hmo : r.mo = .MemRead ∨ r.mo = .MemWrite)
    (haccepts : e.accepts r.mo) : e.addRequest r = .ok (true, e.withRequest r) := by
  rw [addRequest, check_bind h.reads.1, check_bind h.reads.2, check_bind h.writes.1,
    check_bind h.writes.2, check_bind h.free, if_neg haccepts]
  rcases hmo with hmo | hmo
  · rw [if_pos hmo, withRequest, if_pos hmo, if_pos hmo, Int.sub_zero]
  · have hne : ¬r.mo = .MemRead := by
      rw [hmo]
      exact MemOperation.noConfusion
    rw [if_neg hne, check_bind hmo, withRequest, if_neg hne, if_neg hne, Int.sub_zero]

lemma Sound.withRequest (h : e.Sound nrd nwr) (hmo : r.mo = .MemRead ∨ r.mo = .MemWrite)
    (haccepts : e.accepts r.mo) : (e.withRequest r).Sound nrd nwr := by
  have hsub := h.subentries
  have hpending := h.pending
  have hreads := h.reads
  have hwrites := h.writes
  have hfree := h.free
  unfold accepts at haccepts
  unfold used getUsedReads getUsedWrites at hsub hpending
  refine ⟨h.nReads, h.nWrites, h.rdWrSharing, ?_, ?_, ?_, ?_, ?_⟩
  all_goals
    unfold MSHRentry.withRequest
    rcases hmo with hmo | hmo
    all_goals
      simp only [used, getUsedReads, getUsedWrites, hmo, if_true, if_false, reduceCtorEq, true_and,
        false_and, false_or, or_false, List.length_append, List.length_singleton] at haccepts ⊢
      by_cases hzero : nwr = 0
      · simp only [hzero, if_true] at hsub ⊢
        omega
      · simp only [hzero, if_false] at hsub ⊢
        omega

/-- The next request of the entry is granted. -/
lemma Sound.next {c : Callback} {cc : List Callback} (h : e.Sound nrd nwr) (hcc : e.cc = c :: cc) :
    MSHRentry.Sound { e with cc := cc } nrd nwr := by
  refine ⟨h.nReads, h.nWrites, h.rdWrSharing, h.reads, h.writes, h.free, h.subentries, ?_⟩
  have := h.pending
  rw [hcc, List.length_cons] at this
  show 1 + (cc.length : ℤ) ≤ e.used
  omega

/-! ### Full entries -/

/-- The last free subentry for reads was taken. -/
def readsFilled (e : MSHRentry) (mo : MemOperation) : Bool :=
  if e.rdWrSharing then !e.hasFreeReads || !e.hasFreeWrites else !e.hasFreeReads && mo = .MemRead

/-- The last free subentry for writes was taken. -/
def writesFilled (e : MSHRentry) (mo : MemOperation) : Bool :=
  if e.rdWrSharing then !e.hasFreeReads || !e.hasFreeWrites else !e.hasFreeWrites && mo = .MemWrite

def fullReads (e : MSHRentry) : Bool := !e.hasFreeReads
def fullWrites (e : MSHRentry) : Bool := !e.hasFreeWrites

/-- When the subentries are shared, both kinds are full at the same time. -/
lemma Sound.full_of_sharing (h : e.Sound nrd nwr) (hnwr : nwr = 0) :
    e.fullReads = !decide (0 < e.nFreeSEntries) ∧ e.fullWrites = !decide (0 < e.nFreeSEntries) := by
  have hsub := h.subentries
  have hwrites := h.nWrites
  have hreads := h.nReads
  have hfreeReads := h.reads
  have hfreeWrites := h.writes
  rw [if_pos hnwr] at hsub hwrites
  unfold used getUsedReads getUsedWrites at hsub
  constructor
  · refine congrArg (!·) (decide_eq_decide.2 ⟨fun hfree => hfree.1, fun hfree => ⟨hfree, ?_⟩⟩)
    omega
  · refine congrArg (!·) (decide_eq_decide.2 ⟨fun hfree => hfree.1, fun hfree => ⟨hfree, ?_⟩⟩)
    omega

/-- Otherwise, each kind is full when its own subentries are. -/
lemma Sound.full_of_separate (h : e.Sound nrd nwr) (hnwr : nwr ≠ 0) :
    e.fullReads = !decide (0 < e.nFreeReads) ∧ e.fullWrites = !decide (0 < e.nFreeWrites) := by
  have hsub := h.subentries
  have hfreeReads := h.reads
  have hfreeWrites := h.writes
  rw [if_neg hnwr] at hsub
  constructor
  · refine congrArg (!·) (decide_eq_decide.2 ⟨fun hfree => hfree.2, fun hfree => ⟨?_, hfree⟩⟩)
    omega
  · refine congrArg (!·) (decide_eq_decide.2 ⟨fun hfree => hfree.2, fun hfree => ⟨?_, hfree⟩⟩)
    omega

/-- What is counted when a request was put into an entry that was not full for it. -/
structure Filled (e : MSHRentry) (mo : MemOperation) (fullReads fullWrites : Bool) : Prop where
  reads : e.fullReads.toNat = fullReads.toNat + (e.readsFilled mo).toNat
  writes : e.fullWrites.toNat = fullWrites.toNat + (e.writesFilled mo).toNat

lemma Sound.filled_of_sharing (h : e.Sound nrd nwr) (hnwr : nwr = 0) :
    e.Filled mo false false := by
  obtain ⟨hreads, hwrites⟩ := h.full_of_sharing hnwr
  have hsharing : e.rdWrSharing = true := h.rdWrSharing.trans (decide_eq_true hnwr)
  have hboth : (!e.hasFreeReads || !e.hasFreeWrites) = !decide (0 < e.nFreeSEntries) := by
    rw [← fullReads, ← fullWrites, hreads, hwrites, Bool.or_self]
  constructor
  · rw [readsFilled, if_pos hsharing, hboth, hreads]
    exact (Nat.zero_add _).symm
  · rw [writesFilled, if_pos hsharing, hboth, hwrites]
    exact (Nat.zero_add _).symm

/-- The kind of the request was not full before, and the other kind is as before. -/
lemma filled_of_separate (hsharing : e.rdWrSharing = false) {fullReads fullWrites : Bool}
    (hread : mo = .MemRead → fullReads = false ∧ e.fullWrites = fullWrites)
    (hwrite : mo = .MemWrite → fullWrites = false ∧ e.fullReads = fullReads)
    (hmo : mo = .MemRead ∨ mo = .MemWrite) : e.Filled mo fullReads fullWrites := by
  have hif : ¬e.rdWrSharing = true := by
    rw [hsharing]
    exact Bool.false_ne_true
  rcases hmo with rfl | rfl
  · obtain ⟨rfl, rfl⟩ := hread rfl
    constructor
    · rw [readsFilled, if_neg hif, MSHRentry.fullReads]
      cases e.hasFreeReads <;> rfl
    · rw [writesFilled, if_neg hif]
      simp
  · obtain ⟨rfl, rfl⟩ := hwrite rfl
    constructor
    · rw [readsFilled, if_neg hif]
      simp
    · rw [writesFilled, if_neg hif, MSHRentry.fullWrites]
      cases e.hasFreeWrites <;> rfl

lemma Sound.not_rdWrSharing (h : e.Sound nrd nwr) (hnwr : nwr ≠ 0) : e.rdWrSharing = false :=
  h.rdWrSharing.trans (decide_eq_false hnwr)

lemma Sound.filled_withRequest (h : e.Sound nrd nwr) (hmo : r.mo = .MemRead ∨ r.mo = .MemWrite)
    (haccepts : e.accepts r.mo) : (e.withRequest r).Filled r.mo e.fullReads e.fullWrites := by
  have h' := h.withRequest hmo haccepts
  have hpos : 0 < e.nFreeSEntries := by
    have := h.free
    have hne : ¬e.nFreeSEntries = 0 := fun hzero => haccepts (.inl hzero)
    omega
  by_cases hnwr : nwr = 0
  · obtain ⟨hreads, hwrites⟩ := h.full_of_sharing hnwr
    rw [hreads, hwrites, decide_eq_true hpos]
    exact h'.filled_of_sharing hnwr
  · obtain ⟨hreads, hwrites⟩ := h.full_of_separate hnwr
    obtain ⟨hreads', hwrites'⟩ := h'.full_of_separate hnwr
    have hfreeReads := h.reads
    have hfreeWrites := h.writes
    refine filled_of_separate (h'.not_rdWrSharing hnwr) (fun hread => ⟨?_, ?_⟩)
      (fun hwrite => ⟨?_, ?_⟩) hmo
    · have hne : ¬e.nFreeReads = 0 := fun hzero => haccepts (.inr (.inl ⟨hread, hzero⟩))
      have : 0 < e.nFreeReads := by omega
      rw [hreads, decide_eq_true this]
      rfl
    · have hsame : (e.withRequest r).nFreeWrites = e.nFreeWrites := by
        show e.nFreeWrites - (if r.mo = .MemRead then 0 else 1) = _
        rw [if_pos hread, Int.sub_zero]
      rw [hwrites', hwrites, hsame]
    · have hne : ¬e.nFreeWrites = 0 := fun hzero => haccepts (.inr (.inr ⟨hwrite, hzero⟩))
      have : 0 < e.nFreeWrites := by omega
      rw [hwrites, decide_eq_true this]
      rfl
    · have hne : ¬r.mo = .MemRead := by
        rw [hwrite]
        exact MemOperation.noConfusion
      have hsame : (e.withRequest r).nFreeReads = e.nFreeReads := by
        show e.nFreeReads - (if r.mo = .MemRead then 1 else 0) = _
        rw [if_neg hne, Int.sub_zero]
      rw [hreads', hreads, hsame]

lemma firstRequest_filled (he : firstRequest lineAddr nrd nwr mo = .ok e) (h : e.Sound nrd nwr)
    (hnrd : 1 ≤ nrd) (hnwr : 0 ≤ nwr) (hmo : mo = .MemRead ∨ mo = .MemWrite) :
    e.Filled mo false false := by
  by_cases hzero : nwr = 0
  · exact h.filled_of_sharing hzero
  · obtain ⟨hreads, hwrites⟩ := h.full_of_separate hzero
    refine filled_of_separate (h.not_rdWrSharing hzero) (fun hread => ⟨rfl, ?_⟩)
      (fun hwrite => ⟨rfl, ?_⟩) hmo
    · have hfree : e.nFreeWrites = nwr := by
        rw [hread] at he
        cases he
        exact if_neg hzero
      have : 0 < e.nFreeWrites := by omega
      rw [hwrites, decide_eq_true this]
      rfl
    · have hfree : e.nFreeReads = nrd := by
        rw [hwrite] at he
        cases he
        rfl
      have : 0 < e.nFreeReads := by omega
      rw [hreads, decide_eq_true this]
      rfl

end MSHRentry

namespace SingleMSHR

variable {m m' : SingleMSHR} {e e' : MSHRentry} {paddr : Addr} {mo : MemOperation} {r : Request}

/-- What holds of the registers by themselves. -/
structure Sound (m : SingleMSHR) : Prop where
  pos : 0 < m.nEntries
  nReads : 1 ≤ m.nReads
  nWrites : 0 ≤ m.nWrites
  entries : ∀ e ∈ m.ms, e.Sound m.nReads m.nWrites
  size : m.nFreeEntries + m.ms.count (fun _ => true) = m.nEntries
  free : 0 ≤ m.nFreeEntries
  fullReads : m.nFullReadEntries = m.ms.count MSHRentry.fullReads
  fullWrites : m.nFullWriteEntries = m.ms.count MSHRentry.fullWrites

/-- The entry is counted when its last free subentry was taken. -/
def fill (m : SingleMSHR) (e : MSHRentry) (mo : MemOperation) : SingleMSHR :=
  { m with
    nFullReadEntries := m.nFullReadEntries + (e.readsFilled mo).toNat
    nFullWriteEntries := m.nFullWriteEntries + (e.writesFilled mo).toNat }

lemma checkSubEntries_eq (h : m.ms.find (m.calcLineAddr paddr) = some e) :
    m.checkSubEntries paddr mo = .ok (m.fill e mo) := by
  unfold fill checkSubEntries MSHRentry.readsFilled MSHRentry.writesFilled
  rw [h]
  dsimp only
  cases hsharing : e.rdWrSharing with
  | true =>
    rw [if_pos rfl, if_pos rfl, if_pos rfl]
    cases hfull : (!e.hasFreeReads || !e.hasFreeWrites) with
    | true => rfl
    | false => simp
  | false =>
    rw [if_neg Bool.false_ne_true, if_neg Bool.false_ne_true, if_neg Bool.false_ne_true]
    cases e.hasFreeReads <;> cases e.hasFreeWrites <;> cases mo <;> simp

/-- A request gets a new entry. -/
structure Allocated (m : SingleMSHR) (paddr : Addr) (e : MSHRentry) (m' : SingleMSHR) : Prop where
  sound : m'.Sound
  ms : m'.ms = m.ms.insert e
  reqLineAddr : e.reqLineAddr = m.calcLineAddr paddr
  cc : e.cc = []
  nOutsReqs : m'.nOutsReqs = m.nOutsReqs + 1
  Log2LineSize : m'.Log2LineSize = m.Log2LineSize
  nEntries : m'.nEntries = m.nEntries
  overflow : m'.overflow = m.overflow
  checkingOverflow : m'.checkingOverflow = m.checkingOverflow

lemma Sound.allocate (h : m.Sound) (hmo : mo = .MemRead ∨ mo = .MemWrite)
    (hnone : m.ms.find (m.calcLineAddr paddr) = none) (hfree : 0 < m.nFreeEntries) :
    ∃ e m', m.allocate paddr mo = .ok m' ∧ m.Allocated paddr e m' := by
  obtain ⟨e, he, hsound, hline, hcc⟩ :=
    MSHRentry.firstRequest_spec (m.calcLineAddr paddr) h.nReads h.nWrites hmo
  have hfilled := MSHRentry.firstRequest_filled he hsound h.nReads h.nWrites hmo
  have hnew : m.ms.find e.reqLineAddr = none := by
    rw [hline]
    exact hnone
  have hfind : (m.ms.insert e).find (m.calcLineAddr paddr) = some e := by
    rw [Table.find_insert, if_pos hline.symm]
  refine ⟨e, fill { m with
    ms := m.ms.insert e
    nFreeEntries := m.nFreeEntries - 1
    nOutsReqs := m.nOutsReqs + 1 } e mo, ?_, ?_⟩
  · rw [SingleMSHR.allocate, he, ok_bind]
    exact checkSubEntries_eq hfind
  · refine ⟨?_, rfl, hline, hcc, rfl, rfl, rfl, rfl, rfl⟩
    refine ⟨h.pos, h.nReads, h.nWrites, fun e' he' => ?_, ?_, ?_, ?_, ?_⟩
    · rcases Table.mem_insert.1 he' with rfl | ⟨he', -⟩
      · exact hsound
      · exact h.entries e' he'
    · have := h.size
      unfold fill
      dsimp only
      rw [Table.count_insert hnew, Bool.toNat_true]
      omega
    · have := h.free
      unfold fill
      dsimp only
      omega
    · unfold fill
      dsimp only
      rw [Table.count_insert hnew, hfilled.reads, h.fullReads, Bool.toNat_false]
      omega
    · unfold fill
      dsimp only
      rw [Table.count_insert hnew, hfilled.writes, h.fullWrites, Bool.toNat_false]
      omega

/-- A request was put into an entry that there was. -/
structure Joined (m : SingleMSHR) (e : MSHRentry) (r : Request) (e' : MSHRentry) (m' : SingleMSHR) :
    Prop where
  sound : m'.Sound
  ms : m'.ms = m.ms.insert e'
  reqLineAddr : e'.reqLineAddr = e.reqLineAddr
  cc : e'.cc = e.cc ++ [.cb r]
  nOutsReqs : m'.nOutsReqs = m.nOutsReqs + 1
  Log2LineSize : m'.Log2LineSize = m.Log2LineSize
  nEntries : m'.nEntries = m.nEntries
  overflow : m'.overflow = m.overflow
  checkingOverflow : m'.checkingOverflow = m.checkingOverflow

lemma Sound.addToEntry (h : m.Sound) (hmo : r.mo = .MemRead ∨ r.mo = .MemWrite)
    (hfind : m.ms.find (m.calcLineAddr r.paddr) = some e) :
    m.addToEntry e r = .ok (false, m) ∨
      ∃ e' m', m.addToEntry e r = .ok (true, m') ∧ m.Joined e r e' m' := by
  obtain ⟨hmem, hline⟩ := Table.find_eq_some.1 hfind
  have hsound := h.entries e hmem
  by_cases haccepts : e.accepts r.mo
  · have hfilled := hsound.filled_withRequest hmo haccepts
    have hold : m.ms.find (e.withRequest r).reqLineAddr = some e := by
      show m.ms.find e.reqLineAddr = some e
      rw [hline]
      exact hfind
    have hnew : (m.ms.insert (e.withRequest r)).find (m.calcLineAddr r.paddr) =
        some (e.withRequest r) := by
      rw [Table.find_insert]
      exact if_pos hline.symm
    refine .inr ⟨e.withRequest r, fill { m with
      ms := m.ms.insert (e.withRequest r)
      nOutsReqs := m.nOutsReqs + 1 } (e.withRequest r) r.mo, ?_, ?_⟩
    · rw [SingleMSHR.addToEntry, MSHRentry.addRequest_of_accepts hsound hmo haccepts, ok_bind]
      dsimp only
      rw [if_pos rfl, checkSubEntries_eq hnew]
      rfl
    · have hreads := Table.count_replace (p := MSHRentry.fullReads) hold
      have hwrites := Table.count_replace (p := MSHRentry.fullWrites) hold
      rw [hfilled.reads] at hreads
      rw [hfilled.writes] at hwrites
      refine ⟨?_, rfl, rfl, rfl, rfl, rfl, rfl, rfl, rfl⟩
      refine ⟨h.pos, h.nReads, h.nWrites, fun e' he' => ?_, ?_, h.free, ?_, ?_⟩
      · rcases Table.mem_insert.1 he' with rfl | ⟨he', -⟩
        · exact hsound.withRequest hmo haccepts
        · exact h.entries e' he'
      · have := h.size
        have hcount := Table.count_replace (p := fun _ => true) hold
        unfold fill
        dsimp only
        omega
      · have := h.fullReads
        unfold fill
        dsimp only
        omega
      · have := h.fullWrites
        unfold fill
        dsimp only
        omega
  · refine .inl ?_
    rw [SingleMSHR.addToEntry, MSHRentry.addRequest_of_not_accepts hsound haccepts, ok_bind]
    rfl

/-- The next request of an entry is granted. -/
structure Granted (m : SingleMSHR) (e : MSHRentry) (c : Callback) (e' : MSHRentry) (m' : SingleMSHR) :
    Prop where
  sound : m'.Sound
  ms : m'.ms = m.ms.insert e'
  reqLineAddr : e'.reqLineAddr = e.reqLineAddr
  cc : e.cc = c :: e'.cc
  nOutsReqs : m'.nOutsReqs = m.nOutsReqs - 1
  Log2LineSize : m'.Log2LineSize = m.Log2LineSize
  nEntries : m'.nEntries = m.nEntries
  overflow : m'.overflow = m.overflow
  checkingOverflow : m'.checkingOverflow = m.checkingOverflow

/-- An entry is given back. -/
structure Released (m : SingleMSHR) (e : MSHRentry) (m' : SingleMSHR) : Prop where
  sound : m'.Sound
  ms : m'.ms = m.ms.erase e.reqLineAddr
  cc : e.cc = []
  nOutsReqs : m'.nOutsReqs = m.nOutsReqs - 1
  Log2LineSize : m'.Log2LineSize = m.Log2LineSize
  nEntries : m'.nEntries = m.nEntries
  overflow : m'.overflow = m.overflow
  checkingOverflow : m'.checkingOverflow = m.checkingOverflow

/-- Taking an entry out of the table keeps the counters exact. -/
lemma Sound.uncount (h : m.Sound) (hfind : m.ms.find e.reqLineAddr = some e) : (m.uncount e).Sound := by
  have hsize := Table.count_erase (p := fun _ => true) hfind
  have hreads := Table.count_erase (p := MSHRentry.fullReads) hfind
  have hwrites := Table.count_erase (p := MSHRentry.fullWrites) hfind
  have hfullReads : (e.fullReads.toNat : ℤ) = if e.hasFreeReads then 0 else 1 := by
    rw [MSHRentry.fullReads]
    cases e.hasFreeReads <;> rfl
  have hfullWrites : (e.fullWrites.toNat : ℤ) = if e.hasFreeWrites then 0 else 1 := by
    rw [MSHRentry.fullWrites]
    cases e.hasFreeWrites <;> rfl
  refine ⟨h.pos, h.nReads, h.nWrites, fun e' he' => h.entries e' (Table.mem_erase.1 he').1, ?_, ?_,
    ?_, ?_⟩
  · have := h.size
    rw [Bool.toNat_true] at hsize
    show m.nFreeEntries + 1 + ((m.ms.erase e.reqLineAddr).count fun _ => true) = m.nEntries
    omega
  · have := h.free
    show 0 ≤ m.nFreeEntries + 1
    omega
  · have := h.fullReads
    show m.nFullReadEntries - _ = ((m.ms.erase e.reqLineAddr).count MSHRentry.fullReads : ℤ)
    rw [← hfullReads]
    omega
  · have := h.fullWrites
    show m.nFullWriteEntries - _ = ((m.ms.erase e.reqLineAddr).count MSHRentry.fullWrites : ℤ)
    rw [← hfullWrites]
    omega

lemma Sound.retireEntry (h : m.Sound) (hfind : m.ms.find (m.calcLineAddr paddr) = some e) :
    (∃ c e' m', m.retireEntry paddr = .ok (m', some c) ∧ m.Granted e c e' m') ∨
      ∃ m', m.retireEntry paddr = .ok (m', none) ∧ m.Released e m' := by
  obtain ⟨hmem, hline⟩ := Table.find_eq_some.1 hfind
  have hsound := h.entries e hmem
  have hself : m.ms.find e.reqLineAddr = some e := by
    rw [hline]
    exact hfind
  unfold SingleMSHR.retireEntry
  rw [hfind]
  dsimp only
  cases hcc : e.cc with
  | nil =>
    have hs : Sound { m.uncount e with nOutsReqs := m.nOutsReqs - 1 } :=
      have hs := h.uncount hself
      ⟨hs.pos, hs.nReads, hs.nWrites, hs.entries, hs.size, hs.free, hs.fullReads, hs.fullWrites⟩
    have hreads : 0 ≤ (m.uncount e).nFullReadEntries := by
      rw [(h.uncount hself).fullReads]
      exact Int.natCast_nonneg _
    have hwrites : 0 ≤ (m.uncount e).nFullWriteEntries := by
      rw [(h.uncount hself).fullWrites]
      exact Int.natCast_nonneg _
    refine .inr ⟨_, ?_, hs, rfl, hcc, rfl, rfl, rfl, rfl, rfl⟩
    rw [check_bind (by exact hreads), check_bind (by exact hwrites)]
    rfl
  | cons c cc =>
    refine .inl ⟨c, { e with cc := cc }, _, rfl, ?_, rfl, rfl, hcc, rfl, rfl, rfl, rfl, rfl⟩
    have hold : m.ms.find (MSHRentry.reqLineAddr { e with cc := cc }) = some e := hself
    have hreads := Table.count_replace (p := MSHRentry.fullReads) hold
    have hwrites := Table.count_replace (p := MSHRentry.fullWrites) hold
    have hsize := Table.count_replace (p := fun _ => true) hold
    have hsameReads : MSHRentry.fullReads { e with cc := cc } = e.fullReads := rfl
    have hsameWrites : MSHRentry.fullWrites { e with cc := cc } = e.fullWrites := rfl
    rw [hsameReads] at hreads
    rw [hsameWrites] at hwrites
    refine ⟨h.pos, h.nReads, h.nWrites, fun e' he' => ?_, ?_, h.free, ?_, ?_⟩
    · rcases Table.mem_insert.1 he' with rfl | ⟨he', -⟩
      · exact hsound.next hcc
      · exact h.entries e' he'
    · have := h.size
      dsimp only
      omega
    · have := h.fullReads
      dsimp only
      omega
    · have := h.fullWrites
      dsimp only
      omega

/-! ### Requests in their cases -/

lemma issue_of_overflow (h : m.overflow ≠ []) : m.issue paddr mo = .ok (false, m) := if_pos h

lemma Sound.issue_of_refused (h : m.Sound) (hover : m.overflow = [])
    (hrefused : m.ms.find (m.calcLineAddr paddr) ≠ none ∨ ¬0 < m.nFreeEntries) :
    m.issue paddr mo = .ok (false, m) := by
  have hfree : 0 ≤ m.nFreeEntries ∧ m.nFreeEntries ≤ m.nEntries := by
    have := h.size
    have := h.free
    omega
  rw [issue, if_neg (not_not.2 hover), check_bind hfree, if_neg]
  rintro ⟨hnone, hpos⟩
  rcases hrefused with hsome | hneg
  · exact hsome hnone
  · exact hneg hpos

lemma Sound.issue_of_free (h : m.Sound) (hover : m.overflow = [])
    (hnone : m.ms.find (m.calcLineAddr paddr) = none) (hpos : 0 < m.nFreeEntries)
    (hm' : m.allocate paddr mo = .ok m') : m.issue paddr mo = .ok (true, m') := by
  have hfree : 0 ≤ m.nFreeEntries ∧ m.nFreeEntries ≤ m.nEntries := by
    have := h.size
    have := h.free
    omega
  rw [issue, if_neg (not_not.2 hover), check_bind hfree, if_pos ⟨hnone, hpos⟩, hm', ok_bind]

lemma addEntry_of_overflow (hovflw : r.ovflw = true) (h : m.overflow ≠ []) :
    m.addEntry r = .ok (m.toOverflow r, []) := by
  rw [addEntry, check_bind hovflw, if_pos h]

lemma addEntry_of_none (hovflw : r.ovflw = true) (h : m.overflow = [])
    (hnone : m.ms.find (m.calcLineAddr r.paddr) = none) :
    m.addEntry r = .ok (m.toOverflow r, []) := by
  rw [addEntry, check_bind hovflw, if_neg (not_not.2 h), hnone]

lemma addEntry_of_some (hovflw : r.ovflw = true) (h : m.overflow = [])
    (hfind : m.ms.find (m.calcLineAddr r.paddr) = some e) {accepted : Bool}
    (hadd : m.addToEntry e r = .ok (accepted, m')) :
    m.addEntry r = .ok (if accepted then (m', [.ovflwcb r]) else (m'.toOverflow r, [])) := by
  rw [addEntry, check_bind hovflw, if_neg (not_not.2 h), hfind]
  dsimp only
  rw [hadd, ok_bind]
  cases accepted <;> rfl

end SingleMSHR

end Sesc.Mshr
