import Sesc.Mshr.OverflowQueue

/-!
# Moving an entry to other registers

The number of outstanding requests is corrected by what an entry has taken, in the mode with shared subentries
by even more, and not by what it still has.  It stays right when no request of the entry was retired.
-/

namespace Sesc.Mshr

open Lib

namespace MSHRentry

variable {e pme : MSHRentry} {nrd nwr nrd' nwr' : ℤ}

/-- What an entry takes away from the number of outstanding requests. -/
lemma Sound.getPendingReqs (h : e.Sound nrd nwr) :
    e.getPendingReqs = if nwr = 0 then nrd + e.used else e.used := by
  have hsub := h.subentries
  have hreads := h.nReads
  have hwrites := h.nWrites
  unfold MSHRentry.getPendingReqs
  unfold used getUsedReads getUsedWrites at hsub ⊢
  by_cases hzero : nwr = 0
  · simp only [hzero, if_true] at hsub hwrites ⊢
    omega
  · simp only [hzero, if_false] at hsub hwrites ⊢
    omega

/-- The outstanding requests of an entry: its owner and those whose callbacks wait. -/
def unretired (e : MSHRentry) : ℤ := 1 + e.cc.length

/-- An entry takes away what it still has when its subentries are separate and nothing was retired. -/
lemma Sound.pending_iff (h : e.Sound nrd nwr) (hnrd : 1 ≤ nrd) :
    e.getPendingReqs = e.unretired ↔ nwr ≠ 0 ∧ e.used = e.unretired := by
  have hpending := h.pending
  rw [h.getPendingReqs, unretired]
  by_cases hzero : nwr = 0
  · rw [if_pos hzero]
    constructor
    · intro heq
      omega
    · rintro ⟨hne, -⟩
      exact absurd hzero hne
  · rw [if_neg hzero]
    exact ⟨fun heq => ⟨hzero, heq⟩, fun heq => heq.2⟩

/-- The entry after its move to registers with separate subentries. -/
def moved (e : MSHRentry) (nrd nwr : ℤ) : MSHRentry :=
  { e with
    nReads := nrd
    nFreeReads := nrd - e.getUsedReads
    nWrites := nwr
    rdWrSharing := false
    nFreeWrites := nwr - e.getUsedWrites
    nFreeSEntries := (nrd - e.getUsedReads) + (nwr - e.getUsedWrites) }

lemma Sound.adjustParameters (h : e.Sound nrd nwr) (hnwr' : nwr' ≠ 0) :
    e.adjustParameters nrd' nwr' = .ok (e.moved nrd' nwr') := by
  have hsub := h.subentries
  have hsharing := h.rdWrSharing
  unfold MSHRentry.adjustParameters moved getUsedReads getUsedWrites
  by_cases hzero : nwr = 0
  · rw [decide_eq_true hzero] at hsharing
    rw [if_neg (by rw [hsharing]; simp), if_pos ⟨hsharing, hnwr'⟩]
  · rw [decide_eq_false hzero] at hsharing
    rw [if_neg hzero] at hsub
    rw [if_pos ⟨hsharing, hnwr'⟩]
    refine congrArg Except.ok (MSHRentry.ext rfl ?_ rfl hsharing ?_ ?_ rfl rfl) <;> dsimp only <;> omega

lemma getPendingReqs_moved : (e.moved nrd nwr).getPendingReqs = e.used := by
  unfold MSHRentry.getPendingReqs moved used
  dsimp only
  omega

end MSHRentry

namespace SingleMSHR

variable {m : SingleMSHR} {e : MSHRentry}

/-- The counters of the full entries are exact. -/
structure FullExact (m : SingleMSHR) : Prop where
  reads : m.nFullReadEntries = m.ms.toList.countP fun e => !e.hasFreeReads
  writes : m.nFullWriteEntries = m.ms.toList.countP fun e => !e.hasFreeWrites

lemma Sound.fullExact (h : m.Sound) : m.FullExact := ⟨h.fullReads, h.fullWrites⟩

lemma Sound.dropEntry (h : m.Sound) (he : e ∈ m.ms) : ∃ m',
    m.dropEntry e.reqLineAddr = .ok m' ∧ m'.nOutsReqs = m.nOutsReqs - e.getPendingReqs ∧
      m'.FullExact := by
  have hfind : m.ms.find e.reqLineAddr = some e := Table.find_eq_some.2 ⟨he, rfl⟩
  have hfull := (h.uncount hfind).fullExact
  unfold SingleMSHR.dropEntry
  rw [hfind]
  exact ⟨_, rfl, rfl, hfull.reads, hfull.writes⟩

lemma Sound.putEntry (h : m.Sound) {nrd nwr : ℤ} (he : e.Sound nrd nwr) (hnwr : m.nWrites ≠ 0)
    (hnone : m.ms.find e.reqLineAddr = none) (hfree : 0 < m.nFreeEntries) : ∃ m',
    m.putEntry e = .ok m' ∧ m'.nOutsReqs = m.nOutsReqs + e.used ∧ m'.FullExact ∧
      e.moved m.nReads m.nWrites ∈ m'.ms := by
  have hnew : m.ms.find (e.moved m.nReads m.nWrites).reqLineAddr = none := hnone
  have hreads := Table.count_insert (p := MSHRentry.fullReads) hnew
  have hwrites := Table.count_insert (p := MSHRentry.fullWrites) hnew
  have hleft : 0 ≤ m.nFreeEntries - 1 := by omega
  refine ⟨{ m with
    ms := m.ms.insert (e.moved m.nReads m.nWrites)
    nOutsReqs := m.nOutsReqs + (e.moved m.nReads m.nWrites).getPendingReqs
    nFreeEntries := m.nFreeEntries - 1
    nFullReadEntries := m.nFullReadEntries +
      if (e.moved m.nReads m.nWrites).hasFreeReads then 0 else 1
    nFullWriteEntries := m.nFullWriteEntries +
      if (e.moved m.nReads m.nWrites).hasFreeWrites then 0 else 1 }, ?_, ?_, ⟨?_, ?_⟩, ?_⟩
  · rw [SingleMSHR.putEntry, check_bind hnone, check_bind hfree, he.adjustParameters hnwr, ok_bind]
    exact check_bind hleft
  · dsimp only
    rw [MSHRentry.getPendingReqs_moved]
  · show _ = (((m.ms.insert (e.moved m.nReads m.nWrites)).count MSHRentry.fullReads : ℕ) : ℤ)
    rw [hreads, MSHRentry.fullReads, h.fullReads]
    cases (e.moved m.nReads m.nWrites).hasFreeReads <;> rfl
  · show _ = (((m.ms.insert (e.moved m.nReads m.nWrites)).count MSHRentry.fullWrites : ℕ) : ℤ)
    rw [hwrites, MSHRentry.fullWrites, h.fullWrites]
    cases (e.moved m.nReads m.nWrites).hasFreeWrites <;> rfl
  · exact Table.mem_insert.2 (.inl rfl)

end SingleMSHR

namespace SingleState

variable {s t : SingleState} {W : List Request} {e : MSHRentry}

/-- The requests that an entry has taken and that are not retired. -/
def unretired (s : SingleState) : List Request :=
  s.asked.filter fun r => r ∉ s.waiting ∧ r ∉ s.retired

/-- Those of a line. -/
def unretiredAt (s : SingleState) (line : Addr) : List Request :=
  s.unretired.filter (s.mshr.isFor line)

lemma Core.perm_unretired (h : s.Core s.waiting) :
    s.asked.Perm (s.unretired ++ (s.waiting ++ s.retired)) := by
  refine List.perm_iff_count.2 fun r => ?_
  have hasked := h.count_asked r
  have hgranted := h.granted r
  have hle := h.count_le_one r
  rw [List.count_append, List.count_append]
  by_cases hr : r ∉ s.waiting ∧ r ∉ s.retired
  · have hcount : s.unretired.count r = s.asked.count r := List.count_filter (by simpa using hr)
    rw [hcount, List.count_eq_zero_of_not_mem hr.1, List.count_eq_zero_of_not_mem hr.2]
    rfl
  · have hcount : s.unretired.count r = 0 := by
      refine List.count_eq_zero_of_not_mem fun hmem => hr ?_
      simpa using (List.mem_filter.1 hmem).2
    have hone : 0 < s.waiting.count r + s.retired.count r := by
      by_contra hzero
      refine hr ⟨fun hmem => ?_, fun hmem => ?_⟩
      · have := List.count_pos_iff.2 hmem
        omega
      · have := List.count_pos_iff.2 hmem
        omega
    omega

/-- The outstanding requests are counted. -/
lemma Core.nOutsReqs (h : s.Core s.waiting) : s.mshr.nOutsReqs = s.unretired.length := by
  have hlength := h.perm_unretired.length_eq
  have hbooks := h.books
  rw [List.length_append, List.length_append] at hlength
  omega

/-- The unretired requests of a line are the owner of its entry and those that wait there. -/
lemma Core.length_unretiredAt (h : s.Core s.waiting) (he : e ∈ s.mshr.ms) :
    ((s.unretiredAt e.reqLineAddr).length : ℤ) = e.unretired := by
  have hfind : s.mshr.ms.find e.reqLineAddr = some e := Table.find_eq_some.2 ⟨he, rfl⟩
  have hwaiting := SingleMSHR.waitingAt_of_some hfind
  have hperm : (s.unretiredAt e.reqLineAddr).Perm
      (s.outstanding.filter (s.mshr.isFor e.reqLineAddr) ++ s.mshr.waitingAt e.reqLineAddr) := by
    refine List.perm_iff_count.2 fun r => ?_
    rw [List.count_append]
    by_cases hr : s.mshr.isFor e.reqLineAddr r = true
    · have hline : s.mshr.calcLineAddr r.paddr = e.reqLineAddr := of_decide_eq_true hr
      have hasked := h.count_asked r
      have hgranted := h.granted r
      have hall := h.perm_unretired.count_eq r
      rw [hline] at hasked
      rw [List.count_append, List.count_append] at hall
      rw [unretiredAt, List.count_filter hr, List.count_filter hr]
      omega
    · have hnot : r ∉ s.mshr.waitingAt e.reqLineAddr := by
        intro hmem
        rw [hwaiting] at hmem
        obtain ⟨c, hc, rfl⟩ := List.mem_map.1 hmem
        obtain ⟨r', rfl, hr'⟩ := h.home e he c hc
        exact hr (decide_eq_true hr')
      rw [List.count_eq_zero_of_not_mem hnot, List.count_eq_zero_of_not_mem,
        List.count_eq_zero_of_not_mem]
      · exact fun hmem => hr (List.mem_filter.1 hmem).2
      · exact fun hmem => hr (List.mem_filter.1 hmem).2
  have howned := h.owned e.reqLineAddr
  have hlength := hperm.length_eq
  rw [hfind, List.countP_eq_length_filter] at howned
  rw [List.length_append, howned, hwaiting, List.length_map] at hlength
  rw [hlength, MSHRentry.unretired]
  rfl

/-- Moving an entry `e` of `s` to the registers of `t` keeps the number of outstanding requests right, the
subentries that are free in a larger entry non-negative, and the counters of the full entries exact. -/
structure MovesWell (s t : SingleState) (e : MSHRentry) : Prop where
  before : s.mshr.nOutsReqs = s.unretired.length
  dropped : ∃ m, s.mshr.dropEntry e.reqLineAddr = .ok m ∧ m.FullExact ∧
    m.nOutsReqs = (s.unretired.filter fun r => !s.mshr.isFor e.reqLineAddr r).length
  put : ∃ m pme, t.mshr.putEntry e = .ok m ∧ m.FullExact ∧
    m.nOutsReqs = t.unretired.length + (s.unretiredAt e.reqLineAddr).length ∧
    e.adjustParameters t.mshr.nReads t.mshr.nWrites = .ok pme ∧ pme ∈ m.ms ∧
    (e.nReads ≤ t.mshr.nReads → e.nWrites ≤ t.mshr.nWrites →
      0 ≤ pme.nFreeReads ∧ 0 ≤ pme.nFreeWrites ∧ 0 ≤ pme.nFreeSEntries)

end SingleState

/-- The move goes well exactly when the subentries of the entry are separate for reads and writes and none of
the requests that it has taken was retired: all of them are its owner and those whose callbacks wait. -/
theorem SingleMSHR.movesWell_iff (size size' : ℤ) (lineSize lineSize' : ℕ) (nrd nwr nrd' nwr' : ℤ)
    {m m' : SingleMSHR} {s t : SingleState} {e : MSHRentry}
    (hnew : SingleMSHR.new size lineSize nrd nwr = .ok m) (hnrd : 1 ≤ nrd) (hnwr : 0 ≤ nwr)
    (hs : (singleMachine m).Reachable s) (he : e ∈ s.mshr.ms)
    (hnew' : SingleMSHR.new size' lineSize' nrd' nwr' = .ok m') (hnrd' : 1 ≤ nrd') (hnwr' : 0 ≤ nwr')
    (ht : (singleMachine m').Reachable t) (hnone : t.mshr.ms.find e.reqLineAddr = none)
    (hfree : 0 < t.mshr.nFreeEntries)
    (hadjust : ∃ pme, e.adjustParameters t.mshr.nReads t.mshr.nWrites = .ok pme) :
    s.MovesWell t e ↔
      e.rdWrSharing = false ∧ e.getUsedReads + e.getUsedWrites = 1 + e.cc.length := by
  obtain ⟨W, hinv⟩ := SingleState.exists_inv hnew hnrd hnwr hs
  obtain ⟨W', hinv'⟩ := SingleState.exists_inv hnew' hnrd' hnwr' ht
  obtain rfl := hinv.waiting_eq
  obtain rfl := hinv'.waiting_eq
  have hcore := hinv.core
  have hsound := hcore.sound.entries e he
  have hwrites : t.mshr.nWrites ≠ 0 := by
    intro hzero
    obtain ⟨pme, hpme⟩ := hadjust
    rw [hzero, MSHRentry.adjustParameters, if_neg (fun h => h.2 rfl), if_neg (fun h => h.2 rfl)] at hpme
    cases hpme
  have hseparate : e.rdWrSharing = false ↔ s.mshr.nWrites ≠ 0 := by
    rw [hsound.rdWrSharing, decide_eq_false_iff_not]
  obtain ⟨m₁, hdrop, houts, hfull⟩ := hcore.sound.dropEntry he
  obtain ⟨m₂, hput, houts', hfull', hmem⟩ := hinv'.core.sound.putEntry hsound hwrites hnone hfree
  have hbefore := hcore.nOutsReqs
  have hafter := hinv'.core.nOutsReqs
  have hline := hcore.length_unretiredAt he
  have hsplit := s.unretired.length_eq_length_filter_add (s.mshr.isFor e.reqLineAddr)
  have hiff := hsound.pending_iff hcore.sound.nReads
  change ((s.unretired.filter (s.mshr.isFor e.reqLineAddr)).length : ℤ) = _ at hline
  rw [hseparate]
  constructor
  · rintro ⟨-, ⟨m, hm, -, hcount⟩, -⟩
    cases hdrop.symm.trans hm
    exact hiff.1 (by omega)
  · intro hcond
    have hpend := hiff.2 hcond
    have hused : e.used = e.unretired := hcond.2
    refine ⟨hbefore, ⟨m₁, hdrop, hfull, by omega⟩,
      ⟨m₂, _, hput, hfull', ?_, hsound.adjustParameters hwrites, hmem, fun hreads hwrites => ?_⟩⟩
    · rw [houts', hafter, hused, ← hline]
      rfl
    · have hfreeReads := hsound.reads
      have hfreeWrites := hsound.writes
      unfold MSHRentry.moved MSHRentry.getUsedReads MSHRentry.getUsedWrites
      dsimp only
      omega

/-- Two reads of a line, one of which waits. -/
def twoReads : List SingleEvent :=
  [.request ⟨0, 0, .MemRead, true⟩, .request ⟨1, 0, .MemRead, true⟩]

/-- Their entry can be moved. -/
theorem SingleMSHR.movesWell_twoReads : ∃ m s e, SingleMSHR.new 1 32 2 1 = .ok m ∧
    (singleMachine m).exec (singleMachine m).init twoReads = .ok s ∧ e ∈ s.mshr.ms ∧
    s.MovesWell (singleMachine m).init e := by
  refine ⟨_, _, _, rfl, rfl, List.mem_singleton_self _, ?_⟩
  refine (SingleMSHR.movesWell_iff 1 1 32 32 2 1 2 1 rfl (by decide) (by decide)
    ⟨twoReads, Machine.run_of_exec rfl⟩ (List.mem_singleton_self _) rfl (by decide) (by decide)
    ⟨[], .nil⟩ rfl (by decide) ⟨_, rfl⟩).2 ?_
  decide

/-- When the first of them is retired, dropping the entry leaves a negative number of outstanding requests. -/
theorem SingleMSHR.dropEntry_after_retire : ∃ m s e m', SingleMSHR.new 1 32 2 1 = .ok m ∧
    (singleMachine m).exec (singleMachine m).init
      (twoReads ++ [.retire ⟨0, 0, .MemRead, true⟩, .callbackReturns]) = .ok s ∧
    e ∈ s.mshr.ms ∧ s.mshr.nOutsReqs = 1 ∧ s.mshr.dropEntry e.reqLineAddr = .ok m' ∧
    m'.nOutsReqs = -1 ∧ ¬s.MovesWell (singleMachine m).init e := by
  refine ⟨_, _, _, _, rfl, rfl, List.mem_singleton_self _, rfl, rfl, rfl, ?_⟩
  rintro ⟨-, ⟨m, hm, -, hcount⟩, -⟩
  cases hm
  revert hcount
  decide

end Sesc.Mshr
