import Mathlib.Data.Multiset.Count
import Sesc.Mshr.Subentries

/-!
# Requests are granted once and in order

The requests of a line are those that were granted, those that wait at the entry of the line and those that
wait in the overflow queue, in the order in which they were made.
-/

namespace Sesc.Mshr

open Lib

namespace SingleMSHR

variable {m m' : SingleMSHR} {e : MSHRentry} {line : Addr} {r : Request}

/-- The requests that wait at the entry of a line. -/
def waitingAt (m : SingleMSHR) (line : Addr) : List Request :=
  ((m.ms.find line).elim [] MSHRentry.cc).map Callback.request

/-- Whether a request is for a line. -/
def isFor (m : SingleMSHR) (line : Addr) (r : Request) : Bool := m.calcLineAddr r.paddr = line

lemma waitingAt_of_none (h : m.ms.find line = none) : m.waitingAt line = [] := by
  rw [waitingAt, h]
  rfl

lemma waitingAt_of_some (h : m.ms.find line = some e) :
    m.waitingAt line = e.cc.map Callback.request := by
  rw [waitingAt, h]
  rfl

lemma waitingAt_insert (h : m'.ms = m.ms.insert e) : m'.waitingAt line =
    if line = e.reqLineAddr then e.cc.map Callback.request else m.waitingAt line := by
  rw [waitingAt, h, Table.find_insert]
  split <;> rfl

lemma waitingAt_erase {k : Addr} (h : m'.ms = m.ms.erase k) : m'.waitingAt line =
    if line = k then [] else m.waitingAt line := by
  rw [waitingAt, h, Table.find_erase]
  split <;> rfl

lemma calcLineAddr_eq (h : m'.Log2LineSize = m.Log2LineSize) : m'.calcLineAddr = m.calcLineAddr := by
  funext paddr
  rw [calcLineAddr, h, calcLineAddr]

lemma isFor_eq (h : m'.Log2LineSize = m.Log2LineSize) : m'.isFor = m.isFor := by
  funext line r
  rw [isFor, calcLineAddr_eq h, isFor]

end SingleMSHR

namespace SingleState

/-- The requests whose overflow callbacks are running. -/
def pending (stack : List SingleFrame) : List Request :=
  stack.filterMap fun
    | .retire => none
    | .checkOverflow f => some f

/-- Where the requests are, when those of `W` wait in the overflow queue. -/
structure Core (s : SingleState) (W : List Request) : Prop where
  sound : s.mshr.Sound
  home : ∀ e ∈ s.mshr.ms, ∀ c ∈ e.cc, ∃ r, c = .cb r ∧ s.mshr.calcLineAddr r.paddr = e.reqLineAddr
  owned : ∀ line, s.outstanding.countP (s.mshr.isFor line) =
    if (s.mshr.ms.find line).isSome then 1 else 0
  fresh : s.asked.Nodup
  kinds : ∀ r ∈ s.asked, r.mo = .MemRead ∨ r.mo = .MemWrite
  order : ∀ line, s.asked.filter (s.mshr.isFor line) =
    (s.grants.map Grant.request).filter (s.mshr.isFor line) ++ s.mshr.waitingAt line ++
      W.filter (s.mshr.isFor line)
  granted : ∀ r, (s.grants.map Grant.request).count r = s.outstanding.count r + s.retired.count r
  cbs : ∀ r, s.destroyed.count (.cb r) + (pending s.stack).count r =
    s.grants.count (.called (.ovflwcb r))
  ovflwcbs : ∀ r, s.destroyed.count (.ovflwcb r) =
    (s.mshr.waitingAt (s.mshr.calcLineAddr r.paddr)).count r + s.grants.count (.called (.cb r))
  books : s.mshr.nOutsReqs + W.length + s.retired.length = s.asked.length

variable {s s' : SingleState} {W : List Request} {f r : Request} {e e' : MSHRentry} {m' : SingleMSHR}
  {stack : List SingleFrame}

/-- Only the queue and the flag of `checkOverflow` change. -/
lemma Core.congr (h : s.Core W) {q : List Request} {b : Bool} :
    Core { s with mshr := { s.mshr with overflow := q, checkingOverflow := b } } W :=
  ⟨⟨h.sound.pos, h.sound.nReads, h.sound.nWrites, h.sound.entries, h.sound.size, h.sound.free,
    h.sound.fullReads, h.sound.fullWrites⟩, h.home, h.owned, h.fresh, h.kinds, h.order, h.granted,
    h.cbs, h.ovflwcbs, h.books⟩

/-- A new request waits last. -/
lemma Core.ask (h : s.Core W) (hr : r ∉ s.asked) (hmo : r.mo = .MemRead ∨ r.mo = .MemWrite) :
    Core { s with asked := s.asked ++ [r] } (W ++ [r]) := by
  refine ⟨h.sound, h.home, h.owned, ?_, fun r' hr' => ?_, fun line => ?_, h.granted, h.cbs,
    h.ovflwcbs, ?_⟩
  · exact List.nodup_append_comm.1 (List.nodup_cons.2 ⟨hr, h.fresh⟩)
  · rcases List.mem_append.1 hr' with hr' | hr'
    · exact h.kinds r' hr'
    · rw [List.mem_singleton.1 hr']
      exact hmo
  · rw [List.filter_append, List.filter_append, h.order, List.append_assoc]
  · have := h.books
    simp only [List.length_append, List.length_singleton]
    omega

lemma Core.mem_asked (h : s.Core W) (hr : r ∈ W) : r ∈ s.asked := by
  have hmem : r ∈ W.filter (s.mshr.isFor (s.mshr.calcLineAddr r.paddr)) :=
    List.mem_filter.2 ⟨hr, decide_eq_true rfl⟩
  have hasked : r ∈ s.asked.filter (s.mshr.isFor (s.mshr.calcLineAddr r.paddr)) := by
    rw [h.order]
    exact List.mem_append_right _ hmem
  exact (List.mem_filter.1 hasked).1

/-- The first request of the overflow queue gets an entry. -/
lemma Core.allocate (h : s.Core (f :: W)) (hnone : s.mshr.ms.find (s.mshr.calcLineAddr f.paddr) = none)
    (hm : s.mshr.Allocated f.paddr e m') {g : Grant} (hg : g.request = f)
    (hcb : ∀ r, g ≠ .called (.cb r))
    (hovflwcb : ∀ r, (pending stack).count r =
      (pending s.stack).count r + if g = .called (.ovflwcb r) then 1 else 0) :
    Core (grant { s with mshr := m', stack := stack } g) W := by
  have hline := SingleMSHR.calcLineAddr_eq hm.Log2LineSize
  have hfor := SingleMSHR.isFor_eq hm.Log2LineSize
  have hwaiting : ∀ line, m'.waitingAt line = s.mshr.waitingAt line := by
    intro line
    rw [SingleMSHR.waitingAt_insert hm.ms, hm.cc, hm.reqLineAddr]
    split
    · rename_i heq
      rw [heq, SingleMSHR.waitingAt_of_none hnone]
      rfl
    · rfl
  refine ⟨hm.sound, fun e' he' c hc => ?_, fun line => ?_, h.fresh, h.kinds, fun line => ?_,
    fun r => ?_, fun r => ?_, fun r => ?_, ?_⟩
  · show ∃ r, c = .cb r ∧ m'.calcLineAddr r.paddr = e'.reqLineAddr
    rw [hline]
    change e' ∈ m'.ms at he'
    rw [hm.ms] at he'
    rcases Table.mem_insert.1 he' with rfl | ⟨he', -⟩
    · rw [hm.cc] at hc
      cases hc
    · exact h.home e' he' c hc
  · show (g.request :: s.outstanding).countP (m'.isFor line) = if (m'.ms.find line).isSome then 1 else 0
    have howned := h.owned line
    rw [hg, hfor, hm.ms, Table.find_insert, hm.reqLineAddr, List.countP_cons, howned]
    by_cases heq : line = s.mshr.calcLineAddr f.paddr
    · rw [if_pos heq, heq, hnone]
      simp [SingleMSHR.isFor]
    · rw [if_neg heq]
      have : ¬s.mshr.calcLineAddr f.paddr = line := fun h => heq h.symm
      simp [SingleMSHR.isFor, this]
  · have horder := h.order line
    show s.asked.filter (m'.isFor line) =
      ((s.grants ++ [g]).map Grant.request).filter (m'.isFor line) ++ m'.waitingAt line ++
        W.filter (m'.isFor line)
    rw [hfor, hwaiting, List.map_append, List.filter_append, List.map_singleton, hg, horder]
    by_cases heq : s.mshr.isFor line f = true
    · have hnil : s.mshr.waitingAt line = [] := by
        rw [← of_decide_eq_true heq]
        exact SingleMSHR.waitingAt_of_none hnone
      rw [List.filter_cons_of_pos heq, List.filter_cons_of_pos heq, hnil]
      simp
    · rw [List.filter_cons_of_neg heq, List.filter_cons_of_neg heq]
      simp
  · show ((s.grants ++ [g]).map Grant.request).count r =
      (g.request :: s.outstanding).count r + s.retired.count r
    rw [List.map_append, List.count_append, h.granted, List.map_singleton, List.count_singleton,
      List.count_cons]
    omega
  · show s.destroyed.count _ + (pending stack).count r = (s.grants ++ [g]).count _
    rw [hovflwcb, List.count_append, ← h.cbs, List.count_singleton]
    simp only [beq_iff_eq]
    omega
  · show s.destroyed.count _ = (m'.waitingAt (m'.calcLineAddr r.paddr)).count r + (s.grants ++ [g]).count _
    rw [hline, hwaiting, h.ovflwcbs, List.count_append, List.count_singleton]
    simp [hcb]
  · have := h.books
    show m'.nOutsReqs + (W.length : ℤ) + s.retired.length = s.asked.length
    rw [List.length_cons] at this
    rw [hm.nOutsReqs]
    omega

/-- The first request of the overflow queue joins an entry. -/
lemma Core.join (h : s.Core (f :: W))
    (hfind : s.mshr.ms.find (s.mshr.calcLineAddr f.paddr) = some e)
    (hm : s.mshr.Joined e f e' m') :
    Core { s with mshr := m', destroyed := .ovflwcb f :: s.destroyed } W := by
  obtain ⟨hmem, hkey⟩ := Table.find_eq_some.1 hfind
  have hline := SingleMSHR.calcLineAddr_eq hm.Log2LineSize
  have hfor := SingleMSHR.isFor_eq hm.Log2LineSize
  have hwaiting : ∀ line, m'.waitingAt line =
      s.mshr.waitingAt line ++ if line = s.mshr.calcLineAddr f.paddr then [f] else [] := by
    intro line
    rw [SingleMSHR.waitingAt_insert hm.ms, hm.cc, hm.reqLineAddr, hkey]
    split
    · rename_i heq
      rw [heq, SingleMSHR.waitingAt_of_some hfind, List.map_append]
      rfl
    · rw [List.append_nil]
  refine ⟨hm.sound, fun e₁ he₁ c hc => ?_, fun line => ?_, h.fresh, h.kinds, fun line => ?_,
    h.granted, fun r => ?_, fun r => ?_, ?_⟩
  · show ∃ r, c = .cb r ∧ m'.calcLineAddr r.paddr = e₁.reqLineAddr
    rw [hline]
    change e₁ ∈ m'.ms at he₁
    rw [hm.ms] at he₁
    rcases Table.mem_insert.1 he₁ with rfl | ⟨he₁, -⟩
    · rw [hm.cc] at hc
      rw [hm.reqLineAddr]
      rcases List.mem_append.1 hc with hc | hc
      · exact h.home e hmem c hc
      · exact ⟨f, List.mem_singleton.1 hc, hkey.symm⟩
    · exact h.home e₁ he₁ c hc
  · show s.outstanding.countP (m'.isFor line) = if (m'.ms.find line).isSome then 1 else 0
    rw [hfor, h.owned, hm.ms, Table.find_insert, hm.reqLineAddr, hkey]
    by_cases heq : line = s.mshr.calcLineAddr f.paddr
    · rw [if_pos heq, heq, hfind]
      rfl
    · rw [if_neg heq]
  · have horder := h.order line
    show s.asked.filter (m'.isFor line) = (s.grants.map Grant.request).filter (m'.isFor line) ++
      m'.waitingAt line ++ W.filter (m'.isFor line)
    rw [hfor, hwaiting, horder]
    by_cases heq : line = s.mshr.calcLineAddr f.paddr
    · rw [if_pos heq, List.filter_cons_of_pos (by rw [heq]; exact decide_eq_true rfl)]
      simp
    · have hneg : ¬s.mshr.isFor line f = true := fun h => heq (of_decide_eq_true h).symm
      rw [if_neg heq, List.filter_cons_of_neg hneg, List.append_nil]
  · have := h.cbs r
    show (Callback.ovflwcb f :: s.destroyed).count _ + _ = _
    rw [List.count_cons_of_ne (by exact Callback.noConfusion)]
    exact this
  · have := h.ovflwcbs r
    show (Callback.ovflwcb f :: s.destroyed).count _ =
      (m'.waitingAt (m'.calcLineAddr r.paddr)).count r + s.grants.count (.called (.cb r))
    rw [hline, hwaiting, List.count_append]
    by_cases heq : f = r
    · subst heq
      rw [List.count_cons_self, this, if_pos rfl, List.count_singleton_self]
      omega
    · have hnone : (if s.mshr.calcLineAddr r.paddr = s.mshr.calcLineAddr f.paddr then [f]
          else []).count r = 0 := by
        split
        · rw [List.count_singleton, if_neg (by simpa using heq)]
        · rfl
      rw [List.count_cons_of_ne (fun h => heq (Callback.ovflwcb.inj h)), this, hnone]
      omega
  · have := h.books
    show m'.nOutsReqs + (W.length : ℤ) + s.retired.length = s.asked.length
    rw [List.length_cons] at this
    rw [hm.nOutsReqs]
    omega

/-! ## Retiring a request -/

lemma countP_outstanding (hr : r ∈ s.outstanding) (line : Addr) :
    s.outstanding.countP (s.mshr.isFor line) =
      (s.outstanding.erase r).countP (s.mshr.isFor line) +
        if s.mshr.calcLineAddr r.paddr = line then 1 else 0 := by
  rw [(List.perm_cons_erase hr).countP_eq, List.countP_cons]
  simp [SingleMSHR.isFor]

lemma count_outstanding (hr : r ∈ s.outstanding) (r' : Request) :
    s.outstanding.count r' = (s.outstanding.erase r).count r' + if r = r' then 1 else 0 := by
  rw [(List.perm_cons_erase hr).count_eq, List.count_cons]
  simp only [beq_iff_eq]

/-- The entry of an outstanding request. -/
lemma Core.find_of_outstanding (h : s.Core W) (hr : r ∈ s.outstanding) :
    ∃ e, s.mshr.ms.find (s.mshr.calcLineAddr r.paddr) = some e := by
  have howned := h.owned (s.mshr.calcLineAddr r.paddr)
  cases hfind : s.mshr.ms.find (s.mshr.calcLineAddr r.paddr) with
  | some e => exact ⟨e, rfl⟩
  | none =>
    rw [hfind, countP_outstanding hr, if_pos rfl] at howned
    exact absurd howned (Nat.succ_ne_zero _)

/-- The next request of the entry is granted. -/
lemma Core.next (h : s.Core W) (hr : r ∈ s.outstanding)
    (hfind : s.mshr.ms.find (s.mshr.calcLineAddr r.paddr) = some e) {c : Callback}
    (hm : s.mshr.Granted e c e' m') (hstack : pending stack = pending s.stack) :
    Core (grant { s with
      mshr := m'
      stack := stack
      outstanding := s.outstanding.erase r
      retired := r :: s.retired } (.called c)) W := by
  obtain ⟨hmem, hkey⟩ := Table.find_eq_some.1 hfind
  obtain ⟨f, rfl, hf⟩ := h.home e hmem c (by rw [hm.cc]; exact List.mem_cons_self)
  have hline := SingleMSHR.calcLineAddr_eq hm.Log2LineSize
  have hfor := SingleMSHR.isFor_eq hm.Log2LineSize
  have hwaiting : ∀ line, s.mshr.waitingAt line =
      (if line = s.mshr.calcLineAddr r.paddr then [f] else []) ++ m'.waitingAt line := by
    intro line
    rw [SingleMSHR.waitingAt_insert hm.ms, hm.reqLineAddr, hkey]
    split
    · rename_i heq
      rw [heq, SingleMSHR.waitingAt_of_some hfind, hm.cc]
      rfl
    · rw [List.nil_append]
  refine ⟨hm.sound, fun e₁ he₁ c hc => ?_, fun line => ?_, h.fresh, h.kinds, fun line => ?_,
    fun r' => ?_, fun r' => ?_, fun r' => ?_, ?_⟩
  · show ∃ r, c = .cb r ∧ m'.calcLineAddr r.paddr = e₁.reqLineAddr
    rw [hline]
    change e₁ ∈ m'.ms at he₁
    rw [hm.ms] at he₁
    rcases Table.mem_insert.1 he₁ with rfl | ⟨he₁, -⟩
    · rw [hm.reqLineAddr]
      refine h.home e hmem c ?_
      rw [hm.cc]
      exact List.mem_cons_of_mem _ hc
    · exact h.home e₁ he₁ c hc
  · show (f :: s.outstanding.erase r).countP (m'.isFor line) =
      if (m'.ms.find line).isSome then 1 else 0
    have howned := h.owned line
    rw [countP_outstanding hr] at howned
    have hsome : (m'.ms.find line).isSome = (s.mshr.ms.find line).isSome := by
      rw [hm.ms, Table.find_insert, hm.reqLineAddr, hkey]
      split
      · rename_i heq
        rw [heq, hfind]
        rfl
      · rfl
    rw [hfor, hsome, ← howned, List.countP_cons]
    simp only [SingleMSHR.isFor, hf, hkey, decide_eq_true_eq]
  · have horder := h.order line
    show s.asked.filter (m'.isFor line) =
      ((s.grants ++ [Grant.called (.cb f)]).map Grant.request).filter (m'.isFor line) ++ m'.waitingAt line ++
        W.filter (m'.isFor line)
    rw [hfor, horder, hwaiting, List.map_append, List.filter_append, List.map_singleton]
    show _ = _ ++ [f].filter _ ++ _ ++ _
    by_cases heq : line = s.mshr.calcLineAddr r.paddr
    · rw [if_pos heq, List.filter_cons_of_pos]
      · simp
      · rw [heq, ← hkey, ← hf]
        exact decide_eq_true rfl
    · rw [if_neg heq, List.filter_cons_of_neg]
      · simp
      · intro htrue
        exact heq ((of_decide_eq_true htrue).symm.trans (hf.trans hkey))
  · have hcount := h.granted r'
    rw [count_outstanding hr] at hcount
    show ((s.grants ++ [Grant.called (.cb f)]).map Grant.request).count r' =
      (f :: s.outstanding.erase r).count r' + (r :: s.retired).count r'
    rw [List.map_append, List.count_append, List.map_singleton, List.count_singleton, hcount,
      List.count_cons, List.count_cons]
    simp only [Grant.request, Callback.request, beq_iff_eq]
    omega
  · have := h.cbs r'
    show s.destroyed.count _ + (pending stack).count r' = (s.grants ++ [Grant.called (.cb f)]).count _
    rw [hstack, this, List.count_append]
    simp
  · have := h.ovflwcbs r'
    show s.destroyed.count _ = (m'.waitingAt (m'.calcLineAddr r'.paddr)).count r' +
      (s.grants ++ [Grant.called (.cb f)]).count _
    rw [hline, this, hwaiting, List.count_append, List.count_append]
    by_cases heq : f = r'
    · subst heq
      rw [if_pos (hf.trans hkey), List.count_singleton_self, List.count_singleton_self]
      omega
    · have hnone : (if s.mshr.calcLineAddr r'.paddr = s.mshr.calcLineAddr r.paddr then [f]
          else []).count r' = 0 := by
        split
        · rw [List.count_singleton, if_neg (by simpa using heq)]
        · rfl
      rw [hnone]
      simp [heq]
  · have := h.books
    show m'.nOutsReqs + (W.length : ℤ) + ((r :: s.retired).length : ℤ) = s.asked.length
    rw [List.length_cons, hm.nOutsReqs]
    omega

/-- The entry is given back. -/
lemma Core.release (h : s.Core W) (hr : r ∈ s.outstanding)
    (hfind : s.mshr.ms.find (s.mshr.calcLineAddr r.paddr) = some e) (hm : s.mshr.Released e m') :
    Core { s with
      mshr := m'
      outstanding := s.outstanding.erase r
      retired := r :: s.retired } W := by
  obtain ⟨hmem, hkey⟩ := Table.find_eq_some.1 hfind
  have hline := SingleMSHR.calcLineAddr_eq hm.Log2LineSize
  have hfor := SingleMSHR.isFor_eq hm.Log2LineSize
  have hwaiting : ∀ line, m'.waitingAt line = s.mshr.waitingAt line := by
    intro line
    rw [SingleMSHR.waitingAt_erase hm.ms, hkey]
    split
    · rename_i heq
      rw [heq, SingleMSHR.waitingAt_of_some hfind, hm.cc]
      rfl
    · rfl
  refine ⟨hm.sound, fun e₁ he₁ c hc => ?_, fun line => ?_, h.fresh, h.kinds, fun line => ?_,
    fun r' => ?_, h.cbs, fun r' => ?_, ?_⟩
  · show ∃ r, c = .cb r ∧ m'.calcLineAddr r.paddr = e₁.reqLineAddr
    rw [hline]
    change e₁ ∈ m'.ms at he₁
    rw [hm.ms] at he₁
    exact h.home e₁ (Table.mem_erase.1 he₁).1 c hc
  · show (s.outstanding.erase r).countP (m'.isFor line) = if (m'.ms.find line).isSome then 1 else 0
    have howned := h.owned line
    rw [countP_outstanding hr] at howned
    rw [hfor, hm.ms, Table.find_erase, hkey]
    by_cases heq : line = s.mshr.calcLineAddr r.paddr
    · rw [heq, hfind, if_pos rfl] at howned
      rw [heq, if_pos rfl]
      exact Nat.succ.inj howned
    · have hne : ¬s.mshr.calcLineAddr r.paddr = line := fun h => heq h.symm
      rw [if_neg hne] at howned
      rw [if_neg heq]
      exact howned
  · show s.asked.filter (m'.isFor line) = (s.grants.map Grant.request).filter (m'.isFor line) ++
      m'.waitingAt line ++ W.filter (m'.isFor line)
    rw [hfor, hwaiting]
    exact h.order line
  · have hcount := h.granted r'
    rw [count_outstanding hr] at hcount
    show (s.grants.map Grant.request).count r' =
      (s.outstanding.erase r).count r' + (r :: s.retired).count r'
    rw [hcount, List.count_cons]
    simp only [beq_iff_eq]
    omega
  · show s.destroyed.count _ = (m'.waitingAt (m'.calcLineAddr r'.paddr)).count r' + s.grants.count _
    rw [hline, hwaiting]
    exact h.ovflwcbs r'
  · have := h.books
    show m'.nOutsReqs + (W.length : ℤ) + ((r :: s.retired).length : ℤ) = s.asked.length
    rw [List.length_cons, hm.nOutsReqs]
    omega

end SingleState

end Sesc.Mshr
