import Mathlib.Data.Multiset.Count
import Mathlib.Order.Basic
import Mathlib.Tactic.Common
import Sesc.Mshr.FullMSHR

/-!
# Requests and entries are conserved

Every request is in the overflow queue, waits at its entry or was granted, and exactly one of these.  An
entry is in use when one request owns it: an outstanding one, or one that is being retired.  The free entries
are those that no admitted request has.
-/

namespace Sesc.Mshr

open Lib

namespace FullMSHR

variable {m m' : FullMSHR} {r : Request} {paddr : Addr} {pos : ℕ} {e : EntryType}

@[simp] lemma calcEntry_setEntry : (m.setEntry pos e).calcEntry paddr = m.calcEntry paddr := rfl

lemma entry_setEntry_self : (m.setEntry pos e).entry pos = e := Function.update_self ..

lemma entry_setEntry_of_ne {p : ℕ} (h : p ≠ pos) : (m.setEntry pos e).entry p = m.entry p :=
  Function.update_of_ne h ..

/-- The number of times that a request waits at its entry. -/
def waiting (m : FullMSHR) (r : Request) : ℕ := (m.entry (m.calcEntry r.paddr)).cc.count (.cb r)

lemma waiting_setEntry : (m.setEntry pos e).waiting r =
    if m.calcEntry r.paddr = pos then e.cc.count (.cb r) else m.waiting r := by
  rw [waiting, calcEntry_setEntry]
  by_cases h : m.calcEntry r.paddr = pos
  · rw [if_pos h, h, entry_setEntry_self]
  · rw [if_neg h, entry_setEntry_of_ne h, waiting]

/-- What holds of the registers, when `owners` counts the owners of the entries. -/
structure Sound (m : FullMSHR) (owners : ℕ → ℕ) : Prop where
  nonneg : 0 ≤ m.nFreeEntries
  overflowing : m.overflowing = !m.overflow.isEmpty
  full : m.overflow ≠ [] → m.nFreeEntries = 0
  owned : ∀ pos, owners pos = if (m.entry pos).inUse then 1 else 0
  idle : ∀ pos, (m.entry pos).inUse = false → (m.entry pos).cc = []
  home : ∀ pos, ∀ c ∈ (m.entry pos).cc, ∃ r, c = .cb r ∧ m.calcEntry r.paddr = pos

variable {owners owners' : ℕ → ℕ}

lemma Sound.congr (h : m.Sound owners) (howners : ∀ pos, owners' pos = owners pos) :
    m.Sound owners' := by
  rw [funext howners]
  exact h

/-- Another entry, with another number of owners. -/
lemma Sound.setEntry (h : m.Sound owners) (hother : ∀ p ≠ pos, owners' p = owners p)
    (howned : owners' pos = if e.inUse then 1 else 0) (hidle : e.inUse = false → e.cc = [])
    (hhome : ∀ c ∈ e.cc, ∃ r, c = .cb r ∧ m.calcEntry r.paddr = pos) :
    (m.setEntry pos e).Sound owners' := by
  refine ⟨h.nonneg, h.overflowing, h.full, fun p => ?_, fun p => ?_, fun p => ?_⟩
  all_goals by_cases hp : p = pos
  · rw [hp, entry_setEntry_self]
    exact howned
  · rw [hother p hp, entry_setEntry_of_ne hp]
    exact h.owned p
  · rw [hp, entry_setEntry_self]
    exact hidle
  · rw [entry_setEntry_of_ne hp]
    exact h.idle p
  · rw [hp, entry_setEntry_self]
    exact hhome
  · rw [entry_setEntry_of_ne hp]
    exact h.home p

/-- The free entries and the overflow queue change. -/
lemma Sound.update (h : m.Sound owners) {n : ℤ} {overflowing : Bool} {overflow : List Request}
    (hn : 0 ≤ n) (hoverflowing : overflowing = !overflow.isEmpty) (hfull : overflow ≠ [] → n = 0) :
    FullMSHR.Sound
      { m with nFreeEntries := n, overflowing := overflowing, overflow := overflow } owners :=
  ⟨hn, hoverflowing, hfull, h.owned, h.idle, h.home⟩

/-- A request joins its entry. -/
def join (m : FullMSHR) (r : Request) : FullMSHR :=
  m.setEntry (m.calcEntry r.paddr) ⟨(m.entry (m.calcEntry r.paddr)).cc ++ [.cb r], true⟩

lemma waiting_join (r' : Request) :
    (m.join r).waiting r' = m.waiting r' + if r' = r then 1 else 0 := by
  rw [join, waiting_setEntry]
  by_cases hr : r' = r
  · rw [hr, if_pos rfl, if_pos rfl, List.count_append, List.count_singleton_self]
    rfl
  · have hcb : Callback.cb r ≠ .cb r' := fun h => hr (Callback.cb.inj h).symm
    rw [if_neg hr]
    split
    · rename_i hpos
      rw [List.count_append, List.count_singleton, if_neg (by simpa using hcb), ← hpos]
      rfl
    · rfl

lemma Sound.join (h : m.Sound owners) (huse : (m.entry (m.calcEntry r.paddr)).inUse = true) :
    (m.join r).Sound owners := by
  refine h.setEntry (fun p _ => rfl) ?_ (fun hfalse => ?_) fun c hc => ?_
  · rw [h.owned, huse]
  · cases hfalse
  · rcases List.mem_append.1 hc with hc | hc
    · exact h.home _ c hc
    · exact ⟨r, List.mem_singleton.1 hc, rfl⟩

/-- A free entry gets an owner. -/
def take (m : FullMSHR) (pos : ℕ) : FullMSHR := m.setEntry pos ⟨(m.entry pos).cc, true⟩

lemma waiting_take (r' : Request) : (m.take pos).waiting r' = m.waiting r' := by
  rw [take, waiting_setEntry]
  split
  · rename_i hpos
    rw [← hpos, waiting]
  · rfl

lemma Sound.take (h : m.Sound owners) (huse : (m.entry pos).inUse = false)
    (howners : ∀ p, owners' p = owners p + if p = pos then 1 else 0) :
    (m.take pos).Sound owners' := by
  refine h.setEntry (fun p hp => ?_) ?_ (fun hfalse => ?_) fun c hc => ?_
  · rw [howners, if_neg hp, Nat.add_zero]
  · rw [howners, h.owned, huse, if_pos rfl]
    rfl
  · cases hfalse
  · rw [h.idle pos huse] at hc
    cases hc

/-- The owner of an entry gives it to the next request, which owns it from now on. -/
lemma Sound.next (h : m.Sound owners) {c : Callback} {cc : List Callback}
    (huse : (m.entry pos).inUse = true) (hcc : (m.entry pos).cc = c :: cc) :
    (m.setEntry pos ⟨cc, true⟩).Sound owners := by
  refine h.setEntry (fun p _ => rfl) ?_ (fun hfalse => ?_) fun c' hc' => ?_
  · rw [h.owned, huse]
  · cases hfalse
  · refine h.home pos c' ?_
    rw [hcc]
    exact List.mem_cons_of_mem c hc'

lemma Sound.waiting_next (h : m.Sound owners) {c : Callback} {cc : List Callback}
    (hcc : (m.entry pos).cc = c :: cc) (r' : Request) :
    m.waiting r' = (m.setEntry pos ⟨cc, true⟩).waiting r' + if c = .cb r' then 1 else 0 := by
  rw [waiting_setEntry]
  by_cases hpos : m.calcEntry r'.paddr = pos
  · rw [if_pos hpos, waiting, hpos, hcc, List.count_cons]
    simp
  · rw [if_neg hpos, if_neg]
    · rfl
    · intro hc
      obtain ⟨r, hr, hrpos⟩ := h.home pos c (by rw [hcc]; exact List.mem_cons_self)
      cases hr.symm.trans hc
      exact hpos hrpos

/-- An entry without waiting requests is given back. -/
lemma Sound.release (h : m.Sound owners) (huse : (m.entry pos).inUse = true)
    (howners : ∀ p, owners p = owners' p + if p = pos then 1 else 0) :
    (m.setEntry pos ⟨[], false⟩).Sound owners' := by
  refine h.setEntry (fun p hp => ?_) ?_ (fun _ => rfl) fun c hc => ?_
  · have := howners p
    rw [if_neg hp] at this
    exact this.symm
  · have hpos := howners pos
    rw [h.owned, huse, if_pos rfl, if_pos rfl] at hpos
    have : owners' pos = 0 := by omega
    exact this
  · cases hc

lemma waiting_release (hcc : (m.entry pos).cc = []) (r' : Request) :
    (m.setEntry pos ⟨[], false⟩).waiting r' = m.waiting r' := by
  rw [waiting_setEntry]
  split
  · rename_i hpos
    rw [waiting, hpos, hcc]
  · rfl

lemma count_ovflwcbs (r' : Request) :
    (ovflwcbs r).count (.ovflwcb r') = if r' = r ∧ r.ovflw = true then 1 else 0 := by
  unfold ovflwcbs
  by_cases hr : r' = r
  · subst hr
    cases r'.ovflw <;> simp
  · have hcb : Callback.ovflwcb r ≠ .ovflwcb r' := fun h => hr (Callback.ovflwcb.inj h).symm
    cases r.ovflw <;> simp [hr, hcb]

lemma count_cb_ovflwcbs (r' : Request) : (ovflwcbs r).count (.cb r') = 0 := by
  unfold ovflwcbs
  cases r.ovflw <;> simp

/-! ### The functions in their cases -/

lemma issue_of_full (h : m.overflowing = true ∨ m.nFreeEntries = 0) :
    m.issue paddr = .ok (false, { m with overflowing := true }) := if_pos h

lemma issue_of_inUse (h : ¬(m.overflowing = true ∨ m.nFreeEntries = 0))
    (hpos : 0 ≤ m.nFreeEntries - 1) (huse : (m.entry (m.calcEntry paddr)).inUse = true) :
    m.issue paddr = .ok (false, { m with nFreeEntries := m.nFreeEntries - 1 }) := by
  rw [issue, if_neg h, check_bind hpos]
  exact if_pos huse

lemma issue_of_free (h : ¬(m.overflowing = true ∨ m.nFreeEntries = 0))
    (hpos : 0 ≤ m.nFreeEntries - 1) (huse : (m.entry (m.calcEntry paddr)).inUse = false)
    (hcc : (m.entry (m.calcEntry paddr)).cc = []) :
    m.issue paddr = .ok (true,
      { m with nFreeEntries := m.nFreeEntries - 1 }.take (m.calcEntry paddr)) := by
  rw [issue, if_neg h, check_bind hpos]
  refine (if_neg ?_).trans (check_bind hcc)
  exact fun htrue => Bool.false_ne_true (huse.symm.trans htrue)

lemma addEntry_of_overflowing (h : m.overflowing = true) (hpos : 0 ≤ m.nFreeEntries) :
    m.addEntry r = .ok ({ m with overflow := m.overflow ++ [r] }, []) := by
  rw [addEntry, check_bind hpos]
  exact if_pos h

lemma addEntry_of_inUse (h : m.overflowing = false) (hpos : 0 ≤ m.nFreeEntries)
    (huse : (m.entry (m.calcEntry r.paddr)).inUse = true) :
    m.addEntry r = .ok (m.join r, ovflwcbs r) := by
  rw [addEntry, check_bind hpos]
  refine (if_neg ?_).trans (check_bind huse)
  exact fun htrue => Bool.false_ne_true (h.symm.trans htrue)

end FullMSHR

/-! ## The requests -/

namespace Frame

/-- Whether a function that is running still owns an entry. -/
def owns (calcEntry : Addr → ℕ) (pos : ℕ) : Frame → Bool
  | .retireEntry paddr _ => pos = calcEntry paddr
  | .leave => false

def destroyed : Frame → List Callback
  | .retireEntry _ destroyed => destroyed
  | .leave => []

end Frame

namespace FullState

/-- The number of the owners of an entry: outstanding requests and running functions. -/
def ownersIn (calcEntry : Addr → ℕ) (outstanding : List Request) (stack : List Frame) (pos : ℕ) : ℕ :=
  outstanding.countP (fun r => pos = calcEntry r.paddr) + stack.countP (Frame.owns calcEntry pos)

def owners (s : FullState) (pos : ℕ) : ℕ :=
  ownersIn s.mshr.calcEntry s.outstanding s.stack pos

/-- The callbacks that the running functions are going to destroy. -/
def doomed (s : FullState) : List Callback := s.stack.flatMap Frame.destroyed

/-- The number of times that a request was granted. -/
def grants (s : FullState) (r : Request) : ℕ :=
  s.issued.count r + s.called.count (.cb r) + s.called.count (.ovflwcb r)

/-- Where the requests are, and what happens to their callbacks; there are `N` entries. -/
structure Inv (s : FullState) (N : ℤ) : Prop where
  sound : s.mshr.Sound s.owners
  fresh : s.asked.Nodup
  placed : ∀ r, s.asked.count r = s.mshr.overflow.count r + s.mshr.waiting r + s.grants r
  granted : ∀ r, s.grants r = s.outstanding.count r + s.retired.count r
  cbs : ∀ r, s.destroyed.count (.cb r) + s.doomed.count (.cb r) = s.called.count (.ovflwcb r)
  ovflwcbs : ∀ r, s.destroyed.count (.ovflwcb r) + s.doomed.count (.ovflwcb r) =
    if r.ovflw then s.mshr.waiting r + s.called.count (.cb r) else 0
  noOvflwcb : ∀ r, r.ovflw = false → s.called.count (.ovflwcb r) = 0
  free : s.mshr.nFreeEntries + s.asked.length =
    s.mshr.nEntries + s.mshr.overflow.length + s.retired.length
  size : s.mshr.nEntries = N

variable {s s' : FullState} {r : Request} {N : ℤ}

lemma count_cons_request (l : List Request) (r' : Request) :
    (r :: l).count r' = l.count r' + if r' = r then 1 else 0 := by
  rw [List.count_cons]
  by_cases hr : r' = r
  · subst hr
    simp
  · have : ¬r = r' := fun h => hr h.symm
    simp [hr, this]

lemma count_concat_request (l : List Request) (r' : Request) :
    (l ++ [r]).count r' = l.count r' + if r' = r then 1 else 0 := by
  rw [List.count_append, ← List.nil_append [r], List.nil_append, count_cons_request]
  simp

section

variable {calcEntry : Addr → ℕ} {outstanding : List Request} {stack : List Frame} {pos : ℕ}

lemma ownersIn_cons : ownersIn calcEntry (r :: outstanding) stack pos =
    ownersIn calcEntry outstanding stack pos + if pos = calcEntry r.paddr then 1 else 0 := by
  unfold ownersIn
  rw [List.countP_cons]
  simp only [decide_eq_true_eq]
  omega

lemma ownersIn_erase (hr : r ∈ outstanding) : ownersIn calcEntry outstanding stack pos =
    ownersIn calcEntry (outstanding.erase r) stack pos +
      if pos = calcEntry r.paddr then 1 else 0 := by
  rw [← ownersIn_cons, ownersIn, ownersIn, (List.perm_cons_erase hr).countP_eq]

lemma ownersIn_retireEntry {paddr : Addr} {d : List Callback} :
    ownersIn calcEntry outstanding (.retireEntry paddr d :: stack) pos =
      ownersIn calcEntry outstanding stack pos + if pos = calcEntry paddr then 1 else 0 := by
  unfold ownersIn
  rw [List.countP_cons]
  simp only [Frame.owns, decide_eq_true_eq]
  omega

lemma ownersIn_leave : ownersIn calcEntry outstanding (.leave :: stack) pos =
    ownersIn calcEntry outstanding stack pos := by
  unfold ownersIn
  rw [List.countP_cons]
  rfl

end

/-- The request overflows. -/
lemma Inv.request_overflows (h : s.Inv N) (hr : r ∉ s.asked) (hzero : s.mshr.nFreeEntries = 0) :
    FullState.Inv { s with
      asked := r :: s.asked
      mshr := { s.mshr with overflowing := true, overflow := s.mshr.overflow ++ [r] } } N := by
  refine ⟨?_, List.nodup_cons.2 ⟨hr, h.fresh⟩, fun r' => ?_, h.granted, h.cbs, h.ovflwcbs,
    h.noOvflwcb, ?_, h.size⟩
  · exact h.sound.update h.sound.nonneg (by simp) fun _ => hzero
  · have := h.placed r'
    dsimp only
    rw [count_cons_request, count_concat_request, this]
    show _ = _ + s.mshr.waiting r' + s.grants r'
    omega
  · have := h.free
    dsimp only
    rw [List.length_cons, List.length_append, List.length_singleton]
    omega

/-- The request waits at its entry. -/
lemma Inv.request_waits (h : s.Inv N) (hr : r ∉ s.asked) (hpos : 0 < s.mshr.nFreeEntries)
    (huse : (s.mshr.entry (s.mshr.calcEntry r.paddr)).inUse = true) :
    FullState.Inv { s with
      asked := r :: s.asked
      mshr := { s.mshr with nFreeEntries := s.mshr.nFreeEntries - 1 }.join r
      destroyed := FullMSHR.ovflwcbs r ++ s.destroyed } N := by
  have hnil : s.mshr.overflow = [] := by
    by_contra hne
    have := h.sound.full hne
    omega
  have hwaiting : ∀ r', ({ s.mshr with nFreeEntries := s.mshr.nFreeEntries - 1 }.join r).waiting r' =
      s.mshr.waiting r' + if r' = r then 1 else 0 := FullMSHR.waiting_join
  refine ⟨?_, List.nodup_cons.2 ⟨hr, h.fresh⟩, fun r' => ?_, h.granted, fun r' => ?_, fun r' => ?_,
    h.noOvflwcb, ?_, h.size⟩
  · refine FullMSHR.Sound.join ?_ huse
    exact h.sound.update (by omega) h.sound.overflowing fun hne => absurd hnil hne
  · have := h.placed r'
    show (r :: s.asked).count r' = s.mshr.overflow.count r' + _ + s.grants r'
    rw [count_cons_request, hwaiting, this]
    omega
  · have := h.cbs r'
    show (_ ++ s.destroyed).count _ + s.doomed.count _ = _
    rw [List.count_append, FullMSHR.count_cb_ovflwcbs, Nat.zero_add, this]
  · have := h.ovflwcbs r'
    show (_ ++ s.destroyed).count _ + s.doomed.count _ = _
    rw [List.count_append, FullMSHR.count_ovflwcbs, hwaiting]
    by_cases heq : r' = r
    · subst heq
      cases hovflw : r'.ovflw <;> simp [hovflw] at this ⊢ <;> omega
    · simp only [heq, false_and, if_false, Nat.add_zero, Nat.zero_add]
      exact this
  · have := h.free
    show s.mshr.nFreeEntries - 1 + ((r :: s.asked).length : ℤ) = _
    rw [List.length_cons]
    show _ = s.mshr.nEntries + s.mshr.overflow.length + s.retired.length
    omega

/-- The request is issued. -/
lemma Inv.request_issued (h : s.Inv N) (hr : r ∉ s.asked) (hpos : 0 < s.mshr.nFreeEntries)
    (huse : (s.mshr.entry (s.mshr.calcEntry r.paddr)).inUse = false) :
    FullState.Inv { s with
      asked := r :: s.asked
      mshr := { s.mshr with nFreeEntries := s.mshr.nFreeEntries - 1 }.take
        (s.mshr.calcEntry r.paddr)
      issued := r :: s.issued
      outstanding := r :: s.outstanding } N := by
  have hnil : s.mshr.overflow = [] := by
    by_contra hne
    have := h.sound.full hne
    omega
  have hwaiting : ∀ r', ({ s.mshr with nFreeEntries := s.mshr.nFreeEntries - 1 }.take
      (s.mshr.calcEntry r.paddr)).waiting r' = s.mshr.waiting r' := FullMSHR.waiting_take
  refine ⟨?_, List.nodup_cons.2 ⟨hr, h.fresh⟩, fun r' => ?_, fun r' => ?_, h.cbs, fun r' => ?_,
    h.noOvflwcb, ?_, h.size⟩
  · refine FullMSHR.Sound.take (?_ : FullMSHR.Sound _ s.owners) huse fun p => ?_
    · exact h.sound.update (by omega) h.sound.overflowing fun hne => absurd hnil hne
    · exact ownersIn_cons
  · have := h.placed r'
    show (r :: s.asked).count r' = s.mshr.overflow.count r' + _ + _
    rw [count_cons_request, hwaiting, this]
    unfold grants
    dsimp only
    rw [count_cons_request]
    omega
  · have := h.granted r'
    unfold grants at this ⊢
    dsimp only
    rw [count_cons_request, count_cons_request]
    omega
  · rw [hwaiting]
    exact h.ovflwcbs r'
  · have := h.free
    show s.mshr.nFreeEntries - 1 + ((r :: s.asked).length : ℤ) = _
    rw [List.length_cons]
    show _ = s.mshr.nEntries + s.mshr.overflow.length + s.retired.length
    omega

lemma Inv.request (h : s.Inv N) (hr : r ∉ s.asked) : ∃ s', s.request r = .ok s' ∧ s'.Inv N := by
  have hnonneg := h.sound.nonneg
  unfold FullState.request
  rw [check_bind hr]
  by_cases hfull : s.mshr.overflowing = true ∨ s.mshr.nFreeEntries = 0
  · have hzero : s.mshr.nFreeEntries = 0 := by
      rcases hfull with hover | hzero
      · refine h.sound.full fun hnil => ?_
        rw [h.sound.overflowing, hnil] at hover
        cases hover
      · exact hzero
    refine ⟨_, ?_, h.request_overflows hr hzero⟩
    dsimp only
    rw [FullMSHR.issue_of_full hfull, ok_bind]
    dsimp only
    rw [if_neg Bool.false_ne_true,
      FullMSHR.addEntry_of_overflowing (m := { s.mshr with overflowing := true }) rfl hnonneg]
    rfl
  · have hover : s.mshr.overflowing = false := by
      cases hover : s.mshr.overflowing with
      | true => exact absurd (.inl hover) hfull
      | false => rfl
    have hpos : 0 < s.mshr.nFreeEntries := by
      have hne : ¬s.mshr.nFreeEntries = 0 := fun hzero => hfull (.inr hzero)
      omega
    have hleft : 0 ≤ s.mshr.nFreeEntries - 1 := by omega
    cases huse : (s.mshr.entry (s.mshr.calcEntry r.paddr)).inUse with
    | true =>
      refine ⟨_, ?_, h.request_waits hr hpos huse⟩
      dsimp only
      rw [FullMSHR.issue_of_inUse hfull hleft huse, ok_bind]
      dsimp only
      rw [if_neg Bool.false_ne_true, FullMSHR.addEntry_of_inUse
        (m := { s.mshr with nFreeEntries := s.mshr.nFreeEntries - 1 }) hover hleft huse]
      rfl
    | false =>
      refine ⟨_, ?_, h.request_issued hr hpos huse⟩
      dsimp only
      rw [FullMSHR.issue_of_free hfull hleft huse (h.sound.idle _ huse)]
      rfl

/-! ## Retiring a request -/

lemma count_settle (hr : r ∈ s.outstanding) (r' : Request) :
    s.outstanding.count r' = (s.outstanding.erase r).count r' + if r' = r then 1 else 0 := by
  rw [(List.perm_cons_erase hr).count_eq, count_cons_request]

/-- The first part of `retire` is over: the request is retired, and a request `f` may have got its free
entry. -/
def retiring (s : FullState) (r : Request) (mshr : FullMSHR) (d : List Callback) : FullState :=
  { s with
    mshr := mshr
    outstanding := s.outstanding.erase r
    retired := r :: s.retired
    stack := .retireEntry r.paddr d :: s.stack }

lemma mshr_retiring {mshr : FullMSHR} {d : List Callback} : (s.retiring r mshr d).mshr = mshr := rfl

lemma owners_retiring (hr : r ∈ s.outstanding) {mshr : FullMSHR} {d : List Callback}
    (hcalc : mshr.calcEntry = s.mshr.calcEntry) (pos : ℕ) :
    (s.retiring r mshr d).owners pos = s.owners pos := by
  show ownersIn mshr.calcEntry (s.outstanding.erase r) (.retireEntry r.paddr d :: s.stack) pos =
    ownersIn s.mshr.calcEntry s.outstanding s.stack pos
  rw [ownersIn_retireEntry, ownersIn_erase hr, hcalc]

/-- The free entry goes to no other request. -/
lemma Inv.retire_frees (h : s.Inv N) (hr : r ∈ s.outstanding) (hnil : s.mshr.overflow = []) :
    (s.retiring r { s.mshr with nFreeEntries := s.mshr.nFreeEntries + 1 } []).Inv N := by
  have hnonneg := h.sound.nonneg
  refine ⟨?_, h.fresh, h.placed, fun r' => ?_, h.cbs, h.ovflwcbs, h.noOvflwcb, ?_, h.size⟩
  · refine FullMSHR.Sound.congr ?_ (owners_retiring hr rfl)
    exact h.sound.update (by omega) h.sound.overflowing fun hne => absurd hnil hne
  · have := h.granted r'
    show s.grants r' = (s.outstanding.erase r).count r' + (r :: s.retired).count r'
    rw [count_cons_request, this, count_settle hr]
    omega
  · have := h.free
    show s.mshr.nFreeEntries + 1 + (s.asked.length : ℤ) =
      s.mshr.nEntries + s.mshr.overflow.length + ((r :: s.retired).length : ℤ)
    rw [List.length_cons]
    omega

/-- The free entry goes to a request of the overflow queue, which waits at an entry that is in use. -/
lemma Inv.retire_joins (h : s.Inv N) (hr : r ∈ s.outstanding) {f : Request} {rest : List Request}
    (hover : s.mshr.overflow = f :: rest)
    (huse : (s.mshr.entry (s.mshr.calcEntry f.paddr)).inUse = true) :
    (s.retiring r
      ({ s.mshr with overflow := rest, overflowing := !rest.isEmpty }.join f)
      (FullMSHR.ovflwcbs f)).Inv N := by
  have hzero : s.mshr.nFreeEntries = 0 := h.sound.full (by rw [hover]; exact List.cons_ne_nil _ _)
  have hwaiting : ∀ r', ({ s.mshr with overflow := rest, overflowing := !rest.isEmpty }.join f).waiting r' =
      s.mshr.waiting r' + if r' = f then 1 else 0 := FullMSHR.waiting_join
  refine ⟨?_, h.fresh, fun r' => ?_, fun r' => ?_, fun r' => ?_, fun r' => ?_, h.noOvflwcb, ?_, h.size⟩
  · refine FullMSHR.Sound.congr ?_ (owners_retiring hr rfl)
    exact FullMSHR.Sound.join (h.sound.update h.sound.nonneg rfl fun _ => hzero) huse
  · have := h.placed r'
    show s.asked.count r' = rest.count r' + _ + s.grants r'
    rw [mshr_retiring, hwaiting, this, hover, count_cons_request]
    omega
  · have := h.granted r'
    show s.grants r' = (s.outstanding.erase r).count r' + (r :: s.retired).count r'
    rw [count_cons_request, this, count_settle hr]
    omega
  · have := h.cbs r'
    show s.destroyed.count _ + (FullMSHR.ovflwcbs f ++ s.doomed).count _ = _
    rw [List.count_append, FullMSHR.count_cb_ovflwcbs, Nat.zero_add]
    exact this
  · have := h.ovflwcbs r'
    show s.destroyed.count _ + (FullMSHR.ovflwcbs f ++ s.doomed).count _ = _
    rw [List.count_append, FullMSHR.count_ovflwcbs, mshr_retiring, hwaiting]
    show _ = if r'.ovflw = true then _ + s.called.count (.cb r') else 0
    by_cases heq : r' = f
    · subst heq
      cases hovflw : r'.ovflw <;> simp [hovflw] at this ⊢ <;> omega
    · simp only [heq, false_and, if_false, Nat.add_zero, Nat.zero_add]
      exact this
  · have := h.free
    rw [hover, List.length_cons] at this
    show s.mshr.nFreeEntries + (s.asked.length : ℤ) =
      s.mshr.nEntries + rest.length + ((r :: s.retired).length : ℤ)
    rw [List.length_cons]
    omega

/-- The callback that grants a request of the overflow queue at a free entry, and what is destroyed then. -/
def overflowCalls (f : Request) : Callback × List Callback :=
  if f.ovflw then (.ovflwcb f, [.cb f]) else (.cb f, [])

section

variable {f : Request} {l : List Callback} (r' : Request)

lemma count_cons_overflowCalls :
    ((overflowCalls f).1 :: l).count (.cb r') =
        l.count (.cb r') + (if r' = f ∧ f.ovflw = false then 1 else 0) ∧
      ((overflowCalls f).1 :: l).count (.ovflwcb r') =
        l.count (.ovflwcb r') + if r' = f ∧ f.ovflw = true then 1 else 0 := by
  unfold overflowCalls
  by_cases heq : r' = f
  · subst heq
    cases r'.ovflw <;> simp
  · have hne : ¬f = r' := fun h => heq h.symm
    cases f.ovflw <;> simp [heq, hne]

lemma count_overflowCalls_append :
    ((overflowCalls f).2 ++ l).count (.cb r') =
        l.count (.cb r') + (if r' = f ∧ f.ovflw = true then 1 else 0) ∧
      ((overflowCalls f).2 ++ l).count (.ovflwcb r') = l.count (.ovflwcb r') := by
  unfold overflowCalls
  by_cases heq : r' = f
  · subst heq
    cases r'.ovflw <;> simp
  · have hne : ¬f = r' := fun h => heq h.symm
    cases f.ovflw <;> simp [heq, hne]

end

/-- The free entry goes to a request of the overflow queue, which is granted by a callback. -/
lemma Inv.retire_calls (h : s.Inv N) (hr : r ∈ s.outstanding) {f : Request} {rest : List Request}
    (hover : s.mshr.overflow = f :: rest)
    (huse : (s.mshr.entry (s.mshr.calcEntry f.paddr)).inUse = false) :
    FullState.Inv
      { s.retiring r ({ s.mshr with overflow := rest, overflowing := !rest.isEmpty }.take
          (s.mshr.calcEntry f.paddr)) (overflowCalls f).2 with
        called := (overflowCalls f).1 :: s.called
        outstanding := f :: s.outstanding.erase r } N := by
  have hzero : s.mshr.nFreeEntries = 0 := h.sound.full (by rw [hover]; exact List.cons_ne_nil _ _)
  have hwaiting : ∀ r', ({ s.mshr with overflow := rest, overflowing := !rest.isEmpty }.take
      (s.mshr.calcEntry f.paddr)).waiting r' = s.mshr.waiting r' := FullMSHR.waiting_take
  have hcalled : ∀ r', _ := fun r' => count_cons_overflowCalls (f := f) (l := s.called) r'
  have hdoomed : ∀ r', _ := fun r' => count_overflowCalls_append (f := f) (l := s.doomed) r'
  have hgrants : ∀ r', (if r' = f then 1 else 0) =
      (if r' = f ∧ f.ovflw = false then 1 else 0) + if r' = f ∧ f.ovflw = true then 1 else 0 := by
    intro r'
    cases f.ovflw <;> simp
  refine ⟨?_, h.fresh, fun r' => ?_, fun r' => ?_, fun r' => ?_, fun r' => ?_, fun r' hovflw => ?_, ?_, h.size⟩
  · refine FullMSHR.Sound.take (h.sound.update h.sound.nonneg rfl fun _ => hzero) huse fun pos => ?_
    show ownersIn s.mshr.calcEntry (f :: s.outstanding.erase r)
      (.retireEntry r.paddr _ :: s.stack) pos = ownersIn s.mshr.calcEntry s.outstanding s.stack pos + _
    rw [ownersIn_cons, ownersIn_retireEntry, ← ownersIn_erase hr]
  · have := h.placed r'
    unfold grants at this ⊢
    show s.asked.count r' = rest.count r' + _ + (s.issued.count r' + _ + _)
    rw [mshr_retiring, hwaiting, this, hover, count_cons_request, (hcalled r').1, (hcalled r').2,
      hgrants]
    omega
  · have := h.granted r'
    unfold grants at this ⊢
    show s.issued.count r' + _ + _ = (f :: s.outstanding.erase r).count r' + (r :: s.retired).count r'
    rw [count_cons_request, count_cons_request, (hcalled r').1, (hcalled r').2, hgrants r']
    rw [count_settle hr] at this
    omega
  · have := h.cbs r'
    show s.destroyed.count _ + ((overflowCalls f).2 ++ s.doomed).count _ = _
    rw [(hdoomed r').1, (hcalled r').2, ← this]
    omega
  · have := h.ovflwcbs r'
    show s.destroyed.count _ + ((overflowCalls f).2 ++ s.doomed).count _ = _
    rw [(hdoomed r').2, (hcalled r').1, mshr_retiring, hwaiting, this]
    by_cases heq : r' = f
    · subst heq
      cases r'.ovflw <;> simp
    · simp [heq]
  · have := h.noOvflwcb r' hovflw
    rw [(hcalled r').2, this]
    by_cases heq : r' = f
    · subst heq
      simp [hovflw]
    · simp [heq]
  · have := h.free
    rw [hover, List.length_cons] at this
    show s.mshr.nFreeEntries + (s.asked.length : ℤ) =
      s.mshr.nEntries + rest.length + ((r :: s.retired).length : ℤ)
    rw [List.length_cons]
    omega

/-! ## The rest of `retire` -/

/-- The function that is on top of the stack goes on with its last part. -/
def resumed (s : FullState) (stack : List Frame) (d : List Callback) (mshr : FullMSHR) : FullState :=
  { s with stack := stack, destroyed := d ++ s.destroyed, mshr := mshr }

section

variable {stack : List Frame} {paddr : Addr} {d : List Callback}

lemma mshr_resumed {mshr : FullMSHR} : (s.resumed stack d mshr).mshr = mshr := rfl

lemma resumed_destroyed (hstack : s.stack = .retireEntry paddr d :: stack)
    (c : Callback) : (d ++ s.destroyed).count c + (stack.flatMap Frame.destroyed).count c =
      s.destroyed.count c + s.doomed.count c := by
  rw [doomed, hstack, List.flatMap_cons, List.count_append, List.count_append, Frame.destroyed]
  omega

lemma owners_resumed (hstack : s.stack = .retireEntry paddr d :: stack) (pos : ℕ) :
    s.owners pos = ownersIn s.mshr.calcEntry s.outstanding stack pos +
      if pos = s.mshr.calcEntry paddr then 1 else 0 := by
  rw [owners, hstack, ownersIn_retireEntry]

/-- The function on top of the stack owns its entry. -/
lemma Inv.inUse_of_stack (h : s.Inv N) (hstack : s.stack = .retireEntry paddr d :: stack) :
    (s.mshr.entry (s.mshr.calcEntry paddr)).inUse = true := by
  cases huse : (s.mshr.entry (s.mshr.calcEntry paddr)).inUse with
  | true => rfl
  | false =>
    have howned := h.sound.owned (s.mshr.calcEntry paddr)
    rw [owners_resumed hstack, huse, if_pos rfl] at howned
    exact absurd howned (Nat.succ_ne_zero _)

/-- The next request of the entry is granted. -/
lemma Inv.retireEntry_calls (h : s.Inv N) (hstack : s.stack = .retireEntry paddr d :: stack)
    {c : Callback} {cc : List Callback}
    (hcc : (s.mshr.entry (s.mshr.calcEntry paddr)).cc = c :: cc) :
    FullState.Inv ((s.resumed stack d
      (s.mshr.setEntry (s.mshr.calcEntry paddr) ⟨cc, true⟩)).callback c .leave) N := by
  have huse := h.inUse_of_stack hstack
  obtain ⟨r, rfl, hpos⟩ := h.sound.home _ c (by rw [hcc]; exact List.mem_cons_self)
  have hwaiting : ∀ r', s.mshr.waiting r' =
      (s.mshr.setEntry (s.mshr.calcEntry paddr) ⟨cc, true⟩).waiting r' + if r' = r then 1 else 0 := by
    intro r'
    rw [h.sound.waiting_next hcc]
    by_cases heq : r' = r
    · simp [heq]
    · have hne : ¬r = r' := fun h => heq h.symm
      simp [heq, hne]
  have hcb : ∀ r', (Callback.cb r :: s.called).count (.cb r') =
      s.called.count (.cb r') + if r' = r then 1 else 0 := by
    intro r'
    rw [List.count_cons]
    by_cases heq : r' = r
    · simp [heq]
    · have hne : ¬r = r' := fun h => heq h.symm
      simp [heq, hne]
  have hovflwcb : ∀ r', (Callback.cb r :: s.called).count (.ovflwcb r') =
      s.called.count (.ovflwcb r') := by
    intro r'
    simp
  have hgrants : ∀ r', ((s.resumed stack d (s.mshr.setEntry (s.mshr.calcEntry paddr)
      ⟨cc, true⟩)).callback (.cb r) .leave).grants r' = s.grants r' + if r' = r then 1 else 0 := by
    intro r'
    show s.issued.count r' + (Callback.cb r :: s.called).count (.cb r') +
      (Callback.cb r :: s.called).count (.ovflwcb r') = _
    rw [hcb, hovflwcb, grants]
    omega
  refine ⟨?_, h.fresh, fun r' => ?_, fun r' => ?_, fun r' => ?_, fun r' => ?_, fun r' hovflw => ?_,
    h.free, h.size⟩
  · refine (h.sound.next huse hcc).congr fun pos => ?_
    rw [owners_resumed hstack, ← hpos]
    exact ownersIn_leave.trans ownersIn_cons
  · have := h.placed r'
    show s.asked.count r' = s.mshr.overflow.count r' +
      (s.mshr.setEntry (s.mshr.calcEntry paddr) ⟨cc, true⟩).waiting r' + _
    rw [this, hwaiting, hgrants]
    omega
  · have := h.granted r'
    show _ = (r :: s.outstanding).count r' + s.retired.count r'
    rw [hgrants, count_cons_request, this]
    omega
  · have := h.cbs r'
    show (d ++ s.destroyed).count _ + (stack.flatMap Frame.destroyed).count _ = _
    rw [resumed_destroyed hstack, this]
    exact (hovflwcb r').symm
  · have := h.ovflwcbs r'
    show (d ++ s.destroyed).count _ + (stack.flatMap Frame.destroyed).count _ =
      if r'.ovflw = true then
        (s.mshr.setEntry (s.mshr.calcEntry paddr) ⟨cc, true⟩).waiting r' +
          (Callback.cb r :: s.called).count (.cb r')
      else 0
    rw [resumed_destroyed hstack, this, hcb, hwaiting]
    split
    · omega
    · rfl
  · exact (hovflwcb r').trans (h.noOvflwcb r' hovflw)

/-- Without a next request, the entry is given back. -/
lemma Inv.retireEntry_releases (h : s.Inv N) (hstack : s.stack = .retireEntry paddr d :: stack)
    (hcc : (s.mshr.entry (s.mshr.calcEntry paddr)).cc = []) :
    FullState.Inv (s.resumed stack d
      (s.mshr.setEntry (s.mshr.calcEntry paddr) ⟨[], false⟩)) N := by
  have huse := h.inUse_of_stack hstack
  refine ⟨?_, h.fresh, fun r' => ?_, h.granted, fun r' => ?_, fun r' => ?_, h.noOvflwcb, h.free,
    h.size⟩
  · exact h.sound.release huse fun pos => owners_resumed hstack pos
  · have := h.placed r'
    rw [mshr_resumed, FullMSHR.waiting_release hcc]
    exact this
  · exact (resumed_destroyed hstack _).trans (h.cbs r')
  · rw [mshr_resumed, FullMSHR.waiting_release hcc]
    exact (resumed_destroyed hstack _).trans (h.ovflwcbs r')

end

lemma Inv.leave (h : s.Inv N) {stack : List Frame} (hstack : s.stack = .leave :: stack) :
    FullState.Inv { s with stack := stack } N := by
  have hdoomed : s.doomed = stack.flatMap Frame.destroyed := by
    rw [doomed, hstack, List.flatMap_cons]
    rfl
  refine ⟨?_, h.fresh, h.placed, h.granted, fun r' => ?_, fun r' => ?_, h.noOvflwcb, h.free, h.size⟩
  · refine h.sound.congr fun pos => ?_
    rw [owners, owners, hstack, ownersIn_leave]
  · rw [← h.cbs r', hdoomed]
    rfl
  · rw [← h.ovflwcbs r', hdoomed]
    rfl

/-- The callback that was called last can return. -/
lemma Inv.callbackReturns (h : s.Inv N) (hstack : s.stack ≠ []) :
    ∃ s', s.callbackReturns = .ok s' ∧ s'.Inv N := by
  unfold FullState.callbackReturns
  cases hs : s.stack with
  | nil => exact absurd hs hstack
  | cons frame stack =>
    cases frame with
    | leave => exact ⟨_, rfl, h.leave hs⟩
    | retireEntry paddr d =>
      have huse := h.inUse_of_stack hs
      dsimp only
      unfold FullState.retireEntry FullMSHR.retireEntry
      dsimp only
      rw [check_bind h.sound.nonneg, if_pos huse]
      cases hcc : (s.mshr.entry (s.mshr.calcEntry paddr)).cc with
      | nil => exact ⟨_, rfl, h.retireEntry_releases hs hcc⟩
      | cons c cc => exact ⟨_, rfl, h.retireEntry_calls hs hcc⟩

/-! ## Whole calls of `retire` -/

lemma retireOverflow_of_nil {m : FullMSHR} (h : m.overflowing = false) :
    m.retireOverflow = .ok ({ m with nFreeEntries := m.nFreeEntries + 1 }, ⟨none, []⟩) := by
  rw [FullMSHR.retireOverflow, h]
  rfl

lemma retireOverflow_of_inUse {m : FullMSHR} {f : Request} {rest : List Request}
    (h : m.overflowing = true) (hover : m.overflow = f :: rest)
    (huse : (m.entry (m.calcEntry f.paddr)).inUse = true) :
    m.retireOverflow = .ok
      ({ m with overflow := rest, overflowing := !rest.isEmpty }.join f,
        ⟨none, FullMSHR.ovflwcbs f⟩) := by
  rw [FullMSHR.retireOverflow, h, if_pos rfl, hover]
  exact if_pos huse

lemma retireOverflow_of_free {m : FullMSHR} {f : Request} {rest : List Request}
    (h : m.overflowing = true) (hover : m.overflow = f :: rest)
    (huse : (m.entry (m.calcEntry f.paddr)).inUse = false) :
    m.retireOverflow = .ok
      ({ m with overflow := rest, overflowing := !rest.isEmpty }.take (m.calcEntry f.paddr),
        ⟨some (overflowCalls f).1, (overflowCalls f).2⟩) := by
  rw [FullMSHR.retireOverflow, h, if_pos rfl, hover]
  refine (if_neg ?_).trans ?_
  · exact fun htrue => Bool.false_ne_true (huse.symm.trans htrue)
  · unfold overflowCalls
    cases f.ovflw <;> rfl

lemma Inv.retire (h : s.Inv N) (hr : r ∈ s.outstanding) : ∃ s', s.retire r = .ok s' ∧ s'.Inv N := by
  unfold FullState.retire
  rw [check_bind hr]
  cases hover : s.mshr.overflow with
  | nil =>
    have hflag : s.mshr.overflowing = false := by
      rw [h.sound.overflowing, hover]
      rfl
    dsimp only
    rw [retireOverflow_of_nil hflag]
    exact (h.retire_frees hr hover).callbackReturns (List.cons_ne_nil _ _)
  | cons f rest =>
    have hflag : s.mshr.overflowing = true := by
      rw [h.sound.overflowing, hover]
      rfl
    dsimp only
    cases huse : (s.mshr.entry (s.mshr.calcEntry f.paddr)).inUse with
    | true =>
      rw [retireOverflow_of_inUse hflag hover huse]
      exact (h.retire_joins hr hover huse).callbackReturns (List.cons_ne_nil _ _)
    | false =>
      rw [retireOverflow_of_free hflag hover huse]
      have hrequest : (overflowCalls f).1.request = f := by
        unfold overflowCalls
        cases f.ovflw <;> rfl
      refine ⟨_, congrArg Except.ok ?_, h.retire_calls hr hover huse⟩
      unfold callback
      rw [hrequest]
      rfl

/-! ## Runs -/

lemma Inv.new {m : FullMSHR} {lineSize : ℕ} (h : FullMSHR.new N lineSize = .ok m) :
    0 < N ∧ (fullMachine m).init.Inv N := by
  rw [FullMSHR.new, check_bind_eq_ok] at h
  obtain ⟨hsize, h⟩ := h
  dsimp only at h
  rw [check_bind_eq_ok] at h
  cases h.2
  refine ⟨hsize.1, ?_, List.nodup_nil, fun r => rfl, fun r => rfl, fun r => rfl, fun r => ?_,
    fun r _ => rfl, ?_, rfl⟩
  · refine ⟨?_, rfl, fun h => absurd rfl h, fun pos => rfl, fun pos _ => rfl, fun pos c hc => ?_⟩
    · exact Int.le_of_lt hsize.1
    · cases hc
  · cases r.ovflw <;> rfl
  · show N + ((0 : ℕ) : ℤ) = N + ((0 : ℕ) : ℤ) + ((0 : ℕ) : ℤ)
    omega

lemma Inv.step {m : FullMSHR} {e : FullEvent} (h : s.Inv N) (hs : (fullMachine m).step s e = .ok s') :
    s'.Inv N := by
  cases e with
  | request r =>
    obtain ⟨hr, -⟩ := check_bind_eq_ok.1 hs
    obtain ⟨t, ht, hinv⟩ := h.request hr
    cases ht.symm.trans hs
    exact hinv
  | retire r =>
    obtain ⟨hr, -⟩ := check_bind_eq_ok.1 hs
    obtain ⟨t, ht, hinv⟩ := h.retire hr
    cases ht.symm.trans hs
    exact hinv
  | callbackReturns =>
    have hstack : s.stack ≠ [] := by
      intro hnil
      change s.callbackReturns = _ at hs
      rw [FullState.callbackReturns, hnil] at hs
      cases hs
    obtain ⟨t, ht, hinv⟩ := h.callbackReturns hstack
    cases ht.symm.trans hs
    exact hinv

/-- No assertion fails. -/
lemma Inv.step_ne_assertion {m : FullMSHR} {e : FullEvent} (h : s.Inv N) :
    (fullMachine m).step s e ≠ .error .assertion := by
  intro hs
  cases e with
  | request r =>
    by_cases hr : r ∈ s.asked
    · cases (check_bind_of_not (not_not.2 hr)).symm.trans hs
    · obtain ⟨t, ht, -⟩ := h.request hr
      cases ht.symm.trans hs
  | retire r =>
    by_cases hr : r ∈ s.outstanding
    · obtain ⟨t, ht, -⟩ := h.retire hr
      cases ht.symm.trans hs
    · cases (check_bind_of_not hr).symm.trans hs
  | callbackReturns =>
    by_cases hstack : s.stack = []
    · change s.callbackReturns = _ at hs
      rw [FullState.callbackReturns, hstack] at hs
      cases hs
    · obtain ⟨t, ht, -⟩ := h.callbackReturns hstack
      cases ht.symm.trans hs

/-! ## What becomes of the requests -/

/-- The requests that have an entry or wait for one that is theirs, and are not retired. -/
def admitted (s : FullState) : List Request :=
  s.asked.filter fun r => r ∉ s.mshr.overflow ∧ r ∉ s.retired

/-- How often `issue` granted the request and how often its callbacks were called, and how often they were
destroyed or are going to be by a running function. -/
def history (s : FullState) (r : Request) : (ℕ × ℕ × ℕ) × ℕ × ℕ :=
  ((s.issued.count r, s.called.count (.cb r), s.called.count (.ovflwcb r)),
    s.destroyed.count (.cb r) + s.doomed.count (.cb r),
    s.destroyed.count (.ovflwcb r) + s.doomed.count (.ovflwcb r))

/-- The request is granted once: it was issued, or one of its callbacks is called and the other, if there is
one, is destroyed. -/
def GrantedOnce (s : FullState) (r : Request) : Prop :=
  s.history r = ((1, 0, 0), 0, 0) ∨
  s.history r = ((0, 1, 0), 0, if r.ovflw then 1 else 0) ∨
  (r.ovflw = true ∧ s.history r = ((0, 0, 1), 1, 0))

lemma Inv.count_asked (h : s.Inv N) (hr : r ∈ s.asked) : s.asked.count r = 1 :=
  List.count_eq_one_of_mem h.fresh hr

lemma Inv.perm_admitted (h : s.Inv N) :
    s.asked.Perm (s.admitted ++ (s.mshr.overflow ++ s.retired)) := by
  refine List.perm_iff_count.2 fun r => ?_
  have hplaced := h.placed r
  have hgranted := h.granted r
  have hle : s.asked.count r ≤ 1 := List.nodup_iff_count_le_one.1 h.fresh r
  rw [List.count_append, List.count_append]
  by_cases hr : r ∉ s.mshr.overflow ∧ r ∉ s.retired
  · have hcount : s.admitted.count r = s.asked.count r := List.count_filter (by simpa using hr)
    rw [hcount, List.count_eq_zero_of_not_mem hr.1, List.count_eq_zero_of_not_mem hr.2]
    rfl
  · have hcount : s.admitted.count r = 0 := by
      refine List.count_eq_zero_of_not_mem fun hmem => hr ?_
      simpa using (List.mem_filter.1 hmem).2
    have hone : 0 < s.mshr.overflow.count r + s.retired.count r := by
      by_contra hzero
      refine hr ⟨fun hmem => ?_, fun hmem => ?_⟩
      · have := List.count_pos_iff.2 hmem
        omega
      · have := List.count_pos_iff.2 hmem
        omega
    omega

/-- The entries that are not free are as many as the admitted requests. -/
lemma Inv.used (h : s.Inv N) : s.mshr.nEntries - s.mshr.nFreeEntries = s.admitted.length := by
  have hlength := h.perm_admitted.length_eq
  have hfree := h.free
  rw [List.length_append, List.length_append] at hlength
  omega

/-- A request of an owner of an entry is granted once. -/
lemma Inv.grantedOnce (h : s.Inv N) (hr : r ∈ s.asked) (hover : r ∉ s.mshr.overflow)
    (hwait : s.mshr.waiting r = 0) : s.GrantedOnce r := by
  have hplaced := h.placed r
  have hcbs := h.cbs r
  have hovflwcbs := h.ovflwcbs r
  rw [h.count_asked hr, List.count_eq_zero_of_not_mem hover, hwait, grants] at hplaced
  rw [hwait] at hovflwcbs
  unfold GrantedOnce history
  rw [hcbs, hovflwcbs]
  have hcases : (s.issued.count r = 1 ∧ s.called.count (.cb r) = 0 ∧ s.called.count (.ovflwcb r) = 0) ∨
      (s.issued.count r = 0 ∧ s.called.count (.cb r) = 1 ∧ s.called.count (.ovflwcb r) = 0) ∨
      (s.issued.count r = 0 ∧ s.called.count (.cb r) = 0 ∧ s.called.count (.ovflwcb r) = 1) := by
    omega
  rcases hcases with ⟨h₁, h₂, h₃⟩ | ⟨h₁, h₂, h₃⟩ | ⟨h₁, h₂, h₃⟩
  · refine .inl ?_
    rw [h₁, h₂, h₃]
    simp
  · refine .inr (.inl ?_)
    rw [h₁, h₂, h₃]
  · have hovflw : r.ovflw = true := by
      cases hovflw : r.ovflw with
      | true => rfl
      | false => exact absurd ((h.noOvflwcb r hovflw).symm.trans h₃) Nat.zero_ne_one
    refine .inr (.inr ⟨hovflw, ?_⟩)
    rw [h₁, h₂, h₃, hovflw]
    rfl

/-- When nothing runs and all granted requests are retired, nothing is left. -/
lemma Inv.settled (h : s.Inv N) (hN : 0 < N) (hstack : s.stack = []) (hout : s.outstanding = []) :
    (∀ pos, s.mshr.entry pos = ⟨[], false⟩) ∧ s.mshr.overflow = [] ∧
      s.mshr.nFreeEntries = s.mshr.nEntries ∧
      ∀ r ∈ s.asked, s.GrantedOnce r ∧ r ∈ s.retired := by
  have hidle : ∀ pos, s.mshr.entry pos = ⟨[], false⟩ := by
    intro pos
    have howned := h.sound.owned pos
    have hnone : s.owners pos = 0 := by
      rw [owners, hstack, hout]
      rfl
    cases huse : (s.mshr.entry pos).inUse with
    | true =>
      rw [hnone, huse] at howned
      cases howned
    | false => exact EntryType.ext (h.sound.idle pos huse) huse
  have hwait : ∀ r, s.mshr.waiting r = 0 := by
    intro r
    rw [FullMSHR.waiting, hidle]
    rfl
  have hadmitted : s.admitted = [] := by
    refine List.eq_nil_iff_forall_not_mem.2 fun r hr => ?_
    obtain ⟨hasked, hmem⟩ := List.mem_filter.1 hr
    obtain ⟨hover, hretired⟩ := of_decide_eq_true hmem
    have hplaced := h.placed r
    rw [h.count_asked hasked, h.granted, hwait, hout, List.count_eq_zero_of_not_mem hover,
      List.count_eq_zero_of_not_mem hretired] at hplaced
    cases hplaced
  have hused := h.used
  rw [hadmitted, List.length_nil] at hused
  have hfree : s.mshr.nFreeEntries = s.mshr.nEntries := by omega
  have hnil : s.mshr.overflow = [] := by
    by_contra hne
    have := h.sound.full hne
    have := h.size
    omega
  refine ⟨hidle, hnil, hfree, fun r hr => ?_⟩
  have hover : r ∉ s.mshr.overflow := by
    rw [hnil]
    exact List.not_mem_nil
  refine ⟨h.grantedOnce hr hover (hwait r), ?_⟩
  have hmem := (h.perm_admitted.mem_iff).1 hr
  rw [hadmitted, hnil] at hmem
  exact hmem

/-! ## The number of calls that are left -/

/-- How many more times a frame may come back. -/
def weight : Frame → ℕ
  | .retireEntry _ _ => 2
  | .leave => 1

def weights : List Frame → ℕ
  | [] => 0
  | frame :: stack => weight frame + weights stack

/-- A bound for the number of steps without a new request. -/
def work (s : FullState) : ℕ :=
  3 * (s.asked.length - s.retired.length) + weights s.stack

lemma Inv.retired_le (h : s.Inv N) : s.mshr.overflow.length + s.retired.length ≤ s.asked.length := by
  have hlength := h.perm_admitted.length_eq
  rw [List.length_append, List.length_append] at hlength
  omega

/-- What the functions do to the numbers that `work` depends on. -/
structure Works (s s' : FullState) (n : ℕ) : Prop where
  asked : s'.asked = s.asked
  retired : s'.retired = s.retired
  stack : weights s'.stack ≤ weights s.stack + n

lemma retireEntry_works {paddr : Addr} (h : s.retireEntry paddr = .ok s') : s.Works s' 1 := by
  obtain ⟨⟨mshr, called, released⟩, -, h⟩ := bind_eq_ok.1 h
  cases called with
  | none =>
    cases h
    exact ⟨rfl, rfl, Nat.le_add_right _ _⟩
  | some c =>
    cases h
    refine ⟨rfl, rfl, ?_⟩
    show weights (.leave :: s.stack) ≤ _
    rw [weights, weight]
    omega

lemma callbackReturns_works (h : s.callbackReturns = .ok s') :
    s'.asked = s.asked ∧ s'.retired = s.retired ∧
      weights s'.stack < weights s.stack := by
  unfold callbackReturns at h
  split at h
  · cases h
  · rename_i stack hstack
    cases h
    refine ⟨rfl, rfl, ?_⟩
    rw [hstack, weights, weight]
    dsimp only
    omega
  · rename_i paddr d stack hstack
    have hworks := retireEntry_works h
    refine ⟨hworks.asked, hworks.retired, ?_⟩
    have hle := hworks.stack
    rw [hstack, weights, weight]
    dsimp only at hle
    omega

lemma retire_works (h : s.retire r = .ok s') : s'.asked = s.asked ∧ s'.retired = r :: s.retired ∧
    weights s'.stack ≤ weights s.stack + 2 := by
  obtain ⟨-, h⟩ := check_bind_eq_ok.1 h
  obtain ⟨⟨mshr, ⟨called, d⟩⟩, -, h⟩ := bind_eq_ok.1 h
  cases called with
  | none =>
    have hworks := retireEntry_works h
    exact ⟨hworks.asked, hworks.retired, hworks.stack.trans (Nat.le_succ _)⟩
  | some c =>
    cases h
    refine ⟨rfl, rfl, ?_⟩
    show weights (.retireEntry r.paddr d :: s.stack) ≤ _
    rw [weights, weight]
    omega

/-- The steps other than requests come to an end. -/
lemma Inv.work_lt {m : FullMSHR} {e : FullEvent} (h : s.Inv N) (he : ∀ r, e ≠ .request r)
    (hs : (fullMachine m).step s e = .ok s') : s'.work < s.work := by
  have hle := (h.step hs).retired_le
  cases e with
  | request r => exact absurd rfl (he r)
  | retire r =>
    obtain ⟨hasked, hretired, hstack⟩ := retire_works hs
    rw [hasked, hretired, List.length_cons] at hle
    rw [work, work, hasked, hretired, List.length_cons]
    omega
  | callbackReturns =>
    obtain ⟨hasked, hretired, hstack⟩ := callbackReturns_works hs
    rw [work, work, hasked, hretired]
    omega

lemma Inv.exec_length {m : FullMSHR} {es : List FullEvent} (h : s.Inv N)
    (hes : ∀ e ∈ es, ∀ r, e ≠ .request r) (hex : (fullMachine m).exec s es = .ok s') :
    es.length ≤ s.work := by
  induction es generalizing s with
  | nil => exact Nat.zero_le _
  | cons e es ih =>
    obtain ⟨t, ht, hex⟩ := Machine.exec_cons.1 hex
    have hlt := h.work_lt (hes e List.mem_cons_self) ht
    have hle := ih (h.step ht) (fun e' he' => hes e' (List.mem_cons_of_mem _ he')) hex
    rw [List.length_cons]
    omega

end FullState

/-! ## Conservation -/

/-- What is conserved: no assertion fails; the free entries are those that no admitted request has; a request
is granted at most once; without new requests everything comes to an end, and then every request was
granted once and everything is free. -/
structure Conserved (m : FullMSHR) (s : FullState) : Prop where
  noAssertion : ∀ e, (fullMachine m).step s e ≠ .error .assertion
  free : 0 ≤ s.mshr.nFreeEntries ∧ s.mshr.nFreeEntries ≤ m.nEntries
  used : m.nEntries - s.mshr.nFreeEntries = s.admitted.length
  atMostOnce : ∀ r, s.grants r ≤ 1
  placed : ∀ r ∈ s.asked, r ∈ s.mshr.overflow ∨
    .cb r ∈ (s.mshr.entry (s.mshr.calcEntry r.paddr)).cc ∨ s.GrantedOnce r
  ends : ∃ n : ℕ, ∀ es s', (∀ e ∈ es, ∀ r, e ≠ .request r) →
    (fullMachine m).exec s es = .ok s' → es.length ≤ n
  goesOn : s.stack ≠ [] ∨ s.outstanding ≠ [] →
    ∃ e s', (∀ r, e ≠ .request r) ∧ (fullMachine m).step s e = .ok s'
  settled : s.stack = [] → s.outstanding = [] →
    (∀ pos, s.mshr.entry pos = ⟨[], false⟩) ∧ s.mshr.overflow = [] ∧
      s.mshr.nFreeEntries = m.nEntries ∧ ∀ r ∈ s.asked, s.GrantedOnce r ∧ r ∈ s.retired

/-- Requests and entries are conserved. -/
theorem FullMSHR.conserves_requests (size : ℤ) (lineSize : ℕ) {m : FullMSHR} {s : FullState}
    (hnew : FullMSHR.new size lineSize = .ok m) (hs : (fullMachine m).Reachable s) :
    Conserved m s := by
  obtain ⟨hsize, hinit⟩ := FullState.Inv.new hnew
  have h : s.Inv size := Machine.Reachable.invariant (I := fun s => s.Inv size) hs hinit
    fun s e s' hinv hstep => FullState.Inv.step hinv hstep
  have hentries : s.mshr.nEntries = m.nEntries := h.size.trans hinit.size.symm
  have hused := h.used
  rw [hentries] at hused
  refine ⟨fun e => h.step_ne_assertion, ⟨h.sound.nonneg, by omega⟩, hused, fun r => ?_,
    fun r hr => ?_, ⟨s.work, fun es s' hes hex => h.exec_length hes hex⟩, fun hmore => ?_,
    fun hstack hout => ?_⟩
  · have hplaced := h.placed r
    have hle := List.nodup_iff_count_le_one.1 h.fresh r
    omega
  · by_cases hover : r ∈ s.mshr.overflow
    · exact .inl hover
    · by_cases hwait : s.mshr.waiting r = 0
      · exact .inr (.inr (h.grantedOnce hr hover hwait))
      · exact .inr (.inl (List.count_pos_iff.1 (Nat.pos_of_ne_zero hwait)))
  · by_cases hstack : s.stack = []
    · obtain ⟨r, hr⟩ := List.exists_mem_of_ne_nil _ (hmore.resolve_left (not_not.2 hstack))
      obtain ⟨s', hs', -⟩ := h.retire hr
      exact ⟨.retire r, s', fun r' => FullEvent.noConfusion, hs'⟩
    · obtain ⟨s', hs', -⟩ := h.callbackReturns hstack
      exact ⟨.callbackReturns, s', fun r' => FullEvent.noConfusion, hs'⟩
  · rw [← hentries]
    exact h.settled hsize hstack hout

/-- Two lines share an entry and a third request overflows; the first one is retired. -/
def sharedEntry : List FullEvent :=
  [.request ⟨0, 0, .MemRead, true⟩, .request ⟨1, 256, .MemRead, true⟩,
    .request ⟨2, 32, .MemWrite, true⟩, .retire ⟨0, 0, .MemRead, true⟩, .callbackReturns]

/-- The overflow callback of the third request is called, and then the second request is granted. -/
theorem FullMSHR.conserves_sharedEntry : ∃ m s, FullMSHR.new 2 32 = .ok m ∧
    (fullMachine m).exec (fullMachine m).init sharedEntry = .ok s ∧
    s.called = [.cb ⟨1, 256, .MemRead, true⟩, .ovflwcb ⟨2, 32, .MemWrite, true⟩] ∧
    Conserved m s := by
  refine ⟨_, _, rfl, rfl, rfl, ?_⟩
  exact FullMSHR.conserves_requests 2 32 rfl ⟨sharedEntry, Machine.run_of_exec rfl⟩

end Sesc.Mshr
