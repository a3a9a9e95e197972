import Sesc.Timing.Invariant

/-!
# What the functions of the queue do

`insert` adds a callback, and `nextJob` finds one that is due if there is one.
-/

namespace Sesc.Timing.TQueue

open Lib

variable {P : TooFar} {q q' : TQueue P} {n : Node} {cTime : ℕ}

/-- The callbacks are where their times say; the heap need not have been adjusted. -/
structure Held (q : TQueue P) : Prop where
  ring : q.Ring
  far : ∀ n ∈ q.far, q.minTime ≤ n.time ∧ n.time < q.minTime + wordRange
  nodup : (q.pending.map Node.callback).Nodup
  qType : ∀ c, q.qType c ≠ .inNoQueue ↔ c ∈ q.pending.map Node.callback

/-- `minTooFar` is no later than the callbacks that are too far. -/
structure Inv (q : TQueue P) : Prop extends q.Held where
  minTooFar_le : ∀ n ∈ q.far, q.minTooFar ≤ n.time
  minTooFar_of_nil : q.far = [] → q.minTooFar = maxTime

lemma mem_pending : n ∈ q.pending ↔ n ∈ q.near ∨ n ∈ q.far := List.mem_append

lemma size_eq (hq : q.Ring) : q.size = q.pending.length := by
  rw [TQueue.size, hq.nNodes, pending, List.length_append]
  rfl

lemma empty_iff (hq : q.Ring) : q.empty = true ↔ q.pending = [] := by
  rw [← List.length_eq_zero_iff, ← size_eq hq, TQueue.empty, TQueue.size, Bool.and_eq_true,
    decide_eq_true_eq, decide_eq_true_eq]
  omega

/-! ## Adding a callback -/

lemma addNode_eq (hq : q.Ring) (hle : q.minTime ≤ n.time)
    (hlt : n.time < q.minTime + q.accessSize) : q.addNode n = .ok (q.append n) := by
  have hword : n.time < q.minTime + wordRange :=
    Nat.lt_of_lt_of_le hlt (Nat.add_le_add_left (Nat.le_trans (by omega) hq.size.le) _)
  have hmagnitude : magnitude (ticksBetween n.time q.minTime) < q.accessSize := by
    have hsize := hq.size.le
    rw [ticksBetween_eq hle hword, magnitude_eq (by omega)]
    omega
  rw [addNode, check_bind hle, check_bind hmagnitude]
  rfl

/-- A callback that is not in the queue is added to those that are. -/
lemma Held.of_perm (hq : q.Held) (hring : q'.Ring) (hperm : q'.pending.Perm (n :: q.pending))
    (hfar : ∀ m ∈ q'.far, q'.minTime ≤ m.time ∧ m.time < q'.minTime + wordRange)
    (hfree : n.callback ∉ q.pending.map Node.callback) {t : QueueType} (ht : t ≠ .inNoQueue)
    (hqType : q'.qType = Function.update q.qType n.callback t) : q'.Held := by
  have hmap := hperm.map Node.callback
  rw [List.map_cons] at hmap
  refine ⟨hring, hfar, hmap.nodup_iff.2 (List.nodup_cons.2 ⟨hfree, hq.nodup⟩), fun c => ?_⟩
  rw [hmap.mem_iff, List.mem_cons, hqType]
  by_cases hc : c = n.callback
  · subst hc
    rw [Function.update_self]
    exact iff_of_true ht (.inl rfl)
  · rw [Function.update_of_ne hc, or_iff_right hc]
    exact hq.qType c

/-- The callback is in the ring. -/
lemma Inv.append (hq : q.Inv) (hle : q.minTime ≤ n.time)
    (hlt : n.time < q.minTime + q.accessSize) (hfree : n.callback ∉ q.pending.map Node.callback) :
    (q.append n).Inv ∧ (q.append n).pending.Perm (n :: q.pending) := by
  obtain ⟨hring, hnear⟩ := hq.ring.append hle hlt
  have hperm : (q.append n).pending.Perm (n :: q.pending) := hnear.append_right q.far
  have hheld := hq.toHeld.of_perm hring hperm hq.far hfree (by decide) rfl
  exact ⟨⟨hheld, hq.minTooFar_le, hq.minTooFar_of_nil⟩, hperm⟩

/-- The callback is too far. -/
lemma Inv.pushTooFar (hq : q.Inv) (hle : q.minTime ≤ n.time)
    (hlt : n.time < q.minTime + wordRange) (hfree : n.callback ∉ q.pending.map Node.callback) :
    (q.pushTooFar n).Inv ∧ (q.pushTooFar n).pending.Perm (n :: q.pending) := by
  have hpush : (q.pushTooFar n).far.Perm (n :: q.far) := P.toList_push q.tooFar n
  have hperm : (q.pushTooFar n).pending.Perm (n :: q.pending) :=
    (hpush.append_left q.near).trans List.perm_middle
  have hmem : ∀ m ∈ (q.pushTooFar n).far, m = n ∨ m ∈ q.far := fun m hm =>
    List.mem_cons.1 (hpush.mem_iff.1 hm)
  have hfar : ∀ m ∈ (q.pushTooFar n).far, q.minTime ≤ m.time ∧ m.time < q.minTime + wordRange := by
    intro m hm
    rcases hmem m hm with rfl | hm
    · exact ⟨hle, hlt⟩
    · exact hq.far m hm
  have hring : (q.pushTooFar n).Ring :=
    ⟨hq.ring.size, hq.ring.minPos_lt, hq.ring.slots, hq.ring.nNodes⟩
  have hheld : (q.pushTooFar n).Held := hq.toHeld.of_perm hring hperm hfar hfree (by decide) rfl
  refine ⟨⟨hheld, fun m hm => ?_, fun hnil => ?_⟩, hperm⟩
  · show min q.minTooFar n.time ≤ m.time
    rcases hmem m hm with rfl | hm
    · exact Nat.min_le_right _ _
    · exact Nat.le_trans (Nat.min_le_left _ _) (hq.minTooFar_le m hm)
  · rw [hnil] at hpush
    cases hpush.symm.eq_nil

/-- `insert` adds a callback whose time is less than 2^32 ticks ahead of `minTime`. -/
theorem Inv.insert (hq : q.Inv) (hfree : n.callback ∉ q.pending.map Node.callback)
    (hle : q.minTime ≤ n.time) (hlt : n.time < q.minTime + wordRange) :
    ∃ q', q.insert n = .ok q' ∧ q'.Inv ∧ q'.pending.Perm (n :: q.pending) ∧
      q'.minTime = q.minTime := by
  have hqType : q.qType n.callback = .inNoQueue := by
    by_contra h
    exact hfree ((hq.qType n.callback).1 h)
  have hinsert : q.insert n = if ticksBetween n.time q.minTime < q.accessSize then q.addNode n
      else .ok (q.pushTooFar n) := by
    rw [TQueue.insert, check_bind hqType, check_bind hle]
  rw [hinsert, ticksBetween_eq hle hlt]
  split
  · have hnear : n.time < q.minTime + q.accessSize := by omega
    obtain ⟨hinv, hperm⟩ := hq.append hle hnear hfree
    exact ⟨_, addNode_eq hq.ring hle hnear, hinv, hperm, rfl⟩
  · obtain ⟨hinv, hperm⟩ := hq.pushTooFar hle hlt hfree
    exact ⟨_, rfl, hinv, hperm, rfl⟩

/-! ## The heap -/

lemma Held.setMinTooFar {time : ℕ} (hq : q.Held) (hle : ∀ n ∈ q.far, time ≤ n.time)
    (hnil : q.far = [] → time = maxTime) : (q.setMinTooFar time).Inv :=
  ⟨⟨⟨hq.ring.size, hq.ring.minPos_lt, hq.ring.slots, hq.ring.nNodes⟩, hq.far, hq.nodup, hq.qType⟩,
    hle, hnil⟩

/-- A callback is moved from the heap into the ring. -/
lemma Held.move (hq : q.Held) (hfront : P.front q.tooFar = some n)
    (hlt : n.time < q.minTime + q.accessSize) :
    (q.append n).popTooFar.Held ∧ (q.append n).popTooFar.pending.Perm q.pending := by
  have hmem : n ∈ q.far := P.mem_of_front hfront
  obtain ⟨hring, hnear⟩ := hq.ring.append (hq.far n hmem).1 hlt
  have hfar : q.far.Perm (n :: P.toList (P.pop q.tooFar)) := P.toList_pop q.tooFar n hfront
  have hperm : (q.append n).popTooFar.pending.Perm q.pending := by
    have hleft := hnear.append_right (P.toList (P.pop q.tooFar))
    have hright := hfar.symm.append_left q.near
    exact (hleft.trans List.perm_middle.symm).trans hright
  have hmap := hperm.map Node.callback
  refine ⟨⟨⟨hring.size, hring.minPos_lt, hring.slots, hring.nNodes⟩, fun m hm => ?_,
    hmap.nodup_iff.2 hq.nodup, fun c => ?_⟩, hperm⟩
  · exact hq.far m (P.mem_of_mem_pop hfront hm)
  · rw [hmap.mem_iff, ← hq.qType c]
    show Function.update q.qType n.callback .inFastQueue c ≠ _ ↔ _
    by_cases hc : c = n.callback
    · subst hc
      rw [Function.update_self, hq.qType]
      exact iff_of_true (by decide) (List.mem_map_of_mem (mem_pending.2 (.inr hmem)))
    · rw [Function.update_of_ne hc]

/-- The loop moves the callbacks that are near enough. -/
lemma Held.adjustLoop {k : ℕ} (hq : q.Held) (hk : P.size q.tooFar ≤ k) :
    ∃ q', adjustLoop k q = .ok q' ∧ q'.Inv ∧ q'.pending.Perm q.pending ∧
      q'.minTime = q.minTime ∧ ∀ n ∈ q'.far, q.minTime + q.accessSize ≤ n.time := by
  -- the heap is empty
  have hdone {q : TQueue P} (hq : q.Held) (hnil : q.far = []) : (q.setMinTooFar maxTime).Inv ∧
      ∀ n ∈ q.far, q.minTime + q.accessSize ≤ n.time := by
    have hnone : ∀ n, n ∉ q.far := by
      intro n hn
      rw [hnil] at hn
      cases hn
    exact ⟨hq.setMinTooFar (fun n hn => absurd hn (hnone n)) fun _ => rfl,
      fun n hn => absurd hn (hnone n)⟩
  induction k generalizing q with
  | zero =>
    obtain ⟨hinv, hfar⟩ := hdone hq (List.eq_nil_of_length_eq_zero (Nat.le_zero.1 hk))
    exact ⟨_, rfl, hinv, .refl _, rfl, hfar⟩
  | succ k ih =>
    rw [TQueue.adjustLoop]
    split
    · rename_i hfront
      obtain ⟨hinv, hfar⟩ := hdone hq (P.toList_of_front q.tooFar hfront)
      exact ⟨_, rfl, hinv, .refl _, rfl, hfar⟩
    · rename_i n hfront
      have hmem : n ∈ q.far := P.mem_of_front hfront
      obtain ⟨hle, hword⟩ := hq.far n hmem
      rw [ticksBetween_eq hle hword]
      split
      · -- the front is near enough
        have hlt : n.time < q.minTime + q.accessSize := by omega
        obtain ⟨hheld, hperm⟩ := hq.move hfront hlt
        have hsize : P.size (P.pop q.tooFar) ≤ k := by
          have hlen := (P.toList_pop q.tooFar n hfront).length_eq
          rw [List.length_cons] at hlen
          rw [PriorityQueue.size] at hk ⊢
          omega
        rw [addNode_eq hq.ring hle hlt, ok_bind]
        obtain ⟨q', hq', hinv, hperm', htime, hfar⟩ := ih hheld hsize
        exact ⟨q', hq', hinv, hperm'.trans hperm, htime, hfar⟩
      · -- the others are no nearer than the front
        have hfar : ∀ m ∈ q.far, n.time ≤ m.time := P.key_le q.tooFar n hfront
        refine ⟨_, rfl, hq.setMinTooFar hfar fun hnil => ?_, .refl _, rfl, fun m hm => ?_⟩
        · rw [hnil] at hmem
          cases hmem
        · have hmle := hfar m hm
          omega

/-- Once the heap has been adjusted no callback in it is due. -/
lemma Inv.adjusted (hq : q.Inv) (hlt : cTime < q.minTime + q.accessSize) (hmax : cTime < maxTime) :
    ∃ q', q.adjusted cTime = .ok q' ∧ q'.Inv ∧ q'.pending.Perm q.pending ∧
      q'.minTime = q.minTime ∧ ∀ n ∈ q'.far, cTime < n.time := by
  rw [TQueue.adjusted]
  split
  · rename_i hle
    have hsize : P.size q.tooFar ≠ 0 := by
      intro hsize
      rw [hq.minTooFar_of_nil (List.eq_nil_of_length_eq_zero hsize)] at hle
      omega
    rw [adjustTooFar, check_bind hsize]
    obtain ⟨q', hq', hinv, hperm, htime, hfar⟩ := hq.toHeld.adjustLoop (Nat.le_refl _)
    exact ⟨q', hq', hinv, hperm, htime, fun n hn => Nat.lt_of_lt_of_le hlt (hfar n hn)⟩
  · rename_i hgt
    exact ⟨q, rfl, hq, .refl _, rfl, fun n hn =>
      Nat.lt_of_lt_of_le (Nat.not_le.1 hgt) (hq.minTooFar_le n hn)⟩

/-! ## The next callback -/

/-- What `nextJob` answers when the callbacks `l` are in the queue, and what it leaves there: one
that is due, or none. -/
def Answer (cTime : ℕ) (l : List Node) : Option Node → List Node → Prop
  | some n, l' => n.time = cTime ∧ l.Perm (n :: l')
  | none, l' => (∀ n ∈ l, n.time ≠ cTime) ∧ l'.Perm l

lemma Answer.of_perm {l₀ l l' : List Node} {answer : Option Node} (h : Answer cTime l answer l')
    (hl : l.Perm l₀) : Answer cTime l₀ answer l' := by
  cases answer with
  | none => exact ⟨fun n hn => h.1 n (hl.mem_iff.2 hn), h.2.trans hl⟩
  | some n => exact ⟨h.1, hl.symm.trans h.2⟩

/-- The first callback of the slot is taken. -/
lemma Inv.take (hq : q.Inv) (hne : q.access q.minPos ≠ []) :
    ∃ n q', q.take = (some n, q') ∧ q'.Inv ∧ q'.minTime = q.minTime ∧ n.time = q.minTime ∧
      q.pending.Perm (n :: q'.pending) := by
  obtain ⟨n, q', htake, hmem, hq'⟩ := hq.ring.take hne
  have hsame : q'.far = q.far := congrArg P.toList hq'.tooFar
  have hperm : q.pending.Perm (n :: q'.pending) := by
    have happend := hq'.near.append_right q.far
    rw [← hsame] at happend
    rw [pending, ← hsame]
    exact happend
  have hmap := hperm.map Node.callback
  obtain ⟨hnot, hnodup⟩ := List.nodup_cons.1 (hmap.nodup_iff.1 hq.nodup)
  refine ⟨n, q', htake, ⟨⟨hq'.ring, ?_, hnodup, fun c => ?_⟩, ?_, ?_⟩, hq'.minTime,
    hq.ring.time_eq hmem, hperm⟩
  · rw [hsame, hq'.minTime]
    exact hq.far
  · rw [hq'.qType]
    by_cases hc : c = n.callback
    · subst hc
      rw [Function.update_self]
      exact iff_of_false (fun h => h rfl) hnot
    · rw [Function.update_of_ne hc, hq.qType, hmap.mem_iff, List.map_cons, List.mem_cons,
        or_iff_right hc]
  · rw [hsame, hq'.minTooFar]
    exact hq.minTooFar_le
  · rw [hsame, hq'.minTooFar]
    exact hq.minTooFar_of_nil

/-- `minTime` passes a tick for which there is no callback. -/
lemma Inv.advance (hq : q.Inv) (hnil : q.access q.minPos = [])
    (hlt : ∀ n ∈ q.far, q.minTime < n.time) : q.advance.Inv where
  ring := hq.ring.advance hnil
  far n hn := ⟨hlt n hn, (Nat.lt_succ_of_lt (hq.far n hn).2).trans_eq (Nat.succ_add _ _).symm⟩
  nodup := hq.nodup
  qType := hq.qType
  minTooFar_le := hq.minTooFar_le
  minTooFar_of_nil := hq.minTooFar_of_nil

/-- The loop over the slots ends at a callback, or at the current time. -/
lemma Inv.walk {k : ℕ} (hq : q.Inv) (hk : q.minTime + k = cTime)
    (hfar : ∀ n ∈ q.far, cTime < n.time) :
    (walk k q).Inv ∧ (walk k q).near = q.near ∧ (walk k q).far = q.far ∧
      (walk k q).nNodes = q.nNodes ∧ (walk k q).minTime ≤ cTime ∧
      ((walk k q).access (walk k q).minPos = [] → (walk k q).minTime = cTime) := by
  induction k generalizing q with
  | zero => exact ⟨hq, rfl, rfl, rfl, hk.le, fun _ => hk⟩
  | succ k ih =>
    rw [TQueue.walk]
    split
    · rename_i hnil
      have hadvance : q.advance.Inv := hq.advance hnil fun n hn => by
        have hn' := hfar n hn
        omega
      have hk' : q.advance.minTime + k = cTime := by
        show q.minTime + 1 + k = cTime
        omega
      exact ih hadvance hk' hfar
    · rename_i hne
      exact ⟨hq, rfl, rfl, rfl, by omega, fun hnil => absurd hnil hne⟩

/-- The callbacks that are left are for later ticks. -/
lemma Inv.search (hq : q.Inv) (hle : q.minTime ≤ cTime) (hdue : ∀ n ∈ q.pending, cTime ≤ n.time)
    (hfar : ∀ n ∈ q.far, cTime < n.time) :
    ∃ answer q', q.search cTime = .ok (answer, q') ∧ q'.Inv ∧ q'.minTime = cTime ∧
      Answer cTime q.pending answer q'.pending := by
  rw [TQueue.search]
  split
  · -- the ring is empty and begins anew
    rename_i hzero
    have hnil : q.near = [] := List.eq_nil_of_length_eq_zero (hq.ring.nNodes ▸ hzero)
    refine ⟨none, _, rfl, ⟨⟨hq.ring.restart hzero, fun n hn => ⟨(hfar n hn).le, ?_⟩, hq.nodup,
      hq.qType⟩, hq.minTooFar_le, hq.minTooFar_of_nil⟩, rfl, fun n hn => ?_, .refl _⟩
    · exact Nat.lt_of_lt_of_le (hq.far n hn).2 (Nat.add_le_add_right hle _)
    · rw [pending, hnil, List.nil_append] at hn
      exact Nat.ne_of_gt (hfar n hn)
  · rename_i hpos
    obtain ⟨hinv, hnear, hkept, hnNodes, hle', hend⟩ := hq.walk (Nat.add_sub_of_le hle) hfar
    have hsame : (TQueue.walk (cTime - q.minTime) q).pending = q.pending := by
      rw [pending, hnear, hkept, pending]
    rw [TQueue.serve]
    split
    · -- the slot of the current time is empty
      rename_i hnil
      have htime := hend hnil
      refine ⟨none, _, rfl, hinv, htime, fun n hn heq => ?_, hsame ▸ .refl _⟩
      rcases mem_pending.1 hn with hn | hn
      · rw [← hnear] at hn
        have hmem := hinv.ring.mem_access_minPos hn (heq.trans htime.symm)
        rw [hnil] at hmem
        cases hmem
      · exact absurd heq (Nat.ne_of_gt (hfar n hn))
    · rename_i hne
      obtain ⟨n, q', htake, hinv', htime', htime, hperm⟩ := hinv.take hne
      rw [hsame] at hperm
      have hcTime : n.time = cTime := by
        have hn := hdue n (hperm.mem_iff.2 (.head _))
        omega
      rw [check_bind hle', check_bind (hnNodes ▸ hpos), htake]
      exact ⟨some n, q', rfl, hinv', htime'.trans (htime.symm.trans hcTime), hcTime, hperm⟩

/-- `nextJob` answers a callback that is due if there is one. -/
theorem Inv.nextJob (hq : q.Inv) (hle : q.minTime ≤ cTime) (hlt : cTime < q.minTime + q.accessSize)
    (hmax : cTime < maxTime) (hdue : ∀ n ∈ q.pending, cTime ≤ n.time) :
    ∃ answer q', q.nextJob cTime = .ok (answer, q') ∧ q'.Inv ∧ q'.minTime = cTime ∧
      Answer cTime q.pending answer q'.pending := by
  rw [TQueue.nextJob]
  split
  · rename_i hcommon
    obtain ⟨hne, htime⟩ := hcommon
    obtain ⟨n, q', htake, hinv, htime', hn, hperm⟩ := hq.take hne
    exact ⟨some n, q', congrArg _ htake, hinv, htime'.trans htime, hn.trans htime, hperm⟩
  · obtain ⟨q₁, hadjusted, hinv, hperm, htime, hfar⟩ := hq.adjusted hlt hmax
    have hdue' : ∀ n ∈ q₁.pending, cTime ≤ n.time := fun n hn => hdue n (hperm.mem_iff.1 hn)
    obtain ⟨answer, q', hsearch, hinv', htime', hanswer⟩ :=
      hinv.search (htime ▸ hle) hdue' hfar
    rw [hadjusted, ok_bind]
    exact ⟨answer, q', hsearch, hinv', htime', hanswer.of_perm hperm⟩

end Sesc.Timing.TQueue
