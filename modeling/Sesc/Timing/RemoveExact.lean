import Sesc.Timing.LastLinks

/-!
# When `remove` is exact

What may be asked of a queue after `remove` is what may be asked of one in which the callback has
never been.  This is so if it was the first one of the slot of `minTime`; in all other cases it
still reports that it is in the queue.
-/

namespace Sesc.Timing

open Lib

variable {P : ErasableTooFar}

namespace LinkedQueue

variable (q : LinkedQueue P)

/-- The calls that keep the callbacks in order: a time is less than 2^32 ticks ahead of `minTime`,
`nextJob` is called for a time that the ring reaches and not before all callbacks for earlier times
are done, and `remove` for the first callback of the slot of `minTime`, or for one that is in no
queue. -/
def Orderly : QueueCall → Prop
  | .insert _ time => time.toNat < q.queue.minTime + wordRange
  | .nextJob cTime => q.queue.minTime ≤ cTime.toNat ∧
      cTime.toNat < q.queue.minTime + q.queue.accessSize ∧ cTime.toNat < maxTime ∧
      ∀ n ∈ q.queue.pending, cTime.toNat ≤ n.time
  | .remove n => (q.queue.access q.queue.minPos).head? = some n ∨ q.isInQueue n = false

/-- The queue reports to have the callbacks `l`, and answers all orderly calls to come as a queue
that has these: `insert` adds one that is not there, `nextJob` returns one that is due, once, if
there is one, and `remove` takes one out. -/
def Serves : List QueueCall → List Node → LinkedQueue P → Prop
  | [], l, q => (∀ n, q.isInQueue n = true ↔ n.callback ∈ l.map Node.callback) ∧
      q.queue.size = l.length ∧ (q.queue.empty = true ↔ l = [])
  | .insert callback time :: es, l, q => q.Orderly (.insert callback time) →
      callback ∉ l.map Node.callback → q.queue.minTime ≤ time.toNat →
        ∃ q', q.insert ⟨callback, time.toNat⟩ = .ok q' ∧ Serves es (⟨callback, time.toNat⟩ :: l) q'
  | .nextJob cTime :: es, l, q => q.Orderly (.nextJob cTime) →
      ∃ answer q' l', q.nextJob cTime.toNat = .ok (answer, q') ∧ TQueue.Answer cTime.toNat l answer l' ∧
        Serves es l' q'
  | .remove n :: es, l, q => q.Orderly (.remove n) →
      ∃ q', q.remove n = .ok q' ∧ Serves es (l.erase n) q'

/-- After `remove` the callback reports that it is in no queue, and the queue serves the others. -/
def Exact (n : Node) : Prop :=
  ∃ q', q.remove n = .ok q' ∧ q'.isInQueue n = false ∧ ∀ es, Serves es (q.queue.pending.erase n) q'

/-- The queue is as it should be, with its last links and with what its callbacks report. -/
structure Inv : Prop where
  queue : q.queue.Inv
  linked : q.Linked
  flagged : q.queue.Flagged

end LinkedQueue

namespace LinkedQueue

variable {q q' : LinkedQueue P} {n : Node} {cTime : ℕ} {l : List Node} {es : List QueueCall}

lemma isInQueue_iff : q.isInQueue n = true ↔ q.queue.qType n.callback ≠ .inNoQueue :=
  decide_eq_true_iff

lemma isInQueue_eq_false : q.isInQueue n = false ↔ q.queue.qType n.callback = .inNoQueue := by
  rw [isInQueue, decide_eq_false_iff_not, not_not]

/-! ## What the calls do -/

lemma Inv.insert (hq : q.Inv) (hfree : n.callback ∉ q.queue.pending.map Node.callback)
    (hle : q.queue.minTime ≤ n.time) (hlt : n.time < q.queue.minTime + wordRange) :
    ∃ q', q.insert n = .ok q' ∧ q'.Inv ∧ q'.queue.pending.Perm (n :: q.queue.pending) := by
  obtain ⟨r, hinsert, hinv, hperm, -⟩ := hq.queue.insert hfree hle hlt
  have hflagged := hq.flagged.insert hq.queue.ring hlt hinsert
  obtain ⟨q', hq', rfl, hlinked⟩ := insert_gives hq.queue.toHeld hq.linked hinsert
  exact ⟨q', hq', ⟨hinv, hlinked, hflagged⟩, hperm⟩

lemma Inv.nextJob (hq : q.Inv) {cTime : UInt64} (h : q.Orderly (.nextJob cTime)) :
    ∃ answer q', q.nextJob cTime.toNat = .ok (answer, q') ∧ q'.Inv ∧
      TQueue.Answer cTime.toNat q.queue.pending answer q'.queue.pending := by
  obtain ⟨hle, hlt, hmax, hdue⟩ := h
  obtain ⟨answer, r, hnext, hinv, -, hanswer⟩ := hq.queue.nextJob hle hlt hmax hdue
  have hflagged := hq.flagged.nextJob hq.queue hle hlt hmax hnext
  obtain ⟨q', hq', rfl, hlinked⟩ := nextJob_gives hq.queue.toHeld hq.linked hnext
  exact ⟨answer, q', hq', ⟨hinv, hlinked, hflagged⟩, hanswer⟩

lemma Inv.isInQueue_iff (hq : q.Inv) :
    q.isInQueue n = true ↔ n.callback ∈ q.queue.pending.map Node.callback :=
  LinkedQueue.isInQueue_iff.trans (hq.queue.qType n.callback)

/-- The first callback of the slot of `minTime` is removed as `nextJob` would take it. -/
lemma Inv.remove_head (hq : q.Inv) (hhead : (q.queue.access q.queue.minPos).head? = some n) :
    ∃ q', q.remove n = .ok q' ∧ q'.Inv ∧ q.queue.pending.Perm (n :: q'.queue.pending) := by
  have hne : q.queue.access q.queue.minPos ≠ [] := by
    intro hnil
    rw [hnil] at hhead
    cases hhead
  have hmem : n ∈ q.queue.near :=
    TQueue.Ring.mem_near.2 ⟨_, hq.queue.ring.minPos_lt, List.mem_of_mem_head? hhead⟩
  obtain ⟨m, r, htake, hinv, -, -, hperm⟩ := hq.queue.take hne
  have hm : m = n := by
    rw [TQueue.take] at htake
    cases hslot : q.queue.access q.queue.minPos with
    | nil => exact absurd hslot hne
    | cons a rest =>
      rw [hslot] at htake hhead
      exact (Option.some.inj (congrArg Prod.fst htake)).symm.trans (Option.some.inj hhead)
  subst hm
  have hlinks := TQueue.lastLinks_take hq.linked
  have hflagged := hq.flagged.take hq.queue.toHeld
  rw [htake] at hlinks hflagged
  refine ⟨⟨r, q.accessTail⟩, ?_, ⟨hinv, hlinks, hflagged⟩, hperm⟩
  rw [remove, hq.flagged m hmem]
  show (if _ then _ else _) = _
  rw [if_pos hhead, htake]

/-- There is nothing to remove. -/
lemma remove_of_not_isInQueue (h : q.isInQueue n = false) : q.remove n = .ok q := by
  rw [remove, isInQueue_eq_false.1 h]

lemma Inv.notMem (hq : q.Inv) (h : q.isInQueue n = false) : n ∉ q.queue.pending := by
  intro hmem
  rw [hq.isInQueue_iff.2 (List.mem_map_of_mem hmem)] at h
  cases h

/-- An orderly `remove` takes the callback out of the queue if it is there. -/
lemma Inv.remove (hq : q.Inv) (h : q.Orderly (.remove n)) :
    ∃ q', q.remove n = .ok q' ∧ q'.Inv ∧ q'.queue.pending.Perm (q.queue.pending.erase n) := by
  rcases h with hhead | hout
  · obtain ⟨q', hq', hinv, hperm⟩ := hq.remove_head hhead
    have herase := hperm.erase n
    rw [List.erase_cons_head] at herase
    exact ⟨q', hq', hinv, herase.symm⟩
  · refine ⟨q, remove_of_not_isInQueue hout, hq, ?_⟩
    rw [List.erase_of_not_mem (hq.notMem hout)]

/-! ## What is asked of the queue -/

/-- A queue that is as it should be serves its callbacks, in whatever order they are listed. -/
lemma Inv.serves (hq : q.Inv) (hl : q.queue.pending.Perm l) : Serves es l q := by
  have hcallbacks := hl.map Node.callback
  induction es generalizing q l with
  | nil =>
    refine ⟨fun n => hq.isInQueue_iff.trans hcallbacks.mem_iff, ?_, ?_⟩
    · rw [TQueue.size_eq hq.queue.ring, hl.length_eq]
    · rw [TQueue.empty_iff hq.queue.ring]
      constructor
      · intro hnil
        exact (hnil ▸ hl).symm.eq_nil
      · intro hnil
        exact (hnil ▸ hl).eq_nil
  | cons e es ih =>
    cases e with
    | insert callback time =>
      intro hlt hfree hle
      have hfree' : callback ∉ q.queue.pending.map Node.callback := fun hmem =>
        hfree (hcallbacks.mem_iff.1 hmem)
      obtain ⟨q', hq', hinv, hperm⟩ := hq.insert (n := ⟨callback, time.toNat⟩) hfree' hle hlt
      have hl' := hperm.trans (hl.cons _)
      exact ⟨q', hq', ih hinv hl' (hl'.map _)⟩
    | nextJob cTime =>
      intro horderly
      obtain ⟨answer, q', hq', hinv, hanswer⟩ := hq.nextJob horderly
      exact ⟨answer, q', _, hq', hanswer.of_perm hl, ih hinv (.refl _) (.refl _)⟩
    | remove n =>
      intro horderly
      obtain ⟨q', hq', hinv, hperm⟩ := hq.remove horderly
      have hl' := hperm.trans (hl.erase n)
      exact ⟨q', hq', ih hinv hl' (hl'.map _)⟩

/-- In all other cases `remove` leaves the report of the callback as it is. -/
lemma qType_remove (hne : (q.queue.access q.queue.minPos).head? ≠ some n)
    (h : q.remove n = .ok q') : q'.queue.qType = q.queue.qType := by
  rw [LinkedQueue.remove] at h
  split at h
  · rw [removeTooFar] at h
    split at h
    · cases Except.ok.inj h
      rfl
    · obtain ⟨-, h⟩ := check_bind_eq_ok.1 h
      cases Except.ok.inj h
      rfl
  · rw [if_neg hne] at h
    obtain ⟨-, h⟩ := check_bind_eq_ok.1 h
    cases Except.ok.inj h
    rfl
  · cases Except.ok.inj h
    rfl

/-- `remove` of a callback in the queue is exact if and only if it is the first one of the slot of
`minTime`. -/
lemma Inv.exact_iff (hq : q.Inv) (hn : n ∈ q.queue.pending) :
    q.Exact n ↔ (q.queue.access q.queue.minPos).head? = some n := by
  constructor
  · rintro ⟨q', hq', hout, -⟩
    by_contra hne
    rw [isInQueue_eq_false, qType_remove hne hq'] at hout
    exact (hq.queue.qType n.callback).2 (List.mem_map_of_mem hn) hout
  · intro hhead
    obtain ⟨q', hq', hinv, hperm⟩ := hq.remove_head hhead
    have herase := hperm.erase n
    rw [List.erase_cons_head] at herase
    refine ⟨q', hq', ?_, fun es => hinv.serves herase.symm⟩
    have hnodup := (hperm.map Node.callback).nodup_iff.1 hq.queue.nodup
    obtain ⟨hnot, -⟩ := List.nodup_cons.1 hnodup
    rw [← Bool.not_eq_true, hinv.isInQueue_iff]
    exact hnot

/-- `reschedule` is `remove` and then `insert`, which makes the same assertion. -/
lemma reschedule_eq (rTime : ℕ) :
    q.reschedule n rTime = q.remove n >>= fun q' => q'.insert ⟨n.callback, rTime⟩ := by
  rw [reschedule]
  congr 1
  funext q'
  rw [LinkedQueue.insert]
  by_cases hqType : q'.queue.qType n.callback = .inNoQueue
  · rw [check_bind hqType]
  · simp only [check, decide_eq_false hqType, error_bind]

/-! ## Runs -/

lemma Inv.step (hq : q.Inv) {e : QueueCall} (he : q.Orderly e) (h : q.step e = .ok q') :
    q'.Inv := by
  cases e with
  | insert callback time =>
    obtain ⟨hqType, hrest⟩ := check_bind_eq_ok.1 h
    obtain ⟨hle, -⟩ := check_bind_eq_ok.1 hrest
    have hfree : callback ∉ q.queue.pending.map Node.callback := fun hmem =>
      (hq.queue.qType callback).2 hmem hqType
    obtain ⟨q'', hq'', hinv, -⟩ := hq.insert (n := ⟨callback, time.toNat⟩) hfree hle he
    cases h.symm.trans hq''
    exact hinv
  | nextJob cTime =>
    obtain ⟨answer, q'', hq'', hinv, -⟩ := hq.nextJob he
    have hstep : q.step (.nextJob cTime) = .ok q'' := by
      rw [LinkedQueue.step, hq'']
      rfl
    cases h.symm.trans hstep
    exact hinv
  | remove n =>
    obtain ⟨q'', hq'', hinv, -⟩ := hq.remove he
    cases h.symm.trans hq''
    exact hinv

lemma new_eq {size : ℕ} (hlt : 7 < size) (hword : size < wordRange) (hpow : size.isPowerOfTwo) :
    ∃ q : LinkedQueue P, new size = .ok q ∧ q.Inv := by
  obtain ⟨r, hr, hinv, hnil, -⟩ := TQueue.new_eq (P := P.toPriorityQueue) hlt hword hpow
  have hnone : r.access = fun _ => [] := by
    obtain ⟨-, h⟩ := check_bind_eq_ok.1 hr
    obtain ⟨-, h⟩ := check_bind_eq_ok.1 h
    cases Except.ok.inj h
    rfl
  refine ⟨⟨r, fun _ => none⟩, by rw [new, hr]; rfl, hinv, fun pos hne => ?_, fun n hn => ?_⟩
  · exact absurd (congrFun hnone pos) hne
  · have hmem : n ∈ r.pending := TQueue.mem_pending.2 (.inl hn)
    rw [hnil] at hmem
    cases hmem

end LinkedQueue

/-- For every size of the ring that is a power of two greater than 7, in all states that orderly
calls lead to, `remove` of a callback in the queue is exact if and only if it is the first one of
the slot of `minTime`; `reschedule` is `remove` and then `insert`. -/
theorem remove_exact_iff_of_runWhere (P : ErasableTooFar) (accessSize : UInt32)
    (hlt : 7 < accessSize.toNat) (hpow : accessSize.toNat.isPowerOfTwo) :
    ∃ q₀ : LinkedQueue P, LinkedQueue.new accessSize.toNat = .ok q₀ ∧
      ∀ es q, (queueMachine q₀).RunWhere LinkedQueue.Orderly es q →
        (∀ n ∈ q.queue.pending,
          q.Exact n ↔ (q.queue.access q.queue.minPos).head? = some n) ∧
        ∀ n rTime, q.reschedule n rTime =
          q.remove n >>= fun q' => q'.insert ⟨n.callback, rTime⟩ := by
  obtain ⟨q₀, hnew, hinv₀⟩ := LinkedQueue.new_eq (P := P) hlt accessSize.toNat_lt hpow
  refine ⟨q₀, hnew, fun es q hrun => ?_⟩
  have hinv : q.Inv := hrun.invariant hinv₀ fun q e q' hq he h => hq.step he h
  exact ⟨fun n hn => hinv.exact_iff hn, fun n rTime => LinkedQueue.reschedule_eq rTime⟩

/-! ## Two runs -/

instance decidableOrderly (q : LinkedQueue P) : (e : QueueCall) → Decidable (q.Orderly e)
  | .insert _ time => inferInstanceAs (Decidable (time.toNat < q.queue.minTime + wordRange))
  | .nextJob cTime => inferInstanceAs (Decidable (q.queue.minTime ≤ cTime.toNat ∧
      cTime.toNat < q.queue.minTime + q.queue.accessSize ∧ cTime.toNat < maxTime ∧
      ∀ n ∈ q.queue.pending, cTime.toNat ≤ n.time))
  | .remove n => inferInstanceAs (Decidable
      ((q.queue.access q.queue.minPos).head? = some n ∨ q.isInQueue n = false))

/-- A ring of 8 slots: two callbacks for the time 0, of which the first is removed, and one that is
too far. -/
def headRun : List QueueCall :=
  [.insert 1 0, .insert 2 0, .insert 3 20, .remove ⟨1, 0⟩]

/-- The second callback may be removed now, the one in the heap may not. -/
theorem remove_exact_headRun : ∃ q₀ q : LinkedQueue .unsorted,
    LinkedQueue.new 8 = .ok q₀ ∧ (queueMachine q₀).Run headRun q ∧
      q.queue.pending = [⟨2, 0⟩, ⟨3, 20⟩] ∧ q.Exact ⟨2, 0⟩ ∧ ¬q.Exact ⟨3, 20⟩ := by
  obtain ⟨q₀, hnew, hexact⟩ := remove_exact_iff_of_runWhere .unsorted 8 (by decide) ⟨3, rfl⟩
  have hrun : succeeds (LinkedQueue.new (P := .unsorted) 8) (fun q₀ =>
      succeeds (((queueMachine q₀).guarded (fun q e => decide (q.Orderly e))
        .noSuchEvent).exec (queueMachine q₀).init headRun) fun q =>
          decide (q.queue.pending = [⟨2, 0⟩, ⟨3, 20⟩] ∧
            (q.queue.access q.queue.minPos).head? = some ⟨2, 0⟩)) = true := by
    decide +kernel
  obtain ⟨q₀', hnew', htest⟩ := succeeds_iff.1 hrun
  cases hnew'.symm.trans hnew
  obtain ⟨q, hq, htest⟩ := succeeds_iff.1 htest
  obtain ⟨hpending, hhead⟩ := of_decide_eq_true htest
  have hwhere : (queueMachine q₀).RunWhere LinkedQueue.Orderly headRun q :=
    (Machine.run_of_exec hq).of_guarded.mono fun _ _ => of_decide_eq_true
  obtain ⟨hiff, -⟩ := hexact headRun q hwhere
  refine ⟨q₀, q, hnew, hwhere.run, hpending, ?_, fun hfar => ?_⟩
  · exact (hiff ⟨2, 0⟩ (by rw [hpending]; decide)).2 hhead
  · have h := (hiff ⟨3, 20⟩ (by rw [hpending]; decide)).1 hfar
    rw [hhead] at h
    exact absurd h (by decide)

/-- Two callbacks for the same time. -/
def lastRun : List QueueCall := [.insert 1 3, .insert 2 3]

/-- The second callback is removed.  It still reports that it is in the queue, so that it cannot be
scheduled anew, and no other callback can be added to the slot. -/
theorem not_exact_lastRun : ∃ q₀ q q' : LinkedQueue .unsorted,
    LinkedQueue.new 8 = .ok q₀ ∧ (queueMachine q₀).RunWhere LinkedQueue.Orderly lastRun q ∧
      (⟨2, 3⟩ : Node) ∈ q.queue.pending ∧ q.remove ⟨2, 3⟩ = .ok q' ∧
      q'.isInQueue ⟨2, 3⟩ = true ∧ (∀ t, q.reschedule ⟨2, 3⟩ t = .error .assertion) ∧
      q'.insert ⟨3, 3⟩ = .error .assertion ∧ ¬q.Exact ⟨2, 3⟩ := by
  have hrun : succeeds (LinkedQueue.new (P := .unsorted) 8) (fun q₀ =>
      succeeds (((queueMachine q₀).guarded (fun q e => decide (q.Orderly e))
        .noSuchEvent).exec (queueMachine q₀).init lastRun) fun q =>
          decide ((⟨2, 3⟩ : Node) ∈ q.queue.pending) && succeeds (q.remove ⟨2, 3⟩) fun q' =>
            decide (q'.isInQueue ⟨2, 3⟩ = true ∧ q'.queue.access 3 ≠ [] ∧
              q'.accessTail 3 = none ∧ q'.queue.posOf 3 = 3 ∧ q'.queue.accessSize = 8 ∧
              q'.queue.minTime = 0 ∧ q'.queue.qType 3 = .inNoQueue)) = true := by
    decide +kernel
  obtain ⟨q₀, hnew, htest⟩ := succeeds_iff.1 hrun
  obtain ⟨q, hq, htest⟩ := succeeds_iff.1 htest
  obtain ⟨hmem, htest⟩ := Bool.and_eq_true_iff.1 htest
  obtain ⟨q', hq', htest⟩ := succeeds_iff.1 htest
  obtain ⟨hstill, hslot, htail, hpos, hsize, htime, hfree⟩ := of_decide_eq_true htest
  have hwhere : (queueMachine q₀).RunWhere LinkedQueue.Orderly lastRun q :=
    (Machine.run_of_exec hq).of_guarded.mono fun _ _ => of_decide_eq_true
  refine ⟨q₀, q, q', hnew, hwhere, of_decide_eq_true hmem, hq', hstill, fun t => ?_, ?_, ?_⟩
  · rw [LinkedQueue.reschedule, hq', ok_bind]
    simp only [check, decide_eq_false (LinkedQueue.isInQueue_iff.1 hstill), error_bind]
  · have hnear : ticksBetween 3 q'.queue.minTime < q'.queue.accessSize := by
      rw [htime, hsize]
      decide
    have hmagnitude : magnitude (ticksBetween 3 q'.queue.minTime) < q'.queue.accessSize := by
      rw [htime, hsize]
      decide
    have hle : 3 ≥ q'.queue.minTime := htime.le.trans (Nat.zero_le 3)
    rw [LinkedQueue.insert, check_bind hfree, check_bind hle, if_pos hnear, LinkedQueue.addNode,
      check_bind hle, check_bind hmagnitude]
    show (link (q'.queue.access (q'.queue.posOf 3)) (q'.accessTail (q'.queue.posOf 3)) _ >>= _) = _
    rw [hpos, htail]
    cases haccess : q'.queue.access 3 with
    | nil => exact absurd haccess hslot
    | cons m rest => rfl
  · rintro ⟨q'', hq'', hout, -⟩
    cases hq'.symm.trans hq''
    rw [hstill] at hout
    cases hout

end Sesc.Timing
