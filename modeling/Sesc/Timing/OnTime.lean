import Sesc.Timing.EventScheduler
import Sesc.Timing.Functions

/-!
# Callbacks are called on time

Between two turns of `advanceClock` the time `minTime` of the queue is the current one or the one
before.  A callback whose time is less than 2^32 ticks ahead of it is called at that time; one that
is 2^32 ticks ahead, which is less than 2^32 ticks ahead of the clock, is called at once.
-/

namespace Sesc.Timing

open Lib

variable {P : TooFar}

namespace TQueue

lemma new_eq {n : ℕ} (hlt : 7 < n) (hword : n < wordRange) (hpow : n.isPowerOfTwo) :
    ∃ q : TQueue P, new n = .ok q ∧ q.Inv ∧ q.pending = [] ∧ q.minTime = 0 := by
  have hland : n &&& (n - 1) = 0 := (Nat.and_sub_one_eq_zero_iff_isPowerOfTwo (by omega)).2 hpow
  have hnear : contents n (fun _ => ([] : List Node)) = [] :=
    List.flatMap_eq_nil_iff.2 fun _ _ => rfl
  have hpending : contents n (fun _ => ([] : List Node)) ++ P.toList P.empty = [] := by
    rw [hnear, P.toList_empty]
    rfl
  have hfar (m : Node) : m ∉ P.toList P.empty := by
    rw [P.toList_empty]
    exact List.not_mem_nil
  refine ⟨⟨0, 0, 0, n, fun _ => [], P.empty, maxTime, fun _ => .inNoQueue⟩,
    by rw [new, check_bind hlt, check_bind hland]; rfl, ⟨⟨⟨ringSize_of_land hlt hword hland,
      Nat.lt_trans (Nat.succ_pos 6) hlt, fun _ _ m hm => ?_, ?_⟩, fun m hm => ?_, ?_, fun c => ?_⟩,
      fun m hm => ?_, fun _ => rfl⟩, hpending, rfl⟩
  · cases hm
  · exact (congrArg List.length hnear).symm
  · exact absurd hm (hfar m)
  · exact (congrArg (fun l => (l.map Node.callback).Nodup) hpending).mpr List.nodup_nil
  · refine iff_of_false (fun h => h rfl) fun hmem => ?_
    obtain ⟨m, hm, -⟩ := List.mem_map.1 hmem
    exact List.not_mem_nil ((congrArg (m ∈ ·) hpending).mp hm)
  · exact absurd hm (hfar m)

/-- `insert` refuses only what is in the queue and what is too early. -/
lemma exists_insert {q : TQueue P} {n : Node} (hq : q.Inv)
    (hfree : n.callback ∉ q.pending.map Node.callback) (hle : q.minTime ≤ n.time) :
    ∃ q', q.insert n = .ok q' := by
  have hqType : q.qType n.callback = .inNoQueue := by
    by_contra h
    exact hfree ((hq.qType n.callback).1 h)
  rw [TQueue.insert, check_bind hqType, check_bind hle]
  split
  · rename_i hlt
    have hsize := hq.ring.size.le
    have hmagnitude : magnitude (ticksBetween n.time q.minTime) < q.accessSize := by
      rw [magnitude_eq (by omega)]
      exact hlt
    exact ⟨q.append n, by rw [addNode, check_bind hle, check_bind hmagnitude]; rfl⟩
  · exact ⟨_, rfl⟩

end TQueue

namespace EventScheduler

variable {s s' : EventScheduler P} {n : Node}

/-- Every callback that has been scheduled has been called once, at its time, or is one of `rest`,
for which it is not too late.  The callbacks of `rest` that are due are called before the clock
advances, and no callback that may be scheduled is refused. -/
structure OnTime (s : EventScheduler P) (rest : List Node) : Prop where
  accounted : (s.called ++ rest).Perm s.scheduled
  notLate : ∀ n ∈ rest, s.globalClock ≤ n.time
  size : s.cbQ.size = rest.length
  empty : s.cbQ.empty = true ↔ rest = []
  advanceClock : ∃ s', s.advanceClock = .ok s' ∧ s'.scheduled = s.scheduled ∧
    (s'.globalClock = s.globalClock ∧
        (∃ n ∈ rest, n.time = s.globalClock ∧ s'.called = s.called ++ [n]) ∨
      s'.globalClock = s.globalClock + 1 ∧ s'.called = s.called ∧
        ∀ n ∈ rest, n.time ≠ s.globalClock)
  schedule : ∀ delta callback, callback ∉ rest.map Node.callback → delta ≠ 0 →
    delta ≤ maxDeltaTime → s.globalClock < (s.globalClock + delta) % timeRange →
      ∃ s', s.schedule delta callback = .ok s' ∧
        s'.scheduled = s.scheduled ++ [⟨callback, (s.globalClock + delta) % timeRange⟩]
  scheduleAbs : ∀ tim callback, callback ∉ rest.map Node.callback → s.globalClock < tim →
    ∃ s', s.scheduleAbs tim callback = .ok s' ∧ s'.scheduled = s.scheduled ++ [⟨callback, tim⟩]

/-- Between the turns of `advanceClock` the queue is at the current time or the one before. -/
structure Inv (s : EventScheduler P) : Prop where
  queue : s.cbQ.Inv
  minTime_le : s.cbQ.minTime ≤ s.globalClock
  le_minTime : s.globalClock ≤ s.cbQ.minTime + 1
  lt : s.globalClock < maxTime
  notLate : ∀ n ∈ s.cbQ.pending, s.globalClock ≤ n.time
  accounted : (s.called ++ s.cbQ.pending).Perm s.scheduled

lemma Inv.insert (hs : s.Inv) (hfree : n.callback ∉ s.cbQ.pending.map Node.callback)
    (hlt : s.globalClock < n.time) (hrange : n.time < s.cbQ.minTime + wordRange) :
    ∃ s', s.insert n = .ok s' ∧ s'.Inv := by
  have hle : s.cbQ.minTime ≤ n.time := hs.minTime_le.trans hlt.le
  obtain ⟨q, hinsert, hq, hperm, htime⟩ := hs.queue.insert hfree hle hrange
  refine ⟨⟨q, s.globalClock, s.scheduled ++ [n], s.called⟩, by rw [EventScheduler.insert, hinsert]; rfl,
    hq, htime ▸ hs.minTime_le, htime ▸ hs.le_minTime, hs.lt, fun m hm => ?_, ?_⟩
  · rcases List.mem_cons.1 (hperm.mem_iff.1 hm) with rfl | hm
    · exact hlt.le
    · exact hs.notLate m hm
  · have hcons : (s.called ++ q.pending).Perm (n :: (s.called ++ s.cbQ.pending)) :=
      (hperm.append_left s.called).trans List.perm_middle
    exact (hcons.trans (hs.accounted.cons n)).trans (List.perm_append_singleton n _).symm

/-- What has been inserted was not in the queue. -/
lemma notMem_of_insert (hs : s.Inv) (h : s.insert n = .ok s') :
    n.callback ∉ s.cbQ.pending.map Node.callback ∧ s.cbQ.minTime ≤ n.time := by
  obtain ⟨q, hq, -⟩ := bind_eq_ok.1 h
  rw [TQueue.insert] at hq
  obtain ⟨hqType, hq⟩ := check_bind_eq_ok.1 hq
  obtain ⟨hle, -⟩ := check_bind_eq_ok.1 hq
  exact ⟨fun hmem => (hs.queue.qType n.callback).2 hmem hqType, hle⟩

lemma Inv.of_insert (hs : s.Inv) (h : s.insert n = .ok s') (hlt : s.globalClock < n.time)
    (hrange : n.time < s.cbQ.minTime + wordRange) : s'.Inv := by
  obtain ⟨s'', hinsert, hinv⟩ := hs.insert (notMem_of_insert hs h).1 hlt hrange
  cases h.symm.trans hinsert
  exact hinv

/-- A turn of `advanceClock` calls a callback that is due, or there is none. -/
lemma Inv.advanceClock (hs : s.Inv) :
    ∃ s', s.advanceClock = .ok s' ∧ (s.globalClock + 1 < maxTime → s'.Inv) ∧
      s'.scheduled = s.scheduled ∧
      (s'.globalClock = s.globalClock ∧
          (∃ n ∈ s.cbQ.pending, n.time = s.globalClock ∧ s'.called = s.called ++ [n]) ∨
        s'.globalClock = s.globalClock + 1 ∧ s'.called = s.called ∧
          ∀ n ∈ s.cbQ.pending, n.time ≠ s.globalClock) := by
  have hsize := hs.queue.ring.size.seven_lt
  have hnear : s.globalClock < s.cbQ.minTime + s.cbQ.accessSize :=
    Nat.lt_of_le_of_lt hs.le_minTime (by omega)
  obtain ⟨answer, q, hnextJob, hq, htime, hanswer⟩ :=
    hs.queue.nextJob hs.minTime_le hnear hs.lt hs.notLate
  refine ⟨s.proceed (answer, q), by rw [EventScheduler.advanceClock, hnextJob]; rfl, ?_⟩
  cases answer with
  | some n =>
    obtain ⟨hn, hperm⟩ := hanswer
    have hmem : n ∈ s.cbQ.pending := hperm.mem_iff.2 (.head _)
    have hcalled : (⟨n.callback, s.globalClock⟩ : Node) = n := by rw [← hn]
    refine ⟨fun _ => ⟨hq, htime.le, ?_, hs.lt, fun m hm => ?_, ?_⟩, rfl,
      .inl ⟨rfl, n, hmem, hn, ?_⟩⟩
    · show s.globalClock ≤ q.minTime + 1
      omega
    · exact hs.notLate m (hperm.mem_iff.2 (.tail _ hm))
    · show (s.called ++ [_] ++ q.pending).Perm s.scheduled
      rw [hcalled, List.append_assoc]
      exact (hperm.symm.append_left s.called).trans hs.accounted
    · show s.called ++ [_] = _
      rw [hcalled]
  | none =>
    obtain ⟨hdue, hperm⟩ := hanswer
    have hclock : (s.globalClock + 1) % timeRange = s.globalClock + 1 := by
      have hrange : maxTime + 1 ≤ timeRange := by decide
      exact Nat.mod_eq_of_lt (Nat.lt_of_lt_of_le (Nat.succ_lt_succ hs.lt) hrange)
    refine ⟨fun hmax => ⟨hq, ?_, ?_, ?_, fun m hm => ?_, ?_⟩, rfl, .inr ⟨hclock, rfl, hdue⟩⟩
    · show q.minTime ≤ (s.globalClock + 1) % timeRange
      omega
    · show (s.globalClock + 1) % timeRange ≤ q.minTime + 1
      omega
    · show (s.globalClock + 1) % timeRange < maxTime
      exact hclock.symm ▸ hmax
    · show (s.globalClock + 1) % timeRange ≤ m.time
      have hm := hperm.mem_iff.1 hm
      have hle := hs.notLate m hm
      have hne := hdue m hm
      omega
    · exact (hperm.append_left s.called).trans hs.accounted

/-- A delay never reaches beyond the range of the times. -/
lemma Inv.schedule_time {delta : ℕ} (hs : s.Inv) (hdelta : delta ≤ maxDeltaTime)
    (hle : s.cbQ.minTime ≤ (s.globalClock + delta) % timeRange) :
    (s.globalClock + delta) % timeRange = s.globalClock + delta := by
  have hlt := hs.lt
  have hclock := hs.le_minTime
  have hrange : timeRange = maxTime + 1025 := rfl
  have hlarge : maxDeltaTime < maxTime := by decide
  by_cases hfits : s.globalClock + delta < timeRange
  · exact Nat.mod_eq_of_lt hfits
  · rw [Nat.mod_eq_sub_mod (Nat.not_lt.1 hfits), Nat.mod_eq_of_lt (by omega)] at hle
    omega

/-- The steps at which the difference of two times fits into 32 bits and the clock does not reach
the time that stands for none. -/
def InRange (s : EventScheduler P) : Event → Prop
  | .schedule _ _ => True
  | .scheduleAbs tim _ => tim.toNat < s.cbQ.minTime + wordRange
  | .advanceClock => s.globalClock + 1 < maxTime

lemma Inv.step (hs : s.Inv) {e : Event} (he : InRange s e) (h : s.step e = .ok s') : s'.Inv := by
  cases e with
  | schedule delta callback =>
    obtain ⟨hpos, h⟩ := check_bind_eq_ok.1 h
    obtain ⟨hdelta, h⟩ := check_bind_eq_ok.1 h
    have htime := hs.schedule_time hdelta (notMem_of_insert hs h).2
    have hle := hs.le_minTime
    rw [maxDeltaTime] at hdelta
    refine hs.of_insert h ?_ ?_
    · show s.globalClock < (s.globalClock + delta.toNat) % timeRange
      omega
    · show (s.globalClock + delta.toNat) % timeRange < s.cbQ.minTime + wordRange
      rw [wordRange]
      omega
  | scheduleAbs tim callback =>
    obtain ⟨hlt, h⟩ := check_bind_eq_ok.1 h
    exact hs.of_insert h hlt he
  | advanceClock =>
    obtain ⟨s'', hadvance, hinv, -⟩ := hs.advanceClock
    cases h.symm.trans hadvance
    exact hinv he

lemma Inv.exists_insert (hs : s.Inv) (hfree : n.callback ∉ s.cbQ.pending.map Node.callback)
    (hlt : s.globalClock < n.time) :
    ∃ s', s.insert n = .ok s' ∧ s'.scheduled = s.scheduled ++ [n] := by
  obtain ⟨q, hq⟩ := TQueue.exists_insert hs.queue hfree (hs.minTime_le.trans hlt.le)
  exact ⟨{ s with cbQ := q, scheduled := s.scheduled ++ [n] },
    by rw [EventScheduler.insert, hq]; rfl, rfl⟩

/-- The callbacks that are left are those in the queue. -/
lemma Inv.onTime (hs : s.Inv) : s.OnTime s.cbQ.pending where
  accounted := hs.accounted
  notLate := hs.notLate
  size := TQueue.size_eq hs.queue.ring
  empty := TQueue.empty_iff hs.queue.ring
  advanceClock := by
    obtain ⟨s', hadvance, -, h⟩ := hs.advanceClock
    exact ⟨s', hadvance, h⟩
  schedule delta callback hfree hpos hdelta hlt := by
    rw [EventScheduler.schedule, check_bind hpos, check_bind hdelta]
    exact hs.exists_insert hfree hlt
  scheduleAbs tim callback hfree hlt := by
    rw [EventScheduler.scheduleAbs, check_bind hlt]
    exact hs.exists_insert hfree hlt

lemma Inv.init {q : TQueue P} (hq : q.Inv) (hnil : q.pending = []) (htime : q.minTime = 0) :
    Inv (schedulerMachine q).init where
  queue := hq
  minTime_le := htime.le
  le_minTime := Nat.zero_le _
  lt := Nat.lt_of_lt_of_le (Nat.succ_pos 0) (show 1 ≤ maxTime by decide)
  notLate _ _ := Nat.zero_le _
  accounted := by
    show ([] ++ q.pending).Perm []
    rw [hnil]
    rfl

/-- For every size of the ring that is a power of two greater than 7, callbacks are called on time
in all runs whose times are in range. -/
theorem onTime_of_runWhere (P : TooFar) (accessSize : UInt32) (hlt : 7 < accessSize.toNat)
    (hpow : accessSize.toNat.isPowerOfTwo) :
    ∃ cbQ : TQueue P, TQueue.new accessSize.toNat = .ok cbQ ∧
      ∀ es s, (schedulerMachine cbQ).RunWhere InRange es s → ∃ rest, s.OnTime rest := by
  obtain ⟨cbQ, hnew, hq, hnil, htime⟩ := TQueue.new_eq (P := P) hlt accessSize.toNat_lt hpow
  refine ⟨cbQ, hnew, fun es s hrun => ⟨s.cbQ.pending, ?_⟩⟩
  have hinv : s.Inv := hrun.invariant (.init hq hnil htime) fun s e s' hs he h => hs.step he h
  exact hinv.onTime

/-! ## Two runs -/

/-- The steps whose times are later than the clock and less than 2^32 ticks ahead of it. -/
def Ahead (s : EventScheduler P) : Event → Prop
  | .schedule _ _ => True
  | .scheduleAbs tim _ => s.globalClock < tim.toNat ∧ tim.toNat < s.globalClock + wordRange
  | .advanceClock => True

instance decidableInRange (s : EventScheduler P) : (e : Event) → Decidable (InRange s e)
  | .schedule _ _ => .isTrue trivial
  | .scheduleAbs tim _ => inferInstanceAs (Decidable (tim.toNat < s.cbQ.minTime + wordRange))
  | .advanceClock => inferInstanceAs (Decidable (s.globalClock + 1 < maxTime))

instance decidableAhead (s : EventScheduler P) : (e : Event) → Decidable (Ahead s e)
  | .schedule _ _ => .isTrue trivial
  | .scheduleAbs tim _ => inferInstanceAs
      (Decidable (s.globalClock < tim.toNat ∧ tim.toNat < s.globalClock + wordRange))
  | .advanceClock => .isTrue trivial

/-- A ring of 8 slots: a callback for a time that is near, two that are too far, and one that is
scheduled when the first of these is called. -/
def farRun : List Event :=
  [Event.schedule 3 1, Event.scheduleAbs 9 2, Event.scheduleAbs 20 3] ++
    List.replicate 11 Event.advanceClock ++
    [Event.schedule 1 4, Event.advanceClock, Event.advanceClock, Event.advanceClock]

/-- The callbacks are called at their times, and one is left in the heap. -/
theorem onTime_farRun : ∃ (cbQ : TQueue .unsorted) (s : EventScheduler .unsorted),
    TQueue.new 8 = .ok cbQ ∧ (schedulerMachine cbQ).Run farRun s ∧
      s.scheduled = [⟨1, 3⟩, ⟨2, 9⟩, ⟨3, 20⟩, ⟨4, 10⟩] ∧ s.called = [⟨1, 3⟩, ⟨2, 9⟩, ⟨4, 10⟩] ∧
      ∃ rest, s.OnTime rest := by
  obtain ⟨cbQ, hnew, honTime⟩ := onTime_of_runWhere .unsorted 8 (by decide) ⟨3, rfl⟩
  have hrun : succeeds (TQueue.new (P := .unsorted) 8) (fun cbQ =>
      succeeds (((schedulerMachine cbQ).guarded (fun s e => decide (InRange s e))
        .noSuchEvent).exec (schedulerMachine cbQ).init farRun) fun s =>
          decide (s.scheduled = [⟨1, 3⟩, ⟨2, 9⟩, ⟨3, 20⟩, ⟨4, 10⟩] ∧
            s.called = [⟨1, 3⟩, ⟨2, 9⟩, ⟨4, 10⟩])) = true := by
    decide +kernel
  obtain ⟨cbQ', hnew', htest⟩ := succeeds_iff.1 hrun
  cases hnew'.symm.trans hnew
  obtain ⟨s, hs, htest⟩ := succeeds_iff.1 htest
  obtain ⟨hscheduled, hcalled⟩ := of_decide_eq_true htest
  have hwhere : (schedulerMachine cbQ).RunWhere InRange farRun s :=
    (Machine.run_of_exec hs).of_guarded.mono fun _ _ => of_decide_eq_true
  exact ⟨cbQ, s, hnew, hwhere.run, hscheduled, hcalled, honTime farRun s hwhere⟩

/-- At the time 1, a callback is scheduled that is 2^32 - 1 ticks ahead. -/
def truncatedRun : List Event := [.advanceClock, .scheduleAbs 4294967296 1, .advanceClock]

/-- The callback is 2^32 ticks ahead of `minTime`, so that it is put into the slot of `minTime` and
is called at the time 1. -/
theorem not_onTime_truncatedRun : ∃ (cbQ : TQueue .unsorted) (s : EventScheduler .unsorted),
    TQueue.new 32 = .ok cbQ ∧ (schedulerMachine cbQ).RunWhere Ahead truncatedRun s ∧
      s.scheduled = [⟨1, 4294967296⟩] ∧ s.called = [⟨1, 1⟩] ∧ ∀ rest, ¬s.OnTime rest := by
  have hrun : succeeds (TQueue.new (P := .unsorted) 32) (fun cbQ =>
      succeeds (((schedulerMachine cbQ).guarded (fun s e => decide (Ahead s e))
        .noSuchEvent).exec (schedulerMachine cbQ).init truncatedRun) fun s =>
          decide (s.scheduled = [⟨1, 4294967296⟩] ∧ s.called = [⟨1, 1⟩])) = true := by
    decide +kernel
  obtain ⟨cbQ, hnew, htest⟩ := succeeds_iff.1 hrun
  obtain ⟨s, hs, htest⟩ := succeeds_iff.1 htest
  obtain ⟨hscheduled, hcalled⟩ := of_decide_eq_true htest
  have hwhere : (schedulerMachine cbQ).RunWhere Ahead truncatedRun s :=
    (Machine.run_of_exec hs).of_guarded.mono fun _ _ => of_decide_eq_true
  refine ⟨cbQ, s, hnew, hwhere, hscheduled, hcalled, fun rest h => ?_⟩
  have hmem := h.accounted.subset (List.mem_append_left rest (hcalled ▸ List.mem_singleton.2 rfl))
  rw [hscheduled] at hmem
  exact absurd (List.mem_singleton.1 hmem) (by decide)

/-- At the time that stands for none, `nextJob` fails if the ring and the heap are empty. -/
lemma nextJob_maxTime {q : TQueue P} (hq : q.Inv) (hnil : q.pending = []) :
    q.nextJob maxTime = .error .assertion := by
  obtain ⟨hnear, hfar⟩ := List.append_eq_nil_iff.1 hnil
  have haccess : q.access q.minPos = [] := by
    cases hslot : q.access q.minPos with
    | nil => rfl
    | cons n rest =>
      have hmem : n ∈ q.near := TQueue.Ring.mem_near.2 ⟨_, hq.ring.minPos_lt, hslot ▸ .head _⟩
      rw [hnear] at hmem
      cases hmem
  have hsize : P.size q.tooFar = 0 := congrArg List.length hfar
  rw [TQueue.nextJob, if_neg fun h => h.1 haccess, TQueue.adjusted,
    if_pos (hq.minTooFar_of_nil hfar).le, TQueue.adjustTooFar, hsize]
  rfl

end EventScheduler

end Sesc.Timing
