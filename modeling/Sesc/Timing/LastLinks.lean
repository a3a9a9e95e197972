import Mathlib.Data.List.Nodup
import Sesc.Timing.OnTime
import Sesc.Timing.Removal

/-!
# The last links of the slots

As long as the pointers to the last links of the slots are right the queue with links does what
`TQueue` does, and leaves them right.  The callbacks in the ring report that they are in the ring.
-/

namespace Sesc.Timing

open Lib

variable {P : ErasableTooFar}

/-! ## The last links -/

/-- The last link of a slot is the last one of its list. -/
def LastLinks (access : ℕ → List Node) (accessTail : ℕ → Option Node) : Prop :=
  ∀ pos, access pos ≠ [] → accessTail pos = (access pos).getLast?

lemma link_eq {slot : List Node} {tail : Option Node} {n : Node} (hnodup : slot.Nodup)
    (htail : slot ≠ [] → tail = slot.getLast?) : link slot tail n = .ok (slot ++ [n]) := by
  rcases List.eq_nil_or_concat slot with rfl | ⟨l, t, rfl⟩
  · rfl
  · have hne : l.concat t ≠ [] := by simp
    rw [List.concat_eq_append] at hne htail hnodup ⊢
    have ht : tail = some t := by
      rw [htail hne, List.getLast?_concat]
    have hnot : t ∉ l := fun hmem =>
      (List.nodup_append.1 hnodup).2.2 t hmem t (List.mem_singleton.2 rfl) rfl
    have hkept : ∀ m ∈ l, decide (m ≠ t) = true := by
      intro m hm
      exact decide_eq_true fun heq => hnot (heq ▸ hm)
    have htake : (l ++ [t]).takeWhile (· ≠ t) = l := by
      rw [List.takeWhile_append_of_pos hkept, List.takeWhile_cons_of_neg (by simp),
        List.append_nil]
    subst ht
    cases hslot : l ++ [t] with
    | nil => exact absurd hslot hne
    | cons m rest =>
      show Except.ok ((m :: rest).takeWhile (· ≠ t) ++ [t, n]) = _
      rw [← hslot, htake, List.append_assoc]
      rfl

namespace LastLinks

variable {access : ℕ → List Node} {accessTail : ℕ → Option Node} {pos : ℕ} {n : Node}

lemma append (h : LastLinks access accessTail) :
    LastLinks (Function.update access pos (access pos ++ [n]))
      (Function.update accessTail pos (some n)) := by
  intro pos' hne
  by_cases heq : pos' = pos
  · subst heq
    rw [Function.update_self, Function.update_self, List.getLast?_concat]
  · rw [Function.update_of_ne heq] at hne ⊢
    rw [Function.update_of_ne heq]
    exact h pos' hne

/-- The first link of a slot is taken; the last one stays unless there is no other. -/
lemma tail {rest : List Node} (h : LastLinks access accessTail) (hpos : access pos = n :: rest) :
    LastLinks (Function.update access pos rest) accessTail := by
  intro pos' hne
  by_cases heq : pos' = pos
  · subst heq
    rw [Function.update_self] at hne ⊢
    have hlast := h pos' (by rw [hpos]; exact List.cons_ne_nil _ _)
    rw [hlast, hpos, List.getLast?_cons_of_ne_nil hne]
  · rw [Function.update_of_ne heq] at hne ⊢
    exact h pos' hne

end LastLinks

namespace TQueue

variable {P : TooFar} {q q' : TQueue P} {n : Node} {answer : Option Node} {cTime k : ℕ}
  {accessTail : ℕ → Option Node}

/-- No two links of a slot are the same. -/
lemma Held.nodup_access (hq : q.Held) {pos : ℕ} (hpos : pos < q.accessSize) :
    (q.access pos).Nodup := by
  have hnear : q.near.Nodup := (List.nodup_append.1 (List.Nodup.of_map _ hq.nodup)).1
  exact (List.nodup_flatMap.1 hnear).1 pos (List.mem_range.2 hpos)

lemma lastLinks_take (h : LastLinks q.access accessTail) :
    LastLinks q.take.2.access accessTail := by
  rw [TQueue.take]
  split
  · exact h
  · rename_i n rest hrest
    exact h.tail hrest

@[simp] lemma access_walk : (walk k q).access = q.access := by
  induction k generalizing q with
  | zero => rfl
  | succ k ih =>
    rw [TQueue.walk]
    split
    · exact ih
    · rfl

lemma lastLinks_search (h : LastLinks q.access accessTail)
    (hsearch : q.search cTime = .ok (answer, q')) : LastLinks q'.access accessTail := by
  rw [TQueue.search] at hsearch
  split at hsearch
  · cases hsearch
    exact h
  · rw [← access_walk (k := cTime - q.minTime)] at h
    rw [TQueue.serve] at hsearch
    split at hsearch
    · cases hsearch
      exact h
    · obtain ⟨-, hsearch⟩ := check_bind_eq_ok.1 hsearch
      obtain ⟨-, hsearch⟩ := check_bind_eq_ok.1 hsearch
      have htake : (walk (cTime - q.minTime) q).take = (answer, q') := Except.ok.inj hsearch
      have hlinks := lastLinks_take h
      rw [htake] at hlinks
      exact hlinks

/-! ## What the callbacks report -/

/-- The callbacks in the ring know that they are there. -/
def Flagged (q : TQueue P) : Prop := ∀ n ∈ q.near, q.qType n.callback = .inFastQueue

lemma Flagged.append (hf : q.Flagged) (hq : q.Ring) (hle : q.minTime ≤ n.time)
    (hlt : n.time < q.minTime + q.accessSize) : (q.append n).Flagged := by
  intro m hm
  show Function.update q.qType n.callback .inFastQueue m.callback = _
  by_cases hc : m.callback = n.callback
  · rw [hc, Function.update_self]
  · rw [Function.update_of_ne hc]
    rcases List.mem_cons.1 ((hq.append hle hlt).2.mem_iff.1 hm) with rfl | hm
    · exact absurd rfl hc
    · exact hf m hm

/-- What is put into the heap has not been in the ring. -/
lemma Flagged.pushTooFar (hf : q.Flagged) (hqType : q.qType n.callback = .inNoQueue) :
    (q.pushTooFar n).Flagged := by
  intro m hm
  have hfast : q.qType m.callback = .inFastQueue := hf m hm
  have hne : m.callback ≠ n.callback := by
    intro heq
    rw [heq, hqType] at hfast
    cases hfast
  exact (Function.update_of_ne hne _ _).trans hfast

lemma Flagged.insert (hf : q.Flagged) (hq : q.Ring) (hlt : n.time < q.minTime + wordRange)
    (h : q.insert n = .ok q') : q'.Flagged := by
  obtain ⟨hqType, h⟩ := check_bind_eq_ok.1 h
  obtain ⟨hle, h⟩ := check_bind_eq_ok.1 h
  rw [ticksBetween_eq hle hlt] at h
  split at h
  · have hnear : n.time < q.minTime + q.accessSize := by omega
    rw [addNode_eq hq hle hnear] at h
    cases Except.ok.inj h
    exact hf.append hq hle hnear
  · cases Except.ok.inj h
    exact hf.pushTooFar hqType

lemma Flagged.adjustLoop (hf : q.Flagged) (hq : q.Held) (h : adjustLoop k q = .ok q') :
    q'.Flagged := by
  induction k generalizing q with
  | zero =>
    cases Except.ok.inj h
    exact hf
  | succ k ih =>
    rw [TQueue.adjustLoop] at h
    cases hfront : P.front q.tooFar with
    | none =>
      rw [hfront] at h
      cases Except.ok.inj h
      exact hf
    | some n =>
      rw [hfront] at h
      obtain ⟨hle, hword⟩ := hq.far n (P.mem_of_front hfront)
      simp only [ticksBetween_eq hle hword] at h
      split at h
      · have hnear : n.time < q.minTime + q.accessSize := by omega
        rw [addNode_eq hq.ring hle hnear, ok_bind] at h
        exact ih (q := (q.append n).popTooFar) (hf.append hq.ring hle hnear)
          (hq.move hfront hnear).1 h
      · cases Except.ok.inj h
        exact hf

lemma Flagged.adjusted (hf : q.Flagged) (hq : q.Held) (h : q.adjusted cTime = .ok q') :
    q'.Flagged := by
  rw [TQueue.adjusted] at h
  split at h
  · obtain ⟨-, h⟩ := check_bind_eq_ok.1 h
    exact hf.adjustLoop hq h
  · cases Except.ok.inj h
    exact hf

/-- No other callback in the ring is the one that is taken. -/
lemma Flagged.take (hf : q.Flagged) (hq : q.Held) : q.take.2.Flagged := by
  by_cases hne : q.access q.minPos = []
  · rw [TQueue.take, hne]
    exact hf
  · obtain ⟨n, q', htake, -, hq'⟩ := hq.ring.take hne
    have hmap := hq'.near.map Node.callback
    have hnear : (q.near.map Node.callback).Nodup := by
      have hnodup := hq.nodup
      rw [pending, List.map_append] at hnodup
      exact (List.nodup_append.1 hnodup).1
    obtain ⟨hnot, -⟩ := List.nodup_cons.1 (hmap.nodup_iff.1 hnear)
    rw [htake]
    intro m hm
    have hc : m.callback ≠ n.callback := fun heq => hnot (heq ▸ List.mem_map_of_mem hm)
    rw [hq'.qType, Function.update_of_ne hc]
    exact hf m (hq'.near.mem_iff.2 (.tail _ hm))

@[simp] lemma qType_walk : (walk k q).qType = q.qType := by
  induction k generalizing q with
  | zero => rfl
  | succ k ih =>
    rw [TQueue.walk]
    split
    · exact ih
    · rfl

lemma Flagged.search (hf : q.Flagged) (hq : q.Inv) (hle : q.minTime ≤ cTime)
    (hfar : ∀ n ∈ q.far, cTime < n.time) (h : q.search cTime = .ok (answer, q')) : q'.Flagged := by
  obtain ⟨hinv, hnear, -⟩ := hq.walk (Nat.add_sub_of_le hle) hfar
  have hwalk : (walk (cTime - q.minTime) q).Flagged := by
    rw [Flagged, hnear, qType_walk]
    exact hf
  rw [TQueue.search] at h
  split at h
  · cases h
    exact hf
  · rw [TQueue.serve] at h
    split at h
    · cases h
      exact hwalk
    · obtain ⟨-, h⟩ := check_bind_eq_ok.1 h
      obtain ⟨-, h⟩ := check_bind_eq_ok.1 h
      have htake : (walk (cTime - q.minTime) q).take = (answer, q') := Except.ok.inj h
      have hflagged := hwalk.take hinv.toHeld
      rw [htake] at hflagged
      exact hflagged

lemma Flagged.nextJob (hf : q.Flagged) (hq : q.Inv) (hle : q.minTime ≤ cTime)
    (hlt : cTime < q.minTime + q.accessSize) (hmax : cTime < maxTime)
    (h : q.nextJob cTime = .ok (answer, q')) : q'.Flagged := by
  rw [TQueue.nextJob] at h
  split at h
  · have htake : q.take = (answer, q') := Except.ok.inj h
    have hflagged := hf.take hq.toHeld
    rw [htake] at hflagged
    exact hflagged
  · obtain ⟨q₁, hadjusted, hinv, -, htime, hfar⟩ := hq.adjusted hlt hmax
    rw [hadjusted, ok_bind] at h
    exact (hf.adjusted hq.toHeld hadjusted).search hinv (htime ▸ hle) hfar h

end TQueue

namespace LinkedQueue

variable {q q' : LinkedQueue P} {n : Node} {cTime k : ℕ} {r : TQueue P.toPriorityQueue}

/-! ## The queue with links does what the queue does -/

def Linked (q : LinkedQueue P) : Prop := LastLinks q.queue.access q.accessTail

/-- The queue with links, whose last links are right again, has the queue `r`. -/
def Gives (x : Except Fault (LinkedQueue P)) (r : TQueue P.toPriorityQueue) : Prop :=
  ∃ q', x = .ok q' ∧ q'.queue = r ∧ q'.Linked

lemma addNode_gives (hq : q.queue.Held) (hlinked : q.Linked) (hle : q.queue.minTime ≤ n.time)
    (hadd : q.queue.addNode n = .ok r) : Gives (q.addNode n) r := by
  obtain ⟨-, hadd⟩ := check_bind_eq_ok.1 hadd
  obtain ⟨hmagnitude, hadd⟩ := check_bind_eq_ok.1 hadd
  cases Except.ok.inj hadd
  have hpos : q.queue.posOf n.time < q.queue.accessSize := by
    rw [hq.ring.posOf_eq hle]
    exact hq.ring.slot_lt _
  have hlink : link (q.queue.access (q.queue.posOf n.time)) (q.accessTail (q.queue.posOf n.time)) n =
      .ok (q.queue.access (q.queue.posOf n.time) ++ [n]) :=
    link_eq (hq.nodup_access hpos) (hlinked _)
  rw [addNode, check_bind hle, check_bind hmagnitude]
  show Gives (link _ _ _ >>= _) _
  rw [hlink]
  exact ⟨_, rfl, rfl, hlinked.append⟩

/-- Each callback that the loop moves is linked to the last one of its slot. -/
lemma adjustLoop_gives (hq : q.queue.Held) (hlinked : q.Linked)
    (hloop : TQueue.adjustLoop k q.queue = .ok r) : Gives (adjustLoop k q) r := by
  induction k generalizing q with
  | zero =>
    cases Except.ok.inj hloop
    exact ⟨_, rfl, rfl, hlinked⟩
  | succ k ih =>
    rw [TQueue.adjustLoop] at hloop
    rw [adjustLoop]
    cases hfront : P.front q.queue.tooFar with
    | none =>
      rw [hfront] at hloop
      cases Except.ok.inj hloop
      exact ⟨_, rfl, rfl, hlinked⟩
    | some n =>
      rw [hfront] at hloop
      obtain ⟨hle, hword⟩ := hq.far n (P.mem_of_front hfront)
      by_cases hlt : ticksBetween n.time q.queue.minTime < q.queue.accessSize
      · -- the front is moved into the ring
        simp only [if_pos hlt] at hloop ⊢
        obtain ⟨r₁, hadd, hloop⟩ := bind_eq_ok.1 hloop
        obtain ⟨q₁, hq₁, rfl, hlinked₁⟩ := addNode_gives hq hlinked hle hadd
        have hnear : n.time < q.queue.minTime + q.queue.accessSize := by
          rw [ticksBetween_eq hle hword] at hlt
          omega
        have happend : q₁.queue = q.queue.append n :=
          Except.ok.inj (hadd.symm.trans (TQueue.addNode_eq hq.ring hle hnear))
        have hheld : q₁.queue.popTooFar.Held := happend ▸ (hq.move hfront hnear).1
        rw [hq₁, ok_bind]
        exact ih (q := { q₁ with queue := q₁.queue.popTooFar }) hheld hlinked₁ hloop
      · simp only [if_neg hlt] at hloop ⊢
        cases Except.ok.inj hloop
        exact ⟨_, rfl, rfl, hlinked⟩

lemma adjusted_gives (hq : q.queue.Held) (hlinked : q.Linked)
    (hadjusted : q.queue.adjusted cTime = .ok r) : Gives (q.adjusted cTime) r := by
  rw [TQueue.adjusted] at hadjusted
  rw [adjusted]
  split at hadjusted
  · rename_i hle
    rw [if_pos hle]
    rw [TQueue.adjustTooFar] at hadjusted
    obtain ⟨hsize, hloop⟩ := check_bind_eq_ok.1 hadjusted
    rw [adjustTooFar, check_bind hsize]
    exact adjustLoop_gives hq hlinked hloop
  · rename_i hlt
    rw [if_neg hlt]
    cases Except.ok.inj hadjusted
    exact ⟨q, rfl, rfl, hlinked⟩

lemma insert_gives (hq : q.queue.Held) (hlinked : q.Linked) (hinsert : q.queue.insert n = .ok r) :
    Gives (q.insert n) r := by
  obtain ⟨hqType, hinsert⟩ := check_bind_eq_ok.1 hinsert
  obtain ⟨hle, hinsert⟩ := check_bind_eq_ok.1 hinsert
  rw [LinkedQueue.insert, check_bind hqType, check_bind hle]
  split at hinsert
  · rename_i hlt
    rw [if_pos hlt]
    exact addNode_gives hq hlinked hle hinsert
  · rename_i hnot
    rw [if_neg hnot]
    cases Except.ok.inj hinsert
    exact ⟨_, rfl, rfl, hlinked⟩

lemma nextJob_gives {answer : Option Node} (hq : q.queue.Held) (hlinked : q.Linked)
    (hnext : q.queue.nextJob cTime = .ok (answer, r)) :
    ∃ q', q.nextJob cTime = .ok (answer, q') ∧ q'.queue = r ∧ q'.Linked := by
  rw [TQueue.nextJob] at hnext
  rw [nextJob]
  split at hnext
  · rename_i hcommon
    rw [if_pos hcommon]
    have htake : q.queue.take = (answer, r) := Except.ok.inj hnext
    have hlinks := TQueue.lastLinks_take hlinked
    rw [htake] at hlinks ⊢
    exact ⟨_, rfl, rfl, hlinks⟩
  · rename_i hnot
    rw [if_neg hnot]
    obtain ⟨r₁, hadjusted, hsearch⟩ := bind_eq_ok.1 hnext
    obtain ⟨q₁, hq₁, rfl, hlinked₁⟩ := adjusted_gives hq hlinked hadjusted
    rw [hq₁, ok_bind, hsearch]
    exact ⟨⟨r, q₁.accessTail⟩, rfl, rfl, TQueue.lastLinks_search hlinked₁ hsearch⟩

end LinkedQueue

end Sesc.Timing
