import Mathlib.Data.Nat.ModEq
import Sesc.Timing.TQueue

/-!
# What the queue holds

Every callback in the ring is in the slot of its time, which is less than the size of the ring
ahead of `minTime`; those in the heap are less than 2^32 ticks ahead of it.  All functions of the
queue keep this, and what they do to the queue is what they do to its callbacks.
-/

namespace Sesc.Timing

open Lib

/-- The sizes that a ring may have. -/
structure RingSize (n : ℕ) : Prop where
  seven_lt : 7 < n
  le : 2 * n ≤ wordRange
  dvd : n ∣ wordRange
  mask : ∀ k, k &&& (n - 1) = k % n

/-- The constructor accepts the powers of two. -/
lemma ringSize_of_land {n : ℕ} (hlt : 7 < n) (hword : n < wordRange) (h : n &&& (n - 1) = 0) :
    RingSize n := by
  have hne : n ≠ 0 := by omega
  obtain ⟨k, rfl⟩ := (Nat.and_sub_one_eq_zero_iff_isPowerOfTwo hne).1 h
  have hrange : wordRange = Nat.pow 2 32 := rfl
  have hk : k < 32 := by
    by_contra hk
    have hle : Nat.pow 2 32 ≤ Nat.pow 2 k := Nat.pow_le_pow_right (Nat.succ_pos 1) (Nat.not_lt.1 hk)
    exact absurd hword (Nat.not_lt.2 (hrange ▸ hle))
  have hdouble : 2 * 2 ^ k = Nat.pow 2 (k + 1) := Nat.mul_comm 2 _
  refine ⟨hlt, ?_, ?_, fun j => Nat.and_two_pow_sub_one_eq_mod j k⟩
  · rw [hdouble, hrange]
    exact Nat.pow_le_pow_right (Nat.succ_pos 1) hk
  · rw [hrange]
    exact Nat.pow_dvd_pow 2 hk.le

lemma ticksBetween_eq {time minTime : ℕ} (hle : minTime ≤ time) (hlt : time < minTime + wordRange) :
    ticksBetween time minTime = time - minTime := by
  rw [ticksBetween, timeRange, wordRange]
  rw [wordRange] at hlt
  omega

lemma magnitude_eq {word : ℕ} (h : 2 * word < wordRange) : magnitude word = word := if_pos h

namespace TQueue

variable {P : TooFar} {q q' : TQueue P} {n : Node} {cTime : ℕ}

/-! ## The ring -/

/-- The callbacks in the ring. -/
def near (q : TQueue P) : List Node := contents q.accessSize q.access

/-- The callbacks that are too far. -/
def far (q : TQueue P) : List Node := P.toList q.tooFar

/-- The callbacks in the queue. -/
def pending (q : TQueue P) : List Node := q.near ++ q.far

/-- The slot of the time that is `k` ticks ahead of `minTime`. -/
def slot (q : TQueue P) (k : ℕ) : ℕ := (q.minPos + k) % q.accessSize

/-- The callbacks in the ring are in the slots of their times. -/
structure Ring (q : TQueue P) : Prop where
  size : RingSize q.accessSize
  minPos_lt : q.minPos < q.accessSize
  slots : ∀ pos < q.accessSize, ∀ n ∈ q.access pos, q.minTime ≤ n.time ∧
    n.time < q.minTime + q.accessSize ∧ pos = q.slot (n.time - q.minTime)
  nNodes : q.nNodes = q.near.length

lemma slot_zero (h : q.minPos < q.accessSize) : q.slot 0 = q.minPos := Nat.mod_eq_of_lt h

/-- Times that are less than the size of the ring ahead have different slots. -/
lemma slot_inj {j k : ℕ} (hj : j < q.accessSize) (hk : k < q.accessSize) (h : q.slot j = q.slot k) :
    j = k := by
  have hmod : j ≡ k [MOD q.accessSize] := Nat.ModEq.add_left_cancel' q.minPos h
  exact Nat.ModEq.eq_of_lt_of_lt hmod hj hk

namespace Ring

variable (hq : q.Ring)

include hq

lemma posOf_eq (hle : q.minTime ≤ n.time) :
    q.posOf n.time = q.slot (n.time - q.minTime) := by
  have hsum : q.minPos + n.time + timeRange - q.minTime =
      q.minPos + (n.time - q.minTime) + timeRange := by
    omega
  obtain ⟨k, hk⟩ := hq.size.dvd
  have hword : timeRange = q.accessSize * (k * wordRange) := by
    rw [← Nat.mul_assoc, ← hk]
    rfl
  rw [posOf, accessMask, hq.size.mask, Nat.mod_mod_of_dvd _ hq.size.dvd, hsum, hword,
    Nat.add_mul_mod_self_left, slot]

lemma slot_lt (k : ℕ) : q.slot k < q.accessSize :=
  Nat.mod_lt _ (Nat.lt_of_le_of_lt (Nat.zero_le _) hq.size.seven_lt)

/-- The callbacks in the slot of `minTime` are for that time. -/
lemma time_eq (hn : n ∈ q.access q.minPos) : n.time = q.minTime := by
  obtain ⟨hle, hlt, hpos⟩ := hq.slots _ hq.minPos_lt n hn
  rw [← slot_zero hq.minPos_lt] at hpos
  have hzero : 0 = n.time - q.minTime := slot_inj
    (Nat.lt_of_le_of_lt (Nat.zero_le _) hq.size.seven_lt) (by omega) hpos
  omega

omit hq in
lemma mem_near : n ∈ q.near ↔ ∃ pos < q.accessSize, n ∈ q.access pos := mem_contents

/-- The callbacks for `minTime` are in its slot. -/
lemma mem_access_minPos (hn : n ∈ q.near) (htime : n.time = q.minTime) :
    n ∈ q.access q.minPos := by
  obtain ⟨pos, hpos, hn⟩ := mem_near.1 hn
  obtain ⟨-, -, hslot⟩ := hq.slots pos hpos n hn
  rw [htime, Nat.sub_self, slot_zero hq.minPos_lt] at hslot
  rw [← hslot]
  exact hn

lemma append (hle : q.minTime ≤ n.time) (hlt : n.time < q.minTime + q.accessSize) :
    (q.append n).Ring ∧ (q.append n).near.Perm (n :: q.near) := by
  have hslot : q.posOf n.time < q.accessSize := by
    rw [hq.posOf_eq hle]
    exact hq.slot_lt _
  have hperm : (q.append n).near.Perm (n :: q.near) := contents_update_perm hslot
  refine ⟨⟨hq.size, hq.minPos_lt, fun pos hpos m hm => ?_, ?_⟩, hperm⟩
  · by_cases heq : pos = q.posOf n.time
    · subst heq
      have hm' : m ∈ Function.update q.access (q.posOf n.time) (q.access (q.posOf n.time) ++ [n])
        (q.posOf n.time) := hm
      rw [Function.update_self, List.mem_append, List.mem_singleton] at hm'
      rcases hm' with hm' | rfl
      · exact hq.slots _ hpos m hm'
      · exact ⟨hle, hlt, hq.posOf_eq hle⟩
    · have hm' : m ∈ Function.update q.access (q.posOf n.time) (q.access (q.posOf n.time) ++ [n])
        pos := hm
      rw [Function.update_of_ne heq] at hm'
      exact hq.slots pos hpos m hm'
  · rw [hperm.length_eq, List.length_cons, ← hq.nNodes]
    rfl

/-- An empty slot is passed by. -/
lemma advance (hnil : q.access q.minPos = []) : q.advance.Ring := by
  have hpos : q.advance.minPos = (q.minPos + 1) % q.accessSize := hq.size.mask _
  refine ⟨hq.size, ?_, fun pos hlt n hn => ?_, hq.nNodes⟩
  · rw [hpos]
    exact Nat.mod_lt _ (Nat.lt_of_le_of_lt (Nat.zero_le _) hq.size.seven_lt)
  · obtain ⟨hle, hub, hslot⟩ := hq.slots pos hlt n hn
    have hne : n.time ≠ q.minTime := by
      intro heq
      have hmem := hq.mem_access_minPos (mem_near.2 ⟨pos, hlt, hn⟩) heq
      rw [hnil] at hmem
      cases hmem
    refine ⟨Nat.lt_of_le_of_ne hle (Ne.symm hne), Nat.lt_add_right 1 hub |>.trans_eq ?_, ?_⟩
    · show q.minTime + q.accessSize + 1 = q.minTime + 1 + q.accessSize
      omega
    · have hsucc : n.time - q.minTime = 1 + (n.time - (q.minTime + 1)) := by omega
      rw [hslot, slot, slot, hpos, hsucc]
      show _ = ((q.minPos + 1) % q.accessSize + (n.time - (q.minTime + 1))) % q.accessSize
      rw [Nat.mod_add_mod, Nat.add_assoc]

/-- An empty ring is for any time. -/
lemma restart (hnil : q.nNodes = 0) :
    Ring { q with minTime := cTime, minPos := 0 } := by
  refine ⟨hq.size, Nat.lt_of_le_of_lt (Nat.zero_le _) hq.size.seven_lt, fun pos hlt n hn => ?_,
    hq.nNodes⟩
  have hmem : n ∈ q.near := mem_near.2 ⟨pos, hlt, hn⟩
  rw [hq.nNodes] at hnil
  rw [List.eq_nil_of_length_eq_zero hnil] at hmem
  cases hmem

end Ring

/-- A callback is taken out of the ring. -/
structure Takes (q : TQueue P) (n : Node) (q' : TQueue P) : Prop where
  ring : q'.Ring
  near : q.near.Perm (n :: q'.near)
  tooFar : q'.tooFar = q.tooFar
  minTooFar : q'.minTooFar = q.minTooFar
  minTime : q'.minTime = q.minTime
  qType : q'.qType = Function.update q.qType n.callback .inNoQueue

lemma Ring.take (hq : q.Ring) (hne : q.access q.minPos ≠ []) :
    ∃ n q', q.take = (some n, q') ∧ n ∈ q.access q.minPos ∧ q.Takes n q' := by
  rw [TQueue.take]
  split
  · rename_i hnil
    exact absurd hnil hne
  · rename_i n rest hrest
    have hperm : q.near.Perm (n :: contents q.accessSize (Function.update q.access q.minPos rest)) :=
      contents_perm_update hq.minPos_lt (hrest ▸ List.Perm.refl _)
    refine ⟨n, _, rfl, hrest ▸ List.mem_cons_self, ⟨hq.size, hq.minPos_lt, fun pos hlt m hm => ?_, ?_⟩,
      hperm, rfl, rfl, rfl, rfl⟩
    · apply hq.slots pos hlt m
      have hm' : m ∈ Function.update q.access q.minPos rest pos := hm
      by_cases heq : pos = q.minPos
      · subst heq
        rw [Function.update_self] at hm'
        rw [hrest]
        exact .tail _ hm'
      · rw [Function.update_of_ne heq] at hm'
        exact hm'
    · have hlen := hperm.length_eq
      rw [← hq.nNodes, List.length_cons] at hlen
      show q.nNodes - 1 = _
      rw [hlen]
      rfl

end TQueue

end Sesc.Timing
