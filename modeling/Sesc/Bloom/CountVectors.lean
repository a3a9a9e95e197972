import Mathlib.Data.Multiset.Filter
import Sesc.Bloom.BloomFilter

/-!
# What a vector of counters represents

Every counter of a vector is the number of the elements of a multiset with its index.  The operations
of a vector keep this while the multisets have less than 2^31 elements, so that no sum leaves the
range of an `int32_t`.
-/

namespace Sesc.Bloom

open Lib

lemma wrap_eq {x : ℤ} (hlo : -2147483648 ≤ x) (hhi : x < 2147483648) : wrap x = x :=
  Int.bmod_eq_of_le (by omega) (by omega)

namespace Chunk

/-- The size of a vector is a positive `int32_t`. -/
structure Sized (c : Chunk) : Prop where
  pos : 0 < c.vSize
  lt : c.vSize < 2147483648

lemma getIndex_lt {c : Chunk} (hc : c.Sized) (e : Element) : c.getIndex e < c.vSize :=
  Nat.mod_lt _ hc.pos

end Chunk

lemma mem_initMasks {totShift : ℕ} {vectors : List (ℕ × ℕ)} {c : Chunk}
    (hc : c ∈ initMasks totShift vectors) : ∃ v ∈ vectors, c.vSize = v.2 := by
  induction vectors generalizing totShift with
  | nil => cases hc
  | cons v vectors ih =>
    rcases List.mem_cons.1 hc with rfl | hc
    · exact ⟨v, List.mem_cons_self, rfl⟩
    · obtain ⟨v', hv', hsize⟩ := ih hc
      exact ⟨v', List.mem_cons_of_mem v hv', hsize⟩

lemma Shape.sized {shape : Shape} {c : Chunk} (hc : c ∈ shape.chunks) : c.Sized := by
  obtain ⟨v, hv, hsize⟩ := mem_initMasks hc
  exact ⟨hsize ▸ shape.vSize_pos v hv, hsize ▸ shape.vSize_lt v hv⟩

/-! ## Arrays of counters -/

lemma getD_zipWith {f : ℤ → ℤ → ℤ} {as bs : List ℤ} {j : ℕ} (ha : j < as.length)
    (hb : j < bs.length) : (List.zipWith f as bs).getD j 0 = f (as.getD j 0) (bs.getD j 0) := by
  simp [List.getD_eq_getElem?_getD, List.getElem?_zipWith, ha, hb]

namespace CountVector

lemma countNonZero_set {counts : List ℤ} {i : ℕ} (hi : i < counts.length) (c : ℤ) :
    countNonZero (counts.set i c) =
      countNonZero counts - (if counts.getD i 0 = 0 then 0 else 1) + if c = 0 then 0 else 1 := by
  have hget : counts.getD i 0 = counts[i] := by simp [List.getD_eq_getElem?_getD, hi]
  have hpos : counts[i] ≠ 0 → 0 < counts.countP fun c => c ≠ 0 := fun hne =>
    List.countP_pos_iff.2 ⟨counts[i], List.getElem_mem hi, decide_eq_true hne⟩
  rw [hget, countNonZero, countNonZero, List.countP_set hi]
  generalize (counts.countP fun c => c ≠ 0) = n at hpos ⊢
  by_cases hold : counts[i] = 0
  · by_cases hnew : c = 0 <;> simp [hold, hnew]
  · have := hpos hold
    by_cases hnew : c = 0 <;> simp [hold, hnew] <;> omega

/-- Every counter is the number of the elements of the multiset with its index. -/
structure Represents (M : Multiset Element) (v : CountVector) : Prop where
  sized : v.chunk.Sized
  length_eq : v.counts.length = v.chunk.vSize
  count_eq : ∀ j < v.chunk.vSize, v.count j = M.countP fun e => v.chunk.getIndex e = j
  nonZeroCount_eq : v.nonZeroCount = countNonZero v.counts

variable {M N : Multiset Element} {v w : CountVector} {e : Element}

lemma Represents.count_le (h : Represents M v) {j : ℕ} (hj : j < v.chunk.vSize) :
    0 ≤ v.count j ∧ v.count j ≤ M.card := by
  rw [h.count_eq j hj]
  exact ⟨Int.natCast_nonneg _, Int.ofNat_le.2 (Multiset.countP_le_card _ _)⟩

/-- The number of counters that are not zero is in the range of an `int32_t`. -/
lemma Represents.nonZeroCount_le (h : Represents M v) :
    0 ≤ v.nonZeroCount ∧ v.nonZeroCount ≤ v.chunk.vSize := by
  rw [h.nonZeroCount_eq, ← h.length_eq]
  exact ⟨Int.natCast_nonneg _, Int.ofNat_le.2 List.countP_le_length⟩

/-- Some counter is zero, so that not all are counted. -/
lemma Represents.nonZeroCount_lt (h : Represents M v) {j : ℕ} (hj : j < v.chunk.vSize)
    (hzero : v.count j = 0) : v.nonZeroCount < v.chunk.vSize := by
  have hset := countNonZero_set (h.length_eq ▸ hj : j < v.counts.length) 1
  rw [if_pos (show v.counts.getD j 0 = 0 from hzero), if_neg Int.one_ne_zero, ← h.nonZeroCount_eq] at hset
  have hle : countNonZero (v.counts.set j 1) ≤ (v.counts.set j 1).length :=
    Int.ofNat_le.2 List.countP_le_length
  rw [List.length_set, h.length_eq] at hle
  omega

lemma represents_new {c : Chunk} (hc : c.Sized) : Represents 0 (new c) := by
  refine ⟨hc, by simp [new], ?_, ?_⟩
  · intro j hj
    rw [Multiset.countP_zero, count, List.getD_eq_getElem?_getD]
    show ((List.replicate c.vSize (0 : ℤ))[j]?).getD 0 = _
    rw [List.getElem?_replicate]
    split <;> rfl
  · simp [countNonZero, new, List.countP_replicate]

/-- A counter and the number of counters that are not zero change together. -/
lemma Represents.set (h : Represents M v) {c n : ℤ}
    (hc : c = N.countP fun e' => v.chunk.getIndex e' = v.chunk.getIndex e)
    (hother : ∀ j ≠ v.chunk.getIndex e, (N.countP fun e' => v.chunk.getIndex e' = j) =
      M.countP fun e' => v.chunk.getIndex e' = j)
    (hn : n = v.nonZeroCount - (if v.count (v.chunk.getIndex e) = 0 then 0 else 1) +
      if c = 0 then 0 else 1) :
    Represents N { v with counts := v.counts.set (v.chunk.getIndex e) c, nonZeroCount := n } := by
  have hi : v.chunk.getIndex e < v.counts.length := h.length_eq ▸ v.chunk.getIndex_lt h.sized e
  refine ⟨h.sized, by simpa using h.length_eq, ?_, ?_⟩
  · intro j hj
    show (v.counts.set (v.chunk.getIndex e) c).getD j 0 = _
    rw [List.getD_eq_getElem?_getD, List.getElem?_set]
    by_cases hj' : v.chunk.getIndex e = j
    · subst hj'
      simpa [hi] using hc
    · rw [if_neg hj', ← List.getD_eq_getElem?_getD]
      show v.count j = _
      rw [h.count_eq j hj]
      exact congrArg Nat.cast (hother j fun heq => hj' heq.symm).symm
  · show n = countNonZero (v.counts.set _ c)
    rw [countNonZero_set hi, ← h.nonZeroCount_eq]
    exact hn

lemma Represents.insert (h : Represents M v) (hcard : M.card + 1 < 2147483648) (e : Element) :
    Represents (e ::ₘ M) (v.insert e) := by
  have hlt := v.chunk.getIndex_lt h.sized e
  have hcount := h.count_le hlt
  have hnonZero := h.nonZeroCount_le
  have hsize := h.sized.lt
  have hsum : wrap (v.count (v.chunk.getIndex e) + 1) = v.count (v.chunk.getIndex e) + 1 :=
    wrap_eq (by omega) (by omega)
  refine h.set ?_ ?_ ?_
  · rw [hsum, h.count_eq _ hlt, Multiset.countP_cons, if_pos rfl]
    rfl
  · intro j hj
    rw [Multiset.countP_cons, if_neg fun heq => hj heq.symm]
    rfl
  · by_cases hzero : v.count (v.chunk.getIndex e) = 0
    · have hspace := h.nonZeroCount_lt hlt hzero
      rw [hsum, if_pos hzero, if_pos hzero, wrap_eq (by omega) (by omega), hzero]
      simp
    · rw [hsum, if_neg hzero, if_neg hzero, if_neg (by omega)]
      omega

lemma remove_eq (h : 0 ≤ wrap (v.count (v.chunk.getIndex e) - 1)) :
    v.remove e = .ok { v with
      counts := v.counts.set (v.chunk.getIndex e) (wrap (v.count (v.chunk.getIndex e) - 1))
      nonZeroCount := if wrap (v.count (v.chunk.getIndex e) - 1) = 0 then wrap (v.nonZeroCount - 1)
        else v.nonZeroCount } := by
  rw [CountVector.remove, check_bind h]
  rfl

/-- A contained element is removed without an assertion failing. -/
lemma Represents.remove (h : Represents (e ::ₘ M) v) (hcard : M.card + 1 < 2147483648) :
    ∃ v', v.remove e = .ok v' ∧ v'.chunk = v.chunk ∧ Represents M v' := by
  have hlt := v.chunk.getIndex_lt h.sized e
  have hcount := h.count_le hlt
  have hnonZero := h.nonZeroCount_le
  have hsize := h.sized.lt
  have heq : v.count (v.chunk.getIndex e) =
      (M.countP fun e' => v.chunk.getIndex e' = v.chunk.getIndex e) + 1 := by
    rw [h.count_eq _ hlt, Multiset.countP_cons, if_pos rfl]
    rfl
  rw [Multiset.card_cons] at hcount
  have hdiff : wrap (v.count (v.chunk.getIndex e) - 1) = v.count (v.chunk.getIndex e) - 1 :=
    wrap_eq (by omega) (by omega)
  refine ⟨_, remove_eq (by rw [hdiff]; omega), rfl, h.set ?_ ?_ ?_⟩
  · rw [hdiff, heq]
    omega
  · intro j hj
    rw [Multiset.countP_cons, if_neg fun heq => hj heq.symm]
    rfl
  · have hne : v.count (v.chunk.getIndex e) ≠ 0 := by omega
    rw [hdiff, if_neg hne, wrap_eq (by omega) (by omega)]
    split <;> omega

lemma Represents.mergeWith (h : Represents M v) (hw : Represents N w) (hchunk : v.chunk = w.chunk)
    (hcard : M.card + N.card < 2147483648) : Represents (M + N) (v.mergeWith w) := by
  have hlength : w.counts.length = v.chunk.vSize := by rw [hw.length_eq, hchunk]
  refine ⟨h.sized, ?_, ?_, rfl⟩
  · simp [CountVector.mergeWith, h.length_eq, hlength]
  · intro j (hj : j < v.chunk.vSize)
    have hjw : j < w.chunk.vSize := hchunk ▸ hj
    have hcount := h.count_le hj
    have hcountw := hw.count_le hjw
    show (List.zipWith _ v.counts w.counts).getD j 0 = _
    rw [getD_zipWith (h.length_eq ▸ hj) (hlength ▸ hj)]
    show wrap (v.count j + w.count j) = _
    rw [wrap_eq (by omega) (by omega), h.count_eq j hj, hw.count_eq j hjw, Multiset.countP_add,
      ← hchunk]
    rfl

lemma subtract_eq
    (h : ∀ c ∈ List.zipWith (fun a b => wrap (a - b)) v.counts w.counts, 0 ≤ c) :
    v.subtract w = .ok { v with
      counts := List.zipWith (fun a b => wrap (a - b)) v.counts w.counts
      nonZeroCount := countNonZero (List.zipWith (fun a b => wrap (a - b)) v.counts w.counts) } := by
  rw [CountVector.subtract]
  exact check_bind h

/-- A contained multiset is subtracted without an assertion failing. -/
lemma Represents.subtract (h : Represents (M + N) v) (hw : Represents N w)
    (hchunk : v.chunk = w.chunk) (hcard : M.card + N.card < 2147483648) :
    ∃ v', v.subtract w = .ok v' ∧ v'.chunk = v.chunk ∧ Represents M v' := by
  have hlength : w.counts.length = v.chunk.vSize := by rw [hw.length_eq, hchunk]
  have hdiff : ∀ j < v.chunk.vSize,
      (List.zipWith (fun a b => wrap (a - b)) v.counts w.counts).getD j 0 =
        M.countP fun e => v.chunk.getIndex e = j := by
    intro j hj
    have hjw : j < w.chunk.vSize := hchunk ▸ hj
    have hcount := h.count_le hj
    have hcountw := hw.count_le hjw
    rw [Multiset.card_add] at hcount
    rw [getD_zipWith (h.length_eq ▸ hj) (hlength ▸ hj)]
    show wrap (v.count j - w.count j) = _
    rw [wrap_eq (by omega) (by omega), h.count_eq j hj, hw.count_eq j hjw, Multiset.countP_add,
      ← hchunk]
    omega
  refine ⟨_, subtract_eq fun c hc => ?_, rfl, h.sized, by simp [h.length_eq, hlength], hdiff, rfl⟩
  obtain ⟨j, hj, rfl⟩ := List.mem_iff_getElem.1 hc
  have hj' : j < v.chunk.vSize := by
    rw [List.length_zipWith, h.length_eq, hlength, Nat.min_self] at hj
    exact hj
  have hget := hdiff j hj'
  rw [List.getD_eq_getElem?_getD, List.getElem?_eq_getElem hj, Option.getD_some] at hget
  rw [hget]
  exact Int.natCast_nonneg _

/-! ## Queries -/

lemma Represents.count_pos (h : Represents M v) (he : e ∈ M) :
    0 < v.count (v.chunk.getIndex e) := by
  rw [h.count_eq _ (v.chunk.getIndex_lt h.sized e)]
  exact Int.natCast_pos.2 (Multiset.countP_pos_of_mem he rfl)

lemma Represents.mayExist (h : Represents M v) (he : e ∈ M) : v.mayExist e = true :=
  decide_eq_true (Int.ne_of_gt (h.count_pos he))

/-- The counters with an index are a pair of the two arrays. -/
lemma mem_zip_counts {j : ℕ} (hv : j < v.counts.length) (hw : j < w.counts.length) :
    (v.count j, w.count j) ∈ v.counts.zip w.counts := by
  refine List.mem_iff_getElem.2 ⟨j, by simp [hv, hw], ?_⟩
  simp [count, List.getD_eq_getElem?_getD, hv, hw]

lemma Represents.mayIntersect (h : Represents M v) (hw : Represents N w)
    (hchunk : v.chunk = w.chunk) (heM : e ∈ M) (heN : e ∈ N) : v.mayIntersect w = true := by
  have hlt := v.chunk.getIndex_lt h.sized e
  have hpos := h.count_pos heM
  have hposw := hw.count_pos heN
  rw [← hchunk] at hposw
  refine List.any_eq_true.2 ⟨_, mem_zip_counts (h.length_eq ▸ hlt) ?_, decide_eq_true ⟨hpos, hposw⟩⟩
  rw [hw.length_eq, ← hchunk]
  exact hlt

lemma Represents.isSubsetOf (h : Represents M v) (hw : Represents N w)
    (hchunk : v.chunk = w.chunk) (hle : M ≤ N) : v.isSubsetOf w = true := by
  refine List.all_eq_true.2 fun p hp => decide_eq_true ?_
  obtain ⟨j, hj, rfl⟩ := List.mem_iff_getElem.1 hp
  rw [List.length_zip, h.length_eq, hw.length_eq, ← hchunk, Nat.min_self] at hj
  have hcount := h.count_eq j hj
  have hcountw := hw.count_eq j (hchunk ▸ hj)
  have hlt : j < v.counts.length := h.length_eq ▸ hj
  have hltw : j < w.counts.length := by rw [hw.length_eq, ← hchunk]; exact hj
  rw [count, List.getD_eq_getElem?_getD, List.getElem?_eq_getElem hlt, Option.getD_some] at hcount
  rw [count, List.getD_eq_getElem?_getD, List.getElem?_eq_getElem hltw, Option.getD_some,
    ← hchunk] at hcountw
  rw [List.getElem_zip]
  show v.counts[j] ≤ w.counts[j]
  rw [hcount, hcountw]
  exact Int.ofNat_le.2 (Multiset.countP_le_of_le _ hle)

end CountVector

end Sesc.Bloom
