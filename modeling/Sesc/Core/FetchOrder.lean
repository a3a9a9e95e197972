import Mathlib.Data.Int.Order.Basic
import Mathlib.Data.List.Count
import Sesc.Core.Pipeline

/-!
# The order of the buckets

The items that are handed out and not in order yet are outstanding or received, and the next one is
not received.  All items before the next one are ready; those with instructions have been delivered, in
order, or are in the buffer.
-/

namespace Sesc.Core

open Lib

variable {p : PipelineParams} {s s' : Fetching} {b : Bucket} {h : List Bucket}

namespace Fetching

/-- The buckets in the pool, outstanding, received, in the hand of `readyItem`, in the buffer and
delivered. -/
def places (s : Fetching) (h : List Bucket) : List Bucket :=
  s.bucketPool ++ s.outstanding ++ s.received ++ h ++ s.buffer ++ s.delivered

/-- The bucket is the one that was handed out as its item, and has not been handed out since. -/
def Identified (s : Fetching) (b : Bucket) : Prop :=
  s.handedOut[(s.bucket b).pipeId]? = some b ∧ b ∉ s.handedOut.drop ((s.bucket b).pipeId + 1)

/-- A delivery is of an item that had instructions when it was made ready, and `PipeLength` cycles
later at the earliest. -/
def Delayed (p : PipelineParams) (s : Fetching) (d : Delivery) : Prop :=
  s.handedOut[d.item]? = some d.bucket ∧
    ∃ clock, s.ready d.item = some (clock, true) ∧ clock + p.PipeLength ≤ d.time

/-- Each bucket is in one place, the counts are within their bounds, and the items with instructions
are delivered in the order in which they were handed out, not before their time. -/
structure Orderly (p : PipelineParams) (s : Fetching) : Prop where
  conserved : (s.places []).Perm (List.range p.bucketPoolMaxSize)
  requests : 0 ≤ s.nIRequests ∧ s.nIRequests ≤ p.MaxIRequests
  capacity : s.buffer.length ≤ p.bufferMask + 1
  hasOutstandingItems_iff : s.hasOutstandingItems p = true ↔
    s.outstanding ≠ [] ∨ s.received ≠ [] ∨ s.buffer ≠ []
  ready : ∀ item < s.minItemCntr, (s.ready item).isSome
  order : s.deliveries.map (·.item) ++ s.buffer.map (fun b => (s.bucket b).pipeId) =
    (List.range s.minItemCntr).filter s.filled
  identified : ∀ b ∈ s.outstanding ++ s.received ++ s.buffer ++ s.delivered, s.Identified b
  delayed : ∀ d ∈ s.deliveries, s.Delayed p d
  complete : s.outstanding = [] → s.received = [] ∧ s.minItemCntr = s.handedOut.length

/-- The invariant, with the buckets in the hand of `readyItem`. -/
structure Inv (p : PipelineParams) (s : Fetching) (h : List Bucket) : Prop where
  perm : (s.places h).Perm (List.range p.bucketPoolMaxSize)
  nIRequests_eq : s.nIRequests + s.outstanding.length = p.MaxIRequests
  outstanding_le : s.outstanding.length ≤ p.MaxIRequests
  min_le : s.minItemCntr ≤ s.maxItemCntr
  max_eq : s.maxItemCntr = s.handedOut.length
  items : ((h ++ s.outstanding ++ s.received).map fun b => (s.bucket b).pipeId).Perm
    (List.range' s.minItemCntr (s.maxItemCntr - s.minItemCntr))
  ready : ∀ item < s.minItemCntr, (s.ready item).isSome
  order : s.deliveries.map (·.item) ++ s.buffer.map (fun b => (s.bucket b).pipeId) =
    (List.range s.minItemCntr).filter s.filled
  identified : ∀ b ∈ s.outstanding ++ s.received ++ h ++ s.buffer ++ s.delivered, s.Identified b
  delayed : ∀ d ∈ s.deliveries, s.Delayed p d
  stamped : ∀ b ∈ s.received ++ h ++ s.buffer,
    s.ready (s.bucket b).pipeId = some ((s.bucket b).clock, decide ((s.bucket b).insts ≠ []))
  pool_empty : ∀ b ∈ s.bucketPool, (s.bucket b).insts = []
  buffer_nonempty : ∀ b ∈ s.buffer, (s.bucket b).insts ≠ []
  delivered_lt : ∀ b ∈ s.delivered, (s.bucket b).pipeId < s.minItemCntr

/-- The next item is not among the received ones. -/
def Drained (s : Fetching) : Prop := ∀ b ∈ s.received, (s.bucket b).pipeId ≠ s.minItemCntr

lemma Inv.nodup (hs : s.Inv p h) : (s.places h).Nodup := hs.perm.nodup_iff.2 List.nodup_range

lemma Inv.count_le (hs : s.Inv p h) (b : Bucket) : (s.places h).count b ≤ 1 :=
  List.nodup_iff_count_le_one.1 hs.nodup b

lemma Inv.bounds (hs : s.Inv p h) (hb : b ∈ h ++ s.outstanding ++ s.received) :
    s.minItemCntr ≤ (s.bucket b).pipeId ∧ (s.bucket b).pipeId < s.maxItemCntr := by
  have hmem := hs.items.mem_iff.1 (List.mem_map_of_mem hb)
  rw [List.mem_range'_1] at hmem
  have := hs.min_le
  omega

lemma Inv.lt_of_mem_buffer (hs : s.Inv p h) (hb : b ∈ s.buffer) :
    (s.bucket b).pipeId < s.minItemCntr := by
  have hmem : (s.bucket b).pipeId ∈ (List.range s.minItemCntr).filter s.filled := by
    rw [← hs.order]
    exact List.mem_append_right _ (List.mem_map_of_mem hb)
  exact List.mem_range.1 (List.mem_filter.1 hmem).1

lemma Inv.lt_of_mem_deliveries (hs : s.Inv p h) {d : Delivery} (hd : d ∈ s.deliveries) :
    d.item < s.minItemCntr := by
  have hmem : d.item ∈ (List.range s.minItemCntr).filter s.filled := by
    rw [← hs.order]
    exact List.mem_append_left _ (List.mem_map_of_mem hd)
  exact List.mem_range.1 (List.mem_filter.1 hmem).1

lemma le_closestPowerOfTwo (fuel mask : ℕ) : mask ≤ closestPowerOfTwo fuel mask := by
  induction fuel generalizing mask with
  | zero => exact Nat.le_refl _
  | succ fuel ih =>
    rw [closestPowerOfTwo]
    split
    · exact Nat.le_refl _
    · exact Nat.le_trans (Nat.le_succ _) (ih _)

lemma bucketPoolMaxSize_le (p : PipelineParams) : p.bucketPoolMaxSize ≤ p.bufferMask + 1 := by
  have := le_closestPowerOfTwo (2 * p.PipeLength + 1 + p.MaxIRequests)
    (2 * p.PipeLength + 1 + p.MaxIRequests)
  rw [PipelineParams.bucketPoolMaxSize, PipelineParams.bufferMask, pipeMask]
  omega

lemma Inv.length_le (hs : s.Inv p h) : h.length + s.buffer.length ≤ p.bufferMask + 1 := by
  have hlength := hs.perm.length_eq
  simp only [places, List.length_append, List.length_range] at hlength
  have := bucketPoolMaxSize_le p
  omega

lemma Inv.orderly (hs : s.Inv p []) (hdrained : s.Drained) : s.Orderly p where
  conserved := hs.perm
  requests := by
    have := hs.nIRequests_eq
    have := hs.outstanding_le
    omega
  capacity := by simpa using hs.length_le
  hasOutstandingItems_iff := by
    have hcount : s.nIRequests < p.MaxIRequests ↔ s.outstanding ≠ [] := by
      rw [← List.length_pos_iff]
      have := hs.nIRequests_eq
      omega
    simp only [Pipeline.hasOutstandingItems, Bool.or_eq_true, Bool.not_eq_true',
      List.isEmpty_eq_false_iff, decide_eq_true_eq, hcount]
    exact or_comm.trans (or_congr_right or_comm)
  ready := hs.ready
  order := hs.order
  identified := by simpa using hs.identified
  delayed := hs.delayed
  complete := by
    intro hnone
    have hitems := hs.items
    rw [hnone, List.nil_append, List.nil_append] at hitems
    -- the next item would be among the received ones
    have hmax : s.maxItemCntr = s.minItemCntr := by
      by_contra hne
      have hmin : s.minItemCntr ∈ List.range' s.minItemCntr (s.maxItemCntr - s.minItemCntr) := by
        have := hs.min_le
        rw [List.mem_range'_1]
        omega
      obtain ⟨b, hb, heq⟩ := List.mem_map.1 (hitems.mem_iff.2 hmin)
      exact hdrained b hb heq
    rw [hmax, Nat.sub_self, List.range'_zero, List.perm_nil, List.map_eq_nil_iff] at hitems
    exact ⟨hitems, hmax.symm.trans hs.max_eq⟩

lemma Inv.perm_of_count (hs : s.Inv p h) {h' : List Bucket}
    (hcount : ∀ x, (s'.places h').count x = (s.places h).count x) :
    (s'.places h').Perm (List.range p.bucketPoolMaxSize) :=
  (List.perm_iff_count.2 hcount).trans hs.perm

lemma bucket_setBucket_of_ne {s : Pipeline} {b b' : Bucket} {f : IBucket → IBucket} (hne : b' ≠ b) :
    (s.setBucket b f).bucket b' = s.bucket b' := Function.update_of_ne hne _ _

lemma bucket_setBucket_self {s : Pipeline} {f : IBucket → IBucket} :
    (s.setBucket b f).bucket b = f (s.bucket b) := Function.update_self _ _ _

/-! ## The loop of `readyItem` -/

lemma takeIn_of_empty {s : Pipeline} (hid : (s.bucket b).pipeId = s.minItemCntr)
    (hempty : (s.bucket b).insts = []) :
    s.takeIn p b = .ok { s with
      minItemCntr := s.minItemCntr + 1, bucketPool := b :: s.bucketPool } := by
  rw [Pipeline.takeIn]
  simp only [if_pos hempty, Pipeline.doneItem]
  rw [check_bind (hid ▸ Nat.lt_succ_self _), check_bind hempty]
  rfl

lemma takeIn_of_nonempty {s : Pipeline} (hroom : s.buffer.length ≤ p.bufferMask)
    (hempty : (s.bucket b).insts ≠ []) :
    s.takeIn p b = .ok { s with
      minItemCntr := s.minItemCntr + 1, buffer := s.buffer ++ [b] } := by
  rw [Pipeline.takeIn]
  simp only [if_neg hempty, Pipeline.pushBuffer]
  rw [check_bind hroom]
  rfl

/-- The bucket in hand is the next item. -/
lemma Inv.takeIn (hs : s.Inv p [b]) (hnext : (s.bucket b).pipeId = s.minItemCntr) :
    ∃ t, s.toPipeline.takeIn p b = .ok t ∧ { s with toPipeline := t }.Inv p [] ∧
      t.received = s.received := by
  have hlt : s.minItemCntr < s.maxItemCntr := hnext ▸ (hs.bounds (b := b) (by simp)).2
  have hstamp := hs.stamped b (by simp)
  rw [hnext] at hstamp
  have hitems : ((s.outstanding ++ s.received).map fun b => (s.bucket b).pipeId).Perm
      (List.range' (s.minItemCntr + 1) (s.maxItemCntr - (s.minItemCntr + 1))) := by
    have hperm := hs.items
    obtain ⟨n, hn⟩ : ∃ n, s.maxItemCntr - s.minItemCntr = n + 1 :=
      ⟨s.maxItemCntr - s.minItemCntr - 1, by omega⟩
    have hn' : s.maxItemCntr - (s.minItemCntr + 1) = n := by omega
    rw [hn, List.range'_succ] at hperm
    rw [hn']
    simp only [List.cons_append, List.nil_append, List.map_cons, hnext] at hperm
    exact hperm.cons_inv
  have hready : ∀ item < s.minItemCntr + 1, (s.ready item).isSome := by
    intro item hitem
    rcases Nat.lt_succ_iff_lt_or_eq.1 hitem with hitem | rfl
    · exact hs.ready item hitem
    · rw [hstamp]
      rfl
  have hfilled : s.filled s.minItemCntr = decide ((s.bucket b).insts ≠ []) := by
    rw [filled, hstamp]
    rfl
  by_cases hempty : (s.bucket b).insts = []
  · refine ⟨_, takeIn_of_empty hnext hempty, ?_, rfl⟩
    exact
      { perm := hs.perm_of_count fun x => by
          simp only [places, List.count_append, List.count_cons, List.count_nil]
          omega
        nIRequests_eq := hs.nIRequests_eq
        outstanding_le := hs.outstanding_le
        min_le := hlt
        max_eq := hs.max_eq
        items := hitems
        ready := hready
        order := by
          show _ = (List.range (s.minItemCntr + 1)).filter s.filled
          rw [List.range_succ, List.filter_append, ← hs.order]
          simp [hfilled, hempty]
        identified := fun x hx => hs.identified x (by
          simp only [List.mem_append, List.not_mem_nil, or_false] at hx ⊢
          tauto)
        delayed := hs.delayed
        stamped := fun x hx => hs.stamped x (by
          simp only [List.mem_append, List.not_mem_nil, or_false] at hx ⊢
          tauto)
        pool_empty := List.forall_mem_cons.2 ⟨hempty, hs.pool_empty⟩
        buffer_nonempty := hs.buffer_nonempty
        delivered_lt := fun x hx => Nat.lt_succ_of_lt (hs.delivered_lt x hx) }
  · have hlength := hs.length_le
    rw [List.length_singleton] at hlength
    refine ⟨_, takeIn_of_nonempty (by omega) hempty, ?_, rfl⟩
    exact
      { perm := hs.perm_of_count fun x => by
          simp only [places, List.count_append, List.count_cons, List.count_nil]
          omega
        nIRequests_eq := hs.nIRequests_eq
        outstanding_le := hs.outstanding_le
        min_le := hlt
        max_eq := hs.max_eq
        items := hitems
        ready := hready
        order := by
          show _ = (List.range (s.minItemCntr + 1)).filter s.filled
          rw [List.range_succ, List.filter_append, ← hs.order]
          simp [hfilled, hempty, hnext]
        identified := fun x hx => hs.identified x (by
          simp only [List.mem_append, List.not_mem_nil, or_false] at hx ⊢
          tauto)
        delayed := hs.delayed
        stamped := fun x hx => hs.stamped x (by
          simp only [List.mem_append, List.not_mem_nil, or_false] at hx ⊢
          tauto)
        pool_empty := hs.pool_empty
        buffer_nonempty := List.forall_mem_append.2 ⟨hs.buffer_nonempty, by simpa using hempty⟩
        delivered_lt := fun x hx => Nat.lt_succ_of_lt (hs.delivered_lt x hx) }

/-- Taking a bucket out of `received`. -/
lemma Inv.take (hs : s.Inv p []) (hb : b ∈ s.received) :
    { s with received := s.received.erase b }.Inv p [b] where
  perm := hs.perm_of_count fun x => by
    have := (List.perm_cons_erase hb).count_eq x
    simp only [places, List.count_append, List.count_cons, List.count_nil] at this ⊢
    omega
  nIRequests_eq := hs.nIRequests_eq
  outstanding_le := hs.outstanding_le
  min_le := hs.min_le
  max_eq := hs.max_eq
  items := by
    refine (List.Perm.map _ (List.perm_iff_count.2 fun x => ?_)).trans hs.items
    have := (List.perm_cons_erase hb).count_eq x
    simp only [List.count_append, List.count_cons, List.count_nil] at this ⊢
    omega
  ready := hs.ready
  order := hs.order
  identified := fun x hx => hs.identified x (by
    simp only [List.mem_append, List.mem_singleton, List.not_mem_nil, or_false] at hx ⊢
    rcases hx with (((hx | hx) | rfl) | hx) | hx
    · tauto
    · exact .inl (.inl (.inr (List.mem_of_mem_erase hx)))
    · tauto
    · tauto
    · tauto)
  delayed := hs.delayed
  stamped := fun x hx => hs.stamped x (by
    simp only [List.mem_append, List.mem_singleton, List.not_mem_nil, or_false] at hx ⊢
    rcases hx with (hx | rfl) | hx
    · exact .inl (List.mem_of_mem_erase hx)
    · tauto
    · tauto)
  pool_empty := hs.pool_empty
  buffer_nonempty := hs.buffer_nonempty
  delivered_lt := hs.delivered_lt

lemma Inv.clearItems (n : ℕ) (hs : s.Inv p []) (hn : s.received.length ≤ n) :
    ∃ t, s.toPipeline.clearItems p n = .ok t ∧ { s with toPipeline := t }.Inv p [] ∧
      { s with toPipeline := t }.Drained := by
  induction n generalizing s with
  | zero =>
    refine ⟨s.toPipeline, rfl, hs, fun b hb => ?_⟩
    rw [List.length_eq_zero_iff.1 (Nat.le_zero.1 hn)] at hb
    exact absurd hb List.not_mem_nil
  | succ n ih =>
    rw [Pipeline.clearItems]
    cases htop : s.receivedTop with
    | none =>
      refine ⟨s.toPipeline, rfl, hs, fun b hb => ?_⟩
      rw [List.argmin_eq_none.1 htop] at hb
      exact absurd hb List.not_mem_nil
    | some b =>
      have hb : b ∈ s.received := List.argmin_mem htop
      simp only
      split
      · rename_i hnext
        obtain ⟨t, ht, hinv, hreceived⟩ := (hs.take hb).takeIn hnext
        have hlength : t.received.length ≤ n := by
          rw [hreceived, List.length_erase_of_mem hb]
          omega
        obtain ⟨t', ht', hinv', hdrained⟩ := ih (s := { s with toPipeline := t }) hinv hlength
        refine ⟨t', ?_, hinv', hdrained⟩
        rw [ht]
        exact ht'
      · rename_i hnext
        refine ⟨s.toPipeline, rfl, hs, fun x hx => ?_⟩
        have hle : (s.bucket b).pipeId ≤ (s.bucket x).pipeId :=
          List.le_of_mem_argmin (f := fun b => (s.bucket b).pipeId) hx htop
        have := (hs.bounds (List.mem_append_right _ hb)).1
        show (s.bucket x).pipeId ≠ s.minItemCntr
        omega

/-! ## The steps -/

/-- The state in which `readyItem` has the bucket in hand. -/
def collect (s : Fetching) (b : Bucket) : Fetching :=
  { s with
    toPipeline := { s.setBucket b fun i => { i with clock := s.globalClock } with
      nIRequests := s.nIRequests + 1 }
    outstanding := s.outstanding.erase b
    ready := Function.update s.ready (s.bucket b).pipeId
      (some (s.globalClock, (s.bucket b).insts ≠ [])) }

lemma bucket_collect (s : Fetching) (b x : Bucket) :
    ((s.collect b).bucket x).pipeId = (s.bucket x).pipeId ∧
      ((s.collect b).bucket x).insts = (s.bucket x).insts := by
  show (Function.update s.bucket b _ x).pipeId = _ ∧ (Function.update s.bucket b _ x).insts = _
  by_cases hx : x = b
  · subst hx
    rw [Function.update_self]
    exact ⟨rfl, rfl⟩
  · rw [Function.update_of_ne hx]
    exact ⟨rfl, rfl⟩

lemma Inv.pipeId_ne (hs : s.Inv p []) (hb : b ∈ s.outstanding) {x : Bucket} (hx : x ∈ s.received) :
    (s.bucket x).pipeId ≠ (s.bucket b).pipeId := by
  have hnodup := hs.items.nodup_iff.2 List.nodup_range'
  rw [List.nil_append, List.map_append, List.nodup_append] at hnodup
  exact (hnodup.2.2 _ (List.mem_map_of_mem hb) _ (List.mem_map_of_mem hx)).symm

lemma Inv.collect (hs : s.Inv p []) (hb : b ∈ s.outstanding) : (s.collect b).Inv p [b] := by
  have hmin := (hs.bounds (b := b) (by simp [hb])).1
  have hready : ∀ item, item < s.minItemCntr → (s.collect b).ready item = s.ready item :=
    fun item hitem => Function.update_of_ne (by omega) _ _
  have hlength := List.length_erase_of_mem hb
  have hpos := List.length_pos_of_mem hb
  exact
  { perm := hs.perm_of_count fun x => by
      have := (List.perm_cons_erase hb).count_eq x
      simp only [places, Fetching.collect, Pipeline.setBucket, List.count_append, List.count_cons,
        List.count_nil] at this ⊢
      omega
    nIRequests_eq := by
      have := hs.nIRequests_eq
      show s.nIRequests + 1 + ((s.outstanding.erase b).length : ℤ) = p.MaxIRequests
      omega
    outstanding_le := by
      have := hs.outstanding_le
      show (s.outstanding.erase b).length ≤ p.MaxIRequests
      omega
    min_le := hs.min_le
    max_eq := hs.max_eq
    items := by
      rw [funext fun x => (bucket_collect s b x).1]
      refine (List.Perm.map _ (List.perm_iff_count.2 fun x => ?_)).trans hs.items
      have := (List.perm_cons_erase hb).count_eq x
      simp only [Fetching.collect, Pipeline.setBucket, List.count_append, List.count_cons,
        List.count_nil] at this ⊢
      omega
    ready := fun item hitem => by
      rw [hready item hitem]
      exact hs.ready item hitem
    order := by
      rw [funext fun x => (bucket_collect s b x).1]
      refine hs.order.trans (List.filter_congr fun item hitem => ?_)
      rw [filled, filled, hready item (List.mem_range.1 hitem)]
    identified := fun x hx => by
      rw [Identified, (bucket_collect s b x).1]
      refine hs.identified x ?_
      simp only [List.mem_append, List.mem_singleton, List.not_mem_nil, or_false] at hx ⊢
      rcases hx with (((hx | hx) | rfl) | hx) | hx
      · exact .inl (.inl (.inl (List.mem_of_mem_erase hx)))
      · exact .inl (.inl (.inr hx))
      · exact .inl (.inl (.inl hb))
      · exact .inl (.inr hx)
      · exact .inr hx
    delayed := fun d hd => by
      rw [Delayed, hready d.item (hs.lt_of_mem_deliveries hd)]
      exact hs.delayed d hd
    stamped := fun x hx => by
      rw [(bucket_collect s b x).1, (bucket_collect s b x).2]
      by_cases hxb : x = b
      · subst hxb
        show Function.update s.ready _ _ _ = some ((Function.update s.bucket x _ x).clock, _)
        rw [Function.update_self, Function.update_self]
      · have hmem : x ∈ s.received ++ [] ++ s.buffer := by
          simp only [List.mem_append, List.mem_singleton, hxb, or_false, List.not_mem_nil] at hx ⊢
          exact hx
        have hne : (s.bucket x).pipeId ≠ (s.bucket b).pipeId := by
          rcases List.mem_append.1 hmem with hx | hx
          · exact hs.pipeId_ne hb (by simpa using hx)
          · have := hs.lt_of_mem_buffer hx
            omega
        show Function.update s.ready _ _ _ = some ((Function.update s.bucket b _ x).clock, _)
        rw [Function.update_of_ne hne, Function.update_of_ne hxb]
        exact hs.stamped x hmem
    pool_empty := fun x hx => (bucket_collect s b x).2.trans (hs.pool_empty x hx)
    buffer_nonempty := fun x hx => by
      rw [(bucket_collect s b x).2]
      exact hs.buffer_nonempty x hx
    delivered_lt := fun x hx => by
      rw [(bucket_collect s b x).1]
      exact hs.delivered_lt x hx }

/-- A bucket that is not the next one waits in `received`. -/
lemma Inv.wait (hs : s.Inv p [b]) :
    { s with received := b :: s.received }.Inv p [] where
  perm := hs.perm_of_count fun x => by
    simp only [places, List.count_append, List.count_cons, List.count_nil]
    omega
  nIRequests_eq := hs.nIRequests_eq
  outstanding_le := hs.outstanding_le
  min_le := hs.min_le
  max_eq := hs.max_eq
  items := by
    refine (List.Perm.map _ (List.perm_iff_count.2 fun x => ?_)).trans hs.items
    simp only [List.count_append, List.count_cons, List.count_nil]
    omega
  ready := hs.ready
  order := hs.order
  identified := fun x hx => hs.identified x (by
    simp only [List.mem_append, List.mem_cons, List.not_mem_nil, or_false] at hx ⊢
    tauto)
  delayed := hs.delayed
  stamped := fun x hx => hs.stamped x (by
    simp only [List.mem_append, List.mem_cons, List.not_mem_nil, or_false] at hx ⊢
    tauto)
  pool_empty := hs.pool_empty
  buffer_nonempty := hs.buffer_nonempty
  delivered_lt := hs.delivered_lt

lemma Inv.readyItem (hs : s.Inv p []) (hdrained : s.Drained) (hb : b ∈ s.outstanding) :
    ∃ t, s.toPipeline.readyItem p b = .ok t ∧ { s.collect b with toPipeline := t }.Inv p [] ∧
      { s.collect b with toPipeline := t }.Drained := by
  have hcollect := hs.collect hb
  have hdrained' : (s.collect b).Drained := by
    intro x hx
    rw [(bucket_collect s b x).1]
    exact hdrained x hx
  rw [Pipeline.readyItem]
  simp only
  split
  · rename_i hnext
    obtain ⟨t, ht, hinv, hreceived⟩ := hcollect.takeIn hnext
    obtain ⟨t', ht', hinv', hdrained''⟩ := hinv.clearItems t.received.length (Nat.le_refl _)
    refine ⟨t', ?_, hinv', hdrained''⟩
    refine Eq.trans ?_ ht'
    exact congrArg (· >>= fun s => s.clearItems p s.received.length) ht
  · rename_i hnext
    exact ⟨_, rfl, hcollect.wait, List.forall_mem_cons.2 ⟨hnext, hdrained'⟩⟩

/-- The state after `newItem` has returned a bucket. -/
def handOut (s : Fetching) (b : Bucket) (bucketPool : List Bucket) : Fetching :=
  { s with
    toPipeline := { s.setBucket b fun i => { i with pipeId := s.maxItemCntr } with
      nIRequests := s.nIRequests - 1
      bucketPool
      maxItemCntr := s.maxItemCntr + 1 }
    handedOut := s.handedOut ++ [b]
    outstanding := b :: s.outstanding }

lemma Inv.handOut {pool : List Bucket} (hs : s.Inv p []) (hpool : s.bucketPool = b :: pool)
    (hroom : s.nIRequests ≠ 0) : (s.handOut b pool).Inv p [] := by
  have hlength := hs.nIRequests_eq
  have hle := hs.outstanding_le
  have hself : (s.handOut b pool).bucket b = { s.bucket b with pipeId := s.maxItemCntr } :=
    Function.update_self _ _ _
  have hother : ∀ x, x ≠ b → (s.handOut b pool).bucket x = s.bucket x := fun x hx =>
    Function.update_of_ne hx _ _
  -- the bucket is in the pool only
  have hne : ∀ x ∈ pool ++ s.outstanding ++ s.received ++ s.buffer ++ s.delivered, x ≠ b := by
    rintro x hx rfl
    have hcount := hs.count_le x
    have hpos := List.count_pos_iff.2 hx
    simp only [places, hpool, List.count_append, List.count_cons_self, List.count_nil] at hcount hpos
    omega
  have hne' : ∀ x ∈ s.outstanding ++ s.received ++ s.buffer ++ s.delivered, x ≠ b := fun x hx =>
    hne x (by simp only [List.mem_append] at hx ⊢; tauto)
  have hmap : ∀ l : List Bucket, (∀ x ∈ l, x ≠ b) →
      (l.map fun x => ((s.handOut b pool).bucket x).pipeId) = l.map fun x => (s.bucket x).pipeId :=
    fun l hl => List.map_congr_left fun x hx => by rw [hother x (hl x hx)]
  exact
  { perm := hs.perm_of_count fun x => by
      simp only [places, Fetching.handOut, Pipeline.setBucket, hpool, List.count_append,
        List.count_cons, List.count_nil]
      omega
    nIRequests_eq := by
      show s.nIRequests - 1 + ((b :: s.outstanding).length : ℤ) = p.MaxIRequests
      rw [List.length_cons]
      omega
    outstanding_le := by
      show (b :: s.outstanding).length ≤ p.MaxIRequests
      rw [List.length_cons]
      omega
    min_le := Nat.le_succ_of_le hs.min_le
    max_eq := by
      show s.maxItemCntr + 1 = (s.handedOut ++ [b]).length
      rw [List.length_append, ← hs.max_eq]
      rfl
    items := by
      have hmin := hs.min_le
      have hitems := hs.items
      show ((b :: (s.outstanding ++ s.received)).map _).Perm
        (List.range' s.minItemCntr (s.maxItemCntr + 1 - s.minItemCntr))
      rw [Nat.succ_sub hmin, List.range'_concat, List.map_cons, hmap _ fun x hx =>
        hne' x (List.mem_append_left _ (List.mem_append_left _ hx)), hself, Nat.one_mul,
        Nat.add_sub_cancel' hmin]
      exact (List.Perm.cons _ hitems).trans (List.perm_append_singleton _ _).symm
    ready := hs.ready
    order := by
      refine Eq.trans ?_ hs.order
      refine congrArg (_ ++ ·) (hmap _ fun x hx => ?_)
      exact hne' x (List.mem_append_left _ (List.mem_append_right _ hx))
    identified := fun x hx => by
      have hcases : x = b ∨ x ∈ s.outstanding ++ s.received ++ s.buffer ++ s.delivered := by
        simp only [Fetching.handOut, Pipeline.setBucket, List.mem_append, List.mem_cons,
          List.not_mem_nil, or_false] at hx ⊢
        tauto
      rcases hcases with rfl | hx
      · rw [Identified, hself]
        show (s.handedOut ++ [x])[s.maxItemCntr]? = some x ∧
          x ∉ (s.handedOut ++ [x]).drop (s.maxItemCntr + 1)
        rw [hs.max_eq, List.getElem?_concat_length, List.drop_of_length_le (by simp)]
        exact ⟨rfl, List.not_mem_nil⟩
      · have hxb := hne' x hx
        obtain ⟨hget, hnot⟩ := hs.identified x (by simpa using hx)
        have hlt := (List.getElem?_eq_some_iff.1 hget).1
        rw [Identified, hother x hxb]
        show (s.handedOut ++ [b])[(s.bucket x).pipeId]? = some x ∧
          x ∉ (s.handedOut ++ [b]).drop ((s.bucket x).pipeId + 1)
        rw [List.getElem?_append_left hlt, List.drop_append_of_le_length hlt, List.mem_append,
          List.mem_singleton, not_or]
        exact ⟨hget, hnot, hxb⟩
    delayed := fun d hd => by
      obtain ⟨hget, hclock⟩ := hs.delayed d hd
      refine ⟨?_, hclock⟩
      show (s.handedOut ++ [b])[d.item]? = some d.bucket
      rw [List.getElem?_append_left (List.getElem?_eq_some_iff.1 hget).1, hget]
    stamped := fun x hx => by
      have hx' : x ∈ s.received ++ [] ++ s.buffer := hx
      rw [hother x (hne' x (by simp only [List.mem_append, List.not_mem_nil] at hx' ⊢; tauto))]
      exact hs.stamped x hx'
    pool_empty := fun x hx => by
      rw [hother x (hne x (by
        simp only [List.mem_append]
        exact .inl (.inl (.inl (.inl hx)))))]
      exact hs.pool_empty x (hpool ▸ List.mem_cons_of_mem _ hx)
    buffer_nonempty := fun x hx => by
      rw [hother x (hne' x (List.mem_append_left _ (List.mem_append_right _ hx)))]
      exact hs.buffer_nonempty x hx
    delivered_lt := fun x hx => by
      rw [hother x (hne' x (List.mem_append_right _ hx))]
      exact hs.delivered_lt x hx }

lemma Drained.handOut {pool : List Bucket} (hs : s.Inv p []) (hpool : s.bucketPool = b :: pool)
    (hdrained : s.Drained) : (s.handOut b pool).Drained := by
  intro x hx
  have hx' : x ∈ s.received := hx
  have hxb : x ≠ b := by
    rintro rfl
    have hcount := hs.count_le x
    have hpos := List.count_pos_iff.2 hx'
    simp only [places, hpool, List.count_append, List.count_cons_self, List.count_nil] at hcount
    omega
  show (Function.update s.bucket b _ x).pipeId ≠ s.minItemCntr
  rw [Function.update_of_ne hxb]
  exact hdrained x hx'

/-- The instructions of a bucket that is outstanding or delivered may change. -/
lemma Inv.setInsts {f : IBucket → IBucket} (hs : s.Inv p [])
    (hb : b ∈ s.outstanding ∨ b ∈ s.delivered)
    (hf : ∀ i, (f i).pipeId = i.pipeId ∧ (f i).clock = i.clock) :
    { s with toPipeline := s.setBucket b f }.Inv p [] := by
  have hid : ∀ x, ((s.setBucket b f).bucket x).pipeId = (s.bucket x).pipeId := by
    intro x
    by_cases hx : x = b
    · subst hx
      rw [bucket_setBucket_self]
      exact (hf _).1
    · rw [bucket_setBucket_of_ne hx]
  have hne : ∀ x ∈ s.bucketPool ++ s.received ++ s.buffer, x ≠ b := by
    rintro x hx rfl
    have hcount := hs.count_le x
    have hpos := List.count_pos_iff.2 hx
    have hpos' : 0 < s.outstanding.count x + s.delivered.count x := by
      rcases hb with hb | hb
      · exact Nat.add_pos_left (List.count_pos_iff.2 hb) _
      · exact Nat.add_pos_right _ (List.count_pos_iff.2 hb)
    simp only [places, List.count_append, List.count_nil] at hcount hpos
    omega
  have hother : ∀ x ∈ s.bucketPool ++ s.received ++ s.buffer,
      (s.setBucket b f).bucket x = s.bucket x := fun x hx => bucket_setBucket_of_ne (hne x hx)
  exact
  { perm := hs.perm
    nIRequests_eq := hs.nIRequests_eq
    outstanding_le := hs.outstanding_le
    min_le := hs.min_le
    max_eq := hs.max_eq
    items := by
      rw [funext hid]
      exact hs.items
    ready := hs.ready
    order := by
      rw [funext hid]
      exact hs.order
    identified := fun x hx => by
      rw [Identified, hid]
      exact hs.identified x hx
    delayed := hs.delayed
    stamped := fun x hx => by
      have hx' : x ∈ s.received ++ [] ++ s.buffer := hx
      rw [hother x (by simp only [List.mem_append, List.not_mem_nil] at hx' ⊢; tauto)]
      exact hs.stamped x hx'
    pool_empty := fun x hx => by
      rw [hother x (List.mem_append_left _ (List.mem_append_left _ hx))]
      exact hs.pool_empty x hx
    buffer_nonempty := fun x hx => by
      rw [hother x (List.mem_append_right _ hx)]
      exact hs.buffer_nonempty x hx
    delivered_lt := fun x hx => by
      rw [hid]
      exact hs.delivered_lt x hx }

lemma Drained.setInsts {f : IBucket → IBucket} (hdrained : s.Drained)
    (hf : ∀ i, (f i).pipeId = i.pipeId) :
    { s with toPipeline := s.setBucket b f }.Drained := by
  intro x hx
  show (Function.update s.bucket b _ x).pipeId ≠ s.minItemCntr
  by_cases hxb : x = b
  · subst hxb
    rw [Function.update_self, hf]
    exact hdrained x hx
  · rw [Function.update_of_ne hxb]
    exact hdrained x hx

/-- The top of the buffer is delivered. -/
lemma Inv.deliver {rest : List Bucket} (hs : s.Inv p []) (hbuffer : s.buffer = b :: rest)
    (htime : (s.bucket b).clock + p.PipeLength ≤ s.globalClock) :
    { s with
      buffer := rest
      delivered := b :: s.delivered
      deliveries := s.deliveries ++ [Delivery.mk (s.bucket b).pipeId b s.globalClock] }.Inv p [] := by
  have hb : b ∈ s.buffer := hbuffer ▸ List.mem_cons_self
  have hrest : ∀ x ∈ rest, x ∈ s.buffer := fun x hx => hbuffer ▸ List.mem_cons_of_mem _ hx
  exact
  { perm := hs.perm_of_count fun x => by
      simp only [places, hbuffer, List.count_append, List.count_cons, List.count_nil]
      omega
    nIRequests_eq := hs.nIRequests_eq
    outstanding_le := hs.outstanding_le
    min_le := hs.min_le
    max_eq := hs.max_eq
    items := hs.items
    ready := hs.ready
    order := by
      refine Eq.trans ?_ hs.order
      rw [hbuffer, List.map_append, List.append_assoc]
      rfl
    identified := fun x hx => hs.identified x (by
      simp only [hbuffer, List.mem_append, List.mem_cons, List.not_mem_nil, or_false] at hx ⊢
      tauto)
    delayed := by
      have hstamp := hs.stamped b (by simp [hb])
      rw [decide_eq_true (hs.buffer_nonempty b hb)] at hstamp
      have hd : s.Delayed p ⟨(s.bucket b).pipeId, b, s.globalClock⟩ :=
        ⟨(hs.identified b (by simp [hb])).1, (s.bucket b).clock, hstamp, htime⟩
      exact List.forall_mem_append.2 ⟨hs.delayed, List.forall_mem_singleton.2 hd⟩
    stamped := fun x hx => hs.stamped x (by
      simp only [hbuffer, List.mem_append, List.mem_cons, List.not_mem_nil, or_false] at hx ⊢
      tauto)
    pool_empty := hs.pool_empty
    buffer_nonempty := fun x hx => hs.buffer_nonempty x (hrest x hx)
    delivered_lt := List.forall_mem_cons.2 ⟨hs.lt_of_mem_buffer hb, hs.delivered_lt⟩ }

/-- A bucket is done. -/
lemma Inv.giveBack (hs : s.Inv p []) (hb : b ∈ s.delivered) (hempty : (s.bucket b).insts = []) :
    { s with
      bucketPool := b :: s.bucketPool
      delivered := s.delivered.erase b }.Inv p [] where
  perm := hs.perm_of_count fun x => by
    have := (List.perm_cons_erase hb).count_eq x
    simp only [places, List.count_append, List.count_cons, List.count_nil] at this ⊢
    omega
  nIRequests_eq := hs.nIRequests_eq
  outstanding_le := hs.outstanding_le
  min_le := hs.min_le
  max_eq := hs.max_eq
  items := hs.items
  ready := hs.ready
  order := hs.order
  identified := fun x hx => hs.identified x (by
    rcases List.mem_append.1 hx with hx | hx
    · exact List.mem_append_left _ hx
    · exact List.mem_append_right _ (List.mem_of_mem_erase hx))
  delayed := hs.delayed
  stamped := hs.stamped
  pool_empty := List.forall_mem_cons.2 ⟨hempty, hs.pool_empty⟩
  buffer_nonempty := hs.buffer_nonempty
  delivered_lt := fun x hx => hs.delivered_lt x (List.mem_of_mem_erase hx)

/-- `nextItem` returns the top of the buffer as soon as its time has come. -/
lemma Inv.nextItem {rest : List Bucket} (hs : s.Inv p []) (hbuffer : s.buffer = b :: rest)
    (htime : (s.bucket b).clock + p.PipeLength ≤ s.globalClock) :
    s.toPipeline.nextItem p = .ok (some b, { s.toPipeline with buffer := rest }) := by
  rw [Pipeline.nextItem, hbuffer]
  simp only
  rw [if_neg (Nat.not_lt.2 htime),
    check_bind (hs.buffer_nonempty b (hbuffer ▸ List.mem_cons_self))]
  rfl

/-- An event that its caller may cause happens, and keeps the invariant. -/
lemma Inv.act (hs : s.Inv p []) (hdrained : s.Drained) (e : PipelineEvent) :
    s.act p e = .error .noSuchEvent ∨
      ∃ s', s.act p e = .ok s' ∧ s'.Inv p [] ∧ s'.Drained := by
  cases e with
  | newItem =>
    right
    rw [Fetching.act, Pipeline.newItem]
    have hsame : ∃ s' : Fetching, (Except.ok { s with
        handedOut := s.handedOut ++ [], outstanding := [] ++ s.outstanding } :
          Except Fault Fetching) = .ok s' ∧ s'.Inv p [] ∧ s'.Drained := by
      rw [List.append_nil]
      exact ⟨s, rfl, hs, hdrained⟩
    split
    · exact hsame
    · rename_i b pool hpool
      split
      · exact hsame
      · rename_i hroom
        rw [check_bind (hs.pool_empty b (hpool ▸ List.mem_cons_self))]
        exact ⟨s.handOut b pool, rfl, hs.handOut hpool hroom, hdrained.handOut hs hpool⟩
  | push b inst =>
    rw [Fetching.act]
    by_cases hb : b ∈ s.outstanding ∧ (s.bucket b).insts.length ≤ p.bucketMask
    · right
      rw [check_bind hb]
      exact ⟨_, rfl, hs.setInsts (.inl hb.1) fun i => ⟨rfl, rfl⟩, hdrained.setInsts fun i => rfl⟩
    · left
      rw [check_bind_of_not hb]
  | readyItem b =>
    rw [Fetching.act]
    by_cases hb : b ∈ s.outstanding
    · right
      obtain ⟨t, ht, hinv, hdrained'⟩ := hs.readyItem hdrained hb
      rw [check_bind hb, ht]
      exact ⟨_, rfl, hinv, hdrained'⟩
    · left
      rw [check_bind_of_not hb]
  | nextItem =>
    right
    rw [Fetching.act]
    by_cases hnext : ∃ b rest, s.buffer = b :: rest ∧
        (s.bucket b).clock + p.PipeLength ≤ s.globalClock
    · obtain ⟨b, rest, hbuffer, htime⟩ := hnext
      rw [hs.nextItem hbuffer htime]
      exact ⟨_, rfl, hs.deliver hbuffer htime, hdrained⟩
    · have hnone : s.toPipeline.nextItem p = .ok (none, s.toPipeline) := by
        rw [Pipeline.nextItem]
        split
        · rfl
        · rename_i b rest hbuffer
          rw [if_pos (Nat.lt_of_not_le fun htime => hnext ⟨b, rest, hbuffer, htime⟩)]
      refine ⟨s, ?_, hs, hdrained⟩
      rw [hnone, ok_bind]
      simp only [Option.toList, List.map_nil, List.append_nil, List.nil_append]
      rfl
  | pop b =>
    rw [Fetching.act]
    by_cases hb : b ∈ s.delivered
    · right
      rw [check_bind hb]
      exact ⟨_, rfl, hs.setInsts (.inr hb) fun i => ⟨rfl, rfl⟩, hdrained.setInsts fun i => rfl⟩
    · left
      rw [check_bind_of_not hb]
  | doneItem b =>
    rw [Fetching.act]
    by_cases hb : b ∈ s.delivered ∧ (s.bucket b).insts = []
    · right
      rw [check_bind hb, Pipeline.doneItem, check_bind (hs.delivered_lt b hb.1), check_bind hb.2]
      exact ⟨_, rfl, hs.giveBack hb.1 hb.2, hdrained⟩
    · left
      rw [check_bind_of_not hb]
  | tick cycles => exact .inr ⟨_, rfl, { hs with }, hdrained⟩

end Fetching

open Fetching

lemma inv_pipeline (hrun : (pipeline p).Reachable s) : s.Inv p [] ∧ s.Drained := by
  refine hrun.invariant (I := fun s => s.Inv p [] ∧ s.Drained) ?_ ?_
  · constructor
    · exact
      { perm := by
          simp [pipeline, places, Pipeline.new]
        nIRequests_eq := by simp [pipeline, Pipeline.new]
        outstanding_le := Nat.zero_le _
        min_le := Nat.le_refl _
        max_eq := rfl
        items := .refl _
        ready := fun item hitem => absurd hitem (Nat.not_lt_zero _)
        order := rfl
        identified := fun x hx => absurd hx List.not_mem_nil
        delayed := fun d hd => absurd hd List.not_mem_nil
        stamped := fun x hx => absurd hx List.not_mem_nil
        pool_empty := fun x _ => rfl
        buffer_nonempty := fun x hx => absurd hx List.not_mem_nil
        delivered_lt := fun x hx => absurd hx List.not_mem_nil }
    · exact fun x hx => absurd hx List.not_mem_nil
  · intro s e s' hs hstep
    rcases hs.1.act hs.2 e with herror | ⟨t, ht, hinv⟩
    · exact absurd (hstep.symm.trans herror) (by simp)
    · cases hstep.symm.trans ht
      exact hinv

/-- In every run the pipeline conserves its buckets and keeps them in order, no assertion fails, and
the top of the buffer is delivered as soon as its time has come. -/
theorem pipeline_orderly (p : PipelineParams) (es : List PipelineEvent) (s : Fetching)
    (hrun : (pipeline p).Run es s) :
    s.Orderly p ∧ (∀ e, (pipeline p).step s e ≠ .error .assertion) ∧
      ∀ b rest, s.buffer = b :: rest →
        (s.bucket b).clock + p.PipeLength ≤ s.globalClock →
        s.toPipeline.nextItem p = .ok (some b, { s.toPipeline with buffer := rest }) := by
  obtain ⟨hinv, hdrained⟩ := inv_pipeline ⟨es, hrun⟩
  refine ⟨hinv.orderly hdrained, fun e he => ?_, fun b rest => hinv.nextItem⟩
  rcases hinv.act hdrained e with herror | ⟨t, ht, -⟩
  · exact absurd (Except.error.inj (he.symm.trans herror)) (by decide)
  · exact absurd (he.symm.trans ht) (by simp)

/-- Three buckets come back in the wrong order, and the second one is empty. -/
def outOfOrder : List PipelineEvent :=
  [.newItem, .newItem, .newItem, .push 5 7, .push 3 8, .readyItem 3, .tick 1, .readyItem 4,
    .readyItem 5, .tick 2, .nextItem, .nextItem]

/-- The first and the third item are delivered in this order. -/
theorem pipeline_orderly_outOfOrder : ∃ s, (pipeline ⟨2, 1, 3⟩).Run outOfOrder s ∧
    s.deliveries = [⟨0, 5, 3⟩, ⟨2, 3, 3⟩] ∧ s.Orderly ⟨2, 1, 3⟩ := by
  have hrun : succeeds ((pipeline ⟨2, 1, 3⟩).exec (pipeline ⟨2, 1, 3⟩).init outOfOrder)
      (fun s => decide (s.deliveries = [⟨0, 5, 3⟩, ⟨2, 3, 3⟩])) = true := by
    decide +kernel
  obtain ⟨s, hs, htest⟩ := succeeds_iff.1 hrun
  exact ⟨s, Machine.run_of_exec hs, of_decide_eq_true htest,
    (pipeline_orderly ⟨2, 1, 3⟩ outOfOrder s (Machine.run_of_exec hs)).1⟩

end Sesc.Core
