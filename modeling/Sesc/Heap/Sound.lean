import Sesc.Heap.Deallocation

/-!
# The heap over whole runs

As long as no size and no address is so large that its sums wrap around, the blocks tile the heap
and every function does what it is for.
-/

namespace Sesc.Heap

open Lib

/-- The busy blocks, whose sizes are rounded up, and the free blocks. -/
def HeapManager.regions (w : Widths) (h : HeapManager) : List (ℕ × ℕ) :=
  h.busyByAddr.toList.map (fun b => (b.rounded w).range) ++ h.freeByAddr.toList.map BlockInfo.range

namespace System

variable {w : Widths} {s s' : System} {c : Call}

/-- The heap is in order: its blocks tile it, the sets of free blocks agree, and the next call does
what it should. -/
structure Sound (w : Widths) (s : System) : Prop where
  apart : (s.heap.regions w).Pairwise fun r r' => r.2 ≤ r'.1 ∨ r'.2 ≤ r.1
  cover : ∀ x, (s.heap.heapAddrLb ≤ x ∧ x < s.heap.heapAddrUb) ↔
    ∃ r ∈ s.heap.regions w, r.1 ≤ x ∧ x < r.2
  same : ∀ b, b ∈ s.heap.freeByAddr ↔ b ∈ s.heap.freeBySize
  notAdjacent : ∀ b ∈ s.heap.freeByAddr, ∀ b' ∈ s.heap.freeByAddr, b.addr + b.size ≠ b'.addr
  multiple : ∀ r ∈ s.heap.regions w, minBlockSize ∣ r.1 ∧ minBlockSize ∣ r.2
  used : ∀ b ∈ s.allocated, b.addr + b.size ≤ s.heap.usedAddrUb
  allocate : ∀ size, 0 < size → size + 63 < 2 ^ w.sizeBits → ∃ r h',
    s.heap.allocate w size = .ok (r, h') ∧ (r = 0 ↔ ∀ b ∈ s.heap.freeByAddr, b.size < size)
  allocateAt : ∀ addr size, minBlockSize ∣ addr → 0 < size → size + 63 < 2 ^ w.sizeBits →
    addr + w.roundUp size < 2 ^ w.sizeBits → ∃ r h', s.heap.allocateAt w addr size = .ok (r, h') ∧
      (r = 0 ↔ ∀ b ∈ s.heap.freeByAddr, b.size < size)
  deallocate : ∀ b ∈ s.heap.busyByAddr, ∃ h', s.heap.deallocate w b.addr = .ok (b.size, h')

/-- The arguments of a call: a positive size that can be rounded up, and an address that is a
multiple of the block size and leaves room for it. -/
def Fits (w : Widths) : Call → Prop
  | .allocate size => 0 < size ∧ size + 63 < 2 ^ w.sizeBits
  | .allocateAt addr size => minBlockSize ∣ addr ∧ 0 < size ∧ size + 63 < 2 ^ w.sizeBits ∧
    addr + w.roundUp size < 2 ^ w.sizeBits
  | .deallocate _ => True

/-- The blocks are in order, the heap is that of the constructor, and `usedAddrUb` is a bound of
the blocks. -/
structure Inv (w : Widths) (base size : ℕ) (s : System) : Prop where
  heap : s.heap.Inv w
  lb : s.heap.heapAddrLb = base
  ub : s.heap.heapAddrUb = base + size
  used : ∀ b ∈ s.allocated, b.addr + b.size ≤ s.heap.usedAddrUb

lemma Inv.sound {base size : ℕ} (hs : s.Inv w base size) : s.Sound w := by
  have hheap := hs.heap
  have htiles : Tiles s.heap.heapAddrLb s.heap.heapAddrUb (s.heap.regions w) := by
    intro x
    have hx := hheap.tiles x
    rw [toNat_isWithin_self] at hx
    rw [HeapManager.regions, List.countP_append, List.countP_map, List.countP_map, Nat.add_comm]
    exact hx
  have hregion : ∀ r ∈ s.heap.regions w, r.1 < r.2 ∧ minBlockSize ∣ r.1 ∧ minBlockSize ∣ r.2 := by
    intro r hr
    rcases List.mem_append.1 hr with hr | hr
    · obtain ⟨b, hb, rfl⟩ := List.mem_map.1 hr
      obtain ⟨-, hdvd, hlt⟩ := hheap.busy b hb
      exact ⟨Nat.lt_add_of_pos_right (hheap.rounded_pos hb), hdvd,
        Nat.dvd_add hdvd (Widths.roundUp_spec hlt).2.2⟩
    · obtain ⟨b, hb, rfl⟩ := List.mem_map.1 hr
      obtain ⟨hpos, hdvd, hdvd'⟩ := hheap.free b hb
      exact ⟨Nat.lt_add_of_pos_right hpos, hdvd, Nat.dvd_add hdvd hdvd'⟩
  refine ⟨htiles.pairwise fun r hr => (hregion r hr).1, htiles.cover, hheap.same, hheap.apart,
    fun r hr => (hregion r hr).2, hs.used, fun n hpos hlt => ?_, fun addr n hdvd hpos hlt hwrap => ?_,
    fun b hb => ?_⟩
  · obtain ⟨r, h', heq, -, hallocated⟩ := hheap.allocate hpos hlt
    exact ⟨r, h', heq, hallocated.zero_iff⟩
  · obtain ⟨r, h', heq, -, hallocated⟩ := hheap.allocateAt hdvd hpos hlt hwrap
    exact ⟨r, h', heq, hallocated.zero_iff⟩
  · obtain ⟨h', heq, -⟩ := hheap.deallocate hb
    exact ⟨h', heq⟩

/-- An allocation is noted. -/
lemma Inv.note {base size n r : ℕ} {h' : HeapManager} (hs : s.Inv w base size) (hh' : h'.Inv w)
    (hallocated : HeapManager.Allocated w s.heap h' r n) : (s.note w n (r, h')).Inv w base size := by
  refine ⟨hh', hallocated.lb.trans hs.lb, hallocated.ub.trans hs.ub, fun b hb => ?_⟩
  have hold : ∀ b ∈ s.allocated, b.addr + b.size ≤ h'.usedAddrUb :=
    fun b hb => Nat.le_trans (hs.used b hb) hallocated.used_le
  have hb' : b ∈ if r = 0 then s.allocated else s.allocated ++ [⟨r, w.roundUp n⟩] := hb
  split at hb'
  · exact hold b hb'
  · rename_i hr
    rcases List.mem_append.1 hb' with hb' | hb'
    · exact hold b hb'
    · rw [List.mem_singleton.1 hb']
      exact hallocated.used hr

lemma Inv.step {base size : ℕ} (hs : s.Inv w base size) (hc : Fits w c)
    (hstep : s.step w c = .ok s') : s'.Inv w base size := by
  cases c with
  | allocate n =>
    obtain ⟨r, h', heq, hh', hallocated⟩ := hs.heap.allocate hc.1 hc.2
    rw [System.step, heq] at hstep
    cases hstep
    exact hs.note hh' hallocated
  | allocateAt addr n =>
    obtain ⟨hdvd, hpos, hlt, hwrap⟩ := hc
    obtain ⟨r, h', heq, hh', hallocated⟩ := hs.heap.allocateAt hdvd hpos hlt hwrap
    rw [System.step, heq] at hstep
    cases hstep
    exact hs.note hh' hallocated
  | deallocate addr =>
    obtain ⟨r, heq, hstep⟩ := bind_eq_ok.1 hstep
    cases hstep
    -- the address is that of a busy block, since the call has not failed
    obtain ⟨b, hb, -⟩ := bind_eq_ok.1 heq
    obtain ⟨hmem, rfl⟩ := Table.find_eq_some.1 (elim_error_eq_ok.1 hb)
    obtain ⟨h', heq', hh', hlb, hub, hused, -⟩ := hs.heap.deallocate hmem
    cases heq'.symm.trans heq
    refine ⟨hh', hlb.trans hs.lb, hub.trans hs.ub, fun b hb => ?_⟩
    rw [hused]
    exact hs.used b hb

/-- The constructor makes one free block of the heap. -/
lemma Inv.new {base size : ℕ} {heap : HeapManager} (hnew : HeapManager.new w base size = .ok heap)
    (hfits : base + size < 2 ^ w.vaddrBits) : Inv w base size ⟨heap, []⟩ := by
  obtain ⟨hbase, hnew⟩ := check_bind_eq_ok.1 hnew
  obtain ⟨hsize, hnew⟩ := check_bind_eq_ok.1 hnew
  cases hnew
  have hub : w.vaddr (base + size) = base + size := Nat.mod_eq_of_lt hfits
  have hdvd : minBlockSize ∣ base := Nat.dvd_of_mod_eq_zero hbase.2
  have hdvd' : minBlockSize ∣ size := Nat.dvd_of_mod_eq_zero hsize.2
  have hmem : ∀ b, b ∈ (∅ : BlocksByAddr).add ⟨base, size⟩ ↔ b = ⟨base, size⟩ := by
    intro b
    rw [Table.add_eq_insert rfl, Table.mem_insert]
    exact or_iff_left fun h => Table.not_mem_empty b h.1
  have hmemSize : ∀ b, b ∈ (∅ : BlocksBySize).add ⟨base, size⟩ ↔ b = ⟨base, size⟩ := by
    intro b
    rw [Table.add_eq_insert rfl, Table.mem_insert]
    exact or_iff_left fun h => Table.not_mem_empty b h.1
  refine ⟨⟨⟨Nat.pos_of_ne_zero hbase.1, hdvd, ?_, ?_⟩, fun b => ?_, fun b hb => ?_, fun b hb => ?_,
    fun b hb b' hb' => ?_, fun x => ?_⟩, rfl, hub, fun b hb => ?_⟩
  · show minBlockSize ∣ w.vaddr (base + size)
    rw [hub]
    exact Nat.dvd_add hdvd hdvd'
  · exact Nat.mod_lt _ (Nat.two_pow_pos _)
  · exact (hmem b).trans (hmemSize b).symm
  · rw [(hmem b).1 hb]
    exact ⟨Nat.pos_of_ne_zero hsize.1, hdvd, hdvd'⟩
  · cases hb
  · have hpos := Nat.pos_of_ne_zero hsize.1
    rw [(hmem b).1 hb, (hmem b').1 hb']
    dsimp only
    omega
  · show ((∅ : BlocksByAddr).add ⟨base, size⟩).count _ + (∅ : BlocksByAddr).count _ + _ =
      if base ≤ x ∧ x < w.vaddr (base + size) then 1 else 0
    rw [Table.add_eq_insert rfl, Table.count_insert rfl, Table.count_empty, Table.count_empty,
      toNat_isWithin_self, hub, BlockInfo.range, toNat_isWithin]
    show 0 + (if base ≤ x ∧ x < base + size then 1 else 0) + 0 + 0 = _
    omega
  · cases hb

/-- The heap is in order in every run whose calls have arguments that fit, if it ends in the
address space. -/
theorem heapSound_of_runWhere (w : Widths) (base size : ℕ) (heap : HeapManager)
    (hnew : HeapManager.new w base size = .ok heap) (hfits : base + size < 2 ^ w.vaddrBits)
    (cs : List Call) (s : System) (h : (heapMachine w heap).RunWhere (fun _ c => Fits w c) cs s) :
    s.Sound w ∧ s.heap.heapAddrLb = base ∧ s.heap.heapAddrUb = base + size := by
  have hinv : s.Inv w base size :=
    h.invariant (Inv.new hnew hfits) fun _ _ _ hs hc hstep => hs.step hc hstep
  exact ⟨hinv.sound, hinv.lb, hinv.ub⟩

/-! ### Runs of a small heap -/

/-- A block of 100 bytes, one in the middle of what is left, and one that is freed between two
free blocks. -/
def mergingRun : List Call :=
  [.allocate 100, .allocateAt 320 64, .allocate 64, .deallocate 192, .deallocate 320]

instance decidableFits (w : Widths) : (c : Call) → Decidable (Fits w c)
  | .allocate size => inferInstanceAs (Decidable (0 < size ∧ size + 63 < 2 ^ w.sizeBits))
  | .allocateAt addr size => inferInstanceAs (Decidable (minBlockSize ∣ addr ∧ 0 < size ∧
      size + 63 < 2 ^ w.sizeBits ∧ addr + w.roundUp size < 2 ^ w.sizeBits))
  | .deallocate _ => .isTrue trivial

/-- The free blocks have been merged. -/
theorem heapSound_mergingRun : ∃ heap s, HeapManager.new .narrow 64 640 = .ok heap ∧
    (heapMachine .narrow heap).Run mergingRun s ∧ s.heap.busyByAddr.toList = [⟨64, 100⟩] ∧
    s.heap.freeByAddr.toList = [⟨192, 512⟩] ∧ s.heap.usedAddrUb = 384 ∧ s.Sound .narrow := by
  obtain ⟨heap, hnew⟩ : ∃ heap, HeapManager.new .narrow 64 640 = .ok heap := ⟨_, rfl⟩
  have hrun : succeeds (HeapManager.new .narrow 64 640) (fun heap =>
      succeeds (((heapMachine .narrow heap).guarded (fun _ c => decide (Fits .narrow c))
        .noSuchEvent).exec ⟨heap, []⟩ mergingRun) fun s =>
          decide (s.heap.busyByAddr.toList = [⟨64, 100⟩] ∧
            s.heap.freeByAddr.toList = [⟨192, 512⟩] ∧ s.heap.usedAddrUb = 384)) = true := by
    decide +kernel
  obtain ⟨heap', hnew', htest⟩ := succeeds_iff.1 hrun
  cases hnew'.symm.trans hnew
  obtain ⟨s, hs, htest⟩ := succeeds_iff.1 htest
  obtain ⟨hbusy, hfree, hused⟩ := of_decide_eq_true htest
  have hwhere : (heapMachine .narrow heap).RunWhere (fun _ c => Fits .narrow c) mergingRun s :=
    (Machine.run_of_exec hs).of_guarded.mono fun _ _ => of_decide_eq_true
  exact ⟨heap, s, hnew, hwhere.run, hbusy, hfree, hused,
    (heapSound_of_runWhere .narrow 64 640 heap hnew (by decide) mergingRun s hwhere).1⟩

/-- In a heap of 64 bytes, an allocation of 4294967295 bytes succeeds, since the size is rounded up
to 0; the block remains free and is allocated again, and then no block covers the heap. -/
theorem not_heapSound_hugeRun : ∃ heap h' s, HeapManager.new .narrow 64 64 = .ok heap ∧
    heap.allocate .narrow 4294967295 = .ok (64, h') ∧
    (∀ b ∈ heap.freeByAddr, b.size < 4294967295) ∧
    (heapMachine .narrow heap).Run [.allocate 4294967295, .allocate 64] s ∧
    s.allocated = [⟨64, 0⟩, ⟨64, 64⟩] ∧ s.heap.regions .narrow = [(64, 64)] ∧ ¬s.Sound .narrow := by
  obtain ⟨heap, hnew⟩ : ∃ heap, HeapManager.new .narrow 64 64 = .ok heap := ⟨_, rfl⟩
  have hrun : succeeds (HeapManager.new .narrow 64 64) (fun heap =>
      decide (∀ b ∈ heap.freeByAddr.toList, b.size < 4294967295) &&
      succeeds (heap.allocate .narrow 4294967295) (fun r => decide (r.1 = 64)) &&
      succeeds ((heapMachine .narrow heap).exec ⟨heap, []⟩ [.allocate 4294967295, .allocate 64])
        fun s => decide (s.allocated = [⟨64, 0⟩, ⟨64, 64⟩] ∧ s.heap.regions .narrow = [(64, 64)] ∧
          s.heap.heapAddrLb = 64 ∧ s.heap.heapAddrUb = 128)) = true := by
    decide +kernel
  obtain ⟨heap', hnew', htest⟩ := succeeds_iff.1 hrun
  cases hnew'.symm.trans hnew
  rw [Bool.and_eq_true, Bool.and_eq_true] at htest
  obtain ⟨⟨hsmall, hallocate⟩, htest⟩ := htest
  obtain ⟨⟨r, h'⟩, heq, hr⟩ := succeeds_iff.1 hallocate
  obtain ⟨s, hs, htest⟩ := succeeds_iff.1 htest
  obtain ⟨hallocated, hregions, hlb, hub⟩ := of_decide_eq_true htest
  have hr' : r = 64 := of_decide_eq_true hr
  subst hr'
  refine ⟨heap, h', s, hnew, heq, of_decide_eq_true hsmall, Machine.run_of_exec hs, hallocated,
    hregions, fun hsound => ?_⟩
  have hcover := (hsound.cover 64).1
  rw [hlb, hub, hregions] at hcover
  obtain ⟨r, hr, -, hlt⟩ := hcover (by decide)
  rw [List.mem_singleton.1 hr] at hlt
  exact Nat.lt_irrefl _ hlt

end System

end Sesc.Heap
