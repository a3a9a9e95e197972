import Sesc.Heap.HeapManager
import Sesc.Lib.Tiling

/-!
# The blocks of the heap

The busy and the free blocks tile the heap.  While an operation is going on there is a hole, whose
block has been erased from its set and which the operation fills.
-/

namespace Sesc.Heap

open Lib

/-- The addresses of a block. -/
def BlockInfo.range (b : BlockInfo) : ℕ × ℕ := (b.addr, b.addr + b.size)

/-- The block with its rounded size. -/
def BlockInfo.rounded (w : Widths) (b : BlockInfo) : BlockInfo := ⟨b.addr, w.roundUp b.size⟩

/-! ## Rounding -/

namespace Widths

variable {w : Widths} {n size : ℕ}

lemma dvd_two_pow {k : ℕ} (h : 6 ≤ k) : minBlockSize ∣ 2 ^ k := by
  have hsix : minBlockSize = 2 ^ 6 := rfl
  rw [hsix]
  exact Nat.pow_dvd_pow 2 h

/-- The rounded size of a block that is not too large. -/
lemma roundUp_spec (h : size + 63 < 2 ^ w.sizeBits) :
    size ≤ w.roundUp size ∧ w.roundUp size ≤ size + 63 ∧ minBlockSize ∣ w.roundUp size := by
  have hmod : (size + 63) % minBlockSize ≤ 63 :=
    Nat.le_of_lt_succ (Nat.mod_lt _ (Nat.succ_pos 63))
  rw [roundUp, sizeT, Nat.mod_eq_of_lt h]
  exact ⟨by omega, Nat.sub_le _ _, Nat.dvd_sub_mod _⟩

/-- A rounded size can be rounded again. -/
lemma roundUp_add_lt (h : size + 63 < 2 ^ w.sizeBits) : w.roundUp size + 63 < 2 ^ w.sizeBits := by
  obtain ⟨-, hle, hdvd⟩ := roundUp_spec h
  obtain ⟨k, hk⟩ := dvd_two_pow (w.six_le.trans w.vaddrBits_le)
  obtain ⟨j, hj⟩ := hdvd
  rw [minBlockSize] at hk hj
  omega

lemma roundUp_of_dvd (h : size + 63 < 2 ^ w.sizeBits) (hdvd : minBlockSize ∣ size) :
    w.roundUp size = size := by
  obtain ⟨hge, hle, hdvd'⟩ := roundUp_spec h
  obtain ⟨k, hk⟩ := hdvd
  obtain ⟨j, hj⟩ := hdvd'
  rw [minBlockSize] at hk hj
  omega

end Widths

namespace HeapManager

/-- The bounds of the heap are multiples of the block size, and it ends in the address space. -/
structure Bounded (w : Widths) (h : HeapManager) : Prop where
  lb_pos : 0 < h.heapAddrLb
  lb_dvd : minBlockSize ∣ h.heapAddrLb
  ub_dvd : minBlockSize ∣ h.heapAddrUb
  ub_lt : h.heapAddrUb < 2 ^ w.vaddrBits

/-- The blocks are in order, but those from `lo` to `hi` are missing. -/
structure Holed (w : Widths) (h : HeapManager) (lo hi : ℕ) : Prop where
  bounded : h.Bounded w
  same : ∀ b, b ∈ h.freeByAddr ↔ b ∈ h.freeBySize
  free : ∀ b ∈ h.freeByAddr, 0 < b.size ∧ minBlockSize ∣ b.addr ∧ minBlockSize ∣ b.size
  busy : ∀ b ∈ h.busyByAddr, 0 < b.size ∧ minBlockSize ∣ b.addr ∧ b.size + 63 < 2 ^ w.sizeBits
  apart : ∀ b ∈ h.freeByAddr, ∀ b' ∈ h.freeByAddr, b.addr + b.size ≠ b'.addr
  tiles : ∀ x, h.freeByAddr.count (fun b => isWithin x b.range) +
    h.busyByAddr.count (fun b => isWithin x (b.rounded w).range) + (isWithin x (lo, hi)).toNat =
      if h.heapAddrLb ≤ x ∧ x < h.heapAddrUb then 1 else 0

/-- The blocks are in order. -/
def Inv (w : Widths) (h : HeapManager) : Prop := h.Holed w 0 0

variable {w : Widths} {h h' : HeapManager} {lo hi lo' hi' x : ℕ} {b b' : BlockInfo}

lemma isWithin_range : isWithin x b.range = true ↔ b.addr ≤ x ∧ x < b.addr + b.size := isWithin_iff

/-- An address of a free block. -/
lemma Holed.free_at (hh : h.Holed w lo hi) (hb : b ∈ h.freeByAddr) (hx : b.addr ≤ x)
    (hx' : x < b.addr + b.size) :
    (h.heapAddrLb ≤ x ∧ x < h.heapAddrUb) ∧ (isWithin x (lo, hi)).toNat = 0 ∧
      h.freeByAddr.count (fun b => isWithin x b.range) = 1 ∧
      h.busyByAddr.count (fun b => isWithin x (b.rounded w).range) = 0 := by
  have htiles := hh.tiles x
  have hpos : 0 < h.freeByAddr.count (fun b => isWithin x b.range) :=
    Table.count_pos_of_mem hb (isWithin_range.2 ⟨hx, hx'⟩)
  split at htiles
  · rename_i hin
    refine ⟨hin, ?_⟩
    omega
  · omega

lemma Holed.eq_of_free (hh : h.Holed w lo hi) (hb : b ∈ h.freeByAddr) (hb' : b' ∈ h.freeByAddr)
    (hx : b.addr ≤ x) (hx' : x < b.addr + b.size) (hy : b'.addr ≤ x)
    (hy' : x < b'.addr + b'.size) : b = b' :=
  Table.eq_of_count_le_one (Nat.le_of_eq (hh.free_at hb hx hx').2.2.1) hb hb'
    (isWithin_range.2 ⟨hx, hx'⟩) (isWithin_range.2 ⟨hy, hy'⟩)

/-- A free block is not in the hole. -/
lemma Holed.not_in_hole (hh : h.Holed w lo hi) (hb : b ∈ h.freeByAddr) (hx : b.addr ≤ x)
    (hx' : x < b.addr + b.size) : ¬(lo ≤ x ∧ x < hi) := by
  intro hin
  have hzero := (hh.free_at hb hx hx').2.1
  rw [toNat_isWithin, if_pos hin] at hzero
  cases hzero

/-- A free block is inside the heap. -/
lemma Holed.free_bounds (hh : h.Holed w lo hi) (hb : b ∈ h.freeByAddr) :
    h.heapAddrLb ≤ b.addr ∧ b.addr + b.size ≤ h.heapAddrUb := by
  have hpos := (hh.free b hb).1
  have hfirst := (hh.free_at hb (x := b.addr) (Nat.le_refl _) (by omega)).1
  have hlast := (hh.free_at hb (x := b.addr + b.size - 1) (by omega) (by omega)).1
  omega

/-! ## Inserting and erasing -/

lemma mem_eraseFree : b' ∈ (h.eraseFree b).freeByAddr ↔ b' ∈ h.freeByAddr ∧ b'.addr ≠ b.addr :=
  Table.mem_erase

/-- A free block is erased, and the hole grows by it. -/
lemma Holed.eraseFree (hh : h.Holed w lo hi) (hb : b ∈ h.freeByAddr)
    (hgrow : ∀ x, (isWithin x (lo', hi')).toNat =
      (isWithin x (lo, hi)).toNat + (isWithin x b.range).toNat) :
    (h.eraseFree b).Holed w lo' hi' where
  bounded := ⟨hh.bounded.lb_pos, hh.bounded.lb_dvd, hh.bounded.ub_dvd, hh.bounded.ub_lt⟩
  same b' := by
    have hne : b' ∈ h.freeByAddr → (b'.addr ≠ b.addr ↔ b'.bySize ≠ b.bySize) := by
      intro hb'
      refine not_congr ⟨fun haddr => ?_, fun hsize => ?_⟩
      · rw [Table.eq_of_mem hb' hb haddr]
      · exact congrArg (fun k => (ofLex k).2) hsize
    rw [mem_eraseFree]
    show _ ↔ b' ∈ h.freeBySize.erase b.bySize
    rw [Table.mem_erase, ← hh.same b']
    exact and_congr_right hne
  free b' hb' := hh.free b' (mem_eraseFree.1 hb').1
  busy := hh.busy
  apart b₁ hb₁ b₂ hb₂ := hh.apart b₁ (mem_eraseFree.1 hb₁).1 b₂ (mem_eraseFree.1 hb₂).1
  tiles x := by
    have htiles := hh.tiles x
    have hcount := Table.count_erase (p := fun b => isWithin x b.range)
      (Table.find_eq_some.2 ⟨hb, rfl⟩)
    have hgrow' := hgrow x
    show (h.freeByAddr.erase b.addr).count _ + h.busyByAddr.count _ + _ =
      if h.heapAddrLb ≤ x ∧ x < h.heapAddrUb then 1 else 0
    omega

/-- A free block is inserted into the hole, apart from the other free blocks. -/
lemma Holed.insertFree (hh : h.Holed w lo hi) (hsize : 0 < b.size) (haddr : minBlockSize ∣ b.addr)
    (hdvd : minBlockSize ∣ b.size)
    (hfill : ∀ x, (isWithin x (lo, hi)).toNat =
      (isWithin x (lo', hi')).toNat + (isWithin x b.range).toNat)
    (hleft : ∀ b' ∈ h.freeByAddr, b'.addr + b'.size ≠ b.addr)
    (hright : ∀ b' ∈ h.freeByAddr, b.addr + b.size ≠ b'.addr) :
    (h.insertFree b).Holed w lo' hi' ∧
      ∀ b', b' ∈ (h.insertFree b).freeByAddr ↔ b' = b ∨ b' ∈ h.freeByAddr := by
  -- the block is in the hole, where no other block is
  have hne : ∀ b' ∈ h.freeByAddr, b'.addr ≠ b.addr := by
    intro b' hb' heq
    have hpos := (hh.free b' hb').1
    have hzero := (hh.free_at hb' (x := b.addr) (by omega) (by omega)).2.1
    have hone := hfill b.addr
    rw [isWithin_range.2 ⟨Nat.le_refl _, by omega⟩, hzero] at hone
    simp only [Bool.toNat_true] at hone
    omega
  have hfind : h.freeByAddr.find b.addr = none := Table.find_eq_none.2 hne
  have hfindSize : h.freeBySize.find b.bySize = none := by
    refine Table.find_eq_none.2 fun b' hb' hkey => ?_
    exact hne b' ((hh.same b').2 hb') (congrArg (fun k => (ofLex k).2) hkey)
  have hmem : ∀ b', b' ∈ (h.insertFree b).freeByAddr ↔ b' = b ∨ b' ∈ h.freeByAddr := by
    intro b'
    show b' ∈ h.freeByAddr.add b ↔ _
    rw [Table.add_eq_insert hfind, Table.mem_insert]
    exact or_congr_right (and_iff_left_of_imp (hne b'))
  refine ⟨⟨⟨hh.bounded.lb_pos, hh.bounded.lb_dvd, hh.bounded.ub_dvd, hh.bounded.ub_lt⟩, fun b' => ?_,
    fun b' hb' => ?_, hh.busy, fun b₁ hb₁ b₂ hb₂ => ?_, fun x => ?_⟩, hmem⟩
  · rw [hmem]
    show _ ↔ b' ∈ h.freeBySize.add b
    rw [Table.add_eq_insert hfindSize, Table.mem_insert, hh.same b']
    exact or_congr_right (and_iff_left_of_imp fun hb' => Table.find_eq_none.1 hfindSize b' hb').symm
  · rcases (hmem b').1 hb' with rfl | hb'
    · exact ⟨hsize, haddr, hdvd⟩
    · exact hh.free b' hb'
  · rcases (hmem b₁).1 hb₁ with heq | hold
    · rcases (hmem b₂).1 hb₂ with heq' | hold'
      · rw [heq, heq']
        omega
      · rw [heq]
        exact hright b₂ hold'
    · rcases (hmem b₂).1 hb₂ with heq' | hold'
      · rw [heq']
        exact hleft b₁ hold
      · exact hh.apart b₁ hold b₂ hold'
  · have htiles := hh.tiles x
    have hcount : (h.insertFree b).freeByAddr.count (fun b => isWithin x b.range) =
        h.freeByAddr.count (fun b => isWithin x b.range) + (isWithin x b.range).toNat := by
      show (h.freeByAddr.add b).count _ = _
      rw [Table.add_eq_insert hfind, Table.count_insert hfind]
    have hfill' := hfill x
    show (h.insertFree b).freeByAddr.count _ + h.busyByAddr.count _ + _ =
      if h.heapAddrLb ≤ x ∧ x < h.heapAddrUb then 1 else 0
    omega

lemma Holed.rounded_pos (hh : h.Holed w lo hi) (hb : b ∈ h.busyByAddr) : 0 < w.roundUp b.size := by
  obtain ⟨hpos, -, hlt⟩ := hh.busy b hb
  exact Nat.lt_of_lt_of_le hpos (Widths.roundUp_spec hlt).1

/-- An address of a busy block. -/
lemma Holed.busy_at (hh : h.Holed w lo hi) (hb : b ∈ h.busyByAddr) (hx : b.addr ≤ x)
    (hx' : x < b.addr + w.roundUp b.size) :
    (h.heapAddrLb ≤ x ∧ x < h.heapAddrUb) ∧ (isWithin x (lo, hi)).toNat = 0 ∧
      h.freeByAddr.count (fun b => isWithin x b.range) = 0 := by
  have htiles := hh.tiles x
  have hpos : 0 < h.busyByAddr.count (fun b => isWithin x (b.rounded w).range) :=
    Table.count_pos_of_mem hb (isWithin_range.2 ⟨hx, hx'⟩)
  split at htiles
  · rename_i hin
    refine ⟨hin, ?_⟩
    omega
  · omega

/-- A busy block is inserted into the hole. -/
lemma Holed.insertBusy (hh : h.Holed w lo hi) (hsize : 0 < b.size) (haddr : minBlockSize ∣ b.addr)
    (hlt : b.size + 63 < 2 ^ w.sizeBits)
    (hfill : ∀ x, (isWithin x (lo, hi)).toNat =
      (isWithin x (lo', hi')).toNat + (isWithin x (b.rounded w).range).toNat) :
    (h.insertBusy b).Holed w lo' hi' ∧
      ∀ b', b' ∈ (h.insertBusy b).busyByAddr ↔ b' = b ∨ b' ∈ h.busyByAddr := by
  have hne : ∀ b' ∈ h.busyByAddr, b'.addr ≠ b.addr := by
    intro b' hb' heq
    have hpos := hh.rounded_pos hb'
    have hzero := (hh.busy_at hb' (x := b.addr) (by omega) (by omega)).2.1
    have hround := (Widths.roundUp_spec hlt).1
    have hone := hfill b.addr
    have hself : isWithin b.addr (b.rounded w).range = true := by
      refine isWithin_range.2 ⟨Nat.le_refl _, ?_⟩
      show b.addr < b.addr + w.roundUp b.size
      omega
    rw [hself, hzero] at hone
    simp only [Bool.toNat_true] at hone
    omega
  have hfind : h.busyByAddr.find b.addr = none := Table.find_eq_none.2 hne
  have hmem : ∀ b', b' ∈ (h.insertBusy b).busyByAddr ↔ b' = b ∨ b' ∈ h.busyByAddr := by
    intro b'
    show b' ∈ h.busyByAddr.add b ↔ _
    rw [Table.add_eq_insert hfind, Table.mem_insert]
    exact or_congr_right (and_iff_left_of_imp (hne b'))
  refine ⟨⟨⟨hh.bounded.lb_pos, hh.bounded.lb_dvd, hh.bounded.ub_dvd, hh.bounded.ub_lt⟩, hh.same,
    hh.free, fun b' hb' => ?_, hh.apart, fun x => ?_⟩, hmem⟩
  · rcases (hmem b').1 hb' with rfl | hb'
    · exact ⟨hsize, haddr, hlt⟩
    · exact hh.busy b' hb'
  · have htiles := hh.tiles x
    have hcount : (h.insertBusy b).busyByAddr.count (fun b => isWithin x (b.rounded w).range) =
        h.busyByAddr.count (fun b => isWithin x (b.rounded w).range) +
          (isWithin x (b.rounded w).range).toNat := by
      show (h.busyByAddr.add b).count _ = _
      rw [Table.add_eq_insert hfind, Table.count_insert hfind]
    have hfill' := hfill x
    show h.freeByAddr.count _ + (h.insertBusy b).busyByAddr.count _ + _ =
      if h.heapAddrLb ≤ x ∧ x < h.heapAddrUb then 1 else 0
    omega

/-- A busy block is erased, and leaves a hole. -/
lemma Inv.eraseBusy (hh : h.Inv w) (hb : b ∈ h.busyByAddr) :
    (h.eraseBusy b.addr).Holed w b.addr (b.addr + w.roundUp b.size) where
  bounded := ⟨hh.bounded.lb_pos, hh.bounded.lb_dvd, hh.bounded.ub_dvd, hh.bounded.ub_lt⟩
  same := hh.same
  free := hh.free
  busy b' hb' := hh.busy b' (Table.mem_erase.1 hb').1
  apart := hh.apart
  tiles x := by
    have htiles := hh.tiles x
    have hcount := Table.count_erase (p := fun b => isWithin x (b.rounded w).range)
      (Table.find_eq_some.2 ⟨hb, rfl⟩)
    have hnone : (isWithin x (0, 0)).toNat = 0 := toNat_isWithin_self
    show h.freeByAddr.count _ + (h.busyByAddr.erase b.addr).count _ +
      (isWithin x (b.rounded w).range).toNat = if h.heapAddrLb ≤ x ∧ x < h.heapAddrUb then 1 else 0
    omega

end HeapManager

end Sesc.Heap
