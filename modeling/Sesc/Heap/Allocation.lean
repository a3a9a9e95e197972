import Sesc.Heap.Invariant

/-!
# Allocation

Both functions erase a free block, insert what is left of it in front of and behind the new
block, and insert the new block into the hole that remains.
-/

namespace Sesc.Heap.HeapManager

open Lib

variable {w : Widths} {h h' : HeapManager} {found b : BlockInfo} {addr size lo hi : ℕ}

/-! ## The parts of a free block -/

/-- The bounds of the heap and the blocks that are busy stay as they are. -/
def Frame (h h' : HeapManager) : Prop :=
  h'.heapAddrLb = h.heapAddrLb ∧ h'.heapAddrUb = h.heapAddrUb ∧ h'.usedAddrUb = h.usedAddrUb ∧
    h'.busyByAddr = h.busyByAddr

/-- The addresses from `lo` to `hi` are missing, and no free block begins at `hi`. -/
def OpenAt (w : Widths) (h : HeapManager) (lo hi : ℕ) : Prop :=
  h.Holed w lo hi ∧ ∀ b ∈ h.freeByAddr, b.addr ≠ hi

/-- A free block is erased; none that is left adjoins it. -/
lemma Inv.openAt (hh : h.Inv w) (hb : found ∈ h.freeByAddr) :
    (h.eraseFree found).OpenAt w found.addr (found.addr + found.size) ∧
      ∀ b ∈ (h.eraseFree found).freeByAddr, b.addr + b.size ≠ found.addr := by
  refine ⟨⟨hh.eraseFree hb fun x => ?_, fun b hb' heq => ?_⟩, fun b hb' => ?_⟩
  · rw [toNat_isWithin_self, Nat.zero_add]
    rfl
  · exact hh.apart found hb b (mem_eraseFree.1 hb').1 heq.symm
  · exact hh.apart b (mem_eraseFree.1 hb').1 found hb

/-- No free block begins in the hole. -/
lemma Holed.addr_ne (hh : h.Holed w lo hi) (hlo : lo ≤ addr) (hhi : addr < hi)
    (hb : b ∈ h.freeByAddr) : b.addr ≠ addr := by
  intro heq
  have hpos := (hh.free b hb).1
  exact hh.not_in_hole hb (x := addr) (by omega) (by omega) ⟨hlo, hhi⟩

/-- No free block ends in the hole. -/
lemma Holed.end_ne (hh : h.Holed w lo hi) (hlo : lo < addr) (hhi : addr ≤ hi)
    (hb : b ∈ h.freeByAddr) : b.addr + b.size ≠ addr := by
  intro heq
  have hpos := (hh.free b hb).1
  exact hh.not_in_hole hb (x := addr - 1) (by omega) (by omega) (by omega)

/-- The addresses in front of the new block are free again. -/
lemma OpenAt.insertFront (hh : h.OpenAt w found.addr hi)
    (hleft : ∀ b ∈ h.freeByAddr, b.addr + b.size ≠ found.addr) (hle : found.addr ≤ addr)
    (hlt : addr < hi) (hfound : minBlockSize ∣ found.addr) (haddr : minBlockSize ∣ addr) :
    (h.insertFront found addr).OpenAt w addr hi := by
  rw [HeapManager.insertFront]
  split
  · rename_i hfront
    obtain ⟨hholed, hright⟩ := hh
    have hend : found.addr + (addr - found.addr) = addr := Nat.add_sub_cancel' hle
    have hinsert : (h.insertFree ⟨found.addr, addr - found.addr⟩).Holed w addr hi ∧
        ∀ b', b' ∈ (h.insertFree ⟨found.addr, addr - found.addr⟩).freeByAddr ↔
          b' = ⟨found.addr, addr - found.addr⟩ ∨ b' ∈ h.freeByAddr := by
      refine hholed.insertFree (Nat.sub_pos_of_lt hfront) hfound (Nat.dvd_sub haddr hfound)
        (fun x => ?_) hleft fun b hb => ?_
      · rw [toNat_isWithin, BlockInfo.range, toNat_isWithin, toNat_isWithin]
        dsimp only
        rw [hend]
        split_ifs <;> omega
      · dsimp only
        rw [hend]
        exact (hholed.addr_ne hle hlt hb).symm
    obtain ⟨hholed', hmem⟩ := hinsert
    refine ⟨hholed', fun b hb => ?_⟩
    rcases (hmem b).1 hb with rfl | hb
    · exact Nat.ne_of_lt (Nat.lt_trans hfront hlt)
    · exact hright b hb
  · have heq : found.addr = addr := by omega
    rw [heq] at hh
    exact hh

/-- The addresses behind the new block are free again. -/
lemma OpenAt.insertRest {blockSize foundSize : ℕ} (hh : h.OpenAt w addr (addr + foundSize))
    (hpos : 0 < blockSize) (hle : blockSize ≤ foundSize) (haddr : minBlockSize ∣ addr)
    (hfound : minBlockSize ∣ addr + foundSize) (hblock : minBlockSize ∣ blockSize)
    (hbound : addr + foundSize < 2 ^ w.vaddrBits) :
    (h.insertRest w addr foundSize blockSize).Holed w addr (addr + blockSize) := by
  rw [HeapManager.insertRest]
  split
  · rename_i hrest
    obtain ⟨hholed, hright⟩ := hh
    have hwrap : w.vaddr (addr + blockSize) = addr + blockSize := Nat.mod_eq_of_lt (by omega)
    have hend : addr + blockSize + (foundSize - blockSize) = addr + foundSize := by omega
    rw [hwrap]
    refine (hholed.insertFree (b := ⟨addr + blockSize, foundSize - blockSize⟩)
      (Nat.sub_pos_of_lt hrest) (Nat.dvd_add haddr hblock) ?_ (fun x => ?_) (fun b hb => ?_)
      fun b hb => ?_).1
    · have hsub : foundSize - blockSize = addr + foundSize - (addr + blockSize) := by omega
      dsimp only
      rw [hsub]
      exact Nat.dvd_sub hfound (Nat.dvd_add haddr hblock)
    · rw [toNat_isWithin, BlockInfo.range, toNat_isWithin, toNat_isWithin]
      dsimp only
      rw [hend]
      split_ifs <;> omega
    · show b.addr + b.size ≠ addr + blockSize
      exact hholed.end_ne (by omega) (by omega) hb
    · dsimp only
      rw [hend]
      exact (hright b hb).symm
  · have heq : foundSize = blockSize := by omega
    rw [heq] at hh
    exact hh.1

/-- The new block fills the hole. -/
lemma Holed.insertBlock (hh : h.Holed w b.addr (b.addr + w.roundUp b.size)) (hsize : 0 < b.size)
    (haddr : minBlockSize ∣ b.addr) (hlt : b.size + 63 < 2 ^ w.sizeBits) :
    (h.insertBusy b).Inv w ∧ ∀ b', b' ∈ (h.insertBusy b).busyByAddr ↔ b' = b ∨ b' ∈ h.busyByAddr := by
  refine hh.insertBusy hsize haddr hlt fun x => ?_
  rw [toNat_isWithin_self, Nat.zero_add]
  rfl

/-- `usedAddrUb` does not matter. -/
lemma Inv.use (hh : h.Inv w) {blockSize : ℕ} : (h.use w addr blockSize).Inv w :=
  ⟨⟨hh.bounded.lb_pos, hh.bounded.lb_dvd, hh.bounded.ub_dvd, hh.bounded.ub_lt⟩, hh.same, hh.free,
    hh.busy, hh.apart, hh.tiles⟩

/-- A free block is replaced by a new block and what is left of it. -/
lemma Inv.carve (hh : h.Inv w) (hfound : found ∈ h.freeByAddr) (hle : found.addr ≤ addr)
    (haddr : minBlockSize ∣ addr) (hpos : 0 < size) (hlt : size + 63 < 2 ^ w.sizeBits)
    (hfit : addr + w.roundUp size ≤ found.addr + found.size) :
    (((h.eraseFree found).insertFront found addr).insertRest w addr
      (found.size - (addr - found.addr)) (w.roundUp size)).Holed w addr (addr + w.roundUp size) := by
  obtain ⟨hopen, hleft⟩ := hh.openAt hfound
  obtain ⟨hge, -, hround⟩ := Widths.roundUp_spec hlt
  obtain ⟨-, hdvd, hdvd'⟩ := hh.free found hfound
  have hbounds := (hh.free_bounds hfound).2
  have hend : found.addr + found.size = addr + (found.size - (addr - found.addr)) := by omega
  have hub := hh.bounded.ub_lt
  have hfront := hopen.insertFront hleft hle (by omega) hdvd haddr
  rw [hend] at hfront
  refine hfront.insertRest (by omega) (by omega) haddr ?_ hround (by omega)
  rw [← hend]
  exact Nat.dvd_add hdvd hdvd'

/-! ## The functions -/

/-- What an allocation with the result `r` does: 0 says that no free block is large enough. -/
structure Allocated (w : Widths) (h h' : HeapManager) (r size : ℕ) : Prop where
  lb : h'.heapAddrLb = h.heapAddrLb
  ub : h'.heapAddrUb = h.heapAddrUb
  used_le : h.usedAddrUb ≤ h'.usedAddrUb
  used : r ≠ 0 → r + w.roundUp size ≤ h'.usedAddrUb
  busy : r ≠ 0 → ∃ b : BlockInfo, b.addr = r ∧ w.roundUp b.size = w.roundUp size ∧
    ∀ b', b' ∈ h'.busyByAddr ↔ b' = b ∨ b' ∈ h.busyByAddr
  kept : r = 0 → h' = h
  zero_iff : r = 0 ↔ ∀ b ∈ h.freeByAddr, b.size < size

lemma usedAddrUb_use {blockSize : ℕ} (hbound : addr + blockSize < 2 ^ w.vaddrBits) :
    (h.use w addr blockSize).usedAddrUb = max h.usedAddrUb (addr + blockSize) := by
  have hpow : 2 ^ w.vaddrBits ≤ 2 ^ w.sizeBits := Nat.pow_le_pow_right (Nat.succ_pos 1) w.vaddrBits_le
  have hsize : w.sizeT (addr + blockSize) = addr + blockSize := Nat.mod_eq_of_lt (by omega)
  have hvaddr : w.vaddr (addr + blockSize) = addr + blockSize := Nat.mod_eq_of_lt hbound
  show (if _ then _ else _) = _
  rw [hsize, hvaddr]
  split
  · rename_i hlt
    exact (Nat.max_eq_right (Nat.le_of_lt hlt)).symm
  · rename_i hle
    exact (Nat.max_eq_left (Nat.not_lt.1 hle)).symm

/-- A free block that is large enough is long enough for the rounded size. -/
lemma Inv.roundUp_le_iff (hh : h.Inv w) (hlt : size + 63 < 2 ^ w.sizeBits) (hb : b ∈ h.freeByAddr) :
    w.roundUp size ≤ b.size ↔ size ≤ b.size := by
  obtain ⟨hge, hle, hround⟩ := Widths.roundUp_spec hlt
  obtain ⟨j, hj⟩ := hround
  obtain ⟨k, hk⟩ := (hh.free b hb).2.2
  rw [minBlockSize] at hj hk
  omega

/-- The new block is inserted and noted in `usedAddrUb`. -/
lemma Inv.allocated (hh : h.Inv w) (hfound : found ∈ h.freeByAddr) (hle : found.addr ≤ addr)
    (haddr : minBlockSize ∣ addr) (hpos : 0 < size) (hlt : size + 63 < 2 ^ w.sizeBits)
    (hfit : addr + w.roundUp size ≤ found.addr + found.size) (hb : b.addr = addr)
    (hbpos : 0 < b.size) (hblt : b.size + 63 < 2 ^ w.sizeBits)
    (hround : w.roundUp b.size = w.roundUp size)
    (hh' : h' = ((((h.eraseFree found).insertFront found addr).insertRest w addr
      (found.size - (addr - found.addr)) (w.roundUp size)).insertBusy b).use w addr
        (w.roundUp size)) :
    h'.Inv w ∧ Allocated w h h' addr size := by
  subst hh' hb
  have hholed := hh.carve hfound hle haddr hpos hlt hfit
  have hframe : ((h.eraseFree found).insertFront found b.addr).Frame h ∧
      (((h.eraseFree found).insertFront found b.addr).insertRest w b.addr
        (found.size - (b.addr - found.addr)) (w.roundUp size)).Frame h := by
    rw [insertFront, insertRest]
    split <;> split <;> exact ⟨⟨rfl, rfl, rfl, rfl⟩, rfl, rfl, rfl, rfl⟩
  obtain ⟨hlb, hub, hused, hbusy⟩ := hframe.2
  rw [← hround] at hholed
  obtain ⟨hinv, hmem⟩ := hholed.insertBlock hbpos haddr hblt
  obtain ⟨hge, -, -⟩ := Widths.roundUp_spec hlt
  have hbounds := hh.free_bounds hfound
  have hublt := hh.bounded.ub_lt
  have hlbpos := hh.bounded.lb_pos
  rw [hround] at hinv hmem
  refine ⟨hinv.use, ⟨hlb.symm, hub.symm, ?_, fun _ => ?_, fun _ => ⟨b, rfl, hround, ?_⟩,
    fun hzero => ?_, ?_⟩⟩
  · rw [usedAddrUb_use (by omega)]
    exact Nat.le_trans (Nat.le_of_eq hused) (Nat.le_max_left _ _)
  · rw [usedAddrUb_use (by omega)]
    exact Nat.le_max_right _ _
  · rw [hbusy]
    exact hmem
  · omega
  · refine iff_of_false (by omega) fun hall => ?_
    have hsmall := hall found hfound
    omega

lemma Inv.allocateIn (hh : h.Inv w) (hfound : found ∈ h.freeByAddr) (hpos : 0 < size)
    (hlt : size + 63 < 2 ^ w.sizeBits) (hle : w.roundUp size ≤ found.size) :
    ∃ h', h.allocateIn w size found = .ok (found.addr, h') ∧ h'.Inv w ∧
      Allocated w h h' found.addr size := by
  have hfind : h.freeByAddr.find found.addr = some found := Table.find_eq_some.2 ⟨hfound, rfl⟩
  refine ⟨_, check_bind_eq_ok.2 ⟨hle, check_bind_eq_ok.2 ⟨?_, rfl⟩⟩, ?_⟩
  · rw [hfind]
    exact Option.some_ne_none found
  · refine hh.allocated hfound (Nat.le_refl _) (hh.free found hfound).2.1 hpos hlt
      (Nat.add_le_add_left hle _) (b := ⟨found.addr, size⟩) rfl hpos hlt rfl ?_
    -- nothing is left in front, and the blocks are inserted in the other order
    rw [insertFront, if_neg (Nat.lt_irrefl _), Nat.sub_self, Nat.sub_zero, insertRest, insertRest]
    split <;> rfl

lemma Inv.allocate (hh : h.Inv w) (hpos : 0 < size) (hlt : size + 63 < 2 ^ w.sizeBits) :
    ∃ r h', h.allocate w size = .ok (r, h') ∧ h'.Inv w ∧ Allocated w h h' r size := by
  rw [HeapManager.allocate]
  cases hfound : h.freeBySize.lowerBound (toLex (w.roundUp size, 0)) with
  | none =>
    refine ⟨0, h, rfl, hh, rfl, rfl, Nat.le_refl _, fun h => absurd rfl h, fun h => absurd rfl h,
      fun _ => rfl, iff_of_true rfl fun b hb => ?_⟩
    have hless := Table.lowerBound_eq_none.1 hfound b ((hh.same b).1 hb)
    have hsize : ¬w.roundUp size ≤ b.size := by
      rcases Prod.Lex.toLex_lt_toLex.1 hless with hless | ⟨-, hless⟩
      · exact Nat.not_le.2 hless
      · exact absurd hless (Nat.not_lt_zero _)
    exact Nat.not_le.1 fun h => hsize ((hh.roundUp_le_iff hlt hb).2 h)
  | some found =>
    obtain ⟨hmem, hkey⟩ := Table.of_lowerBound hfound
    have hle : w.roundUp size ≤ found.size := by
      rcases Prod.Lex.toLex_le_toLex.1 hkey with hless | ⟨heq, -⟩
      · exact Nat.le_of_lt hless
      · exact Nat.le_of_eq heq
    obtain ⟨h', hh', hinv, hallocated⟩ := hh.allocateIn ((hh.same found).2 hmem) hpos hlt hle
    exact ⟨found.addr, h', hh', hinv, hallocated⟩

/-- The last free block that begins no later than the requested address is long enough. -/
lemma Inv.allocateAtIn (hh : h.Inv w) (hfound : found ∈ h.freeByAddr) (hle : found.addr ≤ addr)
    (haddr : minBlockSize ∣ addr) (hpos : 0 < size) (hlt : size + 63 < 2 ^ w.sizeBits)
    (hfit : addr + w.roundUp size ≤ found.addr + found.size) :
    ∃ h', h.allocateAtIn w addr size found = .ok (addr, h') ∧ h'.Inv w ∧
      Allocated w h h' addr size := by
  have hfind : h.freeBySize.find found.bySize = some found :=
    Table.find_eq_some.2 ⟨(hh.same found).1 hfound, rfl⟩
  have hround := Widths.roundUp_spec hlt
  have hbounds := hh.free_bounds hfound
  have hub := hh.bounded.ub_lt
  have hpow : 2 ^ w.vaddrBits ≤ 2 ^ w.sizeBits := Nat.pow_le_pow_right (Nat.succ_pos 1) w.vaddrBits_le
  have hsub : w.sub found.size (addr - found.addr) = found.size - (addr - found.addr) := by
    have hsum : found.size + 2 ^ w.sizeBits - (addr - found.addr) =
        found.size - (addr - found.addr) + 2 ^ w.sizeBits := by omega
    rw [Widths.sub, Widths.sizeT, hsum, Nat.add_mod_right]
    exact Nat.mod_eq_of_lt (by omega)
  refine ⟨_, check_bind_eq_ok.2 ⟨hfind, check_bind_eq_ok.2 ⟨?_, rfl⟩⟩, ?_⟩
  · rw [hsub]
    omega
  · rw [hsub]
    exact hh.allocated hfound hle haddr hpos hlt hfit rfl (Nat.lt_of_lt_of_le hpos hround.1)
      (Widths.roundUp_add_lt hlt) (Widths.roundUp_of_dvd (Widths.roundUp_add_lt hlt) hround.2.2) rfl

lemma Inv.allocateAt (hh : h.Inv w) (haddr : minBlockSize ∣ addr) (hpos : 0 < size)
    (hlt : size + 63 < 2 ^ w.sizeBits) (hwrap : addr + w.roundUp size < 2 ^ w.sizeBits) :
    ∃ r h', h.allocateAt w addr size = .ok (r, h') ∧ h'.Inv w ∧ Allocated w h h' r size := by
  rw [HeapManager.allocateAt]
  cases hfound : h.freeByAddr.beforeUpperBound addr with
  | none => exact hh.allocate hpos hlt
  | some found =>
    obtain ⟨hmem, hle, -⟩ := Table.of_beforeUpperBound hfound
    have hub := hh.bounded.ub_lt
    have hbounds := hh.free_bounds hmem
    have hpow : 2 ^ w.vaddrBits ≤ 2 ^ w.sizeBits :=
      Nat.pow_le_pow_right (Nat.succ_pos 1) w.vaddrBits_le
    have hend : w.sizeT (found.addr + found.size) = found.addr + found.size :=
      Nat.mod_eq_of_lt (by omega)
    have hend' : w.sizeT (addr + w.roundUp size) = addr + w.roundUp size := Nat.mod_eq_of_lt hwrap
    dsimp only
    rw [hend, hend']
    split
    · exact hh.allocate hpos hlt
    · rename_i hfit
      obtain ⟨h', hh', hinv, hallocated⟩ :=
        hh.allocateAtIn hmem hle haddr hpos hlt (Nat.not_lt.1 hfit)
      exact ⟨addr, h', hh', hinv, hallocated⟩

end Sesc.Heap.HeapManager
