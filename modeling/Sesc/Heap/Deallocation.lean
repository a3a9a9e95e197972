import Sesc.Heap.Allocation

/-!
# Deallocation, and the heap over whole runs

A block that is deallocated leaves a hole, which grows by the free blocks that adjoin it and is
filled with one free block.
-/

namespace Sesc.Heap

open Lib

namespace HeapManager

variable {w : Widths} {h h' : HeapManager} {b b' : BlockInfo} {addr lo hi : ℕ}

/-- The hole is that of a block, which is no longer a free one and not yet merged. -/
structure HoleOf (w : Widths) (h : HeapManager) (b : BlockInfo) : Prop where
  holed : h.Holed w b.addr (b.addr + b.size)
  pos : 0 < b.size
  addr_dvd : minBlockSize ∣ b.addr
  size_dvd : minBlockSize ∣ b.size
  bound : b.addr + b.size < 2 ^ w.vaddrBits

lemma HoleOf.blockEnd (hh : h.HoleOf w b) : blockEnd w b = b.addr + b.size := by
  have hsize : w.vaddr b.size = b.size := Nat.mod_eq_of_lt (by have := hh.bound; omega)
  rw [HeapManager.blockEnd, hsize]
  exact Nat.mod_eq_of_lt hh.bound

lemma Holed.blockEnd (hh : h.Holed w lo hi) (hb : b ∈ h.freeByAddr) :
    blockEnd w b = b.addr + b.size := by
  have hbounds := (hh.free_bounds hb).2
  have hub := hh.bounded.ub_lt
  have hsize : w.vaddr b.size = b.size := Nat.mod_eq_of_lt (by omega)
  rw [HeapManager.blockEnd, hsize]
  exact Nat.mod_eq_of_lt (by omega)

/-- A free block that begins after the hole begins behind it. -/
lemma HoleOf.end_le (hh : h.HoleOf w b) (hb' : b' ∈ h.freeByAddr) (hlt : b.addr < b'.addr) :
    b.addr + b.size ≤ b'.addr := by
  have hpos := (hh.holed.free b' hb').1
  by_contra hin
  exact hh.holed.not_in_hole hb' (x := b'.addr) (by omega) (by omega) (by omega)

/-- A free block that begins before the hole ends in front of it. -/
lemma HoleOf.le_start (hh : h.HoleOf w b) (hb' : b' ∈ h.freeByAddr) (hle : b'.addr ≤ b.addr) :
    b'.addr + b'.size ≤ b.addr := by
  have hpos := hh.pos
  by_contra hin
  exact hh.holed.not_in_hole hb' (x := b.addr) (by omega) (by omega) (by omega)

/-- The hole grows by the free block that follows it, if there is one; then none does. -/
lemma HoleOf.mergeNext (hh : h.HoleOf w b) :
    ∃ b' h', h.mergeNext w b = .ok (b', h') ∧ h'.HoleOf w b' ∧ h'.Frame h ∧ b'.addr = b.addr ∧
      ∀ n ∈ h'.freeByAddr, n.addr ≠ b'.addr + b'.size := by
  have hend := hh.blockEnd
  rw [HeapManager.mergeNext]
  cases hnext : h.freeByAddr.upperBound b.addr with
  | none =>
    refine ⟨b, h, rfl, hh, ⟨rfl, rfl, rfl, rfl⟩, rfl, fun n hn heq => ?_⟩
    have hle := Table.upperBound_eq_none.1 hnext n hn
    have hpos := hh.pos
    omega
  | some next =>
    obtain ⟨hmem, hlt, hleast⟩ := Table.of_upperBound hnext
    have hle := hh.end_le hmem hlt
    dsimp only
    by_cases hadjoins : b.addr + b.size = next.addr
    · obtain ⟨hnpos, -, hndvd⟩ := hh.holed.free next hmem
      have hbounds := (hh.holed.free_bounds hmem).2
      have hub := hh.holed.bounded.ub_lt
      have hpow : 2 ^ w.vaddrBits ≤ 2 ^ w.sizeBits :=
        Nat.pow_le_pow_right (Nat.succ_pos 1) w.vaddrBits_le
      have hsum : w.sizeT (b.size + next.size) = b.size + next.size := Nat.mod_eq_of_lt (by omega)
      have hgrown : (h.eraseFree next).HoleOf w ⟨b.addr, b.size + next.size⟩ := by
        refine ⟨hh.holed.eraseFree hmem fun x => ?_, Nat.add_pos_left hh.pos _, hh.addr_dvd,
          Nat.dvd_add hh.size_dvd hndvd, by dsimp only; omega⟩
        rw [toNat_isWithin, toNat_isWithin, BlockInfo.range, toNat_isWithin]
        dsimp only
        split_ifs <;> omega
      -- what follows the next block does not adjoin it
      have hapart : ∀ n ∈ (h.eraseFree next).freeByAddr, n.addr ≠ b.addr + (b.size + next.size) := by
        intro n hn heq
        have hne := hh.holed.apart next hmem n (mem_eraseFree.1 hn).1
        omega
      have hcheck : ((h.eraseFree next).freeByAddr.upperBound b.addr).all (fun next' =>
          HeapManager.blockEnd w ⟨b.addr, w.sizeT (b.size + next.size)⟩ < next'.addr) = true := by
        rw [hsum, hgrown.blockEnd]
        refine (Option.all_eq_true _ _).2 fun n hn => decide_eq_true ?_
        obtain ⟨hnmem, hnlt, -⟩ := Table.of_upperBound hn
        exact Nat.lt_of_le_of_ne (hgrown.end_le hnmem hnlt) (hapart n hnmem).symm
      refine ⟨_, _, check_bind_eq_ok.2 ⟨?_, ?_⟩, hgrown, ⟨rfl, rfl, rfl, rfl⟩, rfl, hapart⟩
      · rw [hend]
        exact hle
      · rw [hend, if_pos hadjoins, hcheck, hsum]
        rfl
    · refine ⟨b, h, check_bind_eq_ok.2 ⟨?_, ?_⟩, hh, ⟨rfl, rfl, rfl, rfl⟩, rfl, fun n hn heq => ?_⟩
      · rw [hend]
        exact hle
      · rw [hend, if_neg hadjoins]
        rfl
      · have hpos := hh.pos
        have hnext' := hleast n hn (by omega)
        omega

/-- The hole grows by the free block that precedes it, if there is one; then none does. -/
lemma HoleOf.mergePrevious (hh : h.HoleOf w b) (hright : ∀ n ∈ h.freeByAddr, n.addr ≠ b.addr + b.size) :
    ∃ b' h', h.mergePrevious w b = .ok (b', h') ∧ h'.HoleOf w b' ∧ h'.Frame h ∧
      (∀ n ∈ h'.freeByAddr, n.addr + n.size ≠ b'.addr) ∧
      ∀ n ∈ h'.freeByAddr, b'.addr + b'.size ≠ n.addr := by
  rw [HeapManager.mergePrevious]
  cases hprevious : h.freeByAddr.beforeUpperBound b.addr with
  | none =>
    refine ⟨b, h, rfl, hh, ⟨rfl, rfl, rfl, rfl⟩, fun n hn heq => ?_, fun n hn => (hright n hn).symm⟩
    have hlt := Table.beforeUpperBound_eq_none.1 hprevious n hn
    omega
  | some previous =>
    obtain ⟨hmem, hle, hgreatest⟩ := Table.of_beforeUpperBound hprevious
    have hstart := hh.le_start hmem hle
    have hend := hh.holed.blockEnd hmem
    obtain ⟨hpos, hpdvd, hpdvd'⟩ := hh.holed.free previous hmem
    dsimp only
    by_cases hadjoins : previous.addr + previous.size = b.addr
    · have hub := hh.bound
      have hpow : 2 ^ w.vaddrBits ≤ 2 ^ w.sizeBits :=
        Nat.pow_le_pow_right (Nat.succ_pos 1) w.vaddrBits_le
      have hsum : w.sizeT (b.size + previous.size) = b.size + previous.size :=
        Nat.mod_eq_of_lt (by omega)
      have hgrown : (h.eraseFree previous).HoleOf w ⟨previous.addr, b.size + previous.size⟩ := by
        refine ⟨hh.holed.eraseFree hmem fun x => ?_, Nat.add_pos_left hh.pos _, hpdvd,
          Nat.dvd_add hh.size_dvd hpdvd', by dsimp only; omega⟩
        rw [toNat_isWithin, toNat_isWithin, BlockInfo.range, toNat_isWithin]
        dsimp only
        split_ifs <;> omega
      refine ⟨_, _, check_bind_eq_ok.2 ⟨?_, ?_⟩, hgrown, ⟨rfl, rfl, rfl, rfl⟩, fun n hn => ?_,
        fun n hn => ?_⟩
      · rw [hend]
        exact hstart
      · rw [hend, if_pos hadjoins, hsum]
        rfl
      · exact hh.holed.apart n (mem_eraseFree.1 hn).1 previous hmem
      · have hne := hright n (mem_eraseFree.1 hn).1
        dsimp only
        omega
    · refine ⟨b, h, check_bind_eq_ok.2 ⟨?_, ?_⟩, hh, ⟨rfl, rfl, rfl, rfl⟩, fun n hn heq => ?_,
        fun n hn => (hright n hn).symm⟩
      · rw [hend]
        exact hstart
      · rw [hend, if_neg hadjoins]
        rfl
      · -- the last block before the hole would be inside the one that adjoins it
        have hnpos := (hh.holed.free n hn).1
        have hlast := hgreatest n hn (by omega)
        have hsame := hh.holed.eq_of_free hmem hn (x := previous.addr) (Nat.le_refl _) (by omega)
          hlast (by omega)
        rw [hsame] at hadjoins
        exact hadjoins heq

/-- The hole of a block is filled with it. -/
lemma HoleOf.fill (hh : h.HoleOf w b) (hleft : ∀ n ∈ h.freeByAddr, n.addr + n.size ≠ b.addr)
    (hright : ∀ n ∈ h.freeByAddr, b.addr + b.size ≠ n.addr) : (h.insertFree b).Inv w := by
  refine (hh.holed.insertFree hh.pos hh.addr_dvd hh.size_dvd (fun x => ?_) hleft hright).1
  rw [toNat_isWithin_self, Nat.zero_add]
  rfl

/-- A live block can be deallocated. -/
lemma Inv.deallocate (hh : h.Inv w) (hb : b ∈ h.busyByAddr) :
    ∃ h', h.deallocate w b.addr = .ok (b.size, h') ∧ h'.Inv w ∧ h'.heapAddrLb = h.heapAddrLb ∧
      h'.heapAddrUb = h.heapAddrUb ∧ h'.usedAddrUb = h.usedAddrUb ∧
      ∀ b', b' ∈ h'.busyByAddr ↔ b' ∈ h.busyByAddr ∧ b'.addr ≠ b.addr := by
  obtain ⟨hpos, hdvd, hlt⟩ := hh.busy b hb
  obtain ⟨hge, -, hround⟩ := Widths.roundUp_spec hlt
  have hlast := (hh.busy_at hb (x := b.addr + w.roundUp b.size - 1) (by omega) (by omega)).1
  have hub := hh.bounded.ub_lt
  have hhole : (h.eraseBusy b.addr).HoleOf w ⟨b.addr, w.roundUp b.size⟩ :=
    ⟨hh.eraseBusy hb, Nat.lt_of_lt_of_le hpos hge, hdvd, hround, by dsimp only; omega⟩
  obtain ⟨b₁, h₁, hmerge₁, hhole₁, hframe₁, -, hright₁⟩ := hhole.mergeNext
  obtain ⟨b₂, h₂, hmerge₂, hhole₂, hframe₂, hleft₂, hright₂⟩ := hhole₁.mergePrevious hright₁
  have hfind : h.busyByAddr.find b.addr = some b := Table.find_eq_some.2 ⟨hb, rfl⟩
  refine ⟨h₂.insertFree b₂, ?_, hhole₂.fill hleft₂ hright₂, ?_⟩
  · rw [HeapManager.deallocate, hfind]
    show (h.eraseBusy b.addr).mergeNext w ⟨b.addr, w.roundUp b.size⟩ >>= _ = _
    rw [hmerge₁, ok_bind]
    show h₁.mergePrevious w b₁ >>= _ = _
    rw [hmerge₂, ok_bind]
    rfl
  · obtain ⟨hlb₁, hub₁, hused₁, hbusy₁⟩ := hframe₁
    obtain ⟨hlb₂, hub₂, hused₂, hbusy₂⟩ := hframe₂
    refine ⟨(hlb₁.trans hlb₂).symm, (hub₁.trans hub₂).symm, (hused₁.trans hused₂).symm, fun b' => ?_⟩
    show b' ∈ h₂.busyByAddr ↔ _
    rw [← hbusy₂, ← hbusy₁]
    exact Table.mem_erase

end HeapManager

end Sesc.Heap
