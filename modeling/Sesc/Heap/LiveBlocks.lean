import Sesc.Heap.Sound

/-!
# Live allocations

What `allocate(size)` has returned and `deallocate` has not taken back.  The allocations are distinct
as long as no size is rounded up to 0 while there is a free block: such a block is put into the set
of busy blocks and remains free.
-/

namespace Sesc.Heap

open Lib

/-- The calls of a simulated program. -/
inductive Request
  | allocate (size : ℕ)
  | deallocate (addr : ℕ)
deriving DecidableEq, Repr

/-- A heap with the live allocations, their addresses and the sizes that were asked for. -/
structure Ledger where
  heap : HeapManager
  live : List BlockInfo

namespace Ledger

variable (w : Widths) (s : Ledger)

def step : Request → Except Fault Ledger
  | .allocate size => do
    check .noSuchEvent (size < 2 ^ w.sizeBits)
    let r ← s.heap.allocate w size
    return ⟨r.2, if r.1 = 0 then s.live else s.live ++ [⟨r.1, size⟩]⟩
  | .deallocate addr => do
    let r ← s.heap.deallocate w addr
    return ⟨r.2, s.live.filter fun b => b.addr ≠ addr⟩

/-- The live allocations have different addresses, no allocation returns one of them again, and each
can be deallocated exactly once, which returns its size. -/
structure Distinct : Prop where
  nodup : (s.live.map BlockInfo.addr).Nodup
  fresh : ∀ size < 2 ^ w.sizeBits, ∀ r h', s.heap.allocate w size = .ok (r, h') → r ≠ 0 →
    ∀ b ∈ s.live, b.addr ≠ r
  once : ∀ b ∈ s.live, ∃ h', s.heap.deallocate w b.addr = .ok (b.size, h') ∧
    h'.deallocate w b.addr = .error .assertion

/-- A size is rounded up to 0 only when no block is free. -/
def Rounds : Request → Prop
  | .allocate size => w.roundUp size = 0 → s.heap.freeByAddr.toList = []
  | .deallocate _ => True

instance : ∀ r : Request, Decidable (s.Rounds w r)
  | .allocate size => inferInstanceAs (Decidable (w.roundUp size = 0 → _ = []))
  | .deallocate _ => inferInstanceAs (Decidable True)

end Ledger

/-- A heap with its live allocations as a machine. -/
def ledgerMachine (w : Widths) (heap : HeapManager) : Machine Ledger Request Fault where
  init := ⟨heap, []⟩
  step s := s.step w

/-! ## The functions -/

namespace HeapManager

variable {w : Widths} {h h' : HeapManager} {size r addr : ℕ} {b found : BlockInfo}

/-- A size that is not rounded up to 0 is positive and can be rounded up. -/
lemma fits_of_roundUp (hlt : size < 2 ^ w.sizeBits) (hround : w.roundUp size ≠ 0) :
    0 < size ∧ size + 63 < 2 ^ w.sizeBits := by
  have hsix : 2 ^ 6 ≤ 2 ^ w.sizeBits :=
    Nat.pow_le_pow_right (Nat.succ_pos 1) (w.six_le.trans w.vaddrBits_le)
  rw [Widths.roundUp, minBlockSize] at hround
  by_cases hwrap : size + 63 < 2 ^ w.sizeBits
  · rw [Widths.sizeT, Nat.mod_eq_of_lt hwrap] at hround
    omega
  · have hmod : w.sizeT (size + 63) = size + 63 - 2 ^ w.sizeBits := by
      rw [Widths.sizeT, Nat.mod_eq_sub_mod (Nat.not_lt.1 hwrap)]
      exact Nat.mod_eq_of_lt (by omega)
    rw [hmod] at hround
    omega

/-- No busy block begins where a free block does. -/
lemma Inv.addr_ne_of_free (hh : h.Inv w) (hfound : found ∈ h.freeByAddr) (hb : b ∈ h.busyByAddr) :
    b.addr ≠ found.addr := by
  intro heq
  have hpos := (hh.free found hfound).1
  have hone := (hh.free_at hfound (x := found.addr) (Nat.le_refl _) (by omega)).2.2.1
  have hzero := (hh.busy_at hb (x := found.addr) (Nat.le_of_eq heq)
    (by have := hh.rounded_pos hb; omega)).2.2
  omega

/-- An allocation that succeeds is at the beginning of a free block. -/
lemma Inv.exists_free (hh : h.Inv w) (hallocate : h.allocate w size = .ok (r, h')) (hr : r ≠ 0) :
    ∃ found ∈ h.freeByAddr, r = found.addr ∧
      h.freeBySize.lowerBound (toLex (w.roundUp size, 0)) = some found ∧
      h.allocateIn w size found = .ok (r, h') := by
  rw [HeapManager.allocate] at hallocate
  cases hfound : h.freeBySize.lowerBound (toLex (w.roundUp size, 0)) with
  | none =>
    rw [hfound] at hallocate
    cases hallocate
    exact absurd rfl hr
  | some found =>
    rw [hfound] at hallocate
    refine ⟨found, (hh.same found).2 (Table.of_lowerBound hfound).1, ?_, rfl, hallocate⟩
    obtain ⟨-, hrest⟩ := check_bind_eq_ok.1 hallocate
    obtain ⟨-, hrest⟩ := check_bind_eq_ok.1 hrest
    cases hrest
    rfl

lemma busyByAddr_insertRest {addr foundSize blockSize : ℕ} :
    (h.insertRest w addr foundSize blockSize).busyByAddr = h.busyByAddr := by
  rw [insertRest]
  split <;> rfl

/-- The block of an allocation has the size that was asked for. -/
lemma Inv.busy_allocate (hh : h.Inv w) (hallocate : h.allocate w size = .ok (r, h')) (hr : r ≠ 0) :
    ∀ b, b ∈ h'.busyByAddr ↔ b = ⟨r, size⟩ ∨ b ∈ h.busyByAddr := by
  obtain ⟨found, hmem, rfl, -, hallocate⟩ := hh.exists_free hallocate hr
  obtain ⟨-, hrest⟩ := check_bind_eq_ok.1 hallocate
  obtain ⟨-, hrest⟩ := check_bind_eq_ok.1 hrest
  cases hrest
  intro b
  show b ∈ (HeapManager.insertRest w _ _ _ _).busyByAddr ↔ _
  rw [busyByAddr_insertRest]
  show b ∈ h.busyByAddr.add ⟨found.addr, size⟩ ↔ _
  have hne := fun b hb => hh.addr_ne_of_free hmem (b := b) hb
  have hadd : h.busyByAddr.add ⟨found.addr, size⟩ = h.busyByAddr.insert ⟨found.addr, size⟩ :=
    Table.add_eq_insert (Table.find_eq_none.2 hne)
  rw [hadd, Table.mem_insert]
  exact or_congr_right (and_iff_left_of_imp (hne b))

/-- A block that is not busy cannot be deallocated. -/
lemma deallocate_of_not_live (hnone : ∀ b ∈ h.busyByAddr, b.addr ≠ addr) :
    h.deallocate w addr = .error .assertion := by
  rw [HeapManager.deallocate, Table.find_eq_none.2 hnone]
  rfl

/-- A size that is rounded up to 0 leaves the block that is found free. -/
lemma Inv.free_allocateIn (hh : h.Inv w) (hround : w.roundUp size = 0)
    (hmem : found ∈ h.freeByAddr) (hallocate : h.allocateIn w size found = .ok (r, h')) :
    found ∈ h'.freeByAddr ∧ found ∈ h'.freeBySize ∧
      ∀ b ∈ h'.freeBySize, b = found ∨ b ∈ h.freeBySize := by
  have hpos := (hh.free found hmem).1
  have hbounds := hh.free_bounds hmem
  have hub := hh.bounded.ub_lt
  have haddr : w.vaddr (found.addr + 0) = found.addr := Nat.mod_eq_of_lt (by omega)
  obtain ⟨-, hrest⟩ := check_bind_eq_ok.1 hallocate
  obtain ⟨-, hrest⟩ := check_bind_eq_ok.1 hrest
  cases hrest
  have hblock : (⟨w.vaddr (found.addr + 0), found.size - 0⟩ : BlockInfo) = found := by
    rw [haddr, Nat.sub_zero]
  have hrest : ((h.eraseFree found).insertBusy ⟨found.addr, size⟩).insertRest w found.addr found.size
      (w.roundUp size) = ((h.eraseFree found).insertBusy ⟨found.addr, size⟩).insertFree found := by
    rw [insertRest, hround, if_pos hpos, hblock]
  rw [hrest]
  have haddAddr : (h.freeByAddr.erase found.addr).add found =
      (h.freeByAddr.erase found.addr).insert found :=
    Table.add_eq_insert (Table.find_eq_none.2 fun b hb => (Table.mem_erase.1 hb).2)
  have haddSize : (h.freeBySize.erase found.bySize).add found =
      (h.freeBySize.erase found.bySize).insert found :=
    Table.add_eq_insert (Table.find_eq_none.2 fun b hb => (Table.mem_erase.1 hb).2)
  refine ⟨?_, ?_, fun b hb => ?_⟩
  · show found ∈ (h.freeByAddr.erase found.addr).add found
    rw [haddAddr, Table.mem_insert]
    exact .inl rfl
  · show found ∈ (h.freeBySize.erase found.bySize).add found
    rw [haddSize, Table.mem_insert]
    exact .inl rfl
  · have hb : b ∈ (h.freeBySize.erase found.bySize).add found := hb
    rw [haddSize, Table.mem_insert] at hb
    exact hb.imp_right fun hb => (Table.mem_erase.1 hb.1).1

/-- The next size that is rounded up to 0 finds the block again. -/
lemma Inv.allocate_again (hh : h.Inv w) (hround : w.roundUp size = 0)
    (hallocate : h.allocate w size = .ok (r, h')) (hr : r ≠ 0) :
    ∃ h'', h'.allocate w size = .ok (r, h'') := by
  obtain ⟨found, hmem, rfl, hfound, hallocate⟩ := hh.exists_free hallocate hr
  obtain ⟨hmemAddr, hmemSize, hsubset⟩ := hh.free_allocateIn hround hmem hallocate
  obtain ⟨-, hle, hmin⟩ := Table.of_first hfound
  have hagain : h'.freeBySize.lowerBound (toLex (w.roundUp size, 0)) = some found := by
    refine Table.lowerBound_eq_some hmemSize (of_decide_eq_true hle) fun b hb hk => ?_
    rcases hsubset b hb with rfl | hb
    · exact le_refl _
    · exact hmin b hb (decide_eq_true hk)
  rw [HeapManager.allocate, hagain]
  refine ⟨_, check_bind_eq_ok.2 ⟨?_, check_bind_eq_ok.2 ⟨?_, rfl⟩⟩⟩
  · rw [hround]
    exact Nat.zero_le _
  · rw [Table.find_eq_some.2 ⟨hmemAddr, rfl⟩]
    exact Option.some_ne_none found

end HeapManager

namespace Ledger

variable {w : Widths} {s s' : Ledger} {r : Request} {base size : ℕ}

/-- The heap is in order, and its busy blocks are the live allocations. -/
structure Inv (w : Widths) (s : Ledger) : Prop where
  heap : s.heap.Inv w
  mem_iff : ∀ b, b ∈ s.live ↔ b ∈ s.heap.busyByAddr
  nodup : (s.live.map BlockInfo.addr).Nodup

lemma Inv.distinct (hs : s.Inv w) : s.Distinct w := by
  refine ⟨hs.nodup, fun n _ r h' hallocate hr b hb => ?_, fun b hb => ?_⟩
  · obtain ⟨found, hmem, rfl, -⟩ := hs.heap.exists_free hallocate hr
    exact hs.heap.addr_ne_of_free hmem ((hs.mem_iff b).1 hb)
  · obtain ⟨h', hdeallocate, -, -, -, -, hbusy⟩ := hs.heap.deallocate ((hs.mem_iff b).1 hb)
    refine ⟨h', hdeallocate, HeapManager.deallocate_of_not_live fun b' hb' => ?_⟩
    exact ((hbusy b').1 hb').2

/-- An allocation of a size that is not rounded up to 0. -/
lemma Inv.allocate {live : List BlockInfo} {heap h' : HeapManager} {n a : ℕ}
    (hs : Inv w ⟨heap, live⟩) (hlt : n < 2 ^ w.sizeBits) (hround : w.roundUp n ≠ 0)
    (hallocate : heap.allocate w n = .ok (a, h')) (ha : a ≠ 0) :
    Inv w ⟨h', live ++ [⟨a, n⟩]⟩ := by
  obtain ⟨hpos, hfits⟩ := HeapManager.fits_of_roundUp hlt hround
  obtain ⟨a', h'', hallocate', hinv, -⟩ := hs.heap.allocate hpos hfits
  cases hallocate'.symm.trans hallocate
  have hbusy := hs.heap.busy_allocate hallocate ha
  refine ⟨hinv, fun b => ?_, ?_⟩
  · rw [List.mem_append, List.mem_singleton, hbusy, hs.mem_iff]
    exact or_comm
  · obtain ⟨found, hmem, rfl, -⟩ := hs.heap.exists_free hallocate ha
    rw [List.map_append, List.map_singleton]
    refine List.nodup_append.2 ⟨hs.nodup, List.nodup_singleton _, fun x hx y hy => ?_⟩
    obtain ⟨b, hb, rfl⟩ := List.mem_map.1 hx
    rw [List.mem_singleton.1 hy]
    show b.addr ≠ found.addr
    exact hs.heap.addr_ne_of_free hmem ((hs.mem_iff b).1 hb)

/-- The end of an allocation. -/
lemma Inv.deallocate {live : List BlockInfo} {heap h' : HeapManager} {addr a : ℕ}
    (hs : Inv w ⟨heap, live⟩) (hdeallocate : heap.deallocate w addr = .ok (a, h')) :
    Inv w ⟨h', live.filter fun b => b.addr ≠ addr⟩ := by
  obtain ⟨b, hb, -⟩ := bind_eq_ok.1 hdeallocate
  obtain ⟨hmem, rfl⟩ := Table.find_eq_some.1 (elim_error_eq_ok.1 hb)
  obtain ⟨h'', hdeallocate', hinv, -, -, -, hbusy⟩ := hs.heap.deallocate hmem
  cases hdeallocate'.symm.trans hdeallocate
  refine ⟨hinv, fun b' => ?_, ?_⟩
  · rw [List.mem_filter, hbusy, hs.mem_iff, decide_eq_true_iff]
  · exact hs.nodup.sublist (List.filter_sublist.map _)

/-- Nothing is allocated when no block is free. -/
lemma allocate_of_no_free {heap h' : HeapManager} {n a : ℕ} (hinv : heap.Inv w)
    (hempty : heap.freeByAddr.toList = []) (hallocate : heap.allocate w n = .ok (a, h')) :
    a = 0 ∧ h' = heap := by
  have hnone : heap.freeBySize.lowerBound (toLex (w.roundUp n, 0)) = none := by
    refine Table.lowerBound_eq_none.2 fun b hb => ?_
    have hmem := (hinv.same b).2 hb
    rw [Table.mem_iff, hempty] at hmem
    exact absurd hmem List.not_mem_nil
  rw [HeapManager.allocate, hnone] at hallocate
  cases hallocate
  exact ⟨rfl, rfl⟩

/-- An allocation that returns 0 has found no block and has changed nothing. -/
lemma of_allocate_zero {heap h' : HeapManager} {n : ℕ} (hinv : heap.Inv w)
    (hallocate : heap.allocate w n = .ok (0, h')) :
    heap.freeBySize.lowerBound (toLex (w.roundUp n, 0)) = none ∧ h' = heap := by
  rw [HeapManager.allocate] at hallocate
  cases hfound : heap.freeBySize.lowerBound (toLex (w.roundUp n, 0)) with
  | none =>
    rw [hfound] at hallocate
    cases hallocate
    exact ⟨rfl, rfl⟩
  | some found =>
    rw [hfound] at hallocate
    obtain ⟨-, hrest⟩ := check_bind_eq_ok.1 hallocate
    obtain ⟨-, hrest⟩ := check_bind_eq_ok.1 hrest
    have hbounds := hinv.free_bounds ((hinv.same found).2 (Table.of_lowerBound hfound).1)
    have hlb := hinv.bounded.lb_pos
    have hzero : found.addr = 0 := congrArg Prod.fst (Except.ok.inj hrest)
    omega

/-- A call keeps the live allocations the busy blocks unless a size is rounded up to 0. -/
lemma Inv.step (hs : s.Inv w) (hround : s.Rounds w r) (hstep : s.step w r = .ok s') :
    s'.Inv w := by
  obtain ⟨heap, live⟩ := s
  cases r with
  | allocate n =>
    obtain ⟨hlt, hstep⟩ := check_bind_eq_ok.1 hstep
    obtain ⟨⟨a, h'⟩, hallocate, hstep⟩ := bind_eq_ok.1 hstep
    cases hstep
    show Inv w ⟨h', if a = 0 then live else live ++ [⟨a, n⟩]⟩
    split
    · rename_i ha
      rw [ha] at hallocate
      rw [(of_allocate_zero hs.heap hallocate).2]
      exact hs
    · rename_i ha
      refine hs.allocate hlt (fun hzero => ha ?_) hallocate ha
      exact (allocate_of_no_free hs.heap (hround hzero) hallocate).1
  | deallocate addr =>
    obtain ⟨⟨a, h'⟩, hdeallocate, hstep⟩ := bind_eq_ok.1 hstep
    cases hstep
    exact hs.deallocate hdeallocate

/-- After a size has been rounded up to 0 in a heap with a free block, an address that is live is
returned. -/
lemma Inv.not_distinct (hs : s.Inv w) (hround : ¬s.Rounds w r) (hstep : s.step w r = .ok s') :
    ¬s'.Distinct w := by
  obtain ⟨heap, live⟩ := s
  cases r with
  | allocate n =>
    obtain ⟨hzero, hfree⟩ := Classical.not_imp.1 hround
    obtain ⟨hlt, hstep⟩ := check_bind_eq_ok.1 hstep
    obtain ⟨⟨a, h'⟩, hallocate, hstep⟩ := bind_eq_ok.1 hstep
    cases hstep
    have ha : a ≠ 0 := by
      rintro rfl
      -- every free block is large enough
      refine hfree (List.eq_nil_iff_forall_not_mem.2 fun b hb => ?_)
      have hless := Table.lowerBound_eq_none.1 (of_allocate_zero hs.heap hallocate).1 b
        ((hs.heap.same b).1 hb)
      rw [hzero] at hless
      rcases Prod.Lex.toLex_lt_toLex.1 hless with hless | ⟨-, hless⟩
      · exact Nat.not_lt_zero _ hless
      · exact Nat.not_lt_zero _ hless
    obtain ⟨h'', hagain⟩ := hs.heap.allocate_again hzero hallocate ha
    intro hdistinct
    refine hdistinct.fresh n hlt a h'' hagain ha ⟨a, n⟩ ?_ rfl
    show _ ∈ if a = 0 then live else live ++ [⟨a, n⟩]
    rw [if_neg ha]
    exact List.mem_append_right _ List.mem_cons_self
  | deallocate addr => exact absurd trivial hround

lemma Inv.new {heap : HeapManager} (hnew : HeapManager.new w base size = .ok heap)
    (hfits : base + size < 2 ^ w.vaddrBits) : Inv w ⟨heap, []⟩ := by
  have hsystem := System.Inv.new hnew hfits
  refine ⟨hsystem.heap, fun b => ?_, List.nodup_nil⟩
  obtain ⟨-, hnew⟩ := check_bind_eq_ok.1 hnew
  obtain ⟨-, hnew⟩ := check_bind_eq_ok.1 hnew
  cases hnew
  exact iff_of_false List.not_mem_nil (Table.not_mem_empty b)

/-- In a run from a new heap that ends in the address space, all live allocations are distinct in
every state that has been passed if and only if no size was rounded up to 0 while a block was free. -/
theorem distinct_iff_runWhere (w : Widths) (base size : ℕ) (heap : HeapManager)
    (hnew : HeapManager.new w base size = .ok heap) (hfits : base + size < 2 ^ w.vaddrBits)
    (rs : List Request) (s : Ledger) (h : (ledgerMachine w heap).Run rs s) :
    (∀ rs' s', rs' <+: rs → (ledgerMachine w heap).Run rs' s' → s'.Distinct w) ↔
      (ledgerMachine w heap).RunWhere (fun s r => s.Rounds w r) rs s := by
  have hinv := Inv.new hnew hfits
  exact h.always_iff_runWhere hinv (fun s hs => hs.distinct)
    (fun s r s' hs hround hstep => hs.step hround hstep)
    (fun s r s' hs hround hstep => hs.not_distinct hround hstep)

/-! ### A heap of two blocks -/

/-- A block is freed and allocated again, and then there is no room for an empty one. -/
def reusingRun : List Request := [.allocate 10, .deallocate 64, .allocate 20, .allocate 64, .allocate 0]

theorem distinct_reusingRun : ∃ heap s, HeapManager.new .narrow 64 128 = .ok heap ∧
    (ledgerMachine .narrow heap).Run reusingRun s ∧ s.live = [⟨64, 20⟩, ⟨128, 64⟩] ∧
    ∀ rs' s', rs' <+: reusingRun → (ledgerMachine .narrow heap).Run rs' s' → s'.Distinct .narrow := by
  obtain ⟨heap, hnew⟩ : ∃ heap, HeapManager.new .narrow 64 128 = .ok heap := ⟨_, rfl⟩
  have hrun : succeeds (HeapManager.new .narrow 64 128) (fun heap =>
      succeeds (((ledgerMachine .narrow heap).guarded (fun s r => decide (s.Rounds .narrow r))
        .noSuchEvent).exec ⟨heap, []⟩ reusingRun) fun s =>
          decide (s.live = [⟨64, 20⟩, ⟨128, 64⟩])) = true := by
    decide +kernel
  obtain ⟨heap', hnew', htest⟩ := succeeds_iff.1 hrun
  cases hnew'.symm.trans hnew
  obtain ⟨s, hs, htest⟩ := succeeds_iff.1 htest
  have hwhere : (ledgerMachine .narrow heap).RunWhere (fun s r => s.Rounds .narrow r) reusingRun s :=
    (Machine.run_of_exec hs).of_guarded.mono fun _ _ => of_decide_eq_true
  exact ⟨heap, s, hnew, hwhere.run, of_decide_eq_true htest,
    (distinct_iff_runWhere .narrow 64 128 heap hnew (by decide) reusingRun s hwhere.run).2 hwhere⟩

/-- Two allocations of 0 bytes have the same address. -/
theorem not_distinct_emptyBlocks : ∃ heap s, HeapManager.new .narrow 64 128 = .ok heap ∧
    (ledgerMachine .narrow heap).Run [.allocate 0, .allocate 0] s ∧
    s.live = [⟨64, 0⟩, ⟨64, 0⟩] ∧ ¬s.Distinct .narrow := by
  obtain ⟨heap, hnew⟩ : ∃ heap, HeapManager.new .narrow 64 128 = .ok heap := ⟨_, rfl⟩
  have hrun : succeeds (HeapManager.new .narrow 64 128) (fun heap =>
      succeeds ((ledgerMachine .narrow heap).exec ⟨heap, []⟩ [.allocate 0, .allocate 0]) fun s =>
        decide (s.live = [⟨64, 0⟩, ⟨64, 0⟩])) = true := by
    decide +kernel
  obtain ⟨heap', hnew', htest⟩ := succeeds_iff.1 hrun
  cases hnew'.symm.trans hnew
  obtain ⟨s, hs, htest⟩ := succeeds_iff.1 htest
  have hlive := of_decide_eq_true htest
  refine ⟨heap, s, hnew, Machine.run_of_exec hs, hlive, fun hdistinct => ?_⟩
  have hnodup := hdistinct.nodup
  rw [hlive] at hnodup
  exact absurd hnodup (by decide)

end Ledger

end Sesc.Heap
