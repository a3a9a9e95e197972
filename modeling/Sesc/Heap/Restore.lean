import Mathlib.Data.List.Sort
import Sesc.Heap.LiveBlocks

/-!
# Restoring a heap

The allocations of a heap, in the order of their addresses, are made again in a new heap of the same
bounds.  The free blocks of a heap are the gaps between its busy blocks, so that both heaps have the
same free blocks; `allocate(addr, size)` stores rounded sizes, though.
-/

namespace Sesc.Heap

open Lib

namespace HeapManager

variable (w : Widths) (h : HeapManager)

def getAllocationSize (addr : ℕ) : Except Fault ℕ :=
  (h.busyByAddr.find addr).elim (.error .assertion) fun b => .ok b.size

def ForceBlockPopulation (start size : ℕ) : Except Fault HeapManager := do
  let r ← h.allocateAt w start size
  return r.2

/-- The allocations from `GetAllocationIterator` on, as `GetAllocationDetails` gives them. -/
def allocations : List BlockInfo :=
  h.busyByAddr.toList.insertionSort fun b b' => b.addr ≤ b'.addr

/-- The allocations are made again in a heap. -/
def restore (heap : HeapManager) : List BlockInfo → Except Fault HeapManager
  | [] => .ok heap
  | b :: rest => do
    let heap ← heap.ForceBlockPopulation w b.addr b.size
    restore heap rest

/-- The heap that is restored in a new one has the same live allocations and the same free blocks. -/
def Restored (heap : HeapManager) : Prop :=
  ∃ h', restore w heap h.allocations = .ok h' ∧
    (∀ addr, h'.getAllocationSize addr = h.getAllocationSize addr) ∧
    (∀ b, b ∈ h'.freeByAddr ↔ b ∈ h.freeByAddr) ∧ ∀ b, b ∈ h'.freeBySize ↔ b ∈ h.freeBySize

/-- An address is in a free block. -/
def Covers (h : HeapManager) (x : ℕ) : Prop :=
  ∃ b ∈ h.freeByAddr, b.addr ≤ x ∧ x < b.addr + b.size

variable {w : Widths} {h g g' : HeapManager} {b c found : BlockInfo} {x addr size base : ℕ}

/-! ## The gaps between the busy blocks -/

/-- The free blocks cover what the busy blocks do not. -/
lemma Inv.covers_iff (hh : h.Inv w) : h.Covers x ↔ (h.heapAddrLb ≤ x ∧ x < h.heapAddrUb) ∧
    ∀ b ∈ h.busyByAddr, ¬(b.addr ≤ x ∧ x < b.addr + w.roundUp b.size) := by
  have htiles := hh.tiles x
  rw [toNat_isWithin_self, Nat.add_zero] at htiles
  constructor
  · rintro ⟨b, hb, hx, hx'⟩
    obtain ⟨hin, -, -, hnone⟩ := hh.free_at hb hx hx'
    refine ⟨hin, fun b' hb' hwithin => ?_⟩
    exact absurd (Table.count_eq_zero.1 hnone b' hb') (by rw [isWithin_iff.2 hwithin]; simp)
  · rintro ⟨hin, hnone⟩
    have hzero : h.busyByAddr.count (fun b => isWithin x (b.rounded w).range) = 0 :=
      Table.count_eq_zero.2 fun b hb =>
        Bool.eq_false_iff.2 fun hwithin => hnone b hb (isWithin_iff.1 hwithin)
    rw [if_pos hin, hzero, Nat.add_zero] at htiles
    have hpos : 0 < h.freeByAddr.count fun b => isWithin x b.range := by
      rw [htiles]
      exact Nat.one_pos
    obtain ⟨b, hb, hwithin⟩ := Table.exists_mem_of_count_pos hpos
    exact ⟨b, hb, isWithin_range.1 hwithin⟩

/-- Behind a free block there is none. -/
lemma Inv.not_covers_end (hh : h.Inv w) (hb : b ∈ h.freeByAddr) : ¬h.Covers (b.addr + b.size) := by
  rintro ⟨c, hc, hx, hx'⟩
  have hpos := (hh.free b hb).1
  rcases Nat.eq_or_lt_of_le hx with heq | hlt
  · exact hh.apart b hb c hc heq.symm
  · -- the last address of the block would be in both
    have hsame := hh.eq_of_free hb hc (x := b.addr + b.size - 1) (by omega) (by omega) (by omega)
      (by omega)
    rw [hsame] at hx'
    exact Nat.lt_irrefl _ hx'

/-- In front of a free block there is none. -/
lemma Inv.not_covers_front (hh : h.Inv w) (hb : b ∈ h.freeByAddr) (hx : x + 1 = b.addr) :
    ¬h.Covers x := by
  rintro ⟨c, hc, hcx, hcx'⟩
  have hpos := (hh.free b hb).1
  rcases Nat.eq_or_lt_of_le (Nat.succ_le_of_lt hcx') with heq | hlt
  · exact hh.apart c hc b hb (by omega)
  · have hsame := hh.eq_of_free hb hc (x := b.addr) (Nat.le_refl _) (by omega) (by omega) (by omega)
    rw [hsame] at hx
    omega

/-- Heaps whose free blocks cover the same addresses have the same free blocks. -/
lemma Inv.mem_free_of_covers (hh : h.Inv w) (hg : g.Inv w) (hcovers : ∀ x, h.Covers x ↔ g.Covers x)
    (hb : b ∈ h.freeByAddr) : b ∈ g.freeByAddr := by
  have hpos := (hh.free b hb).1
  obtain ⟨c, hc, hcx, hcx'⟩ := (hcovers b.addr).1 ⟨b, hb, Nat.le_refl _, by omega⟩
  have hstart : c.addr = b.addr := by
    rcases Nat.eq_or_lt_of_le hcx with heq | hlt
    · exact heq
    · refine absurd ((hcovers (b.addr - 1)).2 ⟨c, hc, by omega, by omega⟩) ?_
      exact hh.not_covers_front hb (by omega)
  have hend : c.size = b.size := by
    rcases Nat.lt_trichotomy c.size b.size with hlt | heq | hlt
    · exact absurd ((hcovers _).1 ⟨b, hb, by omega, by omega⟩) (hg.not_covers_end hc)
    · exact heq
    · exact absurd ((hcovers _).2 ⟨c, hc, by omega, by omega⟩) (hh.not_covers_end hb)
  have hsame : c = b := by
    cases b
    cases c
    simp_all
  exact hsame ▸ hc

/-- A stretch of free addresses is in one free block. -/
lemma Inv.exists_free_of_covers (hh : h.Inv w) (hpos : 0 < size)
    (hcovers : ∀ x, addr ≤ x → x < addr + size → h.Covers x) :
    ∃ found ∈ h.freeByAddr, found.addr ≤ addr ∧ addr + size ≤ found.addr + found.size := by
  obtain ⟨found, hfound, hx, hx'⟩ := hcovers addr (Nat.le_refl _) (by omega)
  refine ⟨found, hfound, hx, Nat.not_lt.1 fun hlt => ?_⟩
  exact hh.not_covers_end hfound (hcovers _ (Nat.le_of_lt hx') hlt)

/-! ## One allocation -/

/-- The last free block that begins no later than an address is the one that covers it. -/
lemma Inv.beforeUpperBound_eq (hh : h.Inv w) (hfound : found ∈ h.freeByAddr)
    (hx : found.addr ≤ addr) (hx' : addr < found.addr + found.size) :
    h.freeByAddr.beforeUpperBound addr = some found := by
  cases hlast : h.freeByAddr.beforeUpperBound addr with
  | none => exact absurd (Table.beforeUpperBound_eq_none.1 hlast found hfound) (Nat.not_lt.2 hx)
  | some last =>
    obtain ⟨hmem, hle, hmax⟩ := Table.of_beforeUpperBound hlast
    have hlastLe := hmax found hfound hx
    have hpos := (hh.free last hmem).1
    rw [hh.eq_of_free hfound hmem (x := last.addr) hlastLe (by omega) (Nat.le_refl _) (by omega)]

lemma busyByAddr_insertFront : (h.insertFront found addr).busyByAddr = h.busyByAddr := by
  rw [insertFront]
  split <;> rfl

/-- A block at a free address is made there, with its rounded size. -/
lemma Inv.allocateAt_of_covers (hh : h.Inv w) (haddr : minBlockSize ∣ addr) (hpos : 0 < size)
    (hlt : size + 63 < 2 ^ w.sizeBits)
    (hcovers : ∀ x, addr ≤ x → x < addr + w.roundUp size → h.Covers x) :
    ∃ h', h.ForceBlockPopulation w addr size = .ok h' ∧ h'.Inv w ∧
      h'.heapAddrLb = h.heapAddrLb ∧ h'.heapAddrUb = h.heapAddrUb ∧
      ∀ b, b ∈ h'.busyByAddr ↔ b = ⟨addr, w.roundUp size⟩ ∨ b ∈ h.busyByAddr := by
  obtain ⟨hge, -, -⟩ := Widths.roundUp_spec hlt
  obtain ⟨found, hfound, hle, hfit⟩ := hh.exists_free_of_covers (by omega) hcovers
  have hlast := hh.beforeUpperBound_eq hfound hle (by omega)
  have hub := hh.bounded.ub_lt
  have hbounds := hh.free_bounds hfound
  have hpow : 2 ^ w.vaddrBits ≤ 2 ^ w.sizeBits :=
    Nat.pow_le_pow_right (Nat.succ_pos 1) w.vaddrBits_le
  have hend : w.sizeT (found.addr + found.size) = found.addr + found.size :=
    Nat.mod_eq_of_lt (by omega)
  have hend' : w.sizeT (addr + w.roundUp size) = addr + w.roundUp size :=
    Nat.mod_eq_of_lt (by omega)
  obtain ⟨h', hallocate, hinv, hallocated⟩ := hh.allocateAtIn hfound hle haddr hpos hlt hfit
  have hforce : h.ForceBlockPopulation w addr size = .ok h' := by
    rw [ForceBlockPopulation, HeapManager.allocateAt, hlast]
    dsimp only
    rw [hend, hend', if_neg (Nat.not_lt.2 hfit), hallocate]
    rfl
  refine ⟨h', hforce, hinv, hallocated.lb, hallocated.ub, fun b => ?_⟩
  obtain ⟨-, hrest⟩ := check_bind_eq_ok.1 hallocate
  obtain ⟨-, hrest⟩ := check_bind_eq_ok.1 hrest
  cases hrest
  have hne : ∀ b ∈ h.busyByAddr, b.addr ≠ addr := by
    intro b hb heq
    have hcovered := hcovers addr (Nat.le_refl _) (by omega)
    refine (hh.covers_iff.1 hcovered).2 b hb ⟨Nat.le_of_eq heq, ?_⟩
    have := hh.rounded_pos hb
    omega
  have hadd : h.busyByAddr.add ⟨addr, w.roundUp size⟩ =
      h.busyByAddr.insert ⟨addr, w.roundUp size⟩ :=
    Table.add_eq_insert (Table.find_eq_none.2 hne)
  show b ∈ (HeapManager.insertRest w _ _ _ _).busyByAddr.add _ ↔ _
  rw [busyByAddr_insertRest, busyByAddr_insertFront]
  show b ∈ h.busyByAddr.add ⟨addr, w.roundUp size⟩ ↔ _
  rw [hadd, Table.mem_insert]
  exact or_congr_right (and_iff_left_of_imp (hne b))

/-! ## All allocations -/

/-- A heap in which some allocations of another heap have been made again. -/
structure Restoring (w : Widths) (h g : HeapManager) (done : List BlockInfo) : Prop where
  inv : g.Inv w
  lb : g.heapAddrLb = h.heapAddrLb
  ub : g.heapAddrUb = h.heapAddrUb
  busy : ∀ b, b ∈ g.busyByAddr ↔ ∃ b' ∈ done, b = b'.rounded w

/-- Two busy blocks have no address in common. -/
lemma Inv.eq_of_busy (hh : h.Inv w) (hb : b ∈ h.busyByAddr) (hc : c ∈ h.busyByAddr)
    (hx : b.addr ≤ x) (hx' : x < b.addr + w.roundUp b.size) (hcx : c.addr ≤ x)
    (hcx' : x < c.addr + w.roundUp c.size) : b = c := by
  have htiles := hh.tiles x
  have hle : h.busyByAddr.count (fun b => isWithin x (b.rounded w).range) ≤ 1 := by
    split at htiles <;> omega
  exact Table.eq_of_count_le_one hle hb hc (isWithin_range.2 ⟨hx, hx'⟩)
    (isWithin_range.2 ⟨hcx, hcx'⟩)

/-- The next allocation finds its place free. -/
lemma Restoring.step {done : List BlockInfo} (hh : h.Inv w) (hg : Restoring w h g done)
    (hdone : ∀ b' ∈ done, b' ∈ h.busyByAddr) (hb : b ∈ h.busyByAddr) (hnew : b ∉ done) :
    ∃ g', g.ForceBlockPopulation w b.addr b.size = .ok g' ∧ Restoring w h g' (b :: done) := by
  obtain ⟨hpos, hdvd, hlt⟩ := hh.busy b hb
  have hcovers : ∀ x, b.addr ≤ x → x < b.addr + w.roundUp b.size → g.Covers x := by
    intro x hx hx'
    rw [hg.inv.covers_iff, hg.lb, hg.ub]
    refine ⟨(hh.busy_at hb hx hx').1, fun c hc hwithin => ?_⟩
    obtain ⟨b', hb', rfl⟩ := (hg.busy c).1 hc
    obtain ⟨-, -, hlt'⟩ := hh.busy b' (hdone b' hb')
    have hround : w.roundUp (b'.rounded w).size = w.roundUp b'.size :=
      Widths.roundUp_of_dvd (Widths.roundUp_add_lt hlt') (Widths.roundUp_spec hlt').2.2
    rw [hround] at hwithin
    have hsame := hh.eq_of_busy hb (hdone b' hb') hx hx' hwithin.1 hwithin.2
    exact hnew (hsame ▸ hb')
  obtain ⟨g', hforce, hinv, hlb, hub, hbusy⟩ := hg.inv.allocateAt_of_covers hdvd hpos hlt hcovers
  refine ⟨g', hforce, hinv, hlb.trans hg.lb, hub.trans hg.ub, fun c => ?_⟩
  rw [hbusy, hg.busy]
  constructor
  · rintro (rfl | ⟨b', hb', rfl⟩)
    · exact ⟨b, List.mem_cons_self, rfl⟩
    · exact ⟨b', List.mem_cons_of_mem _ hb', rfl⟩
  · rintro ⟨b', hb', rfl⟩
    rcases List.mem_cons.1 hb' with rfl | hb'
    · exact .inl rfl
    · exact .inr ⟨b', hb', rfl⟩

/-- All allocations are made again, in whatever order they come. -/
lemma Restoring.run (hh : h.Inv w) (l : List BlockInfo) {done : List BlockInfo}
    (hg : Restoring w h g done) (hdone : ∀ b ∈ done, b ∈ h.busyByAddr)
    (hl : ∀ b ∈ l, b ∈ h.busyByAddr) (hnodup : l.Nodup) (hapart : ∀ b ∈ l, b ∉ done) :
    ∃ g', restore w g l = .ok g' ∧ Restoring w h g' (l.reverse ++ done) := by
  induction l generalizing g done with
  | nil => exact ⟨g, rfl, hg⟩
  | cons b rest ih =>
    obtain ⟨hfirst, hnodup⟩ := List.nodup_cons.1 hnodup
    have hb := hl b List.mem_cons_self
    obtain ⟨g', hforce, hg'⟩ := hg.step hh hdone hb (hapart b List.mem_cons_self)
    have hdone' : ∀ b' ∈ b :: done, b' ∈ h.busyByAddr := by
      intro b' hb'
      rcases List.mem_cons.1 hb' with rfl | hb'
      · exact hb
      · exact hdone b' hb'
    have hapart' : ∀ b' ∈ rest, b' ∉ b :: done := by
      intro b' hb' hmem
      rcases List.mem_cons.1 hmem with rfl | hmem
      · exact hfirst hb'
      · exact hapart b' (List.mem_cons_of_mem _ hb') hmem
    obtain ⟨g'', hrest, hg''⟩ :=
      ih hg' hdone' (fun b' hb' => hl b' (List.mem_cons_of_mem _ hb')) hnodup hapart'
    refine ⟨g'', ?_, ?_⟩
    · rw [restore, hforce]
      exact hrest
    · rw [List.reverse_cons, List.append_assoc]
      exact hg''

/-- A heap is restored with the same free blocks, and with the same addresses and the rounded sizes
of its allocations. -/
lemma Inv.restore (hh : h.Inv w) (hg : Restoring w h g []) :
    ∃ g', HeapManager.restore w g h.allocations = .ok g' ∧
      (∀ b, b ∈ g'.busyByAddr ↔ ∃ b' ∈ h.busyByAddr, b = b'.rounded w) ∧
      (∀ b, b ∈ g'.freeByAddr ↔ b ∈ h.freeByAddr) ∧ ∀ b, b ∈ g'.freeBySize ↔ b ∈ h.freeBySize := by
  have hperm : h.allocations.Perm h.busyByAddr.toList := List.perm_insertionSort _ _
  have hmem : ∀ b, b ∈ h.allocations ↔ b ∈ h.busyByAddr := fun b => hperm.mem_iff
  have hnodup : h.allocations.Nodup := hperm.nodup_iff.2 (List.Nodup.of_map _ h.busyByAddr.nodup)
  obtain ⟨g', hrestore, hg'⟩ := hg.run hh h.allocations (fun b hb => absurd hb List.not_mem_nil)
    (fun b hb => (hmem b).1 hb) hnodup (fun b _ => List.not_mem_nil)
  have hbusy : ∀ b, b ∈ g'.busyByAddr ↔ ∃ b' ∈ h.busyByAddr, b = b'.rounded w := by
    intro b
    rw [hg'.busy]
    simp only [List.append_nil, List.mem_reverse, hmem]
  -- both sets of busy blocks cover the same addresses
  have hcovers : ∀ x, g'.Covers x ↔ h.Covers x := by
    intro x
    have hround : ∀ b' ∈ h.busyByAddr, w.roundUp (b'.rounded w).size = w.roundUp b'.size := by
      intro b' hb'
      obtain ⟨-, -, hlt'⟩ := hh.busy b' hb'
      exact Widths.roundUp_of_dvd (Widths.roundUp_add_lt hlt') (Widths.roundUp_spec hlt').2.2
    rw [hg'.inv.covers_iff, hh.covers_iff, hg'.lb, hg'.ub]
    refine and_congr_right fun _ => ⟨fun hnone b' hb' hwithin => ?_, fun hnone c hc hwithin => ?_⟩
    · refine hnone _ ((hbusy _).2 ⟨b', hb', rfl⟩) ?_
      rw [hround b' hb']
      exact hwithin
    · obtain ⟨b', hb', rfl⟩ := (hbusy c).1 hc
      rw [hround b' hb'] at hwithin
      exact hnone b' hb' hwithin
  have hfree : ∀ b, b ∈ g'.freeByAddr ↔ b ∈ h.freeByAddr := fun b =>
    ⟨hg'.inv.mem_free_of_covers hh hcovers, hh.mem_free_of_covers hg'.inv fun x => (hcovers x).symm⟩
  refine ⟨g', hrestore, hbusy, hfree, fun b => ?_⟩
  rw [← hg'.inv.same, hfree, hh.same]

/-- A heap is restored exactly when the sizes of its allocations are rounded. -/
lemma Inv.restored_iff (hh : h.Inv w) (hg : Restoring w h g []) :
    h.Restored w g ↔ ∀ b ∈ h.busyByAddr, minBlockSize ∣ b.size := by
  obtain ⟨g', hrestore, hbusy, hfree, hfree'⟩ := hh.restore hg
  have hfind : ∀ b ∈ h.busyByAddr, h.busyByAddr.find b.addr = some b :=
    fun b hb => Table.find_eq_some.2 ⟨hb, rfl⟩
  have hfind' : ∀ b ∈ h.busyByAddr, g'.busyByAddr.find b.addr = some (b.rounded w) :=
    fun b hb => Table.find_eq_some.2 ⟨(hbusy _).2 ⟨b, hb, rfl⟩, rfl⟩
  constructor
  · rintro ⟨g'', hrestore', hsizes, -⟩ b hb
    cases hrestore'.symm.trans hrestore
    have hsize := hsizes b.addr
    rw [getAllocationSize, getAllocationSize, hfind b hb, hfind' b hb] at hsize
    have hround : w.roundUp b.size = b.size := Except.ok.inj hsize
    rw [← hround]
    exact (Widths.roundUp_spec (hh.busy b hb).2.2).2.2
  · intro hdvd
    have hround : ∀ b ∈ h.busyByAddr, b.rounded w = b := by
      intro b hb
      rw [BlockInfo.rounded, Widths.roundUp_of_dvd (hh.busy b hb).2.2 (hdvd b hb)]
    refine ⟨g', hrestore, fun addr => ?_, hfree, hfree'⟩
    rw [getAllocationSize, getAllocationSize]
    congr 1
    cases hb : h.busyByAddr.find addr with
    | none =>
      refine Table.find_eq_none.2 fun c hc heq => ?_
      obtain ⟨b, hb', rfl⟩ := (hbusy c).1 hc
      exact Table.find_eq_none.1 hb b hb' heq
    | some b =>
      obtain ⟨hmem, rfl⟩ := Table.find_eq_some.1 hb
      rw [hfind' b hmem, hround b hmem]

end HeapManager

namespace Ledger

variable {w : Widths} {s s' : Ledger} {r : Request} {heap : HeapManager}

/-- The heap has the bounds of another one. -/
def SameBounds (heap : HeapManager) (s : Ledger) : Prop :=
  s.heap.heapAddrLb = heap.heapAddrLb ∧ s.heap.heapAddrUb = heap.heapAddrUb

lemma bounds_allocate {h h' : HeapManager} {n a : ℕ} (hallocate : h.allocate w n = .ok (a, h')) :
    h'.heapAddrLb = h.heapAddrLb ∧ h'.heapAddrUb = h.heapAddrUb := by
  rw [HeapManager.allocate] at hallocate
  cases hfound : h.freeBySize.lowerBound (toLex (w.roundUp n, 0)) with
  | none =>
    rw [hfound] at hallocate
    cases hallocate
    exact ⟨rfl, rfl⟩
  | some found =>
    rw [hfound] at hallocate
    obtain ⟨-, hrest⟩ := check_bind_eq_ok.1 hallocate
    obtain ⟨-, hrest⟩ := check_bind_eq_ok.1 hrest
    cases hrest
    show (HeapManager.insertRest w _ _ _ _).heapAddrLb = _ ∧
      (HeapManager.insertRest w _ _ _ _).heapAddrUb = _
    rw [HeapManager.insertRest]
    split <;> exact ⟨rfl, rfl⟩

/-- No call changes the bounds. -/
lemma SameBounds.step (hbounds : s.SameBounds heap) (hs : s.Inv w) (hstep : s.step w r = .ok s') :
    s'.SameBounds heap := by
  cases r with
  | allocate n =>
    obtain ⟨-, hstep⟩ := check_bind_eq_ok.1 hstep
    obtain ⟨⟨a, h'⟩, hallocate, hstep⟩ := bind_eq_ok.1 hstep
    cases hstep
    obtain ⟨hlb, hub⟩ := bounds_allocate hallocate
    exact ⟨hlb.trans hbounds.1, hub.trans hbounds.2⟩
  | deallocate addr =>
    obtain ⟨⟨a, h'⟩, hdeallocate, hstep⟩ := bind_eq_ok.1 hstep
    cases hstep
    obtain ⟨b, hb, -⟩ := bind_eq_ok.1 hdeallocate
    obtain ⟨hmem, rfl⟩ := Table.find_eq_some.1 (elim_error_eq_ok.1 hb)
    obtain ⟨h'', hdeallocate', -, hlb, hub, -, -⟩ := hs.heap.deallocate hmem
    cases hdeallocate'.symm.trans hdeallocate
    exact ⟨hlb.trans hbounds.1, hub.trans hbounds.2⟩

/-- After a run from a new heap that ends in the address space, in which no size is rounded up to 0
while a block is free, the heap is restored in another new heap of its bounds if and only if the
sizes of all live allocations are multiples of the block size. -/
theorem restored_iff_of_runWhere (w : Widths) (base size : ℕ) (heap : HeapManager)
    (hnew : HeapManager.new w base size = .ok heap) (hfits : base + size < 2 ^ w.vaddrBits)
    (rs : List Request) (s : Ledger)
    (h : (ledgerMachine w heap).RunWhere (fun s r => s.Rounds w r) rs s) :
    s.heap.Restored w heap ↔ ∀ b ∈ s.live, minBlockSize ∣ b.size := by
  have hnewInv := Inv.new hnew hfits
  have hinv : s.Inv w ∧ s.SameBounds heap := by
    refine h.invariant (I := fun s => s.Inv w ∧ s.SameBounds heap) ⟨hnewInv, rfl, rfl⟩ ?_
    intro s r s' hs hround hstep
    exact ⟨hs.1.step hround hstep, hs.2.step hs.1 hstep⟩
  obtain ⟨hinv, hlb, hub⟩ := hinv
  have hempty : ∀ b, b ∉ heap.busyByAddr := fun b hb =>
    absurd ((hnewInv.mem_iff b).2 hb) List.not_mem_nil
  have hrestoring : HeapManager.Restoring w s.heap heap [] := by
    refine ⟨hnewInv.heap, hlb.symm, hub.symm, fun b => iff_of_false (hempty b) ?_⟩
    rintro ⟨b', hb', -⟩
    exact absurd hb' List.not_mem_nil
  rw [hinv.heap.restored_iff hrestoring]
  exact forall_congr' fun b => by rw [hinv.mem_iff]

/-! ### Heaps with two blocks -/

/-- Two rounded sizes with a gap between their blocks. -/
def gapRun : List Request := [.allocate 128, .allocate 64, .allocate 64, .deallocate 192]

theorem restored_gapRun : ∃ heap s, HeapManager.new .narrow 64 640 = .ok heap ∧
    (ledgerMachine .narrow heap).Run gapRun s ∧ s.live = [⟨64, 128⟩, ⟨256, 64⟩] ∧
    s.heap.Restored .narrow heap := by
  obtain ⟨heap, hnew⟩ : ∃ heap, HeapManager.new .narrow 64 640 = .ok heap := ⟨_, rfl⟩
  have hrun : succeeds (HeapManager.new .narrow 64 640) (fun heap =>
      succeeds (((ledgerMachine .narrow heap).guarded (fun s r => decide (s.Rounds .narrow r))
        .noSuchEvent).exec ⟨heap, []⟩ gapRun) fun s =>
          decide (s.live = [⟨64, 128⟩, ⟨256, 64⟩])) = true := by
    decide +kernel
  obtain ⟨heap', hnew', htest⟩ := succeeds_iff.1 hrun
  cases hnew'.symm.trans hnew
  obtain ⟨s, hs, htest⟩ := succeeds_iff.1 htest
  have hlive := of_decide_eq_true htest
  have hwhere : (ledgerMachine .narrow heap).RunWhere (fun s r => s.Rounds .narrow r) gapRun s :=
    (Machine.run_of_exec hs).of_guarded.mono fun _ _ => of_decide_eq_true
  refine ⟨heap, s, hnew, hwhere.run, hlive,
    (restored_iff_of_runWhere .narrow 64 640 heap hnew (by decide) gapRun s hwhere).2 ?_⟩
  rw [hlive]
  decide

/-- A block of 10 bytes is restored with 64 bytes. -/
theorem not_restored_tenBytes : ∃ heap s, HeapManager.new .narrow 64 128 = .ok heap ∧
    (ledgerMachine .narrow heap).Run [.allocate 10] s ∧ s.heap.allocations = [⟨64, 10⟩] ∧
    s.heap.getAllocationSize 64 = .ok 10 ∧
    (∃ h', HeapManager.restore .narrow heap s.heap.allocations = .ok h' ∧
      h'.getAllocationSize 64 = .ok 64) ∧ ¬s.heap.Restored .narrow heap := by
  obtain ⟨heap, hnew⟩ : ∃ heap, HeapManager.new .narrow 64 128 = .ok heap := ⟨_, rfl⟩
  have hrun : succeeds (HeapManager.new .narrow 64 128) (fun heap =>
      succeeds ((ledgerMachine .narrow heap).exec ⟨heap, []⟩ [.allocate 10]) fun s =>
        decide (s.heap.allocations = [⟨64, 10⟩]) &&
        succeeds (s.heap.getAllocationSize 64) (fun n => decide (n = 10)) &&
        succeeds (HeapManager.restore .narrow heap s.heap.allocations) fun h' =>
          succeeds (h'.getAllocationSize 64) fun n => decide (n = 64)) = true := by
    decide +kernel
  obtain ⟨heap', hnew', htest⟩ := succeeds_iff.1 hrun
  cases hnew'.symm.trans hnew
  obtain ⟨s, hs, htest⟩ := succeeds_iff.1 htest
  rw [Bool.and_eq_true, Bool.and_eq_true] at htest
  obtain ⟨⟨hallocations, hten⟩, hrestore⟩ := htest
  obtain ⟨n, hn, hn'⟩ := succeeds_iff.1 hten
  obtain ⟨h', hh', hsize⟩ := succeeds_iff.1 hrestore
  obtain ⟨m, hm, hm'⟩ := succeeds_iff.1 hsize
  have hn' : n = 10 := of_decide_eq_true hn'
  have hm' : m = 64 := of_decide_eq_true hm'
  subst hn' hm'
  refine ⟨heap, s, hnew, Machine.run_of_exec hs, of_decide_eq_true hallocations, hn,
    ⟨h', hh', hm⟩, ?_⟩
  rintro ⟨h'', hh'', hsizes, -⟩
  cases hh''.symm.trans hh'
  have hsame := (hsizes 64).symm.trans hm
  rw [hn] at hsame
  cases hsame

end Ledger

end Sesc.Heap
