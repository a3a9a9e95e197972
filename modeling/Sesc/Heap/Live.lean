import Sesc.Heap.HeapManager

/-!
# What is live

The addresses of the busy blocks, and what the functions of the heap do to them.  All blocks are
inside the heap, so that no allocation returns 0 for a block.
-/

namespace Sesc.Heap.HeapManager

open Lib

variable {w : Widths} {h h' : HeapManager} {b found : BlockInfo} {size addr a : ℕ}

/-- A busy block begins at the address. -/
def Live (h : HeapManager) (a : ℕ) : Prop := h.busyByAddr.find a ≠ none

instance (h : HeapManager) (a : ℕ) : Decidable (h.Live a) :=
  inferInstanceAs (Decidable (h.busyByAddr.find a ≠ none))

/-- A block is inside the heap. -/
def Inside (h : HeapManager) (b : BlockInfo) : Prop :=
  h.heapAddrLb ≤ b.addr ∧ b.addr + b.size ≤ h.heapAddrUb

/-- All blocks are inside the heap, which is inside the address space. -/
structure Within (w : Widths) (h : HeapManager) : Prop where
  lb_pos : 0 < h.heapAddrLb
  ub_lt : h.heapAddrUb < 2 ^ w.vaddrBits
  free : ∀ b ∈ h.freeByAddr, h.Inside b
  freeBySize : ∀ b ∈ h.freeBySize, h.Inside b
  busy : ∀ b ∈ h.busyByAddr, h.Inside ⟨b.addr, w.roundUp b.size⟩

lemma mem_add {κ : Type*} [LinearOrder κ] {key : BlockInfo → κ} {t : Table key}
    (hb : b ∈ t.add found) : b = found ∨ b ∈ t := by
  rw [Table.add] at hb
  split at hb
  · exact (Table.mem_insert.1 hb).imp_right And.left
  · exact .inr hb

lemma Within.insertFree (hh : h.Within w) (hb : h.Inside b) : (h.insertFree b).Within w where
  lb_pos := hh.lb_pos
  ub_lt := hh.ub_lt
  free b' hb' := by
    rcases mem_add hb' with rfl | hb'
    · exact hb
    · exact hh.free b' hb'
  freeBySize b' hb' := by
    rcases mem_add hb' with rfl | hb'
    · exact hb
    · exact hh.freeBySize b' hb'
  busy := hh.busy

lemma Within.eraseFree (hh : h.Within w) : (h.eraseFree b).Within w where
  lb_pos := hh.lb_pos
  ub_lt := hh.ub_lt
  free b' hb' := hh.free b' (Table.mem_erase.1 hb').1
  freeBySize b' hb' := hh.freeBySize b' (Table.mem_erase.1 hb').1
  busy := hh.busy

lemma Within.insertBusy (hh : h.Within w) (hb : h.Inside ⟨b.addr, w.roundUp b.size⟩) :
    (h.insertBusy b).Within w where
  lb_pos := hh.lb_pos
  ub_lt := hh.ub_lt
  free := hh.free
  freeBySize := hh.freeBySize
  busy b' hb' := by
    rcases mem_add hb' with rfl | hb'
    · exact hb
    · exact hh.busy b' hb'

lemma Within.eraseBusy (hh : h.Within w) : (h.eraseBusy addr).Within w where
  lb_pos := hh.lb_pos
  ub_lt := hh.ub_lt
  free := hh.free
  freeBySize := hh.freeBySize
  busy b' hb' := hh.busy b' (Table.mem_erase.1 hb').1

lemma live_insertBusy : (h.insertBusy b).Live a ↔ a = b.addr ∨ h.Live a := by
  rw [Live, Live]
  show (h.busyByAddr.add b).find a ≠ none ↔ _
  rw [Table.add]
  split
  · rw [Table.find_insert]
    split
    · rename_i heq
      exact iff_of_true (Option.some_ne_none b) (.inl heq)
    · rename_i hne
      exact (or_iff_right hne).symm
  · rename_i hbusy
    refine (or_iff_right_of_imp ?_).symm
    rintro rfl
    exact hbusy

lemma live_eraseBusy : (h.eraseBusy addr).Live a ↔ a ≠ addr ∧ h.Live a := by
  rw [Live, Live]
  show (h.busyByAddr.erase addr).find a ≠ none ↔ _
  rw [Table.find_erase]
  split
  · rename_i heq
    exact iff_of_false (fun hne => hne rfl) fun hne => hne.1 heq
  · rename_i hne
    exact (and_iff_right hne).symm

/-- What an allocation does: it returns 0 and changes nothing, or the address of a new block. -/
lemma Within.allocateIn (hh : h.Within w) (hfound : h.Inside found) :
    Ensures (fun r => r.2.Within w ∧ r.1 ≠ 0 ∧ ∀ a, r.2.Live a ↔ a = r.1 ∨ h.Live a)
      (h.allocateIn w size found) := by
  refine ensures_check_bind.2 fun hsize => ensures_check_bind.2 fun _ => ensures_pure.2 ?_
  have hle : w.roundUp size ≤ found.size := of_decide_eq_true hsize
  have hlb := hh.lb_pos
  have hub := hh.ub_lt
  obtain ⟨hin, hin'⟩ := hfound
  have hbusy : ((h.eraseFree found).insertBusy ⟨found.addr, size⟩).Within w := by
    refine hh.eraseFree.insertBusy ⟨hin, ?_⟩
    show found.addr + w.roundUp size ≤ h.heapAddrUb
    omega
  refine ⟨?_, by dsimp only; omega, fun a => ?_⟩
  · have hrest : (((h.eraseFree found).insertBusy ⟨found.addr, size⟩).insertRest w found.addr found.size
        (w.roundUp size)).Within w := by
      rw [insertRest]
      split
      · have hwrap : w.vaddr (found.addr + w.roundUp size) = found.addr + w.roundUp size :=
          Nat.mod_eq_of_lt (by omega)
        refine hbusy.insertFree ⟨?_, ?_⟩
        · show h.heapAddrLb ≤ w.vaddr (found.addr + w.roundUp size)
          omega
        · show w.vaddr (found.addr + w.roundUp size) + (found.size - w.roundUp size) ≤ h.heapAddrUb
          omega
      · exact hbusy
    exact ⟨hrest.lb_pos, hrest.ub_lt, hrest.free, hrest.freeBySize, hrest.busy⟩
  · have hlive : ((h.eraseFree found).insertBusy ⟨found.addr, size⟩).Live a ↔
        a = found.addr ∨ h.Live a := live_insertBusy
    rw [← hlive]
    show Live (insertRest w _ _ _ _) a ↔ _
    rw [insertRest]
    split <;> exact Iff.rfl

lemma Within.allocate (hh : h.Within w) :
    Ensures (fun r => r.2.Within w ∧ (r.1 = 0 → r.2 = h) ∧
      (r.1 ≠ 0 → ∀ a, r.2.Live a ↔ a = r.1 ∨ h.Live a)) (h.allocate w size) := by
  rw [HeapManager.allocate]
  split
  · exact ensures_ok.2 ⟨hh, fun _ => rfl, fun h => absurd rfl h⟩
  · rename_i found hfound
    refine (hh.allocateIn (hh.freeBySize found (Table.of_lowerBound hfound).1)).mono fun r hr => ?_
    exact ⟨hr.1, fun hzero => absurd hzero hr.2.1, fun _ => hr.2.2⟩

/-! ## Deallocation -/

lemma blockEnd_of_inside (hh : h.Within w) (hb : h.Inside b) : blockEnd w b = b.addr + b.size := by
  obtain ⟨-, hle⟩ := hb
  have hub := hh.ub_lt
  have hsize : w.vaddr b.size = b.size := Nat.mod_eq_of_lt (by omega)
  rw [blockEnd, hsize]
  exact Nat.mod_eq_of_lt (by omega)

/-- What a merge keeps: the bounds and the busy blocks. -/
def Merged (w : Widths) (h : HeapManager) (r : BlockInfo × HeapManager) : Prop :=
  r.2.Within w ∧ r.2.Inside r.1 ∧ r.2.busyByAddr = h.busyByAddr

lemma sizeT_of_inside (hh : h.Within w) {n : ℕ} (hn : n ≤ h.heapAddrUb) : w.sizeT n = n := by
  have hub := hh.ub_lt
  have hpow : 2 ^ w.vaddrBits ≤ 2 ^ w.sizeBits := Nat.pow_le_pow_right (Nat.succ_pos 1) w.vaddrBits_le
  exact Nat.mod_eq_of_lt (by omega)

lemma Within.mergeNext (hh : h.Within w) (hb : h.Inside b) :
    Ensures (Merged w h) (h.mergeNext w b) := by
  rw [HeapManager.mergeNext]
  split
  · exact ensures_ok.2 ⟨hh, hb, rfl⟩
  · rename_i next hnext
    refine ensures_check_bind.2 fun _ => ?_
    split
    · rename_i hadjoins
      refine ensures_check_bind.2 fun _ => ensures_pure.2 ⟨hh.eraseFree, ?_, rfl⟩
      have hin := hh.free next (Table.of_upperBound hnext).1
      rw [blockEnd_of_inside hh hb] at hadjoins
      have hle : b.addr + (b.size + next.size) ≤ h.heapAddrUb := by
        rw [← Nat.add_assoc, hadjoins]
        exact hin.2
      refine ⟨hb.1, ?_⟩
      show b.addr + w.sizeT (b.size + next.size) ≤ h.heapAddrUb
      rw [sizeT_of_inside hh (by omega)]
      exact hle
    · exact ensures_pure.2 ⟨hh, hb, rfl⟩

lemma Within.mergePrevious (hh : h.Within w) (hb : h.Inside b) :
    Ensures (Merged w h) (h.mergePrevious w b) := by
  rw [HeapManager.mergePrevious]
  split
  · exact ensures_ok.2 ⟨hh, hb, rfl⟩
  · rename_i previous hprevious
    refine ensures_check_bind.2 fun _ => ?_
    have hin := hh.free previous (Table.of_beforeUpperBound hprevious).1
    split
    · rename_i hadjoins
      refine ensures_pure.2 ⟨hh.eraseFree, ?_, rfl⟩
      rw [blockEnd_of_inside hh hin] at hadjoins
      obtain ⟨-, hle⟩ := hb
      refine ⟨hin.1, ?_⟩
      show previous.addr + w.sizeT (b.size + previous.size) ≤ h.heapAddrUb
      rw [sizeT_of_inside hh (by omega)]
      omega
    · exact ensures_pure.2 ⟨hh, hb, rfl⟩

/-- A block that can be deallocated is live, and then it is not. -/
lemma Within.deallocate (hh : h.Within w) :
    Ensures (fun r => r.2.Within w ∧ h.Live addr ∧ ∀ a, r.2.Live a ↔ a ≠ addr ∧ h.Live a)
      (h.deallocate w addr) := by
  refine Ensures.elim fun busy hbusy => ?_
  obtain ⟨hmem, rfl⟩ := Table.find_eq_some.1 hbusy
  refine Ensures.bind (hh.eraseBusy.mergeNext (hh.busy busy hmem)) fun r₁ hr₁ => ?_
  obtain ⟨hr₁, hin₁, hbusy₁⟩ := hr₁
  refine Ensures.bind (hr₁.mergePrevious hin₁) fun r₂ hr₂ => ensures_pure.2 ?_
  obtain ⟨hr₂, hin₂, hbusy₂⟩ := hr₂
  refine ⟨hr₂.insertFree hin₂, ?_, fun a => ?_⟩
  · rw [Live, hbusy]
    exact Option.some_ne_none busy
  · rw [← live_eraseBusy]
    show r₂.2.busyByAddr.find a ≠ none ↔ _
    rw [hbusy₂, hbusy₁]
    rfl

lemma Within.new {base : ℕ} (hnew : HeapManager.new w base size = .ok h)
    (hfits : base + size < 2 ^ w.vaddrBits) : h.Within w ∧ ∀ a, ¬h.Live a := by
  obtain ⟨hbase, hnew⟩ := check_bind_eq_ok.1 hnew
  obtain ⟨-, hnew⟩ := check_bind_eq_ok.1 hnew
  cases hnew
  have hub : w.vaddr (base + size) = base + size := Nat.mod_eq_of_lt hfits
  have hinside : base ≤ base ∧ base + size ≤ w.vaddr (base + size) :=
    ⟨Nat.le_refl _, Nat.le_of_eq hub.symm⟩
  refine ⟨⟨Nat.pos_of_ne_zero hbase.1, Nat.mod_lt _ (Nat.two_pow_pos _), fun b hb => ?_,
    fun b hb => ?_, fun b hb => ?_⟩, fun a ha => ha rfl⟩
  · rcases mem_add hb with rfl | hb
    · exact hinside
    · cases hb
  · rcases mem_add hb with rfl | hb
    · exact hinside
    · cases hb
  · cases hb

end Sesc.Heap.HeapManager
