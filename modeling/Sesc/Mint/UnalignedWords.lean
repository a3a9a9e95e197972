import Mathlib.Data.List.FinRange
import Mathlib.Data.List.Induction
import Mathlib.Tactic.Common
import Sesc.Mint.PrivateBytes

/-!
# The bytes of the unaligned accesses

What the instructions ought to do: each redirects exactly the bytes of its word on its side of the address,
and reads or writes the private copies of these bytes.  A store of the two halves of a word at any address is
then read back by a load of the two halves.  `lwl` and `swl` do this for the addresses of the first bytes of
blocks only, and the delay slot version of `lwr` for aligned addresses.
-/

namespace Sesc.Mint

open Lib Sesc.Trans Sesc.Tm

variable {c : Icode} {t t' : ThreadContext} {op : UnalignedOp} {v : Version} {a b : ℕ}

/-! ### What the instructions ought to do -/

/-- The address that byte `i` of the register is read from or written to. -/
def accessed (op : UnalignedOp) (a : ℕ) (i : Fin 4) : Option Address :=
  match op with
  | .lwl | .swl => if i < 4 - a % 4 then some (a + i) else none
  | .lwr | .swr => if 3 - i ≤ a % 4 then some (a - (3 - i)) else none

/-- The first byte and the number of the bytes that are accessed. -/
def footprint (op : UnalignedOp) (a : ℕ) : Address × ℕ :=
  match op with
  | .lwl | .swl => (a, 4 - a % 4)
  | .lwr | .swr => (a - a % 4, a % 4 + 1)

/-- The footprint is the range of the bytes that are accessed. -/
lemma exists_accessed_iff : (∃ i, accessed op a i = some b) ↔
    (footprint op a).1 ≤ b ∧ b < (footprint op a).1 + (footprint op a).2 := by
  have hleft : (∃ i : Fin 4, (if i < 4 - a % 4 then some (a + i) else none) = some b) ↔
      a ≤ b ∧ b < a + (4 - a % 4) := by
    constructor
    · rintro ⟨i, hi⟩
      split at hi
      · cases hi
        omega
      · cases hi
    · rintro ⟨hle, hlt⟩
      refine ⟨⟨b - a, by omega⟩, ?_⟩
      rw [if_pos (show b - a < 4 - a % 4 by omega), Nat.add_sub_cancel' hle]
  have hright : (∃ i : Fin 4, (if 3 - i ≤ a % 4 then some (a - (3 - i)) else none) = some b) ↔
      a - a % 4 ≤ b ∧ b < a - a % 4 + (a % 4 + 1) := by
    constructor
    · rintro ⟨i, hi⟩
      split at hi
      · cases hi
        omega
      · cases hi
    · rintro ⟨hle, hlt⟩
      refine ⟨⟨3 - (a - b), by omega⟩, ?_⟩
      rw [if_pos (show 3 - (3 - (a - b)) ≤ a % 4 by omega)]
      congr 1
      show a - (3 - (3 - (a - b))) = b
      omega
  cases op
  · exact hleft
  · exact hright
  · exact hleft
  · exact hright

/-- The accessed bytes are read from the private copies into the register. -/
def loadExactly (c : Icode) (t : ThreadContext) (op : UnalignedOp) (a : ℕ) :
    Except Fault ThreadContext := do
  let (_, m) ← redirectAddr t.memories c.pid true (footprint op a).1 (footprint op a).2
  return {
    memories := m
    marks := t.marks ++ [⟨true, c.pid, c.real2virt (footprint op a).1, (footprint op a).2⟩]
    reg := Function.update t.reg c.rt fun i =>
      (accessed op a i).elim (t.reg c.rt i) (view m c.pid) }

/-- The bytes `is` of a word are written to the private copies. -/
def writeBytes (m : Memories) (pid : Pid) (acc : Fin 4 → Option Address) (w : Word)
    (is : List (Fin 4)) : Memories :=
  is.foldl (fun m' i => (acc i).elim m' fun b => setByte m' (home m pid b) (w i)) m

def storeExactly (c : Icode) (t : ThreadContext) (op : UnalignedOp) (a : ℕ) :
    Except Fault ThreadContext := do
  let (_, m) ← redirectAddr t.memories c.pid false (footprint op a).1 (footprint op a).2
  return { t with
    memories := writeBytes m c.pid (accessed op a) (t.reg c.rt) (List.finRange 4)
    marks := t.marks ++ [⟨false, c.pid, c.real2virt (footprint op a).1, (footprint op a).2⟩] }

/-- What an instruction ought to do at an address. -/
def perform (c : Icode) (t : ThreadContext) (op : UnalignedOp) (a : ℕ) : Except Fault ThreadContext :=
  match op with
  | .lwl | .lwr => loadExactly c t op a
  | .swl | .swr => storeExactly c t op a

/-- A version of an instruction does at an address what it ought to do there, in every state. -/
def Faithful (op : UnalignedOp) (v : Version) (a : ℕ) : Prop :=
  ∀ c t, Prod.snd <$> exec c t a op v = perform c t op a

/-- The addresses at which a version of an instruction is right. -/
def Exact (op : UnalignedOp) (v : Version) (a : ℕ) : Prop :=
  match op, v with
  | .lwl, _ | .swl, _ => a % 8 = 0
  | .lwr, .delaySlot => a % 4 = 0
  | .lwr, .normal | .swr, _ => True

/-! ### The ranges -/

lemma leftSize_eq (a : ℕ) : leftSize a = if a % 8 < 4 then 4 else 0 := by
  have hmod : (a ||| 4) % 8 = a % 8 ||| 4 := Nat.or_mod_two_pow (n := 3)
  have hdiv : (a ||| 4) / 8 = a / 8 := (Nat.or_div_two_pow (n := 3)).trans (Nat.or_zero _)
  have hor : ∀ r < 8, r ||| 4 = if r < 4 then r + 4 else r := by decide
  rw [hor _ (Nat.mod_lt a (by decide))] at hmod
  rw [leftSize]
  split at hmod
  · rename_i hlt
    rw [if_pos hlt]
    omega
  · rename_i hlt
    rw [if_neg hlt]
    omega

/-- The size is the number of the bytes up to the end of the word at the beginning of a block only. -/
lemma leftSize_eq_iff : leftSize a = 4 - a % 4 ↔ a % 8 = 0 := by
  rw [leftSize_eq]
  split
  · omega
  · omega

lemma augAddr_eq (a : ℕ) : augAddr a = a - a % 4 := rfl

lemma rightSize_eq (a : ℕ) : rightSize a = a % 4 + 1 := by
  rw [rightSize, augAddr_eq]
  have := Nat.mod_le a 4
  omega

/-! ### The helpers -/

section

variable {m : Memories} {pid : Pid} {w : Word}

lemma mipsLwl_home : mipsLwl w m (home m pid a) =
    fun i => (accessed .lwl a i).elim (w i) (view m pid) := by
  ext i
  rw [mipsLwl, addr_home, move_home, accessed]
  split <;> rfl

lemma mipsLwr_home : mipsLwr w m (home m pid a) =
    fun i => (accessed .lwr a i).elim (w i) (view m pid) := by
  ext i
  rw [mipsLwr, addr_home, move_home, accessed]
  split <;> rfl

lemma mipsSwl_home : mipsSwl w m (home m pid a) =
    writeBytes m pid (accessed .swl a) w (List.finRange 4) := by
  rw [mipsSwl, List.foldl_filter, writeBytes, addr_home]
  congr 1
  ext m' i
  rw [move_home, accessed]
  by_cases hi : i < 4 - a % 4
  · rw [if_pos (decide_eq_true hi), if_pos hi]
    rfl
  · rw [if_neg fun h => hi (of_decide_eq_true h), if_neg hi]
    rfl

lemma mipsSwr_home : mipsSwr w m (home m pid a) =
    writeBytes m pid (accessed .swr a) w (List.finRange 4) := by
  rw [mipsSwr, List.foldl_filter, writeBytes, addr_home]
  congr 1
  ext m' i
  rw [move_home, accessed]
  by_cases hi : 3 - i ≤ a % 4
  · rw [if_pos (decide_eq_true hi), if_pos hi]
    rfl
  · rw [if_neg fun h => hi (of_decide_eq_true h), if_neg hi]
    rfl

end

/-! ### The instructions -/

section

variable {start size offset : ℕ} {n n' : NextInst}

/-- A load through the range that its bytes are in, with a helper that reads these bytes. -/
lemma loadUnaligned_eq {merge : Word → Memories → RAddr → Word} (hrange : footprint op a = (start, size))
    (hmerge : ∀ w m, merge w m ((home m c.pid start).move (· + offset)) =
      fun i => (accessed op a i).elim (w i) (view m c.pid)) :
    Prod.snd <$> loadUnaligned c t start size offset merge n = loadExactly c t op a := by
  simp only [loadUnaligned, loadExactly, hrange]
  cases hredirect : redirectAddr t.memories c.pid true start size with
  | error f => rfl
  | ok r =>
    obtain ⟨raddr, m⟩ := r
    have hptr : raddr = home m c.pid start := (redirectAddr_spec hredirect).1
    subst hptr
    simp only [ok_bind, hmerge]
    rfl

lemma storeUnaligned_eq {merge : Word → Memories → RAddr → Memories}
    (hrange : footprint op a = (start, size))
    (hmerge : ∀ w m, merge w m ((home m c.pid start).move (· + offset)) =
      writeBytes m c.pid (accessed op a) w (List.finRange 4)) :
    Prod.snd <$> storeUnaligned c t start size offset merge n = storeExactly c t op a := by
  simp only [storeUnaligned, storeExactly, hrange]
  cases hredirect : redirectAddr t.memories c.pid false start size with
  | error f => rfl
  | ok r =>
    obtain ⟨raddr, m⟩ := r
    have hptr : raddr = home m c.pid start := (redirectAddr_spec hredirect).1
    subst hptr
    simp only [ok_bind, hmerge]
    rfl

lemma loadUnaligned_nextInst {merge : Word → Memories → RAddr → Word} :
    Prod.snd <$> loadUnaligned c t start size offset merge n =
      Prod.snd <$> loadUnaligned c t start size offset merge n' := by
  rw [loadUnaligned, loadUnaligned]
  cases redirectAddr t.memories c.pid true start size <;> rfl

lemma storeUnaligned_nextInst {merge : Word → Memories → RAddr → Memories} :
    Prod.snd <$> storeUnaligned c t start size offset merge n =
      Prod.snd <$> storeUnaligned c t start size offset merge n' := by
  rw [storeUnaligned, storeUnaligned]
  cases redirectAddr t.memories c.pid false start size <;> rfl

end

/-- The pointer that is moved by the size points to the byte at the address. -/
lemma augAddr_add (a : ℕ) : augAddr a + (rightSize a - 1) = a := by
  rw [rightSize_eq, augAddr_eq, Nat.add_sub_cancel]
  exact Nat.sub_add_cancel (Nat.mod_le a 4)

lemma faithful_of_exact (h : Exact op v a) : Faithful op v a := by
  intro c t
  have hright : footprint .lwr a = (augAddr a, rightSize a) := by
    rw [rightSize_eq]
    rfl
  cases op with
  | lwl =>
    have hleft : footprint .lwl a = (a, leftSize a) := congrArg (Prod.mk a) (leftSize_eq_iff.2 h).symm
    have hmerge : ∀ w m, mipsLwl w m ((home m c.pid a).move (· + 0)) =
        fun i => (accessed .lwl a i).elim (w i) (view m c.pid) := by
      intro w m
      rw [move_home, Nat.add_zero, mipsLwl_home]
    cases v
    · exact loadUnaligned_eq hleft hmerge
    · exact loadUnaligned_eq hleft hmerge
  | lwr =>
    cases v with
    | normal =>
      refine loadUnaligned_eq hright fun w m => ?_
      rw [move_home, augAddr_add, mipsLwr_home]
    | delaySlot =>
      have haug : augAddr a + 0 = a := by
        rw [augAddr_eq, show a % 4 = 0 from h]
        rfl
      refine loadUnaligned_eq hright fun w m => ?_
      rw [move_home, haug, mipsLwr_home]
  | swl =>
    have hleft : footprint .swl a = (a, leftSize a) := congrArg (Prod.mk a) (leftSize_eq_iff.2 h).symm
    have hmerge : ∀ w m, mipsSwl w m ((home m c.pid a).move (· + 0)) =
        writeBytes m c.pid (accessed .swl a) w (List.finRange 4) := by
      intro w m
      rw [move_home, Nat.add_zero, mipsSwl_home]
    cases v
    · exact storeUnaligned_eq hleft hmerge
    · exact storeUnaligned_eq hleft hmerge
  | swr =>
    have hmerge : ∀ w m, mipsSwr w m ((home m c.pid (augAddr a)).move (· + (rightSize a - 1))) =
        writeBytes m c.pid (accessed .swr a) w (List.finRange 4) := by
      intro w m
      rw [move_home, augAddr_add, mipsSwr_home]
    cases v
    · exact storeUnaligned_eq hright hmerge
    · exact storeUnaligned_eq hright hmerge

/-! ### Where the instructions are wrong -/

/-- A process without a slice. -/
def bareThread (shared : Memory) : ThreadContext :=
  ⟨fun _ _ => 0, { Memories.new with shared := shared }, []⟩

def bareIcode : Icode := ⟨0, id, 0⟩

section

variable (shared : Memory) (start size offset : ℕ) (n : NextInst) (op : UnalignedOp) (a : ℕ)

lemma loadUnaligned_bare (merge : Word → Memories → RAddr → Word) : ∃ m t',
    Prod.snd <$> loadUnaligned bareIcode (bareThread shared) start size offset merge n = .ok t' ∧
      m.shared = shared ∧ t'.marks = [⟨true, 0, start, size⟩] ∧
      t'.reg 0 = merge (fun _ => 0) m (.shared (start + offset)) :=
  ⟨(bareThread shared).memories, _, rfl, rfl, rfl, Function.update_self 0 _ (bareThread shared).reg⟩

lemma storeUnaligned_bare (merge : Word → Memories → RAddr → Memories) : ∃ t',
    Prod.snd <$> storeUnaligned bareIcode (bareThread shared) start size offset merge n = .ok t' ∧
      t'.marks = [⟨false, 0, start, size⟩] :=
  ⟨_, rfl, rfl⟩

lemma loadExactly_bare : ∃ t', loadExactly bareIcode (bareThread shared) op a = .ok t' ∧
    t'.marks = [⟨true, 0, (footprint op a).1, (footprint op a).2⟩] ∧
    t'.reg 0 = fun i => (accessed op a i).elim 0 shared :=
  ⟨_, rfl, rfl, Function.update_self 0 _ (bareThread shared).reg⟩

lemma storeExactly_bare : ∃ t', storeExactly bareIcode (bareThread shared) op a = .ok t' ∧
    t'.marks = [⟨false, 0, (footprint op a).1, (footprint op a).2⟩] :=
  ⟨_, rfl, rfl⟩

end

/-- Elsewhere, `lwl` and `swl` redirect a range of another size, and the delay slot version of `lwr` reads
the first byte of the word in place of the one at the address. -/
lemma exact_of_faithful (h : Faithful op v a) : Exact op v a := by
  have hleft : ∀ isLoad t t', Prod.snd <$> exec bareIcode (bareThread fun _ => 0) a op v = .ok t →
      t.marks = [⟨isLoad, 0, a, leftSize a⟩] → perform bareIcode (bareThread fun _ => 0) op a = .ok t' →
      t'.marks = [⟨isLoad, 0, a, 4 - a % 4⟩] → a % 8 = 0 := by
    intro isLoad t t' ht hmarks ht' hmarks'
    cases (ht.symm.trans (h _ _)).trans ht'
    rw [hmarks] at hmarks'
    exact leftSize_eq_iff.1 (congrArg Mark.size (List.head_eq_of_cons_eq hmarks'))
  cases op with
  | lwl =>
    obtain ⟨t', ht', hmarks', -⟩ := loadExactly_bare (fun _ => 0) .lwl a
    cases v with
    | normal =>
      obtain ⟨m, t, ht, -, hmarks, -⟩ := loadUnaligned_bare (fun _ => 0) a (leftSize a) 0 .next mipsLwl
      exact hleft true t t' ht hmarks ht' hmarks'
    | delaySlot =>
      obtain ⟨m, t, ht, -, hmarks, -⟩ := loadUnaligned_bare (fun _ => 0) a (leftSize a) 0 .target mipsLwl
      exact hleft true t t' ht hmarks ht' hmarks'
  | swl =>
    obtain ⟨t', ht', hmarks'⟩ := storeExactly_bare (fun _ => 0) .swl a
    cases v with
    | normal =>
      obtain ⟨t, ht, hmarks⟩ := storeUnaligned_bare (fun _ => 0) a (leftSize a) 0 .next mipsSwl
      exact hleft false t t' ht hmarks ht' hmarks'
    | delaySlot =>
      obtain ⟨t, ht, hmarks⟩ := storeUnaligned_bare (fun _ => 0) a (leftSize a) 0 .target mipsSwl
      exact hleft false t t' ht hmarks ht' hmarks'
  | lwr =>
    cases v with
    | normal => trivial
    | delaySlot =>
      let shared : Memory := fun b => if b = a then 1 else 0
      obtain ⟨t', ht', -, hreg'⟩ := loadExactly_bare shared .lwr a
      obtain ⟨m, t, ht, hshared, -, hreg⟩ := loadUnaligned_bare shared (augAddr a) (rightSize a) 0 .target mipsLwr
      cases (ht.symm.trans (h _ _)).trans ht'
      have hlast := congrFun (hreg.symm.trans hreg') 3
      have hread : mipsLwr (fun _ => 0) m (.shared (augAddr a + 0)) 3 = m.shared (augAddr a) := rfl
      have hbyte : (accessed .lwr a 3).elim 0 shared = shared a := rfl
      rw [hread, hshared, hbyte] at hlast
      have haug : augAddr a = a := by
        by_contra hne
        have hone : shared a = 1 := if_pos rfl
        have hzero : shared (augAddr a) = 0 := if_neg hne
        rw [hone, hzero] at hlast
        exact absurd hlast (by decide)
      rw [augAddr_eq] at haug
      show a % 4 = 0
      have haug' : a - a % 4 = a := haug
      omega
  | swr => trivial

/-- The two versions of an instruction have the same effect, except for those of `lwr`. -/
lemma versions_agree_iff : (∀ c t, Prod.snd <$> exec c t a op .normal =
    Prod.snd <$> exec c t a op .delaySlot) ↔ (op = .lwr → a % 4 = 0) := by
  cases op with
  | lwl =>
    refine iff_of_true (fun c t => loadUnaligned_nextInst) fun h => ?_
    cases h
  | swl =>
    refine iff_of_true (fun c t => storeUnaligned_nextInst) fun h => ?_
    cases h
  | swr =>
    refine iff_of_true (fun c t => storeUnaligned_nextInst) fun h => ?_
    cases h
  | lwr =>
    have hnormal : Faithful .lwr .normal a := faithful_of_exact trivial
    constructor
    · intro h _
      have hdelay : Faithful .lwr .delaySlot a := fun c t => (h c t).symm.trans (hnormal c t)
      exact exact_of_faithful hdelay
    · intro h c t
      have hdelay : Faithful .lwr .delaySlot a := faithful_of_exact (h rfl)
      exact (hnormal c t).trans (hdelay c t).symm

/-! ### Words at any address -/

/-- Different bytes of the register belong to different addresses. -/
lemma accessed_injective {i j : Fin 4} (hi : accessed op a i = some b) (hj : accessed op a j = some b) :
    i = j := by
  have hcases : (∀ k : Fin 4, accessed op a k = if k < 4 - a % 4 then some (a + k) else none) ∨
      ∀ k : Fin 4, accessed op a k = if 3 - k ≤ a % 4 then some (a - (3 - k)) else none := by
    cases op
    · exact .inl fun k => rfl
    · exact .inr fun k => rfl
    · exact .inl fun k => rfl
    · exact .inr fun k => rfl
  have hle := Nat.mod_le a 4
  rcases hcases with h | h
  · rw [h] at hi hj
    split at hi
    · split at hj
      · have heq : a + i = a + j := Option.some.inj (hi.trans hj.symm)
        omega
      · cases hj
    · cases hi
  · rw [h] at hi hj
    split at hi
    · split at hj
      · have heq : a - (3 - i) = a - (3 - j) := Option.some.inj (hi.trans hj.symm)
        omega
      · cases hj
    · cases hi

lemma footprint_fits (op : UnalignedOp) (a : ℕ) :
    (footprint op a).1 % BlockSize + (footprint op a).2 ≤ BlockSize := by
  have hleft : a % 8 + (4 - a % 4) ≤ 8 := by omega
  have hright : (a - a % 4) % 8 + (a % 4 + 1) ≤ 8 := by omega
  cases op
  · exact hleft
  · exact hright
  · exact hleft
  · exact hright

/-- The bytes that are written are found; the others stay. -/
lemma writeBytes_spec {m : Memories} {pid : Pid} {acc : Fin 4 → Option Address} {w : Word}
    (hheld : ∀ i b, acc i = some b → Held m pid b)
    (hinj : ∀ i j b, acc i = some b → acc j = some b → i = j) (is : List (Fin 4)) :
    (writeBytes m pid acc w is).latestMemorySlice = m.latestMemorySlice ∧
    (∀ b, Held m pid b → Held (writeBytes m pid acc w is) pid b) ∧
    (∀ i ∈ is, ∀ b, acc i = some b → view (writeBytes m pid acc w is) pid b = w i) ∧
    (∀ b, (∀ i ∈ is, acc i ≠ some b) → view (writeBytes m pid acc w is) pid b = view m pid b) ∧
    (Sound m pid → Sound (writeBytes m pid acc w is) pid) := by
  induction is using List.reverseRecOn with
  | nil =>
    exact ⟨rfl, fun b hb => hb, fun i hi => absurd hi List.not_mem_nil, fun b _ => rfl, id⟩
  | append_singleton is i ih =>
    obtain ⟨hlatest, hkept, hfound, hothers, hsound⟩ := ih
    set m₁ := writeBytes m pid acc w is
    have hstep : writeBytes m pid acc w (is ++ [i]) =
        (acc i).elim m₁ fun b => setByte m₁ (home m₁ pid b) (w i) := by
      rw [writeBytes, List.foldl_append]
      show ((acc i).elim m₁ fun b => setByte m₁ (home m pid b) (w i)) = _
      congr 1
      ext b
      rw [home_congr hlatest]
    rw [hstep]
    cases hacc : acc i with
    | none =>
      refine ⟨hlatest, hkept, fun j hj b hb => ?_, fun b hb => ?_, hsound⟩
      · rcases List.mem_append.1 hj with hj | hj
        · exact hfound j hj b hb
        · cases List.mem_singleton.1 hj
          cases hacc.symm.trans hb
      · exact hothers b fun j hj => hb j (List.mem_append_left _ hj)
    | some a =>
      have ha : Held m₁ pid a := hkept a (hheld i a hacc)
      refine ⟨latest_setByte.trans hlatest, fun b hb => held_setByte (hkept b hb),
        fun j hj b hb => ?_, fun b hb => ?_, fun hs => (hsound hs).setByte ha⟩
      · rw [Option.elim_some, view_setByte ha]
        split
        · rename_i hba
          cases hba
          rw [hinj i j a hacc hb]
        · rename_i hne
          rcases List.mem_append.1 hj with hj | hj
          · exact hfound j hj b hb
          · cases List.mem_singleton.1 hj
            exact absurd (Option.some.inj (hb.symm.trans hacc)) hne
      · have hne : b ≠ a := by
          rintro rfl
          exact hb i (List.mem_append_right _ List.mem_cons_self) hacc
        rw [Option.elim_some, view_setByte ha, if_neg hne]
        exact hothers b fun j hj => hb j (List.mem_append_left _ hj)

/-- The bytes that an instruction accesses are private after the redirection of its footprint. -/
lemma held_accessed {m : Memories} {pid : Pid} {isRead : Bool} {r : RAddr × Memories}
    (h : redirectAddr m pid isRead (footprint op a).1 (footprint op a).2 = .ok r) {i : Fin 4}
    (hb : accessed op a i = some b) : Held r.2 pid b := by
  obtain ⟨-, -, -, hheld⟩ := redirectAddr_spec h
  obtain ⟨hle, hlt⟩ := exists_accessed_iff.1 ⟨i, hb⟩
  exact hheld b hle hlt

lemma loadExactly_spec (h : loadExactly c t op a = .ok t') :
    (∀ b, Held t.memories c.pid b → Held t'.memories c.pid b ∧
      view t'.memories c.pid b = view t.memories c.pid b) ∧
    ∀ i, t'.reg c.rt i = (accessed op a i).elim (t.reg c.rt i) (view t'.memories c.pid) := by
  obtain ⟨⟨raddr, m⟩, hredirect, heq⟩ := bind_eq_ok.1 h
  obtain ⟨-, -, hkept, -⟩ := redirectAddr_spec hredirect
  cases heq
  exact ⟨hkept, fun i => congrFun (Function.update_self c.rt _ t.reg) i⟩

lemma storeExactly_spec (h : storeExactly c t op a = .ok t') : t'.reg = t.reg ∧
    (∀ i b, accessed op a i = some b →
      Held t'.memories c.pid b ∧ view t'.memories c.pid b = t.reg c.rt i) ∧
    ∀ b, Held t.memories c.pid b → (∀ i, accessed op a i ≠ some b) →
      Held t'.memories c.pid b ∧ view t'.memories c.pid b = view t.memories c.pid b := by
  obtain ⟨⟨raddr, m⟩, hredirect, heq⟩ := bind_eq_ok.1 h
  obtain ⟨-, -, hkept, -⟩ := redirectAddr_spec hredirect
  cases heq
  have hheld : ∀ i b, accessed op a i = some b → Held m c.pid b :=
    fun i b hb => held_accessed hredirect hb
  obtain ⟨-, hwritten, hfound, hothers, -⟩ := writeBytes_spec (w := t.reg c.rt) hheld
    (fun i j b => accessed_injective) (List.finRange 4)
  refine ⟨rfl, fun i b hb => ⟨hwritten b (hheld i b hb), hfound i (List.mem_finRange i) b hb⟩,
    fun b hb hnot => ⟨hwritten b (hkept b hb).1, ?_⟩⟩
  exact (hothers b fun i _ => hnot i).trans (hkept b hb).2

lemma perform_of_sound (op : UnalignedOp) (a : ℕ) (hs : Sound t.memories c.pid) :
    ∃ t', perform c t op a = .ok t' ∧ Sound t'.memories c.pid := by
  obtain ⟨r, hread, hr⟩ := hs.redirectAddr true (footprint_fits op a)
  obtain ⟨w, hwrite, hw⟩ := hs.redirectAddr false (footprint_fits op a)
  have hload : ∃ t', loadExactly c t op a = .ok t' ∧ Sound t'.memories c.pid := by
    rw [loadExactly, hread]
    exact ⟨_, rfl, hr⟩
  have hstore : ∃ t', storeExactly c t op a = .ok t' ∧ Sound t'.memories c.pid := by
    rw [storeExactly, hwrite]
    obtain ⟨-, -, -, -, hsound⟩ := writeBytes_spec (w := t.reg c.rt)
      (fun i b hb => held_accessed hwrite hb)
      (fun i j b (hi : accessed op a i = some b) hj => accessed_injective hi hj) (List.finRange 4)
    exact ⟨_, rfl, hsound hw⟩
  cases op
  · exact hload
  · exact hload
  · exact hstore
  · exact hstore

/-- The halves of a word that begins at an address are accessed at the addresses of its bytes. -/
lemma accessed_left {i : Fin 4} (h : i < 4 - a % 4) : accessed .swl a i = some (a + i) := if_pos h

lemma accessed_right {i : Fin 4} (h : 3 - i ≤ (a + 3) % 4) :
    accessed .swr (a + 3) i = some (a + i) := by
  refine (if_pos h).trans (congrArg some ?_)
  show a + 3 - (3 - i) = a + i
  omega

lemma accessed_right_none {i : Fin 4} (h : ¬3 - i ≤ (a + 3) % 4) : accessed .swr (a + 3) i = none :=
  if_neg h

/-- What the two stores write, the two loads read back, at any address. -/
lemma perform_pair {t₁ t₂ t₃ t₄ : ThreadContext} {rd : ℕ} (h₁ : perform c t .swl a = .ok t₁)
    (h₂ : perform c t₁ .swr (a + 3) = .ok t₂) (h₃ : perform { c with rt := rd } t₂ .lwl a = .ok t₃)
    (h₄ : perform { c with rt := rd } t₃ .lwr (a + 3) = .ok t₄) : t₄.reg rd = t.reg c.rt := by
  obtain ⟨hreg, hleft, -⟩ := storeExactly_spec h₁
  obtain ⟨-, hright, hothers⟩ := storeExactly_spec h₂
  obtain ⟨hkept₃, hread₃⟩ := loadExactly_spec h₃
  obtain ⟨hkept₄, hread₄⟩ := loadExactly_spec h₄
  have hcovered : ∀ i : Fin 4, ¬3 - i ≤ (a + 3) % 4 → i < 4 - a % 4 := by
    intro i hi
    omega
  have hstored : ∀ i : Fin 4, Held t₂.memories c.pid (a + i) ∧
      view t₂.memories c.pid (a + i) = t.reg c.rt i := by
    intro i
    by_cases hi : 3 - i ≤ (a + 3) % 4
    · rw [← hreg]
      exact hright i _ (accessed_right hi)
    · obtain ⟨hheld, hview⟩ := hleft i _ (accessed_left (hcovered i hi))
      have hnot : ∀ j, accessed .swr (a + 3) j ≠ some (a + i) := by
        intro j hj
        by_cases hle : 3 - j ≤ (a + 3) % 4
        · have heq : a + j = a + i := Option.some.inj ((accessed_right hle).symm.trans hj)
          have hij : j = i := Fin.ext (Nat.add_left_cancel heq)
          exact hi (hij ▸ hle)
        · cases (accessed_right_none hle).symm.trans hj
      obtain ⟨hheld', hview'⟩ := hothers _ hheld hnot
      exact ⟨hheld', hview'.trans hview⟩
  ext1 i
  obtain ⟨hheld, hview⟩ := hstored i
  obtain ⟨hheld₃, hview₃⟩ := hkept₃ _ hheld
  obtain ⟨-, hview₄⟩ := hkept₄ _ hheld₃
  refine (hread₄ i).trans ?_
  by_cases hi : 3 - i ≤ (a + 3) % 4
  · have hacc : accessed .lwr (a + 3) i = some (a + i) := accessed_right hi
    rw [hacc]
    exact (hview₄.trans hview₃).trans hview
  · have hacc : accessed .lwr (a + 3) i = none := accessed_right_none hi
    have hacc' : accessed .lwl a i = some (a + i) := accessed_left (hcovered i hi)
    rw [hacc]
    refine (hread₃ i).trans ?_
    rw [hacc']
    exact hview₃.trans hview

/-! ### The code -/

/-- An unaligned store of a register, and a load of the word into another one. -/
def storeThenLoad (c : Icode) (t : ThreadContext) (a rd : ℕ) (v₁ v₂ v₃ v₄ : Version) :
    Except Fault ThreadContext := do
  let (_, t) ← exec c t a .swl v₁
  let (_, t) ← exec c t (a + 3) .swr v₂
  let (_, t) ← exec { c with rt := rd } t a .lwl v₃
  let (_, t) ← exec { c with rt := rd } t (a + 3) .lwr v₄
  return t

lemma map_snd_eq_ok {x : Except Fault (NextInst × ThreadContext)} {n : NextInst} (h : x = .ok (n, t)) :
    Prod.snd <$> x = .ok t := by
  rw [h]
  rfl

lemma exists_of_map_snd {x : Except Fault (NextInst × ThreadContext)} (h : Prod.snd <$> x = .ok t) :
    ∃ n, x = .ok (n, t) := by
  cases x with
  | error f => cases h
  | ok r =>
    cases h
    exact ⟨r.1, rfl⟩

section

variable {v₁ v₂ v₃ v₄ : Version} (h₁ : Faithful .swl v₁ a) (h₂ : Faithful .swr v₂ (a + 3))
  (h₃ : Faithful .lwl v₃ a) (h₄ : Faithful .lwr v₄ (a + 3))

include h₁ h₂ h₃ h₄

lemma reg_storeThenLoad {rd : ℕ} (h : storeThenLoad c t a rd v₁ v₂ v₃ v₄ = .ok t') :
    t'.reg rd = t.reg c.rt := by
  obtain ⟨⟨n₁, t₁⟩, hs₁, h⟩ := bind_eq_ok.1 h
  obtain ⟨⟨n₂, t₂⟩, hs₂, h⟩ := bind_eq_ok.1 h
  obtain ⟨⟨n₃, t₃⟩, hs₃, h⟩ := bind_eq_ok.1 h
  obtain ⟨⟨n₄, t₄⟩, hs₄, h⟩ := bind_eq_ok.1 h
  cases h
  exact perform_pair ((h₁ c t).symm.trans (map_snd_eq_ok hs₁)) ((h₂ c t₁).symm.trans (map_snd_eq_ok hs₂))
    ((h₃ _ t₂).symm.trans (map_snd_eq_ok hs₃)) ((h₄ _ t₃).symm.trans (map_snd_eq_ok hs₄))

lemma exists_storeThenLoad (hs : Sound t.memories c.pid) (rd : ℕ) :
    ∃ t', storeThenLoad c t a rd v₁ v₂ v₃ v₄ = .ok t' := by
  obtain ⟨t₁, hp₁, hs₁⟩ := perform_of_sound .swl a hs
  obtain ⟨n₁, hx₁⟩ := exists_of_map_snd ((h₁ c t).trans hp₁)
  obtain ⟨t₂, hp₂, hs₂⟩ := perform_of_sound .swr (a + 3) hs₁
  obtain ⟨n₂, hx₂⟩ := exists_of_map_snd ((h₂ c t₁).trans hp₂)
  have hs₂' : Sound t₂.memories ({ c with rt := rd } : Icode).pid := hs₂
  obtain ⟨t₃, hp₃, hs₃⟩ := perform_of_sound .lwl a hs₂'
  obtain ⟨n₃, hx₃⟩ := exists_of_map_snd ((h₃ _ t₂).trans hp₃)
  obtain ⟨t₄, hp₄, -⟩ := perform_of_sound .lwr (a + 3) hs₃
  obtain ⟨n₄, hx₄⟩ := exists_of_map_snd ((h₄ _ t₃).trans hp₄)
  refine ⟨t₄, ?_⟩
  rw [storeThenLoad, hx₁, ok_bind]
  show (exec c t₁ (a + 3) .swr v₂ >>= _) = _
  rw [hx₂, ok_bind]
  show (exec { c with rt := rd } t₂ a .lwl v₃ >>= _) = _
  rw [hx₃, ok_bind]
  show (exec { c with rt := rd } t₃ (a + 3) .lwr v₄ >>= _) = _
  rw [hx₄]
  rfl

end

/-- `lwl` and `swl` do what they ought to do at the beginnings of blocks, `swr` and the normal version of
`lwr` everywhere, and the delay slot version of `lwr` at aligned addresses; it alone differs from its
normal version.  Where the four instructions are right, the word that `swl` and `swr` store is the one that
`lwl` and `lwr` load, and in a sound state none of them fails. -/
theorem unaligned_faithful_iff (a : ℕ) :
    (∀ op v, Faithful op v a ↔ Exact op v a) ∧
    (∀ op, (∀ c t, Prod.snd <$> exec c t a op .normal = Prod.snd <$> exec c t a op .delaySlot) ↔
      (op = .lwr → a % 4 = 0)) ∧
    ∀ v₁ v₂ v₃ v₄, Exact .swl v₁ a → Exact .swr v₂ (a + 3) → Exact .lwl v₃ a →
      Exact .lwr v₄ (a + 3) → ∀ c t rd,
        (∀ t', storeThenLoad c t a rd v₁ v₂ v₃ v₄ = .ok t' → t'.reg rd = t.reg c.rt) ∧
        (Sound t.memories c.pid → ∃ t', storeThenLoad c t a rd v₁ v₂ v₃ v₄ = .ok t') := by
  refine ⟨fun op v => ⟨exact_of_faithful, faithful_of_exact⟩, fun op => versions_agree_iff, ?_⟩
  intro v₁ v₂ v₃ v₄ h₁ h₂ h₃ h₄ c t rd
  have hf₁ := faithful_of_exact h₁
  have hf₂ := faithful_of_exact h₂
  have hf₃ := faithful_of_exact h₃
  have hf₄ := faithful_of_exact h₄
  exact ⟨fun t' h => reg_storeThenLoad hf₁ hf₂ hf₃ hf₄ h,
    fun hs => exists_storeThenLoad hf₁ hf₂ hf₃ hf₄ hs rd⟩

/-- Process 0 in a transaction that has touched nothing yet, with a word in register 1. -/
def wordThread : ThreadContext where
  reg r := if r = 1 then fun i => 10 + i.val.toUInt8 else fun _ => 0
  memories :=
    { Memories.new with
      shared := fun a => a.toUInt8
      privateMemorySet := Memories.new.privateMemorySet.insert (.new 0 none 1)
      latestMemorySlice := fun _ => 1 }
  marks := []

lemma sound_wordThread : Sound wordThread.memories 0 := by
  refine ⟨fun _ => ⟨.new 0 none 1, rfl⟩, fun s hs => ?_⟩
  rcases Table.mem_insert.1 hs with rfl | ⟨hs, -⟩
  · exact fun a i _ => ⟨rfl, rfl, rfl⟩
  · exact absurd hs List.not_mem_nil

theorem unaligned_faithful_iff_wordThread :
    ∃ t', storeThenLoad ⟨0, id, 1⟩ wordThread 8 2 .normal .delaySlot .delaySlot .normal = .ok t' ∧
      t'.reg 2 = wordThread.reg 1 := by
  obtain ⟨hreg, hok⟩ := (unaligned_faithful_iff 8).2.2 .normal .delaySlot .delaySlot .normal rfl trivial
    rfl trivial ⟨0, id, 1⟩ wordThread 2
  obtain ⟨t', ht'⟩ := hok sound_wordThread
  exact ⟨t', ht', hreg t' ht'⟩

/-- `swl` at address 5 redirects no byte, and the byte that it writes is not in the slice; the delay slot
version of `lwr` at this address loads the byte at address 4 in place of the one at address 5. -/
theorem not_unaligned_faithful :
    (∃ n t', exec ⟨0, id, 1⟩ wordThread 5 .swl .normal = .ok (n, t') ∧
      t'.marks = [⟨false, 0, 5, 0⟩] ∧ view t'.memories 0 5 = 10 ∧ ¬Held t'.memories 0 5) ∧
    (∃ n t', exec ⟨0, id, 2⟩ wordThread 5 .lwr .normal = .ok (n, t') ∧ t'.reg 2 3 = 5) ∧
    ∃ n t', exec ⟨0, id, 2⟩ wordThread 5 .lwr .delaySlot = .ok (n, t') ∧ t'.reg 2 3 = 4 := by
  refine ⟨?_, ?_, ?_⟩
  · have hrun : succeeds (exec ⟨0, id, 1⟩ wordThread 5 .swl .normal) (fun r => decide
        (r.2.marks = [⟨false, 0, 5, 0⟩] ∧ view r.2.memories 0 5 = 10 ∧
          r.2.memories.latestMemorySlice 0 = 1 ∧ (r.2.memories.privateMemorySet.find 1).elim false
            fun s => !(blockOf s 5 (blockIndex 5)).valid)) = true := by
      decide +kernel
    obtain ⟨⟨n, t'⟩, hexec, htest⟩ := succeeds_iff.1 hrun
    obtain ⟨hmarks, hview, hlatest, hvalid⟩ := of_decide_eq_true htest
    refine ⟨n, t', hexec, hmarks, hview, fun hheld => ?_⟩
    obtain ⟨s, hs, hheld⟩ := hheld (by rw [hlatest]; decide)
    rw [hlatest] at hs
    rw [hs, Option.elim_some, hheld] at hvalid
    cases hvalid
  · have hrun : succeeds (exec ⟨0, id, 2⟩ wordThread 5 .lwr .normal)
        (fun r => decide (r.2.reg 2 3 = 5)) = true := by
      decide +kernel
    obtain ⟨⟨n, t'⟩, hexec, htest⟩ := succeeds_iff.1 hrun
    exact ⟨n, t', hexec, of_decide_eq_true htest⟩
  · have hrun : succeeds (exec ⟨0, id, 2⟩ wordThread 5 .lwr .delaySlot)
        (fun r => decide (r.2.reg 2 3 = 4)) = true := by
      decide +kernel
    obtain ⟨⟨n, t'⟩, hexec, htest⟩ := succeeds_iff.1 hrun
    exact ⟨n, t', hexec, of_decide_eq_true htest⟩

end Sesc.Mint
