import Mathlib.Tactic.Common
import Sesc.Mint.UnalignedOps

/-!
# The private copies of bytes

The pointer that a process gets for an address, and what it finds there.  A redirection makes the bytes of
its range private, and changes none of the bytes that are private already.
-/

namespace Sesc.Mint

open Lib Sesc.Trans Sesc.Tm

variable {m m' : Memories} {pid : Pid} {isRead : Bool} {a b : Address} {size : ℕ}
  {r : RAddr × Memories}

/-- The pointer of a process to its copy of a byte. -/
def home (m : Memories) (pid : Pid) (a : Address) : RAddr :=
  if m.latestMemorySlice pid = 0 then .shared a else .slice (m.latestMemorySlice pid) a

/-- The byte that a process finds at an address. -/
def view (m : Memories) (pid : Pid) (a : Address) : UInt8 := byteAt m (home m pid a)

/-- A byte is in the latest slice of the process, if it has a slice. -/
def Held (m : Memories) (pid : Pid) (a : Address) : Prop :=
  m.latestMemorySlice pid ≠ 0 → ∃ s, m.privateMemorySet.find (m.latestMemorySlice pid) = some s ∧
    (blockOf s a (blockIndex a)).valid = true

lemma home_congr (h : m'.latestMemorySlice = m.latestMemorySlice) (a : Address) :
    home m' pid a = home m pid a := by
  rw [home, home, h]

@[simp] lemma addr_home : (home m pid a).addr = a := by
  rw [home]
  split <;> rfl

@[simp] lemma move_home (f : Address → Address) : (home m pid a).move f = home m pid (f a) := by
  rw [home, home]
  split <;> rfl

lemma blockIndex_eq_iff (h : a / BlockSize = b / BlockSize) : blockIndex a = blockIndex b ↔ a = b := by
  rw [blockIndex, blockIndex, Fin.mk.injEq]
  constructor
  · intro hmod
    rw [← Nat.div_add_mod a BlockSize, ← Nat.div_add_mod b BlockSize, h, hmod]
  · rintro rfl
    rfl

/-! ### What a redirection does to a slice -/

/-- A block after `RegisterOldValue` and `TranslateAddress`. -/
def redirectedBlock (shared : Memory) (addr : Address) (size : ℕ) (isRead : Bool)
    (s : PrivateMemory) : PrivateMemoryBlock :=
  PrivateMemory.markByte addr size isRead
    (PrivateMemory.registerByte shared addr size (blockOf s addr))

def redirectedSlice (shared : Memory) (addr : Address) (size : ℕ) (isRead : Bool)
    (s : PrivateMemory) : PrivateMemory :=
  { s with
    memMap := (s.memMap.insert (addr / BlockSize)
      (PrivateMemory.registerByte shared addr size (blockOf s addr))).insert (addr / BlockSize)
        (redirectedBlock shared addr size isRead s) }

lemma valid_registerByte {shared : Memory} {block : PrivateMemoryBlock} {i : Fin BlockSize} :
    (PrivateMemory.registerByte shared a size block i).valid =
      (touches a size i || (block i).valid) := by
  rw [PrivateMemory.registerByte]
  split
  · rename_i h
    rw [Bool.and_eq_true] at h
    rw [h.1]
    rfl
  · rename_i h
    cases htouch : touches a size i <;> cases hvalid : (block i).valid <;>
      simp_all

lemma valid_redirectedBlock {shared : Memory} {s : PrivateMemory} {i : Fin BlockSize} :
    (redirectedBlock shared a size isRead s i).valid =
      (touches a size i || (blockOf s a i).valid) := by
  rw [redirectedBlock, PrivateMemory.markByte, ← valid_registerByte]
  split <;> rfl

lemma newData_redirectedBlock {shared : Memory} {s : PrivateMemory} {i : Fin BlockSize}
    (h : (blockOf s a i).valid = true) :
    (redirectedBlock shared a size isRead s i).newData = (blockOf s a i).newData := by
  have hkeep : PrivateMemory.registerByte shared a size (blockOf s a) i = blockOf s a i := by
    rw [PrivateMemory.registerByte, h, Bool.not_true, Bool.and_false]
    rfl
  rw [redirectedBlock, PrivateMemory.markByte, hkeep]
  split <;> rfl

lemma find_redirectedSlice {shared : Memory} {s : PrivateMemory} :
    (redirectedSlice shared a size isRead s).memMap.find =
      Function.update s.memMap.find (a / BlockSize) (some (redirectedBlock shared a size isRead s)) := by
  rw [redirectedSlice, FinMap.find_insert, FinMap.find_insert, Function.update_idem]

lemma blockOf_redirectedSlice {shared : Memory} {s : PrivateMemory} :
    blockOf (redirectedSlice shared a size isRead s) b =
      if b / BlockSize = a / BlockSize then redirectedBlock shared a size isRead s
      else blockOf s b := by
  rw [blockOf, find_redirectedSlice]
  split
  · rename_i h
    rw [h, Function.update_self]
    rfl
  · rename_i h
    rw [Function.update_of_ne h]
    rfl

lemma blockOf_congr {s : PrivateMemory} (h : b / BlockSize = a / BlockSize) :
    blockOf s b = blockOf s a := by
  rw [blockOf, blockOf, h]

lemma mem_touches {a b : ℕ} (hfits : a % BlockSize + size ≤ BlockSize) (hle : a ≤ b)
    (hlt : b < a + size) :
    b / BlockSize = a / BlockSize ∧ touches a size (blockIndex b) = true := by
  have hdiv : b / 8 = a / 8 := by
    have hfits' : a % 8 + size ≤ 8 := hfits
    omega
  refine ⟨hdiv, ?_⟩
  rw [touches, Bool.decide_and, Bool.and_eq_true, decide_eq_true_eq, decide_eq_true_eq]
  show a % 8 ≤ b % 8 ∧ b % 8 < a % 8 + size
  omega

lemma redirectToSlice_ok (h : m.redirectToSlice pid isRead a size = .ok m') :
    ∃ s, m.privateMemorySet.find (m.latestMemorySlice pid) = some s ∧
      a % BlockSize + size ≤ BlockSize ∧
      m' = m.setContents (m.latestMemorySlice pid) (redirectedSlice m.shared a size isRead s) := by
  obtain ⟨s, hs, h⟩ := bind_eq_ok.1 h
  obtain ⟨-, -, h⟩ := bind_eq_ok.1 h
  obtain ⟨s', hs', heq⟩ := bind_eq_ok.1 h
  cases heq
  obtain ⟨hfits, hs'⟩ := check_bind_eq_ok.1 hs'
  obtain ⟨block, hblock, hs'⟩ := bind_eq_ok.1 hs'
  obtain ⟨-, heq⟩ := check_bind_eq_ok.1 hs'
  cases heq
  have hreg := elim_error_eq_ok.1 hblock
  rw [PrivateMemory.registerOldValue, FinMap.find_insert, Function.update_self] at hreg
  cases hreg
  exact ⟨s, elim_error_eq_ok.1 hs, hfits, rfl⟩

lemma find_setContents {id : Level} {s : PrivateMemory} : (m.setContents id s).privateMemorySet.find id =
    (m.privateMemorySet.find id).map fun t =>
      { t with memMap := s.memMap, pidReliance := s.pidReliance } := by
  rw [Memories.setContents, Memories.setSlices, Table.find_modify, if_pos rfl]

lemma view_of_slice {s : PrivateMemory} (hne : m.latestMemorySlice pid ≠ 0)
    (hs : m.privateMemorySet.find (m.latestMemorySlice pid) = some s) :
    view m pid b = (blockOf s b (blockIndex b)).newData := by
  rw [view, home, if_neg hne, byteAt, hs]
  rfl

lemma held_of_slice {s : PrivateMemory} (hne : m.latestMemorySlice pid ≠ 0)
    (hs : m.privateMemorySet.find (m.latestMemorySlice pid) = some s) :
    Held m pid b ↔ (blockOf s b (blockIndex b)).valid = true := by
  constructor
  · intro h
    obtain ⟨s', hs', hvalid⟩ := h hne
    cases hs.symm.trans hs'
    exact hvalid
  · exact fun h _ => ⟨s, hs, h⟩

lemma beforeShared_same (h : beforeShared m pid isRead a size = .ok m') :
    m'.latestMemorySlice = m.latestMemorySlice ∧ m'.shared = m.shared := by
  rw [beforeShared] at h
  split at h
  · cases h
    exact ⟨rfl, rfl⟩
  · obtain ⟨-, -, h⟩ := bind_eq_ok.1 h
    cases h
    exact ⟨rfl, rfl⟩

/-- A redirection returns the pointer of the process, and makes the bytes of its range private. -/
lemma redirectAddr_spec (h : redirectAddr m pid isRead a size = .ok r) :
    r.1 = home r.2 pid a ∧ r.2.latestMemorySlice = m.latestMemorySlice ∧
    (∀ b, Held m pid b → Held r.2 pid b ∧ view r.2 pid b = view m pid b) ∧
    ∀ b, a ≤ b → b < a + size → Held r.2 pid b := by
  rw [redirectAddr] at h
  split at h
  · rename_i hzero
    obtain ⟨m₁, h₁, heq⟩ := bind_eq_ok.1 h
    obtain ⟨hsame, hshared⟩ := beforeShared_same h₁
    cases heq
    have hzero' : m₁.latestMemorySlice pid = 0 := by rw [hsame, hzero]
    refine ⟨?_, hsame, fun b _ => ⟨fun hne => absurd hzero' hne, ?_⟩, fun b _ _ hne =>
      absurd hzero' hne⟩
    · rw [home, if_pos hzero']
    · rw [view, home, if_pos hzero', view, home, if_pos hzero]
      exact congrFun hshared b
  · rename_i hne
    obtain ⟨m₁, h₁, heq⟩ := bind_eq_ok.1 h
    cases heq
    obtain ⟨s, hs, hfits, rfl⟩ := redirectToSlice_ok h₁
    let m₁ := m.setContents (m.latestMemorySlice pid) (redirectedSlice m.shared a size isRead s)
    have hs₁ : m₁.privateMemorySet.find (m₁.latestMemorySlice pid) =
        some (redirectedSlice m.shared a size isRead s) := by
      show (m.setContents _ _).privateMemorySet.find (m.latestMemorySlice pid) = _
      rw [find_setContents, hs]
      rfl
    have hne₁ : m₁.latestMemorySlice pid ≠ 0 := hne
    refine ⟨(if_neg hne).symm, rfl, fun b hheld => ?_, fun b hle hlt => ?_⟩
    · have hvalid := (held_of_slice hne hs).1 hheld
      show Held m₁ pid b ∧ view m₁ pid b = _
      rw [held_of_slice hne₁ hs₁, view_of_slice hne₁ hs₁, view_of_slice hne hs, blockOf_redirectedSlice]
      split
      · rename_i hdiv
        rw [blockOf_congr hdiv] at hvalid ⊢
        exact ⟨by rw [valid_redirectedBlock, hvalid, Bool.or_true], newData_redirectedBlock hvalid⟩
      · exact ⟨hvalid, rfl⟩
    · obtain ⟨hdiv, htouch⟩ := mem_touches hfits hle hlt
      refine (held_of_slice hne₁ hs₁).2 ?_
      rw [blockOf_redirectedSlice, if_pos hdiv, valid_redirectedBlock, htouch, Bool.true_or]

/-! ### Writing through a pointer -/

lemma latest_setByte {p : RAddr} {v : UInt8} :
    (setByte m p v).latestMemorySlice = m.latestMemorySlice := by
  cases p <;> rfl

lemma find_setByte {id : Level} {s : PrivateMemory} {v : UInt8}
    (hs : m.privateMemorySet.find id = some s) :
    (setByte m (.slice id a) v).privateMemorySet.find id = some (setNewByte s a v) := by
  have hmodify := Table.find_modify (t := m.privateMemorySet) (k := id) (j := id)
    (f := fun s => setNewByte s a v) (g := fun _ => rfl)
  rw [if_pos rfl, hs] at hmodify
  exact hmodify

lemma blockOf_setNewByte {s : PrivateMemory} {v : UInt8} :
    blockOf (setNewByte s a v) b = if b / BlockSize = a / BlockSize then
      Function.update (blockOf s a) (blockIndex a) { blockOf s a (blockIndex a) with newData := v }
      else blockOf s b := by
  rw [blockOf, setNewByte, FinMap.find_insert]
  split
  · rename_i h
    rw [h, Function.update_self]
    rfl
  · rename_i h
    rw [Function.update_of_ne h]
    rfl

/-- A private byte that is written is found afterwards, and no other byte changes. -/
lemma view_setByte {v : UInt8} (h : Held m pid a) :
    view (setByte m (home m pid a) v) pid b = if b = a then v else view m pid b := by
  by_cases hzero : m.latestMemorySlice pid = 0
  · have hhome : ∀ b, home m pid b = .shared b := fun b => if_pos hzero
    rw [view, home_congr latest_setByte, hhome, hhome, view, hhome]
    show Function.update m.shared a v b = _
    rw [Function.update_apply]
    rfl
  · have hhome : ∀ b, home m pid b = .slice (m.latestMemorySlice pid) b := fun b => if_neg hzero
    obtain ⟨s, hs, -⟩ := h hzero
    rw [view, home_congr latest_setByte, hhome, hhome, view_of_slice hzero hs, byteAt,
      find_setByte hs]
    show (blockOf (setNewByte s a v) b (blockIndex b)).newData = _
    rw [blockOf_setNewByte]
    split
    · rename_i hdiv
      by_cases hba : b = a
      · subst hba
        rw [Function.update_self, if_pos rfl]
      · rw [if_neg hba, Function.update_of_ne fun heq => hba ((blockIndex_eq_iff hdiv).1 heq),
          blockOf_congr hdiv]
    · rename_i hdiv
      rw [if_neg fun heq => hdiv (by rw [heq])]

lemma held_setByte {v : UInt8} (h : Held m pid b) : Held (setByte m (home m pid a) v) pid b := by
  intro hne
  rw [latest_setByte] at hne
  obtain ⟨s, hs, hvalid⟩ := h hne
  rw [home, if_neg hne, latest_setByte]
  refine ⟨setNewByte s a v, find_setByte hs, ?_⟩
  rw [blockOf_setNewByte]
  split
  · rename_i hdiv
    rw [blockOf_congr hdiv] at hvalid
    by_cases hindex : blockIndex b = blockIndex a
    · rw [hindex] at hvalid ⊢
      rw [Function.update_self]
      exact hvalid
    · rw [Function.update_of_ne hindex]
      exact hvalid
  · exact hvalid

/-! ### Accesses that do not fail -/

/-- The bytes that are not in the slice yet are as the constructor of their block has left them. -/
def Pristine (s : PrivateMemory) : Prop := ∀ a i, (blockOf s a i).valid = false →
  (blockOf s a i).oldData = (blockOf s a i).newData ∧ (blockOf s a i).oldData = 0xcd ∧
    (blockOf s a i).relevant = false

/-- What the assertions of the slices say. -/
structure Sound (m : Memories) (pid : Pid) : Prop where
  latest : m.latestMemorySlice pid ≠ 0 →
    ∃ s, m.privateMemorySet.find (m.latestMemorySlice pid) = some s
  pristine : ∀ s ∈ m.privateMemorySet, Pristine s

lemma Pristine.mayRegister {s : PrivateMemory} (hs : Pristine s)
    (hfits : a % BlockSize + size ≤ BlockSize) : s.mayRegister a size = true := by
  rw [PrivateMemory.mayRegister, decide_eq_true_eq]
  refine ⟨hfits, fun i _ hvalid => ?_⟩
  obtain ⟨hsame, hfirst, hrelevant⟩ := hs a i (Bool.not_eq_true' _ ▸ hvalid)
  refine ⟨hsame, hfirst, ?_⟩
  show (!(blockOf s a i).relevant) = true
  rw [hrelevant]
  rfl

lemma registerByte_of_not_valid {shared : Memory} {block : PrivateMemoryBlock} {i : Fin BlockSize}
    (h : (PrivateMemory.registerByte shared a size block i).valid = false) :
    touches a size i = false ∧ PrivateMemory.registerByte shared a size block i = block i := by
  rw [valid_registerByte, Bool.or_eq_false_iff] at h
  refine ⟨h.1, ?_⟩
  rw [PrivateMemory.registerByte, h.1]
  rfl

lemma Pristine.registerOldValue {s : PrivateMemory} {shared : Memory} (hs : Pristine s) :
    Pristine (s.registerOldValue shared a size) := by
  intro b i hvalid
  have hblock : blockOf (s.registerOldValue shared a size) b =
      if b / BlockSize = a / BlockSize then
        PrivateMemory.registerByte shared a size (blockOf s a)
      else blockOf s b := by
    rw [blockOf, PrivateMemory.registerOldValue, FinMap.find_insert]
    split
    · rename_i h
      rw [h, Function.update_self]
      rfl
    · rename_i h
      rw [Function.update_of_ne h]
      rfl
  rw [hblock] at hvalid ⊢
  split at hvalid
  · rename_i hdiv
    rw [if_pos hdiv]
    obtain ⟨-, heq⟩ := registerByte_of_not_valid hvalid
    rw [heq] at hvalid ⊢
    exact hs a i hvalid
  · rename_i hdiv
    rw [if_neg hdiv]
    exact hs b i hvalid

lemma Pristine.redirectedSlice {s : PrivateMemory} {shared : Memory} (hs : Pristine s) :
    Pristine (redirectedSlice shared a size isRead s) := by
  intro b i hvalid
  rw [blockOf_redirectedSlice] at hvalid ⊢
  split at hvalid
  · rename_i hdiv
    rw [if_pos hdiv]
    rw [valid_redirectedBlock, Bool.or_eq_false_iff] at hvalid
    have heq : redirectedBlock shared a size isRead s i = blockOf s a i := by
      rw [redirectedBlock, PrivateMemory.markByte, hvalid.1, PrivateMemory.registerByte, hvalid.1]
      rfl
    rw [heq]
    exact hs a i hvalid.2
  · rename_i hdiv
    rw [if_neg hdiv]
    exact hs b i hvalid

lemma Sound.beforeShared (hs : Sound m pid) (hfits : a % BlockSize + size ≤ BlockSize) :
    ∃ m', beforeShared m pid isRead a size = .ok m' ∧ ∀ s ∈ m'.privateMemorySet, Pristine s := by
  rw [Mint.beforeShared]
  split
  · exact ⟨m, rfl, hs.pristine⟩
  · have hall : (m.privateMemorySet.all fun s => s.keepingOldValuesOf pid → s.mayRegister a size) =
        true := by
      refine Table.all_eq_true.2 fun s hmem => decide_eq_true fun _ => ?_
      exact (hs.pristine s hmem).mayRegister hfits
    have hkeys : ∀ s : PrivateMemory, (if s.keepingOldValuesOf pid then
        s.registerOldValue m.shared a size else s).transID = s.transID := by
      intro s
      split <;> rfl
    rw [Memories.registerOldValues, hall]
    refine ⟨_, rfl, fun s' hmem => ?_⟩
    obtain ⟨s, hold, rfl⟩ := (Table.mem_map (g := hkeys)).1 hmem
    split
    · exact (hs.pristine s hold).registerOldValue
    · exact hs.pristine s hold

/-- In a sound state, an access inside of a block does not fail. -/
lemma Sound.redirectAddr (hs : Sound m pid) (isRead : Bool) (hfits : a % BlockSize + size ≤ BlockSize) :
    ∃ r, redirectAddr m pid isRead a size = .ok r ∧ Sound r.2 pid := by
  rw [Mint.redirectAddr]
  split
  · rename_i hzero
    obtain ⟨m', hm', hpristine⟩ := hs.beforeShared hfits
    obtain ⟨hsame, -⟩ := beforeShared_same hm'
    rw [hm']
    exact ⟨_, rfl, fun hne => absurd (by rw [hsame, hzero]) hne, hpristine⟩
  · rename_i hne
    obtain ⟨s, hfind⟩ := hs.latest hne
    have hmem := (Table.find_eq_some.1 hfind).1
    have hpristine := hs.pristine s hmem
    have hfound : (s.registerOldValue m.shared a size).memMap.find (a / BlockSize) =
        some (PrivateMemory.registerByte m.shared a size (blockOf s a)) := by
      rw [PrivateMemory.registerOldValue, FinMap.find_insert, Function.update_self]
      rfl
    have hvalid : ∀ i, touches a size i = true →
        (PrivateMemory.registerByte m.shared a size (blockOf s a) i).valid = true := by
      intro i hi
      rw [valid_registerByte, hi, Bool.true_or]
    have htranslate : (s.registerOldValue m.shared a size).translateAddress a size isRead =
        .ok (redirectedSlice m.shared a size isRead s) := by
      rw [PrivateMemory.translateAddress, check_bind hfits, hfound]
      exact check_bind hvalid
    have hredirect : m.redirectToSlice pid isRead a size = .ok
        (m.setContents (m.latestMemorySlice pid) (redirectedSlice m.shared a size isRead s)) := by
      rw [Memories.redirectToSlice, Memories.slice, hfind]
      show (check _ _ >>= _) = _
      rw [hpristine.mayRegister hfits]
      show ((s.registerOldValue m.shared a size).translateAddress a size isRead >>= _) = _
      rw [htranslate]
      rfl
    rw [hredirect]
    refine ⟨_, rfl, fun _ => ⟨redirectedSlice m.shared a size isRead s, ?_⟩, fun s' hs' => ?_⟩
    · show (m.setContents _ _).privateMemorySet.find (m.latestMemorySlice pid) = _
      rw [find_setContents, hfind]
      rfl
    · have hmodify := Table.mem_modify (t := m.privateMemorySet) (k := m.latestMemorySlice pid)
        (f := fun t => { t with
          memMap := (redirectedSlice m.shared a size isRead s).memMap
          pidReliance := (redirectedSlice m.shared a size isRead s).pidReliance })
        (g := fun _ => rfl) (r := s')
      rcases hmodify.1 hs' with ⟨t, -, -, rfl⟩ | ⟨hold, -⟩
      · exact hpristine.redirectedSlice
      · exact hs.pristine s' hold

lemma Sound.setByte {v : UInt8} (hs : Sound m pid) (h : Held m pid a) :
    Sound (setByte m (home m pid a) v) pid := by
  by_cases hzero : m.latestMemorySlice pid = 0
  · rw [home, if_pos hzero]
    exact ⟨hs.latest, hs.pristine⟩
  obtain ⟨s, hfind, hvalid⟩ := h hzero
  rw [home, if_neg hzero]
  refine ⟨fun _ => ⟨_, find_setByte hfind⟩, fun s' hs' => ?_⟩
  have hmodify := Table.mem_modify (t := m.privateMemorySet) (k := m.latestMemorySlice pid)
    (f := fun s => setNewByte s a v) (g := fun _ => rfl) (r := s')
  rcases hmodify.1 hs' with ⟨t, ht, hkey, rfl⟩ | ⟨hold, -⟩
  · have heq : t = s := Option.some.inj ((Table.find_eq_some.2 ⟨ht, hkey⟩).symm.trans hfind)
    subst heq
    intro b i hnot
    rw [blockOf_setNewByte] at hnot ⊢
    split at hnot
    · rename_i hdiv
      rw [if_pos hdiv]
      by_cases hindex : i = blockIndex a
      · subst hindex
        rw [Function.update_self] at hnot
        cases hvalid.symm.trans hnot
      · rw [Function.update_of_ne hindex] at hnot ⊢
        exact hs.pristine t ht a i hnot
    · rename_i hdiv
      rw [if_neg hdiv]
      exact hs.pristine t ht b i hnot
  · exact hs.pristine s' hold

end Sesc.Mint
