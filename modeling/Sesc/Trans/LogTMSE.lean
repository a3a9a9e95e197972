import Mathlib.Data.Finset.Card
import Mathlib.Data.Finset.Range
import Sesc.Trans.TableDetection

/-!
# `LogTMSECollisionDetectionBase`

Each process has two signatures, for reads and writes: vectors of bits in which an address sets
the bits that a rolling hash of its tag names, one for each iteration.
-/

namespace Sesc.Trans

open Lib

/-- `RollingHash::Hash`, of a tag and an iteration. -/
abbrev RollingHash := ℕ → ℕ → ℕ

/-- `BasicHash::Hash`. -/
def basicHash : RollingHash := fun input _ => input

/-- `AddressSliceHash::Hash`. -/
def addressSliceHash (sliceWidth : ℕ) : RollingHash
  | input, 0 => input
  | input, iteration + 1 => addressSliceHash sliceWidth (input / sliceWidth) iteration

/-- The source divides by the size of a filter. -/
structure LogTMSEConfig where
  hash : RollingHash
  filterSize : ℕ
  lineSize : ℕ
  iterationCount : ℕ
  procCount : ℕ
  filterSize_pos : 0 < filterSize

/-- The bits of a signature and the count of those that are set. -/
structure Filter where
  bit : ℕ → Bool
  population : ℕ

def Filter.empty : Filter where
  bit := fun _ => false
  population := 0

/-- The signatures of the processes: `readFilter` and `readPopulation`, `writeFilter` and
`writePopulation`. -/
structure Signatures where
  readFilter : Pid → Filter
  writeFilter : Pid → Filter

namespace Signatures

def new : Signatures where
  readFilter := fun _ => .empty
  writeFilter := fun _ => .empty

/-- The signature for reads or writes. -/
def filter (s : Signatures) (pid : Pid) (read : Bool) : Filter :=
  if read then s.readFilter pid else s.writeFilter pid

/-- `ClearCollisionData`. -/
def clearCollisionData (s : Signatures) (pid : Pid) : Signatures where
  readFilter := Function.update s.readFilter pid .empty
  writeFilter := Function.update s.writeFilter pid .empty

end Signatures

namespace LogTMSEConfig

variable (cfg : LogTMSEConfig)

/-- `CalcTag`. -/
def calcTag (addr : Address) : ℕ := addr / cfg.lineSize

/-- The entry of a tag in a filter for an iteration. -/
def entry (tag iteration : ℕ) : ℕ := cfg.hash tag iteration % cfg.filterSize

/-- The loop of `IsInReadSet` and `IsInWriteSet` over the iterations. -/
def isIn (f : Filter) (tag : ℕ) : Bool :=
  (List.range cfg.iterationCount).all fun i => f.bit (cfg.entry tag i)

/-- `IsInReadSet`. -/
def isInReadSet (s : Signatures) (pid : Pid) (addr : Address) : Bool :=
  cfg.isIn (s.readFilter pid) (cfg.calcTag addr)

/-- `IsInWriteSet`. -/
def isInWriteSet (s : Signatures) (pid : Pid) (addr : Address) : Bool :=
  cfg.isIn (s.writeFilter pid) (cfg.calcTag addr)

/-- One iteration of `AddToSet` on a filter. -/
def setBit (tag : ℕ) (f : Filter) (iteration : ℕ) : Filter :=
  if f.bit (cfg.entry tag iteration) then f
  else { bit := Function.update f.bit (cfg.entry tag iteration) true
         population := f.population + 1 }

/-- The loop of `AddToSet` on a filter. -/
def insert (f : Filter) (tag : ℕ) : Filter :=
  (List.range cfg.iterationCount).foldl (cfg.setBit tag) f

/-- `AddToSet`. -/
def addToSet (s : Signatures) (pid : Pid) (addr : Address) (read : Bool) : Signatures :=
  if read then
    { s with
      readFilter :=
        Function.update s.readFilter pid (cfg.insert (s.readFilter pid) (cfg.calcTag addr)) }
  else
    { s with
      writeFilter :=
        Function.update s.writeFilter pid (cfg.insert (s.writeFilter pid) (cfg.calcTag addr)) }

/-- `ExistsCollision`. -/
def existsCollision (s : Signatures) (pid : Pid) (addr : Address) (isRead : Bool) : Bool :=
  if cfg.isInWriteSet s pid addr then true
  else if isRead = false then cfg.isInReadSet s pid addr
  else false

/-- The collision detection of a configuration. -/
def logTMSE : TableDetection Signatures where
  procCount := cfg.procCount
  init := .new
  addToSet := cfg.addToSet
  clearCollisionData := Signatures.clearCollisionData
  existsCollision := cfg.existsCollision

variable {cfg} {f : Filter} {tag t : ℕ} {s : Signatures} {pid p : Pid} {read r : Bool}
  {addr : Address}

/-! ## Filters -/

/-- The count of a filter is that of the bits that are set. -/
def Counts (cfg : LogTMSEConfig) (f : Filter) : Prop :=
  f.population = ((Finset.range cfg.filterSize).filter fun j => f.bit j = true).card

lemma entry_lt (tag i : ℕ) : cfg.entry tag i < cfg.filterSize := Nat.mod_lt _ cfg.filterSize_pos

/-- An iteration sets the bit of its entry. -/
lemma bit_setBit {i j : ℕ} :
    (cfg.setBit tag f i).bit j = (decide (j = cfg.entry tag i) || f.bit j) := by
  rw [setBit]
  split
  · rename_i hbit
    by_cases hj : j = cfg.entry tag i
    · rw [hj, hbit, Bool.or_true]
    · rw [decide_eq_false hj, Bool.false_or]
  · dsimp only
    by_cases hj : j = cfg.entry tag i
    · rw [hj, Function.update_self, decide_eq_true rfl, Bool.true_or]
    · rw [Function.update_of_ne hj, decide_eq_false hj, Bool.false_or]

lemma Counts.setBit (hf : Counts cfg f) (i : ℕ) : Counts cfg (cfg.setBit tag f i) := by
  by_cases hbit : f.bit (cfg.entry tag i) = true
  · have heq : cfg.setBit tag f i = f := if_pos hbit
    rw [heq]
    exact hf
  · -- the bits that are set are the old ones and the new one
    have hset : ((Finset.range cfg.filterSize).filter fun j =>
        (cfg.setBit tag f i).bit j = true) = Insert.insert (cfg.entry tag i)
          ((Finset.range cfg.filterSize).filter fun j => f.bit j = true) := by
      ext j
      rw [Finset.mem_insert, Finset.mem_filter, Finset.mem_filter, Finset.mem_range, bit_setBit,
        Bool.or_eq_true, decide_eq_true_eq]
      constructor
      · rintro ⟨hlt, hj | hj⟩
        · exact .inl hj
        · exact .inr ⟨hlt, hj⟩
      · rintro (rfl | ⟨hlt, hj⟩)
        · exact ⟨entry_lt tag i, .inl rfl⟩
        · exact ⟨hlt, .inr hj⟩
    have hpopulation : (cfg.setBit tag f i).population = f.population + 1 := by
      rw [LogTMSEConfig.setBit, if_neg hbit]
    rw [Counts, hset, hpopulation, hf, Finset.card_insert_of_notMem]
    rw [Finset.mem_filter]
    exact fun h => hbit h.2

/-- The iterations of a list set the bits of their entries. -/
lemma bit_foldl (l : List ℕ) {j : ℕ} : (l.foldl (cfg.setBit tag) f).bit j = true ↔
    (∃ i ∈ l, j = cfg.entry tag i) ∨ f.bit j = true := by
  induction l generalizing f with
  | nil => simp
  | cons i rest ih =>
    rw [List.foldl_cons, ih, bit_setBit, Bool.or_eq_true, decide_eq_true_eq]
    simp only [List.mem_cons, exists_eq_or_imp]
    rw [or_left_comm, or_assoc]

lemma Counts.insert (hf : Counts cfg f) : Counts cfg (cfg.insert f tag) := by
  have hfold : ∀ (l : List ℕ) (g : Filter), Counts cfg g →
      Counts cfg (l.foldl (cfg.setBit tag) g) := by
    intro l
    induction l with
    | nil => exact fun g hg => hg
    | cons i rest ih => exact fun g hg => ih _ (hg.setBit i)
  exact hfold _ f hf

lemma Counts.empty : Counts cfg .empty := by
  rw [Counts, Finset.filter_false_of_mem]
  · rfl
  · exact fun j _ h => Bool.false_ne_true h

/-- A tag that is inserted is found, and so are those that were found before; in particular the
assertion at the end of `AddToSet` holds. -/
lemma isIn_insert (h : t = tag ∨ cfg.isIn f t = true) : cfg.isIn (cfg.insert f tag) t = true := by
  rw [isIn, List.all_eq_true]
  intro i hi
  rw [insert, bit_foldl]
  rcases h with rfl | h
  · exact .inl ⟨i, hi, rfl⟩
  · exact .inr (List.all_eq_true.1 h i hi)

/-! ## Signatures -/

/-- The signature of a process has the accesses of its active transaction, is empty if there are
none, and counts the bits that are set. -/
structure Signed (cfg : LogTMSEConfig) (s : Signatures) (h : Pid → List (Bool × Address)) :
    Prop where
  isIn : ∀ p r a, (r, a) ∈ h p → cfg.isIn (s.filter p r) (cfg.calcTag a) = true
  empty : ∀ p r, h p = [] → s.filter p r = .empty
  counts : ∀ p r, Counts cfg (s.filter p r)

variable {h : Pid → List (Bool × Address)}

lemma filter_addToSet : (cfg.addToSet s pid addr read).filter p r =
    if p = pid ∧ r = read then cfg.insert (s.filter p r) (cfg.calcTag addr) else s.filter p r := by
  by_cases hp : p = pid
  · subst hp
    cases read <;> cases r <;> simp [addToSet, Signatures.filter]
  · cases read <;> cases r <;> simp [addToSet, Signatures.filter, hp]

lemma filter_clearCollisionData : (s.clearCollisionData pid).filter p r =
    if p = pid then .empty else s.filter p r := by
  by_cases hp : p = pid
  · subst hp
    cases r <;> simp [Signatures.clearCollisionData, Signatures.filter]
  · cases r <;> simp [Signatures.clearCollisionData, Signatures.filter, hp]

lemma Signed.new : Signed cfg .new fun _ => [] where
  isIn _ _ _ ha := nomatch ha
  empty _ r _ := by cases r <;> rfl
  counts _ r := by cases r <;> exact .empty

lemma Signed.addToSet (hs : Signed cfg s h) : Signed cfg (cfg.addToSet s pid addr read)
    (Function.update h pid (h pid ++ [(read, addr)])) := by
  refine ⟨fun p r a ha => ?_, fun p r hnil => ?_, fun p r => ?_⟩
  · rw [filter_addToSet]
    by_cases hp : p = pid
    · subst hp
      rw [Function.update_self, List.mem_append, List.mem_singleton, Prod.mk.injEq] at ha
      rcases ha with hold | ⟨rfl, rfl⟩
      · split
        · exact isIn_insert (.inr (hs.isIn p r a hold))
        · exact hs.isIn p r a hold
      · rw [if_pos ⟨rfl, rfl⟩]
        exact isIn_insert (.inl rfl)
    · rw [Function.update_of_ne hp] at ha
      rw [if_neg fun hcon => hp hcon.1]
      exact hs.isIn p r a ha
  · rw [filter_addToSet]
    by_cases hp : p = pid
    · rw [hp, Function.update_self] at hnil
      cases List.append_ne_nil_of_right_ne_nil _ (List.cons_ne_nil _ _) hnil
    · rw [Function.update_of_ne hp] at hnil
      rw [if_neg fun hcon => hp hcon.1]
      exact hs.empty p r hnil
  · rw [filter_addToSet]
    split
    · exact (hs.counts p r).insert
    · exact hs.counts p r

lemma Signed.clear (hs : Signed cfg s h) :
    Signed cfg (s.clearCollisionData pid) (Function.update h pid []) := by
  refine ⟨fun p r a ha => ?_, fun p r hnil => ?_, fun p r => ?_⟩
  · rw [filter_clearCollisionData]
    by_cases hp : p = pid
    · rw [hp, Function.update_self] at ha
      cases ha
    · rw [Function.update_of_ne hp] at ha
      rw [if_neg hp]
      exact hs.isIn p r a ha
  · rw [filter_clearCollisionData]
    split
    · rfl
    · rename_i hp
      rw [Function.update_of_ne hp] at hnil
      exact hs.empty p r hnil
  · rw [filter_clearCollisionData]
    split
    · exact .empty
    · exact hs.counts p r

lemma signed_of_run {es : List Execution} {s : TableState Signatures}
    (hrun : cfg.logTMSE.machine.Run es s) : Signed cfg s.table (accesses es) :=
  TableDetection.table_invariant .new (fun _ _ _ _ _ _ hs => hs.addToSet)
    (fun _ _ _ _ hs => hs.clear) hrun

end LogTMSEConfig

end Sesc.Trans
