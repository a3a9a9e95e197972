import Mathlib.Data.Nat.Find
import Sesc.Trans.LogTM

/-!
# The conflicts that `LogTMCollisionDetectionBase` finds

The table of a process and its overflow bits account for every access of its active
transaction, and the table has no more than that.  What the writes of an enemy conflict with is
therefore found; what its reads conflict with is found only where the overflow bit is set.
-/

namespace Sesc.Trans

open Lib

namespace LogTMConfig

variable {cfg : LogTMConfig} {s s' : LogTM} {pid p : Pid} {tag t : ℕ} {addr : Address}
  {read r : Bool}

/-! ## Adding a tag to the table -/

/-- Whether the table of a process has a tag with the flag for reads or writes. -/
def hasTag (cfg : LogTMConfig) (s : LogTM) (pid : Pid) (tag : ℕ) (read : Bool) : Bool :=
  match (List.range cfg.associativity).find? fun i =>
      (cfg.getDataEntry s pid tag i).valid && (cfg.getDataEntry s pid tag i).tag == tag with
  | some i => (cfg.getDataEntry s pid tag i).flag read
  | none => false

lemma isInSet_eq : cfg.isInSet s pid addr read = cfg.hasTag s pid (cfg.calcTag addr) read := rfl

/-- The ways of a set are taken in order, and an entry that is not valid has no flag. -/
structure WellFormed (s : LogTM) : Prop where
  ways : ∀ p i j w, i < j → (s.collisionVector p j w).valid = true →
    (s.collisionVector p i w).valid = true
  clear : ∀ p i w r, (s.collisionVector p i w).valid = false →
    (s.collisionVector p i w).flag r = false

lemma hasTag_of_find {i : ℕ} (hi : i < cfg.associativity)
    (hentry : (cfg.getDataEntry s pid tag i).valid = true ∧
      (cfg.getDataEntry s pid tag i).tag = tag)
    (hfirst : ∀ j, j < i → ¬((cfg.getDataEntry s pid tag j).valid = true ∧
      (cfg.getDataEntry s pid tag j).tag = tag)) :
    cfg.hasTag s pid tag read = (cfg.getDataEntry s pid tag i).flag read := by
  have hfind : ((List.range cfg.associativity).find? fun i =>
      (cfg.getDataEntry s pid tag i).valid && (cfg.getDataEntry s pid tag i).tag == tag) =
        some i := by
    rw [List.find?_range_eq_some]
    refine ⟨by simp [hentry], List.mem_range.2 hi, fun j hj => ?_⟩
    have := hfirst j hj
    simp only [Bool.not_eq_true', Bool.and_eq_false_iff, beq_eq_false_iff_ne]
    by_contra hcon
    rw [not_or, Bool.not_eq_false, not_not] at hcon
    exact this hcon
  rw [hasTag, hfind]

lemma hasTag_of_absent (habsent : ∀ j, j < cfg.associativity →
    ¬((cfg.getDataEntry s pid tag j).valid = true ∧ (cfg.getDataEntry s pid tag j).tag = tag)) :
    cfg.hasTag s pid tag read = false := by
  have hfind : ((List.range cfg.associativity).find? fun i =>
      (cfg.getDataEntry s pid tag i).valid && (cfg.getDataEntry s pid tag i).tag == tag) =
        none := by
    rw [List.find?_range_eq_none]
    intro j hj
    have := habsent j hj
    simp only [Bool.not_eq_true', Bool.and_eq_false_iff, beq_eq_false_iff_ne]
    by_contra hcon
    rw [not_or, Bool.not_eq_false, not_not] at hcon
    exact this hcon
  rw [hasTag, hfind]

/-- A tag keeps its flags as long as the entries of its set agree with the old ones up to entries
of other tags. -/
lemma hasTag_congr (h : ∀ i, i < cfg.associativity →
    cfg.getDataEntry s' p t i = cfg.getDataEntry s p t i ∨
      ¬((cfg.getDataEntry s p t i).valid = true ∧ (cfg.getDataEntry s p t i).tag = t) ∧
      ¬((cfg.getDataEntry s' p t i).valid = true ∧ (cfg.getDataEntry s' p t i).tag = t)) :
    cfg.hasTag s' p t r = cfg.hasTag s p t r := by
  by_cases hsome : ∃ i, i < cfg.associativity ∧ (cfg.getDataEntry s p t i).valid = true ∧
      (cfg.getDataEntry s p t i).tag = t
  · -- the first way with the tag is the same
    classical
    obtain ⟨hi, hentry⟩ := Nat.find_spec hsome
    have hfirst : ∀ j, j < Nat.find hsome → ¬((cfg.getDataEntry s p t j).valid = true ∧
        (cfg.getDataEntry s p t j).tag = t) := fun j hj hcon =>
      Nat.find_min hsome hj ⟨lt_trans hj hi, hcon⟩
    have heq := (h _ hi).resolve_right fun hne => hne.1 hentry
    rw [hasTag_of_find hi hentry hfirst, hasTag_of_find hi (heq ▸ hentry), heq]
    intro j hj hcon
    rcases h j (lt_trans hj hi) with hsame | ⟨-, hne⟩
    · rw [hsame] at hcon
      exact hfirst j hj hcon
    · exact hne hcon
  · have habsent : ∀ j, j < cfg.associativity → ¬((cfg.getDataEntry s p t j).valid = true ∧
        (cfg.getDataEntry s p t j).tag = t) := fun j hj hcon => hsome ⟨j, hj, hcon⟩
    rw [hasTag_of_absent habsent, hasTag_of_absent]
    intro j hj hcon
    rcases h j hj with hsame | ⟨-, hne⟩
    · rw [hsame] at hcon
      exact habsent j hj hcon
    · exact hne hcon

lemma collisionVector_setDataEntry {i k w : ℕ} {e : CollisionDataEntry} :
    (cfg.setDataEntry s pid tag k e).collisionVector p i w =
      if p = pid ∧ i = k ∧ w = cfg.setOf tag then e else s.collisionVector p i w := by
  rw [setDataEntry]
  dsimp only
  by_cases hp : p = pid
  · by_cases hi : i = k
    · by_cases hw : w = cfg.setOf tag
      · rw [if_pos ⟨hp, hi, hw⟩, hp, hi, hw, Function.update_self, Function.update_self,
          Function.update_self]
      · rw [if_neg (by simp [hw]), hp, hi, Function.update_self, Function.update_self,
          Function.update_of_ne hw]
    · rw [if_neg (by simp [hi]), hp, Function.update_self, Function.update_of_ne hi]
  · rw [if_neg (by simp [hp]), Function.update_of_ne hp]

lemma flag_take_setFlag (e : CollisionDataEntry) (tag : ℕ) (read r : Bool) :
    ((e.take tag).setFlag read).flag r = (decide (r = read) || e.flag r) := by
  rw [CollisionDataEntry.take]
  split <;> cases read <;> cases r <;> rfl

lemma valid_take_setFlag {e : CollisionDataEntry} (read : Bool)
    (h : e.valid = true → e.tag = tag) :
    ((e.take tag).setFlag read).valid = true ∧ ((e.take tag).setFlag read).tag = tag := by
  rw [CollisionDataEntry.take]
  split
  · rename_i hvalid
    cases read <;> exact ⟨hvalid, h hvalid⟩
  · cases read <;> exact ⟨rfl, rfl⟩

variable (cfg) in
/-- `AddToSet` on the table: the tag gets the flag, unless the set is full. -/
lemma addToSet_eq (hs : WellFormed s) (pid : Pid) (addr : Address) (read : Bool) :
    (∃ s', cfg.addToSet s pid addr read = s' ∧ WellFormed s' ∧ s'.overflow = s.overflow ∧
      ∀ p t r, cfg.hasTag s' p t r = true ↔
        p = pid ∧ t = cfg.calcTag addr ∧ r = read ∨ cfg.hasTag s p t r = true) ∨
    ∃ o, cfg.addToSet s pid addr read = { s with overflow := o } ∧
      (∀ p w, s.overflow p w = true → o p w = true) ∧
      o pid (cfg.setOf (cfg.calcTag addr)) = true := by
  rw [addToSet]
  generalize htag : cfg.calcTag addr = tag
  rcases hfind : (List.range cfg.associativity).find? fun i =>
      !(cfg.getDataEntry s pid tag i).valid || (cfg.getDataEntry s pid tag i).tag == tag with
    _ | k
  · -- no way is left for the tag
    right
    dsimp only
    split
    · rename_i hover
      refine ⟨s.overflow, rfl, fun _ _ h => h, ?_⟩
      rw [isOverflown, htag] at hover
      exact hover
    · split
      · refine ⟨_, rfl, fun p w h => ?_, ?_⟩
        · by_cases hp : p = pid
          · subst hp
            rw [Function.update_self]
            by_cases hw : w = cfg.setOf tag
            · rw [hw, Function.update_self]
            · rw [Function.update_of_ne hw]
              exact h
          · rw [Function.update_of_ne hp]
            exact h
        · rw [Function.update_self, Function.update_self]
      · refine ⟨_, rfl, fun p w h => ?_, ?_⟩
        · by_cases hp : p = pid
          · rw [hp, Function.update_self]
          · rw [Function.update_of_ne hp]
            exact h
        · rw [Function.update_self]
  · left
    rw [List.find?_range_eq_some] at hfind
    obtain ⟨hk, hmem, hbefore⟩ := hfind
    have hlt := List.mem_range.1 hmem
    have hbefore' : ∀ j, j < k → (cfg.getDataEntry s pid tag j).valid = true ∧
        (cfg.getDataEntry s pid tag j).tag ≠ tag := by
      intro j hj
      have := hbefore j hj
      simpa using this
    have hold : (cfg.getDataEntry s pid tag k).valid = true →
        (cfg.getDataEntry s pid tag k).tag = tag := by
      intro hvalid
      rw [hvalid, Bool.not_true, Bool.false_or, beq_iff_eq] at hk
      exact hk
    have hvalid := valid_take_setFlag read hold
    have hflag := flag_take_setFlag (cfg.getDataEntry s pid tag k) tag read
    dsimp only
    generalize ((cfg.getDataEntry s pid tag k).take tag).setFlag read = e at hvalid hflag ⊢
    have hentry : ∀ p t i, cfg.getDataEntry (cfg.setDataEntry s pid tag k e) p t i =
        if p = pid ∧ i = k ∧ cfg.setOf t = cfg.setOf tag then e else cfg.getDataEntry s p t i :=
      fun _ _ _ => collisionVector_setDataEntry
    refine ⟨_, rfl, ⟨fun p i j w hij hj => ?_, fun p i w r hi => ?_⟩, rfl, fun p t r => ?_⟩
    · rw [collisionVector_setDataEntry] at hj ⊢
      split
      · exact hvalid.1
      · split at hj
        · rename_i hmatch
          obtain ⟨rfl, rfl, rfl⟩ := hmatch
          exact (hbefore' i hij).1
        · exact hs.ways p i j w hij hj
    · rw [collisionVector_setDataEntry] at hi ⊢
      split at hi
      · rw [hvalid.1] at hi
        cases hi
      · rename_i hmatch
        rw [if_neg hmatch]
        exact hs.clear p i w r hi
    · by_cases hpt : p = pid ∧ t = tag
      · -- the tag is found in the way that has been written
        obtain ⟨rfl, rfl⟩ := hpt
        have hafter : cfg.hasTag (cfg.setDataEntry s p t k e) p t r = e.flag r := by
          have hself : cfg.getDataEntry (cfg.setDataEntry s p t k e) p t k = e := by
            rw [hentry, if_pos ⟨rfl, rfl, rfl⟩]
          rw [hasTag_of_find hlt (by rw [hself]; exact hvalid), hself]
          intro j hj hcon
          rw [hentry, if_neg (by simp [Nat.ne_of_lt hj])] at hcon
          exact (hbefore' j hj).2 hcon.2
        have hbefore'' : cfg.hasTag s p t r = (cfg.getDataEntry s p t k).flag r := by
          rcases hfree : (cfg.getDataEntry s p t k).valid with _ | _
          · have hclear : (cfg.getDataEntry s p t k).flag r = false := hs.clear p k _ r hfree
            rw [hclear, hasTag_of_absent]
            intro j hj hcon
            rcases lt_trichotomy j k with hjk | rfl | hjk
            · exact (hbefore' j hjk).2 hcon.2
            · exact Bool.false_ne_true (hfree.symm.trans hcon.1)
            · exact Bool.false_ne_true (hfree.symm.trans (hs.ways p k j _ hjk hcon.1))
          · exact hasTag_of_find hlt ⟨hfree, hold hfree⟩ fun j hj hcon =>
              (hbefore' j hj).2 hcon.2
        rw [hafter, hflag, hbefore'', Bool.or_eq_true, decide_eq_true_eq]
        constructor
        · rintro (h | h)
          · exact .inl ⟨rfl, rfl, h⟩
          · exact .inr h
        · rintro (⟨-, -, h⟩ | h)
          · exact .inl h
          · exact .inr h
      · -- the way that has been written did not and does not have the tag
        have hsame : cfg.hasTag (cfg.setDataEntry s pid tag k e) p t r = cfg.hasTag s p t r := by
          refine hasTag_congr fun i hi => ?_
          rw [hentry]
          split
          · rename_i hmatch
            obtain ⟨rfl, rfl, hset⟩ := hmatch
            have hne : t ≠ tag := fun h => hpt ⟨rfl, h⟩
            refine .inr ⟨fun hcon => ?_, fun hcon => hne (hcon.2.symm.trans hvalid.2)⟩
            have hcon' : (cfg.getDataEntry s p tag i).valid = true ∧
                (cfg.getDataEntry s p tag i).tag = t := by
              rw [getDataEntry, ← hset]
              exact hcon
            exact hne (hcon'.2.symm.trans (hold hcon'.1))
          · exact .inl rfl
        rw [hsame]
        constructor
        · exact .inr
        · rintro (⟨hp, ht, -⟩ | h)
          · exact absurd ⟨hp, ht⟩ hpt
          · exact h

/-! ## Runs -/

/-- The tables of the processes account for their accesses. -/
structure Tracks (cfg : LogTMConfig) (s : LogTM) (h : Pid → List (Bool × Address)) : Prop where
  wellFormed : WellFormed s
  sound : ∀ p r a, (r, a) ∈ h p → cfg.hasTag s p (cfg.calcTag a) r = true ∨
    s.overflow p (cfg.setOf (cfg.calcTag a)) = true
  exact : ∀ p t r, cfg.hasTag s p t r = true → ∃ a, (r, a) ∈ h p ∧ cfg.calcTag a = t

variable {h : Pid → List (Bool × Address)}

lemma Tracks.new : Tracks cfg .new fun _ => [] where
  wellFormed := ⟨fun _ _ _ _ _ h => h, fun _ _ _ r _ => by cases r <;> rfl⟩
  sound _ _ _ ha := nomatch ha
  exact p t r ht := by
    have hnone : cfg.hasTag .new p t r = false :=
      hasTag_of_absent fun j _ hcon => Bool.false_ne_true hcon.1
    rw [hnone] at ht
    cases ht

/-- An access is accounted for by the table or by an overflow bit. -/
lemma Tracks.addToSet (hs : Tracks cfg s h) : Tracks cfg (cfg.addToSet s pid addr read)
    (Function.update h pid (h pid ++ [(read, addr)])) := by
  have hmem : ∀ p r a, (r, a) ∈ Function.update h pid (h pid ++ [(read, addr)]) p ↔
      (r, a) ∈ h p ∨ p = pid ∧ r = read ∧ a = addr := by
    intro p r a
    by_cases hp : p = pid
    · subst hp
      rw [Function.update_self, List.mem_append, List.mem_singleton, Prod.mk.injEq]
      simp
    · rw [Function.update_of_ne hp]
      simp [hp]
  rcases cfg.addToSet_eq hs.wellFormed pid addr read with
    ⟨s', heq, hwf, hoverflow, htag⟩ | ⟨o, heq, hkept, hset⟩
  · rw [heq]
    refine ⟨hwf, fun p r a ha => ?_, fun p t r ht => ?_⟩
    · rw [htag, hoverflow]
      rcases (hmem p r a).1 ha with hold | ⟨rfl, rfl, rfl⟩
      · exact (hs.sound p r a hold).imp_left .inr
      · exact .inl (.inl ⟨rfl, rfl, rfl⟩)
    · rcases (htag p t r).1 ht with ⟨rfl, rfl, rfl⟩ | hold
      · exact ⟨addr, (hmem p r addr).2 (.inr ⟨rfl, rfl, rfl⟩), rfl⟩
      · obtain ⟨a, ha, hat⟩ := hs.exact p t r hold
        exact ⟨a, (hmem p r a).2 (.inl ha), hat⟩
  · rw [heq]
    refine ⟨⟨hs.wellFormed.ways, hs.wellFormed.clear⟩, fun p r a ha => ?_, fun p t r ht => ?_⟩
    · rcases (hmem p r a).1 ha with hold | ⟨rfl, rfl, rfl⟩
      · exact (hs.sound p r a hold).imp id (hkept p _)
      · exact .inr hset
    · obtain ⟨a, ha, hat⟩ := hs.exact p t r ht
      exact ⟨a, (hmem p r a).2 (.inl ha), hat⟩

lemma Tracks.clear (hs : Tracks cfg s h) :
    Tracks cfg (s.clearCollisionData pid) (Function.update h pid []) := by
  have hvector : ∀ p i w, (s.clearCollisionData pid).collisionVector p i w =
      if p = pid then .clear else s.collisionVector p i w := by
    intro p i w
    rw [LogTM.clearCollisionData]
    dsimp only
    by_cases hp : p = pid
    · rw [if_pos hp, hp, Function.update_self]
    · rw [if_neg hp, Function.update_of_ne hp]
  have htag : ∀ p t r, cfg.hasTag (s.clearCollisionData pid) p t r =
      if p = pid then false else cfg.hasTag s p t r := by
    intro p t r
    by_cases hp : p = pid
    · rw [if_pos hp]
      refine hasTag_of_absent fun j _ hcon => ?_
      rw [getDataEntry, hvector, if_pos hp] at hcon
      exact Bool.false_ne_true hcon.1
    · rw [if_neg hp]
      refine hasTag_congr fun j _ => .inl ?_
      rw [getDataEntry, getDataEntry, hvector, if_neg hp]
  refine ⟨⟨fun p i j w hij hj => ?_, fun p i w r hi => ?_⟩, fun p r a ha => ?_, fun p t r ht => ?_⟩
  · rw [hvector] at hj ⊢
    split at hj
    · cases hj
    · rename_i hp
      rw [if_neg hp]
      exact hs.wellFormed.ways p i j w hij hj
  · rw [hvector] at hi ⊢
    split
    · cases r <;> rfl
    · rename_i hp
      rw [if_neg hp] at hi
      exact hs.wellFormed.clear p i w r hi
  · by_cases hp : p = pid
    · rw [hp, Function.update_self] at ha
      cases ha
    · rw [Function.update_of_ne hp] at ha
      rw [htag, if_neg hp, LogTM.clearCollisionData]
      dsimp only
      rw [Function.update_of_ne hp]
      exact hs.sound p r a ha
  · rw [htag] at ht
    split at ht
    · cases ht
    · rename_i hp
      rw [Function.update_of_ne hp]
      exact hs.exact p t r ht

lemma tracks_of_run {es : List Execution} {s : TableState LogTM}
    (hrun : cfg.logTM.machine.Run es s) : Tracks cfg s.table (accesses es) :=
  TableDetection.table_invariant .new (fun _ _ _ _ _ _ hs => hs.addToSet)
    (fun _ _ _ _ hs => hs.clear) hrun

/-! ## Conflicts -/

/-- An access conflicts with the active transaction of a process that has written the line, or
has read it if the access is a write. -/
def Conflicts (lineSize : ℕ) (es : List Execution) (enemy : Pid) (isRead : Bool)
    (addr : Address) : Prop :=
  HasAccessed lineSize es enemy false addr ∨
    isRead = false ∧ HasAccessed lineSize es enemy true addr

/-- The tables have what a process has written, and have it as written only then. -/
lemma Tracks.hasAccessed {es : List Execution} (hs : Tracks cfg s (accesses es))
    (h : HasAccessed cfg.lineSize es pid read addr) :
    cfg.isInSet s pid addr read = true ∨ cfg.isOverflown s pid addr = true := by
  obtain ⟨a, ha, hline⟩ := h
  have htag : cfg.calcTag a = cfg.calcTag addr := hline
  rw [isInSet_eq, isOverflown, ← htag]
  exact hs.sound pid read a ha

lemma Tracks.hasAccessed_of_isInSet {es : List Execution} (hs : Tracks cfg s (accesses es))
    (h : cfg.isInSet s pid addr read = true) : HasAccessed cfg.lineSize es pid read addr := by
  rw [isInSet_eq] at h
  obtain ⟨a, ha, hline⟩ := hs.exact pid _ read h
  exact ⟨a, ha, hline⟩

lemma existsCollision_eq_true {isRead : Bool} : cfg.existsCollision s pid addr isRead = true ↔
    cfg.isOverflown s pid addr = true ∨ cfg.isInSet s pid addr false = true ∨
      isRead = true ∧ cfg.isInSet s pid addr true = true := by
  cases isRead <;> simp [existsCollision, or_assoc]

/-- Every conflict of an access is reported if and only if, where the access is a write to a
line that an enemy has only read, the overflow bit of the enemy is set. -/
theorem conflicts_reported_iff (cfg : LogTMConfig) (es : List Execution) (s : TableState LogTM)
    (hrun : cfg.logTM.machine.Run es s) (isRead : Bool) (pid : Pid) (trans : Level)
    (addr : Address) (size : ℕ) (htrans : trans ≠ 0) (hcur : s.currentTransaction pid = trans) :
    (∀ enemy, enemy < cfg.procCount → enemy ≠ pid → s.currentTransaction enemy ≠ 0 →
      Conflicts cfg.lineSize es enemy isRead addr →
        cfg.logTM.Reports s (.access isRead pid trans addr size) enemy) ↔
      ∀ enemy, enemy < cfg.procCount → enemy ≠ pid → s.currentTransaction enemy ≠ 0 →
        isRead = false → HasAccessed cfg.lineSize es enemy true addr →
          HasAccessed cfg.lineSize es enemy false addr ∨
            cfg.isOverflown s.table enemy addr = true := by
  have htracks := tracks_of_run hrun
  refine forall₄_congr fun enemy hlt hne hactive => ?_
  rw [TableDetection.reports_access htrans hcur]
  have hexists : cfg.logTM.existsCollision s.table enemy addr isRead =
      cfg.existsCollision s.table enemy addr isRead := rfl
  constructor
  · rintro h rfl hread
    obtain ⟨-, -, -, hcollision⟩ := h (.inr ⟨rfl, hread⟩)
    rw [hexists, existsCollision_eq_true] at hcollision
    rcases hcollision with hover | hwrite | ⟨hfalse, -⟩
    · exact .inr hover
    · exact .inl (htracks.hasAccessed_of_isInSet hwrite)
    · cases hfalse
  · intro h hconflict
    refine ⟨hlt, hne.symm, hactive, ?_⟩
    rw [hexists, existsCollision_eq_true]
    have hwritten : HasAccessed cfg.lineSize es enemy false addr ∨
        cfg.isOverflown s.table enemy addr = true := by
      rcases hconflict with hwrite | ⟨hfalse, hread⟩
      · exact .inl hwrite
      · exact h hfalse hread
    rcases hwritten with hwrite | hover
    · rcases htracks.hasAccessed hwrite with hset | hover
      · exact .inr (.inl hset)
      · exact .inl hover
    · exact .inl hover

/-! ### A write to a line that has been read

Process 0 reads line 0 in a transaction, and process 1 begins a transaction. -/

def twoProcesses : LogTMConfig where
  associativity := 1
  cacheWidth := 1
  lineSize := 64
  setSpecificOverflow := false
  procCount := 2

def readRun : List Execution :=
  [⟨.transaction 0 0 1 .transBegin, false⟩, ⟨.access true 0 1 0 4, false⟩,
    ⟨.transaction 1 0 2 .transBegin, false⟩]

lemma readRun_reached : ∃ s, twoProcesses.logTM.machine.Run readRun s ∧
    s.currentTransaction 0 = 1 ∧ s.currentTransaction 1 = 2 ∧
    twoProcesses.existsCollision s.table 0 0 false = false := by
  have hrun : succeeds (twoProcesses.logTM.machine.exec twoProcesses.logTM.machine.init readRun)
      (fun s => decide (s.currentTransaction 0 = 1 ∧ s.currentTransaction 1 = 2 ∧
        twoProcesses.existsCollision s.table 0 0 false = false)) = true := by
    decide +kernel
  obtain ⟨s, hs, htest⟩ := succeeds_iff.1 hrun
  exact ⟨s, Machine.run_of_exec hs, of_decide_eq_true htest⟩

/-- Process 1 writes the line; nothing is reported. -/
theorem not_conflicts_reported_of_read : ∃ s, twoProcesses.logTM.machine.Run readRun s ∧
    s.currentTransaction 1 = 2 ∧ s.currentTransaction 0 ≠ 0 ∧
    Conflicts twoProcesses.lineSize readRun 0 false 0 ∧
    ¬twoProcesses.logTM.Reports s (.access false 1 2 0 4) 0 := by
  obtain ⟨s, hs, hcur₀, hcur₁, hnone⟩ := readRun_reached
  refine ⟨s, hs, hcur₁, by rw [hcur₀]; exact Nat.one_ne_zero, .inr ⟨rfl, 0, .head _, rfl⟩, ?_⟩
  rw [TableDetection.reports_access (by decide) hcur₁]
  rintro ⟨-, -, -, hcollision⟩
  exact Bool.false_ne_true (hnone.symm.trans hcollision)

theorem conflicts_reported_iff_readRun : ∃ s, twoProcesses.logTM.machine.Run readRun s ∧
    ((∀ enemy, enemy < 2 → enemy ≠ 1 → s.currentTransaction enemy ≠ 0 →
      Conflicts 64 readRun enemy false 0 →
        twoProcesses.logTM.Reports s (.access false 1 2 0 4) enemy) ↔
      ∀ enemy, enemy < 2 → enemy ≠ 1 → s.currentTransaction enemy ≠ 0 →
        false = false → HasAccessed 64 readRun enemy true 0 →
          HasAccessed 64 readRun enemy false 0 ∨
            twoProcesses.isOverflown s.table enemy 0 = true) := by
  obtain ⟨s, hs, -, hcur₁, -⟩ := readRun_reached
  exact ⟨s, hs, conflicts_reported_iff twoProcesses readRun s hs false 1 2 0 4 (by decide) hcur₁⟩

end LogTMConfig

end Sesc.Trans
