import Sesc.Lib.ListSet
import Sesc.Trans.PerfectDetection

/-!
# What `PerfectCollisionDetection` does with an instruction

The lines that its loops look at, the collisions that are fetched, and what an execution does to
the table of active transactions.
-/

namespace Sesc.Trans

open Lib

/-! ## The lines of an access -/

/-- The access has a byte in the line. -/
def Touches (lineSize : ℕ) (address : Address) (size : ℕ) (line : Address) : Prop :=
  ∃ i < size, calcLineAddr lineSize (address + i) = line

lemma calcLineAddr_eq (lineSize : ℕ) (a : Address) :
    calcLineAddr lineSize a = lineSize * (a / lineSize) := by
  rw [calcLineAddr]
  exact Nat.sub_eq_of_eq_add (Nat.div_add_mod a lineSize).symm

lemma calcLineAddr_mono (lineSize : ℕ) {a b : Address} (h : a ≤ b) :
    calcLineAddr lineSize a ≤ calcLineAddr lineSize b := by
  rw [calcLineAddr_eq, calcLineAddr_eq]
  exact Nat.mul_le_mul_left _ (Nat.div_le_div_right h)

/-- Among addresses in ascending order, the loop looks at all lines but the one it begins with. -/
lemma mem_linesFrom {lineSize : ℕ} {l : List Address} {last line : Address}
    (hsorted : l.Pairwise (· ≤ ·)) (hlast : ∀ a ∈ l, last ≤ calcLineAddr lineSize a) :
    line ∈ linesFrom lineSize l last ↔ line ≠ last ∧ ∃ a ∈ l, calcLineAddr lineSize a = line := by
  induction l generalizing last with
  | nil => simp [linesFrom]
  | cons a l ih =>
    obtain ⟨ha, hsorted⟩ := List.pairwise_cons.1 hsorted
    rw [linesFrom]
    split
    · -- the byte is in the line of the byte before
      rename_i heq
      rw [ih hsorted fun b hb => hlast b (List.mem_cons_of_mem a hb)]
      refine and_congr_right fun hne => ?_
      simp only [List.mem_cons, exists_eq_or_imp]
      exact (or_iff_right fun h => hne (h.symm.trans heq)).symm
    · rename_i hne
      have hlt : last < calcLineAddr lineSize a :=
        Nat.lt_of_le_of_ne (hlast a List.mem_cons_self) (Ne.symm hne)
      have hle : ∀ b ∈ l, calcLineAddr lineSize a ≤ calcLineAddr lineSize b := fun b hb =>
        calcLineAddr_mono lineSize (ha b hb)
      rw [List.mem_cons, ih hsorted hle]
      simp only [List.mem_cons, exists_eq_or_imp]
      constructor
      · rintro (rfl | ⟨-, b, hb, rfl⟩)
        · exact ⟨Nat.ne_of_gt hlt, .inl rfl⟩
        · exact ⟨Nat.ne_of_gt (Nat.lt_of_lt_of_le hlt (hle b hb)), .inr ⟨b, hb, rfl⟩⟩
      · rintro ⟨-, rfl | hb⟩
        · exact .inl rfl
        · by_cases h : line = calcLineAddr lineSize a
          · exact .inl h
          · exact .inr ⟨h, hb⟩

/-- The loops look at the lines of an access, but never at the line 0. -/
lemma mem_accessLines {lineSize : ℕ} {address : Address} {size : ℕ} {line : Address} :
    line ∈ accessLines lineSize address size ↔ line ≠ 0 ∧ Touches lineSize address size line := by
  have hsorted : ((List.range size).map (address + ·)).Pairwise (· ≤ ·) := by
    rw [List.pairwise_map]
    exact List.pairwise_lt_range.imp fun h => Nat.add_le_add_left (Nat.le_of_lt h) _
  rw [accessLines, mem_linesFrom hsorted fun _ _ => Nat.zero_le _]
  simp [Touches]

/-! ## The table of active transactions -/

namespace TransData

variable {t : TransData} {read r : Bool} {line : Address} {lines : List Address}

lemma mem_lines_insert :
    line ∈ (t.insert read lines).lines r ↔ line ∈ t.lines r ∨ r = read ∧ line ∈ lines := by
  cases read <;> cases r <;> simp [insert, TransData.lines, List.mem_union_iff]

@[simp] lemma pid_insert : (t.insert read lines).pid = t.pid := by
  cases read <;> rfl

@[simp] lemma transLevel_insert : (t.insert read lines).transLevel = t.transLevel := by
  cases read <;> rfl

@[simp] lemma parentLevel_insert : (t.insert read lines).parentLevel = t.parentLevel := by
  cases read <;> rfl

end TransData

namespace Perfect

variable {lineSize : ℕ} {s s' : Perfect} {t : TransData} {level : Level} {pid : Pid}
  {i : Instruction} {cs : List Collision}

lemma find_eq_some (h : s.find level = some t) : t ∈ s.activeTransactions ∧
    t.transLevel = level :=
  ⟨List.mem_of_find?_eq_some h,
    beq_iff_eq.1 (List.find?_some (p := fun t : TransData => t.transLevel == level) h)⟩

lemma find_eq_none : s.find level = none ↔ ∀ t ∈ s.activeTransactions, t.transLevel ≠ level := by
  rw [find, List.find?_eq_none]
  exact forall₂_congr fun t _ => not_congr beq_iff_eq

/-- What finalizing an instruction does. -/
lemma finalizeInstruction_eq_ok (hfinal : s.finalizeInstruction lineSize = .ok s')
    (hcpu : s.currentCpu = some pid) :
    s.currentIsAccess = true ∧ s.oldLevel = 0 ∧ s'.activeTransactions = s.activeTransactions ∨
    s.currentIsAccess = true ∧ s.oldLevel ≠ 0 ∧ s'.activeTransactions =
      s.modify s.oldLevel (fun t =>
        t.insert s.currentIsRead (accessLines lineSize s.currentAddr s.currentAccessSize)) ∨
    s.currentIsAccess = false ∧ s.opCode = .transBegin ∧ s.find s.newLevel = none ∧
      s'.activeTransactions = s.activeTransactions ++
        [{ pid := pid, transLevel := s.newLevel, parentLevel := s.oldLevel, readSet := []
           writeSet := [] }] ∨
    s.currentIsAccess = false ∧ s.opCode ≠ .transBegin ∧ ∃ t, s.find s.oldLevel = some t ∧
      t.pid = pid ∧ s'.activeTransactions =
        (if s.opCode = .transEnd then s.promote t else s.activeTransactions).filter
          fun t => t.transLevel ≠ s.oldLevel := by
  rw [finalizeInstruction, hcpu] at hfinal
  obtain ⟨active, hactive, hret⟩ := bind_eq_ok.1 hfinal
  cases hret
  rw [finalizeObserved] at hactive
  split at hactive
  · rename_i haccess
    split at hactive
    · rename_i hzero
      cases hactive
      exact .inl ⟨haccess, hzero, rfl⟩
    · rename_i hzero
      obtain ⟨-, hret⟩ := check_bind_eq_ok.1 hactive
      cases hret
      exact .inr (.inl ⟨haccess, hzero, rfl⟩)
  · rename_i haccess
    have haccess' := Bool.eq_false_iff.2 haccess
    split at hactive
    · rename_i hop
      obtain ⟨hnone, hret⟩ := check_bind_eq_ok.1 hactive
      cases hret
      exact .inr (.inr (.inl ⟨haccess', hop, hnone, rfl⟩))
    · rename_i op hop
      split at hactive
      · cases hactive
      · rename_i t ht
        obtain ⟨hpid, hret⟩ := check_bind_eq_ok.1 hactive
        cases hret
        exact .inr (.inr (.inr ⟨haccess', hop, t, ht, hpid, rfl⟩))

/-! ## The collisions that are fetched -/

/-- What a report says to the manager. -/
def collision (s : Perfect) (pid : Pid) (c : CollisionReport) : Collision where
  localPid := pid
  localLevel := s.oldLevel
  localIsDetermined := true
  localIsRead := s.currentIsRead
  enemyPid := c.enemyPid
  enemyLevel := c.enemyLevel
  enemyIsDetermined := true
  enemyIsRead := c.enemyIsRead

lemma fetchCollisions_eq (hpid : s.currentCpu = some pid) (n : ℕ)
    (hn : s.collisionIndex + n = s.collisionSet.length) :
    (detection lineSize).fetchCollisions n s =
      .ok ((s.collisionSet.drop s.collisionIndex).map (s.collision pid),
        { s with collisionIndex := s.collisionSet.length }) := by
  induction n generalizing s with
  | zero =>
    have hdrop : s.collisionSet.drop s.collisionIndex = [] :=
      List.drop_eq_nil_of_le (Nat.le_of_eq hn.symm)
    rw [hdrop, ← hn]
    rfl
  | succ n ih =>
    have hlt : s.collisionIndex < s.collisionSet.length := by omega
    have hfetch : s.fetchCollision = .ok (s.collision pid s.collisionSet[s.collisionIndex],
        { s with collisionIndex := s.collisionIndex + 1 }) := by
      rw [fetchCollision, hpid, List.getElem?_eq_getElem hlt]
      rfl
    have hrest := ih (s := { s with collisionIndex := s.collisionIndex + 1 }) hpid
      (by dsimp only; omega)
    rw [ITMCollisionDetection.fetchCollisions]
    show (do
      let (c, s) ← s.fetchCollision
      let (cs, s) ← (detection lineSize).fetchCollisions n s
      return (c :: cs, s) : Except Fault (List Collision × Perfect)) = _
    rw [hfetch, ok_bind]
    dsimp only
    rw [hrest, ok_bind, List.drop_eq_getElem_cons hlt]
    rfl

/-- The reports of `CollisionCount`. -/
def reports (lineSize : ℕ) (s : Perfect) (pid : Pid) : List CollisionReport :=
  if s.currentIsAccess = true ∧ s.oldLevel ≠ 0 then
    (s.activeTransactions.filter fun t => t.pid ≠ pid).flatMap (s.collisionsWith lineSize)
  else []

/-- All reports are fetched. -/
lemma checkCollisions_eq (hpid : s.currentCpu = some pid) :
    (detection lineSize).checkCollisions s = .ok ((s.reports lineSize pid).map (s.collision pid),
      { s with
        collisionSet := s.reports lineSize pid
        collisionIndex := (s.reports lineSize pid).length }) := by
  have hcount : s.collisionCount lineSize = .ok ((s.reports lineSize pid).length,
      { s with collisionSet := s.reports lineSize pid, collisionIndex := 0 }) := by
    rw [collisionCount, hpid]
    rfl
  rw [ITMCollisionDetection.checkCollisions]
  show (do
    let (n, s) ← s.collisionCount lineSize
    (detection lineSize).fetchCollisions n s : Except Fault (List Collision × Perfect)) = _
  rw [hcount, ok_bind]
  exact fetchCollisions_eq (s := { s with
    collisionSet := s.reports lineSize pid, collisionIndex := 0 }) hpid _ (Nat.zero_add _)

lemma currentCpu_observe (i : Instruction) : (s.observe i).currentCpu = some i.pid := by
  cases i <;> rfl

/-- A report of the collisions with an active transaction: that it conflicts with the access in one
of the lines that are looked at. -/
lemma mem_collisionsWith {q : Pid} :
    (∃ c ∈ s.collisionsWith lineSize t, c.enemyPid = q ∧ c.enemyLevel = level) ↔
      t.pid = q ∧ t.transLevel = level ∧
        ∃ line ∈ accessLines lineSize s.currentAddr s.currentAccessSize,
          line ∈ t.lines false ∨ s.currentIsRead = false ∧ line ∈ t.lines true := by
  constructor
  · rintro ⟨c, hc, rfl, rfl⟩
    obtain ⟨line, hline, hreport⟩ := List.mem_filterMap.1 hc
    split at hreport
    · rename_i hwrite
      cases hreport
      exact ⟨rfl, rfl, line, hline, .inl hwrite⟩
    · split at hreport
      · rename_i hread
        cases hreport
        exact ⟨rfl, rfl, line, hline, .inr hread⟩
      · cases hreport
  · rintro ⟨rfl, rfl, line, hline, hconflict⟩
    by_cases hwrite : line ∈ t.writeSet
    · exact ⟨⟨t.pid, t.transLevel, false⟩,
        List.mem_filterMap.2 ⟨line, hline, if_pos hwrite⟩, rfl, rfl⟩
    · have hread := hconflict.resolve_left hwrite
      refine ⟨⟨t.pid, t.transLevel, true⟩, List.mem_filterMap.2 ⟨line, hline, ?_⟩, rfl, rfl⟩
      rw [if_neg hwrite]
      exact if_pos hread

/-- Checking for collisions leaves the active transactions and what has been observed; what is
reported is in the sets of another process. -/
lemma checkCollisions_eq_ok (hpid : s.currentCpu = some pid)
    (hcheck : (detection lineSize).checkCollisions s = .ok (cs, s')) :
    (∃ reports k, s' = { s with collisionSet := reports, collisionIndex := k }) ∧
      ∀ c ∈ cs, s.currentIsAccess = true ∧ s.oldLevel ≠ 0 ∧ ∃ t ∈ s.activeTransactions,
        t.pid ≠ pid ∧ c.enemyPid = t.pid ∧ c.enemyLevel = t.transLevel ∧
        ∃ line ∈ accessLines lineSize s.currentAddr s.currentAccessSize,
          line ∈ t.lines false ∨ s.currentIsRead = false ∧ line ∈ t.lines true := by
  rw [checkCollisions_eq hpid] at hcheck
  cases hcheck
  refine ⟨⟨_, _, rfl⟩, fun c hc => ?_⟩
  obtain ⟨r, hr, rfl⟩ := List.mem_map.1 hc
  rw [reports] at hr
  split at hr
  · rename_i hobserved
    obtain ⟨t, ht, hr⟩ := List.mem_flatMap.1 hr
    obtain ⟨ht, hne⟩ := List.mem_filter.1 ht
    obtain ⟨hq, hlevel, hline⟩ := mem_collisionsWith.1 ⟨r, hr, rfl, rfl⟩
    exact ⟨hobserved.1, hobserved.2, t, ht, of_decide_eq_true hne, hq.symm, hlevel.symm, hline⟩
  · exact absurd hr List.not_mem_nil

/-! ## Executing an instruction -/

/-- What an instruction does to the active transactions. -/
lemma execute_eq_ok {retry : Bool} (hex : (detection lineSize).execute i retry s = .ok s') :
    Execution.IsIdle ⟨i, retry⟩ ∧ s'.activeTransactions = s.activeTransactions ∨
    (∃ isRead pid trans addr size, i = .access isRead pid trans addr size ∧ retry = false ∧
      trans ≠ 0 ∧ s'.activeTransactions =
        s.modify trans fun t => t.insert isRead (accessLines lineSize addr size)) ∨
    ∃ pid old new op, i = .transaction pid old new op ∧ retry = false ∧
      (op = .transBegin ∧ s.find new = none ∧
          s'.activeTransactions = s.activeTransactions ++ [⟨pid, new, old, [], []⟩] ∨
        op ≠ .transBegin ∧ ∃ t, s.find old = some t ∧ t.pid = pid ∧ s'.activeTransactions =
          (if op = .transEnd then s.promote t else s.activeTransactions).filter
            fun t => t.transLevel ≠ old) := by
  obtain ⟨⟨cs, s₁⟩, hcheck, hex⟩ := bind_eq_ok.1 hex
  obtain ⟨⟨reports, k, hs₁⟩, -⟩ := checkCollisions_eq_ok (currentCpu_observe i) hcheck
  obtain ⟨hactive, hcpu⟩ : s₁.activeTransactions = s.activeTransactions ∧
      s₁.currentCpu = some i.pid := by
    rw [hs₁]
    cases i <;> exact ⟨rfl, rfl⟩
  have hmodify : ∀ level f, s₁.modify level f = s.modify level f := fun level f => by
    rw [modify, modify, hactive]
  have hfind : ∀ level, s₁.find level = s.find level := fun level => by rw [find, find, hactive]
  have hpromote : ∀ t, s₁.promote t = s.promote t := fun t => by
    rw [promote, promote, hactive, hmodify]
  cases retry with
  | true =>
    cases hex
    exact .inl ⟨.inl rfl, hactive⟩
  | false =>
    have hfinal : s₁.finalizeInstruction lineSize = .ok s' := hex
    cases i with
    | access isRead pid trans addr size =>
      obtain ⟨haccess, hread, htrans, haddr, hsize⟩ : s₁.currentIsAccess = true ∧
          s₁.currentIsRead = isRead ∧ s₁.oldLevel = trans ∧ s₁.currentAddr = addr ∧
          s₁.currentAccessSize = size := by
        rw [hs₁]
        exact ⟨rfl, rfl, rfl, rfl, rfl⟩
      rcases finalizeInstruction_eq_ok hfinal hcpu with ⟨-, hzero, hs'⟩ | ⟨-, hzero, hs'⟩ |
        ⟨hfalse, -⟩ | ⟨hfalse, -⟩
      · rw [htrans] at hzero
        rw [hzero]
        exact .inl ⟨.inr ⟨_, _, _, _, rfl⟩, hs'.trans hactive⟩
      · rw [hread, htrans, haddr, hsize, hmodify] at hs'
        rw [htrans] at hzero
        exact .inr (.inl ⟨isRead, pid, trans, addr, size, rfl, rfl, hzero, hs'⟩)
      · rw [haccess] at hfalse
        cases hfalse
      · rw [haccess] at hfalse
        cases hfalse
    | transaction pid old new op =>
      obtain ⟨haccess, hold, hnew, hop⟩ : s₁.currentIsAccess = false ∧ s₁.oldLevel = old ∧
          s₁.newLevel = new ∧ s₁.opCode = op := by
        rw [hs₁]
        exact ⟨rfl, rfl, rfl, rfl⟩
      refine .inr (.inr ⟨pid, old, new, op, rfl, rfl, ?_⟩)
      rcases finalizeInstruction_eq_ok hfinal hcpu with ⟨htrue, -⟩ | ⟨htrue, -⟩ |
        ⟨-, hbegin, hnone, hs'⟩ | ⟨-, hend, t, ht, hpid, hs'⟩
      · rw [haccess] at htrue
        cases htrue
      · rw [haccess] at htrue
        cases htrue
      · rw [hop] at hbegin
        rw [hnew, hfind] at hnone
        rw [hactive, hnew, hold] at hs'
        exact .inl ⟨hbegin, hnone, hs'⟩
      · rw [hop] at hend
        rw [hold, hfind] at ht
        rw [hop, hpromote, hactive, hold] at hs'
        exact .inr ⟨hend, t, ht, hpid, hs'⟩

end Perfect

end Sesc.Trans
