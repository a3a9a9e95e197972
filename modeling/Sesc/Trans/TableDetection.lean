import Sesc.Trans.Instruction

/-!
# Collision detections with a table for each process

`LogTMCollisionDetectionBase` and `LogTMSECollisionDetectionBase` have the same registers and
the same code, but for the tables in which they keep what a process has accessed.
-/

namespace Sesc.Trans

open Lib

/-- The operations on the tables of all processes. -/
structure TableDetection (τ : Type*) where
  procCount : ℕ
  /-- The tables after `Initialize`. -/
  init : τ
  addToSet : τ → Pid → Address → Bool → τ
  clearCollisionData : τ → Pid → τ
  existsCollision : τ → Pid → Address → Bool → Bool

/-- The registers and the tables.  `lastPid` is none where the source has -1. -/
structure TableState (τ : Type*) where
  lastAddress : Address
  lastTransID : Level
  newTransID : Level
  transOpCode : TMOpCode
  lastPid : Option Pid
  isRead : Bool
  isAccess : Bool
  collisionIndex : ℕ
  collisionPids : List Pid
  currentTransaction : Pid → Level
  table : τ

namespace TableState

variable {τ : Type*} (s : TableState τ)

/-- `ObserveAccess` and `ObserveTransactionInst`. -/
def observe (i : Instruction) : TableState τ :=
  match i with
  | .access isRead pid transactionEntry address _ =>
    { s with
      isAccess := true
      lastPid := some pid
      isRead := isRead
      lastTransID := transactionEntry
      lastAddress := address }
  | .transaction pid oldLevel newLevel opCode =>
    { s with
      isAccess := false
      lastPid := some pid
      lastTransID := oldLevel
      newTransID := newLevel
      transOpCode := opCode }

/-- The result of `FetchCollision` for an enemy. -/
def collision (pid enemy : Pid) : Collision where
  localPid := pid
  localLevel := s.currentTransaction pid
  localIsDetermined := true
  localIsRead := s.isRead
  enemyPid := enemy
  enemyLevel := s.currentTransaction enemy
  enemyIsDetermined := false
  enemyIsRead := false

/-- `FetchCollision`. -/
def fetchCollision : Except Fault (Collision × TableState τ) :=
  match s.lastPid, s.collisionPids[s.collisionIndex]? with
  | some pid, some enemy =>
    .ok (s.collision pid enemy, { s with collisionIndex := s.collisionIndex + 1 })
  | _, _ => .error .noSuchEvent

/-- `RollbackInstruction`. -/
def rollbackInstruction : TableState τ := { s with lastPid := none }

end TableState

namespace TableDetection

variable {τ : Type*} (d : TableDetection τ)

/-- After `Initialize`. -/
def new : TableState τ where
  lastAddress := 0
  lastTransID := 0
  newTransID := 0
  transOpCode := .transBegin
  lastPid := none
  isRead := false
  isAccess := false
  collisionIndex := 0
  collisionPids := []
  currentTransaction := fun _ => 0
  table := d.init

/-- `FinalizeInstruction`, for the instruction of a process. -/
def finalizeObserved (s : TableState τ) (pid : Pid) : Except Fault (TableState τ) :=
  if s.isAccess then
    if s.lastTransID = 0 then .ok s
    else do
      check .assertion (s.lastTransID = s.currentTransaction pid)
      return { s with table := d.addToSet s.table pid s.lastAddress s.isRead }
  else
    match s.transOpCode with
    | .transBegin => do
      check .assertion (s.newTransID ≠ 0)
      check .assertion (s.currentTransaction pid = 0)
      return { s with
        currentTransaction := Function.update s.currentTransaction pid s.newTransID
        table := d.clearCollisionData s.table pid }
    | _ => do
      check .assertion (s.lastTransID ≠ 0)
      check .assertion (s.newTransID = 0)
      check .assertion (s.currentTransaction pid = s.lastTransID)
      return { s with
        currentTransaction := Function.update s.currentTransaction pid s.newTransID
        table := d.clearCollisionData s.table pid }

/-- `FinalizeInstruction`. -/
def finalizeInstruction (s : TableState τ) : Except Fault (TableState τ) :=
  match s.lastPid with
  | none => .error .noSuchEvent
  | some pid => do
    let s ← d.finalizeObserved s pid
    return { s with lastPid := none }

/-- The processes with which the observed access of a process collides, in order. -/
def enemies (s : TableState τ) (pid : Pid) : List Pid :=
  (List.range d.procCount).filter fun i =>
    decide (pid ≠ i) && decide (s.currentTransaction i ≠ 0) &&
      d.existsCollision s.table i s.lastAddress s.isRead

/-- `CollisionCount`. -/
def collisionCount (s : TableState τ) : Except Fault (ℕ × TableState τ) :=
  match s.lastPid with
  | none => .ok (0, { s with collisionPids := [] })
  | some pid =>
    if s.isAccess = true ∧ s.currentTransaction pid ≠ 0 ∧ s.lastTransID ≠ 0 then do
      check .assertion (s.lastTransID = s.currentTransaction pid)
      let pids := d.enemies s pid
      return (pids.length,
        { s with
          collisionPids := pids
          collisionIndex := if pids = [] then s.collisionIndex else 0 })
    else .ok (0, { s with collisionPids := [] })

/-- The collision detection of the tables. -/
def detection : ITMCollisionDetection (TableState τ) where
  observe i s := s.observe i
  collisionCount := d.collisionCount
  fetchCollision := TableState.fetchCollision
  finalizeInstruction := d.finalizeInstruction
  rollbackInstruction := TableState.rollbackInstruction

/-- The machine of the collision detection. -/
def machine : Machine (TableState τ) Execution Fault := d.detection.machine d.procCount d.new

variable {d} {s s' : TableState τ} {pid : Pid} {i : Instruction} {cs : List Collision}
  {es : List Execution}

/-! ## The collisions that are reported -/

/-- The collisions with the enemies from an index on are fetched in order. -/
lemma fetchCollisions_eq (hpid : s.lastPid = some pid) :
    ∀ n, s.collisionIndex + n = s.collisionPids.length →
      ∃ k, d.detection.fetchCollisions n s =
        .ok ((s.collisionPids.drop s.collisionIndex).map (s.collision pid),
          { s with collisionIndex := k }) := by
  intro n
  induction n generalizing s with
  | zero =>
    intro hn
    refine ⟨s.collisionIndex, ?_⟩
    rw [List.drop_eq_nil_of_le (by omega)]
    rfl
  | succ n ih =>
    intro hn
    have hlt : s.collisionIndex < s.collisionPids.length := by omega
    have hfetch : s.fetchCollision = .ok (s.collision pid s.collisionPids[s.collisionIndex],
        { s with collisionIndex := s.collisionIndex + 1 }) := by
      rw [TableState.fetchCollision, hpid, List.getElem?_eq_getElem hlt]
    obtain ⟨k, hk⟩ := ih (s := { s with collisionIndex := s.collisionIndex + 1 }) hpid
      (by dsimp only; omega)
    refine ⟨k, ?_⟩
    rw [ITMCollisionDetection.fetchCollisions, List.drop_eq_getElem_cons hlt]
    show (s.fetchCollision >>= _) = _
    rw [hfetch]
    show (d.detection.fetchCollisions n { s with collisionIndex := s.collisionIndex + 1 } >>= _) = _
    rw [hk]
    rfl

lemma fetchCollisions_eq_ok {n : ℕ} (hfetch : d.detection.fetchCollisions n s = .ok (cs, s')) :
    ∃ k, s' = { s with collisionIndex := k } := by
  induction n generalizing s cs with
  | zero =>
    cases hfetch
    exact ⟨_, rfl⟩
  | succ n ih =>
    obtain ⟨⟨c, s₁⟩, hc, hfetch⟩ := bind_eq_ok.1 hfetch
    obtain ⟨⟨cs', s₂⟩, hcs, hret⟩ := bind_eq_ok.1 hfetch
    cases hret
    obtain ⟨k, rfl⟩ := ih hcs
    have hc' : s.fetchCollision = .ok (c, s₁) := hc
    rw [TableState.fetchCollision] at hc'
    split at hc'
    · cases hc'
      exact ⟨k, rfl⟩
    · cases hc'

lemma collisionCount_eq_ok {n : ℕ} (hcount : d.collisionCount s = .ok (n, s')) :
    ∃ pids k, s' = { s with collisionPids := pids, collisionIndex := k } := by
  rw [collisionCount] at hcount
  split at hcount
  · cases hcount
    exact ⟨_, _, rfl⟩
  · split at hcount
    · obtain ⟨-, hret⟩ := check_bind_eq_ok.1 hcount
      cases hret
      exact ⟨_, _, rfl⟩
    · cases hcount
      exact ⟨_, _, rfl⟩

/-- Checking for collisions touches neither the tables nor what has been observed. -/
lemma checkCollisions_eq_ok (hcheck : d.detection.checkCollisions s = .ok (cs, s')) :
    ∃ pids k, s' = { s with collisionPids := pids, collisionIndex := k } := by
  obtain ⟨⟨n, s₁⟩, hcount, hfetch⟩ := bind_eq_ok.1 hcheck
  obtain ⟨k, rfl⟩ := fetchCollisions_eq_ok hfetch
  obtain ⟨pids, k', rfl⟩ := collisionCount_eq_ok hcount
  exact ⟨pids, k, rfl⟩

/-- An access of the active transaction of a process is reported to collide with exactly the
enemies whose tables say so. -/
lemma checkCollisions_access (isRead : Bool) {trans : Level} (addr : Address) (size : ℕ)
    (htrans : trans ≠ 0) (hcur : s.currentTransaction pid = trans) :
    ∃ s', d.detection.checkCollisions (s.observe (.access isRead pid trans addr size)) =
      .ok ((d.enemies (s.observe (.access isRead pid trans addr size)) pid).map
        ((s.observe (.access isRead pid trans addr size)).collision pid), s') := by
  generalize hs₁ : s.observe (.access isRead pid trans addr size) = s₁
  obtain ⟨hpid, haccess, htrans₁, hcur₁⟩ : s₁.lastPid = some pid ∧ s₁.isAccess = true ∧
      s₁.lastTransID = trans ∧ s₁.currentTransaction pid = trans := by
    rw [← hs₁]
    exact ⟨rfl, rfl, rfl, hcur⟩
  have hcount : d.detection.collisionCount s₁ = .ok ((d.enemies s₁ pid).length,
      { s₁ with
        collisionPids := d.enemies s₁ pid
        collisionIndex := if d.enemies s₁ pid = [] then s₁.collisionIndex else 0 }) := by
    show d.collisionCount s₁ = _
    rw [collisionCount, hpid]
    dsimp only
    rw [if_pos ⟨haccess, by rw [hcur₁]; exact htrans, by rw [htrans₁]; exact htrans⟩]
    exact check_bind_eq_ok.2 ⟨htrans₁.trans hcur₁.symm, rfl⟩
  rw [ITMCollisionDetection.checkCollisions, hcount]
  rcases hnil : d.enemies s₁ pid with _ | ⟨x, xs⟩
  · exact ⟨_, rfl⟩
  · obtain ⟨k, hk⟩ := fetchCollisions_eq (d := d)
      (s := { s₁ with collisionPids := x :: xs, collisionIndex := 0 }) hpid (x :: xs).length
      (Nat.zero_add _)
    exact ⟨{ s₁ with collisionPids := x :: xs, collisionIndex := k }, hk⟩

/-- The instruction is reported to collide with the active transaction of the process. -/
def Reports (d : TableDetection τ) (s : TableState τ) (i : Instruction) (enemy : Pid) : Prop :=
  ∃ cs s', d.detection.checkCollisions (s.observe i) = .ok (cs, s') ∧
    ∃ c ∈ cs, c.enemyPid = enemy ∧ c.enemyLevel = s.currentTransaction enemy

lemma reports_access {isRead : Bool} {trans : Level} {addr : Address} {size : ℕ} {enemy : Pid}
    (htrans : trans ≠ 0) (hcur : s.currentTransaction pid = trans) :
    d.Reports s (.access isRead pid trans addr size) enemy ↔ enemy < d.procCount ∧ pid ≠ enemy ∧
      s.currentTransaction enemy ≠ 0 ∧ d.existsCollision s.table enemy addr isRead = true := by
  obtain ⟨s', hs'⟩ := checkCollisions_access (d := d) isRead addr size htrans hcur
  have hmem : ∀ e, e ∈ d.enemies (s.observe (.access isRead pid trans addr size)) pid ↔
      e < d.procCount ∧ pid ≠ e ∧ s.currentTransaction e ≠ 0 ∧
        d.existsCollision s.table e addr isRead = true := by
    intro e
    rw [enemies, List.mem_filter, List.mem_range, Bool.and_eq_true, Bool.and_eq_true,
      decide_eq_true_eq, decide_eq_true_eq, and_assoc]
    rfl
  rw [← hmem]
  constructor
  · rintro ⟨cs, s₁, hcheck, c, hc, rfl, -⟩
    rw [hs'] at hcheck
    cases hcheck
    obtain ⟨e, he, rfl⟩ := List.mem_map.1 hc
    exact he
  · intro henemy
    exact ⟨_, s', hs', _, List.mem_map.2 ⟨enemy, henemy, rfl⟩, rfl, rfl⟩

/-! ## Runs -/

/-- What finalizing an instruction does. -/
lemma finalizeInstruction_eq_ok (hfinal : d.finalizeInstruction s = .ok s')
    (hpid : s.lastPid = some pid) :
    s.isAccess = true ∧ s.lastTransID = 0 ∧ s' = { s with lastPid := none } ∨
    s.isAccess = true ∧ s.lastTransID ≠ 0 ∧ s.lastTransID = s.currentTransaction pid ∧
      s' = { s with table := d.addToSet s.table pid s.lastAddress s.isRead, lastPid := none } ∨
    s.isAccess = false ∧
      (s.currentTransaction pid = 0 ∧ s.newTransID ≠ 0 ∧ s.transOpCode = .transBegin ∨
        s.currentTransaction pid ≠ 0 ∧ s.newTransID = 0 ∧ s.transOpCode ≠ .transBegin) ∧
      s' = { s with
        currentTransaction := Function.update s.currentTransaction pid s.newTransID
        table := d.clearCollisionData s.table pid
        lastPid := none } := by
  rw [finalizeInstruction, hpid] at hfinal
  obtain ⟨s₁, hs₁, hret⟩ := bind_eq_ok.1 hfinal
  cases hret
  rw [finalizeObserved] at hs₁
  split at hs₁
  · rename_i haccess
    split at hs₁
    · rename_i htrans
      cases hs₁
      exact .inl ⟨haccess, htrans, rfl⟩
    · rename_i htrans
      obtain ⟨hcur, hret⟩ := check_bind_eq_ok.1 hs₁
      cases hret
      exact .inr (.inl ⟨haccess, htrans, hcur, rfl⟩)
  · rename_i haccess
    refine .inr (.inr ⟨Bool.eq_false_iff.2 haccess, ?_⟩)
    split at hs₁
    · rename_i hop
      obtain ⟨hnew, hs₁⟩ := check_bind_eq_ok.1 hs₁
      obtain ⟨hcur, hret⟩ := check_bind_eq_ok.1 hs₁
      cases hret
      exact ⟨.inl ⟨hcur, hnew, hop⟩, rfl⟩
    · rename_i hop
      obtain ⟨hlast, hs₁⟩ := check_bind_eq_ok.1 hs₁
      obtain ⟨hnew, hs₁⟩ := check_bind_eq_ok.1 hs₁
      obtain ⟨hcur, hret⟩ := check_bind_eq_ok.1 hs₁
      cases hret
      exact ⟨.inr ⟨by rw [hcur]; exact hlast, hnew, hop⟩, rfl⟩

/-- What an instruction does to the tables and the active transactions. -/
lemma execute_eq_ok {retry : Bool} (hex : d.detection.execute i retry s = .ok s') :
    s'.table = s.table ∧ s'.currentTransaction = s.currentTransaction ∧
      Execution.IsIdle ⟨i, retry⟩ ∨
    (∃ isRead pid trans addr size, i = .access isRead pid trans addr size ∧ retry = false ∧
      trans ≠ 0 ∧ s.currentTransaction pid = trans ∧
      s'.table = d.addToSet s.table pid addr isRead ∧
      s'.currentTransaction = s.currentTransaction) ∨
    ∃ pid old new op, i = .transaction pid old new op ∧ retry = false ∧
      (s.currentTransaction pid = 0 ∧ new ≠ 0 ∧ op = .transBegin ∨
        s.currentTransaction pid ≠ 0 ∧ new = 0 ∧ op ≠ .transBegin) ∧
      s'.table = d.clearCollisionData s.table pid ∧
      s'.currentTransaction = Function.update s.currentTransaction pid new := by
  obtain ⟨⟨cs, s₁⟩, hcheck, hex⟩ := bind_eq_ok.1 hex
  obtain ⟨pids, k, hs₁⟩ := checkCollisions_eq_ok hcheck
  obtain ⟨htable, hcurrent, hpid⟩ : s₁.table = s.table ∧
      s₁.currentTransaction = s.currentTransaction ∧ s₁.lastPid = some i.pid := by
    rw [hs₁]
    cases i <;> exact ⟨rfl, rfl, rfl⟩
  cases retry with
  | true =>
    cases hex
    exact .inl ⟨htable, hcurrent, .inl rfl⟩
  | false =>
    have hfinal : d.finalizeInstruction s₁ = .ok s' := hex
    cases i with
    | access isRead pid trans addr size =>
      obtain ⟨haccess, hread, htrans, haddr⟩ : s₁.isAccess = true ∧ s₁.isRead = isRead ∧
          s₁.lastTransID = trans ∧ s₁.lastAddress = addr := by
        rw [hs₁]
        exact ⟨rfl, rfl, rfl, rfl⟩
      rcases finalizeInstruction_eq_ok hfinal hpid with ⟨-, hzero, rfl⟩ | ⟨-, hzero, hcur, rfl⟩ |
        ⟨hfalse, -⟩
      · rw [htrans] at hzero
        rw [hzero]
        exact .inl ⟨htable, hcurrent, .inr ⟨_, _, _, _, rfl⟩⟩
      · rw [htrans] at hzero hcur
        rw [hcurrent] at hcur
        refine .inr (.inl ⟨isRead, pid, trans, addr, size, rfl, rfl, hzero, hcur.symm, ?_,
          hcurrent⟩)
        rw [← htable, ← haddr, ← hread]
        rfl
      · rw [haccess] at hfalse
        cases hfalse
    | transaction pid old new op =>
      obtain ⟨haccess, hnew, hop⟩ : s₁.isAccess = false ∧ s₁.newTransID = new ∧
          s₁.transOpCode = op := by
        rw [hs₁]
        exact ⟨rfl, rfl, rfl⟩
      rcases finalizeInstruction_eq_ok hfinal hpid with ⟨htrue, -⟩ | ⟨htrue, -⟩ | ⟨-, hkind, rfl⟩
      · rw [haccess] at htrue
        cases htrue
      · rw [haccess] at htrue
        cases htrue
      · rw [hcurrent, hnew, hop] at hkind
        refine .inr (.inr ⟨pid, old, new, op, rfl, rfl, hkind, ?_, ?_⟩)
        · rw [← htable]
          rfl
        · rw [← hcurrent, ← hnew]
          rfl

/-- A relation between the tables and the accesses of the active transactions that holds
initially and is kept when an access is added and when the tables of a process are cleared
holds at the end of every run. -/
theorem table_invariant {I : τ → (Pid → List (Bool × Address)) → Prop}
    (hinit : I d.init fun _ => [])
    (hadd : ∀ t h pid addr isRead, pid < d.procCount → I t h →
      I (d.addToSet t pid addr isRead) (Function.update h pid (h pid ++ [(isRead, addr)])))
    (hclear : ∀ t h pid, pid < d.procCount → I t h →
      I (d.clearCollisionData t pid) (Function.update h pid []))
    (hrun : d.machine.Run es s) : I s.table (accesses es) := by
  induction hrun with
  | nil => exact hinit
  | snoc e _ _ hstep ih =>
    obtain ⟨hlt, hex⟩ := check_bind_eq_ok.1 hstep
    rw [accesses_append]
    obtain ⟨i, retry⟩ := e
    rcases execute_eq_ok hex with ⟨htable, -, hidle⟩ |
      ⟨isRead, pid, trans, addr, size, rfl, rfl, htrans, -, htable, -⟩ |
      ⟨pid, old, new, op, rfl, rfl, -, htable, -⟩
    · rw [htable, recordAccess_of_isIdle hidle]
      exact ih
    · rw [htable, recordAccess_access htrans]
      exact hadd _ _ pid addr isRead hlt ih
    · rw [htable, recordAccess_transaction]
      exact hclear _ _ pid hlt ih

/-- A process without an active transaction has accessed nothing. -/
lemma accesses_of_currentTransaction (hrun : d.machine.Run es s) :
    ∀ pid, s.currentTransaction pid = 0 → accesses es pid = [] := by
  induction hrun with
  | nil => exact fun _ _ => rfl
  | snoc e _ _ hstep ih =>
    obtain ⟨-, hex⟩ := check_bind_eq_ok.1 hstep
    obtain ⟨i, retry⟩ := e
    intro p hp
    rw [accesses_append]
    rcases execute_eq_ok hex with ⟨-, hcurrent, hidle⟩ |
      ⟨isRead, pid, trans, addr, size, rfl, rfl, htrans, hcur, -, hcurrent⟩ |
      ⟨pid, old, new, op, rfl, rfl, -, -, hcurrent⟩
    · rw [recordAccess_of_isIdle hidle]
      rw [hcurrent] at hp
      exact ih p hp
    · rw [recordAccess_access htrans]
      rw [hcurrent] at hp
      by_cases hpid : p = pid
      · rw [hpid, hcur] at hp
        exact absurd hp htrans
      · rw [Function.update_of_ne hpid]
        exact ih p hp
    · rw [recordAccess_transaction]
      by_cases hpid : p = pid
      · rw [hpid, Function.update_self]
      · rw [Function.update_of_ne hpid]
        rw [hcurrent, Function.update_of_ne hpid] at hp
        exact ih p hp

/-- Only the processes there are have active transactions. -/
lemma lt_procCount_of_currentTransaction (hrun : d.machine.Run es s) :
    ∀ pid, s.currentTransaction pid ≠ 0 → pid < d.procCount := by
  induction hrun with
  | nil => exact fun _ h => absurd rfl h
  | snoc e _ _ hstep ih =>
    obtain ⟨hlt, hex⟩ := check_bind_eq_ok.1 hstep
    obtain ⟨i, retry⟩ := e
    intro p hp
    rcases execute_eq_ok hex with ⟨-, hcurrent, -⟩ | ⟨_, _, _, _, _, -, -, -, -, -, hcurrent⟩ |
      ⟨pid, old, new, op, rfl, -, -, -, hcurrent⟩
    · rw [hcurrent] at hp
      exact ih p hp
    · rw [hcurrent] at hp
      exact ih p hp
    · by_cases hpid : p = pid
      · rw [hpid]
        exact hlt
      · rw [hcurrent, Function.update_of_ne hpid] at hp
        exact ih p hp

end TableDetection

end Sesc.Trans
