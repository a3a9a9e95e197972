import Sesc.Trans.LogTMSE
import Sesc.Trans.PerfectSteps

/-!
# Signatures are conservative

`LogTMSECollisionDetectionBase` and `PerfectCollisionDetection` observe and finalize the same
instructions.  The sets of an active transaction have only lines that its process has accessed
since it began, and a signature has all of these; so what the exact detection reports the
signatures report as well.
-/

namespace Sesc.Trans

open Lib

/-! ## Lines -/

variable {lineSize : ℕ} {a b addr : Address}

lemma div_eq_of_calcLineAddr (h : calcLineAddr lineSize a = calcLineAddr lineSize b) :
    a / lineSize = b / lineSize := by
  rw [calcLineAddr_eq, calcLineAddr_eq] at h
  rcases Nat.eq_zero_or_pos lineSize with rfl | hpos
  · rw [Nat.div_zero, Nat.div_zero]
  · exact Nat.eq_of_mul_eq_mul_left hpos h

/-- Every byte of the access is in the line of the first one. -/
def InLine (lineSize : ℕ) : Instruction → Prop
  | .access _ _ _ addr size => ∀ k, k < size → (addr + k) / lineSize = addr / lineSize
  | .transaction _ _ _ _ => True

/-- An access in one line looks at no other line. -/
lemma eq_of_mem_accessLines {size : ℕ} {line : Address}
    (hline : ∀ k, k < size → (addr + k) / lineSize = addr / lineSize)
    (h : line ∈ accessLines lineSize addr size) : line = calcLineAddr lineSize addr := by
  obtain ⟨k, hk, rfl⟩ := (mem_accessLines.1 h).2
  rw [calcLineAddr_eq, calcLineAddr_eq, hline k hk]

/-! ## Both detections -/

namespace Perfect

variable {s s' : Perfect} {pid : Pid}

/-- The sets of the active transactions, against what the processes have accessed and the
transactions the signatures take to be active. -/
structure Exact (lineSize : ℕ) (active : List TransData) (current : Pid → Level)
    (h : Pid → List (Bool × Address)) : Prop where
  levels : ∀ t ∈ active, current t.pid = t.transLevel ∧ t.transLevel ≠ 0 ∧ t.parentLevel = 0
  owners : ∀ p, current p ≠ 0 → ∃ t ∈ active, t.pid = p ∧ t.transLevel = current p
  unique : ∀ t ∈ active, ∀ u ∈ active, t.transLevel = u.transLevel → t.pid = u.pid
  lines : ∀ t ∈ active, ∀ r line, line ∈ t.lines r →
    ∃ a, (r, a) ∈ h t.pid ∧ calcLineAddr lineSize a = line

variable {active : List TransData} {current : Pid → Level} {h : Pid → List (Bool × Address)}

lemma Exact.new : Exact lineSize [] (fun _ => 0) fun _ => [] where
  levels _ ht := nomatch ht
  owners _ hp := absurd rfl hp
  unique _ ht := nomatch ht
  lines _ ht := nomatch ht

/-- An access of an active transaction in one line. -/
lemma Exact.access (hs : Exact lineSize s.activeTransactions current h) {isRead : Bool}
    {trans : Level} {addr : Address} {size : ℕ} (htrans : trans ≠ 0) (hcur : current pid = trans)
    (hline : ∀ k, k < size → (addr + k) / lineSize = addr / lineSize) :
    Exact lineSize
      (s.modify trans fun t => t.insert isRead (accessLines lineSize addr size)) current
      (Function.update h pid (h pid ++ [(isRead, addr)])) := by
  obtain ⟨f, hf⟩ : ∃ f : TransData → TransData, ∀ t, f t = if t.transLevel = trans then
      t.insert isRead (accessLines lineSize addr size) else t := ⟨_, fun _ => rfl⟩
  have hmodify : (s.modify trans fun t => t.insert isRead (accessLines lineSize addr size)) =
      s.activeTransactions.map f := List.map_congr_left fun t _ => (hf t).symm
  have hfields : ∀ t, (f t).pid = t.pid ∧ (f t).transLevel = t.transLevel ∧
      (f t).parentLevel = t.parentLevel := by
    intro t
    rw [hf]
    split
    · exact ⟨TransData.pid_insert, TransData.transLevel_insert, TransData.parentLevel_insert⟩
    · exact ⟨rfl, rfl, rfl⟩
  have hmem : ∀ t ∈ s.activeTransactions.map f, ∃ u ∈ s.activeTransactions, t = f u := by
    intro t ht
    obtain ⟨u, hu, rfl⟩ := List.mem_map.1 ht
    exact ⟨u, hu, rfl⟩
  rw [hmodify]
  refine ⟨fun t ht => ?_, fun p hp => ?_, fun t ht t' ht' heq => ?_, fun t ht r line hmemline => ?_⟩
  · obtain ⟨u, hu, rfl⟩ := hmem t ht
    obtain ⟨hpid, hlevel, hparent⟩ := hfields u
    rw [hpid, hlevel, hparent]
    exact hs.levels u hu
  · obtain ⟨u, hu, hpid, hlevel⟩ := hs.owners p hp
    obtain ⟨hpid', hlevel', -⟩ := hfields u
    exact ⟨f u, List.mem_map.2 ⟨u, hu, rfl⟩, hpid'.trans hpid, hlevel'.trans hlevel⟩
  · obtain ⟨u, hu, rfl⟩ := hmem t ht
    obtain ⟨u', hu', rfl⟩ := hmem t' ht'
    rw [(hfields u).2.1, (hfields u').2.1] at heq
    rw [(hfields u).1, (hfields u').1]
    exact hs.unique u hu u' hu' heq
  · obtain ⟨u, hu, rfl⟩ := hmem t ht
    rw [(hfields u).1]
    have hold : line ∈ u.lines r → ∃ a,
        (r, a) ∈ Function.update h pid (h pid ++ [(isRead, addr)]) u.pid ∧
        calcLineAddr lineSize a = line := by
      intro hlines
      obtain ⟨a, ha, haline⟩ := hs.lines u hu r line hlines
      refine ⟨a, ?_, haline⟩
      by_cases hp : u.pid = pid
      · rw [hp, Function.update_self, ← hp]
        exact List.mem_append_left _ ha
      · rw [Function.update_of_ne hp]
        exact ha
    rw [hf] at hmemline
    split at hmemline
    · rename_i hlevel
      rw [TransData.mem_lines_insert] at hmemline
      rcases hmemline with hlines | ⟨rfl, hnew⟩
      · exact hold hlines
      · -- the transaction of this level is that of the process
        obtain ⟨v, hv, hvpid, hvlevel⟩ := hs.owners pid (by rw [hcur]; exact htrans)
        have hupid : u.pid = pid := by
          rw [← hvpid]
          exact hs.unique u hu v hv (hlevel.trans (hcur.symm.trans hvlevel.symm))
        refine ⟨addr, ?_, (eq_of_mem_accessLines hline hnew).symm⟩
        rw [hupid, Function.update_self]
        exact List.mem_append_right _ (.head _)
    · exact hold hmemline

/-- The begin of a transaction of a process that has none. -/
lemma Exact.begin (hs : Exact lineSize active current h) {new : Level} (hnew : new ≠ 0)
    (hcur : current pid = 0) (hfree : ∀ t ∈ active, t.transLevel ≠ new) :
    Exact lineSize (active ++ [⟨pid, new, 0, [], []⟩]) (Function.update current pid new)
      (Function.update h pid []) := by
  have hother : ∀ t ∈ active, t.pid ≠ pid := by
    rintro t ht rfl
    obtain ⟨hlevel, hzero, -⟩ := hs.levels t ht
    exact hzero (hlevel.symm.trans hcur)
  refine ⟨fun t ht => ?_, fun p hp => ?_, fun t ht u hu heq => ?_, fun t ht r line hline => ?_⟩
  · rcases List.mem_append.1 ht with ht | ht
    · rw [Function.update_of_ne (hother t ht)]
      exact hs.levels t ht
    · rw [List.mem_singleton.1 ht, Function.update_self]
      exact ⟨rfl, hnew, rfl⟩
  · by_cases hpid : p = pid
    · rw [hpid, Function.update_self]
      exact ⟨_, List.mem_append_right _ (.head _), rfl, rfl⟩
    · rw [Function.update_of_ne hpid] at hp ⊢
      obtain ⟨t, ht, htpid, hlevel⟩ := hs.owners p hp
      exact ⟨t, List.mem_append_left _ ht, htpid, hlevel⟩
  · rcases List.mem_append.1 ht with ht | ht <;> rcases List.mem_append.1 hu with hu | hu
    · exact hs.unique t ht u hu heq
    · rw [List.mem_singleton.1 hu] at heq
      exact absurd heq (hfree t ht)
    · rw [List.mem_singleton.1 ht] at heq
      exact absurd heq.symm (hfree u hu)
    · rw [List.mem_singleton.1 ht, List.mem_singleton.1 hu]
  · rcases List.mem_append.1 ht with ht | ht
    · rw [Function.update_of_ne (hother t ht)]
      exact hs.lines t ht r line hline
    · rw [List.mem_singleton.1 ht] at hline
      cases r <;> cases hline

/-- The end of the transaction of a process. -/
lemma Exact.finish (hs : Exact lineSize active current h) {old : Level} (hold : old ≠ 0)
    (hcur : current pid = old) :
    Exact lineSize (active.filter fun t => t.transLevel ≠ old) (Function.update current pid 0)
      (Function.update h pid []) := by
  have hmem : ∀ t ∈ active.filter fun t => decide (t.transLevel ≠ old), t ∈ active ∧
      t.pid ≠ pid := by
    intro t ht
    obtain ⟨ht, hne⟩ := List.mem_filter.1 ht
    refine ⟨ht, ?_⟩
    rintro rfl
    exact of_decide_eq_true hne ((hs.levels t ht).1.symm.trans hcur)
  refine ⟨fun t ht => ?_, fun p hp => ?_, fun t ht u hu => ?_, fun t ht r line hline => ?_⟩
  · obtain ⟨ht, hne⟩ := hmem t ht
    rw [Function.update_of_ne hne]
    exact hs.levels t ht
  · have hpid : p ≠ pid := by
      rintro rfl
      exact hp (Function.update_self _ _ _)
    rw [Function.update_of_ne hpid] at hp ⊢
    obtain ⟨t, ht, rfl, hlevel⟩ := hs.owners p hp
    refine ⟨t, List.mem_filter.2 ⟨ht, decide_eq_true ?_⟩, rfl, hlevel⟩
    intro heq
    -- the transaction of the level is that of the process that ends it
    obtain ⟨u, hu, rfl, hulevel⟩ := hs.owners pid (by rw [hcur]; exact hold)
    exact hpid (hs.unique t ht u hu (heq.trans (hcur.symm.trans hulevel.symm)))
  · exact hs.unique t (hmem t ht).1 u (hmem u hu).1
  · obtain ⟨ht, hne⟩ := hmem t ht
    rw [Function.update_of_ne hne]
    exact hs.lines t ht r line hline

end Perfect

/-- A transaction does not begin inside another one. -/
def NonNested : Instruction → Prop
  | .transaction _ oldLevel _ .transBegin => oldLevel = 0
  | _ => True

instance (lineSize : ℕ) (i : Instruction) : Decidable (InLine lineSize i) :=
  match i with
  | .access _ _ _ addr size =>
    inferInstanceAs (Decidable (∀ k, k < size → (addr + k) / lineSize = addr / lineSize))
  | .transaction _ _ _ _ => inferInstanceAs (Decidable True)

instance (i : Instruction) : Decidable (NonNested i) :=
  match i with
  | .transaction _ oldLevel _ .transBegin => inferInstanceAs (Decidable (oldLevel = 0))
  | .transaction _ _ _ .transEnd => inferInstanceAs (Decidable True)
  | .transaction _ _ _ .transAbort => inferInstanceAs (Decidable True)
  | .access _ _ _ _ _ => inferInstanceAs (Decidable True)

/-- The states of the two detections. -/
structure BothDetections where
  perfect : Perfect
  signatures : TableState Signatures

namespace LogTMSEConfig

variable (cfg : LogTMSEConfig)

/-- Both detections observe and finalize the same instructions: accesses in one line and
transactions that are not nested. -/
def both : Machine BothDetections Execution Fault where
  init := ⟨.new, cfg.logTMSE.new⟩
  step s e := do
    check .noSuchEvent (InLine cfg.lineSize e.instruction)
    check .noSuchEvent (NonNested e.instruction)
    let perfect ← (Perfect.detection cfg.lineSize).execute e.instruction e.retry s.perfect
    let signatures ← cfg.logTMSE.machine.step s.signatures e
    return ⟨perfect, signatures⟩

variable {cfg} {es : List Execution} {s s' : BothDetections} {e : Execution}

lemma both_step_eq_ok (h : cfg.both.step s e = .ok s') :
    InLine cfg.lineSize e.instruction ∧ NonNested e.instruction ∧
      (Perfect.detection cfg.lineSize).execute e.instruction e.retry s.perfect = .ok s'.perfect ∧
      cfg.logTMSE.machine.step s.signatures e = .ok s'.signatures := by
  obtain ⟨hline, h⟩ := check_bind_eq_ok.1 h
  obtain ⟨hnested, h⟩ := check_bind_eq_ok.1 h
  obtain ⟨p, hp, h⟩ := bind_eq_ok.1 h
  obtain ⟨t, ht, hret⟩ := bind_eq_ok.1 h
  cases hret
  exact ⟨hline, hnested, hp, ht⟩

lemma signatures_run (h : cfg.both.Run es s) : cfg.logTMSE.machine.Run es s.signatures := by
  induction h with
  | nil => exact .nil
  | snoc e _ _ hstep ih => exact .snoc e ih trivial (both_step_eq_ok hstep).2.2.2

/-- One instruction. -/
lemma exact_step {h : Pid → List (Bool × Address)} (hstep : cfg.both.step s e = .ok s')
    (hs : Perfect.Exact cfg.lineSize s.perfect.activeTransactions s.signatures.currentTransaction
      h) : Perfect.Exact cfg.lineSize s'.perfect.activeTransactions
      s'.signatures.currentTransaction (recordAccess h e) := by
  obtain ⟨hline, hnested, hperfect, hsign⟩ := both_step_eq_ok hstep
  obtain ⟨-, hsign⟩ := check_bind_eq_ok.1 hsign
  rcases e with ⟨i, retry⟩
  rcases TableDetection.execute_eq_ok hsign with ⟨-, hcurrent, hidle⟩ |
    ⟨isRead, pid, trans, addr, size, rfl, rfl, htrans, hcur, -, hcurrent⟩ |
    ⟨pid, old, new, op, rfl, rfl, hkind, -, hcurrent⟩
  · rw [hcurrent, recordAccess_of_isIdle hidle]
    rcases Perfect.execute_eq_ok hperfect with ⟨-, hactive⟩ |
      ⟨isRead, pid, trans, addr, size, rfl, rfl, htrans, -⟩ |
      ⟨pid, old, new, op, rfl, rfl, -⟩
    · rw [hactive]
      exact hs
    · rcases hidle with hretry | ⟨_, _, _, _, hi⟩
      · cases hretry
      · cases hi
        exact absurd rfl htrans
    · rcases hidle with hretry | ⟨_, _, _, _, hi⟩
      · cases hretry
      · cases hi
  · rw [hcurrent, recordAccess_access htrans]
    rcases Perfect.execute_eq_ok hperfect with ⟨hidle, -⟩ |
      ⟨isRead', pid', trans', addr', size', hi, -, -, hactive⟩ | ⟨_, _, _, _, hi, -⟩
    · rcases hidle with hretry | ⟨_, _, _, _, hi⟩
      · cases hretry
      · cases hi
        exact absurd rfl htrans
    · cases hi
      rw [hactive]
      exact hs.access htrans hcur hline
    · cases hi
  · rw [hcurrent, recordAccess_transaction]
    rcases Perfect.execute_eq_ok hperfect with ⟨hidle, -⟩ | ⟨_, _, _, _, _, hi, -⟩ |
      ⟨pid', old', new', op', hi, -, hcases⟩
    · rcases hidle with hretry | ⟨_, _, _, _, hi⟩
      · cases hretry
      · cases hi
    · cases hi
    · cases hi
      rcases hcases with ⟨rfl, hnone, hactive⟩ | ⟨hop, t, ht, rfl, hactive⟩
      · rcases hkind with ⟨hcur, hnew, -⟩ | ⟨-, -, hne⟩
        · have hold : old = 0 := hnested
          rw [hactive, hold]
          exact hs.begin hnew hcur (Perfect.find_eq_none.1 hnone)
        · exact absurd rfl hne
      · rcases hkind with ⟨-, -, hbegin⟩ | ⟨hcur, rfl, -⟩
        · exact absurd hbegin hop
        · obtain ⟨hmem, hlevel⟩ := Perfect.find_eq_some ht
          obtain ⟨hcurrent', hzero, hparent⟩ := hs.levels t hmem
          have hpromote : s.perfect.promote t = s.perfect.activeTransactions := if_pos hparent
          rw [hactive, hpromote, ite_self]
          exact hs.finish (by rw [← hlevel]; exact hzero) (hcurrent'.trans hlevel)

lemma exact_of_run (h : cfg.both.Run es s) :
    Perfect.Exact cfg.lineSize s.perfect.activeTransactions s.signatures.currentTransaction
      (accesses es) := by
  induction h with
  | nil => exact .new
  | snoc e _ _ hstep ih =>
    rw [accesses_append]
    exact exact_step hstep ih

/-- What the exact detection reports the signatures report. -/
lemma reports_of_perfect (h : cfg.both.Run es s) {isRead : Bool} {pid : Pid} {trans : Level}
    {addr : Address} {size : ℕ} (hline : InLine cfg.lineSize (.access isRead pid trans addr size))
    (hcur : s.signatures.currentTransaction pid = trans) {cs : List Collision} {p : Perfect}
    (hcheck : (Perfect.detection cfg.lineSize).checkCollisions
      (s.perfect.observe (.access isRead pid trans addr size)) = .ok (cs, p)) {c : Collision}
    (hc : c ∈ cs) : c.enemyLevel = s.signatures.currentTransaction c.enemyPid ∧
      cfg.logTMSE.Reports s.signatures (.access isRead pid trans addr size) c.enemyPid := by
  have hexact := exact_of_run h
  have hsigned := signed_of_run (signatures_run h)
  obtain ⟨-, hmem⟩ := Perfect.checkCollisions_eq_ok (Perfect.currentCpu_observe _) hcheck
  obtain ⟨-, htrans, t, ht, hne, hpid, hlevel, line, hmemline, hconflict⟩ := hmem c hc
  obtain ⟨hcurrent, hzero, -⟩ := hexact.levels t ht
  have hlevel' : c.enemyLevel = s.signatures.currentTransaction c.enemyPid := by
    rw [hlevel, hpid, hcurrent]
  -- the line that was found is that of the access, and the enemy has accessed it
  have hfound : line = calcLineAddr cfg.lineSize addr := eq_of_mem_accessLines hline hmemline
  have hin : ∀ r, line ∈ t.lines r →
      cfg.isIn (s.signatures.table.filter t.pid r) (cfg.calcTag addr) = true := by
    intro r hr
    obtain ⟨a, ha, haline⟩ := hexact.lines t ht r line hr
    have htag : cfg.calcTag a = cfg.calcTag addr := div_eq_of_calcLineAddr (haline.trans hfound)
    rw [← htag]
    exact hsigned.isIn t.pid r a ha
  have hactive : s.signatures.currentTransaction c.enemyPid ≠ 0 := by
    rw [hpid, hcurrent]
    exact hzero
  refine ⟨hlevel', (TableDetection.reports_access htrans hcur).2 ⟨?_, ?_, hactive, ?_⟩⟩
  · exact TableDetection.lt_procCount_of_currentTransaction (signatures_run h) _ hactive
  · rw [hpid]
    exact fun heq => hne heq.symm
  · rw [hpid]
    show cfg.existsCollision s.signatures.table t.pid addr isRead = true
    rw [existsCollision]
    rcases hconflict with hwrite | ⟨hread, hreadSet⟩
    · rw [if_pos]
      exact hin false hwrite
    · have hread' : isRead = false := hread
      subst hread'
      split
      · rfl
      · exact hin true hreadSet

/-- Every bit of the signatures of a process is clear and none is counted. -/
def EmptySignature (s : Signatures) (pid : Pid) : Prop :=
  s.readFilter pid = .empty ∧ s.writeFilter pid = .empty

/-- In every run of both detections: what the exact one reports for an access, of an enemy process
and its transaction, the signatures report; the signatures of a process that has no active
transaction, or has just begun one, are empty; and their populations count their bits. -/
theorem signatures_conservative (cfg : LogTMSEConfig) (es : List Execution) (s : BothDetections)
    (h : cfg.both.Run es s) :
    (∀ isRead pid trans addr size, InLine cfg.lineSize (.access isRead pid trans addr size) →
      s.signatures.currentTransaction pid = trans → ∀ cs p,
        (Perfect.detection cfg.lineSize).checkCollisions
          (s.perfect.observe (.access isRead pid trans addr size)) = .ok (cs, p) →
        ∀ c ∈ cs, c.enemyLevel = s.signatures.currentTransaction c.enemyPid ∧
          cfg.logTMSE.Reports s.signatures (.access isRead pid trans addr size) c.enemyPid) ∧
    (∀ pid, s.signatures.currentTransaction pid = 0 ∨
      (∃ old new, es.getLast? = some ⟨.transaction pid old new .transBegin, false⟩) →
        EmptySignature s.signatures.table pid) ∧
    ∀ pid, Counts cfg (s.signatures.table.readFilter pid) ∧
      Counts cfg (s.signatures.table.writeFilter pid) := by
  have hrun := signatures_run h
  have hsigned := signed_of_run hrun
  refine ⟨fun isRead pid trans addr size hline hcur cs p hcheck c hc =>
    reports_of_perfect h hline hcur hcheck hc, fun pid hpid => ?_, fun pid =>
    ⟨hsigned.counts pid true, hsigned.counts pid false⟩⟩
  have hnil : accesses es pid = [] := by
    rcases hpid with hzero | ⟨old, new, hlast⟩
    · exact TableDetection.accesses_of_currentTransaction hrun pid hzero
    · obtain ⟨es', rfl⟩ := List.getLast?_eq_some_iff.1 hlast
      rw [accesses_append, recordAccess_transaction, Function.update_self]
  exact ⟨hsigned.empty pid true hnil, hsigned.empty pid false hnil⟩

/-! ### A conflict

Process 0 writes to line 1 in a transaction, and process 1 reads it. -/

def identityHash : LogTMSEConfig where
  hash := basicHash
  filterSize := 4
  lineSize := 64
  iterationCount := 1
  procCount := 2
  filterSize_pos := by decide

def writeRun : List Execution :=
  [⟨.transaction 0 0 1 .transBegin, false⟩, ⟨.access false 0 1 64 4, false⟩,
    ⟨.transaction 1 0 2 .transBegin, false⟩]

/-- Both detections report the conflict. -/
theorem signatures_conservative_writeRun : ∃ s c p, identityHash.both.Run writeRun s ∧
    (Perfect.detection 64).checkCollisions (s.perfect.observe (.access true 1 2 68 4)) =
      .ok ([c], p) ∧ c.enemyPid = 0 ∧ c.enemyLevel = 1 ∧
    identityHash.logTMSE.Reports s.signatures (.access true 1 2 68 4) 0 := by
  have hrun : succeeds (identityHash.both.exec identityHash.both.init writeRun) (fun s =>
      decide (s.signatures.currentTransaction 1 = 2) &&
        succeeds ((Perfect.detection 64).checkCollisions
          (s.perfect.observe (.access true 1 2 68 4))) fun r => decide (r.1.length = 1 ∧
            ∀ c ∈ r.1, c.enemyPid = 0 ∧ c.enemyLevel = 1)) = true := by
    decide +kernel
  obtain ⟨s, hs, htest⟩ := succeeds_iff.1 hrun
  rw [Bool.and_eq_true] at htest
  obtain ⟨⟨cs, p⟩, hcheck, hcs⟩ := succeeds_iff.1 htest.2
  obtain ⟨hlength, hall⟩ := of_decide_eq_true hcs
  obtain ⟨c, rfl⟩ := List.length_eq_one_iff.1 hlength
  obtain ⟨hpid, hlevel⟩ := hall c (.head _)
  have hreport := (signatures_conservative identityHash writeRun s (Machine.run_of_exec hs)).1
    true 1 2 68 4 (by decide) (of_decide_eq_true htest.1) [c] p hcheck c (.head _)
  exact ⟨s, c, p, Machine.run_of_exec hs, hcheck, hpid, hlevel, hpid ▸ hreport.2⟩

end LogTMSEConfig

end Sesc.Trans
