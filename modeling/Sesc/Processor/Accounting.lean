import Sesc.Processor.Steps

/-!
# The resources of a core

The counters of free resources, together with the instructions that hold them, give the initial values,
as long as no event is issued, which takes no entry of a window but gives one back, and no fence is
retired from a cluster whose entries are recycled at retirement, which keeps its entry.
-/

namespace Sesc.Processor

open Lib

namespace GProcessor

variable (cfg : CoreConfig) (s : GProcessor)

/-- How many instructions of the reorder buffer have a property. -/
def count (q : DInst → Bool) : ℕ := s.ROB.countP fun p => q (s.dinst p)

/-- An instruction holds an entry of a cluster until it is executed or retired. -/
def holdsEntry (c : Cluster) (d : DInst) : Bool :=
  c = cfg.clusterOf d.inst.opcode && (cfg.recycleAtRetire c || !d.executed)

/-- Each counter has its initial value less the instructions that hold its resource. -/
structure Accounted : Prop where
  windowSize : ∀ c, 0 ≤ s.windowSize c ∧ s.windowSize c + s.count (holdsEntry cfg c) = cfg.winSize c
  freeLoads : s.freeLoads + s.count (fun d => d.inst.opcode = .iLoad) = cfg.maxLoads
  freeStores : s.freeStores + s.count (fun d => d.inst.opcode = .iStore) = cfg.maxStores
  freeBranches : s.freeBranches + s.count (fun d => d.inst.opcode = .iBJ && !d.executed) =
    cfg.maxBranches
  regPool : ∀ r, s.regPool r + s.count (fun d => d.inst.dstPool = r) = cfg.regs r

/-- All counters have their initial values. -/
structure Initial : Prop where
  windowSize : ∀ c, s.windowSize c = cfg.winSize c
  freeLoads : s.freeLoads = cfg.maxLoads
  freeStores : s.freeStores = cfg.maxStores
  freeBranches : s.freeBranches = cfg.maxBranches
  regPool : ∀ r, s.regPool r = cfg.regs r

/-- The step neither issues an event nor retires a fence from a `RetiredCluster`. -/
def Balanced : ProcessorEvent → Prop
  | .addInst _ inst _ => inst.opcode = .iEvent → s.Stalls cfg inst
  | .retire m => ∀ p ∈ s.ROB.head?, (s.dinst p).executed = true → (s.inst p).opcode = .iFence →
    cfg.recycleAtRetire (cfg.clusterOf .iFence) = true → s.FetchOpRefused p m
  | .execute _ | .storeCompleted _ => True

instance : ∀ e, Decidable (s.Balanced cfg e)
  | .addInst _ inst _ => inferInstanceAs (Decidable (inst.opcode = .iEvent → _))
  | .retire _ => inferInstanceAs (Decidable (∀ p ∈ s.ROB.head?, _))
  | .execute _ | .storeCompleted _ => inferInstanceAs (Decidable True)

variable {cfg s} {s' : GProcessor} {p : Ptr} {res : Resource} {inst : Instruction}
  {pendEvent : Bool} {q : DInst → Bool}

lemma Accounted.initial (h : s.Accounted cfg) (hROB : s.ROB = []) : s.Initial cfg := by
  have hcount : ∀ q, s.count q = 0 := by
    intro q
    rw [count, hROB]
    rfl
  obtain ⟨hwindow, hloads, hstores, hbranches, hregs⟩ := h
  simp only [hcount, Int.natCast_zero, Int.add_zero] at hwindow hloads hstores hbranches hregs
  exact ⟨fun c => (hwindow c).2, hloads, hstores, hbranches, hregs⟩

/-! ### Counting -/

lemma count_congr (hROB : s'.ROB = s.ROB) (hq : ∀ p ∈ s.ROB, q (s'.dinst p) = q (s.dinst p)) :
    s'.count q = s.count q := by
  rw [count, count, hROB]
  exact List.countP_congr fun p hp => by rw [hq p hp]

/-- A new instruction counts when it has the property. -/
lemma count_insert (hp : p ∉ s.ROB) (hROB : s'.ROB = s.ROB ++ [p])
    (hdinst : ∀ x, x ≠ p → s'.dinst x = s.dinst x) :
    s'.count q = s.count q + if q (s'.dinst p) then 1 else 0 := by
  rw [count, hROB, List.countP_append, List.countP_singleton, count]
  congr 1
  refine List.countP_congr fun x hx => ?_
  rw [hdinst x fun heq => hp (heq ▸ hx)]

/-- An instruction of the reorder buffer that changes. -/
lemma count_modify (hnodup : s.ROB.Nodup) (hp : p ∈ s.ROB) (hROB : s'.ROB = s.ROB)
    (hdinst : ∀ x, x ≠ p → s'.dinst x = s.dinst x) :
    s'.count q + (if q (s.dinst p) then 1 else 0) =
      s.count q + if q (s'.dinst p) then 1 else 0 := by
  have hperm := List.perm_cons_erase hp
  have hrest : (s.ROB.erase p).countP (fun x => q (s'.dinst x)) =
      (s.ROB.erase p).countP fun x => q (s.dinst x) := by
    refine List.countP_congr fun x hx => ?_
    rw [hdinst x (hnodup.mem_erase_iff.1 hx).1]
  rw [count, count, hROB, hperm.countP_eq, hperm.countP_eq, List.countP_cons, List.countP_cons,
    hrest]
  omega

/-- The oldest instruction leaves. -/
lemma count_retire (hnodup : s.ROB.Nodup) (hROB : s.ROB = p :: s'.ROB)
    (hdinst : ∀ x, x ≠ p → s'.dinst x = s.dinst x) :
    s'.count q + (if q (s.dinst p) then 1 else 0) = s.count q := by
  rw [count, count, hROB, List.countP_cons]
  congr 1
  refine List.countP_congr fun x hx => ?_
  rw [hROB, List.nodup_cons] at hnodup
  rw [hdinst x fun heq => hnodup.1 (heq ▸ hx)]

/-- Each of these types has a resource of its own. -/
lemma resource_eq_iff {t : InstType} (h : t.resource = some res) :
    (res = .FULoad ↔ t = .iLoad) ∧ (res = .FUStore ↔ t = .iStore) ∧ (res = .FUBranch ↔ t = .iBJ) ∧
      (res = .FUEvent ↔ t = .iEvent) ∧ (res = .FUMemory ↔ t = .iFence) := by
  cases t <;> cases h <;> simp

/-! ### The steps -/

/-- The instructions of the reorder buffer are different, and the counters are right. -/
structure Inv (cfg : CoreConfig) (s : GProcessor) : Prop extends Accounted cfg s where
  nodup : s.ROB.Nodup

/-- Nothing that is counted changes. -/
lemma Inv.of_eq (hs : s.Inv cfg) (hROB : s'.ROB = s.ROB)
    (hdinst : ∀ p, (s'.dinst p).inst = (s.dinst p).inst ∧
      (s'.dinst p).executed = (s.dinst p).executed)
    (hcounters : s'.windowSize = s.windowSize ∧ s'.freeLoads = s.freeLoads ∧
      s'.freeStores = s.freeStores ∧ s'.freeBranches = s.freeBranches ∧ s'.regPool = s.regPool) :
    s'.Inv cfg := by
  obtain ⟨hwindow, hloads, hstores, hbranches, hregs⟩ := hcounters
  constructor
  · constructor
    · intro c
      rw [hwindow, count_congr hROB fun p _ => by rw [holdsEntry, holdsEntry, (hdinst p).1, (hdinst p).2]]
      exact hs.windowSize c
    · rw [hloads, count_congr hROB fun p _ => by rw [(hdinst p).1]]
      exact hs.freeLoads
    · rw [hstores, count_congr hROB fun p _ => by rw [(hdinst p).1]]
      exact hs.freeStores
    · rw [hbranches, count_congr hROB fun p _ => by rw [(hdinst p).1, (hdinst p).2]]
      exact hs.freeBranches
    · intro r
      rw [hregs, count_congr hROB fun p _ => by rw [(hdinst p).1]]
      exact hs.regPool r
  · rw [hROB]
    exact hs.nodup

/-- The counters after an instruction has been inserted, which takes an entry unless it is an event. -/
lemma count_after_insert (hs : s.Inv cfg) (hp : p ∉ s.ROB) {c : Cluster} :
    ((s.issued c res).insert p inst pendEvent).count q =
      s.count q + if q ⟨inst, pendEvent, false, 0, 0⟩ then 1 else 0 := by
  have hdinst : ((s.issued c res).insert p inst pendEvent).dinst p =
      ⟨inst, pendEvent, false, 0, 0⟩ := Function.update_self _ _ _
  rw [count_insert hp rfl fun x hx => Function.update_of_ne hx _ _, hdinst]

lemma Inv.insert (hs : s.Inv cfg) (hp : p ∉ s.ROB) (hres : inst.opcode.resource = some res)
    (hstalls : ¬s.Stalls cfg inst) (hevent : inst.opcode ≠ .iEvent) :
    ((s.issued (cfg.clusterOf inst.opcode) res).insert p inst pendEvent).Inv cfg := by
  obtain ⟨hload, hstore, hbranch, hev, -⟩ := resource_eq_iff hres
  have hwindow : 0 < s.windowSize (cfg.clusterOf inst.opcode) := by
    by_contra hle
    exact hstalls (.inr (.inr (.inr (by omega))))
  constructor
  · constructor
    · intro c
      obtain ⟨hpos, heq⟩ := hs.windowSize c
      rw [count_after_insert hs hp]
      simp only [GProcessor.insert, issued, holdsEntry, Bool.not_false, Bool.or_true, Bool.and_true,
        decide_eq_true_eq, ne_eq, hev, hevent, not_false_eq_true, and_true]
      split
      · rename_i hc
        subst hc
        omega
      · omega
    · have := hs.freeLoads
      rw [count_after_insert hs hp]
      simp only [GProcessor.insert, issued, hload, decide_eq_true_eq]
      split <;> omega
    · have := hs.freeStores
      rw [count_after_insert hs hp]
      simp only [GProcessor.insert, issued, hstore, decide_eq_true_eq]
      split <;> omega
    · have := hs.freeBranches
      rw [count_after_insert hs hp]
      simp only [GProcessor.insert, issued, hbranch, Bool.not_false, Bool.and_true, decide_eq_true_eq]
      split <;> omega
    · intro r
      have := hs.regPool r
      rw [count_after_insert hs hp]
      simp only [GProcessor.insert, issued, decide_eq_true_eq]
      by_cases hr : r = inst.dstPool
      · subst hr
        simp only [Function.update_self, if_true]
        omega
      · rw [Function.update_of_ne hr, if_neg fun h => hr h.symm]
        omega
  · refine List.nodup_append.2 ⟨hs.nodup, List.nodup_singleton p, ?_⟩
    rintro x hx y hy rfl
    exact hp (List.mem_singleton.1 hy ▸ hx)

lemma Inv.done (hs : s.Inv cfg) (hp : p ∈ s.ROB) (hexecuted : (s.dinst p).executed = false)
    (hres : (s.inst p).opcode.resource = some res) : (s.done cfg p res).Inv cfg := by
  obtain ⟨-, -, hbranch, -, -⟩ := resource_eq_iff hres
  have hdinst : (s.done cfg p res).dinst p = { s.dinst p with
      executed := true
      calls := if res = .FUEvent then (s.dinst p).calls + 1 else (s.dinst p).calls } :=
    Function.update_self _ _ _
  have hcount : ∀ q, (s.done cfg p res).count q + (if q (s.dinst p) then 1 else 0) =
      s.count q + if q ((s.done cfg p res).dinst p) then 1 else 0 := fun q =>
    count_modify hs.nodup hp rfl fun x hx => Function.update_of_ne hx _ _
  rw [hdinst] at hcount
  -- what does not depend on the execution
  have hkeep : ∀ q : DInst → Bool, q { s.dinst p with
      executed := true
      calls := if res = .FUEvent then (s.dinst p).calls + 1 else (s.dinst p).calls } =
        q (s.dinst p) → (s.done cfg p res).count q = s.count q := by
    intro q hq
    have := hcount q
    rw [hq] at this
    omega
  constructor
  · constructor
    · intro c
      obtain ⟨hpos, heq⟩ := hs.windowSize c
      have hwindow : (s.done cfg p res).windowSize c = s.windowSize c +
        if c = cfg.clusterOf (s.dinst p).inst.opcode ∧ cfg.recycleAtRetire c = false
          then 1 else 0 := rfl
      have := hcount (holdsEntry cfg c)
      simp only [holdsEntry, hexecuted, Bool.not_false, Bool.or_true, Bool.and_true, Bool.not_true,
        Bool.or_false, Bool.and_eq_true, decide_eq_true_eq] at this
      rw [hwindow]
      by_cases hc : c = cfg.clusterOf (s.dinst p).inst.opcode
      · cases hretire : cfg.recycleAtRetire c
        · rw [if_pos ⟨hc, rfl⟩]
          rw [if_pos hc, if_neg fun h => Bool.false_ne_true (hretire.symm.trans h.2)] at this
          omega
        · rw [if_neg fun h => Bool.false_ne_true h.2.symm]
          rw [if_pos hc, if_pos ⟨hc, hretire⟩] at this
          omega
      · rw [if_neg fun h => hc h.1]
        rw [if_neg hc, if_neg fun h => hc h.1] at this
        omega
    · rw [hkeep _ rfl]
      exact hs.freeLoads
    · rw [hkeep _ rfl]
      exact hs.freeStores
    · have heq := hs.freeBranches
      have := hcount fun d => d.inst.opcode = .iBJ && !d.executed
      have hfree : (s.done cfg p res).freeBranches = s.freeBranches +
          if (s.dinst p).inst.opcode = .iBJ then 1 else 0 := by
        simp only [GProcessor.done, hbranch]
        rfl
      simp only [hexecuted, Bool.not_false, Bool.and_true, Bool.not_true, Bool.and_false,
        Bool.false_eq_true, if_false, decide_eq_true_eq] at this
      rw [hfree]
      split <;> simp_all only [if_true, if_false] <;> omega
    · intro r
      rw [hkeep _ rfl]
      exact hs.regPool r
  · exact hs.nodup

lemma Retires.count_add (h : Retires cfg s p res s') (hnodup : s.ROB.Nodup) (q : DInst → Bool) :
    s'.count q + (if q (s.dinst p) then 1 else 0) = s.count q :=
  count_retire hnodup h.ROB h.dinst

/-- A retirement keeps the account unless it is that of a fence from a `RetiredCluster`. -/
lemma Inv.retires (hs : s.Inv cfg) (h : Retires cfg s p res s')
    (hexecuted : (s.dinst p).executed = true) (hres : (s.inst p).opcode.resource = some res)
    (hfence : res = .FUMemory → cfg.recycleAtRetire (cfg.clusterOf .iFence) = false) :
    s'.Inv cfg := by
  obtain ⟨hload, hstore, -, -, hmemory⟩ := resource_eq_iff hres
  have hcount := h.count_add hs.nodup
  constructor
  · constructor
    · intro c
      obtain ⟨hpos, heq⟩ := hs.windowSize c
      have := hcount (holdsEntry cfg c)
      simp only [holdsEntry, hexecuted, Bool.not_true, Bool.or_false, Bool.and_eq_true,
        decide_eq_true_eq] at this
      rw [h.windowSize c]
      by_cases hc : c = cfg.clusterOf (s.dinst p).inst.opcode ∧ cfg.recycleAtRetire c = true
      · have hne : res ≠ .FUMemory := by
          rintro rfl
          have hop : (s.inst p).opcode = .iFence := hmemory.1 rfl
          refine Bool.false_ne_true ((hfence rfl).symm.trans ?_)
          rw [← hop]
          exact hc.1 ▸ hc.2
        rw [if_pos ⟨hc.1, hc.2, hne⟩]
        rw [if_pos hc] at this
        omega
      · rw [if_neg fun h => hc ⟨h.1, h.2.1⟩]
        rw [if_neg hc] at this
        omega
    · have heq := hs.freeLoads
      have := hcount fun d => d.inst.opcode = .iLoad
      simp only [decide_eq_true_eq] at this
      rw [h.freeLoads, ← heq]
      simp only [hload, inst]
      split <;> simp_all only [if_true, if_false] <;> omega
    · have heq := hs.freeStores
      have := hcount fun d => d.inst.opcode = .iStore
      simp only [decide_eq_true_eq] at this
      rw [h.freeStores, ← heq]
      simp only [hstore, inst]
      split <;> simp_all only [if_true, if_false] <;> omega
    · have heq := hs.freeBranches
      have := hcount fun d => d.inst.opcode = .iBJ && !d.executed
      simp only [hexecuted, Bool.not_true, Bool.and_false, Bool.false_eq_true, if_false] at this
      rw [h.freeBranches]
      omega
    · intro r
      have heq := hs.regPool r
      have := hcount fun d => d.inst.dstPool = r
      simp only [decide_eq_true_eq] at this
      rw [h.regPool r, ← heq]
      simp only [inst, eq_comm (a := r)]
      split <;> simp_all only [if_true, if_false] <;> omega
  · have hnodup := hs.nodup
    rw [h.ROB] at hnodup
    exact hnodup.of_cons

lemma Inv.act {e : ProcessorEvent} (hs : s.Inv cfg) (hbalanced : s.Balanced cfg e)
    (h : s.act cfg e = .ok s') : s'.Inv cfg := by
  cases e with
  | addInst p inst pendEvent =>
    obtain ⟨hROB, -, ⟨rfl, -⟩ | ⟨res, hres, hstalls, rfl⟩⟩ := act_addInst h
    · exact hs
    · exact hs.insert hROB hres hstalls fun hevent => hstalls (hbalanced hevent)
  | execute p =>
    obtain ⟨hmem, hexecuted, res, hres, rfl⟩ := act_execute h
    exact hs.done hmem hexecuted hres
  | retire m =>
    obtain ⟨outcome, hretire⟩ := act_retire h
    obtain ⟨p, rest, hROB, ⟨-, rfl⟩ | ⟨-, rfl, -⟩ | ⟨rfl, hexecuted, res, hres, hretires⟩⟩ :=
      retire_spec hretire
    · exact hs
    · exact hs.of_eq rfl dinst_tryStore ⟨rfl, rfl, rfl, rfl, rfl⟩
    · have hhead : p ∈ s.ROB.head? := by
        rw [hROB]
        rfl
      refine hs.retires hretires hexecuted hres fun hmemory => ?_
      have hfence := (resource_eq_iff hres).2.2.2.2.1 hmemory
      have hnot := (retire_fence hretire hhead hexecuted hfence).1 rfl
      by_contra htrue
      exact hnot (hbalanced p hhead hexecuted hfence (by simpa using htrue))
  | storeCompleted p =>
    obtain ⟨-, t, ht, rfl⟩ := act_storeCompleted h
    have hsame := sameCore_storeCompleted ht
    refine hs.of_eq hsame.ROB (fun x => ?_) ⟨hsame.windowSize, hsame.freeLoads, hsame.freeStores,
      hsame.freeBranches, hsame.regPool⟩
    show (t.dinst x).inst = _ ∧ (t.dinst x).executed = _
    rw [hsame.dinst]
    exact ⟨rfl, rfl⟩

/-- A step that is not balanced spoils the account of the cluster. -/
lemma Inv.not_accounted {e : ProcessorEvent} (hs : s.Inv cfg) (hbalanced : ¬s.Balanced cfg e)
    (h : s.act cfg e = .ok s') : ¬s'.Accounted cfg := by
  intro hs'
  cases e with
  | addInst p inst pendEvent =>
    rw [Balanced, Classical.not_imp] at hbalanced
    obtain ⟨hevent, hstalls⟩ := hbalanced
    obtain ⟨hROB, -, ⟨-, hnot⟩ | ⟨res, hres, -, rfl⟩⟩ := act_addInst h
    · exact hstalls (hnot hevent)
    · have heq := (hs.windowSize (cfg.clusterOf inst.opcode)).2
      have heq' := (hs'.windowSize (cfg.clusterOf inst.opcode)).2
      rw [count_after_insert hs hROB] at heq'
      have hres' : res = .FUEvent := (resource_eq_iff hres).2.2.2.1.2 hevent
      simp only [GProcessor.insert, issued, holdsEntry, hres', ne_eq, not_true_eq_false, and_false,
        if_false, decide_true, Bool.not_false, Bool.or_true, Bool.and_true, if_true] at heq'
      omega
  | execute p => exact hbalanced trivial
  | retire m =>
    obtain ⟨outcome, hretire⟩ := act_retire h
    rw [Balanced] at hbalanced
    push Not at hbalanced
    obtain ⟨p, hhead, hexecuted, hfence, hrecycle, hrefused⟩ := hbalanced
    have hretired := (retire_fence hretire hhead hexecuted hfence).2 hrefused
    obtain ⟨p', rest, hROB, ⟨hnot, -⟩ | ⟨hnot, -⟩ | ⟨-, -, res, hres, hretires⟩⟩ :=
      retire_spec hretire
    · exact hnot hretired
    · exact hnot hretired
    · have hp : p' = p := by
        rw [hROB] at hhead
        exact Option.some.inj hhead
      subst hp
      have hop : (s.dinst p').inst.opcode = .iFence := hfence
      have heq := (hs.windowSize (cfg.clusterOf .iFence)).2
      have heq' := (hs'.windowSize (cfg.clusterOf .iFence)).2
      have hcount := hretires.count_add hs.nodup (holdsEntry cfg (cfg.clusterOf .iFence))
      have hmemory := (resource_eq_iff hres).2.2.2.2.2 hfence
      rw [hretires.windowSize, if_neg fun h => h.2.2 hmemory] at heq'
      rw [holdsEntry, hop, hrecycle, Bool.true_or, Bool.and_true, decide_eq_true rfl, if_pos rfl]
        at hcount
      omega
  | storeCompleted p => exact hbalanced trivial

end GProcessor

open GProcessor

variable {cfg : CoreConfig}

lemma inv_processor (cfg : CoreConfig) : (processor cfg).init.Inv cfg where
  windowSize c := ⟨Int.natCast_nonneg _, Int.add_zero _⟩
  freeLoads := Int.add_zero _
  freeStores := Int.add_zero _
  freeBranches := Int.add_zero _
  regPool r := Int.add_zero _
  nodup := List.nodup_nil

/-- All along a run, the counters account for the instructions in the reorder buffer if and only if all
steps of the run are balanced; then they are back at their initial values when it is empty. -/
theorem accounted_iff (cfg : CoreConfig) (es : List ProcessorEvent) (s : GProcessor)
    (hrun : (processor cfg).Run es s) :
    ((∀ es' s', es' <+: es → (processor cfg).Run es' s' → s'.Accounted cfg) ↔
      (processor cfg).RunWhere (Balanced cfg) es s) ∧
    ((processor cfg).RunWhere (Balanced cfg) es s → s.ROB = [] → s.Initial cfg) := by
  have hiff := hrun.always_iff_runWhere (I := fun s => s.Inv cfg) (inv_processor cfg)
    (fun s hs => hs.toAccounted) (fun s e s' hs hb hstep => hs.act hb hstep)
    fun s e s' hs hb hstep => hs.not_accounted hb hstep
  exact ⟨hiff, fun hwhere hROB => (hiff.2 hwhere es s (List.prefix_refl _) hrun).initial hROB⟩

/-- A core with one cluster. -/
def oneCluster (InOrderCore recycleAtRetire : Bool) : CoreConfig where
  InOrderCore := InOrderCore
  MaxROBSize := 8
  regs := fun _ => 8
  cluster := fun _ => 0
  recycleAtRetire := fun _ => recycleAtRetire
  winSize := fun _ => 4
  maxLoads := 4
  maxStores := 4
  maxBranches := 4

/-- An addition of two registers. -/
def addition : Instruction := ⟨.iALU, .iSubInvalid, 4, 5, 6, 0⟩

def branch : Instruction := ⟨.iBJ, .BJCond, 4, 5, InvalidOutput, 2⟩

/-- The entries of `InstTable` for the fake instructions. -/
def postEvent : Instruction := ⟨.iEvent, .iSubInvalid, 4, 6, InvalidOutput, 2⟩
def memFence : Instruction := ⟨.iFence, .iMemFence, 4, 0, InvalidOutput, 2⟩
def fetchOp : Instruction := ⟨.iFence, .iFetchOp, 5, 6, 2, 0⟩

/-- The memory accepts everything. -/
def ready : MemoryState := ⟨true, true, true⟩

/-- An addition, a branch and a fence; the branch executes first. -/
def threeInstructions : List ProcessorEvent :=
  [.addInst 0 addition false, .addInst 1 branch false, .execute 1, .addInst 2 memFence false,
    .execute 0, .retire ready, .retire ready, .execute 2, .retire ready]

/-- With an `ExecutedCluster` the counters are right after each step, and in the end they are back. -/
theorem accounted_iff_threeInstructions : ∃ s,
    (processor (oneCluster false false)).Run threeInstructions s ∧ s.ROB = [] ∧
      s.Accounted (oneCluster false false) ∧ s.Initial (oneCluster false false) := by
  have hrun : succeeds (((processor (oneCluster false false)).guarded (fun s e =>
      decide (s.Balanced (oneCluster false false) e)) .noSuchEvent).exec
        (processor (oneCluster false false)).init threeInstructions)
      (fun s => s.ROB = []) = true := by
    decide +kernel
  obtain ⟨s, hs, hROB⟩ := succeeds_iff.1 hrun
  have hwhere := (Machine.run_of_exec hs).of_guarded.mono
    (D := Balanced (oneCluster false false)) fun _ _ => of_decide_eq_true
  have hiff := accounted_iff (oneCluster false false) threeInstructions s hwhere.run
  exact ⟨s, hwhere.run, of_decide_eq_true hROB,
    hiff.1.2 hwhere threeInstructions s (List.prefix_refl _) hwhere.run,
    hiff.2 hwhere (of_decide_eq_true hROB)⟩

/-- An event gives back an entry of an `ExecutedCluster` that it has not taken: the addition still holds
one, and cannot give it back.  A fence keeps its entry of a `RetiredCluster`. -/
theorem not_accounted :
    (∃ es s, (processor (oneCluster false false)).Run es s ∧ s.ROB = [0, 1] ∧
      s.windowSize 0 = 4 ∧ (s.dinst 0).executed = false ∧
      s.act (oneCluster false false) (.execute 0) = .error .assertion ∧
      ¬s.Accounted (oneCluster false false)) ∧
    ∃ es s, (processor (oneCluster false true)).Run es s ∧ s.ROB = [] ∧ s.windowSize 0 = 3 ∧
      ¬s.Accounted (oneCluster false true) := by
  constructor
  · have hrun : succeeds ((processor (oneCluster false false)).exec
        (processor (oneCluster false false)).init
        [.addInst 0 addition false, .addInst 1 postEvent true, .execute 1])
        (fun s => decide (s.ROB = [0, 1] ∧ s.windowSize 0 = 4 ∧ (s.dinst 0).executed = false ∧
          failsWith (s.act (oneCluster false false) (.execute 0)) .assertion ∧
          s.count (holdsEntry (oneCluster false false) 0) = 1)) = true := by
      decide +kernel
    obtain ⟨s, hs, htest⟩ := succeeds_iff.1 hrun
    obtain ⟨hROB, hwindow, hexecuted, hfails, hcount⟩ := of_decide_eq_true htest
    refine ⟨_, s, Machine.run_of_exec hs, hROB, hwindow, hexecuted, failsWith_iff.1 hfails,
      fun h => ?_⟩
    have := (h.windowSize 0).2
    rw [hwindow, hcount] at this
    exact absurd this (by decide)
  · have hrun : succeeds ((processor (oneCluster false true)).exec
        (processor (oneCluster false true)).init
        [.addInst 0 memFence false, .execute 0, .retire ready])
        (fun s => decide (s.ROB = [] ∧ s.windowSize 0 = 3)) = true := by
      decide +kernel
    obtain ⟨s, hs, htest⟩ := succeeds_iff.1 hrun
    obtain ⟨hROB, hwindow⟩ := of_decide_eq_true htest
    refine ⟨_, s, Machine.run_of_exec hs, hROB, hwindow, fun h => ?_⟩
    have := (h.initial hROB).windowSize 0
    rw [hwindow] at this
    exact absurd this (by decide)

end Sesc.Processor
