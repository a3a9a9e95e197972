import Mathlib.Algebra.Ring.Int.Defs
import Mathlib.Data.List.Count
import Mathlib.Data.List.Nodup
import Sesc.Processor.State

/-!
# What a step of a core does

Each resource takes and gives back its own entries; the lemmas of this file say which, for an
instruction that is added, executed or retired.
-/

namespace Sesc.Processor

open Lib

namespace GProcessor

variable {cfg : CoreConfig} {s s' : GProcessor} {p : Ptr} {c : Cluster} {res : Resource}
  {inst : Instruction} {pendEvent : Bool} {stall : StallCause} {outcome : RetOutcome}
  {m : MemoryState}

/-! ### Issue -/

/-- The state after a resource has issued an instruction for a cluster. -/
def issued (s : GProcessor) (c : Cluster) (res : Resource) : GProcessor :=
  { s with
    windowSize := fun c' => s.windowSize c' - if c' = c ∧ res ≠ .FUEvent then 1 else 0
    freeLoads := s.freeLoads - if res = .FULoad then 1 else 0
    freeStores := s.freeStores - if res = .FUStore then 1 else 0
    freeBranches := s.freeBranches - if res = .FUBranch then 1 else 0 }

lemma newEntry_eq_ok : s.newEntry c = .ok s' ↔
    0 < s.windowSize c ∧
      s' = { s with windowSize := fun c' => s.windowSize c' - if c' = c then 1 else 0 } := by
  rw [newEntry, check_bind_eq_ok]
  refine and_congr (by omega) ?_
  have hupdate : Function.update s.windowSize c (s.windowSize c - 1) =
      fun c' => s.windowSize c' - if c' = c then 1 else 0 := by
    funext c'
    by_cases hc : c' = c
    · subst hc
      simp
    · simp [hc]
  rw [hupdate]
  constructor
  · rintro ⟨⟩
    rfl
  · rintro rfl
    rfl

/-- A resource issues an instruction, or nothing changes. -/
lemma canIssue_spec (h : s.canIssue c res = .ok (stall, s')) :
    stall ≠ .NoStall ∧ s' = s ∨
      stall = .NoStall ∧ s' = s.issued c res ∧ (res = .FUEvent ∨ 0 < s.windowSize c) := by
  have hentry : ∀ f : GProcessor → GProcessor, (do
      let s ← s.newEntry c
      return (StallCause.NoStall, f s) : Except Fault _) = .ok (stall, s') →
      stall = .NoStall ∧ 0 < s.windowSize c ∧
        s' = f { s with windowSize := fun c' => s.windowSize c' - if c' = c then 1 else 0 } := by
    intro f hf
    obtain ⟨t, ht, heq⟩ := bind_eq_ok.1 hf
    obtain ⟨hpos, rfl⟩ := newEntry_eq_ok.1 ht
    cases heq
    exact ⟨rfl, hpos, rfl⟩
  cases res with
  | FUMemory =>
    obtain ⟨hstall, hpos, heq⟩ := hentry id h
    exact .inr ⟨hstall, by simpa [issued] using heq, .inr hpos⟩
  | FUGeneric =>
    obtain ⟨hstall, hpos, heq⟩ := hentry id h
    exact .inr ⟨hstall, by simpa [issued] using heq, .inr hpos⟩
  | FUEvent =>
    cases h
    exact .inr ⟨rfl, by simp [issued], .inl rfl⟩
  | FULoad =>
    rw [canIssue] at h
    split at h
    · cases (check_bind_eq_ok.1 h).2
      exact .inl ⟨by decide, rfl⟩
    · obtain ⟨hstall, hpos, heq⟩ := hentry _ h
      exact .inr ⟨hstall, by simpa [issued] using heq, .inr hpos⟩
  | FUStore =>
    rw [canIssue] at h
    split at h
    · cases (check_bind_eq_ok.1 h).2
      exact .inl ⟨by decide, rfl⟩
    · obtain ⟨hstall, hpos, heq⟩ := hentry _ h
      exact .inr ⟨hstall, by simpa [issued] using heq, .inr hpos⟩
  | FUBranch =>
    rw [canIssue] at h
    split at h
    · cases h
      exact .inl ⟨by decide, rfl⟩
    · obtain ⟨hstall, hpos, heq⟩ := hentry _ h
      exact .inr ⟨hstall, by simpa [issued] using heq, .inr hpos⟩

/-- What keeps an instruction from a resource. -/
def Stalls (cfg : CoreConfig) (s : GProcessor) (inst : Instruction) : Prop :=
  s.waitsForRAT cfg inst = true ∨ cfg.MaxROBSize ≤ s.ROB.length ∨ s.regPool inst.dstPool = 0 ∨
    s.windowSize (cfg.clusterOf inst.opcode) ≤ 0

instance : Decidable (s.Stalls cfg inst) := inferInstanceAs (Decidable (_ ∨ _))

/-- An instruction is inserted, or nothing changes. -/
lemma addInst_spec (h : s.addInst cfg p inst pendEvent = .ok (stall, s')) :
    s' = s ∧ (inst.opcode = .iEvent → s.Stalls cfg inst) ∨
      ∃ res, inst.opcode.resource = some res ∧ ¬s.Stalls cfg inst ∧
        s' = (s.issued (cfg.clusterOf inst.opcode) res).insert p inst pendEvent := by
  rw [addInst] at h
  split at h
  · rename_i hwait
    cases h
    exact .inl ⟨rfl, fun _ => .inl hwait⟩
  · rename_i hwait
    rw [sharedAddInst] at h
    split at h
    · rename_i hROB
      cases h
      exact .inl ⟨rfl, fun _ => .inr (.inl hROB)⟩
    · rename_i hROB
      obtain ⟨-, h⟩ := check_bind_eq_ok.1 h
      split at h
      · rename_i hpool
        cases h
        exact .inl ⟨rfl, fun _ => .inr (.inr (.inl hpool))⟩
      · rename_i hpool
        obtain ⟨res, hres, h⟩ := bind_eq_ok.1 h
        rw [elim_error_eq_ok] at hres
        simp only at h
        split at h
        · rename_i hwindow
          cases h
          exact .inl ⟨rfl, fun _ => .inr (.inr (.inr hwindow))⟩
        · rename_i hwindow
          obtain ⟨⟨stall', t⟩, ht, hrest⟩ := bind_eq_ok.1 h
          replace hrest : (if stall' = .NoStall then
              pure (StallCause.NoStall, t.insert p inst pendEvent)
            else pure (stall', t) : Except Fault _) = .ok (stall, s') := hrest
          rcases canIssue_spec ht with ⟨hstall, rfl⟩ | ⟨rfl, rfl, -⟩
          · rw [if_neg hstall] at hrest
            cases hrest
            refine .inl ⟨rfl, fun hevent => ?_⟩
            rw [hevent] at hres
            cases hres
            cases ht
            exact absurd rfl hstall
          · rw [if_pos rfl] at hrest
            cases hrest
            refine .inr ⟨res, hres, ?_, rfl⟩
            rintro (h | h | h | h)
            · exact hwait h
            · exact hROB h
            · exact hpool h
            · exact hwindow h

/-! ### Execution -/

/-- The history after an instruction has executed. -/
def markExecuted (s : GProcessor) (p : Ptr) : List Inserted :=
  s.inserted.map fun d =>
    if d.dinst = p ∧ d.executed = false then { d with executed := true } else d

/-- The state after an instruction has executed. -/
def done (cfg : CoreConfig) (s : GProcessor) (p : Ptr) (res : Resource) : GProcessor :=
  { s with
    dinst := Function.update s.dinst p { s.dinst p with
      executed := true
      calls := if res = .FUEvent then (s.dinst p).calls + 1 else (s.dinst p).calls }
    RAT := if res = .FUEvent then s.RAT else (s.clearRAT p).RAT
    windowSize := fun c => s.windowSize c +
      if c = cfg.clusterOf (s.inst p).opcode ∧ cfg.recycleAtRetire c = false then 1 else 0
    freeBranches := s.freeBranches + if res = .FUBranch then 1 else 0
    inserted := s.markExecuted p }

lemma delEntry_eq_ok : s.delEntry cfg c = .ok s' ↔
    s.windowSize c < cfg.winSize c ∧
      s' = { s with windowSize := fun c' => s.windowSize c' + if c' = c then 1 else 0 } := by
  rw [delEntry, check_bind_eq_ok]
  refine and_congr (by omega) ?_
  have hupdate : Function.update s.windowSize c (s.windowSize c + 1) =
      fun c' => s.windowSize c' + if c' = c then 1 else 0 := by
    funext c'
    by_cases hc : c' = c
    · subst hc
      simp
    · simp [hc]
  rw [hupdate]
  constructor
  · rintro ⟨⟩
    rfl
  · rintro rfl
    rfl

lemma clusterExecuted_spec (h : s.clusterExecuted cfg p = .ok s') :
    s' = { s with
      dinst := Function.update s.dinst p { s.dinst p with executed := true }
      inserted := s.markExecuted p
      windowSize := fun c => s.windowSize c +
        if c = cfg.clusterOf (s.inst p).opcode ∧ cfg.recycleAtRetire c = false then 1 else 0 } := by
  rw [clusterExecuted] at h
  simp only at h
  split at h
  · rename_i hretire
    cases h
    have hwindow : ∀ c, ¬(c = cfg.clusterOf (s.inst p).opcode ∧ cfg.recycleAtRetire c = false) := by
      rintro c ⟨rfl, hfalse⟩
      exact Bool.false_ne_true (hfalse.symm.trans hretire)
    simp only [hwindow, if_false, Int.add_zero]
    rfl
  · rename_i hretire
    obtain ⟨-, rfl⟩ := delEntry_eq_ok.1 h
    have hwindow : (fun c => s.windowSize c +
        if c = cfg.clusterOf (s.inst p).opcode then (1 : ℤ) else 0) =
        fun c => s.windowSize c +
          if c = cfg.clusterOf (s.inst p).opcode ∧ cfg.recycleAtRetire c = false then 1 else 0 := by
      funext c
      by_cases hc : c = cfg.clusterOf (s.inst p).opcode
      · subst hc
        simp [hretire]
      · simp [hc]
    rw [← hwindow]
    rfl

/-- The table is the only thing that `clearRAT` changes. -/
lemma clearRAT_eq : s.clearRAT p = { s with RAT := (s.clearRAT p).RAT } := by
  rw [clearRAT]
  split <;> rfl

lemma execute_spec (h : s.execute cfg p res = .ok s') : s' = s.done cfg p res := by
  have hclear := s.clearRAT_eq (p := p)
  have hother : res ≠ .FUEvent → res ≠ .FUBranch →
      (s.clearRAT p).clusterExecuted cfg p = .ok s' → s' = s.done cfg p res := by
    intro hevent hbranch h
    rw [clusterExecuted_spec h, hclear]
    simp only [done, hevent, hbranch, if_false, Int.add_zero]
    rfl
  cases res with
  | FUEvent =>
    replace h : (s.modifyDInst p fun d => { d with calls := d.calls + 1 }).clusterExecuted cfg p =
      .ok s' := h
    have hinst : (s.modifyDInst p fun d => { d with calls := d.calls + 1 }).inst p = s.inst p := by
      simp [inst, modifyDInst]
    rw [clusterExecuted_spec h, hinst]
    simp only [done, modifyDInst, Function.update_self, Function.update_idem, if_true, reduceCtorEq,
      if_false, Int.add_zero]
    rfl
  | FUBranch =>
    replace h : { s.clearRAT p with
        freeBranches := (s.clearRAT p).freeBranches + 1 }.clusterExecuted cfg p = .ok s' := h
    rw [clusterExecuted_spec h, hclear]
    simp only [done, if_true, reduceCtorEq, if_false]
    rfl
  | FUMemory => exact hother (by decide) (by decide) h
  | FULoad => exact hother (by decide) (by decide) h
  | FUStore => exact hother (by decide) (by decide) h
  | FUGeneric => exact hother (by decide) (by decide) h

/-! ### Retirement -/

lemma clusterRetire_spec (h : s.clusterRetire cfg p = .ok s') :
    s' = { s with
      windowSize := fun c => s.windowSize c +
        if c = cfg.clusterOf (s.inst p).opcode ∧ cfg.recycleAtRetire c = true then 1 else 0 } := by
  rw [clusterRetire] at h
  split at h
  · rename_i hretire
    obtain ⟨-, rfl⟩ := delEntry_eq_ok.1 h
    have hwindow : (fun c => s.windowSize c +
        if c = cfg.clusterOf (s.inst p).opcode then (1 : ℤ) else 0) =
        fun c => s.windowSize c +
          if c = cfg.clusterOf (s.inst p).opcode ∧ cfg.recycleAtRetire c = true then 1 else 0 := by
      funext c
      by_cases hc : c = cfg.clusterOf (s.inst p).opcode
      · subst hc
        simp [hretire]
      · simp [hc]
    rw [← hwindow]
  · rename_i hretire
    cases h
    have hwindow : ∀ c, ¬(c = cfg.clusterOf (s.inst p).opcode ∧ cfg.recycleAtRetire c = true) := by
      rintro c ⟨rfl, htrue⟩
      exact hretire htrue
    simp only [hwindow, if_false, Int.add_zero]

/-- Two states differ only in what concerns the memory. -/
structure SameCore (s s' : GProcessor) : Prop where
  dinst : s'.dinst = s.dinst
  ROB : s'.ROB = s.ROB
  RAT : s'.RAT = s.RAT
  regPool : s'.regPool = s.regPool
  windowSize : s'.windowSize = s.windowSize
  freeLoads : s'.freeLoads = s.freeLoads
  freeStores : s'.freeStores = s.freeStores
  freeBranches : s'.freeBranches = s.freeBranches
  inserted : s'.inserted = s.inserted
  retired : s'.retired = s.retired

lemma SameCore.rfl : SameCore s s := ⟨Eq.refl _, Eq.refl _, Eq.refl _, Eq.refl _, Eq.refl _, Eq.refl _,
  Eq.refl _, Eq.refl _, Eq.refl _, Eq.refl _⟩

lemma sameCore_storeCompleted (h : s.storeCompleted = .ok s') : SameCore s s' := by
  rw [storeCompleted, check_bind_eq_ok] at h
  cases h.2
  exact { SameCore.rfl with }

/-- Sending a write to the memory. -/
lemma sameCore_createWrite (h : s.storeSent.createWrite p m = .ok s') : SameCore s s' := by
  rw [createWrite] at h
  split at h
  · cases h
    exact { SameCore.rfl with }
  · exact { sameCore_storeCompleted h with }

/-- The effects of a store before it is known whether a fence is pending. -/
def tryStore (s : GProcessor) (p : Ptr) : GProcessor :=
  s.modifyDInst p fun d =>
    { d with slots := d.slots + 1, calls := if d.pendEvent then d.calls + 1 else d.calls }

/-- What a retirement does to the counters. -/
structure Retires (cfg : CoreConfig) (s : GProcessor) (p : Ptr) (res : Resource) (s' : GProcessor) :
    Prop where
  ROB : s.ROB = p :: s'.ROB
  dinst : ∀ q, q ≠ p → s'.dinst q = s.dinst q
  kept : ∀ q, (s'.dinst q).inst = (s.dinst q).inst ∧ (s'.dinst q).executed = (s.dinst q).executed
  RAT : s'.RAT = s.RAT
  inserted : s'.inserted = s.inserted
  retired : s'.retired =
    (if res = .FUStore then (s.tryStore p).dinst p else s.dinst p) :: s.retired
  windowSize : ∀ c, s'.windowSize c = s.windowSize c +
    if c = cfg.clusterOf (s.inst p).opcode ∧ cfg.recycleAtRetire c = true ∧ res ≠ .FUMemory
      then 1 else 0
  regPool : ∀ r, s'.regPool r = s.regPool r + if r = (s.inst p).dstPool then 1 else 0
  freeLoads : s'.freeLoads = s.freeLoads + if res = .FULoad then 1 else 0
  freeStores : s'.freeStores = s.freeStores + if res = .FUStore then 1 else 0
  freeBranches : s'.freeBranches = s.freeBranches

/-- `tryStore` changes neither the instruction nor its execution. -/
lemma dinst_tryStore (q : Ptr) : ((s.tryStore p).dinst q).inst = (s.dinst q).inst ∧
    ((s.tryStore p).dinst q).executed = (s.dinst q).executed := by
  rw [tryStore, modifyDInst]
  by_cases hq : q = p
  · subst hq
    simp only [Function.update_self]
    exact ⟨trivial, trivial⟩
  · simp only [Function.update_of_ne hq]
    exact ⟨trivial, trivial⟩

/-- The resource either keeps the instruction, with no effect or with that of `tryStore`, or it gives
the entries of the instruction back. -/
lemma retireResource_spec (h : s.retireResource cfg p m res = .ok (outcome, s')) :
    outcome ≠ .Retired ∧ (s' = s ∨ s' = s.tryStore p ∧ res = .FUStore ∧ m.freeCycle = true ∧
      m.canAcceptStore = true ∧ s.pendingFence = true) ∨
    outcome = .Retired ∧ ∃ t, SameCore t s' ∧ t = { s with
      dinst := if res = .FUStore then (s.tryStore p).dinst else s.dinst
      windowSize := fun c => s.windowSize c +
        if c = cfg.clusterOf (s.inst p).opcode ∧ cfg.recycleAtRetire c = true ∧ res ≠ .FUMemory
          then 1 else 0
      freeLoads := s.freeLoads + if res = .FULoad then 1 else 0
      freeStores := s.freeStores + if res = .FUStore then 1 else 0 } := by
  have hcluster : ∀ f : GProcessor → GProcessor, (do
      let s ← s.clusterRetire cfg p
      return (RetOutcome.Retired, f s) : Except Fault _) = .ok (outcome, s') →
      outcome = .Retired ∧ s' = f { s with
        windowSize := fun c => s.windowSize c +
          if c = cfg.clusterOf (s.inst p).opcode ∧ cfg.recycleAtRetire c = true then 1 else 0 } := by
    intro f hf
    obtain ⟨t, ht, heq⟩ := bind_eq_ok.1 hf
    cases heq
    exact ⟨rfl, congrArg f (clusterRetire_spec ht)⟩
  cases res with
  | FUMemory =>
    have hnone : ∀ t : GProcessor, SameCore s t → ∃ u, SameCore u t ∧ u = { s with
        dinst := if Resource.FUMemory = .FUStore then (s.tryStore p).dinst else s.dinst
        windowSize := fun c => s.windowSize c +
          if c = cfg.clusterOf (s.inst p).opcode ∧ cfg.recycleAtRetire c = true ∧
            Resource.FUMemory ≠ .FUMemory then 1 else 0
        freeLoads := s.freeLoads + if Resource.FUMemory = .FULoad then 1 else 0
        freeStores := s.freeStores + if Resource.FUMemory = .FUStore then 1 else 0 } := by
      intro t ht
      refine ⟨s, ht, ?_⟩
      simp only [ne_eq, not_true_eq_false, and_false, reduceCtorEq, if_false, Int.add_zero]
    rw [retireResource, retireMemory] at h
    split at h
    · split at h
      · cases h
        exact .inl ⟨by decide, .inl rfl⟩
      · split at h
        · cases h
          exact .inl ⟨by decide, .inl rfl⟩
        · obtain ⟨t, ht, heq⟩ := bind_eq_ok.1 h
          cases heq
          exact .inr ⟨rfl, hnone _ (sameCore_createWrite ht)⟩
    · cases h
      exact .inr ⟨rfl, hnone _ { SameCore.rfl with }⟩
    · cases h
      exact .inr ⟨rfl, hnone _ .rfl⟩
    · cases h
      exact .inr ⟨rfl, hnone _ .rfl⟩
    · cases h
  | FUStore =>
    rw [retireResource, retireStore] at h
    split at h
    · cases h
      exact .inl ⟨by decide, .inl rfl⟩
    · rename_i hcycle
      split at h
      · cases h
        exact .inl ⟨by decide, .inl rfl⟩
      · rename_i haccept
        simp only at h
        split at h
        · rename_i hfence
          cases h
          exact .inl ⟨by decide, .inr ⟨rfl, rfl, by simpa using hcycle, by simpa using haccept, hfence⟩⟩
        · obtain ⟨t, ht, h⟩ := bind_eq_ok.1 h
          obtain ⟨u, hu, heq⟩ := bind_eq_ok.1 h
          cases heq
          obtain ⟨v, hv, heq⟩ := bind_eq_ok.1 hu
          cases heq
          rw [clusterRetire_spec hv]
          have hsame : SameCore (s.tryStore p) t := sameCore_createWrite ht
          have hinst : t.inst p = s.inst p := by
            rw [inst, hsame.dinst]
            exact (dinst_tryStore p).1
          refine .inr ⟨rfl, _, ?_, rfl⟩
          rw [hinst]
          exact
          { dinst := hsame.dinst
            ROB := hsame.ROB
            RAT := hsame.RAT
            regPool := hsame.regPool
            windowSize := by
              rw [hsame.windowSize]
              simp only [ne_eq, reduceCtorEq, not_false_eq_true, and_true]
              rfl
            freeLoads := by
              rw [hsame.freeLoads]
              simp only [reduceCtorEq, if_false, Int.add_zero]
              rfl
            freeStores := by
              rw [hsame.freeStores]
              simp only [if_true]
              rfl
            freeBranches := hsame.freeBranches
            inserted := hsame.inserted
            retired := hsame.retired }
  | FULoad =>
    obtain ⟨houtcome, rfl⟩ := hcluster _ h
    refine .inr ⟨houtcome, _, .rfl, ?_⟩
    simp only [ne_eq, reduceCtorEq, not_false_eq_true, and_true, if_true, if_false, Int.add_zero]
  | FUGeneric =>
    obtain ⟨houtcome, rfl⟩ := hcluster id h
    refine .inr ⟨houtcome, _, .rfl, ?_⟩
    simp only [ne_eq, reduceCtorEq, not_false_eq_true, and_true, if_false, Int.add_zero, id]
  | FUBranch =>
    obtain ⟨houtcome, rfl⟩ := hcluster id h
    refine .inr ⟨houtcome, _, .rfl, ?_⟩
    simp only [ne_eq, reduceCtorEq, not_false_eq_true, and_true, if_false, Int.add_zero, id]
  | FUEvent =>
    obtain ⟨houtcome, rfl⟩ := hcluster id h
    refine .inr ⟨houtcome, _, .rfl, ?_⟩
    simp only [ne_eq, reduceCtorEq, not_false_eq_true, and_true, if_false, Int.add_zero, id]

/-- A fence that cannot be retired: a fetch-op without space in the cache, or while a fence is
pending. -/
def FetchOpRefused (s : GProcessor) (p : Ptr) (m : MemoryState) : Prop :=
  (s.inst p).subCode = .iFetchOp ∧ (m.canAcceptStore = false ∨ s.pendingFence = true)

instance : Decidable (s.FetchOpRefused p m) := inferInstanceAs (Decidable (_ ∧ _))

lemma retireMemory_spec (h : s.retireMemory p m = .ok (outcome, s')) :
    outcome = .Retired ↔ ¬s.FetchOpRefused p m := by
  rw [retireMemory] at h
  rw [FetchOpRefused]
  split at h
  · rename_i hop
    split at h
    · rename_i haccept
      cases h
      simp_all
    · rename_i haccept
      split at h
      · rename_i hfence
        cases h
        simp_all
      · rename_i hfence
        obtain ⟨t, -, heq⟩ := bind_eq_ok.1 h
        cases heq
        simp_all
  · rename_i hop
    cases h
    simp [hop]
  · rename_i hop
    cases h
    simp [hop]
  · rename_i hop
    cases h
    simp [hop]
  · cases h

/-! ### The events -/

lemma act_addInst (h : s.act cfg (.addInst p inst pendEvent) = .ok s') :
    p ∉ s.ROB ∧ p ∉ s.sent ∧ (s' = s ∧ (inst.opcode = .iEvent → s.Stalls cfg inst) ∨
      ∃ res, inst.opcode.resource = some res ∧ ¬s.Stalls cfg inst ∧
        s' = (s.issued (cfg.clusterOf inst.opcode) res).insert p inst pendEvent) := by
  obtain ⟨hfree, h⟩ := check_bind_eq_ok.1 h
  obtain ⟨⟨stall, t⟩, ht, heq⟩ := bind_eq_ok.1 h
  cases heq
  exact ⟨hfree.1, hfree.2, addInst_spec ht⟩

lemma act_execute (h : s.act cfg (.execute p) = .ok s') :
    p ∈ s.ROB ∧ (s.dinst p).executed = false ∧
      ∃ res, (s.inst p).opcode.resource = some res ∧ s' = s.done cfg p res := by
  obtain ⟨⟨hmem, hexecuted⟩, h⟩ := check_bind_eq_ok.1 h
  obtain ⟨res, hres, h⟩ := bind_eq_ok.1 h
  exact ⟨hmem, hexecuted, res, elim_error_eq_ok.1 hres, execute_spec h⟩

/-- An attempt to retire has no effect, or that of `tryStore` when a fence keeps a store back, or the
oldest instruction retires. -/
lemma retire_spec (h : s.retire cfg m = .ok (outcome, s')) :
    ∃ p rest, s.ROB = p :: rest ∧ (outcome ≠ .Retired ∧ s' = s ∨
      outcome ≠ .Retired ∧ s' = s.tryStore p ∧ (s.dinst p).executed = true ∧
        (s.inst p).opcode = .iStore ∧ m.freeCycle = true ∧ m.canAcceptStore = true ∧
        s.pendingFence = true ∨
      outcome = .Retired ∧ (s.dinst p).executed = true ∧
        ∃ res, (s.inst p).opcode.resource = some res ∧ Retires cfg s p res s') := by
  obtain ⟨p, hp, h⟩ := bind_eq_ok.1 h
  rw [elim_error_eq_ok, List.head?_eq_some_iff] at hp
  obtain ⟨rest, hROB⟩ := hp
  refine ⟨p, rest, hROB, ?_⟩
  split at h
  · rename_i hexecuted
    obtain ⟨res, hres, h⟩ := bind_eq_ok.1 h
    rw [elim_error_eq_ok] at hres
    obtain ⟨⟨outcome', t⟩, ht, h⟩ := bind_eq_ok.1 h
    cases h
    rcases retireResource_spec ht with ⟨hnot, htry⟩ | ⟨rfl, t', hsame, ht'⟩
    · rw [if_neg hnot]
      rcases htry with rfl | ⟨rfl, rfl, hcycle, haccept, hfence⟩
      · exact .inl ⟨hnot, rfl⟩
      · have hstore : (s.inst p).opcode = .iStore := by
          cases hopcode : (s.inst p).opcode <;> rw [hopcode] at hres <;> cases hres
        exact .inr (.inl ⟨hnot, rfl, hexecuted, hstore, hcycle, haccept, hfence⟩)
    · refine .inr (.inr ⟨rfl, hexecuted, res, hres, ?_⟩)
      rw [if_pos rfl]
      have hinst : t.inst p = s.inst p := by
        rw [inst, hsame.dinst, ht']
        simp only
        split
        · exact (dinst_tryStore p).1
        · rfl
      subst ht'
      exact
      { ROB := by
          show s.ROB = p :: t.ROB.tail
          rw [hsame.ROB, hROB]
          rfl
        dinst := fun q hq => by
          show t.dinst q = s.dinst q
          rw [hsame.dinst]
          simp only
          split
          · exact Function.update_of_ne hq _ _
          · rfl
        kept := fun q => by
          show (t.dinst q).inst = _ ∧ (t.dinst q).executed = _
          rw [hsame.dinst]
          simp only
          split
          · exact dinst_tryStore q
          · exact ⟨rfl, rfl⟩
        RAT := hsame.RAT
        inserted := hsame.inserted
        retired := by
          show t.dinst p :: t.retired = _
          rw [hsame.dinst, hsame.retired]
          simp only
          split <;> rfl
        windowSize := fun c => congrFun hsame.windowSize c
        regPool := fun r => by
          show Function.update t.regPool (t.inst p).dstPool _ r = _
          rw [hinst, hsame.regPool]
          by_cases hr : r = (s.inst p).dstPool
          · subst hr
            rw [Function.update_self, if_pos rfl]
          · rw [Function.update_of_ne hr, if_neg hr, Int.add_zero]
        freeLoads := hsame.freeLoads
        freeStores := hsame.freeStores
        freeBranches := hsame.freeBranches }
  · cases h
    exact .inl ⟨by decide, rfl⟩

/-- When the oldest instruction is a fence, it retires unless it is refused. -/
lemma retire_fence (h : s.retire cfg m = .ok (outcome, s')) (hp : p ∈ s.ROB.head?)
    (hexecuted : (s.dinst p).executed = true) (hfence : (s.inst p).opcode = .iFence) :
    outcome = .Retired ↔ ¬s.FetchOpRefused p m := by
  obtain ⟨p', hp', h⟩ := bind_eq_ok.1 h
  rw [elim_error_eq_ok] at hp'
  cases hp.symm.trans hp'
  rw [if_pos hexecuted, hfence] at h
  obtain ⟨res, hres, h⟩ := bind_eq_ok.1 h
  cases hres
  obtain ⟨⟨outcome', t⟩, ht, heq⟩ := bind_eq_ok.1 h
  cases heq
  exact retireMemory_spec ht

lemma act_retire (h : s.act cfg (.retire m) = .ok s') :
    ∃ outcome, s.retire cfg m = .ok (outcome, s') := by
  obtain ⟨⟨outcome, t⟩, ht, heq⟩ := bind_eq_ok.1 h
  cases heq
  exact ⟨outcome, ht⟩

lemma act_storeCompleted (h : s.act cfg (.storeCompleted p) = .ok s') :
    p ∈ s.sent ∧ ∃ t, s.storeCompleted = .ok t ∧
      s' = { t with sent := s.sent.erase p, awaited := s.awaited.erase p } := by
  obtain ⟨hmem, h⟩ := check_bind_eq_ok.1 h
  obtain ⟨t, ht, heq⟩ := bind_eq_ok.1 h
  have hframe : t.sent = s.sent ∧ t.awaited = s.awaited := by
    rw [GProcessor.storeCompleted, check_bind_eq_ok] at ht
    cases ht.2
    exact ⟨rfl, rfl⟩
  cases heq
  rw [hframe.1, hframe.2]
  exact ⟨hmem, t, ht, rfl⟩

/-- The instructions of the reorder buffer are different. -/
lemma nodup_ROB_act {e : ProcessorEvent} (hnodup : s.ROB.Nodup) (h : s.act cfg e = .ok s') :
    s'.ROB.Nodup := by
  cases e with
  | addInst p inst pendEvent =>
    obtain ⟨hp, -, ⟨rfl, -⟩ | ⟨res, -, -, rfl⟩⟩ := act_addInst h
    · exact hnodup
    · refine List.nodup_append.2 ⟨hnodup, List.nodup_singleton p, ?_⟩
      rintro x hx y hy rfl
      exact hp (List.mem_singleton.1 hy ▸ hx)
  | execute p =>
    obtain ⟨-, -, res, -, rfl⟩ := act_execute h
    exact hnodup
  | retire m =>
    obtain ⟨outcome, hretire⟩ := act_retire h
    obtain ⟨p, rest, -, ⟨-, rfl⟩ | ⟨-, rfl, -⟩ | ⟨-, -, res, -, hretires⟩⟩ := retire_spec hretire
    · exact hnodup
    · exact hnodup
    · rw [hretires.ROB] at hnodup
      exact hnodup.of_cons
  | storeCompleted p =>
    obtain ⟨-, t, ht, rfl⟩ := act_storeCompleted h
    exact (sameCore_storeCompleted ht).ROB ▸ hnodup

end GProcessor

end Sesc.Processor
