import Sesc.Processor.Accounting

/-!
# Refused retirements and fences

A store is refused when a fence is pending, but only after it has taken a slot of the address generator
and its pending event has been called; other refusals have no effect.  No write is sent while a fence
waits for those that were sent before it.
-/

namespace Sesc.Processor

open Lib

namespace GProcessor

variable (cfg : CoreConfig) (s : GProcessor)

/-- A store takes one slot and has its pending event called once, and not before it retires. -/
structure RetiresOnce : Prop where
  fresh : ∀ p ∈ s.ROB, (s.inst p).opcode = .iStore →
    (s.dinst p).slots = 0 ∧ (s.dinst p).calls = 0
  once : ∀ d ∈ s.retired, d.inst.opcode = .iStore →
    d.slots = 1 ∧ d.calls = if d.pendEvent then 1 else 0

/-- The oldest instruction is a store that only a pending fence keeps back. -/
def KeptBack (m : MemoryState) : Prop :=
  ∃ p ∈ s.ROB.head?, (s.dinst p).executed = true ∧ (s.inst p).opcode = .iStore ∧
    m.freeCycle = true ∧ m.canAcceptStore = true ∧ s.pendingFence = true

instance (m : MemoryState) : Decidable (s.KeptBack m) :=
  inferInstanceAs (Decidable (∃ p ∈ s.ROB.head?, _))

/-- The step does not try to retire a store that a fence keeps back. -/
def RetiresFree : ProcessorEvent → Prop
  | .retire m => ¬s.KeptBack m
  | _ => True

instance : ∀ e, Decidable (s.RetiresFree e)
  | .retire m => inferInstanceAs (Decidable (¬s.KeptBack m))
  | .addInst _ _ _ | .execute _ | .storeCompleted _ => inferInstanceAs (Decidable True)

/-- The outstanding writes are counted, and a pending fence has some to wait for. -/
structure FencesOrdered : Prop where
  nOutsStores : s.nOutsStores = s.sent.length
  pendingFence : s.pendingFence = true → 0 < s.nOutsStores
  /-- Nothing has been sent since the last fence that found writes outstanding, until they were all
  performed. -/
  awaited : s.awaited = if s.pendingFence then s.sent else []

variable {cfg s} {s' t : GProcessor} {p : Ptr} {res : Resource} {inst : Instruction}
  {pendEvent : Bool} {m : MemoryState} {outcome : RetOutcome}

/-! ### Retirements -/

/-- A store that a fence keeps back is refused after its effects. -/
lemma KeptBack.retire (cfg : CoreConfig) (h : s.KeptBack m) : ∃ p ∈ s.ROB.head?,
    (s.inst p).opcode = .iStore ∧ s.retire cfg m = .ok (.WaitForFence, s.tryStore p) := by
  obtain ⟨p, hp, hexecuted, hstore, hcycle, haccept, hfence⟩ := h
  refine ⟨p, hp, hstore, ?_⟩
  have hhead : s.ROB.head? = some p := hp
  have htry : s.retireStore cfg p m = .ok (.WaitForFence, s.tryStore p) := by
    rw [retireStore, hcycle, haccept]
    simp only [Bool.not_true, Bool.false_eq_true, if_false]
    exact if_pos hfence
  rw [GProcessor.retire, hhead, Option.elim_some, ok_bind, if_pos hexecuted, hstore]
  show (s.retireStore cfg p m >>= _) = _
  rw [htry]
  rfl

/-- A refusal has no effect, except that of a store that a fence keeps back. -/
lemma retire_refused (h : s.retire cfg m = .ok (outcome, s')) (hrefused : outcome ≠ .Retired) :
    s' = s ↔ ¬s.KeptBack m := by
  constructor
  · rintro rfl hkept
    obtain ⟨p, hp, -, hretire⟩ := hkept.retire cfg
    have heq : s' = s'.tryStore p := congrArg Prod.snd (Except.ok.inj (h.symm.trans hretire))
    have hslots := congrArg (fun s : GProcessor => (s.dinst p).slots) heq
    simp [tryStore, modifyDInst] at hslots
  · intro hnot
    obtain ⟨p, rest, hROB, ⟨-, rfl⟩ | ⟨-, rfl, hkept⟩ | ⟨rfl, -⟩⟩ := retire_spec h
    · rfl
    · exact absurd ⟨p, by rw [hROB]; rfl, hkept⟩ hnot
    · exact absurd rfl hrefused

/-- The retired stores have had their effects once, and the others none. -/
lemma RetiresOnce.act {e : ProcessorEvent} (hs : s.RetiresOnce) (hnodup : s.ROB.Nodup)
    (hfree : s.RetiresFree e) (h : s.act cfg e = .ok s') : s'.RetiresOnce := by
  cases e with
  | addInst p inst pendEvent =>
    obtain ⟨hp, -, ⟨rfl, -⟩ | ⟨res, hres, hstalls, rfl⟩⟩ := act_addInst h
    · exact hs
    · refine ⟨fun x hx hstore => ?_, hs.once⟩
      by_cases hxp : x = p
      · subst hxp
        have hself : ((s.issued (cfg.clusterOf inst.opcode) res).insert x inst pendEvent).dinst x =
            ⟨inst, pendEvent, false, 0, 0⟩ := Function.update_self _ _ _
        rw [hself]
        exact ⟨rfl, rfl⟩
      · have hsame : ((s.issued (cfg.clusterOf inst.opcode) res).insert p inst pendEvent).dinst x =
            s.dinst x := Function.update_of_ne hxp _ _
        rw [GProcessor.inst, hsame] at hstore
        rw [hsame]
        refine hs.fresh x ((List.mem_append.1 hx).resolve_right fun h => ?_) hstore
        exact hxp (List.mem_singleton.1 h)
  | execute p =>
    obtain ⟨hmem, hexecuted, res, hres, rfl⟩ := act_execute h
    refine ⟨fun x hx hstore => ?_, hs.once⟩
    by_cases hxp : x = p
    · subst hxp
      have hself : (s.done cfg x res).dinst x = { s.dinst x with
          executed := true
          calls := if res = .FUEvent then (s.dinst x).calls + 1 else (s.dinst x).calls } :=
        Function.update_self _ _ _
      rw [GProcessor.inst, hself] at hstore
      have hevent : res ≠ .FUEvent := fun heq => by
        have hop := (resource_eq_iff hres).2.2.2.1.1 heq
        exact absurd (hop.symm.trans hstore) (by decide)
      rw [hself, if_neg hevent]
      exact hs.fresh x hmem hstore
    · have hsame : (s.done cfg p res).dinst x = s.dinst x := Function.update_of_ne hxp _ _
      rw [GProcessor.inst, hsame] at hstore
      rw [hsame]
      exact hs.fresh x hx hstore
  | retire m =>
    obtain ⟨outcome, hretire⟩ := act_retire h
    by_cases houtcome : outcome = .Retired
    · subst houtcome
      obtain ⟨p, rest, hROB, ⟨hnot, -⟩ | ⟨hnot, -⟩ | ⟨-, hexecuted, res, hres, hretires⟩⟩ :=
        retire_spec hretire
      · exact absurd rfl hnot
      · exact absurd rfl hnot
      · have hmem : p ∈ s.ROB := hretires.ROB ▸ List.mem_cons_self
        refine ⟨fun x hx hstore => ?_, fun d hd hstore => ?_⟩
        · have hxp : x ≠ p := by
            rintro rfl
            rw [hretires.ROB] at hnodup
            exact (List.nodup_cons.1 hnodup).1 hx
          rw [inst, hretires.dinst x hxp] at hstore
          rw [hretires.dinst x hxp]
          exact hs.fresh x (hretires.ROB ▸ List.mem_cons_of_mem _ hx) hstore
        · rw [hretires.retired] at hd
          rcases List.mem_cons.1 hd with rfl | hd
          · have hop : (s.inst p).opcode = .iStore := by
              split at hstore
              · rwa [(dinst_tryStore p).1] at hstore
              · exact hstore
            obtain ⟨hslots, hcalls⟩ := hs.fresh p hmem hop
            rw [if_pos ((resource_eq_iff hres).2.1.2 hop), tryStore, modifyDInst]
            simp only [Function.update_self, hslots, hcalls]
            exact ⟨trivial, trivial⟩
          · exact hs.once d hd hstore
    · rw [(retire_refused hretire houtcome).2 hfree]
      exact hs
  | storeCompleted p =>
    obtain ⟨-, t, ht, rfl⟩ := act_storeCompleted h
    have hsame := sameCore_storeCompleted ht
    refine ⟨fun x hx hstore => ?_, hsame.retired ▸ hs.once⟩
    have hdinst : t.dinst x = s.dinst x := congrFun hsame.dinst x
    have hstore' : (t.dinst x).inst.opcode = .iStore := hstore
    rw [hdinst] at hstore'
    show (t.dinst x).slots = 0 ∧ (t.dinst x).calls = 0
    rw [hdinst]
    exact hs.fresh x (hsame.ROB ▸ hx) hstore'

/-! ### Fences -/

/-- What concerns the memory stays the same. -/
def SameMemory (s s' : GProcessor) : Prop :=
  s'.pendingFence = s.pendingFence ∧ s'.nOutsStores = s.nOutsStores ∧ s'.sent = s.sent ∧
    s'.nSent = s.nSent ∧ s'.awaited = s.awaited

lemma FencesOrdered.of_same (hs : s.FencesOrdered) (h : SameMemory s s') : s'.FencesOrdered := by
  obtain ⟨hfence, houts, hsent, -, hawaited⟩ := h
  constructor
  · rw [houts, hsent]
    exact hs.nOutsStores
  · rw [hfence, houts]
    exact hs.pendingFence
  · rw [hawaited, hfence, hsent]
    exact hs.awaited

/-- A write is performed. -/
lemma FencesOrdered.storeCompleted (hs : s.FencesOrdered) (hp : p ∈ s.sent)
    (h : s.storeCompleted = .ok t) :
    { t with sent := s.sent.erase p, awaited := s.awaited.erase p }.FencesOrdered := by
  rw [GProcessor.storeCompleted, check_bind_eq_ok] at h
  obtain ⟨hpos, heq⟩ := h
  cases heq
  have houts := hs.nOutsStores
  have hawaited := hs.awaited
  have hlength := List.length_erase_of_mem hp
  constructor
  · show s.nOutsStores - 1 = ((s.sent.erase p).length : ℤ)
    omega
  · show (if s.nOutsStores - 1 = 0 then false else s.pendingFence) = true → 0 < s.nOutsStores - 1
    split
    · intro hfalse
      cases hfalse
    · intro _
      omega
  · show s.awaited.erase p = if (if s.nOutsStores - 1 = 0 then false else s.pendingFence) = true
      then s.sent.erase p else []
    rw [hawaited]
    by_cases hlast : s.nOutsStores - 1 = 0
    · have hnil : s.sent.erase p = [] := List.length_eq_zero_iff.1 (by omega)
      rw [if_pos hlast, if_neg Bool.false_ne_true]
      split
      · exact hnil
      · rfl
    · rw [if_neg hlast]
      split <;> rfl

/-- A write is sent when no fence is pending. -/
lemma FencesOrdered.createWrite (hs : s.FencesOrdered) (hfence : s.pendingFence = false)
    (h : s.storeSent.createWrite p m = .ok t) : t.FencesOrdered ∧ t.pendingFence = false := by
  have houts := hs.nOutsStores
  have hawaited := hs.awaited
  rw [hfence, if_neg Bool.false_ne_true] at hawaited
  rw [GProcessor.createWrite] at h
  split at h
  · cases h
    refine ⟨⟨?_, ?_, ?_⟩, hfence⟩
    · show s.nOutsStores + 1 = ((p :: s.sent).length : ℤ)
      rw [List.length_cons]
      omega
    · intro htrue
      exact absurd (hfence.symm.trans htrue) Bool.false_ne_true
    · show s.awaited = if s.pendingFence = true then p :: s.sent else []
      rw [hfence, if_neg Bool.false_ne_true]
      exact hawaited
  · rw [GProcessor.storeCompleted, check_bind_eq_ok] at h
    cases h.2
    have hpending : (if s.nOutsStores + 1 - 1 = 0 then false else s.pendingFence) = false := by
      rw [hfence, ite_self]
    refine ⟨⟨?_, ?_, ?_⟩, hpending⟩
    · show s.nOutsStores + 1 - 1 = (s.sent.length : ℤ)
      omega
    · intro htrue
      exact absurd (hpending.symm.trans htrue) Bool.false_ne_true
    · show s.awaited = if (if s.nOutsStores + 1 - 1 = 0 then false else s.pendingFence) = true
        then s.sent else []
      rw [hpending, if_neg Bool.false_ne_true]
      exact hawaited

lemma FencesOrdered.doFence (hs : s.FencesOrdered) : s.doFence.FencesOrdered := by
  have houts := hs.nOutsStores
  constructor
  · exact houts
  · show (if 0 < s.nOutsStores then true else s.pendingFence) = true → 0 < s.nOutsStores
    split
    · rename_i hpos
      exact fun _ => hpos
    · exact hs.pendingFence
  · show s.sent = if (if 0 < s.nOutsStores then true else s.pendingFence) = true then s.sent else []
    by_cases hpos : 0 < s.nOutsStores
    · rw [if_pos hpos, if_pos rfl]
    · have hnil : s.sent = [] := List.length_eq_zero_iff.1 (by omega)
      rw [hnil, ite_self]

lemma sameMemory_clusterRetire (h : s.clusterRetire cfg p = .ok t) : SameMemory s t := by
  rw [clusterRetire_spec h]
  exact ⟨rfl, rfl, rfl, rfl, rfl⟩

/-- A retirement keeps the order of the writes, and sends one only while no fence is pending. -/
lemma FencesOrdered.retireResource (hs : s.FencesOrdered)
    (h : s.retireResource cfg p m res = .ok (outcome, t)) :
    t.FencesOrdered ∧ (s.nSent < t.nSent → s.pendingFence = false) := by
  have hcluster : ∀ f : GProcessor → GProcessor, (∀ s, SameMemory s (f s)) → (do
      let s ← s.clusterRetire cfg p
      return (RetOutcome.Retired, f s) : Except Fault _) = .ok (outcome, t) →
      t.FencesOrdered ∧ (s.nSent < t.nSent → s.pendingFence = false) := by
    intro f hf h
    obtain ⟨u, hu, heq⟩ := bind_eq_ok.1 h
    cases heq
    have hsame := sameMemory_clusterRetire hu
    refine ⟨(hs.of_same hsame).of_same (hf u), fun hlt => ?_⟩
    rw [(hf u).2.2.2.1, hsame.2.2.2.1] at hlt
    exact absurd hlt (Nat.lt_irrefl _)
  have hstays : ∀ t : GProcessor, SameMemory s t →
      t.FencesOrdered ∧ (s.nSent < t.nSent → s.pendingFence = false) := by
    intro t hsame
    refine ⟨hs.of_same hsame, fun hlt => ?_⟩
    rw [hsame.2.2.2.1] at hlt
    exact absurd hlt (Nat.lt_irrefl _)
  have hsame : ∀ s : GProcessor, SameMemory s s := fun s => ⟨rfl, rfl, rfl, rfl, rfl⟩
  cases res with
  | FUMemory =>
    rw [GProcessor.retireResource, retireMemory] at h
    split at h
    · split at h
      · cases h
        exact hstays s (hsame s)
      · split at h
        · cases h
          exact hstays s (hsame s)
        · rename_i hfence
          obtain ⟨u, hu, heq⟩ := bind_eq_ok.1 h
          cases heq
          exact ⟨(hs.createWrite (by simpa using hfence) hu).1, fun _ => by simpa using hfence⟩
    · cases h
      exact ⟨hs.doFence, fun hlt => absurd hlt (Nat.lt_irrefl _)⟩
    · cases h
      exact hstays s (hsame s)
    · cases h
      exact hstays s (hsame s)
    · cases h
  | FUStore =>
    rw [GProcessor.retireResource, retireStore] at h
    split at h
    · cases h
      exact hstays s (hsame s)
    · split at h
      · cases h
        exact hstays s (hsame s)
      · have htry : SameMemory s (s.tryStore p) := ⟨rfl, rfl, rfl, rfl, rfl⟩
        simp only at h
        split at h
        · cases h
          exact hstays _ htry
        · rename_i hfence
          have hfence' : s.pendingFence = false := (Bool.not_eq_true _).mp hfence
          obtain ⟨u, hu, h⟩ := bind_eq_ok.1 h
          obtain ⟨v, hv, heq⟩ := bind_eq_ok.1 h
          cases heq
          obtain ⟨w, hw, heq⟩ := bind_eq_ok.1 hv
          cases heq
          have hsent := ((hs.of_same htry).createWrite hfence' hu).1
          exact ⟨(hsent.of_same (sameMemory_clusterRetire hw)).of_same (hsame w), fun _ => hfence'⟩
  | FULoad =>
    exact hcluster (fun s => { s with freeLoads := s.freeLoads + 1 })
      (fun s => ⟨rfl, rfl, rfl, rfl, rfl⟩) h
  | FUGeneric => exact hcluster id hsame h
  | FUBranch => exact hcluster id hsame h
  | FUEvent => exact hcluster id hsame h

lemma FencesOrdered.act {e : ProcessorEvent} (hs : s.FencesOrdered) (h : s.act cfg e = .ok s') :
    s'.FencesOrdered ∧ (s.nSent < s'.nSent → s.awaited = []) := by
  have hawaited : s.pendingFence = false → s.awaited = [] := by
    intro hfence
    rw [hs.awaited, hfence, if_neg Bool.false_ne_true]
  cases e with
  | addInst p inst pendEvent =>
    obtain ⟨-, -, ⟨rfl, -⟩ | ⟨res, -, -, rfl⟩⟩ := act_addInst h
    · exact ⟨hs, fun hlt => absurd hlt (Nat.lt_irrefl _)⟩
    · exact ⟨hs.of_same ⟨rfl, rfl, rfl, rfl, rfl⟩, fun hlt => absurd hlt (Nat.lt_irrefl _)⟩
  | execute p =>
    obtain ⟨-, -, res, -, rfl⟩ := act_execute h
    exact ⟨hs.of_same ⟨rfl, rfl, rfl, rfl, rfl⟩, fun hlt => absurd hlt (Nat.lt_irrefl _)⟩
  | retire m =>
    obtain ⟨outcome, hretire⟩ := act_retire h
    obtain ⟨p, hp, hretire⟩ := bind_eq_ok.1 hretire
    split at hretire
    · obtain ⟨res, hres, hretire⟩ := bind_eq_ok.1 hretire
      obtain ⟨⟨outcome', t⟩, ht, heq⟩ := bind_eq_ok.1 hretire
      cases heq
      obtain ⟨horder, hsends⟩ := hs.retireResource ht
      split
      · exact ⟨horder.of_same ⟨rfl, rfl, rfl, rfl, rfl⟩, fun hlt => hawaited (hsends hlt)⟩
      · exact ⟨horder, fun hlt => hawaited (hsends hlt)⟩
    · cases hretire
      exact ⟨hs, fun hlt => absurd hlt (Nat.lt_irrefl _)⟩
  | storeCompleted p =>
    obtain ⟨hp, t, ht, rfl⟩ := act_storeCompleted h
    refine ⟨hs.storeCompleted hp ht, fun hlt => ?_⟩
    rw [GProcessor.storeCompleted, check_bind_eq_ok] at ht
    cases ht.2
    exact absurd hlt (Nat.lt_irrefl _)

end GProcessor

open GProcessor

/-- All along a run, stores take their slots and have their events called once if and only if no step
tries to retire a store that a pending fence keeps back; a refusal has no effect exactly when it is not
such a refusal.  In all runs the outstanding writes are counted, and none is sent while a fence waits. -/
theorem retiresOnce_iff (cfg : CoreConfig) (es : List ProcessorEvent) (s : GProcessor)
    (hrun : (processor cfg).Run es s) :
    ((∀ es' s', es' <+: es → (processor cfg).Run es' s' → s'.RetiresOnce) ↔
      (processor cfg).RunWhere RetiresFree es s) ∧
    (∀ m outcome s', s.retire cfg m = .ok (outcome, s') → outcome ≠ .Retired →
      (s' = s ↔ ¬s.KeptBack m)) ∧
    s.FencesOrdered ∧
    ∀ e s', (processor cfg).step s e = .ok s' → s.nSent < s'.nSent → s.awaited = [] := by
  have horder : s.FencesOrdered := hrun.invariant (I := fun s => s.FencesOrdered)
    ⟨rfl, fun h => absurd h Bool.false_ne_true, rfl⟩ fun s e s' hs _ hstep => (hs.act hstep).1
  refine ⟨hrun.always_iff_runWhere (I := fun s => s.RetiresOnce ∧ s.ROB.Nodup)
    ⟨⟨fun p hp => absurd hp List.not_mem_nil, fun d hd => absurd hd List.not_mem_nil⟩,
      List.nodup_nil⟩ (fun s hs => hs.1)
    (fun s e s' hs hfree hstep => ⟨hs.1.act hs.2 hfree hstep, nodup_ROB_act hs.2 hstep⟩) ?_,
    fun m outcome s' => retire_refused, horder, fun e s' hstep => (horder.act hstep).2⟩
  -- the store that is kept back has taken a slot
  intro s e s' _ hkept hstep hs'
  cases e with
  | retire m =>
    obtain ⟨outcome, hretire⟩ := act_retire hstep
    obtain ⟨p, hp, hstore, hrefused⟩ := (not_not.1 hkept).retire cfg
    have heq : s' = s.tryStore p := congrArg Prod.snd (Except.ok.inj (hretire.symm.trans hrefused))
    subst heq
    have hmem : p ∈ (s.tryStore p).ROB := List.mem_of_mem_head? hp
    have hzero := (hs'.fresh p hmem (by rw [inst, (dinst_tryStore p).1]; exact hstore)).1
    simp [tryStore, modifyDInst] at hzero
  | addInst p inst pendEvent => exact hkept trivial
  | execute p => exact hkept trivial
  | storeCompleted p => exact hkept trivial

def store : Instruction := ⟨.iStore, .iMemory, 4, 5, InvalidOutput, 2⟩

/-- The fence waits for the first store, and the second store is tried only after that. -/
def storeAfterFence : List ProcessorEvent :=
  [.addInst 0 store false, .addInst 1 memFence false, .addInst 2 store true, .execute 0, .execute 1,
    .execute 2, .retire ready, .retire ready, .retire ⟨false, true, true⟩, .storeCompleted 0,
    .retire ready]

/-- Both stores have taken one slot each. -/
theorem retiresOnce_iff_storeAfterFence : ∃ s,
    (processor (oneCluster false false)).Run storeAfterFence s ∧ s.retired.length = 3 ∧
      s.sent = [2] ∧ s.RetiresOnce ∧ s.FencesOrdered := by
  have hrun : succeeds (((processor (oneCluster false false)).guarded (fun s e =>
      decide (s.RetiresFree e)) .noSuchEvent).exec (processor (oneCluster false false)).init
        storeAfterFence)
      (fun s => decide (s.retired.length = 3 ∧ s.sent = [2])) = true := by
    decide +kernel
  obtain ⟨s, hs, htest⟩ := succeeds_iff.1 hrun
  obtain ⟨hretired, hsent⟩ := of_decide_eq_true htest
  have hwhere := (Machine.run_of_exec hs).of_guarded.mono (D := RetiresFree) fun _ _ =>
    of_decide_eq_true
  have hiff := retiresOnce_iff (oneCluster false false) storeAfterFence s hwhere.run
  exact ⟨s, hwhere.run, hretired, hsent,
    hiff.1.2 hwhere storeAfterFence s (List.prefix_refl _) hwhere.run, hiff.2.2.1⟩

/-- The second store is tried twice while the fence is pending. -/
def storeBehindFence : List ProcessorEvent :=
  [.addInst 0 store false, .addInst 1 memFence false, .addInst 2 store true, .execute 0, .execute 1,
    .execute 2, .retire ready, .retire ready, .retire ready, .retire ready]

/-- It has taken two slots and had its event called twice, and is not retired. -/
theorem not_retiresOnce : ∃ s, (processor (oneCluster false false)).Run storeBehindFence s ∧
    s.ROB = [2] ∧ (s.dinst 2).slots = 2 ∧ (s.dinst 2).calls = 2 ∧
    (∃ s', s.retire (oneCluster false false) ready = .ok (.WaitForFence, s') ∧
      (s'.dinst 2).calls = 3) ∧ ¬s.RetiresOnce := by
  have hrun : succeeds ((processor (oneCluster false false)).exec
      (processor (oneCluster false false)).init storeBehindFence)
      (fun s => decide (s.ROB = [2] ∧ (s.inst 2).opcode = .iStore ∧ (s.dinst 2).slots = 2 ∧
        (s.dinst 2).calls = 2 ∧ succeeds (s.retire (oneCluster false false) ready)
          fun r => decide (r.1 = .WaitForFence ∧ (r.2.dinst 2).calls = 3))) = true := by
    decide +kernel
  obtain ⟨s, hs, htest⟩ := succeeds_iff.1 hrun
  obtain ⟨hROB, hstore, hslots, hcalls, hretire⟩ := of_decide_eq_true htest
  obtain ⟨⟨outcome, s'⟩, hs', htest'⟩ := succeeds_iff.1 hretire
  obtain ⟨houtcome, hcalls'⟩ := of_decide_eq_true htest'
  refine ⟨s, Machine.run_of_exec hs, hROB, hslots, hcalls, ⟨s', ?_, hcalls'⟩, fun h => ?_⟩
  · rw [hs']
    exact congrArg (fun outcome => Except.ok (outcome, s')) houtcome
  · have hzero := (h.fresh 2 (by rw [hROB]; exact List.mem_cons_self) hstore).1
    rw [hslots] at hzero
    cases hzero

end Sesc.Processor
