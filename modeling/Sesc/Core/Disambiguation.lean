import Mathlib.Data.List.Basic
import Sesc.Core.LDSTQ

/-!
# What the load/store queue finds

The queues have the instructions in flight in program order, so that the search finds every younger
instruction that was resolved too early, and an older store to forward from unless the only one is the
oldest instruction of the queue: the loop ends before it looks at that one.
-/

namespace Sesc.Core

open Lib

/-- The instructions that have been inserted and not removed, the oldest first. -/
def inflight : List LsqEvent → List Ptr :=
  List.foldl (fun ds e => match e with
    | .insert d _ _ => ds ++ [d]
    | .executed _ => ds
    | .remove d => ds.erase d) []

namespace LDSTQ

variable (s : LDSTQ) (dinst : Ptr)

/-- The instructions in flight with an address in a word. -/
def onWord (w : Word) : List Ptr := s.rob.filter fun q => (s.insts q).calcWord = w

/-- The younger instructions in flight for the same word. -/
def younger : List Ptr :=
  (s.rob.dropWhile (· ≠ dinst)).tail.filter fun q => (s.insts q).calcWord = (s.insts dinst).calcWord

/-- The older instructions in flight for the same word. -/
def older : List Ptr :=
  (s.rob.takeWhile (· ≠ dinst)).filter fun q => (s.insts q).calcWord = (s.insts dinst).calcWord

/-- A load or a store that is resolved. -/
def resolvedAs (op : MemOp) (q : Ptr) : Bool :=
  (s.insts q).resolved && (s.insts q).op = op

/-- An instruction is executed with complete disambiguation: the younger loads that were resolved too
early are replayed, the conflicts are counted by their kind, and a load is forwarded from an older
store. -/
def Disambiguates : Prop :=
  ∃ doReplay s', s.executed dinst = .ok (doReplay, s') ∧
    (doReplay = true ↔ ∃ q ∈ s.younger dinst, s.resolvedAs .load q = true) ∧
    s'.replayed = s.replayed ++ ((s.younger dinst).filter (s.resolvedAs .load)).reverse ∧
    s'.ldldViolations = s.ldldViolations +
      (if (s.insts dinst).op = .load then (s.younger dinst).countP (s.resolvedAs .load) else 0) ∧
    s'.stldViolations = s.stldViolations +
      (if (s.insts dinst).op = .store then (s.younger dinst).countP (s.resolvedAs .load) else 0) ∧
    s'.ststViolations = s.ststViolations +
      (if (s.insts dinst).op = .store then (s.younger dinst).countP (s.resolvedAs .store) else 0) ∧
    s'.stldForwarding = s.stldForwarding +
      (if (s.insts dinst).op = .load ∧ ∃ q ∈ s.older dinst, s.resolvedAs .store q = true
        then 1 else 0)

/-- The only store to forward a load from is the oldest instruction of its queue. -/
def OnlyOldest : Prop :=
  (s.insts dinst).op = .load ∧ ∃ q rest, s.older dinst = q :: rest ∧ s.resolvedAs .store q = true ∧
    ∀ x ∈ rest, s.resolvedAs .store x = false

/-- What holds of the queues between two events. -/
structure Inv (es : List LsqEvent) (s : LDSTQ) : Prop where
  rob_eq : s.rob = inflight es
  nodup : s.rob.Nodup
  inflightInsts_iff : ∀ d, s.inflightInsts d = true ↔ d ∈ s.rob
  instMap_eq : ∀ w, s.instMap w = if s.onWord w = [] then none else some (s.onWord w)

variable {s s' : LDSTQ} {dinst q : Ptr} {es : List LsqEvent} {r : Search}

lemma Inv.queue_eq (h : s.Inv es) (dinst : Ptr) :
    s.queue dinst = s.onWord (s.insts dinst).calcWord := by
  rw [queue, h.instMap_eq]
  split
  · rename_i hnil
    rw [hnil]
    rfl
  · rfl

/-- The instructions before and after one in flight. -/
lemma exists_split {ds : List Ptr} (hnodup : ds.Nodup) (hd : dinst ∈ ds) :
    ∃ as bs, ds = as ++ dinst :: bs ∧ dinst ∉ as ∧ dinst ∉ bs ∧ (∀ q ∈ bs, q ∉ as) ∧
      ds.takeWhile (· ≠ dinst) = as ∧ ds.dropWhile (· ≠ dinst) = dinst :: bs := by
  obtain ⟨as, bs, rfl⟩ := List.append_of_mem hd
  obtain ⟨-, hnodup', hdisjoint⟩ := List.nodup_append.1 hnodup
  have has : dinst ∉ as := fun hmem => hdisjoint dinst hmem dinst List.mem_cons_self rfl
  have hpos : ∀ q ∈ as, decide (q ≠ dinst) = true := by
    intro q hq
    exact decide_eq_true fun heq => has (heq ▸ hq)
  refine ⟨as, bs, rfl, has, (List.nodup_cons.1 hnodup').1, ?_, ?_, ?_⟩
  · intro q hq hmem
    exact hdisjoint q hmem q (List.mem_cons_of_mem _ hq) rfl
  · rw [List.takeWhile_append_of_pos hpos, List.takeWhile_cons_of_neg (by simp), List.append_nil]
  · rw [List.dropWhile_append_of_pos hpos, List.dropWhile_cons_of_neg (by simp)]

/-- The queue of an instruction in flight. -/
lemma Inv.queue_split (h : s.Inv es) (hd : dinst ∈ s.rob) :
    s.queue dinst = s.older dinst ++ dinst :: s.younger dinst := by
  obtain ⟨as, bs, hrob, -, -, -, htake, hdrop⟩ := exists_split h.nodup hd
  rw [h.queue_eq, onWord, older, younger, htake, hdrop, hrob, List.filter_append, List.filter_cons,
    if_pos (decide_eq_true rfl)]
  rfl

/-- A younger instruction is not the one that is executed, and is replayed without it. -/
lemma Inv.younger_spec (h : s.Inv es) (hd : dinst ∈ s.rob) (hq : q ∈ s.younger dinst) :
    q ≠ dinst ∧ dinst ∉ s.rob.dropWhile (· ≠ q) := by
  obtain ⟨as, bs, hrob, has, hbs, hdisjoint, -, hdrop⟩ := exists_split h.nodup hd
  rw [younger, hdrop] at hq
  have hq : q ∈ bs := List.mem_of_mem_filter hq
  have hne : q ≠ dinst := fun heq => hbs (heq ▸ hq)
  refine ⟨hne, ?_⟩
  have hpos : ∀ x ∈ as, decide (x ≠ q) = true := by
    intro x hx
    exact decide_eq_true fun heq => hdisjoint q hq (heq ▸ hx)
  rw [hrob, List.dropWhile_append_of_pos hpos, List.dropWhile_cons_of_pos (by simp [hne.symm])]
  exact fun hmem => hbs ((List.dropWhile_sublist _).mem hmem)

/-! ## The search -/

/-- Two states have the same instructions, except for those that are dead, and the same queues. -/
structure Same (s s' : LDSTQ) : Prop where
  insts : ∀ q, (s'.insts q).op = (s.insts q).op ∧ (s'.insts q).vaddr = (s.insts q).vaddr ∧
    (s'.insts q).resolved = (s.insts q).resolved
  rob : s'.rob = s.rob
  inflightInsts : s'.inflightInsts = s.inflightInsts
  instMap : s'.instMap = s.instMap
  stldForwarding : s'.stldForwarding = s.stldForwarding

lemma Same.refl : Same s s := ⟨fun _ => ⟨rfl, rfl, rfl⟩, rfl, rfl, rfl, rfl⟩

lemma Same.resolvedAs_eq (h : Same s s') (op : MemOp) (q : Ptr) :
    s'.resolvedAs op q = s.resolvedAs op q := by
  obtain ⟨hop, -, hresolved⟩ := h.insts q
  rw [resolvedAs, resolvedAs, hop, hresolved]

/-- Replaying keeps everything but what is dead. -/
lemma same_replay (s : LDSTQ) (q : Ptr) : Same s (s.replay q) := by
  rw [replay]
  simp only
  split
  · exact ⟨fun _ => ⟨rfl, rfl, rfl⟩, rfl, rfl, rfl, rfl⟩
  · refine ⟨fun x => ?_, rfl, rfl, rfl, rfl⟩
    dsimp only
    split <;> exact ⟨rfl, rfl, rfl⟩

lemma replayed_replay (s : LDSTQ) (q : Ptr) : (s.replay q).replayed = s.replayed ++ [q] := by
  rw [replay]
  simp only
  split <;> rfl

lemma counts_replay (s : LDSTQ) (q : Ptr) :
    (s.replay q).ldldViolations = s.ldldViolations ∧
      (s.replay q).stldViolations = s.stldViolations ∧
      (s.replay q).ststViolations = s.ststViolations := by
  rw [replay]
  simp only
  split <;> exact ⟨rfl, rfl, rfl⟩

/-- An older instruction is not replayed. -/
lemma alive_replay (hd : dinst ∉ s.rob.dropWhile (· ≠ q)) :
    ((s.replay q).insts dinst).deadInst = (s.insts dinst).deadInst := by
  rw [replay]
  simp only
  split
  · rfl
  · simp only
    rw [if_neg hd]

/-- What the search has found among some younger instructions. -/
structure Searched (s : LDSTQ) (dinst : Ptr) (qs : List Ptr) (r : Search) : Prop where
  beforeInst : r.beforeInst = true
  same : Same s r.lsq
  alive : (r.lsq.insts dinst).deadInst = false
  doReplay : r.doReplay = true ↔ ∃ q ∈ qs, s.resolvedAs .load q = true
  replayed : r.lsq.replayed = s.replayed ++ qs.filter (s.resolvedAs .load)
  ldld : r.lsq.ldldViolations = s.ldldViolations +
    if (s.insts dinst).op = .load then qs.countP (s.resolvedAs .load) else 0
  stld : r.lsq.stldViolations = s.stldViolations +
    if (s.insts dinst).op = .store then qs.countP (s.resolvedAs .load) else 0
  stst : r.lsq.ststViolations = s.ststViolations +
    if (s.insts dinst).op = .store then qs.countP (s.resolvedAs .store) else 0

lemma searched_nil (halive : (s.insts dinst).deadInst = false) :
    Searched s dinst [] ⟨s, true, false⟩ := by
  refine ⟨rfl, .refl, halive, ?_, ?_, ?_, ?_, ?_⟩ <;> simp

/-- A younger load is replayed, and a conflict with it is counted. -/
lemma Searched.replay {qs : List Ptr} (h : Searched s dinst qs r)
    (hyounger : dinst ∉ s.rob.dropWhile (· ≠ q)) (hload : s.resolvedAs .load q = true)
    (hstore : s.resolvedAs .store q = false) {ldld stld : ℕ}
    (hldld : ldld = s.ldldViolations +
      if (s.insts dinst).op = .load then (qs ++ [q]).countP (s.resolvedAs .load) else 0)
    (hstld : stld = s.stldViolations +
      if (s.insts dinst).op = .store then (qs ++ [q]).countP (s.resolvedAs .load) else 0) :
    Searched s dinst (qs ++ [q])
      ⟨{ r.lsq with ldldViolations := ldld, stldViolations := stld }.replayUnlessDead dinst q,
        true, r.doReplay || true⟩ := by
  have hsame : Same s { r.lsq with ldldViolations := ldld, stldViolations := stld } :=
    ⟨h.same.insts, h.same.rob, h.same.inflightInsts, h.same.instMap, h.same.stldForwarding⟩
  generalize ht : ({ r.lsq with ldldViolations := ldld, stldViolations := stld } : LDSTQ) = t at hsame
  have halive : (t.insts dinst).deadInst = false := ht ▸ h.alive
  have hreplay := same_replay t q
  obtain ⟨hldld', hstld', hstst'⟩ := counts_replay t q
  rw [replayUnlessDead, halive]
  simp only [Bool.false_eq_true, if_false]
  refine ⟨rfl, ?_, ?_, ?_, ?_, ?_, ?_, ?_⟩
  · refine ⟨fun x => ?_, hreplay.rob.trans hsame.rob,
      hreplay.inflightInsts.trans hsame.inflightInsts, hreplay.instMap.trans hsame.instMap,
      hreplay.stldForwarding.trans hsame.stldForwarding⟩
    obtain ⟨hop, hvaddr, hresolved⟩ := hreplay.insts x
    obtain ⟨hop', hvaddr', hresolved'⟩ := hsame.insts x
    exact ⟨hop.trans hop', hvaddr.trans hvaddr', hresolved.trans hresolved'⟩
  · have hrob : dinst ∉ t.rob.dropWhile (· ≠ q) := by rwa [hsame.rob]
    show ((t.replay q).insts dinst).deadInst = false
    rw [alive_replay hrob, halive]
  · exact iff_of_true (Bool.or_true _) ⟨q, by simp, hload⟩
  · show (t.replay q).replayed = _
    have hold : t.replayed = r.lsq.replayed := by rw [← ht]
    rw [replayed_replay, hold, h.replayed, List.filter_append, List.append_assoc,
      List.filter_cons_of_pos hload]
    rfl
  · exact hldld'.trans (by rw [← ht]; exact hldld)
  · exact hstld'.trans (by rw [← ht]; exact hstld)
  · have hold : t.ststViolations = r.lsq.ststViolations := by rw [← ht]
    show (t.replay q).ststViolations = _
    rw [hstst', hold, h.stst, List.countP_append, List.countP_cons_of_neg (by rw [hstore]; simp)]
    rfl

/-- An iteration over a younger instruction. -/
lemma Searched.visit {qs : List Ptr} (h : Searched s dinst qs r) (hne : q ≠ dinst)
    (hyounger : dinst ∉ s.rob.dropWhile (· ≠ q)) :
    Searched s dinst (qs ++ [q]) (visit dinst r q) := by
  have hbefore : (r.beforeInst && decide (q ≠ dinst)) = true := by
    rw [h.beforeInst, decide_eq_true hne]
    rfl
  obtain ⟨hopd, -, -⟩ := h.same.insts dinst
  obtain ⟨hopq, -, hresolved⟩ := h.same.insts q
  rw [LDSTQ.visit]
  simp only [hbefore, Bool.true_and, hresolved]
  by_cases hr : (s.insts q).resolved = true
  · -- the instruction was resolved too early
    rw [if_pos hr, violation, hopd, hopq]
    cases hd : (s.insts dinst).op with
    | load =>
      cases hq : (s.insts q).op with
      | load =>
        have hload : s.resolvedAs .load q = true := by simp [resolvedAs, hr, hq]
        have hstore : s.resolvedAs .store q = false := by simp [resolvedAs, hq]
        refine h.replay hyounger hload hstore ?_ ?_
        · rw [h.ldld, if_pos hd, if_pos hd, List.countP_append, List.countP_cons_of_pos hload]
          rfl
        · rw [h.stld, if_neg (by simp [hd]), if_neg (by simp [hd])]
      | store =>
        have hload : s.resolvedAs .load q = false := by simp [resolvedAs, hq]
        refine ⟨rfl, h.same, h.alive, ?_, ?_, ?_, ?_, ?_⟩
        · simpa [hload] using h.doReplay
        · simpa [hload] using h.replayed
        · simpa [hload] using h.ldld
        · simpa [hd] using h.stld
        · simpa [hd] using h.stst
    | store =>
      cases hq : (s.insts q).op with
      | load =>
        have hload : s.resolvedAs .load q = true := by simp [resolvedAs, hr, hq]
        have hstore : s.resolvedAs .store q = false := by simp [resolvedAs, hq]
        refine h.replay hyounger hload hstore ?_ ?_
        · rw [h.ldld, if_neg (by simp [hd]), if_neg (by simp [hd])]
        · rw [h.stld, if_pos hd, if_pos hd, List.countP_append, List.countP_cons_of_pos hload]
          rfl
      | store =>
        have hload : s.resolvedAs .load q = false := by simp [resolvedAs, hq]
        have hstore : s.resolvedAs .store q = true := by simp [resolvedAs, hr, hq]
        refine ⟨rfl, ⟨h.same.insts, h.same.rob, h.same.inflightInsts, h.same.instMap,
          h.same.stldForwarding⟩, h.alive, ?_, ?_, ?_, ?_, ?_⟩
        · simpa [hload] using h.doReplay
        · simpa [hload] using h.replayed
        · simpa [hd] using h.ldld
        · simpa [hload] using h.stld
        · show r.lsq.ststViolations + 1 = _
          rw [h.stst, if_pos hd, if_pos hd, List.countP_append, List.countP_cons_of_pos hstore]
          rfl
  · have hnot : ∀ op, s.resolvedAs op q = false := by
      intro op
      simp [resolvedAs, hr]
    rw [if_neg hr]
    refine ⟨rfl, h.same, h.alive, ?_, ?_, ?_, ?_, ?_⟩
    · simpa [hnot] using h.doReplay
    · simpa [hnot] using h.replayed
    · simpa [hnot] using h.ldld
    · simpa [hnot] using h.stld
    · simpa [hnot] using h.stst

/-- The search passes over younger instructions. -/
lemma Searched.search {qs ys rest : List Ptr} (h : Searched s dinst qs r)
    (hyounger : ∀ q ∈ ys, q ≠ dinst ∧ dinst ∉ s.rob.dropWhile (· ≠ q)) (hrest : rest ≠ []) :
    ∃ r', Searched s dinst (qs ++ ys) r' ∧ search dinst (ys ++ rest) r = search dinst rest r' := by
  induction ys generalizing qs r with
  | nil => exact ⟨r, by simpa using h, rfl⟩
  | cons y ys ih =>
    rw [List.forall_mem_cons] at hyounger
    have hvisit := h.visit hyounger.1.1 hyounger.1.2
    obtain ⟨r', hr', hsearch⟩ := ih hvisit hyounger.2
    refine ⟨r', by simpa using hr', ?_⟩
    obtain ⟨x, xs, hxs⟩ := List.exists_cons_of_ne_nil (List.append_ne_nil_of_right_ne_nil ys hrest)
    rw [List.cons_append, hxs, LDSTQ.search]
    have hforwards : forwards dinst (LDSTQ.visit dinst r y) y = false := by
      rw [forwards, hvisit.beforeInst]
      rfl
    simp only [hforwards]
    rw [← hxs]
    exact hsearch

/-- A load is forwarded from a store among the older instructions, but for the last one. -/
lemma search_older (dinst : Ptr) (qs : List Ptr) (hbefore : r.beforeInst = false) :
    search dinst qs r =
      if (r.lsq.insts dinst).op = .load ∧ ∃ q ∈ qs.dropLast, r.lsq.resolvedAs .store q = true then
        { r with lsq := { r.lsq with stldForwarding := r.lsq.stldForwarding + 1 } }
      else r := by
  induction qs with
  | nil => simp [search]
  | cons q qs ih =>
    cases qs with
    | nil => simp [search]
    | cons q' rest =>
      have hvisit : LDSTQ.visit dinst r q = r := by
        rw [LDSTQ.visit, hbefore]
        simp only [Bool.false_and, Bool.false_eq_true, if_false]
        rw [← hbefore]
      have hforwards : forwards dinst r q = true ↔
          (r.lsq.insts dinst).op = .load ∧ r.lsq.resolvedAs .store q = true := by
        simp [forwards, hbefore, DInst.isLoad, DInst.isStore, resolvedAs, and_assoc,
          and_comm (a := (r.lsq.insts q).op = _)]
      rw [search]
      simp only [hvisit]
      rw [ih, List.dropLast_cons_of_ne_nil (List.cons_ne_nil q' rest)]
      by_cases hq : forwards dinst r q = true
      · obtain ⟨hload, hstore⟩ := hforwards.1 hq
        rw [if_pos hq, if_pos ⟨hload, q, List.mem_cons_self, hstore⟩]
      · rw [if_neg hq]
        refine if_congr (and_congr_right fun hload => ?_) rfl rfl
        rw [List.exists_mem_cons_iff, or_iff_right fun hstore => hq (hforwards.2 ⟨hload, hstore⟩)]

/-- The search from the instruction that is executed on. -/
lemma search_self (hbefore : r.beforeInst = true) (qs : List Ptr) :
    search dinst (dinst :: qs.reverse) r =
      ⟨{ r.lsq with stldForwarding := r.lsq.stldForwarding +
        if (r.lsq.insts dinst).op = .load ∧ ∃ q ∈ qs.tail, r.lsq.resolvedAs .store q = true
          then 1 else 0 }, qs = [], r.doReplay⟩ := by
  cases hqs : qs.reverse with
  | nil =>
    cases List.reverse_eq_nil_iff.1 hqs
    simp [search, ← hbefore]
  | cons x xs =>
    have hvisit : LDSTQ.visit dinst r dinst = { r with beforeInst := false } := by
      simp [LDSTQ.visit]
    have hforwards : forwards dinst { r with beforeInst := false } dinst = false := by
      cases hop : (r.lsq.insts dinst).op <;> simp [forwards, DInst.isLoad, DInst.isStore, hop]
    have hne : qs ≠ [] := by
      rintro rfl
      cases hqs
    rw [search]
    simp only [hvisit, hforwards]
    have holder := search_older dinst qs.reverse (r := { r with beforeInst := false }) rfl
    rw [hqs] at holder
    simp only [Bool.false_eq_true, if_false]
    rw [holder, ← hqs, List.dropLast_reverse, decide_eq_false hne]
    simp only [List.mem_reverse]
    split <;> rfl

/-- What `executed` does to an instruction in flight. -/
lemma Inv.executed_eq (h : s.Inv es) (hd : dinst ∈ s.rob)
    (halive : (s.insts dinst).deadInst = false) :
    ∃ r, Searched (s.markResolved dinst) dinst (s.younger dinst).reverse r ∧
      s.executed dinst = .ok (r.doReplay, { r.lsq with stldForwarding := s.stldForwarding +
        if (s.insts dinst).op = .load ∧ ∃ q ∈ (s.older dinst).tail, s.resolvedAs .store q = true
          then 1 else 0 }) := by
  have hrob : (s.markResolved dinst).rob = s.rob := rfl
  have hyounger : ∀ q ∈ (s.younger dinst).reverse,
      q ≠ dinst ∧ dinst ∉ (s.markResolved dinst).rob.dropWhile (· ≠ q) := by
    intro q hq
    rw [hrob]
    exact h.younger_spec hd (List.mem_reverse.1 hq)
  have hstart : Searched (s.markResolved dinst) dinst [] ⟨s.markResolved dinst, true, false⟩ := by
    refine searched_nil ?_
    rw [markResolved, modify]
    simpa using halive
  obtain ⟨r, hr, hsearch⟩ :=
    hstart.search hyounger (List.cons_ne_nil dinst (s.older dinst).reverse)
  rw [search_self hr.beforeInst] at hsearch
  have hsome : (s.instMap (s.insts dinst).calcWord).isSome = true := by
    cases hq : s.instMap (s.insts dinst).calcWord with
    | some ds => rfl
    | none =>
      have hsplit := h.queue_split hd
      rw [queue, hq] at hsplit
      exact absurd (congrArg List.length hsplit) (by simp)
  refine ⟨r, by simpa using hr, ?_⟩
  rw [executed, halive]
  simp only [Bool.false_eq_true, if_false]
  rw [(h.inflightInsts_iff dinst).2 hd, hsome, h.queue_split hd, List.reverse_append,
    List.reverse_cons, List.append_assoc, List.singleton_append, hsearch]
  have hop : (r.lsq.insts dinst).op = (s.insts dinst).op := by
    rw [(hr.same.insts dinst).1, markResolved, modify]
    simp
  have hfwd : r.lsq.stldForwarding = s.stldForwarding := hr.same.stldForwarding
  have hstores : (∃ q ∈ (s.older dinst).tail, r.lsq.resolvedAs .store q = true) ↔
      ∃ q ∈ (s.older dinst).tail, s.resolvedAs .store q = true := by
    refine exists_congr fun q => and_congr_right fun hq => ?_
    obtain ⟨as, bs, -, has, -, -, htake, -⟩ := exists_split h.nodup hd
    have hne : q ≠ dinst := by
      rintro rfl
      have hmem := List.mem_of_mem_filter (List.mem_of_mem_tail hq)
      exact has (htake ▸ hmem)
    rw [hr.same.resolvedAs_eq, resolvedAs, resolvedAs, markResolved, modify]
    simp [hne]
  simp only [hop, hfwd, hstores]
  rfl

/-! ## What the queue has -/

lemma inflight_snoc_insert (d : Ptr) (op : MemOp) (vaddr : ℕ) :
    inflight (es ++ [.insert d op vaddr]) = inflight es ++ [d] := List.foldl_append

lemma inflight_snoc_executed (d : Ptr) : inflight (es ++ [.executed d]) = inflight es :=
  List.foldl_append

lemma inflight_snoc_remove (d : Ptr) : inflight (es ++ [.remove d]) = (inflight es).erase d :=
  List.foldl_append

lemma Inv.insert (h : s.Inv es) {op : MemOp} {vaddr : ℕ}
    (hstep : s.insert dinst op vaddr = .ok s') : s'.Inv (es ++ [.insert dinst op vaddr]) := by
  obtain ⟨hnew, hstep⟩ := check_bind_eq_ok.1 hstep
  cases hstep
  have hd : dinst ∉ s.rob := fun hmem => by
    rw [(h.inflightInsts_iff dinst).2 hmem] at hnew
    cases hnew
  generalize ht : s.modify dinst (fun _ => ⟨op, vaddr, false, false⟩) = t
  have hinsts : ∀ q ∈ s.rob, t.insts q = s.insts q := by
    intro q hq
    have hne : q ≠ dinst := fun heq => hd (heq ▸ hq)
    rw [← ht]
    exact Function.update_of_ne hne _ _
  have honWord : ∀ w, t.onWord w = s.onWord w := by
    intro w
    have hrob : t.rob = s.rob := by rw [← ht]; rfl
    rw [onWord, onWord, hrob]
    exact List.filter_congr fun q hq => by rw [hinsts q hq]
  have hqueue : t.queue dinst = s.onWord (t.insts dinst).calcWord := by
    have hmap : t.instMap = s.instMap := by rw [← ht]; rfl
    rw [queue, hmap, h.instMap_eq]
    split
    · rename_i hnil
      rw [hnil]
      rfl
    · rfl
  have hrob : t.rob = s.rob := by rw [← ht]; rfl
  refine ⟨?_, ?_, ?_, ?_⟩
  · rw [inflight_snoc_insert, ← h.rob_eq]
    exact congrArg (· ++ [dinst]) hrob
  · show (t.rob ++ [dinst]).Nodup
    rw [hrob, List.nodup_append]
    refine ⟨h.nodup, List.nodup_singleton _, fun a ha b hb => ?_⟩
    rw [List.mem_singleton.1 hb]
    exact fun heq => hd (heq ▸ ha)
  · intro d
    show Function.update t.inflightInsts dinst true d = true ↔ d ∈ t.rob ++ [dinst]
    have hinflight : t.inflightInsts = s.inflightInsts := by rw [← ht]; rfl
    rw [hrob, hinflight]
    by_cases heq : d = dinst
    · subst heq
      simp
    · simp [heq, h.inflightInsts_iff d]
  · intro w
    show Function.update t.instMap _ _ w =
      if (t.rob ++ [dinst]).filter (fun q => (t.insts q).calcWord = w) = [] then none
      else some ((t.rob ++ [dinst]).filter fun q => (t.insts q).calcWord = w)
    have hfilter : (t.rob ++ [dinst]).filter (fun q => (t.insts q).calcWord = w) =
        s.onWord w ++ if (t.insts dinst).calcWord = w then [dinst] else [] := by
      rw [List.filter_append, ← honWord w, List.filter_singleton]
      simp [onWord]
    rw [hfilter]
    by_cases hw : (t.insts dinst).calcWord = w
    · subst hw
      rw [Function.update_self, hqueue, if_pos rfl, if_neg (by simp)]
    · have hmap : t.instMap = s.instMap := by rw [← ht]; rfl
      rw [Function.update_of_ne (Ne.symm hw), hmap, if_neg hw, List.append_nil, h.instMap_eq]

lemma Inv.executed (h : s.Inv es) {doReplay : Bool}
    (hstep : s.executed dinst = .ok (doReplay, s')) : s'.Inv (es ++ [.executed dinst]) := by
  by_cases hdead : (s.insts dinst).deadInst = true
  · rw [LDSTQ.executed, if_pos hdead] at hstep
    cases hstep
    exact ⟨by rw [inflight_snoc_executed, h.rob_eq], h.nodup, h.inflightInsts_iff, h.instMap_eq⟩
  have halive : (s.insts dinst).deadInst = false := by simpa using hdead
  have hd : dinst ∈ s.rob := by
    have hchecked := hstep
    rw [LDSTQ.executed, if_neg hdead] at hchecked
    obtain ⟨_, hinflight, -⟩ := bind_eq_ok.1 hchecked
    exact (h.inflightInsts_iff dinst).1 (check_test_eq_ok.1 hinflight)
  obtain ⟨r, hr, heq⟩ := h.executed_eq hd halive
  cases heq.symm.trans hstep
  have hrob : r.lsq.rob = s.rob := hr.same.rob
  have hmap : r.lsq.instMap = s.instMap := hr.same.instMap
  have hinflight : r.lsq.inflightInsts = s.inflightInsts := hr.same.inflightInsts
  have hword : ∀ q, (r.lsq.insts q).calcWord = (s.insts q).calcWord := by
    intro q
    rw [DInst.calcWord, (hr.same.insts q).2.1, markResolved, modify]
    by_cases hq : q = dinst
    · subst hq
      simp [DInst.calcWord]
    · simp [DInst.calcWord, hq]
  refine ⟨?_, ?_, ?_, ?_⟩
  · rw [inflight_snoc_executed]
    exact hrob.trans h.rob_eq
  · show r.lsq.rob.Nodup
    rw [hrob]
    exact h.nodup
  · intro d
    show r.lsq.inflightInsts d = true ↔ d ∈ r.lsq.rob
    rw [hrob, hinflight]
    exact h.inflightInsts_iff d
  · intro w
    show r.lsq.instMap w = if r.lsq.rob.filter (fun q => (r.lsq.insts q).calcWord = w) = [] then none
      else some (r.lsq.rob.filter fun q => (r.lsq.insts q).calcWord = w)
    simp only [hrob, hmap, hword]
    exact h.instMap_eq w

lemma Inv.remove (h : s.Inv es) (hstep : s.remove dinst = .ok s') :
    s'.Inv (es ++ [.remove dinst]) := by
  obtain ⟨-, -, hstep⟩ := bind_eq_ok.1 hstep
  obtain ⟨-, -, hstep⟩ := bind_eq_ok.1 hstep
  obtain ⟨-, hstep⟩ := check_bind_eq_ok.1 hstep
  cases hstep
  refine ⟨?_, h.nodup.erase dinst, ?_, ?_⟩
  · rw [inflight_snoc_remove, ← h.rob_eq]
  · intro d
    show Function.update s.inflightInsts dinst false d = true ↔ d ∈ s.rob.erase dinst
    rw [h.nodup.mem_erase_iff]
    by_cases heq : d = dinst
    · subst heq
      simp
    · simp [heq, h.inflightInsts_iff d]
  · intro w
    show Function.update s.instMap _ _ w =
      if (s.rob.erase dinst).filter (fun q => (s.insts q).calcWord = w) = [] then none
      else some ((s.rob.erase dinst).filter fun q => (s.insts q).calcWord = w)
    have herase : (s.rob.erase dinst).filter (fun q => (s.insts q).calcWord = w) =
        (s.onWord w).filter (· ≠ dinst) := by
      rw [h.nodup.erase_eq_filter, onWord, List.filter_filter, List.filter_filter]
      refine List.filter_congr fun q _ => ?_
      by_cases hq : q = dinst <;> simp [hq]
    rw [herase]
    by_cases hw : (s.insts dinst).calcWord = w
    · subst hw
      have hnodup : (s.onWord (s.insts dinst).calcWord).Nodup := h.nodup.filter _
      have hqueue : (s.queue dinst).erase dinst =
          (s.onWord (s.insts dinst).calcWord).filter (· ≠ dinst) := by
        rw [h.queue_eq, hnodup.erase_eq_filter]
        refine List.filter_congr fun q _ => ?_
        by_cases hq : q = dinst <;> simp [hq]
      rw [Function.update_self, hqueue]
    · rw [Function.update_of_ne (Ne.symm hw), h.instMap_eq]
      have hall : (s.onWord w).filter (· ≠ dinst) = s.onWord w := by
        refine List.filter_eq_self.2 fun q hq => decide_eq_true ?_
        rintro rfl
        exact hw (of_decide_eq_true (List.mem_filter.1 hq).2)
      rw [hall]

/-- The queues have exactly the instructions in flight, after every run. -/
lemma inv_run (h : ldstq.Run es s) : s.Inv es := by
  induction h with
  | nil => exact ⟨rfl, List.nodup_nil, fun d => by simp [ldstq, new], fun w => rfl⟩
  | @snoc es s s' e _ _ hstep ih =>
    cases e with
    | insert d op vaddr => exact ih.insert hstep
    | executed d =>
      obtain ⟨⟨doReplay, s₁⟩, hexecuted, hs₁⟩ := bind_eq_ok.1 hstep
      cases hs₁
      exact ih.executed hexecuted
    | remove d => exact ih.remove hstep

/-- An instruction in flight that is not dead is executed with complete disambiguation exactly when
the only store to forward from is not the oldest of the queue. -/
lemma Inv.disambiguates_iff (h : s.Inv es) (hd : dinst ∈ s.rob)
    (halive : (s.insts dinst).deadInst = false) : s.Disambiguates dinst ↔ ¬s.OnlyOldest dinst := by
  obtain ⟨r, hr, heq⟩ := h.executed_eq hd halive
  have hresolved : ∀ op, ∀ q ∈ s.younger dinst,
      (s.markResolved dinst).resolvedAs op q = s.resolvedAs op q := by
    intro op q hq
    have hne := (h.younger_spec hd hq).1
    rw [resolvedAs, resolvedAs, markResolved, modify]
    simp [hne]
  have hcount : ∀ op, (s.younger dinst).reverse.countP ((s.markResolved dinst).resolvedAs op) =
      (s.younger dinst).countP (s.resolvedAs op) := by
    intro op
    rw [List.countP_reverse]
    exact List.countP_congr fun q hq => by rw [hresolved op q hq]
  have hop : ((s.markResolved dinst).insts dinst).op = (s.insts dinst).op := by
    simp [markResolved, modify]
  have hreplay : r.doReplay = true ↔ ∃ q ∈ s.younger dinst, s.resolvedAs .load q = true := by
    rw [hr.doReplay]
    refine exists_congr fun q => ?_
    rw [List.mem_reverse]
    exact and_congr_right fun hq => by rw [hresolved .load q hq]
  have hreplayed : r.lsq.replayed =
      s.replayed ++ ((s.younger dinst).filter (s.resolvedAs .load)).reverse := by
    rw [hr.replayed, List.filter_reverse]
    exact congrArg (s.replayed ++ List.reverse ·) (List.filter_congr (hresolved .load))
  have hldld := hr.ldld
  have hstld := hr.stld
  have hstst := hr.stst
  rw [hop, hcount] at hldld hstld hstst
  -- only the forwarding may differ
  have hforward : s.Disambiguates dinst ↔
      ((s.insts dinst).op = .load → ((∃ q ∈ (s.older dinst).tail, s.resolvedAs .store q = true) ↔
        ∃ q ∈ s.older dinst, s.resolvedAs .store q = true)) := by
    constructor
    · rintro ⟨doReplay, s', hs', -, -, -, -, -, hfwd⟩ hload
      cases heq.symm.trans hs'
      replace hfwd := Nat.add_left_cancel hfwd
      simp only [hload, true_and] at hfwd
      split at hfwd <;> rename_i htail <;> split at hfwd <;> rename_i hall
      · exact iff_of_true htail hall
      · cases hfwd
      · cases hfwd
      · exact iff_of_false htail hall
    · intro hsame
      refine ⟨_, _, heq, hreplay, hreplayed, hldld, hstld, hstst, ?_⟩
      exact congrArg (s.stldForwarding + ·) (if_congr (and_congr_right hsame) rfl rfl)
  rw [hforward]
  constructor
  · rintro hsame ⟨hload, q, rest, hold, hq, hrest⟩
    have hiff := hsame hload
    rw [hold] at hiff
    obtain ⟨x, hx, hstore⟩ := hiff.2 ⟨q, List.mem_cons_self, hq⟩
    rw [hrest x hx] at hstore
    cases hstore
  · intro hnot hload
    refine ⟨fun ⟨q, hq, hstore⟩ => ⟨q, List.mem_of_mem_tail hq, hstore⟩, ?_⟩
    rintro ⟨q, hq, hstore⟩
    by_contra hnone
    obtain ⟨x, rest, hold⟩ := List.exists_cons_of_ne_nil (List.ne_nil_of_mem hq)
    have hrest : ∀ y ∈ rest, s.resolvedAs .store y = false := by
      intro y hy
      rw [Bool.eq_false_iff]
      exact fun hy' => hnone ⟨y, by rw [hold]; exact hy, hy'⟩
    refine hnot ⟨hload, x, rest, hold, ?_, hrest⟩
    rw [hold] at hq
    rcases List.mem_cons.1 hq with rfl | hq
    · exact hstore
    · rw [hrest q hq] at hstore
      cases hstore

/-- The queues have exactly the instructions in flight, and an instruction that is not dead is
executed with complete disambiguation if and only if it is no load whose only store to forward from
is the oldest instruction of its queue. -/
theorem disambiguates_iff_of_run (h : ldstq.Run es s) :
    (∀ d, s.inflightInsts d = true ↔ d ∈ inflight es) ∧
    (∀ w, s.instMap w = if (inflight es).filter (fun q => (s.insts q).calcWord = w) = [] then none
      else some ((inflight es).filter fun q => (s.insts q).calcWord = w)) ∧
    ∀ dinst ∈ inflight es, (s.insts dinst).deadInst = false →
      (s.Disambiguates dinst ↔ ¬s.OnlyOldest dinst) := by
  have hinv := inv_run h
  rw [← hinv.rob_eq]
  exact ⟨hinv.inflightInsts_iff, hinv.instMap_eq, fun _ hd halive => hinv.disambiguates_iff hd halive⟩

/-- Two stores and three loads of a word; the last load is resolved first, and the first store after
the loads. -/
def fiveAccesses : List LsqEvent :=
  [.insert 0 .store 8, .insert 1 .load 8, .insert 2 .store 9, .insert 3 .load 10, .insert 4 .load 11,
    .executed 4, .executed 2, .executed 0]

/-- The fourth access replays nothing and is forwarded from the third one. -/
theorem disambiguates_fiveAccesses : ∃ s, ldstq.Run fiveAccesses s ∧
    s.replayed = [4, 4] ∧ s.ststViolations = 1 ∧ s.older 3 = [0, 1, 2] ∧
    (∀ d, s.inflightInsts d = true ↔ d ∈ inflight fiveAccesses) ∧
    (∀ w, s.instMap w =
      if (inflight fiveAccesses).filter (fun q => (s.insts q).calcWord = w) = [] then none
      else some ((inflight fiveAccesses).filter fun q => (s.insts q).calcWord = w)) ∧
    ∀ dinst ∈ inflight fiveAccesses, (s.insts dinst).deadInst = false →
      (s.Disambiguates dinst ↔ ¬s.OnlyOldest dinst) := by
  have hrun : succeeds (ldstq.exec ldstq.init fiveAccesses) (fun s =>
      decide (s.replayed = [4, 4] ∧ s.ststViolations = 1 ∧ s.older 3 = [0, 1, 2])) = true := by
    decide +kernel
  obtain ⟨s, hs, htest⟩ := succeeds_iff.1 hrun
  obtain ⟨hreplayed, hstst, holder⟩ := of_decide_eq_true htest
  have hrun := Machine.run_of_exec hs
  exact ⟨s, hrun, hreplayed, hstst, holder, disambiguates_iff_of_run hrun⟩

/-- A load is not forwarded from the only store before it. -/
theorem not_disambiguates_oldest : ∃ s, ldstq.Run
      [.insert 0 .store 8, .insert 1 .load 8, .executed 0] s ∧
    s.older 1 = [0] ∧ s.resolvedAs .store 0 = true ∧ (s.insts 1).op = .load ∧
    (s.insts 1).deadInst = false ∧
    (∃ s', s.executed 1 = .ok (false, s') ∧ s'.stldForwarding = s.stldForwarding) ∧
    ¬s.Disambiguates 1 := by
  have hrun : succeeds (ldstq.exec ldstq.init
      [.insert 0 .store 8, .insert 1 .load 8, .executed 0]) (fun s =>
      decide (s.older 1 = [0] ∧ s.resolvedAs .store 0 = true ∧ (s.insts 1).op = .load ∧
        (s.insts 1).deadInst = false) &&
      succeeds (s.executed 1) fun r => decide (r.1 = false ∧
        r.2.stldForwarding = s.stldForwarding)) = true := by
    decide +kernel
  obtain ⟨s, hs, htest⟩ := succeeds_iff.1 hrun
  obtain ⟨hfacts, hexecuted⟩ := Bool.and_eq_true_iff.1 htest
  obtain ⟨holder, hstore, hload, halive⟩ := of_decide_eq_true hfacts
  obtain ⟨⟨doReplay, s'⟩, heq, hresult⟩ := succeeds_iff.1 hexecuted
  obtain ⟨hreplay, hfwd⟩ := of_decide_eq_true hresult
  have hreplay : doReplay = false := hreplay
  refine ⟨s, Machine.run_of_exec hs, holder, hstore, hload, halive,
    ⟨s', by rw [heq, hreplay], hfwd⟩, ?_⟩
  rintro ⟨b, t, ht, -, -, -, -, -, hforward⟩
  cases heq.symm.trans ht
  rw [if_pos ⟨hload, 0, by rw [holder]; exact List.mem_singleton.2 rfl, hstore⟩] at hforward
  have hsame : s'.stldForwarding = s.stldForwarding := hfwd
  omega

end LDSTQ

end Sesc.Core
