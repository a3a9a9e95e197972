import Mathlib.Algebra.BigOperators.Group.Finset.Basic
import Sesc.Core.FetchEngine

/-!
# Counting the fetched instructions

The engine recovers the number of instructions that it has fetched from what remains of its limit.  The
number is right when the limit is the width, and the instructions that are counted before they are
executed are those in the bucket when all of them exist.
-/

namespace Sesc.Core

open Lib

namespace FetchEngine

variable {C : FetchConfig} {fe : FetchEngine}

/-- Branches do not change the numbers of instructions. -/
def SameCounts (fe fe' : FetchEngine) : Prop :=
  fe'.nFetched = fe.nFetched ∧ fe'.nGradInsts = fe.nGradInsts

lemma sameCounts_endBlock : SameCounts fe (fe.endBlock C) := by
  unfold endBlock
  split <;> exact ⟨rfl, rfl⟩

lemma processBranch_sameCounts {now : ℕ} {d : FetchedInst} :
    Ensures (fun r => SameCounts fe r.2) (fe.processBranch C now d) := by
  have hblock : SameCounts fe
      (if decide (d.oracleID ≠ d.calcNextInstID) = true then fe.endBlock C else fe) := by
    split
    · exact sameCounts_endBlock
    · exact ⟨rfl, rfl⟩
  unfold processBranch
  dsimp only
  split
  · split
    · rename_i htaken
      rw [if_pos htaken] at hblock
      exact ensures_ok.2 hblock
    · exact ensures_ok.2 ⟨rfl, rfl⟩
  · rw [ensures_check_bind]
    intro _
    rw [ensures_check_bind]
    exact fun _ => ensures_pure.2 hblock

lemma countInst_sameCounts {now : ℕ} {d : FetchedInst} :
    Ensures (fun r => SameCounts fe r.2) (fe.countInst C now d) := by
  unfold countInst
  dsimp only
  split
  · exact processBranch_sameCounts.mono fun r hr => hr
  · exact ensures_ok.2 ⟨rfl, rfl⟩

end FetchEngine

namespace FetchState

variable {C : FetchConfig} {s s' : FetchState} {now : ℕ} {os : List Execution}

/-- The instructions that have been counted, in the engine and in the processes. -/
def graduated (s : FetchState) : ℕ := s.nGradInsts + s.handedOver

lemma graduated_executePC (o : Execution) : (s.executePC o).graduated = s.graduated + 1 := by
  unfold executePC graduated getAndClearnGradInsts
  cases o.switchedTo <;> simp only <;> omega

lemma totals_executePC (o : Execution) : (s.executePC o).totalnInst = s.totalnInst ∧
    (s.executePC o).nFetched = s.nFetched := by
  unfold executePC
  cases o.switchedTo <;> exact ⟨rfl, rfl⟩

/-- What a recorded part of the loop does to the limit, the counters and the bucket. -/
structure Fills (os : List Execution) (n n' : ℤ) (s s' : FetchState) (b b' : FetchBuffer) : Prop where
  size : b'.size = b.size + os.countP Execution.found
  limit : n' = n - os.countP Execution.found
  graduated : s'.graduated = s.graduated + os.length
  totalnInst : s'.totalnInst = s.totalnInst
  nFetched : s'.nFetched = s.nFetched
  room : b.size ≤ b.pipeMask + 1 → b'.size ≤ b.pipeMask + 1
  nonneg : 0 < n → 0 ≤ n'

lemma fetchLoop_spec {myPid : ℤ} {rest : List Execution} {b' : FetchBuffer} {n' : ℤ} :
    ∀ {os n s b}, fetchLoop C now myPid os n s b = .ok (n', s', b', rest) →
      ∃ used, os = used ++ rest ∧ Fills used n n' s s' b b' := by
  intro os
  induction os with
  | nil =>
    intro n s b h
    cases h
  | cons o os ih =>
    intro n s b h
    have hgraduated := graduated_executePC (s := s) o
    have htotals := totals_executePC (s := s) o
    rw [fetchLoop] at h
    cases hdinst : o.dinst with
    | none =>
      have hfound : Execution.found o = false := by rw [Execution.found, hdinst, Option.isSome_none]
      rw [hdinst] at h
      cases h
      exact ⟨[o], rfl, by simp [hfound], by simp [hfound], hgraduated, htotals.1, htotals.2, id,
        Int.le_of_lt⟩
    | some d =>
      have hfound : Execution.found o = true := by rw [Execution.found, hdinst, Option.isSome_some]
      rw [hdinst] at h
      obtain ⟨b₁, hpush, h⟩ := bind_eq_ok.1 h
      obtain ⟨⟨goesOn, fe⟩, hcount, h⟩ := bind_eq_ok.1 h
      obtain ⟨hfetched, hgrad⟩ := FetchEngine.countInst_sameCounts _ hcount
      simp only [FastQueue.push, check_bind_eq_ok] at hpush
      obtain ⟨hroom, -, hpush⟩ := hpush
      have hsize : b₁.size = b.size + 1 := by
        cases hpush
        rfl
      have hmask : b₁.pipeMask = b.pipeMask := by
        cases hpush
        rfl
      have hone : Fills [o] n (n - 1) s { s.executePC o with toFetchEngine := fe } b b₁ := by
        refine ⟨by simp [hfound, hsize], by simp [hfound], ?_, htotals.1, hfetched.trans htotals.2,
          fun _ => ?_, fun hn => by omega⟩
        · rw [graduated, hgrad]
          exact hgraduated
        · rw [hsize]
          exact Nat.succ_le_succ hroom
      dsimp only at h
      split at h
      · rename_i hgoes
        obtain ⟨used, rfl, hused⟩ := ih h
        refine ⟨o :: used, rfl, ?_, ?_, ?_, hused.totalnInst.trans hone.totalnInst,
          hused.nFetched.trans hone.nFetched, fun hle => ?_, fun _ => hused.nonneg hgoes.2.1⟩
        · rw [hused.size, hsize, List.countP_cons_of_pos hfound]
          omega
        · rw [hused.limit, List.countP_cons_of_pos hfound]
          omega
        · rw [hused.graduated, hone.graduated, List.length_singleton, List.length_cons]
          omega
        · rw [← hmask]
          exact hused.room (by rw [hmask]; exact hone.room hle)
      · cases h
        exact ⟨[o], rfl, hone⟩

/-- The number of the instructions that are put into the bucket. -/
def pushed (os : List Execution) : ℕ := os.countP Execution.found

lemma pushed_eq_length_iff : pushed os = os.length ↔ ∀ o ∈ os, o.dinst ≠ none := by
  rw [pushed, List.countP_eq_length]
  simp [Execution.found, Option.isSome_iff_ne_none]

variable {fetchMax : ℤ} {b b' : FetchBuffer}

/-- What a call does to the counters and to the bucket. -/
lemma realFetch_spec (h : s.realFetch C now fetchMax os b = .ok (s', b')) :
    b.size = 0 ∧ b'.size = pushed os ∧ pushed os ≤ b.pipeMask + 1 ∧
    0 ≤ limit C fetchMax - pushed os ∧
    s'.graduated = s.graduated + os.length ∧
    s'.totalnInst = s.totalnInst + ((C.FetchWidth - (limit C fetchMax - pushed os)) % 65536).toNat ∧
    s'.nFetched = s.nFetched + ((C.FetchWidth - (limit C fetchMax - pushed os)) % 65536).toNat := by
  simp only [realFetch, check_bind_eq_ok] at h
  obtain ⟨-, -, hempty, -, h⟩ := h
  obtain ⟨⟨n', t, b'', rest⟩, hloop, h⟩ := bind_eq_ok.1 h
  obtain ⟨used, hos, hused⟩ := fetchLoop_spec hloop
  obtain ⟨⟨⟩, hrest, h⟩ := bind_eq_ok.1 h
  have hnil : rest = [] := List.isEmpty_iff.1 (check_test_eq_ok.1 hrest)
  rw [hnil, List.append_nil] at hos
  cases h
  subst hos
  have hpushed : b''.size = pushed os := by
    rw [hused.size, hempty, Nat.zero_add, pushed]
  have hlimit : 0 < limit C fetchMax := by
    have hwidth := C.one_le_FetchWidth
    unfold limit
    split <;> omega
  have hn := hused.limit
  rw [← pushed] at hn
  refine ⟨hempty, hpushed, ?_, hn ▸ hused.nonneg hlimit, hused.graduated, ?_, ?_⟩
  · rw [← hpushed]
    exact hused.room (by rw [hempty]; exact Nat.zero_le _)
  · show t.totalnInst + _ = _
    rw [hused.totalnInst, hn]
  · show t.nFetched + _ = _
    rw [hused.nFetched, hn]

/-- The number of the pushed instructions, and the limit, are far from the width of the counters. -/
lemma exact_iff {W m : ℤ} {p : ℕ} (hW : 1 ≤ W) (hW' : W ≤ 1024) (hp : p ≤ 2050) :
    ((W - (m - p)) % 65536).toNat = p ↔ m % 65536 = W := by
  omega

/-- The counters of all fetched instructions grow by those in the bucket. -/
def CountsFetched (s s' : FetchState) (b' : FetchBuffer) : Prop :=
  s'.totalnInst = s.totalnInst + b'.size ∧ s'.nFetched = s.nFetched + b'.size

/-- The counter of the instructions that graduate grows by those in the bucket; a part of it may have been
handed over. -/
def CountsGraduated (s s' : FetchState) (b' : FetchBuffer) : Prop :=
  s'.graduated = s.graduated + b'.size

/-- The limit is the width, or looks like it in 16 bits. -/
def FullLimit (C : FetchConfig) (fetchMax : ℤ) : Prop :=
  fetchMax ≤ 0 ∨ fetchMax % 65536 = C.FetchWidth

lemma countsFetched_iff (hnew : FastQueue.new (C.FetchWidth + 1) = .ok b)
    (h : s.realFetch C now fetchMax os b = .ok (s', b')) :
    CountsFetched s s' b' ↔ FullLimit C fetchMax := by
  obtain ⟨-, hsize, hroom, -, -, htotal, hfetched⟩ := realFetch_spec h
  have hmask := FastQueue.pipeMask_lt_of_new hnew
  have hwidth := C.one_le_FetchWidth
  have hwidth' := C.FetchWidth_le
  have hfull : FullLimit C fetchMax ↔ limit C fetchMax % 65536 = C.FetchWidth := by
    unfold FullLimit limit
    split <;> omega
  rw [CountsFetched, hsize, htotal, hfetched, hfull, Nat.add_left_cancel_iff, Nat.add_left_cancel_iff,
    and_self]
  exact exact_iff (by omega) (by omega) (by omega)

lemma countsGraduated_iff (h : s.realFetch C now fetchMax os b = .ok (s', b')) :
    CountsGraduated s s' b' ↔ ∀ o ∈ os, o.dinst ≠ none := by
  obtain ⟨-, hsize, -, -, hgraduated, -⟩ := realFetch_spec h
  rw [CountsGraduated, hsize, hgraduated, Nat.add_left_cancel_iff, eq_comm, pushed_eq_length_iff]

end FetchState

/-! ## The sum over the flows -/

namespace SMTProcessor

open Finset

variable {C : SMTConfig} {s s' : SMTProcessor}

/-- The sum of a counter over the flows. -/
def total (C : SMTConfig) (s : SMTProcessor) (f : FetchEngine → ℕ) : ℕ :=
  ∑ k ∈ range C.smtContexts, f (s.flow k)

/-- The counters are the number of the instructions that have been delivered. -/
structure Counted (C : SMTConfig) (s : SMTProcessor) : Prop where
  nFetched : s.total C FetchEngine.nFetched = s.delivered
  totalnInst : s.totalnInst = s.delivered
  nGradInsts : s.total C FetchEngine.nGradInsts + s.handedOver = s.delivered

/-- A step delivers some instructions; the counters of fetched instructions grow by `a` more than that,
the other one by `b` more. -/
def Grows (C : SMTConfig) (s s' : SMTProcessor) (a b : ℕ) : Prop :=
  ∃ d, s'.delivered = s.delivered + d ∧
    s'.total C FetchEngine.nFetched = s.total C FetchEngine.nFetched + d + a ∧
    s'.totalnInst = s.totalnInst + d + a ∧
    s'.total C FetchEngine.nGradInsts + s'.handedOver =
      s.total C FetchEngine.nGradInsts + s.handedOver + d + b

/-- Where the next flow fetches, it may fetch as much as the width, and each execution returns an
instruction. -/
def Meets (C : SMTConfig) (s : SMTProcessor) : FetchEvent → Prop
  | .serve _ hasBucket os => ∀ k, s.nextFlow C C.smtContexts s.cFetchId = some k → hasBucket = true →
      (s.flow k).missInstID = 0 → C.FetchWidth ≤ s.nextFetchMax C ∧ ∀ o ∈ os, o.dinst ≠ none
  | _ => True

lemma total_update {k : ℕ} (hk : k < C.smtContexts) (f : FetchEngine → ℕ) (fe : FetchEngine) :
    (∑ j ∈ range C.smtContexts, f (Function.update s.flow k fe j)) + f (s.flow k) =
      s.total C f + f fe := by
  have hmem : k ∈ range C.smtContexts := mem_range.2 hk
  have hrest : ∑ j ∈ (range C.smtContexts).erase k, f (Function.update s.flow k fe j) =
      ∑ j ∈ (range C.smtContexts).erase k, f (s.flow j) := by
    refine sum_congr rfl fun j hj => ?_
    rw [Function.update_of_ne (ne_of_mem_erase hj)]
  have hnew := add_sum_erase (range C.smtContexts) (fun j => f (Function.update s.flow k fe j)) hmem
  have hold := add_sum_erase (range C.smtContexts) (fun j => f (s.flow j)) hmem
  rw [hrest, Function.update_self] at hnew
  unfold total
  omega

/-- A step that changes only one flow. -/
lemma grows_of_update {k : ℕ} {f : FetchState} {a b : ℕ} {d : ℕ} (hk : k < C.smtContexts)
    (hflow : s'.flow = Function.update s.flow k f.toFetchEngine)
    (htotals : s'.toFetchTotals = f.toFetchTotals) (hdelivered : s'.delivered = s.delivered + d)
    (hfetched : f.nFetched = (s.flow k).nFetched + d + a) (htotal : f.totalnInst = s.totalnInst + d + a)
    (hgraduated : f.graduated = (s.fetching k).graduated + d + b) : Grows C s s' a b := by
  have hsumFetched := total_update (s := s) hk FetchEngine.nFetched f.toFetchEngine
  have hsumGrad := total_update (s := s) hk FetchEngine.nGradInsts f.toFetchEngine
  have hhanded : s'.handedOver = f.handedOver := congrArg FetchTotals.handedOver htotals
  have hinst : s'.totalnInst = f.totalnInst := congrArg FetchTotals.totalnInst htotals
  have hgrad : f.nGradInsts + f.handedOver = (s.flow k).nGradInsts + s.handedOver + d + b := hgraduated
  refine ⟨d, hdelivered, ?_, hinst.trans htotal, ?_⟩
  · rw [total, hflow]
    omega
  · rw [total, hflow, hhanded]
    omega

lemma lt_of_nextFlow {tries : ℕ} : ∀ {k k'}, s.nextFlow C tries k = some k' → k' < C.smtContexts := by
  induction tries with
  | zero =>
    intro k k' h
    cases h
  | succ tries ih =>
    intro k k' h
    have hpos : 0 < C.smtContexts := Nat.zero_lt_of_lt C.one_lt_smtContexts
    rw [nextFlow] at h
    split at h
    · cases h
      exact Nat.mod_lt _ hpos
    · exact ih h

lemma lt_of_findFlow {p : FetchEngine → Bool} {k : ℕ} (h : s.findFlow C p = .ok k) :
    k < C.smtContexts := by
  have hfind := elim_error_eq_ok.1 h
  exact List.mem_range.1 (List.mem_of_find?_eq_some hfind)

/-- A step that changes no counter. -/
lemma grows_zero (hflow : ∀ j, FetchEngine.SameCounts (s.flow j) (s'.flow j))
    (htotals : s'.toFetchTotals = s.toFetchTotals) (hdelivered : s'.delivered = s.delivered) :
    Grows C s s' 0 0 := by
  have hfetched : s'.total C FetchEngine.nFetched = s.total C FetchEngine.nFetched :=
    sum_congr rfl fun j _ => (hflow j).1
  have hgrad : s'.total C FetchEngine.nGradInsts = s.total C FetchEngine.nGradInsts :=
    sum_congr rfl fun j _ => (hflow j).2
  refine ⟨0, hdelivered, hfetched, congrArg FetchTotals.totalnInst htotals, ?_⟩
  rw [hgrad, htotals]
  rfl

lemma sameCounts_update {k : ℕ} {fe : FetchEngine} (h : FetchEngine.SameCounts (s.flow k) fe) (j : ℕ) :
    FetchEngine.SameCounts (s.flow j) (Function.update s.flow k fe j) := by
  by_cases hj : j = k
  · rw [hj, Function.update_self]
    exact h
  · rw [Function.update_of_ne hj]
    exact ⟨rfl, rfl⟩

lemma size_of_new {size : ℕ} {b : FetchBuffer} (h : FastQueue.new size = .ok b) : b.size = 0 :=
  (FastQueue.holds_new h).nElems

/-- A flow that is served counts too much by what its limit is below the width. -/
lemma fetch_grows {k : ℕ} {now : ℕ} {os : List Execution} {b b' : FetchBuffer} {f : FetchState}
    (hk : k < C.smtContexts) (hmax : 0 < s.fetchMax) (hmax' : s.fetchMax ≤ C.FetchWidth)
    (hnew : FastQueue.new (C.FetchWidth + 1) = .ok b)
    (h : (s.fetching k).fetch C.toFetchConfig now s.fetchMax os b = .ok (f, b')) :
    ∃ x y, (∀ t : SMTProcessor, t.flow = Function.update s.flow k f.toFetchEngine →
        t.toFetchTotals = f.toFetchTotals → t.delivered = s.delivered + b'.size → Grows C s t x y) ∧
      (((s.flow k).missInstID = 0 → C.FetchWidth ≤ s.fetchMax ∧ ∀ o ∈ os, o.dinst ≠ none) ↔
        x = 0 ∧ y = 0) := by
  by_cases hmiss : (s.flow k).missInstID = 0
  · have hfetch : (s.fetching k).realFetch C.toFetchConfig now s.fetchMax os b = .ok (f, b') := by
      have hif : ¬(s.fetching k).missInstID ≠ 0 := not_not.2 hmiss
      rwa [FetchState.fetch, if_neg hif] at h
    obtain ⟨-, hsize, hroom, hlimit, hgraduated, htotal, hfetched⟩ := FetchState.realFetch_spec hfetch
    have hlength : FetchState.pushed os ≤ os.length := List.countP_le_length
    have hlim : FetchState.limit C.toFetchConfig s.fetchMax = s.fetchMax := if_pos hmax
    have hwidth := C.FetchWidth_le
    rw [hlim] at hlimit htotal hfetched
    have hcount : ((C.FetchWidth - (s.fetchMax - FetchState.pushed os)) % 65536).toNat =
        FetchState.pushed os + (C.FetchWidth - s.fetchMax).toNat := by omega
    rw [hcount] at htotal hfetched
    refine ⟨(C.FetchWidth - s.fetchMax).toNat, os.length - FetchState.pushed os, ?_, ?_⟩
    · intro t hflow htotals hdelivered
      refine grows_of_update hk hflow htotals hdelivered ?_ ?_ ?_
      · rw [hfetched, hsize, Nat.add_assoc]
        rfl
      · rw [htotal, hsize, Nat.add_assoc]
        rfl
      · rw [hgraduated, hsize]
        omega
    · rw [← FetchState.pushed_eq_length_iff]
      constructor
      · intro hmeets
        have hmeets := hmeets hmiss
        omega
      · intro hzero _
        omega
  · have hsame : f = s.fetching k ∧ b' = b := by
      have hif : (s.fetching k).missInstID ≠ 0 := hmiss
      rw [FetchState.fetch, if_pos hif] at h
      obtain ⟨⟨⟩, -, h⟩ := bind_eq_ok.1 h
      cases h
      exact ⟨rfl, rfl⟩
    obtain ⟨rfl, rfl⟩ := hsame
    refine ⟨0, 0, ?_, iff_of_true (fun hzero => absurd hzero hmiss) ⟨rfl, rfl⟩⟩
    intro t hflow htotals hdelivered
    exact grows_of_update hk hflow htotals (hdelivered.trans (by rw [size_of_new hnew])) rfl rfl rfl

lemma serve_grows {now : ℕ} {hasBucket : Bool} {os : List Execution}
    (h : s.serve C now hasBucket os = .ok s') :
    ∃ a b, Grows C s s' a b ∧ (Meets C s (.serve now hasBucket os) ↔ a = 0 ∧ b = 0) := by
  simp only [serve, check_bind_eq_ok] at h
  obtain ⟨-, h⟩ := h
  have hnone : Grows C s s 0 0 := grows_zero (fun _ => ⟨rfl, rfl⟩) rfl rfl
  cases hnext : s.nextFlow C C.smtContexts s.cFetchId with
  | none =>
    refine ⟨0, 0, ?_, iff_of_true (fun k hk => absurd (hnext.symm.trans hk) (by simp)) ⟨rfl, rfl⟩⟩
    simp only [selectFetchFlow, hnext] at h
    cases h
    exact hnone
  | some k =>
    have hk := lt_of_nextFlow hnext
    have hmeets : Meets C s (.serve now hasBucket os) ↔ (hasBucket = true →
        (s.flow k).missInstID = 0 → C.FetchWidth ≤ s.nextFetchMax C ∧ ∀ o ∈ os, o.dinst ≠ none) :=
      ⟨fun h => h k hnext, fun h j hj => by cases hnext.symm.trans hj; exact h⟩
    simp only [selectFetchFlow, hnext, check_bind_eq_ok] at h
    obtain ⟨hmax, h⟩ := h
    have hmax' : s.nextFetchMax C ≤ C.FetchWidth := by
      unfold nextFetchMax
      split <;> omega
    cases hasBucket with
    | false =>
      refine ⟨0, 0, ?_, iff_of_true (hmeets.2 fun hfalse => absurd hfalse Bool.false_ne_true) ⟨rfl, rfl⟩⟩
      cases h
      exact hnone
    | true =>
      obtain ⟨b, hnew, h⟩ := bind_eq_ok.1 h
      obtain ⟨⟨f, b'⟩, hfetch, h⟩ := bind_eq_ok.1 h
      obtain ⟨x, y, hgrows, hxy⟩ := fetch_grows
        (s := { s with cFetchId := some k, i := s.i + 1, fetchMax := s.nextFetchMax C }) hk hmax hmax'
        hnew hfetch
      cases h
      exact ⟨x, y, hgrows _ rfl rfl rfl, hmeets.trans ((forall_prop_of_true rfl).trans hxy)⟩

lemma step_grows {e : FetchEvent} (h : step C s e = .ok s') :
    ∃ a b, Grows C s s' a b ∧ (Meets C s e ↔ a = 0 ∧ b = 0) := by
  cases e with
  | advanceClock =>
    cases h
    exact ⟨0, 0, grows_zero (fun _ => ⟨rfl, rfl⟩) rfl rfl, iff_of_true trivial ⟨rfl, rfl⟩⟩
  | serve now hasBucket os => exact serve_grows h
  | unBlockFetch k =>
    obtain ⟨fe, hfe, h⟩ := bind_eq_ok.1 h
    simp only [FetchEngine.unBlockFetch, check_bind_eq_ok] at hfe
    obtain ⟨-, hfe⟩ := hfe
    cases hfe
    cases h
    exact ⟨0, 0, grows_zero (sameCounts_update ⟨rfl, rfl⟩) rfl rfl, iff_of_true trivial ⟨rfl, rfl⟩⟩
  | switchIn pid =>
    obtain ⟨k, -, h⟩ := bind_eq_ok.1 h
    obtain ⟨fe, hfe, h⟩ := bind_eq_ok.1 h
    simp only [FetchEngine.switchIn, check_bind_eq_ok] at hfe
    obtain ⟨-, -, hfe⟩ := hfe
    cases hfe
    cases h
    exact ⟨0, 0, grows_zero (sameCounts_update ⟨rfl, rfl⟩) rfl rfl, iff_of_true trivial ⟨rfl, rfl⟩⟩
  | switchOut pid =>
    obtain ⟨k, hk, h⟩ := bind_eq_ok.1 h
    obtain ⟨f, hf, h⟩ := bind_eq_ok.1 h
    simp only [FetchState.switchOut, check_bind_eq_ok] at hf
    obtain ⟨-, hf⟩ := hf
    cases hf
    cases h
    refine ⟨0, 0, ?_, iff_of_true trivial ⟨rfl, rfl⟩⟩
    refine grows_of_update (d := 0) (lt_of_findFlow hk) rfl rfl rfl rfl rfl ?_
    show 0 + ((s.fetching k).handedOver + (s.fetching k).nGradInsts) =
      (s.fetching k).nGradInsts + (s.fetching k).handedOver
    omega

/-- The counters are never below the number of the delivered instructions. -/
structure AtLeast (C : SMTConfig) (s : SMTProcessor) : Prop where
  nFetched : s.delivered ≤ s.total C FetchEngine.nFetched
  totalnInst : s.delivered ≤ s.totalnInst
  nGradInsts : s.delivered ≤ s.total C FetchEngine.nGradInsts + s.handedOver

lemma total_new (f : FetchEngine → ℕ) (hf : f (.new C.toFetchConfig) = 0) : (new C).total C f = 0 :=
  sum_eq_zero fun _ _ => hf

lemma counted_new : (new C).Counted C :=
  ⟨total_new _ rfl, rfl, total_new FetchEngine.nGradInsts rfl⟩

lemma atLeast_of_run {es : List FetchEvent} (h : (fetchStage C).Run es s) : s.AtLeast C := by
  refine h.invariant ⟨Nat.zero_le _, Nat.zero_le _, Nat.zero_le _⟩ fun t e t' ht _ hstep => ?_
  obtain ⟨a, b, ⟨d, hdelivered, hfetched, htotal, hgrad⟩, -⟩ := step_grows hstep
  have h1 := ht.nFetched
  have h2 := ht.totalnInst
  have h3 := ht.nGradInsts
  constructor <;> omega

/-- Over a run the counters are right exactly when each flow that has fetched was allowed the full
width. -/
lemma counted_iff {es : List FetchEvent} (h : (fetchStage C).Run es s) :
    s.Counted C ↔ (fetchStage C).RunWhere (Meets C) es s := by
  refine h.iff_runWhere counted_new fun es t e t' hrun hstep => ?_
  obtain ⟨a, b, ⟨d, hdelivered, hfetched, htotal, hgrad⟩, hmeets⟩ := step_grows hstep
  have hleast := atLeast_of_run hrun
  have h1 := hleast.nFetched
  have h2 := hleast.totalnInst
  have h3 := hleast.nGradInsts
  rw [hmeets]
  constructor
  · rintro ⟨h4, h5, h6⟩
    refine ⟨⟨?_, ?_, ?_⟩, ?_, ?_⟩ <;> omega
  · rintro ⟨⟨h4, h5, h6⟩, h7, h8⟩
    constructor <;> omega

/-- A call counts the fetched instructions right exactly when its limit is the width, and those that
graduate exactly when each execution returns an instruction; the sums over the flows are right exactly
when this holds for each flow that has fetched. -/
theorem fetch_counted_iff (C : SMTConfig) :
    (∀ (now : ℕ) (fetchMax : ℤ) (os : List Execution) (b b' : FetchBuffer) (s s' : FetchState),
      FastQueue.new (C.FetchWidth + 1) = .ok b →
      s.realFetch C.toFetchConfig now fetchMax os b = .ok (s', b') →
      (s.CountsFetched s' b' ↔ FetchState.FullLimit C.toFetchConfig fetchMax) ∧
      (s.CountsGraduated s' b' ↔ ∀ o ∈ os, o.dinst ≠ none)) ∧
    ∀ (es : List FetchEvent) (s : SMTProcessor), (fetchStage C).Run es s →
      (s.Counted C ↔ (fetchStage C).RunWhere (Meets C) es s) :=
  ⟨fun _ _ _ _ _ _ _ hnew h => ⟨FetchState.countsFetched_iff hnew h, FetchState.countsGraduated_iff h⟩,
    fun _ _ => counted_iff⟩

/-- Two flows with a width of 4. -/
def widthFour : SMTConfig where
  FetchWidth := 4
  bb4Cycle := 0
  nInst2Sim := 1000
  one_le_FetchWidth := Nat.le_add_left 1 3
  FetchWidth_le := Nat.le_add_right 4 1020
  bb4Cycle_le := Nat.zero_le 1024
  smtContexts := 2
  one_lt_smtContexts := Nat.lt_succ_self 1

/-- An instruction that is not a branch. -/
def plainInst : Execution := ⟨some ⟨false, 1, 1, .CorrectPrediction⟩, none, false⟩

/-- A branch whose prediction is wrong. -/
def missedBranch : Execution := ⟨some ⟨true, 1, 5, .MissPrediction⟩, none, false⟩

/-- The only flow with work fetches four instructions in a cycle. -/
theorem fetch_counted_iff_four : ∃ s, (fetchStage widthFour).Run [.switchIn 7, .advanceClock,
      .serve 1 true [plainInst, plainInst, plainInst, plainInst]] s ∧ s.delivered = 4 ∧
    (fetchStage widthFour).RunWhere (Meets widthFour) [.switchIn 7, .advanceClock,
      .serve 1 true [plainInst, plainInst, plainInst, plainInst]] s := by
  obtain ⟨s, hrun, hdelivered, hcounted⟩ : ∃ s, (fetchStage widthFour).Run [.switchIn 7, .advanceClock,
      .serve 1 true [plainInst, plainInst, plainInst, plainInst]] s ∧ s.delivered = 4 ∧
      s.Counted widthFour :=
    ⟨_, Machine.run_of_exec rfl, rfl, ⟨rfl, rfl, rfl⟩⟩
  exact ⟨s, hrun, hdelivered, ((fetch_counted_iff widthFour).2 _ _ hrun).1 hcounted⟩

/-- With a limit of 2, two instructions are fetched and four are counted.  An execution that returns no
instruction is counted.  A second flow, with what the first one has left of the width, counts the whole
width. -/
theorem not_fetch_counted :
    (∃ b s' b', FastQueue.new 5 = .ok b ∧ FetchState.realFetch widthFour.toFetchConfig
        ⟨{ FetchEngine.new widthFour.toFetchConfig with pid := 7 }, ⟨0, false, 0⟩⟩ 1 2
        [plainInst, plainInst] b = .ok (s', b') ∧
      b'.size = 2 ∧ s'.totalnInst = 4 ∧ s'.nFetched = 4 ∧ s'.nGradInsts = 2) ∧
    (∃ b s' b', FastQueue.new 5 = .ok b ∧ FetchState.realFetch widthFour.toFetchConfig
        ⟨{ FetchEngine.new widthFour.toFetchConfig with pid := 7 }, ⟨0, false, 0⟩⟩ 1 0
        [⟨none, none, false⟩] b = .ok (s', b') ∧
      b'.size = 0 ∧ s'.totalnInst = 0 ∧ s'.nGradInsts = 1) ∧
    ∃ s, (fetchStage widthFour).Run [.switchIn 7, .switchIn 8, .advanceClock,
        .serve 1 true [missedBranch], .serve 1 true [plainInst, plainInst, plainInst]] s ∧
      s.delivered = 4 ∧ s.totalnInst = 5 ∧ ¬s.Counted widthFour := by
  refine ⟨⟨_, _, _, rfl, rfl, rfl, rfl, rfl, rfl⟩, ⟨_, _, _, rfl, rfl, rfl, rfl, rfl⟩, ?_⟩
  obtain ⟨s, hrun, hdelivered, htotal⟩ : ∃ s, (fetchStage widthFour).Run [.switchIn 7, .switchIn 8,
      .advanceClock, .serve 1 true [missedBranch], .serve 1 true [plainInst, plainInst, plainInst]] s ∧
      s.delivered = 4 ∧ s.totalnInst = 5 :=
    ⟨_, Machine.run_of_exec rfl, rfl, rfl⟩
  refine ⟨s, hrun, hdelivered, htotal, fun hcounted => ?_⟩
  have heq := hcounted.totalnInst
  rw [hdelivered, htotal] at heq
  exact absurd heq (by decide)

end SMTProcessor

end Sesc.Core
