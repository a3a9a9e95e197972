import Sesc.Core.LDSTBuffer

/-!
# Which store a load waits for

The entry of a word is the last store to it that has entered, while that store is in the buffer.  So a
load waits for the store that it ought to wait for, if that is the last one to the word; otherwise it
does not wait at all.
-/

namespace Sesc.Core

open Lib

/-- The load waits for the store that it ought to wait for. -/
def EnteredLoad.Exact (l : EnteredLoad) : Prop := l.mayForward = true → l.fakeSrc = l.expected

instance (l : EnteredLoad) : Decidable l.Exact := inferInstanceAs (Decidable (_ → _))

namespace LDSTBuffer

variable (s : LDSTBuffer) (d : BufferedInst)

/-- The last store to a word that has entered, whether it has left or not. -/
def lastStore (word : Word) : Option EnteredStore := s.entered.find? fun e => e.word = word

/-- The last store to the word of a load that ought to wait is the one that it ought to wait for. -/
def Visible : BufferEvent → Prop
  | .getLoadEntry _ contextId vaddr instructionStamp =>
    let d := BufferedInst.new contextId vaddr instructionStamp
    (s.expected d).isSome → s.mayForwardOwn d = true →
      s.lastStore d.calcWord = s.youngestStore contextId d.calcWord
  | _ => True

instance : ∀ e, Decidable (s.Visible e)
  | .getLoadEntry _ _ _ _ => inferInstanceAs (Decidable (_ → _ → _))
  | .getStoreEntry _ _ _ _ | .execute _ | .storeLocallyPerformed _ | .setAccess _ _ =>
    inferInstanceAs (Decidable True)

/-- A store that dies is overwritten by a younger one of its context to the same word, and no load
waits for it. -/
def DiesOverwritten (s : LDSTBuffer) (e : BufferEvent) (s' : LDSTBuffer) : Prop :=
  ∀ q, (s.insts q).deadStore = false → (s'.insts q).deadStore = true →
    ∃ p contextId vaddr instructionStamp, e = .getStoreEntry p contextId vaddr instructionStamp ∧
      s.Inside q ∧ (s.insts q).contextId = contextId ∧ (s.insts q).calcWord = vaddr >>> 2 ∧
      (s.insts q).pending = []

/-- Each word has its last store while that is in the buffer, and the stores in the buffer have not
changed. -/
structure Tracked (s : LDSTBuffer) : Prop where
  stores : ∀ word, s.stores word =
    (s.lastStore word).bind fun e => if e.left then none else some e.dinst
  insts : ∀ e ∈ s.entered, e.left = false →
    (s.insts e.dinst).contextId = e.contextId ∧ (s.insts e.dinst).calcWord = e.word

variable {s d} {s' : LDSTBuffer} {p q : Ptr} {e : BufferEvent} {word : Word}

lemma Tracked.of_stores (hs : s.Tracked) (hq : s.stores word = some q) :
    ∃ e ∈ s.entered, e.dinst = q ∧ e.left = false ∧ e.word = word ∧ s.lastStore word = some e := by
  rw [hs.stores word] at hq
  obtain ⟨e, he, hif⟩ := Option.bind_eq_some_iff.1 hq
  split at hif
  · cases hif
  · rename_i hleft
    exact ⟨e, List.mem_of_find?_eq_some he, Option.some.inj hif, by simpa using hleft,
      by simpa using List.find?_some he, he⟩

/-! ### The decision about a load -/

/-- The last store is the youngest one of its context, if it is in the buffer. -/
lemma youngestStore_of_last {f : EnteredStore} (hf : s.lastStore word = some f)
    (hleft : f.left = false) : s.youngestStore f.contextId word = some f := by
  rw [lastStore] at hf
  rw [youngestStore]
  obtain ⟨hword, l₁, l₂, hsplit, hbefore⟩ := List.find?_eq_some_iff_append.1 hf
  refine List.find?_eq_some_iff_append.2 ⟨?_, l₁, l₂, hsplit, fun e he => ?_⟩
  · simp only [decide_eq_true_eq] at hword
    simp [hword, hleft]
  · have := hbefore e he
    simp only [Bool.not_eq_true', decide_eq_false_iff_not] at this
    simp [this]

/-- A load waits for the right store if and only if that is visible to it. -/
lemma Tracked.exact_iff (hs : s.Tracked) {contextId vaddr instructionStamp : ℕ}
    (hd : d = .new contextId vaddr instructionStamp) :
    EnteredLoad.Exact ⟨s.expected d, s.mayForwardOwn d, s.fakeSrc d⟩ ↔
      s.Visible (.getLoadEntry p contextId vaddr instructionStamp) := by
  have hcontext : d.contextId = contextId := by rw [hd]; rfl
  rw [EnteredLoad.Exact, Visible, ← hd]
  simp only
  by_cases hlast : ∃ f, s.lastStore d.calcWord = some f ∧ f.left = false ∧ f.contextId = contextId
  · obtain ⟨f, hf, hleft, hf'⟩ := hlast
    have hyoungest := youngestStore_of_last hf hleft
    rw [hf'] at hyoungest
    refine iff_of_true (fun hmay => ?_) fun _ _ => hf.trans hyoungest.symm
    have hstore : s.stores d.calcWord = some f.dinst := by
      rw [hs.stores, hf, Option.bind_some, if_neg (by simp [hleft])]
    have hinst := hs.insts f (List.mem_of_find?_eq_some hf) hleft
    rw [mayForwardOwn, hcontext, hyoungest] at hmay
    rw [fakeSrc, expected, hstore, hcontext, hyoungest, Option.map_some]
    simp only [Option.all_some] at hmay
    simp only [Option.filter, hmay, hinst.1, hf', Bool.true_and, decide_true]
  · -- the load finds no store of its context
    have hnone : s.fakeSrc d = none := by
      rw [fakeSrc]
      cases hstore : s.stores d.calcWord with
      | none => rfl
      | some q =>
        obtain ⟨f, hmem, rfl, hleft, -, hf⟩ := hs.of_stores hstore
        have hne : ¬contextId = f.contextId := fun heq => hlast ⟨f, hf, hleft, heq.symm⟩
        simp [Option.filter, hcontext, (hs.insts f hmem hleft).1, hne]
    rw [hnone]
    have hnot : s.lastStore d.calcWord ≠ s.youngestStore contextId d.calcWord ∨
        s.youngestStore contextId d.calcWord = none := by
      cases hyoungest : s.youngestStore contextId d.calcWord with
      | none => exact .inr rfl
      | some g =>
        refine .inl fun heq => hlast ⟨g, heq, ?_⟩
        have hg := List.find?_some hyoungest
        simp only [Bool.and_eq_true, decide_eq_true_eq, Bool.not_eq_true'] at hg
        exact ⟨hg.2, hg.1.1⟩
    cases hexpected : s.expected d with
    | none => exact iff_of_true (fun _ => rfl) fun hsome => absurd hsome (by simp)
    | some q =>
      have hsome : s.youngestStore contextId d.calcWord ≠ none := by
        intro heq
        rw [expected, hcontext, heq] at hexpected
        cases hexpected
      have hne := hnot.resolve_right hsome
      constructor
      · intro h _ hmay
        cases h hmay
      · intro h hmay
        exact absurd (h rfl hmay) hne

/-! ### The steps -/

/-- An instruction may change in the other fields. -/
lemma Tracked.of_insts (hs : s.Tracked) (hstores : s'.stores = s.stores)
    (hentered : s'.entered = s.entered)
    (hinsts : ∀ q, (s'.insts q).contextId = (s.insts q).contextId ∧
      (s'.insts q).calcWord = (s.insts q).calcWord) : s'.Tracked where
  stores word := by
    rw [hstores, lastStore, hentered]
    exact hs.stores word
  insts e he hleft := by
    rw [hentered] at he
    rw [(hinsts _).1, (hinsts _).2]
    exact hs.insts e he hleft

lemma insts_modifyInst (f : BufferedInst → BufferedInst)
    (hf : ∀ d, (f d).contextId = d.contextId ∧ (f d).calcWord = d.calcWord) (q : Ptr) :
    ((s.modifyInst p f).insts q).contextId = (s.insts q).contextId ∧
      ((s.modifyInst p f).insts q).calcWord = (s.insts q).calcWord := by
  show (Function.update s.insts p _ q).contextId = _ ∧ (Function.update s.insts p _ q).calcWord = _
  by_cases hq : q = p
  · subst hq
    rw [Function.update_self]
    exact hf _
  · rw [Function.update_of_ne hq]
    exact ⟨rfl, rfl⟩

/-- A store enters. -/
lemma Tracked.enter (hs : s.Tracked) (hp : ¬s.Inside p) {stores : Word → Option Ptr}
    (hstores : stores = Function.update s.stores d.calcWord (some p)) :
    { s with
      stores
      insts := Function.update s.insts p d
      entered := EnteredStore.mk p d.contextId d.calcWord false :: s.entered }.Tracked where
  stores word := by
    rw [lastStore, List.find?_cons]
    simp only [hstores]
    by_cases hword : d.calcWord = word
    · subst hword
      simp
    · rw [Function.update_of_ne fun h => hword h.symm]
      simp only [hword, decide_false]
      exact hs.stores word
  insts e he hleft := by
    rcases List.mem_cons.1 he with rfl | he
    · simp
    · have hne : e.dinst ≠ p := fun heq => hp ⟨e, he, heq, hleft⟩
      simp only [Function.update_of_ne hne]
      exact hs.insts e he hleft

/-- A store leaves. -/
lemma Tracked.leave (hs : s.Tracked) :
    { s.storeLocallyPerformed p with
      entered := s.entered.map (.leave p) }.Tracked where
  stores word := by
    have hlast : ((s.entered.map (EnteredStore.leave p)).find? fun e => e.word = word) =
        (s.lastStore word).map (EnteredStore.leave p) := by
      rw [List.find?_map, lastStore]
      refine congrArg (Option.map _) (congrArg (fun q => s.entered.find? q) (funext fun e => ?_))
      rw [Function.comp, EnteredStore.leave]
      split <;> rfl
    have hstores : (s.storeLocallyPerformed p).stores word =
        (s.stores word).filter fun q => q ≠ p := by
      rw [storeLocallyPerformed]
      cases hq : s.stores word with
      | none =>
        split
        · by_cases hword : word = (s.insts p).calcWord
          · subst hword
            exact Function.update_self _ _ _
          · exact (Function.update_of_ne hword _ _).trans hq
        · exact hq
      | some q =>
        obtain ⟨f, hmem, rfl, hleft, hword, -⟩ := hs.of_stores hq
        by_cases hfp : f.dinst = p
        · -- the word of the store is the one of the entry
          have hcalc : (s.insts p).calcWord = word := by
            rw [← hfp, (hs.insts f hmem hleft).2, hword]
          simp [hcalc, hq, hfp, Option.filter]
        · have hne : s.stores (s.insts p).calcWord = some p → word ≠ (s.insts p).calcWord := by
            rintro hp rfl
            exact hfp (Option.some.inj (hq.symm.trans hp))
          simp only [Option.filter, hfp, ne_eq, not_false_eq_true, decide_true, if_true]
          split
          · rename_i hp
            exact (Function.update_of_ne (hne hp) _ _).trans hq
          · exact hq
    rw [lastStore, hlast]
    refine hstores.trans ?_
    rw [hs.stores word]
    cases s.lastStore word with
    | none => rfl
    | some f =>
      by_cases hfp : f.dinst = p
      · cases hleft : f.left <;> simp [EnteredStore.leave, hfp, hleft, Option.filter]
      · cases hleft : f.left <;> simp [EnteredStore.leave, hfp, hleft, Option.filter]
  insts e he hleft := by
    have hinsts : (s.storeLocallyPerformed p).insts = s.insts := by
      rw [storeLocallyPerformed]
      split <;> rfl
    obtain ⟨f, hf, rfl⟩ := List.mem_map.1 he
    rw [EnteredStore.leave] at hleft ⊢
    simp only [hinsts]
    split at hleft
    · cases hleft
    · rename_i hfp
      rw [if_neg hfp]
      exact hs.insts f hf hleft

lemma Tracked.act (hs : s.Tracked) (h : s.act e = .ok s') : s'.Tracked := by
  cases e with
  | getStoreEntry p contextId vaddr instructionStamp =>
    obtain ⟨hp, heq⟩ := check_bind_eq_ok.1 h
    cases heq
    rw [LDSTBuffer.getStoreEntry]
    cases hover : s.overwritten (.new contextId vaddr instructionStamp) with
    | none => exact hs.enter hp rfl
    | some q =>
      have hdead : (s.modifyInst q fun d => { d with deadStore := true }).Tracked :=
        hs.of_insts rfl rfl (insts_modifyInst _ fun d => ⟨rfl, rfl⟩)
      exact hdead.enter hp rfl
  | getLoadEntry p contextId vaddr instructionStamp =>
    obtain ⟨hp, heq⟩ := check_bind_eq_ok.1 h
    cases heq
    rw [LDSTBuffer.getLoadEntry]
    cases hfake : s.fakeSrc (.new contextId vaddr instructionStamp) with
    | none => exact hs.of_insts rfl rfl fun q => ⟨rfl, rfl⟩
    | some q =>
      exact hs.of_insts rfl rfl
        (insts_modifyInst (fun d => { d with pending := d.pending ++ [p] }) fun d => ⟨rfl, rfl⟩)
  | execute p =>
    obtain ⟨hp, heq⟩ := check_bind_eq_ok.1 h
    cases heq
    exact hs.of_insts rfl rfl
      (insts_modifyInst (fun d => { d with executed := true, pending := [] }) fun d => ⟨rfl, rfl⟩)
  | storeLocallyPerformed p =>
    obtain ⟨hp, heq⟩ := check_bind_eq_ok.1 h
    cases heq
    exact hs.leave
  | setAccess instructionStamp transactionEntry =>
    cases h
    exact hs.of_insts rfl rfl fun q => ⟨rfl, rfl⟩

/-- The loads that have entered. -/
lemma loads_act (h : s.act e = .ok s') :
    s'.loads = match e with
      | .getLoadEntry _ contextId vaddr instructionStamp =>
        let d := BufferedInst.new contextId vaddr instructionStamp
        ⟨s.expected d, s.mayForwardOwn d, s.fakeSrc d⟩ :: s.loads
      | _ => s.loads := by
  cases e with
  | getStoreEntry p contextId vaddr instructionStamp =>
    cases (check_bind_eq_ok.1 h).2
    show (s.getStoreEntry p _).loads = s.loads
    rw [LDSTBuffer.getStoreEntry]
    split <;> rfl
  | getLoadEntry p contextId vaddr instructionStamp =>
    cases (check_bind_eq_ok.1 h).2
    rfl
  | execute p =>
    cases (check_bind_eq_ok.1 h).2
    rfl
  | storeLocallyPerformed p =>
    cases (check_bind_eq_ok.1 h).2
    show (s.storeLocallyPerformed p).loads = s.loads
    rw [LDSTBuffer.storeLocallyPerformed]
    split <;> rfl
  | setAccess instructionStamp transactionEntry =>
    cases h
    rfl

lemma Tracked.diesOverwritten (hs : s.Tracked) (h : s.act e = .ok s') : s.DiesOverwritten e s' := by
  intro q hq hq'
  have hmodify : ∀ (p : Ptr) (f : BufferedInst → BufferedInst),
      (∀ d, (f d).deadStore = d.deadStore) → ((s.modifyInst p f).insts q).deadStore = false := by
    intro p f hf
    show (Function.update s.insts p _ q).deadStore = false
    by_cases hqp : q = p
    · subst hqp
      rw [Function.update_self, hf, hq]
    · rw [Function.update_of_ne hqp, hq]
  cases e with
  | getStoreEntry p contextId vaddr instructionStamp =>
    obtain ⟨hp, heq⟩ := check_bind_eq_ok.1 h
    cases heq
    refine ⟨p, contextId, vaddr, instructionStamp, rfl, ?_⟩
    have hqp : q ≠ p := by
      rintro rfl
      simp only [Function.update_self] at hq'
      cases hq'
    simp only [Function.update_of_ne hqp] at hq'
    rw [LDSTBuffer.getStoreEntry] at hq'
    cases hover : s.overwritten (.new contextId vaddr instructionStamp) with
    | none =>
      rw [hover] at hq'
      exact absurd (hq.symm.trans hq') Bool.false_ne_true
    | some q' =>
      rw [hover] at hq'
      have hqq' : q = q' := by
        by_contra hne
        refine Bool.false_ne_true (hq.symm.trans (Eq.trans ?_ hq'))
        exact congrArg BufferedInst.deadStore (Function.update_of_ne hne _ _).symm
      subst hqq'
      obtain ⟨hstore, htest⟩ := Option.filter_eq_some_iff.1 hover
      obtain ⟨f, hmem, rfl, hleft, hword, -⟩ := hs.of_stores hstore
      simp only [Bool.and_eq_true, List.isEmpty_iff, decide_eq_true_eq] at htest
      refine ⟨⟨f, hmem, rfl, hleft⟩, htest.2.symm, ?_, htest.1⟩
      rw [(hs.insts f hmem hleft).2, hword]
      rfl
  | getLoadEntry p contextId vaddr instructionStamp =>
    obtain ⟨hp, heq⟩ := check_bind_eq_ok.1 h
    cases heq
    have hfalse : ((s.getLoadEntry p (.new contextId vaddr instructionStamp)).insts q).deadStore =
        false := by
      rw [LDSTBuffer.getLoadEntry]
      split
      · exact hmodify _ _ fun d => rfl
      · exact hq
    exact absurd (hfalse.symm.trans hq') Bool.false_ne_true
  | execute p =>
    obtain ⟨hp, heq⟩ := check_bind_eq_ok.1 h
    cases heq
    have hfalse := hmodify p (fun d => { d with executed := true, pending := [] }) fun d => rfl
    exact absurd (hfalse.symm.trans hq') Bool.false_ne_true
  | storeLocallyPerformed p =>
    obtain ⟨hp, heq⟩ := check_bind_eq_ok.1 h
    cases heq
    have hinsts : (s.storeLocallyPerformed p).insts = s.insts := by
      rw [LDSTBuffer.storeLocallyPerformed]
      split <;> rfl
    rw [hinsts] at hq'
    exact absurd (hq.symm.trans hq') Bool.false_ne_true
  | setAccess instructionStamp transactionEntry =>
    cases h
    exact absurd (hq.symm.trans hq') Bool.false_ne_true

end LDSTBuffer

open LDSTBuffer

lemma tracked_of_run {es : List BufferEvent} {s : LDSTBuffer} (h : ldstBuffer.Run es s) :
    s.Tracked :=
  h.invariant ⟨fun _ => rfl, fun e he => absurd he List.not_mem_nil⟩
    fun s e s' hs _ hstep => hs.act hstep

/-- All loads that have entered wait for the stores that they ought to wait for, if and only if each of
these stores was the last one to its word when the load entered.  A store dies only when a younger one
of its context to the same word enters and no load waits for it. -/
theorem loads_exact_iff (es : List BufferEvent) (s : LDSTBuffer) (hrun : ldstBuffer.Run es s) :
    ((∀ l ∈ s.loads, l.Exact) ↔ ldstBuffer.RunWhere Visible es s) ∧
    ∀ e s', ldstBuffer.step s e = .ok s' → s.DiesOverwritten e s' := by
  refine ⟨hrun.iff_runWhere (P := fun s => ∀ l ∈ s.loads, l.Exact)
    (fun l hl => absurd hl List.not_mem_nil) fun es s e s' hrun hstep => ?_,
    fun e s' hstep => (tracked_of_run hrun).diesOverwritten hstep⟩
  have htracked := tracked_of_run hrun
  rw [loads_act hstep]
  cases e with
  | getLoadEntry p contextId vaddr instructionStamp =>
    rw [List.forall_mem_cons, htracked.exact_iff (p := p) rfl]
    exact and_comm
  | getStoreEntry p contextId vaddr instructionStamp => exact (and_iff_left trivial).symm
  | execute p => exact (and_iff_left trivial).symm
  | storeLocallyPerformed p => exact (and_iff_left trivial).symm
  | setAccess instructionStamp transactionEntry => exact (and_iff_left trivial).symm

/-- Two contexts that store to different words; each load waits for the store of its context. -/
def disjointWords : List BufferEvent :=
  [.getStoreEntry 0 0 16 1, .getStoreEntry 1 1 32 2, .getLoadEntry 2 0 16 3, .getLoadEntry 3 1 32 4,
    .execute 0, .getLoadEntry 4 0 16 5]

/-- The third load does not wait, since its store has executed. -/
theorem loads_exact_iff_disjointWords : ∃ s, ldstBuffer.Run disjointWords s ∧
    s.loads.map (·.fakeSrc) = [none, some 1, some 0] ∧ ∀ l ∈ s.loads, l.Exact := by
  have hrun : succeeds ((ldstBuffer.guarded (fun s e => decide (s.Visible e)) .noSuchEvent).exec
      ldstBuffer.init disjointWords)
      (fun s => decide (s.loads.map (·.fakeSrc) = [none, some 1, some 0])) = true := by
    decide +kernel
  obtain ⟨s, hs, htest⟩ := succeeds_iff.1 hrun
  have hwhere := (Machine.run_of_exec hs).of_guarded.mono (D := Visible) fun _ _ => of_decide_eq_true
  exact ⟨s, hwhere.run, of_decide_eq_true htest,
    (loads_exact_iff disjointWords s hwhere.run).1.2 hwhere⟩

/-- A store of context 1 takes the place of that of context 0, whose load then does not wait. -/
theorem not_loads_exact : ∃ s, ldstBuffer.Run
    [.getStoreEntry 0 0 16 1, .getStoreEntry 1 1 16 2, .getLoadEntry 2 0 16 3] s ∧
    s.loads = [⟨some 0, true, none⟩] ∧ ¬∀ l ∈ s.loads, l.Exact := by
  have hrun : succeeds (ldstBuffer.exec ldstBuffer.init
      [.getStoreEntry 0 0 16 1, .getStoreEntry 1 1 16 2, .getLoadEntry 2 0 16 3])
      (fun s => decide (s.loads = [⟨some 0, true, none⟩])) = true := by
    decide +kernel
  obtain ⟨s, hs, htest⟩ := succeeds_iff.1 hrun
  have hloads := of_decide_eq_true htest
  refine ⟨s, Machine.run_of_exec hs, hloads, fun h => ?_⟩
  rw [hloads] at h
  exact absurd h (by decide)

end Sesc.Core
