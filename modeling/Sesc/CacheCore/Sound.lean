import Sesc.CacheCore.Lookups

/-!
# Lookup and replacement in cache arrays

After any operations, at most one line has a tag and `findLine` finds it.  `fillLine` keeps this,
leaves the tags of locked lines alone and gives up only when it has to, for each class of cache arrays
but the skewed one, for which the exact condition is `Chooses`.
-/

namespace Sesc.CacheCore

open Lib

namespace CacheGeneric

variable {impl : Implementation} {g : Geometry} {c c' : CacheGeneric} {addr : Addr}
  {ignoreLocked odd : Bool}

/-- After a `fillLine`, at most one line has a tag; without `ignoreLocked` it leaves the tags of
locked lines alone, and no line is returned only when all candidates are locked and have other
tags. -/
def FillsSoundly (impl : Implementation) (g : Geometry) (c : CacheGeneric) (addr : Addr)
    (ignoreLocked odd : Bool) : Prop :=
  (c.fillLine g impl addr ignoreLocked odd).2.2.Unique ∧
    (ignoreLocked = false →
      (∀ l, (c.line l).isLocked = true →
        ((c.fillLine g impl addr ignoreLocked odd).2.2.line l).tag = (c.line l).tag) ∧
      ((c.fillLine g impl addr ignoreLocked odd).1 = none →
        ∀ l ∈ candidates g c (g.calcTag addr) impl,
          (c.line l).isLocked = true ∧ (c.line l).tag ≠ g.calcTag addr))

/-- What a skewed cache needs for this; the others need nothing. -/
def Fills (g : Geometry) (c : CacheGeneric) (addr : Addr) (ignoreLocked odd : Bool) :
    Implementation → Bool
  | .cacheAssoc _ => true
  | .cacheDM => true
  | .cacheDMSkew => CacheDMSkew.Chooses g c addr ignoreLocked odd

/-- An operation is no `fillLine`, or one that fills soundly. -/
def Sound (impl : Implementation) (g : Geometry) (c : CacheGeneric) : Operation → Bool
  | .fillLine addr ignoreLocked odd => c.Fills g addr ignoreLocked odd impl
  | _ => true

lemma Inv.finds (h : c.Inv impl g) (htag : g.calcTag addr ≠ 0) : c.Finds impl g addr := by
  cases impl with
  | cacheAssoc policy => exact CacheAssoc.finds h htag
  | cacheDM => exact CacheDM.finds h htag
  | cacheDMSkew => exact CacheDMSkew.finds h htag

lemma Inv.replaces (h : c.Inv impl g) (htag : g.calcTag addr ≠ 0)
    (hfills : c.Fills g addr ignoreLocked odd impl = true) :
    c.Replaces impl g addr ignoreLocked (c.findLine2Replace g addr ignoreLocked odd impl) := by
  cases impl with
  | cacheAssoc policy => exact CacheAssoc.replaces h htag ignoreLocked odd
  | cacheDM => exact CacheDM.replaces h htag ignoreLocked odd
  | cacheDMSkew => exact CacheDMSkew.replaces h htag hfills

lemma fillLine_none (h : c.findLine2Replace g addr ignoreLocked odd impl = (none, c')) :
    c.fillLine g impl addr ignoreLocked odd = (none, 0, c') := by
  rw [fillLine, h]

lemma fillLine_some {l : Line} (h : c.findLine2Replace g addr ignoreLocked odd impl = (some l, c')) :
    (c.fillLine g impl addr ignoreLocked odd).1 = some l ∧
      (c.fillLine g impl addr ignoreLocked odd).2.2 =
        c'.modifyLine l fun line => line.setTag (g.calcTag addr) := by
  rw [fillLine, h]
  exact ⟨rfl, rfl⟩

/-- A `fillLine` that meets the condition keeps the cache in order. -/
lemma Inv.fillLine (h : c.Inv impl g) (htag : g.calcTag addr ≠ 0)
    (hfills : c.Fills g addr ignoreLocked odd impl = true) :
    (c.fillLine g impl addr ignoreLocked odd).2.2.Inv impl g ∧
      c.FillsSoundly impl g addr ignoreLocked odd := by
  have hr := h.replaces htag hfills
  obtain ⟨r, c', heq⟩ : ∃ r c', c.findLine2Replace g addr ignoreLocked odd impl = (r, c') :=
    ⟨_, _, rfl⟩
  rw [heq] at hr
  have hinv' := h.rearrange hr.rearranges
  have hline := hr.rearranges.line_eq
  cases r with
  | none =>
    have hfill := fillLine_none heq
    rw [FillsSoundly, hfill]
    refine ⟨hinv', hinv'.unique, fun hignore => ⟨fun l _ => ?_, fun _ => hr.of_none hignore rfl⟩⟩
    rw [hline]
  | some l =>
    obtain ⟨hfill, hfill'⟩ := fillLine_some heq
    have hmem := (hr.rearranges.mem_candidates _ _).2 (hr.mem_candidates l rfl)
    have hinv'' := hinv'.setTag hmem (fun l' hl' => hr.tag_eq l rfl l' (hline l' ▸ hl')) htag
    rw [FillsSoundly, hfill, hfill']
    refine ⟨hinv'', hinv''.unique, fun hignore => ⟨fun l' hlocked => ?_,
      fun hnone => absurd hnone (Option.some_ne_none _)⟩⟩
    have hlt : l < c'.mem.length := hinv'.length_mem ▸ hinv'.lt_of_mem_candidates hmem
    rw [line_modifyLine l l' _ hlt]
    split
    · rename_i heq'
      rw [heq'] at hlocked ⊢
      exact (hr.tag_of_isLocked hignore l rfl hlocked).symm
    · rw [hline]

/-- A `fillLine` of a skewed cache that fails the condition goes wrong. -/
lemma Inv.not_fillsSoundly (h : c.Inv .cacheDMSkew g) (htag : g.calcTag addr ≠ 0)
    (hfills : CacheDMSkew.Chooses g c addr ignoreLocked odd = false) :
    ¬c.FillsSoundly .cacheDMSkew g addr ignoreLocked odd := by
  obtain ⟨l, l2, hl, hl2⟩ := CacheDMSkew.exists_places h addr
  have hcandidates := CacheDMSkew.candidates_eq hl hl2
  have hiff := CacheDMSkew.chooses_iff hl hl2 ignoreLocked odd
  have hreplace := CacheDMSkew.findLine2Replace_eq hl hl2 ignoreLocked odd
  have hlt : ∀ l' ∈ [l, l2], l' < c.mem.length := by
    intro l' hl'
    rw [← hcandidates] at hl'
    exact h.length_mem ▸ h.lt_of_mem_candidates hl'
  rw [hfills] at hiff
  rintro ⟨hunique, hsound⟩
  cases ignoreLocked with
  | true =>
    -- the tag is in the second place, and the first place gets it too
    have hnot : ¬((c.line l2).tag = g.calcTag addr → l2 = l) :=
      fun hcond => Bool.false_ne_true (hiff.2 hcond)
    obtain ⟨htag2, hne⟩ := Classical.not_imp.1 hnot
    obtain ⟨-, hfill⟩ := fillLine_some hreplace
    rw [hfill] at hunique
    have hline := fun l' => line_modifyLine (c := c) l l'
      (fun line => line.setTag (g.calcTag addr)) (hlt l List.mem_cons_self)
    refine hne (hunique l2 l ?_ ?_)
    · rw [hline, if_neg hne, htag2]
      exact htag
    · rw [hline, hline, if_neg hne, if_pos rfl]
      exact htag2
  | false =>
    simp only [Bool.false_eq_true, if_false, false_iff, not_or] at hiff hreplace
    obtain ⟨h₁, hiff⟩ := hiff
    obtain ⟨hkeep, hnone⟩ := hsound rfl
    rw [if_neg h₁] at hreplace
    by_cases hlocked : (c.line l).isLocked = true
    · -- no line is returned although the second place could be used
      rw [if_pos hlocked] at hiff hreplace
      refine hiff (hnone (by rw [fillLine_none hreplace]) l2 ?_)
      rw [hcandidates]
      exact List.mem_cons_of_mem _ List.mem_cons_self
    · -- the tag of the locked second place is overwritten
      rw [if_neg hlocked] at hiff hreplace
      obtain ⟨h₂, hodd, hlocked2⟩ : (c.line l2).tag ≠ g.calcTag addr ∧ odd = false ∧
          (c.line l2).isLocked = true := by
        rw [not_or, not_or] at hiff
        exact ⟨hiff.1, Bool.eq_false_iff.2 hiff.2.1, Bool.not_eq_false _ ▸ hiff.2.2⟩
      rw [if_neg h₂, hodd] at hreplace
      obtain ⟨-, hfill⟩ := fillLine_some hreplace
      have hkeep2 := hkeep l2 hlocked2
      rw [hodd, hfill, line_modifyLine l2 l2 _ (hlt l2 (List.mem_cons_of_mem _ List.mem_cons_self)),
        if_pos rfl] at hkeep2
      exact h₂ hkeep2.symm

/-- An operation that meets the condition keeps the cache in order. -/
lemma Inv.perform {op : Operation} (h : c.Inv impl g) (hsound : c.Sound impl g op = true)
    (hstep : c.perform impl g op = .ok c') : c'.Inv impl g := by
  cases op with
  | findLine addr =>
    obtain ⟨htag, hstep⟩ := check_bind_eq_ok.1 hstep
    cases hstep
    exact h.rearrange (h.finds htag).rearranges
  | fillLine addr ignoreLocked odd =>
    obtain ⟨htag, hstep⟩ := check_bind_eq_ok.1 hstep
    cases hstep
    exact (h.fillLine htag hsound).1
  | invalidate l =>
    obtain ⟨hlt, hstep⟩ := check_bind_eq_ok.1 hstep
    cases hstep
    exact h.invalidate hlt
  | lock l =>
    obtain ⟨hlt, hstep⟩ := check_bind_eq_ok.1 hstep
    obtain ⟨hvalid, hstep⟩ := check_bind_eq_ok.1 hstep
    cases hstep
    exact h.setLocked hlt true fun _ => decide_eq_true hvalid
  | unlock l =>
    obtain ⟨hlt, hstep⟩ := check_bind_eq_ok.1 hstep
    cases hstep
    exact h.setLocked hlt false fun hlocked => absurd hlocked Bool.false_ne_true

/-- After operations that meet the condition, at most one line has a tag, `findLine` returns a line
exactly when it has the tag, and a `fillLine` is sound exactly when it meets the condition. -/
theorem lookups_sound_of_runWhere (impl : Implementation) (g : Geometry) {ops : List Operation}
    {c : CacheGeneric}
    (h : (cacheMachine impl g).RunWhere (fun c op => c.Sound impl g op = true) ops c) :
    c.Unique ∧ ∀ addr, g.calcTag addr ≠ 0 →
      (∀ l, (c.findLine g addr impl).1 = some l ↔ (c.line l).tag = g.calcTag addr) ∧
      ∀ ignoreLocked odd, c.FillsSoundly impl g addr ignoreLocked odd ↔
        c.Fills g addr ignoreLocked odd impl = true := by
  have hinv : c.Inv impl g :=
    h.invariant (Inv.new impl g) fun _ _ _ hc hsound hstep => hc.perform hsound hstep
  refine ⟨hinv.unique, fun addr htag => ⟨(hinv.finds htag).iff, fun ignoreLocked odd => ?_⟩⟩
  refine ⟨fun hfills => ?_, fun hfills => (hinv.fillLine htag hfills).2⟩
  by_contra hnot
  cases impl with
  | cacheAssoc policy => exact hnot rfl
  | cacheDM => exact hnot rfl
  | cacheDMSkew => exact hinv.not_fillsSoundly htag (Bool.eq_false_iff.2 hnot) hfills

/-! ### Two lines -/

/-- Two lines of one byte, in one set or in two. -/
def twoLines (assoc : ℕ) (hassoc : assoc.isPowerOfTwo) (hpos : 0 < 2 / 1 / assoc) : Geometry where
  size := 2
  assoc := assoc
  lineSize := 1
  addrUnit := 1
  size_isPowerOfTwo := ⟨1, rfl⟩
  assoc_isPowerOfTwo := hassoc
  lineSize_isPowerOfTwo := ⟨0, rfl⟩
  addrUnit_isPowerOfTwo := ⟨0, rfl⟩
  sets_pos := hpos

/-- One set of two lines. -/
def oneSet : Geometry := twoLines 2 ⟨1, rfl⟩ (by decide)

/-- Two sets of one line. -/
def twoSets : Geometry := twoLines 1 ⟨0, rfl⟩ (by decide)

/-- Two tags fill a set, the second is locked, and a third takes the place of the first. -/
theorem lookups_sound_fullSet : ∃ c,
    (cacheMachine (.cacheAssoc .LRU) oneSet).Run
      [.fillLine 5 false false, .fillLine 6 false false, .findLine 5, .lock 0,
        .fillLine 7 false false] c ∧
    c.mem = [⟨5, true⟩, ⟨7, false⟩] ∧ c.Unique ∧
    ∀ addr, oneSet.calcTag addr ≠ 0 →
      (∀ l, (c.findLine oneSet addr (.cacheAssoc .LRU)).1 = some l ↔
        (c.line l).tag = oneSet.calcTag addr) ∧
      ∀ ignoreLocked odd, c.FillsSoundly (.cacheAssoc .LRU) oneSet addr
          ignoreLocked odd ↔
        c.Fills oneSet addr ignoreLocked odd (.cacheAssoc .LRU) = true := by
  have hrun : succeeds (((cacheMachine (.cacheAssoc .LRU) oneSet).guarded
      (fun c op => c.Sound (.cacheAssoc .LRU) oneSet op)
        .noSuchEvent).exec (.new oneSet)
      [.fillLine 5 false false, .fillLine 6 false false, .findLine 5, .lock 0,
        .fillLine 7 false false])
      (fun c => decide (c.mem = [⟨5, true⟩, ⟨7, false⟩])) = true := by
    decide +kernel
  obtain ⟨c, hc, htest⟩ := succeeds_iff.1 hrun
  have hwhere := (Machine.run_of_exec hc).of_guarded
  exact ⟨c, hwhere.run, of_decide_eq_true htest, lookups_sound_of_runWhere _ _ hwhere⟩

/-- In a skewed cache, the tag 128 is filled into its second place, and then with `ignoreLocked` into
its first place, so that two lines have it. -/
theorem not_lookups_sound_skew : ∃ c,
    (cacheMachine .cacheDMSkew twoSets).Run
      [.fillLine 128 false false, .fillLine 128 true true] c ∧
    c.mem = [⟨128, false⟩, ⟨128, false⟩] ∧ ¬c.Unique := by
  have hrun : succeeds ((cacheMachine .cacheDMSkew twoSets).exec
      (.new twoSets) [.fillLine 128 false false, .fillLine 128 true true])
      (fun c => decide (c.mem = [⟨128, false⟩, ⟨128, false⟩])) = true := by
    decide +kernel
  obtain ⟨c, hc, htest⟩ := succeeds_iff.1 hrun
  have hmem := of_decide_eq_true htest
  refine ⟨c, Machine.run_of_exec hc, hmem, fun hunique => ?_⟩
  have h0 : c.line 0 = ⟨128, false⟩ := by
    rw [line, hmem]
    rfl
  have h1 : c.line 1 = ⟨128, false⟩ := by
    rw [line, hmem]
    rfl
  have hne : (c.line 0).tag ≠ 0 := by
    rw [h0]
    decide
  exact absurd (hunique 0 1 hne (by rw [h0, h1])) (by decide)

end CacheGeneric

end Sesc.CacheCore
