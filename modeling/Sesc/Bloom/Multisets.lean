import Mathlib.Data.Multiset.OrderedMonoid
import Sesc.Bloom.CountVectors

/-!
# What a counting Bloom filter represents

A filter represents a multiset: its counters count the elements by their indices, and its size is the
number of elements.  `mergeWith` and `subtract` change the counters but not the size, so that a filter
keeps representing its multiset exactly when they are only used with empty filters.
-/

namespace Sesc.Bloom

open Lib

namespace BloomFilter

/-- The counters count the elements of the multiset, and so does the size. -/
structure Represents (shape : Shape) (M : Multiset Element) (f : BloomFilter) : Prop where
  built : f.BFBuild = true
  chunks_eq : f.vectors.map (·.chunk) = shape.chunks
  vectors : ∀ v ∈ f.vectors, v.Represents M
  size_eq : f.size = M.card

variable {shape : Shape} {M N : Multiset Element} {f g : BloomFilter} {e : Element}

/-- Filters of the same shape pass the assertions about their sizes. -/
lemma checkSizes_eq (h : f.vectors.map (·.chunk) = g.vectors.map (·.chunk)) :
    f.checkSizes g = .ok ⟨⟩ := by
  refine check_eq_ok.2 ?_
  have hsizes := congrArg (List.map Chunk.vSize) h
  simpa [Function.comp_def] using hsizes

lemma Represents.chunks_eq_chunks (h : f.Represents shape M) (hg : g.Represents shape N) :
    f.vectors.map (·.chunk) = g.vectors.map (·.chunk) := h.chunks_eq.trans hg.chunks_eq.symm

lemma represents_new (shape : Shape) : (new shape).Represents shape 0 := by
  refine ⟨rfl, by simp [new, CountVector.new, Function.comp_def], ?_, rfl⟩
  intro v hv
  obtain ⟨c, hc, rfl⟩ := List.mem_map.1 hv
  exact CountVector.represents_new (shape.sized hc)

lemma Represents.clear (h : f.Represents shape M) : f.clear.Represents shape 0 := by
  rw [BloomFilter.clear, h.built]
  refine ⟨rfl, ?_, ?_, rfl⟩
  · rw [← h.chunks_eq]
    simp [CountVector.clear, CountVector.new, Function.comp_def]
  · intro v hv
    obtain ⟨w, hw, rfl⟩ := List.mem_map.1 hv
    exact CountVector.represents_new (h.vectors w hw).sized

lemma insert_eq (h : f.BFBuild = true) (e : Element) :
    f.insert e = { f with
      vectors := f.vectors.map (·.insert e), nElements := wrap (f.nElements + 1) } := by
  rw [insert, h]
  rfl

lemma Represents.insert (h : f.Represents shape M) (hcard : M.card + 1 < 2147483648)
    (e : Element) : (f.insert e).Represents shape (e ::ₘ M) := by
  have hsize : f.nElements = M.card := h.size_eq
  rw [insert_eq h.built]
  refine ⟨h.built, ?_, ?_, ?_⟩
  · rw [← h.chunks_eq]
    simp [CountVector.insert, Function.comp_def]
  · intro v hv
    obtain ⟨w, hw, rfl⟩ := List.mem_map.1 hv
    exact (h.vectors w hw).insert hcard e
  · show wrap (f.nElements + 1) = _
    rw [hsize, wrap_eq (by omega) (by omega), Multiset.card_cons]
    rfl

lemma removeFrom_spec {vs : List CountVector} (h : ∀ v ∈ vs, v.Represents (e ::ₘ M))
    (hcard : M.card + 1 < 2147483648) : ∃ vs', removeFrom e vs = .ok vs' ∧
      vs'.map (·.chunk) = vs.map (·.chunk) ∧ ∀ v ∈ vs', v.Represents M := by
  induction vs with
  | nil => exact ⟨[], rfl, rfl, fun v hv => absurd hv List.not_mem_nil⟩
  | cons v vs ih =>
    rw [List.forall_mem_cons] at h
    obtain ⟨v', hv', hchunk, hrep⟩ := h.1.remove hcard
    obtain ⟨vs', hvs', hchunks, hreps⟩ := ih h.2
    refine ⟨v' :: vs', ?_, ?_, List.forall_mem_cons.2 ⟨hrep, hreps⟩⟩
    · rw [removeFrom, hv', ok_bind, hvs']
      rfl
    · rw [List.map_cons, List.map_cons, hchunk, hchunks]

/-- A contained element is removed without an assertion failing. -/
lemma Represents.remove (h : f.Represents shape (e ::ₘ M)) (hcard : M.card + 1 < 2147483648) :
    ∃ f', f.remove e = .ok f' ∧ f'.Represents shape M := by
  obtain ⟨vs', hvs', hchunks, hreps⟩ := removeFrom_spec h.vectors hcard
  have hsize : f.nElements = M.card + 1 := by simpa [size] using h.size_eq
  refine ⟨{ f with vectors := vs', nElements := wrap (f.nElements - 1) }, ?_, h.built,
    hchunks.trans h.chunks_eq, hreps, ?_⟩
  · rw [BloomFilter.remove, h.built, hvs']
    exact check_bind (by omega)
  · show wrap (f.nElements - 1) = _
    rw [wrap_eq (by omega) (by omega)]
    omega

lemma Represents.assign (h : f.Represents shape M) (hg : g.Represents shape N) :
    ∃ f', f.assign g = .ok f' ∧ f'.Represents shape N := by
  refine ⟨{ vectors := g.vectors, nElements := g.nElements, BFBuild := true }, ?_, rfl,
    hg.chunks_eq, hg.vectors, hg.size_eq⟩
  rw [BloomFilter.assign, hg.built, checkSizes_eq (h.chunks_eq_chunks hg)]
  rfl

/-- The vectors with the same position in two filters have the same chunk. -/
lemma forall_mem_zip {vs ws : List CountVector}
    (hchunks : vs.map (·.chunk) = ws.map (·.chunk)) (hvs : ∀ v ∈ vs, v.Represents M)
    (hws : ∀ w ∈ ws, w.Represents N) :
    ∀ p ∈ vs.zip ws, p.1.chunk = p.2.chunk ∧ p.1.Represents M ∧ p.2.Represents N := by
  induction vs generalizing ws with
  | nil => exact fun p hp => absurd hp List.not_mem_nil
  | cons v vs ih =>
    cases ws with
    | nil => cases hchunks
    | cons w ws =>
      obtain ⟨hchunk, hrest⟩ := List.cons.inj hchunks
      rw [List.forall_mem_cons] at hvs hws
      rw [List.zip_cons_cons, List.forall_mem_cons]
      exact ⟨⟨hchunk, hvs.1, hws.1⟩, ih hrest hvs.2 hws.2⟩

lemma mergeWith_eq (h : f.Represents shape M) (hg : g.Represents shape N) :
    f.mergeWith g =
      .ok { f with vectors := List.zipWith CountVector.mergeWith f.vectors g.vectors } := by
  rw [mergeWith, h.built, hg.built, checkSizes_eq (h.chunks_eq_chunks hg)]
  rfl

/-- The counters count the elements of both multisets, although the size does not. -/
lemma Represents.vectors_mergeWith (h : f.Represents shape M) (hg : g.Represents shape N)
    (hcard : M.card + N.card < 2147483648) :
    ∀ v ∈ List.zipWith CountVector.mergeWith f.vectors g.vectors, v.Represents (M + N) := by
  intro v hv
  rw [← List.map_uncurry_zip_eq_zipWith] at hv
  obtain ⟨p, hp, rfl⟩ := List.mem_map.1 hv
  obtain ⟨hchunk, hrep, hrep'⟩ :=
    forall_mem_zip (h.chunks_eq_chunks hg) h.vectors hg.vectors p hp
  exact hrep.mergeWith hrep' hchunk hcard

/-- Merging with an empty filter. -/
lemma Represents.mergeWith_zero (h : f.Represents shape M) (hg : g.Represents shape 0)
    (hcard : M.card < 2147483648) : ∃ f', f.mergeWith g = .ok f' ∧ f'.Represents shape M := by
  have hvectors := h.vectors_mergeWith hg (by simpa using hcard)
  rw [Multiset.add_zero] at hvectors
  refine ⟨_, mergeWith_eq h hg, h.built, ?_, hvectors, h.size_eq⟩
  rw [← h.chunks_eq]
  have hlength := congrArg List.length (h.chunks_eq_chunks hg)
  rw [List.length_map, List.length_map] at hlength
  refine List.ext_getElem (by simp [hlength]) fun i hi hi' => ?_
  simp [CountVector.mergeWith]

lemma subtractFrom_spec {vs ws : List CountVector}
    (hchunks : vs.map (·.chunk) = ws.map (·.chunk)) (hvs : ∀ v ∈ vs, v.Represents (M + N))
    (hws : ∀ w ∈ ws, w.Represents N) (hcard : M.card + N.card < 2147483648) :
    ∃ vs', subtractFrom vs ws = .ok vs' ∧ vs'.map (·.chunk) = vs.map (·.chunk) ∧
      ∀ v ∈ vs', v.Represents M := by
  induction vs generalizing ws with
  | nil => exact ⟨[], rfl, rfl, fun v hv => absurd hv List.not_mem_nil⟩
  | cons v vs ih =>
    cases ws with
    | nil => cases hchunks
    | cons w ws =>
      obtain ⟨hchunk, hrest⟩ := List.cons.inj hchunks
      rw [List.forall_mem_cons] at hvs hws
      obtain ⟨v', hv', hchunk', hrep⟩ := hvs.1.subtract hws.1 hchunk hcard
      obtain ⟨vs', hvs', hchunks', hreps⟩ := ih hrest hvs.2 hws.2
      refine ⟨v' :: vs', ?_, ?_, List.forall_mem_cons.2 ⟨hrep, hreps⟩⟩
      · rw [subtractFrom, hv', ok_bind, hvs']
        rfl
      · rw [List.map_cons, List.map_cons, hchunk', hchunks']

/-- A contained multiset is subtracted from the counters, although not from the size. -/
lemma Represents.subtract (h : f.Represents shape (M + N)) (hg : g.Represents shape N)
    (hcard : M.card + N.card < 2147483648) :
    ∃ f', f.subtract g = .ok f' ∧ f'.BFBuild = true ∧
      f'.vectors.map (·.chunk) = shape.chunks ∧ (∀ v ∈ f'.vectors, v.Represents M) ∧
      f'.size = f.size := by
  obtain ⟨vs', hvs', hchunks, hreps⟩ :=
    subtractFrom_spec (h.chunks_eq_chunks hg) h.vectors hg.vectors hcard
  refine ⟨{ f with vectors := vs' }, ?_, h.built, hchunks.trans h.chunks_eq, hreps, rfl⟩
  rw [BloomFilter.subtract, h.built, hg.built, checkSizes_eq (h.chunks_eq_chunks hg), hvs']
  rfl

/-! ## Queries -/

lemma Represents.mayExist (h : f.Represents shape M) (he : e ∈ M) : f.mayExist e = true := by
  rw [BloomFilter.mayExist, h.built]
  exact List.all_eq_true.2 fun v hv => (h.vectors v hv).mayExist he

lemma Represents.mayIntersect (h : f.Represents shape M) (hg : g.Represents shape N)
    (heM : e ∈ M) (heN : e ∈ N) : f.mayIntersect g = true := by
  rw [BloomFilter.mayIntersect, h.built, hg.built]
  refine List.all_eq_true.2 fun p hp => ?_
  obtain ⟨hchunk, hrep, hrep'⟩ :=
    forall_mem_zip (h.chunks_eq_chunks hg) h.vectors hg.vectors p hp
  exact hrep.mayIntersect hrep' hchunk heM heN

lemma Represents.isSubsetOf (h : f.Represents shape M) (hg : g.Represents shape N)
    (hle : M ≤ N) : f.isSubsetOf g = true := by
  rw [BloomFilter.isSubsetOf, h.built, hg.built]
  refine List.all_eq_true.2 fun p hp => ?_
  obtain ⟨hchunk, hrep, hrep'⟩ :=
    forall_mem_zip (h.chunks_eq_chunks hg) h.vectors hg.vectors p hp
  exact hrep.isSubsetOf hrep' hchunk hle

end BloomFilter

/-! ## Runs -/

namespace Filters

variable {shape : Shape} {s s' : Filters}

/-- Every filter represents its multiset, answers queries accordingly, and fails no assertion. -/
structure Sound (shape : Shape) (s : Filters) : Prop where
  represents : ∀ i, (s.filter i).Represents shape (s.elements i)
  mayExist : ∀ i, ∀ e ∈ s.elements i, (s.filter i).mayExist e = true
  mayIntersect : ∀ i j, ∀ e ∈ s.elements i, e ∈ s.elements j →
    (s.filter i).mayIntersect (s.filter j) = true
  isSubsetOf : ∀ i j, s.elements i ≤ s.elements j → (s.filter i).isSubsetOf (s.filter j) = true
  no_assertion : ∀ op, s.perform op ≠ .error .assertion

/-- An operation keeps the size the number of elements: only empty filters are merged with or
subtracted, and an `int32_t` can count the elements. -/
def KeepsSize (s : Filters) : Operation → Prop
  | .insert i _ => (s.elements i).card + 1 < 2147483648
  | .mergeWith _ j => s.elements j = 0
  | .subtract _ j => s.elements j = 0
  | _ => True

instance (s : Filters) : ∀ op, Decidable (s.KeepsSize op)
  | .insert i _ => inferInstanceAs (Decidable ((s.elements i).card + 1 < 2147483648))
  | .mergeWith _ j => inferInstanceAs (Decidable (s.elements j = 0))
  | .subtract _ j => inferInstanceAs (Decidable (s.elements j = 0))
  | .remove _ _ => inferInstanceAs (Decidable True)
  | .clear _ => inferInstanceAs (Decidable True)
  | .assign _ _ => inferInstanceAs (Decidable True)

/-- What holds of the filters between two operations. -/
structure Inv (shape : Shape) (s : Filters) : Prop where
  represents : ∀ i, (s.filter i).Represents shape (s.elements i)
  card_lt : ∀ i, (s.elements i).card < 2147483648

lemma Inv.set (h : s.Inv shape) {i : ℕ} {f : BloomFilter} {M : Multiset Element}
    (hf : f.Represents shape M) (hcard : M.card < 2147483648) : (s.set i f M).Inv shape := by
  constructor
  · intro k
    by_cases hk : k = i
    · subst hk
      simpa [Filters.set] using hf
    · simpa [Filters.set, hk] using h.represents k
  · intro k
    by_cases hk : k = i
    · subst hk
      simpa [Filters.set] using hcard
    · simpa [Filters.set, hk] using h.card_lt k

lemma Inv.remove (h : s.Inv shape) {i : ℕ} {e : Element} (he : e ∈ s.elements i) :
    ∃ f, (s.filter i).remove e = .ok f ∧ f.Represents shape ((s.elements i).erase e) := by
  have hcons := Multiset.cons_erase he
  have hrep := h.represents i
  have hcard := h.card_lt i
  rw [← hcons] at hrep
  rw [← hcons, Multiset.card_cons] at hcard
  exact hrep.remove hcard

lemma Inv.subtract (h : s.Inv shape) {i j : ℕ} (hle : s.elements j ≤ s.elements i) :
    ∃ f, (s.filter i).subtract (s.filter j) = .ok f ∧ f.BFBuild = true ∧
      f.vectors.map (·.chunk) = shape.chunks ∧
      (∀ v ∈ f.vectors, v.Represents (s.elements i - s.elements j)) ∧
      f.size = (s.elements i).card := by
  have hadd := Multiset.sub_add_cancel hle
  have hrep := h.represents i
  have hsize := hrep.size_eq
  have hcard := h.card_lt i
  rw [← hadd] at hrep
  rw [← hadd, Multiset.card_add] at hcard
  obtain ⟨f, hf, hbuilt, hchunks, hreps, hsame⟩ := hrep.subtract (h.represents j) hcard
  exact ⟨f, hf, hbuilt, hchunks, hreps, hsame.trans hsize⟩

lemma Inv.sound (h : s.Inv shape) : s.Sound shape := by
  refine ⟨h.represents, fun i e he => (h.represents i).mayExist he,
    fun i j e hi hj => (h.represents i).mayIntersect (h.represents j) hi hj,
    fun i j hle => (h.represents i).isSubsetOf (h.represents j) hle, fun op hop => ?_⟩
  cases op with
  | insert i e => cases hop
  | remove i e =>
    by_cases he : e ∈ s.elements i
    · obtain ⟨f, hf, -⟩ := h.remove he
      rw [perform, check_bind he, hf] at hop
      cases hop
    · rw [perform, decide_eq_false he] at hop
      cases hop
  | clear i => cases hop
  | assign i j =>
    rw [perform] at hop
    split at hop
    · cases hop
    · obtain ⟨f, hf, -⟩ := (h.represents i).assign (h.represents j)
      rw [hf] at hop
      cases hop
  | mergeWith i j =>
    rw [perform, BloomFilter.mergeWith_eq (h.represents i) (h.represents j)] at hop
    cases hop
  | subtract i j =>
    by_cases hle : s.elements j ≤ s.elements i
    · obtain ⟨f, hf, -⟩ := h.subtract hle
      rw [perform, check_bind hle, hf] at hop
      cases hop
    · rw [perform, decide_eq_false hle] at hop
      cases hop

lemma inv_init (shape : Shape) : (filterMachine shape).init.Inv shape :=
  ⟨fun _ => BloomFilter.represents_new shape, fun _ => by
    show Multiset.card 0 < _
    rw [Multiset.card_zero]
    omega⟩

/-- An operation that meets the condition keeps the multisets. -/
lemma Inv.perform {op : Operation} (h : s.Inv shape) (hop : s.KeepsSize op)
    (hstep : s.perform op = .ok s') : s'.Inv shape := by
  cases op with
  | insert i e =>
    cases hstep
    exact h.set ((h.represents i).insert hop e) (by rw [Multiset.card_cons]; exact hop)
  | remove i e =>
    obtain ⟨he, hstep⟩ := check_bind_eq_ok.1 hstep
    obtain ⟨f, hf, hrep⟩ := h.remove he
    rw [hf] at hstep
    cases hstep
    exact h.set hrep (Nat.lt_of_le_of_lt (Multiset.card_le_card (Multiset.erase_le e _))
      (h.card_lt i))
  | clear i =>
    cases hstep
    exact h.set (h.represents i).clear (by rw [Multiset.card_zero]; omega)
  | assign i j =>
    rw [Filters.perform] at hstep
    split at hstep
    · cases hstep
      exact h
    · obtain ⟨f, hf, hrep⟩ := (h.represents i).assign (h.represents j)
      rw [hf] at hstep
      cases hstep
      exact h.set hrep (h.card_lt j)
  | mergeWith i j =>
    have hempty : s.elements j = 0 := hop
    have hrep := h.represents j
    rw [hempty] at hrep
    obtain ⟨f, hf, hrep'⟩ := (h.represents i).mergeWith_zero hrep (h.card_lt i)
    rw [Filters.perform, hf, hempty, Multiset.add_zero] at hstep
    cases hstep
    exact h.set hrep' (h.card_lt i)
  | subtract i j =>
    have hempty : s.elements j = 0 := hop
    obtain ⟨hle, hstep⟩ := check_bind_eq_ok.1 hstep
    obtain ⟨f, hf, hbuilt, hchunks, hreps, hsize⟩ := h.subtract hle
    rw [hempty, Multiset.sub_zero] at hreps
    rw [hf, hempty, Multiset.sub_zero] at hstep
    cases hstep
    exact h.set ⟨hbuilt, hchunks, hreps, hsize⟩ (h.card_lt i)

/-- After an operation that fails the condition, the size of a filter is wrong. -/
lemma Inv.not_sound {op : Operation} (h : s.Inv shape) (hop : ¬s.KeepsSize op)
    (hstep : s.perform op = .ok s') : ¬s'.Sound shape := by
  intro hsound
  have hset : ∀ {i f M}, s' = s.set i f M → f.size = M.card := by
    rintro i f M rfl
    simpa [Filters.set] using (hsound.represents i).size_eq
  cases op with
  | insert i e =>
    have hcard := h.card_lt i
    have hmax : (s.elements i).card = 2147483647 := by
      have hle : ¬(s.elements i).card + 1 < 2147483648 := hop
      omega
    have hsize := hset (Except.ok.inj hstep).symm
    rw [BloomFilter.insert_eq (h.represents i).built, Multiset.card_cons, hmax] at hsize
    have hold : (s.filter i).nElements = 2147483647 := by
      have hold := (h.represents i).size_eq
      rw [hmax] at hold
      exact hold
    have hwrap : wrap ((s.filter i).nElements + 1) = 2147483648 := hsize
    rw [hold] at hwrap
    exact absurd hwrap (by decide)
  | remove i e => exact hop trivial
  | clear i => exact hop trivial
  | assign i j => exact hop trivial
  | mergeWith i j =>
    rw [Filters.perform, BloomFilter.mergeWith_eq (h.represents i) (h.represents j)] at hstep
    have hsize := hset (Except.ok.inj hstep).symm
    have hold := (h.represents i).size_eq
    rw [Multiset.card_add] at hsize
    have hsum := hold.symm.trans hsize
    exact hop (Multiset.card_eq_zero.1 (by omega))
  | subtract i j =>
    obtain ⟨hle, hstep⟩ := check_bind_eq_ok.1 hstep
    obtain ⟨f, hf, -, -, -, hold⟩ := h.subtract hle
    rw [hf] at hstep
    have hsize := hset (Except.ok.inj hstep).symm
    rw [hold, Multiset.card_sub hle] at hsize
    have hcard := Multiset.card_le_card hle
    exact hop (Multiset.card_eq_zero.1 (by omega))

/-- All along a run, every filter represents its multiset, if and only if the operations keep the
sizes. -/
theorem always_sound_iff (shape : Shape) {ops : List Operation} {s : Filters}
    (h : (filterMachine shape).Run ops s) :
    (∀ ops' s', ops' <+: ops → (filterMachine shape).Run ops' s' → s'.Sound shape) ↔
      (filterMachine shape).RunWhere (fun s op => s.KeepsSize op) ops s :=
  h.always_iff_runWhere (inv_init shape) (fun _ hs => hs.sound)
    (fun _ _ _ hs hop hstep => hs.perform hop hstep)
    (fun _ _ _ hs hop hstep => hs.not_sound hop hstep)

/-! ### Two vectors -/

/-- Two vectors, of four and of eight counters. -/
def twoVectors : Shape where
  vectors := [(2, 4), (3, 8)]
  vBits_le := by decide
  vSize_pos := by decide
  vSize_lt := by decide

/-- Elements with common indices are inserted, assigned and removed, and an empty filter is merged
with. -/
theorem always_sound_twoVectors : ∃ s,
    (filterMachine twoVectors).Run
      [.insert 0 5, .insert 0 37, .insert 0 9, .assign 1 0, .remove 1 37, .mergeWith 1 2] s ∧
    s.elements 1 = {5, 9} ∧
    ((∀ ops' s', ops' <+: [.insert 0 5, .insert 0 37, .insert 0 9, .assign 1 0, .remove 1 37,
          .mergeWith 1 2] →
        (filterMachine twoVectors).Run ops' s' → s'.Sound twoVectors) ↔
      (filterMachine twoVectors).RunWhere (fun s op => s.KeepsSize op)
        [.insert 0 5, .insert 0 37, .insert 0 9, .assign 1 0, .remove 1 37, .mergeWith 1 2] s) ∧
    (filterMachine twoVectors).RunWhere (fun s op => s.KeepsSize op)
      [.insert 0 5, .insert 0 37, .insert 0 9, .assign 1 0, .remove 1 37, .mergeWith 1 2] s := by
  have hrun : succeeds (((filterMachine twoVectors).guarded
      (fun s op => decide (s.KeepsSize op)) .noSuchEvent).exec (filterMachine twoVectors).init
      [.insert 0 5, .insert 0 37, .insert 0 9, .assign 1 0, .remove 1 37, .mergeWith 1 2])
      (fun s => decide (s.elements 1 = {5, 9})) = true := by
    decide +kernel
  obtain ⟨s, hs, htest⟩ := succeeds_iff.1 hrun
  have hwhere := (Machine.run_of_exec hs).of_guarded.mono
    (D := fun s op => s.KeepsSize op) fun _ _ => of_decide_eq_true
  exact ⟨s, hwhere.run, of_decide_eq_true htest, always_sound_iff _ hwhere.run, hwhere⟩

/-- An element that comes into a filter by `mergeWith` is not in its size, and it cannot be
removed. -/
theorem not_always_sound : ∃ s,
    (filterMachine twoVectors).Run [.insert 0 5, .mergeWith 1 0] s ∧
    s.elements 1 = {5} ∧ (s.filter 1).size = 0 ∧
    s.perform (.remove 1 5) = .error .assertion ∧ ¬s.Sound twoVectors := by
  have hrun : succeeds ((filterMachine twoVectors).exec (filterMachine twoVectors).init
      [.insert 0 5, .mergeWith 1 0])
      (fun s => decide (s.elements 1 = {5} ∧ (s.filter 1).size = 0) &&
        failsWith (s.perform (.remove 1 5)) .assertion) = true := by
    decide +kernel
  obtain ⟨s, hs, htest⟩ := succeeds_iff.1 hrun
  obtain ⟨hstate, hremove⟩ := Bool.and_eq_true_iff.1 htest
  obtain ⟨helements, hsize⟩ := of_decide_eq_true hstate
  have hremove := failsWith_iff.1 hremove
  exact ⟨s, Machine.run_of_exec hs, helements, hsize, hremove,
    fun hsound => hsound.no_assertion _ hremove⟩

end Filters

end Sesc.Bloom
