import Mathlib.Data.List.Nodup
import Mathlib.Tactic.Common

/-!
# Tables of records

A hash map whose values carry their own key is the list of its values, no two of which have
the same key.  Looking up, changing and erasing one record are described by the records that
are found afterwards, and by what they do to the number of records with a property.
-/

namespace Sesc.Lib

/-- A finite map from keys to records, given by the list of the records. -/
structure Table {κ ρ : Type*} (key : ρ → κ) where
  toList : List ρ
  nodup : (toList.map key).Nodup

namespace Table

variable {κ ρ : Type*} {key : ρ → κ}

instance : Membership ρ (Table key) := ⟨fun t r => r ∈ t.toList⟩

lemma mem_iff {r : ρ} {t : Table key} : r ∈ t ↔ r ∈ t.toList := Iff.rfl

def empty : Table key := ⟨[], List.nodup_nil⟩

instance : EmptyCollection (Table key) := ⟨empty⟩

@[simp] lemma not_mem_empty (r : ρ) : r ∉ (∅ : Table key) := List.not_mem_nil

/-- The number of records with a property. -/
def count (t : Table key) (p : ρ → Bool) : ℕ := t.toList.countP p

@[simp] lemma count_empty (p : ρ → Bool) : (∅ : Table key).count p = 0 := rfl

lemma eq_of_mem {t : Table key} {r r' : ρ} (hr : r ∈ t) (hr' : r' ∈ t) (hkey : key r = key r') :
    r = r' :=
  List.inj_on_of_nodup_map t.nodup hr hr' hkey

lemma exists_mem_of_count_pos {t : Table key} {p : ρ → Bool} (h : 0 < t.count p) :
    ∃ r ∈ t, p r = true :=
  List.countP_pos_iff.1 h

lemma count_pos_of_mem {t : Table key} {p : ρ → Bool} {r : ρ} (hr : r ∈ t) (hp : p r = true) :
    0 < t.count p :=
  List.countP_pos_iff.2 ⟨r, hr, hp⟩

/-- At most one record has a property. -/
lemma eq_of_count_le_one {t : Table key} {p : ρ → Bool} {r r' : ρ} (h : t.count p ≤ 1) (hr : r ∈ t)
    (hr' : r' ∈ t) (hp : p r = true) (hp' : p r' = true) : r = r' := by
  rw [count, List.countP_eq_length_filter] at h
  have hmem : r ∈ t.toList.filter p := List.mem_filter.2 ⟨hr, hp⟩
  have hmem' : r' ∈ t.toList.filter p := List.mem_filter.2 ⟨hr', hp'⟩
  rcases hfilter : t.toList.filter p with _ | ⟨a, _ | ⟨b, l⟩⟩
  · rw [hfilter] at hmem
    cases hmem
  · rw [hfilter, List.mem_singleton] at hmem hmem'
    rw [hmem, hmem']
  · rw [hfilter] at h
    simp only [List.length_cons] at h
    omega

lemma count_eq_zero {t : Table key} {p : ρ → Bool} : t.count p = 0 ↔ ∀ r ∈ t, p r = false := by
  simp only [count, List.countP_eq_zero, mem_iff, Bool.not_eq_true]

/-- Every record is changed. -/
def map (t : Table key) (f : ρ → ρ) (hf : ∀ r, key (f r) = key r) : Table key where
  toList := t.toList.map f
  nodup := by
    have hkey : key ∘ f = key := funext hf
    rw [List.map_map, hkey]
    exact t.nodup

lemma mem_map {t : Table key} {f : ρ → ρ} {g : ∀ r, key (f r) = key r} {r : ρ} :
    r ∈ t.map f g ↔ ∃ r' ∈ t, f r' = r :=
  List.mem_map

/-- All records pass a test. -/
def all (t : Table key) (p : ρ → Bool) : Bool := t.toList.all p

lemma all_eq_true {t : Table key} {p : ρ → Bool} : t.all p = true ↔ ∀ r ∈ t, p r = true :=
  List.all_eq_true

variable [DecidableEq κ]

/-- The record with a given key. -/
def find (t : Table key) (k : κ) : Option ρ := t.toList.find? fun r => key r = k

/-- The record with the key `k` is changed. -/
def modify (t : Table key) (k : κ) (f : ρ → ρ) (hf : ∀ r, key (f r) = key r) : Table key :=
  t.map (fun r => if key r = k then f r else r) fun r => by
    split
    · exact hf r
    · rfl

/-- The record with the key `k` is removed. -/
def erase (t : Table key) (k : κ) : Table key where
  toList := t.toList.filter fun r => key r ≠ k
  nodup := t.nodup.sublist (List.filter_sublist.map key)

/-- A record is added; it replaces the one that has its key. -/
def insert (t : Table key) (r : ρ) : Table key where
  toList := r :: (t.erase (key r)).toList
  nodup := by
    rw [List.map_cons, List.nodup_cons]
    refine ⟨fun h => ?_, (t.erase (key r)).nodup⟩
    obtain ⟨r', hr', hkey⟩ := List.mem_map.1 h
    exact of_decide_eq_true (List.mem_filter.1 hr').2 hkey

variable {t : Table key} {k j : κ} {f : ρ → ρ} {g : ∀ r, key (f r) = key r} {r r' : ρ}
  {p : ρ → Bool}

lemma find_eq_some : t.find k = some r ↔ r ∈ t ∧ key r = k := by
  constructor
  · intro h
    exact ⟨List.mem_of_find?_eq_some h, of_decide_eq_true (List.find?_some h :)⟩
  · rintro ⟨hr, hkey⟩
    have hsome : (t.find k).isSome := List.find?_isSome.2 ⟨r, hr, decide_eq_true hkey⟩
    obtain ⟨r', hr'⟩ := Option.isSome_iff_exists.1 hsome
    have hfound : r' ∈ t ∧ key r' = k :=
      ⟨List.mem_of_find?_eq_some hr', of_decide_eq_true (List.find?_some hr' :)⟩
    rw [hr', eq_of_mem hfound.1 hr (hfound.2.trans hkey.symm)]

lemma find_eq_none : t.find k = none ↔ ∀ r ∈ t, key r ≠ k := by
  simp only [find, List.find?_eq_none, mem_iff, decide_eq_true_eq, ne_eq]

lemma mem_modify : r ∈ t.modify k f g ↔
    (∃ r' ∈ t, key r' = k ∧ f r' = r) ∨ (r ∈ t ∧ key r ≠ k) := by
  rw [modify, mem_map]
  constructor
  · rintro ⟨r', hr', rfl⟩
    split
    · rename_i hkey
      exact .inl ⟨r', hr', hkey, rfl⟩
    · rename_i hkey
      exact .inr ⟨hr', hkey⟩
  · rintro (⟨r', hr', hkey, rfl⟩ | ⟨hr, hkey⟩)
    · exact ⟨r', hr', if_pos hkey⟩
    · exact ⟨r, hr, if_neg hkey⟩

lemma mem_erase : r ∈ t.erase k ↔ r ∈ t ∧ key r ≠ k := by
  show r ∈ t.toList.filter _ ↔ _
  rw [List.mem_filter, decide_eq_true_eq]
  rfl

lemma mem_insert : r ∈ t.insert r' ↔ r = r' ∨ (r ∈ t ∧ key r ≠ key r') := by
  show r ∈ r' :: (t.erase (key r')).toList ↔ _
  rw [List.mem_cons, ← mem_iff, mem_erase]

lemma find_map : (t.map f g).find k = (t.find k).map f := by
  ext r
  rw [find_eq_some, mem_map, Option.map_eq_some_iff]
  constructor
  · rintro ⟨⟨r', hr', rfl⟩, hkey⟩
    exact ⟨r', find_eq_some.2 ⟨hr', (g r').symm.trans hkey⟩, rfl⟩
  · rintro ⟨r', hr', rfl⟩
    obtain ⟨hmem, hkey⟩ := find_eq_some.1 hr'
    exact ⟨⟨r', hmem, rfl⟩, (g r').trans hkey⟩

lemma find_modify : (t.modify k f g).find j = if j = k then (t.find j).map f else t.find j := by
  rw [modify, find_map]
  cases hj : t.find j with
  | none => simp
  | some r =>
    obtain ⟨-, rfl⟩ := find_eq_some.1 hj
    rw [Option.map_some, Option.map_some, apply_ite some]

lemma find_erase : (t.erase k).find j = if j = k then none else t.find j := by
  ext r
  rw [find_eq_some, mem_erase]
  split
  · rename_i hj
    subst hj
    exact iff_of_false (fun h => h.1.2 h.2) fun h => nomatch h
  · rename_i hj
    rw [find_eq_some]
    constructor
    · rintro ⟨⟨hr, -⟩, hrj⟩
      exact ⟨hr, hrj⟩
    · rintro ⟨hr, hrj⟩
      exact ⟨⟨hr, fun h => hj (hrj.symm.trans h)⟩, hrj⟩

lemma find_insert : (t.insert r).find j = if j = key r then some r else t.find j := by
  ext r'
  rw [find_eq_some, mem_insert]
  split
  · rename_i hj
    subst hj
    rw [Option.some_inj]
    constructor
    · rintro ⟨rfl | ⟨-, hne⟩, hkey⟩
      · rfl
      · exact absurd hkey hne
    · rintro rfl
      exact ⟨.inl rfl, rfl⟩
  · rename_i hj
    rw [find_eq_some]
    constructor
    · rintro ⟨rfl | ⟨hr, -⟩, hkey⟩
      · exact absurd hkey.symm hj
      · exact ⟨hr, hkey⟩
    · rintro ⟨hr, hkey⟩
      exact ⟨.inr ⟨hr, fun h => hj (hkey.symm.trans h)⟩, hkey⟩

/-! ### Counting -/

private lemma countP_split (l : List ρ) (hnodup : (l.map key).Nodup) (hr : r ∈ l) :
    l.countP p = (l.filter fun r' => key r' ≠ key r).countP p + (p r).toNat := by
  induction l with
  | nil => exact absurd hr List.not_mem_nil
  | cons a l ih =>
    rw [List.map_cons, List.nodup_cons] at hnodup
    by_cases ha : a = r
    · subst ha
      have hrest : (l.filter fun r' => key r' ≠ key a) = l := by
        refine List.filter_eq_self.2 fun r' hr' => decide_eq_true fun heq => ?_
        exact hnodup.1 (List.mem_map.2 ⟨r', hr', heq⟩)
      rw [List.filter_cons_of_neg (by simp), hrest, List.countP_cons]
      cases p a <;> simp
    · have hmem : r ∈ l := (List.mem_cons.1 hr).resolve_left fun h => ha h.symm
      have hkey : key a ≠ key r := fun heq => hnodup.1 (heq ▸ List.mem_map.2 ⟨r, hmem, rfl⟩)
      rw [List.filter_cons_of_pos (by simpa using hkey), List.countP_cons, List.countP_cons,
        ih hnodup.2 hmem]
      omega

/-- Removing a record that is there. -/
lemma count_erase (hr : t.find k = some r) : (t.erase k).count p + (p r).toNat = t.count p := by
  obtain ⟨hmem, rfl⟩ := find_eq_some.1 hr
  exact (countP_split t.toList t.nodup hmem).symm

/-- Adding a record with a new key. -/
lemma count_insert (hnew : t.find (key r) = none) :
    (t.insert r).count p = t.count p + (p r).toNat := by
  have hself : (t.erase (key r)).toList = t.toList :=
    List.filter_eq_self.2 fun r' hr' => decide_eq_true (find_eq_none.1 hnew r' hr')
  show (r :: (t.erase (key r)).toList).countP p = _
  rw [hself, List.countP_cons, count]
  cases p r <;> rfl

/-- Replacing a record that is there. -/
lemma count_replace (hr : t.find (key r') = some r) :
    (t.insert r').count p + (p r).toNat = t.count p + (p r').toNat := by
  have herase := count_erase (p := p) hr
  have hcount : (t.insert r').count p = (t.erase (key r')).count p + (p r').toNat := by
    show (r' :: (t.erase (key r')).toList).countP p = _
    rw [List.countP_cons, count]
    cases p r' <;> rfl
  omega

/-- Changing a record in a way that the property does not see. -/
lemma count_modify_of_eq (hp : ∀ r, t.find k = some r → p (f r) = p r) :
    (t.modify k f g).count p = t.count p := by
  show (t.toList.map _).countP p = t.toList.countP p
  rw [List.countP_map]
  refine List.countP_congr fun r hr => ?_
  show p (if key r = k then f r else r) = true ↔ _
  split
  · rename_i hkey
    rw [hp r (find_eq_some.2 ⟨hr, hkey⟩)]
  · rfl

/-- Changing a record that is there. -/
lemma count_modify (hr : t.find k = some r) :
    (t.modify k f g).count p + (p r).toNat = t.count p + (p (f r)).toNat := by
  obtain ⟨hmem, rfl⟩ := find_eq_some.1 hr
  have hfound : (t.modify (key r) f g).find (key r) = some (f r) := by
    rw [find_modify, if_pos rfl, hr, Option.map_some]
  have hrest : ((t.modify (key r) f g).erase (key r)).count p = (t.erase (key r)).count p := by
    show ((t.toList.map _).filter _).countP p = (t.toList.filter _).countP p
    rw [List.filter_map, List.countP_map, List.countP_filter, List.countP_filter]
    refine List.countP_congr fun a _ => ?_
    by_cases ha : key a = key r
    · simp [ha, g]
    · simp [ha]
  have hbefore := count_erase (p := p) hr
  have hafter := count_erase (p := p) hfound
  omega

end Table

end Sesc.Lib
