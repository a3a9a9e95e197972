import Sesc.Lib.Check

/-!
# Pools of objects

A pool keeps the objects that have been returned to it, up to a bound, and gives them out
again, the last returned first; when it is empty a new object is allocated.  What counts for
the users of a pool is the set of the objects in use: taking an object adds one that was not
in use, and returning an object in use removes it.
-/

namespace Sesc.Lib

/-- A pool: the stack of the objects to give out, and which objects are allocated. -/
structure Pool (ι : Type*) where
  bank : List ι
  allocated : ι → Bool
  upperBound : ℕ
  nodup : bank.Nodup
  allocated_of_mem : ∀ x ∈ bank, allocated x = true

namespace Pool

variable {ι : Type*}

/-- An object has been taken from the pool and not been returned. -/
def InUse (p : Pool ι) (x : ι) : Prop := p.allocated x = true ∧ x ∉ p.bank

variable [DecidableEq ι]

/-- A pool with objects in reserve. -/
def new (reserve : List ι) (nodup : reserve.Nodup) (upperBound : ℕ) : Pool ι where
  bank := reserve
  allocated x := decide (x ∈ reserve)
  upperBound := upperBound
  nodup := nodup
  allocated_of_mem _ hx := decide_eq_true hx

/-- The pool without the last object that was returned to it. -/
def pop (p : Pool ι) : Pool ι where
  bank := p.bank.tail
  allocated := p.allocated
  upperBound := p.upperBound
  nodup := p.nodup.tail
  allocated_of_mem x hx := p.allocated_of_mem x (List.mem_of_mem_tail hx)

/-- The pool after the allocation of a new object. -/
def allocate (p : Pool ι) (x : ι) : Pool ι where
  bank := p.bank
  allocated := Function.update p.allocated x true
  upperBound := p.upperBound
  nodup := p.nodup
  allocated_of_mem y hy := by
    by_cases h : y = x
    · rw [h, Function.update_self]
    · rw [Function.update_of_ne h]
      exact p.allocated_of_mem y hy

section

variable {φ : Type*}

/-- `Take`; the new object that is allocated when the pool is empty is given. -/
def take (f : φ) (fresh : ι) (p : Pool ι) : Except φ (ι × Pool ι) :=
  match p.bank.head? with
  | some x => .ok (x, p.pop)
  | none => if p.allocated fresh then .error f else .ok (fresh, p.allocate fresh)

/-- The pool after an object has been pushed on its stack. -/
def push (p : Pool ι) (x : ι) (hx : p.InUse x) : Pool ι where
  bank := x :: p.bank
  allocated := p.allocated
  upperBound := p.upperBound
  nodup := List.nodup_cons.2 ⟨hx.2, p.nodup⟩
  allocated_of_mem y hy := by
    rcases List.mem_cons.1 hy with rfl | hy
    · exact hx.1
    · exact p.allocated_of_mem y hy

/-- The pool after an object has been deleted. -/
def delete (p : Pool ι) (x : ι) (hx : p.InUse x) : Pool ι where
  bank := p.bank
  allocated := Function.update p.allocated x false
  upperBound := p.upperBound
  nodup := p.nodup
  allocated_of_mem y hy := by
    have hne : y ≠ x := by
      rintro rfl
      exact hx.2 hy
    rw [Function.update_of_ne hne]
    exact p.allocated_of_mem y hy

instance (p : Pool ι) (x : ι) : Decidable (p.InUse x) :=
  inferInstanceAs (Decidable (_ ∧ _))

/-- `Return`; that the object is not in the pool already is asserted. -/
def give (f : φ) (x : ι) (p : Pool ι) : Except φ (Pool ι) :=
  if hx : p.InUse x then
    .ok (if p.bank.length < p.upperBound then p.push x hx else p.delete x hx)
  else .error f

variable {p p' : Pool ι} {f : φ} {x y fresh : ι}

/-- The object that is taken was not in use, and is from now on. -/
lemma inUse_of_take (h : p.take f fresh = .ok (x, p')) :
    ¬p.InUse x ∧ ∀ y, p'.InUse y ↔ y = x ∨ p.InUse y := by
  rw [take] at h
  split at h
  · rename_i z hz
    obtain ⟨xs, hbank⟩ := List.head?_eq_some_iff.1 hz
    cases h
    have hmem : x ∈ p.bank := by
      rw [hbank]
      exact .head _
    have hnodup := p.nodup
    rw [hbank] at hnodup
    refine ⟨fun hx => hx.2 hmem, fun y => ?_⟩
    have hpop : p.pop.InUse y ↔ p.allocated y = true ∧ y ∉ xs := by
      show (p.allocated y = true ∧ y ∉ p.bank.tail) ↔ _
      rw [hbank]
      rfl
    rw [hpop, InUse, hbank, List.mem_cons, not_or]
    constructor
    · rintro ⟨hallocated, hy⟩
      by_cases hyx : y = x
      · exact .inl hyx
      · exact .inr ⟨hallocated, hyx, hy⟩
    · rintro (rfl | ⟨hallocated, -, hy⟩)
      · exact ⟨p.allocated_of_mem y hmem, (List.nodup_cons.1 hnodup).1⟩
      · exact ⟨hallocated, hy⟩
  · rename_i hnil
    rw [List.head?_eq_none_iff] at hnil
    split at h
    · cases h
    · rename_i hnot
      cases h
      refine ⟨fun hx => hnot hx.1, fun y => ?_⟩
      have hnone : ∀ z, z ∉ p.bank := by
        rw [hnil]
        exact fun _ => List.not_mem_nil
      by_cases hyx : y = x
      · subst hyx
        exact iff_of_true ⟨Function.update_self .., hnone y⟩ (.inl rfl)
      · have hallocated : (p.allocate x).allocated y = p.allocated y :=
          Function.update_of_ne hyx ..
        rw [InUse, hallocated]
        exact ⟨.inr, fun h => h.resolve_left hyx⟩

/-- The object that is taken comes from the stack, if there is one. -/
lemma bank_of_take (h : p.take f fresh = .ok (x, p')) :
    p'.bank ⊆ p.bank ∧ (p.bank ≠ [] → x ∈ p.bank) := by
  rw [take] at h
  split at h
  · rename_i z hz
    cases h
    exact ⟨fun _ => List.mem_of_mem_tail, fun _ => List.mem_of_mem_head? (Option.mem_def.2 hz)⟩
  · rename_i hnil
    split at h
    · cases h
    · cases h
      exact ⟨List.Subset.refl _, fun hne => absurd (List.head?_eq_none_iff.1 hnil) hne⟩

/-- An object in use can be returned, and is not in use after that. -/
lemma exists_give (hx : p.InUse x) :
    ∃ p', p.give f x = .ok p' ∧ ∀ y, p'.InUse y ↔ y ≠ x ∧ p.InUse y := by
  rw [give, dif_pos hx]
  refine ⟨_, rfl, fun y => ?_⟩
  split
  · have hpush : (p.push x hx).InUse y ↔ p.allocated y = true ∧ y ∉ x :: p.bank := Iff.rfl
    rw [hpush, InUse, List.mem_cons, not_or]
    exact and_left_comm
  · by_cases hyx : y = x
    · subst hyx
      refine iff_of_false (fun h => ?_) fun h => h.1 rfl
      have hdeleted : (p.delete y hx).allocated y = false := Function.update_self ..
      rw [InUse, hdeleted] at h
      exact Bool.false_ne_true h.1
    · have hallocated : (p.delete x hx).allocated y = p.allocated y :=
        Function.update_of_ne hyx ..
      rw [InUse, hallocated]
      exact ⟨fun h => ⟨hyx, h⟩, fun h => h.2⟩

lemma bank_of_give (h : p.give f x = .ok p') : p'.bank ⊆ x :: p.bank := by
  rw [give] at h
  split at h
  · cases h
    split
    · exact List.Subset.refl _
    · exact List.subset_cons_self ..
  · cases h

end

end Pool

end Sesc.Lib
