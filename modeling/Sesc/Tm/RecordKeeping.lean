import Sesc.Tm.Composition
import Sesc.Tm.Flags

/-!
# The records and the flags of their transactions

What is true of the record of a transaction before it is written depends on the two flags of the
transaction: one that has not been observed has no begin, and one that is resolved has an interval.
-/

namespace Sesc.Tm

open Lib Sesc.Trans Sesc.Heap

/-- A record lists the actions of its transaction in order, and its interval starts when the
transaction has. -/
structure Faithful (r : Record) (h : History) : Prop where
  entries : r.entrySet = h.actions.map Action.entry
  interval : r.timeStart ≤ r.timeEnd
  start : ∀ t, h.start = some t → r.timeStart = t

/-- The record of a transaction with the flags `x`, before it is written.  The begin of a pending
transaction is about to be recorded. -/
structure Tells (clock : ℕ) (pending : Prop) (x : Flags) (r : Record) (h : History) : Prop where
  entries : r.entrySet = h.actions.map Action.entry
  past : r.timeStart ≤ clock
  unobserved : x.progressObserved = false → r.timeStart = 0 ∧ h.start = none
  resolved : x.resolved = true → r.timeStart ≤ r.timeEnd
  start : ∀ t, h.start = some t → r.timeStart = t ∨ pending
  pending : pending → x = ⟨true, false⟩ ∧ h.start = some clock

/-- The records of the transactions. -/
structure Told (F : Level → Option Flags) (c : Table Record.transID) (h : Level → History)
    (clock : ℕ) (pending : Option Level) : Prop where
  same : ∀ id, c.find id = none ↔ F id = none
  tells : ∀ id x r, F id = some x → c.find id = some r →
    Tells clock (pending = some id) x r (h id)

section

variable {F F' : Level → Option Flags} {c c' : Table Record.transID} {h : Level → History}
  {clock : ℕ} {p : Option Level} {id : Level}

/-- The record of one transaction is changed, and so are its flags and its history. -/
lemma Told.change (hc : Told F c h clock p) {x : Flags} {y : History} {f : Record → Record}
    {g : ∀ r, (f r).transID = r.transID} {p' : Option Level} (hid : F id ≠ none)
    (hp : ∀ j ≠ id, p = some j ↔ p' = some j)
    (hstep : ∀ r, c.find id = some r → Tells clock (p' = some id) x (f r) y) :
    Told (Function.update F id (some x)) (c.modify id f g) (Function.update h id y) clock p' := by
  refine ⟨fun j => ?_, fun j z r hz hr => ?_⟩
  · rw [Table.find_modify]
    by_cases hj : j = id
    · subst hj
      rw [if_pos rfl, Function.update_self, Option.map_eq_none_iff, hc.same j]
      exact iff_of_false hid (Option.some_ne_none x)
    · rw [if_neg hj, Function.update_of_ne hj]
      exact hc.same j
  · rw [Table.find_modify] at hr
    by_cases hj : j = id
    · subst hj
      rw [if_pos rfl] at hr
      obtain ⟨r', hr', rfl⟩ := Option.map_eq_some_iff.1 hr
      rw [Function.update_self] at hz
      cases hz
      rw [Function.update_self]
      exact hstep r' hr'
    · rw [if_neg hj] at hr
      rw [Function.update_of_ne hj] at hz
      rw [Function.update_of_ne hj]
      have := hc.tells j z r hz hr
      rwa [propext (hp j hj)] at this

/-- A record gets an entry, the one that the action should have. -/
lemma Told.act (hc : Told F c h clock p) (a : Action) (hid : F id ≠ none)
    {f : Record → Record} {g : ∀ r, (f r).transID = r.transID}
    (hf : ∀ r, f r = { r with entrySet := r.entrySet ++ [a.entry] }) :
    Told F (c.modify id f g) (Function.update h id ((h id).act a)) clock p := by
  obtain ⟨x, hx⟩ := Option.ne_none_iff_exists'.1 hid
  have hsame : F = Function.update F id (some x) := by
    rw [← hx, Function.update_eq_self]
  rw [hsame]
  refine hc.change hid (fun _ _ => Iff.rfl) fun r hr => ?_
  obtain ⟨hentries, hpast, hunobserved, hresolved, hstart, hpending⟩ := hc.tells id x r hx hr
  rw [hf]
  refine ⟨?_, hpast, hunobserved, hresolved, hstart, hpending⟩
  show r.entrySet ++ [a.entry] = ((h id).actions ++ [a]).map Action.entry
  rw [List.map_append, hentries, List.map_singleton]

/-- The commit is recorded. -/
lemma Told.commit (hc : Told F c h clock none) (hid : F id = some ⟨true, false⟩) :
    Told (resolveFlags F id) (c.modify id (fun r => { r with timeEnd := clock }) fun _ => rfl) h
      clock none := by
  have hflags : resolveFlags F id = Function.update F id (some ⟨true, true⟩) := by
    rw [resolveFlags, hid, Option.map_some]
  rw [hflags, ← Function.update_eq_self id h]
  refine hc.change (by rw [hid]; exact Option.some_ne_none _) (fun _ _ => Iff.rfl) fun r hr => ?_
  obtain ⟨hentries, hpast, -, -, hstart, -⟩ := hc.tells id _ r hid hr
  exact ⟨hentries, hpast, fun h => absurd h.symm Bool.false_ne_true, fun _ => hpast, hstart,
    fun h => absurd h.symm (Option.some_ne_none _)⟩

/-- A transaction that has not been observed is aborted, or one that is resolved already. -/
lemma Told.abort (hc : Told F c h clock none)
    (hid : ∀ x, F id = some x → x.progressObserved = false ∨ x.resolved = true) :
    Told (resolveFlags F id) c h clock none := by
  refine ⟨fun j => ?_, fun j z r hz hr => ?_⟩
  · rw [hc.same j, resolveFlags]
    by_cases hj : j = id
    · subst hj
      rw [Function.update_self, Option.map_eq_none_iff]
    · rw [Function.update_of_ne hj]
  · rw [resolveFlags] at hz
    by_cases hj : j = id
    · subst hj
      rw [Function.update_self] at hz
      obtain ⟨x, hx, rfl⟩ := Option.map_eq_some_iff.1 hz
      obtain ⟨hentries, hpast, hunobserved, hresolved, hstart, -⟩ := hc.tells j x r hx hr
      refine ⟨hentries, hpast, hunobserved, fun _ => ?_, hstart,
        fun h => absurd h.symm (Option.some_ne_none _)⟩
      rcases hid x hx with hx' | hx'
      · rw [(hunobserved hx').1]
        exact Nat.zero_le _
      · exact hresolved hx'
    · rw [Function.update_of_ne hj] at hz
      exact hc.tells j z r hz hr

/-- A transaction begins, and this is about to be recorded. -/
lemma Told.begin (hc : Told F c h clock none) (hid : F id = some ⟨false, false⟩) :
    Told (observeFlags F id) c (Function.update h id { h id with start := some clock }) clock
      (some id) := by
  have hflags : observeFlags F id = Function.update F id (some ⟨true, false⟩) := by
    rw [observeFlags, hid, Option.map_some]
  have hc' : Told (Function.update F id (some ⟨true, false⟩))
      (c.modify id (fun r => r) fun _ => rfl)
      (Function.update h id { h id with start := some clock }) clock (some id) := by
    refine hc.change (by rw [hid]; exact Option.some_ne_none _) (fun j hj => ?_) fun r hr => ?_
    · exact iff_of_false (fun h => Option.some_ne_none _ h.symm) fun h => hj (Option.some.inj h).symm
    · obtain ⟨hentries, hpast, -, -, -, -⟩ := hc.tells id _ r hid hr
      exact ⟨hentries, hpast, fun h => absurd h.symm Bool.false_ne_true,
        fun h => absurd h Bool.false_ne_true, fun _ _ => .inr rfl, fun _ => ⟨rfl, rfl⟩⟩
  rw [hflags]
  refine ⟨fun j => ?_, fun j z r hz hr => hc'.tells j z r hz ?_⟩
  · rw [← hc'.same j, Table.find_modify]
    split
    · rw [Option.map_id']
    · rfl
  · rw [Table.find_modify, hr]
    split <;> rfl

/-- The begin is recorded. -/
lemma Told.record (hc : Told F c h clock (some id)) (hid : F id ≠ none) :
    Told F (c.modify id (fun r => { r with timeStart := clock }) fun _ => rfl) h clock none := by
  obtain ⟨x, hx⟩ := Option.ne_none_iff_exists'.1 hid
  have hsame : F = Function.update F id (some x) := by
    rw [← hx, Function.update_eq_self]
  rw [hsame, ← Function.update_eq_self id h]
  refine hc.change hid (fun j hj => ?_) fun r hr => ?_
  · exact iff_of_false (fun h => hj (Option.some.inj h).symm) fun h => nomatch h
  · obtain ⟨hentries, -, -, -, -, hpending⟩ := hc.tells id x r hx hr
    obtain ⟨rfl, hstart⟩ := hpending rfl
    refine ⟨hentries, Nat.le_refl _, (fun h => nomatch h), (fun h => nomatch h), fun t ht => .inl ?_,
      fun h => nomatch h⟩
    exact Option.some.inj (hstart.symm.trans ht)

/-- A transaction is new. -/
lemma Told.initiate (hc : Told F c h clock none) {r : Record} (hid : r.transID = id)
    (hentries : r.entrySet = []) (htime : r.timeStart = 0) :
    Told (Function.update F id (some ⟨false, false⟩)) (c.insert r) (Function.update h id .new) clock
      none := by
  subst hid
  refine ⟨fun j => ?_, fun j x r' hx hr => ?_⟩
  · rw [Table.find_insert]
    by_cases hj : j = r.transID
    · subst hj
      rw [if_pos rfl, Function.update_self]
      exact iff_of_false (Option.some_ne_none _) (Option.some_ne_none _)
    · rw [if_neg hj, Function.update_of_ne hj]
      exact hc.same j
  · rw [Table.find_insert] at hr
    by_cases hj : j = r.transID
    · subst hj
      rw [if_pos rfl] at hr
      cases hr
      rw [Function.update_self] at hx ⊢
      cases hx
      refine ⟨by rw [hentries]; rfl, by omega, fun _ => ⟨htime, rfl⟩, (fun h => nomatch h),
        (fun _ h => nomatch h), fun h => nomatch h⟩
    · rw [if_neg hj] at hr
      rw [Function.update_of_ne hj] at hx ⊢
      exact hc.tells j x r' hx hr

/-- The records of the transactions that are gone are faithful. -/
lemma Told.faithful (hc : Told F c h clock p) (hsheds : Sheds F F') {r : Record}
    (hr : c.find id = some r) (hid : F' id = none) : Faithful r (h id) := by
  have hne : F id ≠ none := by
    intro hnone
    rw [(hc.same id).2 hnone] at hr
    cases hr
  obtain ⟨x, hx⟩ := Option.ne_none_iff_exists'.1 hne
  obtain ⟨hentries, -, -, hresolved, hstart, hpending⟩ := hc.tells id x r hx hr
  have hdone : x.resolved = true := hsheds.resolved hx hid
  refine ⟨hentries, hresolved hdone, fun t ht => (hstart t ht).resolve_right fun hp => ?_⟩
  rw [(hpending hp).1] at hdone
  cases hdone

/-- The records of the transactions that are gone are removed. -/
lemma Told.shed (hc : Told F c h clock p) (hsheds : Sheds F F')
    (hfind : ∀ id, c'.find id = if F id ≠ none ∧ F' id = none then none else c.find id) :
    Told F' c' h clock p := by
  refine ⟨fun id => ?_, fun id x r hx hr => ?_⟩
  · rw [hfind]
    split
    · rename_i hgone
      exact iff_of_true rfl hgone.2
    · rename_i hgone
      rw [hc.same id]
      rcases hsheds id with hsame | ⟨hnone, y, hy, -⟩
      · rw [hsame]
      · exact absurd ⟨by rw [hy]; exact Option.some_ne_none y, hnone⟩ hgone
  · have hne : F' id ≠ none := by
      rw [hx]
      exact Option.some_ne_none x
    rw [hfind, if_neg fun hgone => hne hgone.2] at hr
    exact hc.tells id x r ((hsheds.eq_of_ne_none hne).symm.trans hx) hr

end

/-- `FinalizeTransaction` for some transactions. -/
lemma finalize_spec {ids : List Level} {c c' : TransCompositionRecord} (hnodup : ids.Nodup)
    (h : ids.foldlM (fun c id => c.finalizeTransaction id) c = .ok c') :
    ∃ rs, c'.written = c.written ++ rs ∧
      List.Forall₂ (fun r id => id ∈ ids ∧ c.entrySet.find id = some r) rs ids ∧
      ∀ id, c'.entrySet.find id = if id ∈ ids then none else c.entrySet.find id := by
  induction ids generalizing c with
  | nil =>
    cases h
    exact ⟨[], (List.append_nil _).symm, .nil, fun id => (if_neg List.not_mem_nil).symm⟩
  | cons id ids ih =>
    rw [List.foldlM_cons] at h
    obtain ⟨c₁, h₁, h⟩ := bind_eq_ok.1 h
    obtain ⟨r, hr, h₁⟩ := bind_eq_ok.1 h₁
    cases h₁
    rw [elim_error_eq_ok] at hr
    obtain ⟨hnew, hnodup'⟩ := List.nodup_cons.1 hnodup
    obtain ⟨rs, hwritten, hfound, hrest⟩ := ih hnodup' h
    have hfound' : List.Forall₂ (fun r j => j ∈ id :: ids ∧ c.entrySet.find j = some r) rs ids := by
      refine hfound.imp fun r' j hj => ⟨List.mem_cons_of_mem _ hj.1, ?_⟩
      have hfind : (c.entrySet.erase id).find j = some r' := hj.2
      rw [Table.find_erase] at hfind
      split at hfind
      · cases hfind
      · exact hfind
    refine ⟨r :: rs, ?_, .cons ⟨List.mem_cons_self, hr⟩ hfound', fun j => ?_⟩
    · rw [hwritten, List.append_assoc]
      rfl
    · rw [hrest]
      show (if j ∈ ids then none else (c.entrySet.erase id).find j) = _
      rw [Table.find_erase]
      by_cases hj : j = id
      · subst hj
        rw [if_pos rfl, ite_self, if_pos List.mem_cons_self]
      · rw [if_neg hj]
        by_cases hmem : j ∈ ids
        · rw [if_pos hmem, if_pos (List.mem_cons_of_mem _ hmem)]
        · rw [if_neg hmem, if_neg fun h => (List.mem_cons.1 h).elim hj hmem]

end Sesc.Tm
