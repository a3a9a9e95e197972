import Mathlib.Data.List.Forall2
import Mathlib.Data.List.TakeWhile
import Mathlib.Tactic.Common
import Sesc.Devices.ExcludeAllBut

/-!
# What the host of the wrapper sees

The host observes the permitted accesses, each with the special instructions that come after the permitting
one, and the transaction instructions; it is asked whenever the current instruction has reached it, and its
answers reach the caller.
-/

namespace Sesc.Devices

open Lib

variable {p : ℕ} {r h : Record} {rs hs rest : List Record} {excluding : Bool} {access a : Access}
  {op : SpecialInst} {x : TransactionInst}

/-- The special instructions of an instruction that its host sees. -/
def Record.passed (p : ℕ) (r : Record) : List SpecialInst :=
  match r.inst with
  | .inl _ => (r.specials.dropWhile fun op => op.opCode ≠ p).filter fun op => op.opCode ≠ p
  | .inr _ => r.specials.filter fun op => op.opCode ≠ p

/-- The host sees an instruction with its end and the special instructions that are passed on; the size of an
access may differ if a transfer was asked for before the access was permitted. -/
structure SeenAs (p : ℕ) (r h : Record) : Prop where
  outcome : h.outcome = r.outcome
  specials : h.specials = r.passed p
  access : ∀ a, r.inst = .inl a → ∃ size, h.inst = .inl { a with size := size } ∧
    (r.fetched = false → size = a.size)
  transaction : ∀ x, r.inst = .inr x → h.inst = .inr x

/-- The first record, if its instruction has not ended. -/
def currentOf (rs : List Record) : Option Record := rs.head?.filter fun r => r.outcome.isNone

/-- The records of the wrapper and of its host, and the fields of the wrapper. -/
structure Filters (p : ℕ) (rs hs : List Record) (excluding : Bool) (access : Access) : Prop where
  seen : List.Forall₂ (SeenAs p) (rs.filter (·.permitted p)) hs
  excluding : excluding = !(currentOf rs).any (·.permitted p)
  kept : ∀ r ∈ currentOf rs, ∀ a, r.inst = .inl a → r.permitted p = false →
    access = { a with size := access.size } ∧ (r.fetched = false → access.size = a.size)

lemma exists_of_currentOf (hr : currentOf rs = some r) : ∃ rest, rs = r :: rest ∧ r.outcome = none := by
  obtain ⟨hhead, hopen⟩ := Option.filter_eq_some_iff.1 hr
  cases rs with
  | nil => cases hhead
  | cons r' rest =>
    cases hhead
    exact ⟨rest, rfl, Option.isNone_iff_eq_none.1 hopen⟩

lemma currentOf_cons (ho : r.outcome = none) : currentOf (r :: rest) = some r := by
  rw [currentOf, List.head?_cons, Option.filter_some, ho]
  rfl

lemma currentOf_ended {b : Bool} (ho : r.outcome = some b) : currentOf (r :: rest) = none := by
  rw [currentOf, List.head?_cons, Option.filter_some, ho]
  rfl

/-! ### The records -/

lemma permitted_append : ({ r with specials := r.specials ++ [op] } : Record).permitted p =
    (r.permitted p || decide (op.opCode = p)) := by
  simp only [Record.permitted, List.any_append, List.any_cons, List.any_nil, Bool.or_false,
    Bool.or_assoc]

/-- After the permitting one, all special instructions but those are passed on. -/
lemma passed_append (op : SpecialInst) (hp : r.permitted p = true) :
    ({ r with specials := r.specials ++ [op] } : Record).passed p =
      r.passed p ++ if op.opCode = p then [] else [op] := by
  have hlast : ([op].filter fun op => op.opCode ≠ p) = if op.opCode = p then [] else [op] := by
    rw [List.filter_singleton]
    by_cases hop : op.opCode = p
    · rw [if_pos hop]
      simp [hop]
    · rw [if_neg hop]
      simp [hop]
  cases hinst : r.inst with
  | inl a =>
    have hany : ∃ op ∈ r.specials, op.opCode = p := by
      rw [Record.permitted, hinst] at hp
      obtain ⟨op, hmem, hop⟩ := List.any_eq_true.1 hp
      exact ⟨op, hmem, of_decide_eq_true hop⟩
    have hdrop : ((r.specials ++ [op]).dropWhile fun op => op.opCode ≠ p) =
        (r.specials.dropWhile fun op => op.opCode ≠ p) ++ [op] := by
      have hne : ¬(r.specials.dropWhile fun op => op.opCode ≠ p).isEmpty = true := by
        rw [List.isEmpty_iff, List.dropWhile_eq_nil_iff]
        intro hall
        obtain ⟨op, hmem, hop⟩ := hany
        exact absurd hop (of_decide_eq_true (hall op hmem))
      rw [List.dropWhile_append, if_neg hne]
    simp only [Record.passed, hinst]
    rw [hdrop, List.filter_append, hlast]
  | inr x =>
    simp only [Record.passed, hinst]
    rw [List.filter_append, hlast]

lemma passed_first (hp : r.permitted p = false) (hop : op.opCode = p) :
    ({ r with specials := r.specials ++ [op] } : Record).passed p = [] := by
  rw [Record.permitted, Bool.or_eq_false_iff] at hp
  cases hinst : r.inst with
  | inl a =>
    have hall : ∀ op ∈ r.specials, decide (op.opCode ≠ p) = true := by
      intro op hmem
      refine decide_eq_true fun hop => ?_
      exact absurd (List.any_eq_true.2 ⟨op, hmem, decide_eq_true hop⟩) (by rw [hp.2]; decide)
    simp only [Record.passed]
    rw [List.dropWhile_append_of_pos hall]
    simp [hop]
  | inr x =>
    rw [hinst] at hp
    cases hp.1

/-! ### The calls -/

lemma Filters.observeAccess (hf : Filters p rs hs excluding access) :
    Filters p (⟨.inl a, [], none, false⟩ :: rs) hs true a := by
  have hp : (⟨.inl a, [], none, false⟩ : Record).permitted p = false := rfl
  refine ⟨?_, ?_, fun r hr a' ha' _ => ?_⟩
  · rw [List.filter_cons, hp]
    exact hf.seen
  · rw [currentOf_cons rfl, Option.any_some, hp]
    rfl
  · rw [currentOf_cons rfl] at hr
    cases hr
    cases ha'
    exact ⟨rfl, fun _ => rfl⟩

lemma Filters.observeTransactionInst (hf : Filters p rs hs excluding access) :
    Filters p (⟨.inr x, [], none, false⟩ :: rs) (⟨.inr x, [], none, false⟩ :: hs) false access := by
  have hp : (⟨.inr x, [], none, false⟩ : Record).permitted p = true := rfl
  refine ⟨?_, ?_, fun r hr a' ha' _ => ?_⟩
  · rw [List.filter_cons, if_pos hp]
    refine List.Forall₂.cons ⟨rfl, rfl, fun a ha => ?_, fun x' hx' => hx'⟩ hf.seen
    cases ha
  · rw [currentOf_cons rfl, Option.any_some, hp]
    rfl
  · rw [currentOf_cons rfl] at hr
    cases hr
    cases ha'

/-- An instruction that has reached the host is the first one that the host has observed. -/
lemma Filters.exists_seen (hf : Filters p (r :: rest) hs excluding access)
    (hp : r.permitted p = true) : ∃ h hs', hs = h :: hs' ∧ SeenAs p r h ∧
      List.Forall₂ (SeenAs p) (rest.filter (·.permitted p)) hs' := by
  have hseen := hf.seen
  rw [List.filter_cons, if_pos hp] at hseen
  obtain ⟨h, hs', hr, hrest, rfl⟩ := List.forall₂_cons_left_iff.1 hseen
  exact ⟨h, hs', rfl, hr, hrest⟩

lemma Filters.rest_of_not (hf : Filters p (r :: rest) hs excluding access)
    (hp : r.permitted p = false) : List.Forall₂ (SeenAs p) (rest.filter (·.permitted p)) hs := by
  have hseen := hf.seen
  rwa [List.filter_cons, if_neg (by rw [hp]; exact Bool.false_ne_true)] at hseen

lemma Filters.excluding_eq (hf : Filters p (r :: rest) hs excluding access) (ho : r.outcome = none) :
    excluding = !r.permitted p := by
  rw [hf.excluding, currentOf_cons ho, Option.any_some]

section

variable (hf : Filters p (r :: rest) hs excluding access) (ho : r.outcome = none)

include hf ho

/-- The permitting special instruction brings the access to the host. -/
lemma Filters.permit (hp : r.permitted p = false) (hop : op.opCode = p) :
    Filters p ({ r with specials := r.specials ++ [op] } :: rest)
      (⟨.inl access, [], none, false⟩ :: hs) false access := by
  have hp' : ({ r with specials := r.specials ++ [op] } : Record).permitted p = true := by
    rw [permitted_append, hp, decide_eq_true hop]
    rfl
  have hcur : currentOf ({ r with specials := r.specials ++ [op] } :: rest) =
      some { r with specials := r.specials ++ [op] } := currentOf_cons ho
  refine ⟨?_, ?_, fun r' hr' a ha hnot => ?_⟩
  · rw [List.filter_cons, if_pos hp']
    refine List.Forall₂.cons ⟨ho.symm, (passed_first hp hop).symm, fun a ha => ?_, fun x hx => ?_⟩
      (hf.rest_of_not hp)
    · obtain ⟨hkept, hsize⟩ := hf.kept r (currentOf_cons ho) a ha hp
      exact ⟨access.size, congrArg Sum.inl hkept, hsize⟩
    · have hx' : r.inst = .inr x := hx
      rw [Record.permitted, hx'] at hp
      cases hp
  · rw [hcur, Option.any_some, hp']
    rfl
  · rw [hcur] at hr'
    cases hr'
    exact absurd (hp'.symm.trans hnot) (by decide)

/-- A special instruction of a permitted instruction reaches the host, unless it is a permitting one. -/
lemma Filters.pass (op : SpecialInst) (hp : r.permitted p = true) :
    Filters p ({ r with specials := r.specials ++ [op] } :: rest)
      (if op.opCode = p then hs
        else hs.modifyHead fun h => { h with specials := h.specials ++ [op] }) excluding access := by
  have hp' : ({ r with specials := r.specials ++ [op] } : Record).permitted p = true := by
    rw [permitted_append, hp, Bool.true_or]
  have hcur : currentOf ({ r with specials := r.specials ++ [op] } :: rest) =
      some { r with specials := r.specials ++ [op] } := currentOf_cons ho
  obtain ⟨h, hs', rfl, hseen, hrest⟩ := hf.exists_seen hp
  refine ⟨?_, ?_, fun r' hr' a ha hnot => ?_⟩
  · rw [List.filter_cons, if_pos hp']
    have hpassed := passed_append op hp
    split
    · rename_i hop
      rw [if_pos hop, List.append_nil] at hpassed
      exact List.Forall₂.cons ⟨hseen.outcome, hseen.specials.trans hpassed.symm, hseen.access,
        hseen.transaction⟩ hrest
    · rename_i hop
      rw [if_neg hop] at hpassed
      refine List.Forall₂.cons ⟨hseen.outcome, ?_, hseen.access, hseen.transaction⟩ hrest
      rw [hpassed, ← hseen.specials]
  · rw [hcur, Option.any_some, hp', hf.excluding_eq ho, hp]
  · rw [hcur] at hr'
    cases hr'
    exact absurd (hp'.symm.trans hnot) (by decide)

/-- A special instruction before the permitting one is kept from the host. -/
lemma Filters.drop (hp : r.permitted p = false) (hop : op.opCode ≠ p) :
    Filters p ({ r with specials := r.specials ++ [op] } :: rest) hs excluding access := by
  have hp' : ({ r with specials := r.specials ++ [op] } : Record).permitted p = false := by
    rw [permitted_append, hp, decide_eq_false hop]
    rfl
  have hcur : currentOf ({ r with specials := r.specials ++ [op] } :: rest) =
      some { r with specials := r.specials ++ [op] } := currentOf_cons ho
  refine ⟨?_, ?_, fun r' hr' a ha _ => ?_⟩
  · rw [List.filter_cons, if_neg (by rw [hp']; exact Bool.false_ne_true)]
    exact hf.rest_of_not hp
  · rw [hcur, Option.any_some, hp', hf.excluding_eq ho, hp]
  · rw [hcur] at hr'
    cases hr'
    exact hf.kept r (currentOf_cons ho) a ha hp

end

/-- The end of an instruction reaches the host when the instruction has. -/
lemma Filters.conclude (hf : Filters p (r :: rest) hs excluding access) (b : Bool) :
    Filters p ({ r with outcome := some b } :: rest)
      (if r.permitted p then hs.modifyHead fun h => { h with outcome := some b } else hs) true
      access := by
  have hcur : currentOf ({ r with outcome := some b } :: rest) = none := currentOf_ended rfl
  have hsame : ({ r with outcome := some b } : Record).permitted p = r.permitted p := rfl
  refine ⟨?_, ?_, fun r' hr' => ?_⟩
  · split
    · rename_i hp
      obtain ⟨h, hs', rfl, hseen, hrest⟩ := hf.exists_seen hp
      rw [List.filter_cons, if_pos (hsame.trans hp)]
      exact List.Forall₂.cons ⟨rfl, hseen.specials, hseen.access, hseen.transaction⟩ hrest
    · rename_i hp
      rw [List.filter_cons, if_neg (by rw [hsame]; exact hp)]
      exact hf.rest_of_not (Bool.not_eq_true _ ▸ hp)
  · rw [hcur]
    rfl
  · rw [hcur] at hr'
    cases hr'

lemma seen_note_getTransferInfo (hseen : List.Forall₂ (SeenAs p) rs hs) :
    List.Forall₂ (SeenAs p) rs (note p hs .getTransferInfo) := by
  cases hseen with
  | nil => exact .nil
  | cons hr hrest => exact .cons ⟨hr.outcome, hr.specials, hr.access, hr.transaction⟩ hrest

/-- The information about a transfer changes the size that the wrapper keeps. -/
lemma Filters.getTransferInfo (hf : Filters p rs hs excluding access) (size : ℕ) :
    Filters p (note p rs .getTransferInfo) (note p hs .getTransferInfo) excluding
      { access with size := size } := by
  cases rs with
  | nil =>
    refine ⟨seen_note_getTransferInfo hf.seen, hf.excluding, fun r hr => ?_⟩
    cases hr
  | cons r rest =>
    have hnote : note p (r :: rest) .getTransferInfo =
        { r with fetched := r.fetched || !r.permitted p } :: rest := rfl
    have hsame : ({ r with fetched := r.fetched || !r.permitted p } : Record).permitted p =
        r.permitted p := rfl
    rw [hnote]
    refine ⟨seen_note_getTransferInfo ?_, ?_, fun r' hr' a ha hnot => ?_⟩
    · rcases Bool.eq_false_or_eq_true (r.permitted p) with hp | hp
      · obtain ⟨h, hs', rfl, hseen, hrest⟩ := hf.exists_seen hp
        rw [List.filter_cons, if_pos (hsame.trans hp)]
        refine .cons ⟨hseen.outcome, hseen.specials, fun a ha => ?_, hseen.transaction⟩ hrest
        obtain ⟨n, hinst, hn⟩ := hseen.access a ha
        refine ⟨n, hinst, fun hfetched => hn ?_⟩
        exact (Bool.or_eq_false_iff.1 hfetched).1
      · rw [List.filter_cons, if_neg (by rw [hsame, hp]; exact Bool.false_ne_true)]
        exact hf.rest_of_not hp
    · rw [hf.excluding]
      rcases ho : r.outcome with - | b
      · rw [currentOf_cons ho, currentOf_cons rfl, Option.any_some, Option.any_some]
        rfl
      · rw [currentOf_ended ho, currentOf_ended rfl]
    · obtain ⟨rest', heq, ho⟩ := exists_of_currentOf hr'
      cases heq
      obtain ⟨hkept, -⟩ := hf.kept r (currentOf_cons ho) a ha (hsame.symm.trans hnot)
      refine ⟨?_, fun hfetched => ?_⟩
      · rw [hkept]
      · have hp : r.permitted p = false := hsame.symm.trans hnot
        rw [hp, Bool.not_false, Bool.or_true] at hfetched
        cases hfetched

/-! ### The wrapper -/

namespace ExcludeAllBut

variable {σ : Type} {H : Host σ} {s s' s₁ : ExcludeAllBut σ} {c k : DetectionCall} {b : Answer}

/-- The calls lie between a clock tick and its end. -/
def ticking (cs : List DetectionCall) : Bool :=
  cs.foldl (fun t c => match c with
    | .clockTick => true
    | .finalizeTick => false
    | _ => t) false

structure Inv (p : ℕ) (s : ExcludeAllBut σ) : Prop where
  filters : Filters p (records p s.calls) (records p s.hostCalls) s.excluding s.access
  tickProcessing : s.tickProcessing = ticking s.calls

/-- The current instruction has reached the host. -/
def HasReached (p : ℕ) (s : ExcludeAllBut σ) : Prop := ∃ r ∈ s.current p, r.permitted p = true

/-- The calls for which the host is asked. -/
def Asks (p : ℕ) (s : ExcludeAllBut σ) : DetectionCall → Prop
  | .observeAccess _ => False
  | .observeSpecialInst op => s.HasReached p ↔ op.opCode ≠ p
  | .finalizeInstruction | .rollbackInstruction | .getDelay | .mayNotDelay => s.HasReached p
  | .collisionCount | .fetchCollision => s.HasReached p ∨ ticking s.calls = true
  | _ => True

/-- The answer of the host reaches the caller, but for the size of a transfer. -/
def Answer.Relays (a b : Answer) : Prop :=
  a = b ∨ ∃ isRead isRequired address n n', a = .transferInfo isRead isRequired address n ∧
    b = .transferInfo isRead isRequired address n'

lemma Inv.hasReached_iff (hs : s.Inv p) : s.HasReached p ↔ s.excluding = false := by
  rw [hs.filters.excluding, Bool.not_eq_false']
  exact (Option.any_eq_true _ _).symm

/-- What the caller of a call, and the host, get to know. -/
def Moves (p : ℕ) (s s' : ExcludeAllBut σ) (c : DetectionCall) : Prop :=
  ∃ st, s'.steps = s.steps ++ [st] ∧ st.call = c ∧ (st.asked.isSome = true ↔ s.Asks p c) ∧
    ∀ k a, st.asked = some (k, a) → k = c ∧ Answer.Relays a st.answer ∨
      ∃ op x, c = .observeSpecialInst op ∧ k = .observeAccess x

lemma records_append {cs : List DetectionCall} : records p (cs ++ [c]) = note p (records p cs) c := by
  rw [records, List.foldl_append]
  rfl

lemma ticking_append {cs : List DetectionCall} (h₁ : c ≠ .clockTick) (h₂ : c ≠ .finalizeTick) :
    ticking (cs ++ [c]) = ticking cs := by
  rw [ticking, List.foldl_append]
  cases c <;> first
    | rfl
    | exact absurd rfl h₁
    | exact absurd rfl h₂

/-- The invariant after a call for which the host has been asked `o`. -/
lemma Inv.of_step {o : Option (DetectionCall × Answer)} (hsteps : s'.steps = s.steps ++ [⟨c, b, o⟩])
    (hf : Filters p (note p (records p s.calls) c)
      (o.elim (records p s.hostCalls) fun ka => note p (records p s.hostCalls) ka.1)
      s'.excluding s'.access)
    (ht : s'.tickProcessing = ticking (s.calls ++ [c])) : s'.Inv p := by
  have hcalls : s'.calls = s.calls ++ [c] := by
    rw [calls, hsteps, List.map_append]
    rfl
  have hhost : records p s'.hostCalls =
      o.elim (records p s.hostCalls) fun ka => note p (records p s.hostCalls) ka.1 := by
    rw [hostCalls, hsteps, List.filterMap_append]
    cases o with
    | none =>
      show records p (s.hostCalls ++ []) = _
      rw [List.append_nil]
      rfl
    | some ka => exact records_append
  exact ⟨by rw [hcalls, records_append, hhost]; exact hf, by rw [hcalls]; exact ht⟩

lemma moves_asked (hsteps : s'.steps = s.steps ++ [⟨c, b, some (c, b)⟩]) (hasks : s.Asks p c) :
    s.Moves p s' c := by
  refine ⟨_, hsteps, rfl, iff_of_true rfl hasks, fun k a h => ?_⟩
  cases h
  exact .inl ⟨rfl, .inl rfl⟩

lemma moves_silent (hsteps : s'.steps = s.steps ++ [⟨c, b, none⟩]) (hasks : ¬s.Asks p c) :
    s.Moves p s' c := by
  refine ⟨_, hsteps, rfl, iff_of_false Bool.false_ne_true hasks, fun k a h => ?_⟩
  cases h

lemma ask_eq (h : s.ask H k = .ok (b, s₁)) :
    ∃ x, s₁ = { s with host := x, asked := some (k, b) } := by
  obtain ⟨⟨a, x⟩, -, heq⟩ := bind_eq_ok.1 h
  cases heq
  exact ⟨x, rfl⟩

/-- A call that the wrapper passes on, and that is no observation. -/
lemma Inv.passOn (hs : s.Inv p) (hask : { s with asked := none }.ask H c = .ok (b, s₁))
    (hnote : ∀ rs, note p rs c = rs) (h₁ : c ≠ .clockTick) (h₂ : c ≠ .finalizeTick)
    (hasks : s.Asks p c) :
    let s' := { s₁ with steps := s.steps ++ [⟨c, b, s₁.asked⟩] }
    s'.Inv p ∧ s.Moves p s' c := by
  obtain ⟨x, rfl⟩ := ask_eq hask
  refine ⟨.of_step rfl ?_ ?_, moves_asked rfl hasks⟩
  · rw [Option.elim_some, hnote, hnote]
    exact hs.filters
  · rw [ticking_append h₁ h₂]
    exact hs.tickProcessing

/-- A call that the wrapper passes on if a test holds. -/
lemma Inv.maybePassOn (hs : s.Inv p) {test : Bool} {silent : Answer}
    (hask : { s with asked := none }.askIf H test c silent = .ok (b, s₁))
    (hnote : ∀ rs, note p rs c = rs) (h₁ : c ≠ .clockTick) (h₂ : c ≠ .finalizeTick)
    (hasks : s.Asks p c ↔ test = true) :
    let s' := { s₁ with steps := s.steps ++ [⟨c, b, s₁.asked⟩] }
    s'.Inv p ∧ s.Moves p s' c := by
  rw [askIf] at hask
  split at hask
  · rename_i htest
    exact hs.passOn hask hnote h₁ h₂ (hasks.2 htest)
  · rename_i htest
    cases hask
    refine ⟨.of_step rfl ?_ ?_, moves_silent rfl fun h => htest (hasks.1 h)⟩
    · rw [Option.elim_none, hnote]
      exact hs.filters
    · rw [ticking_append h₁ h₂]
      exact hs.tickProcessing

/-- A special instruction of the current instruction. -/
lemma Inv.specialInst (hs : s.Inv p) (hmay : (s.current p).isSome = true)
    (h : { s with asked := none }.observeSpecialInst H p op = .ok (b, s₁)) :
    let s' := { s₁ with steps := s.steps ++ [⟨.observeSpecialInst op, b, s₁.asked⟩] }
    s'.Inv p ∧ s.Moves p s' (.observeSpecialInst op) := by
  obtain ⟨r, hr⟩ := Option.isSome_iff_exists.1 hmay
  obtain ⟨rest, hrecords, ho⟩ := exists_of_currentOf hr
  have hf := hs.filters
  rw [hrecords] at hf
  have hexcluding : s.excluding = !r.permitted p := hf.excluding_eq ho
  have hreached : s.HasReached p ↔ r.permitted p = true := by
    rw [hs.hasReached_iff, hexcluding, Bool.not_eq_false']
  have hnote : note p (records p s.calls) (.observeSpecialInst op) =
      { r with specials := r.specials ++ [op] } :: rest := by
    rw [hrecords]
    rfl
  have htick : s.tickProcessing = ticking (s.calls ++ [.observeSpecialInst op]) := by
    rw [ticking_append (by simp) (by simp)]
    exact hs.tickProcessing
  rw [observeSpecialInst] at h
  by_cases hp : r.permitted p = true
  · rw [if_neg (by rw [hexcluding, hp]; simp)] at h
    by_cases hop : op.opCode = p
    · rw [if_neg (by simp [hop])] at h
      cases h
      refine ⟨.of_step rfl ?_ htick, moves_silent rfl fun hasks => ?_⟩
      · rw [hnote]
        have hpass := hf.pass ho op hp
        rwa [if_pos hop] at hpass
      · exact hasks.1 (hreached.2 hp) hop
    · rw [if_pos ⟨by rw [hexcluding, hp]; rfl, hop⟩] at h
      obtain ⟨x, rfl⟩ := ask_eq h
      refine ⟨.of_step rfl ?_ htick, moves_asked rfl (iff_of_true (hreached.2 hp) hop)⟩
      rw [hnote]
      have hpass := hf.pass ho op hp
      rwa [if_neg hop] at hpass
  · have hp' : r.permitted p = false := Bool.not_eq_true _ ▸ hp
    by_cases hop : op.opCode = p
    · rw [if_pos ⟨by rw [hexcluding, hp']; rfl, hop⟩] at h
      obtain ⟨x, rfl⟩ := ask_eq h
      refine ⟨.of_step rfl ?_ htick, _, rfl, rfl, ?_, fun k a hk => ?_⟩
      · rw [hnote]
        exact hf.permit ho hp' hop
      · exact iff_of_true rfl (iff_of_false (fun hr => hp (hreached.1 hr)) fun hne => hne hop)
      · cases hk
        exact .inr ⟨op, s.access, rfl, rfl⟩
    · rw [if_neg (by simp [hop]), if_neg (by rw [hexcluding, hp']; simp)] at h
      cases h
      refine ⟨.of_step rfl ?_ htick, moves_silent rfl fun hasks => ?_⟩
      · rw [hnote]
        exact hf.drop ho hp' hop
      · exact hp (hreached.1 (hasks.2 hop))

/-- The end of the current instruction. -/
lemma Inv.conclude (hs : s.Inv p) (hmay : (s.current p).isSome = true) {final : Bool}
    (hc : ∀ r rest, note p (r :: rest) c = { r with outcome := some final } :: rest)
    (hasks : s.Asks p c ↔ s.HasReached p) (h₁ : c ≠ .clockTick) (h₂ : c ≠ .finalizeTick)
    (h : { s with asked := none }.conclude H c = .ok (b, s₁)) :
    let s' := { s₁ with steps := s.steps ++ [⟨c, b, s₁.asked⟩] }
    s'.Inv p ∧ s.Moves p s' c := by
  obtain ⟨r, hr⟩ := Option.isSome_iff_exists.1 hmay
  obtain ⟨rest, hrecords, ho⟩ := exists_of_currentOf hr
  have hf := hs.filters
  rw [hrecords] at hf
  have hexcluding : s.excluding = !r.permitted p := hf.excluding_eq ho
  have hreached : s.HasReached p ↔ r.permitted p = true := by
    rw [hs.hasReached_iff, hexcluding, Bool.not_eq_false']
  have htick : s.tickProcessing = ticking (s.calls ++ [c]) := by
    rw [ticking_append h₁ h₂]
    exact hs.tickProcessing
  have hconclude := hf.conclude final
  obtain ⟨⟨b', s₂⟩, hask, heq⟩ := bind_eq_ok.1 h
  cases heq
  by_cases hp : r.permitted p = true
  · obtain ⟨h, hs', hhost, -, -⟩ := hf.exists_seen hp
    have hgo : (!({ s with asked := none } : ExcludeAllBut σ).excluding) = true := by
      show (!s.excluding) = true
      rw [hexcluding, hp]
      rfl
    rw [askIf, if_pos hgo] at hask
    obtain ⟨x, rfl⟩ := ask_eq hask
    refine ⟨.of_step rfl ?_ htick, moves_asked rfl (hasks.2 (hreached.2 hp))⟩
    rw [if_pos hp] at hconclude
    rw [hrecords, hc, Option.elim_some, hhost, hc]
    rw [hhost] at hconclude
    exact hconclude
  · have hstop : ¬(!({ s with asked := none } : ExcludeAllBut σ).excluding) = true := by
      show ¬(!s.excluding) = true
      rw [hexcluding, Bool.not_not]
      exact hp
    rw [askIf, if_neg hstop] at hask
    cases hask
    refine ⟨.of_step rfl ?_ htick, moves_silent rfl fun h => hp (hreached.1 (hasks.1 h))⟩
    rw [if_neg hp] at hconclude
    rw [hrecords, hc, Option.elim_none]
    exact hconclude

/-- Every call keeps the invariant, and its answer is that of the host. -/
lemma act_spec (hs : s.Inv p) (h : s.act H p c = .ok s') : s'.Inv p ∧ s.Moves p s' c := by
  obtain ⟨u, hmay, h⟩ := bind_eq_ok.1 h
  rw [check_test_eq_ok] at hmay
  obtain ⟨⟨b, s₁⟩, hreceive, heq⟩ := bind_eq_ok.1 h
  cases heq
  have hreached : s.HasReached p ↔ (!s.excluding) = true := by
    rw [hs.hasReached_iff, Bool.not_eq_true']
  have hticking : s.HasReached p ∨ ticking s.calls = true ↔
      (!s.excluding || s.tickProcessing) = true := by
    rw [hreached, Bool.or_eq_true, hs.tickProcessing]
  have hid : ∀ {c}, (∀ rs, note p rs c = rs) → c ≠ .clockTick → c ≠ .finalizeTick → s.Asks p c →
      { s with asked := none }.ask H c = .ok (b, s₁) →
      ({ s₁ with steps := s.steps ++ [⟨c, b, s₁.asked⟩] } : ExcludeAllBut σ).Inv p ∧
        s.Moves p { s₁ with steps := s.steps ++ [⟨c, b, s₁.asked⟩] } c :=
    fun hnote h₁ h₂ hasks hask => hs.passOn hask hnote h₁ h₂ hasks
  cases c with
  | observeAccess a =>
    cases hreceive
    refine ⟨.of_step rfl hs.filters.observeAccess ?_, moves_silent rfl id⟩
    rw [ticking_append (by simp) (by simp)]
    exact hs.tickProcessing
  | observeSpecialInst op => exact hs.specialInst hmay hreceive
  | observeTransactionInst x =>
    obtain ⟨⟨b', s₂⟩, hask, heq⟩ := bind_eq_ok.1 hreceive
    cases heq
    obtain ⟨y, rfl⟩ := ask_eq hask
    refine ⟨.of_step rfl hs.filters.observeTransactionInst ?_, moves_asked rfl trivial⟩
    rw [ticking_append (by simp) (by simp)]
    exact hs.tickProcessing
  | clockTick =>
    obtain ⟨y, rfl⟩ := ask_eq hreceive
    refine ⟨.of_step rfl hs.filters ?_, moves_asked rfl trivial⟩
    rw [ticking, List.foldl_append]
    rfl
  | finalizeTick =>
    obtain ⟨⟨b', s₂⟩, hask, heq⟩ := bind_eq_ok.1 hreceive
    cases heq
    obtain ⟨y, rfl⟩ := ask_eq hask
    refine ⟨.of_step rfl hs.filters ?_, moves_asked rfl trivial⟩
    rw [ticking, List.foldl_append]
    rfl
  | finalizeInstruction =>
    exact hs.conclude hmay (fun _ _ => rfl) Iff.rfl (by simp) (by simp) hreceive
  | rollbackInstruction =>
    exact hs.conclude hmay (fun _ _ => rfl) Iff.rfl (by simp) (by simp) hreceive
  | getTransferInfo =>
    obtain ⟨⟨i, y⟩, -, heq⟩ := bind_eq_ok.1 hreceive
    cases heq
    refine ⟨.of_step rfl (hs.filters.getTransferInfo i.transferSize) ?_, _, rfl, rfl,
      iff_of_true rfl trivial, fun k a hk => ?_⟩
    · rw [ticking_append (by simp) (by simp)]
      exact hs.tickProcessing
    · cases hk
      exact .inl ⟨rfl, .inr ⟨_, _, _, _, _, rfl, rfl⟩⟩
  | getDelay => exact hs.maybePassOn hreceive (fun _ => rfl) (by simp) (by simp) hreached
  | mayNotDelay => exact hs.maybePassOn hreceive (fun _ => rfl) (by simp) (by simp) hreached
  | collisionCount => exact hs.maybePassOn hreceive (fun _ => rfl) (by simp) (by simp) hticking
  | fetchCollision => exact hs.maybePassOn hreceive (fun _ => rfl) (by simp) (by simp) hticking
  | observeCacheEvict pid address cacheLayer newCacheLayer size =>
    exact hid (fun _ => rfl) (by simp) (by simp) trivial hreceive
  | hasTransfers cpuID => exact hid (fun _ => rfl) (by simp) (by simp) trivial hreceive
  | acceptTransfer => exact hid (fun _ => rfl) (by simp) (by simp) trivial hreceive
  | denyTransfer => exact hid (fun _ => rfl) (by simp) (by simp) trivial hreceive
  | confirmTransferCompleted cpuID isRead address =>
    exact hid (fun _ => rfl) (by simp) (by simp) trivial hreceive

end ExcludeAllBut

open ExcludeAllBut

/-- The host has observed the permitted accesses and the transaction instructions, with the special
instructions after the permitting one and with their ends; and it is asked exactly for the calls that
concern it, with its answers reaching the caller. -/
theorem excludeAllBut_filters {σ : Type} (H : Host σ) (p : ℕ) (x : σ) (es : List DetectionCall)
    (s : ExcludeAllBut σ) (hrun : (excludeAllBut H p x).Run es s) :
    List.Forall₂ (SeenAs p) ((records p s.calls).filter (·.permitted p)) (records p s.hostCalls) ∧
    ∀ c s', (excludeAllBut H p x).step s c = .ok s' → s.Moves p s' c := by
  have hs : s.Inv p := by
    refine hrun.invariant ⟨⟨.nil, rfl, fun r hr => ?_⟩, rfl⟩ fun s c s' hs _ hstep =>
      (act_spec hs hstep).1
    cases hr
  exact ⟨hs.filters.seen, fun c s' hstep => (act_spec hs hstep).2⟩

/-- A host that counts the calls without a result. -/
def countingHost : Host ℕ where
  notify _ n := .ok (n + 1)
  hasTransfers _ n := .ok (true, n)
  getTransferInfo n := .ok (⟨true, true, 256, 16⟩, n)
  getDelay n := .ok (n, n)
  collisionCount n := .ok (n, n)
  fetchCollision n := .ok (⟨0, 1, true, true, 1, 2, true, false⟩, n)

/-- A permitted access, one that is not permitted, and a transaction instruction that is rolled back. -/
def threeInstructions : List DetectionCall :=
  [.clockTick, .observeAccess ⟨true, 0, 1, 64, 4⟩, .observeSpecialInst ⟨1, 0, 0, 0, 0, 0⟩,
    .observeSpecialInst ⟨7, 0, 0, 0, 0, 0⟩, .collisionCount, .getDelay, .finalizeInstruction,
    .finalizeTick, .observeAccess ⟨false, 1, 0, 80, 4⟩, .observeSpecialInst ⟨7, 0, 0, 0, 0, 0⟩,
    .collisionCount, .rollbackInstruction, .observeTransactionInst ⟨0, 0, 3, 0, 0, 0, 0, 0, 0⟩,
    .rollbackInstruction, .hasTransfers 0, .getTransferInfo, .acceptTransfer]

theorem excludeAllBut_filters_threeInstructions : ∃ s,
    (excludeAllBut countingHost 1 0).Run threeInstructions s ∧
    s.hostCalls = [.clockTick, .observeAccess ⟨true, 0, 1, 64, 4⟩,
      .observeSpecialInst ⟨7, 0, 0, 0, 0, 0⟩, .collisionCount, .getDelay, .finalizeInstruction,
      .finalizeTick, .observeTransactionInst ⟨0, 0, 3, 0, 0, 0, 0, 0, 0⟩, .rollbackInstruction,
      .hasTransfers 0, .getTransferInfo, .acceptTransfer] ∧
    List.Forall₂ (SeenAs 1) ((records 1 s.calls).filter (·.permitted 1)) (records 1 s.hostCalls) := by
  have hrun : succeeds ((excludeAllBut countingHost 1 0).exec (excludeAllBut countingHost 1 0).init
      threeInstructions) (fun s => decide (s.hostCalls = [.clockTick,
        .observeAccess ⟨true, 0, 1, 64, 4⟩, .observeSpecialInst ⟨7, 0, 0, 0, 0, 0⟩, .collisionCount,
        .getDelay, .finalizeInstruction, .finalizeTick,
        .observeTransactionInst ⟨0, 0, 3, 0, 0, 0, 0, 0, 0⟩, .rollbackInstruction, .hasTransfers 0,
        .getTransferInfo, .acceptTransfer])) = true := by
    decide +kernel
  obtain ⟨s, hs, htest⟩ := succeeds_iff.1 hrun
  exact ⟨s, Machine.run_of_exec hs, of_decide_eq_true htest,
    (excludeAllBut_filters _ _ _ _ s (Machine.run_of_exec hs)).1⟩

/-- A special instruction before the permitting one does not reach the host. -/
theorem not_excludeAllBut_filters : ∃ s, (excludeAllBut countingHost 1 0).Run
      [.observeAccess ⟨true, 0, 1, 64, 4⟩, .observeSpecialInst ⟨7, 0, 0, 0, 0, 0⟩,
        .observeSpecialInst ⟨1, 0, 0, 0, 0, 0⟩, .finalizeInstruction] s ∧
    s.hostCalls = [.observeAccess ⟨true, 0, 1, 64, 4⟩, .finalizeInstruction] := by
  have hrun : succeeds ((excludeAllBut countingHost 1 0).exec (excludeAllBut countingHost 1 0).init
      [.observeAccess ⟨true, 0, 1, 64, 4⟩, .observeSpecialInst ⟨7, 0, 0, 0, 0, 0⟩,
        .observeSpecialInst ⟨1, 0, 0, 0, 0, 0⟩, .finalizeInstruction])
      (fun s => decide (s.hostCalls =
        [.observeAccess ⟨true, 0, 1, 64, 4⟩, .finalizeInstruction])) = true := by
    decide +kernel
  obtain ⟨s, hs, htest⟩ := succeeds_iff.1 hrun
  exact ⟨s, Machine.run_of_exec hs, of_decide_eq_true htest⟩

end Sesc.Devices
