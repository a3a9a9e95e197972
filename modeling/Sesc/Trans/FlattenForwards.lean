import Sesc.Trans.FlattenTransparent

/-!
# What a `CollisionDetectionFlatten` forwards

An instruction that is not suppressed is given to the detection that is wrapped: the execution does
what that one does, and fails as it does.
-/

namespace Sesc.Trans

open Lib

namespace Flatten

variable {σ : Type} {T : Detector σ} {debug : Bool} {links : FinMap Level Level} {f : Fault}

/-- A fault of the detection that is wrapped at the end of an execution. -/
lemma conclude_error {s : Flatten σ} {forced : Bool} {delay : ℕ} {l : FinMap Level Level}
    (hactions : s.suppressActions = false) (hlinks : finalizeLinks debug s = .ok l)
    (hw : T.conclude forced delay s.wrapped = .error f) :
    (detector T debug).conclude forced delay s = .error f := by
  have hmay : (detector T debug).mayNotDelay s =
      (T.mayNotDelay s.wrapped >>= fun w => .ok { s with wrapped := w }) := by
    show mayNotDelay T s = _
    rw [mayNotDelay, hactions]
    rfl
  have hdelay : (detector T debug).getDelay s = T.getDelay s.wrapped := by
    show getDelay T s = _
    rw [getDelay, hactions]
    rfl
  have hfinal : ∀ w, (detector T debug).finalizeInstruction { s with wrapped := w } =
      (T.finalizeInstruction w >>= fun w' =>
        .ok { s with parentRelation := l, wrapped := w' }) := by
    intro w
    have hlinks' : finalizeLinks debug { s with wrapped := w } = .ok l := hlinks
    show finalizeInstruction T debug { s with wrapped := w } = _
    rw [finalizeInstruction, hlinks', ok_bind]
    dsimp only
    rw [hactions]
    rfl
  have hrollback : (detector T debug).rollbackInstruction s =
      (T.rollbackInstruction s.wrapped >>= fun w => .ok { s with wrapped := w }) := by
    show rollbackInstruction T s = _
    rw [rollbackInstruction, hactions]
    rfl
  rw [Detector.conclude] at hw ⊢
  cases forced with
  | true =>
    rw [if_pos rfl] at hw ⊢
    rw [hmay]
    cases hm : T.mayNotDelay s.wrapped with
    | error e =>
      rw [hm] at hw
      cases hw
      rfl
    | ok w =>
      rw [hm, ok_bind] at hw
      rw [ok_bind, ok_bind, hfinal]
      cases hn : T.finalizeInstruction w with
      | error e =>
        rw [hn] at hw
        cases hw
        rfl
      | ok w' =>
        rw [hn] at hw
        cases hw
  | false =>
    rw [if_neg Bool.false_ne_true] at hw ⊢
    rw [hdelay]
    cases hg : T.getDelay s.wrapped with
    | error e =>
      rw [hg] at hw
      cases hw
      rfl
    | ok own =>
      rw [hg, ok_bind] at hw
      rw [ok_bind]
      split at hw
      · rename_i hzero
        rw [if_pos hzero]
        have hfinal' := hfinal s.wrapped
        rw [show ({ s with wrapped := s.wrapped } : Flatten σ) = s from rfl] at hfinal'
        rw [hfinal']
        cases hn : T.finalizeInstruction s.wrapped with
        | error e =>
          rw [hn] at hw
          cases hw
          rfl
        | ok w' =>
          rw [hn] at hw
          cases hw
      · rename_i hzero
        rw [if_neg hzero, hrollback]
        cases hn : T.rollbackInstruction s.wrapped with
        | error e =>
          rw [hn] at hw
          cases hw
          rfl
        | ok w' =>
          rw [hn] at hw
          cases hw

/-- The instruction is given to the detection that is wrapped as it is. -/
structure Forwards (T : Detector σ) (debug : Bool) (r : Request) (s : Flatten σ)
    (l : FinMap Level Level) : Prop where
  ok : ∀ out w, T.execute r s.wrapped = .ok (out, w) →
    ∃ s', (detector T debug).execute r s = .ok (out, s') ∧ s'.wrapped = w ∧
      s'.parentRelation = if out.retried then s.parentRelation else l
  error : ∀ f, T.execute r s.wrapped = .error f → (detector T debug).execute r s = .error f

lemma forwards {s g : Flatten σ} {l : FinMap Level Level} {r : Request}
    (hobserve : observe T debug r.instruction s =
      (T.observe r.instruction s.wrapped >>= fun w => .ok { g with wrapped := w }))
    (hactions : g.suppressActions = false) (hlinks : finalizeLinks debug g = .ok l)
    (hsame : g.parentRelation = s.parentRelation) : Forwards T debug r s l := by
  refine ⟨fun out w hw => ⟨_, execute_forwarded hobserve hactions hlinks rfl hw, rfl, ?_⟩,
    fun f hw => ?_⟩
  · dsimp only
    rw [hsame]
  · rw [Detector.execute] at hw ⊢
    show (observe T debug r.instruction s >>= _) = _
    rw [hobserve]
    cases hobs : T.observe r.instruction s.wrapped with
    | error e =>
      rw [hobs] at hw
      cases hw
      rfl
    | ok w₁ =>
      rw [hobs, ok_bind] at hw
      rw [ok_bind, ok_bind]
      have hcheck : (detector T debug).checkCollisions { g with wrapped := w₁ } =
          (T.checkCollisions w₁ >>= fun x => .ok (x.1, { g with wrapped := x.2 })) := by
        show checkCollisions T { g with wrapped := w₁ } = _
        rw [checkCollisions]
        dsimp only
        rw [hactions]
        rfl
      rw [hcheck]
      cases hch : T.checkCollisions w₁ with
      | error e =>
        rw [hch] at hw
        cases hw
        rfl
      | ok x =>
        obtain ⟨cs, w₂⟩ := x
        rw [hch, ok_bind] at hw
        rw [ok_bind, ok_bind]
        dsimp only at hw ⊢
        cases hco : T.conclude r.forced r.delay w₂ with
        | error e =>
          rw [hco] at hw
          rw [conclude_error (s := { g with wrapped := w₂ }) hactions hlinks hco]
          cases hw
          rfl
        | ok y =>
          rw [hco] at hw
          cases hw

variable {s : Flatten σ} {pid : Pid} {isRead : Bool} {entry old new : Level} {address : Address}
  {size : ℕ} {force : Bool} {delay : ℕ} {op : TMOpCode}

lemma forwards_access (h : entry = 0 ∨ s.parentRelation.find entry = some 0) :
    Forwards T debug ⟨.access isRead pid entry address size, force, delay⟩ s s.parentRelation := by
  have hclimb : climb debug (s.parentRelation.keys.length + 1) s.parentRelation entry =
      .ok (entry, s.parentRelation) := by
    rw [climb]
    split
    · rename_i hzero
      rw [hzero]
    · rename_i hne
      have hfind := h.resolve_left hne
      have hsome : s.parentRelation.find entry ≠ none := by
        rw [hfind]
        exact Option.some_ne_none 0
      rw [check_bind (.inr hsome), entry_of_find hfind]
      rfl
  refine forwards (g := { s with suppressActions := false, isTransInst := false }) ?_ rfl rfl rfl
  show observeAccess T debug isRead pid entry address size s = _
  rw [observeAccess, hclimb]
  rfl

lemma forwards_begin (hzero : s.parentRelation.find 0 = none) :
    Forwards T debug ⟨.transaction pid 0 new .transBegin, force, delay⟩ s
      (s.parentRelation.insert new 0) := by
  refine forwards (g := { s with
      isTransInst := true, opCode := .transBegin, parent := 0, child := new
      suppressActions := false }) ?_ rfl ?_ rfl
  · show observeTransactionInst T debug pid 0 new .transBegin s = _
    rw [observeTransactionInst]
    dsimp only
    rw [check_bind (.inr hzero)]
    rfl
  · rw [finalizeLinks]
    dsimp only
    rw [check_bind (.inr hzero)]
    rfl

lemma forwards_end (hop : op ≠ .transBegin) (hfind : s.parentRelation.find old = some 0) :
    Forwards T debug ⟨.transaction pid old 0 op, force, delay⟩ s (s.parentRelation.erase old) := by
  have hsome : s.parentRelation.find old ≠ none := by
    rw [hfind]
    exact Option.some_ne_none 0
  refine forwards (g := { s with
      isTransInst := true, opCode := op, parent := 0, child := old
      suppressActions := false }) ?_ rfl ?_ rfl
  · show observeTransactionInst T debug pid old 0 op s = _
    cases op with
    | transBegin => exact absurd rfl hop
    | _ =>
      rw [observeTransactionInst]
      dsimp only
      rw [check_bind (.inr hsome), entry_of_find hfind]
      dsimp only
      rw [check_bind (.inr rfl), ite_self]
      · rfl
      · exact hop
  · cases op with
    | transBegin => exact absurd rfl hop
    | _ =>
      rw [finalizeLinks]
      dsimp only
      rw [if_pos rfl, check_bind (.inr hsome), entry_of_find hfind, check_bind (.inr rfl)]
      rfl

/-- A begin inside a transaction that is linked. -/
lemma execute_nested (hsome : s.parentRelation.find old ≠ none) :
    (detector T true).execute ⟨.transaction pid old new .transBegin, force, delay⟩ s =
      .error .assertion := by
  have hnot : ¬(true = false ∨ s.parentRelation.find old = none) := by
    rintro (h | h)
    · cases h
    · exact hsome h
  have hobserve : (detector T true).observe (.transaction pid old new .transBegin) s =
      .error .assertion := by
    show observeTransactionInst T true pid old new .transBegin s = _
    rw [observeTransactionInst]
    simp only [check, decide_eq_false hnot, error_bind]
  rw [Detector.execute, hobserve, error_bind]

end Flatten

end Sesc.Trans
