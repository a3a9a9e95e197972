import Mathlib.Logic.Function.Basic
import Mathlib.Tactic.Common

/-!
# Computations that may abort

A handler of a simulated device either completes or hits an assertion, in which
case the simulator stops.  Such a handler is a function into `Except φ α`; this
file has the assertion `check` and the inversion lemmas by which a successful
computation is taken apart, one operation at a time.
-/

namespace Sesc.Lib

universe u v

variable {φ : Type u} {α β : Type v}

/-- The assertion of `p`: it aborts with the fault `f` when `p` fails. -/
def check (f : φ) (p : Bool) : Except φ PUnit :=
  match p with
  | true => .ok ⟨⟩
  | false => .error f

/-- A successful sequence is a success of its first part and of the rest. -/
lemma bind_eq_ok {x : Except φ α} {g : α → Except φ β} {b : β} :
    (x >>= g) = .ok b ↔ ∃ a, x = .ok a ∧ g a = .ok b := by
  constructor
  · intro h
    rcases x with e | a
    · cases h
    · exact ⟨a, rfl, h⟩
  · rintro ⟨a, rfl, h⟩
    exact h

lemma map_eq_ok {x : Except φ α} {g : α → β} {b : β} :
    x.map g = .ok b ↔ ∃ a, x = .ok a ∧ g a = b := by
  cases x with
  | ok a => simp [Except.map]
  | error e => simp [Except.map]

@[simp] lemma ok_bind {a : α} {g : α → Except φ β} :
    ((Except.ok a : Except φ α) >>= g) = g a := rfl

@[simp] lemma error_bind {e : φ} {g : α → Except φ β} :
    ((Except.error e : Except φ α) >>= g) = .error e := rfl

@[simp] lemma check_eq_ok {f : φ} {p : Prop} {_ : Decidable p} {u : PUnit} :
    check f p = .ok u ↔ p := by
  by_cases hp : p <;> simp [check, hp]

/-- The assertion of a test. -/
lemma check_test_eq_ok {f : φ} {b : Bool} {u : PUnit} : check f b = .ok u ↔ b = true := by
  cases b <;> simp [check]

@[simp] lemma check_bind_eq_ok {f : φ} {p : Prop} {_ : Decidable p} {g : PUnit → Except φ β} {b : β} :
    (check f p >>= g) = .ok b ↔ p ∧ g ⟨⟩ = .ok b := by
  rw [bind_eq_ok]
  constructor
  · rintro ⟨⟨⟩, hp, h⟩
    exact ⟨check_eq_ok.1 hp, h⟩
  · rintro ⟨hp, h⟩
    exact ⟨⟨⟩, check_eq_ok.2 hp, h⟩

/-- An assertion that holds does nothing. -/
lemma check_bind {f : φ} {p : Prop} {_ : Decidable p} {g : PUnit → Except φ β} (hp : p) :
    (check f p >>= g) = g ⟨⟩ := by
  rw [decide_eq_true hp]
  rfl

/-- An assertion that fails ends the computation. -/
lemma check_bind_of_not {f : φ} {p : Prop} {_ : Decidable p} {g : PUnit → Except φ β} (hp : ¬p) :
    (check f p >>= g) = .error f := by
  rw [decide_eq_false hp]
  rfl

/-- A lookup that may fail. -/
lemma elim_error_eq_ok {f : φ} {o : Option α} {a : α} :
    o.elim (.error f) Except.ok = (.ok a : Except φ α) ↔ o = some a := by
  cases o with
  | none => exact ⟨fun h => (nomatch h), fun h => (nomatch h)⟩
  | some b => exact ⟨fun h => congrArg some (Except.ok.inj h), fun h => congrArg _ (Option.some.inj h)⟩

/-- Whether a computation succeeds with a result that passes a test. -/
def succeeds (x : Except φ α) (p : α → Bool) : Bool :=
  match x with
  | .ok a => p a
  | .error _ => false

lemma succeeds_iff {x : Except φ α} {p : α → Bool} :
    succeeds x p = true ↔ ∃ a, x = .ok a ∧ p a = true := by
  rcases x with e | a <;> simp [succeeds]

/-- A computation fails with a fault. -/
def failsWith [DecidableEq φ] (x : Except φ α) (f : φ) : Bool :=
  match x with
  | .ok _ => false
  | .error e => e = f

lemma failsWith_iff [DecidableEq φ] {x : Except φ α} {f : φ} :
    failsWith x f = true ↔ x = .error f := by
  cases x with
  | ok a => exact iff_of_false (fun h => nomatch h) fun h => nomatch h
  | error e =>
    rw [failsWith, decide_eq_true_eq, Except.error.injEq]

/-! ## Kinds of faults -/

/-- A computation fails only with faults of the kind `P`. -/
def FailsOnly (P : φ → Prop) (x : Except φ α) : Prop := ∀ f, x = .error f → P f

section

variable {P : φ → Prop} {x : Except φ α} {a : α} {f : φ}

@[simp] lemma failsOnly_ok : FailsOnly P (.ok a : Except φ α) := by
  rintro f ⟨⟩

@[simp] lemma failsOnly_error : FailsOnly P (.error f : Except φ α) ↔ P f := by
  constructor
  · intro h
    exact h f rfl
  · rintro h g ⟨⟩
    exact h

lemma FailsOnly.bind {g : α → Except φ β} (hx : FailsOnly P x)
    (hg : ∀ a, x = .ok a → FailsOnly P (g a)) : FailsOnly P (x >>= g) := by
  cases x with
  | ok a => exact hg a rfl
  | error e => exact failsOnly_error.2 (failsOnly_error.1 hx)

/-- An assertion with a fault of the kind. -/
lemma FailsOnly.check_bind {p : Bool} {g : PUnit → Except φ α} (hf : P f) (hg : FailsOnly P (g ⟨⟩)) :
    FailsOnly P (check f p >>= g) := by
  cases p
  · exact failsOnly_error.2 hf
  · exact hg

/-- A computation that fails, and only with faults of the kind, has one of them. -/
lemma FailsOnly.exists_error (hx : FailsOnly P x) (hne : ∀ a, x ≠ .ok a) :
    ∃ f, x = .error f ∧ P f := by
  cases x with
  | ok a => exact absurd rfl (hne a)
  | error e => exact ⟨e, rfl, hx e rfl⟩

end

/-! ## Postconditions -/

/-- Every successful result of `x` has the property `P`. -/
def Ensures (P : α → Prop) (x : Except φ α) : Prop := ∀ b, x = .ok b → P b

section

variable {P Q : α → Prop} {a b : α} {x : Except φ α} {g : α → Except φ α}

@[simp] lemma ensures_ok : Ensures P (.ok b : Except φ α) ↔ P b := by
  constructor
  · intro h
    exact h b rfl
  · rintro h c ⟨⟩
    exact h

@[simp] lemma ensures_pure : Ensures P (pure b : Except φ α) ↔ P b := ensures_ok

@[simp] lemma ensures_error {e : φ} : Ensures P (.error e) := by
  rintro c ⟨⟩

@[simp] lemma ensures_check_bind {e : φ} {p : Bool} {g : PUnit → Except φ α} :
    Ensures P (check e p >>= g) ↔ (p = true → Ensures P (g ⟨⟩)) := by
  cases p
  · exact iff_of_true ensures_error fun h => absurd h Bool.false_ne_true
  · exact ⟨fun h _ => h, fun h => h rfl⟩

@[simp] lemma ensures_map_check {e : φ} {p : Bool} {h : PUnit → α} :
    Ensures P (h <$> check e p) ↔ (p = true → P (h ⟨⟩)) := by
  rw [map_eq_pure_bind, ensures_check_bind]
  simp only [ensures_pure]

instance [DecidablePred P] : ∀ x : Except φ α, Decidable (Ensures P x)
  | .ok b => decidable_of_iff (P b) ensures_ok.symm
  | .error _ => .isTrue ensures_error

lemma Ensures.bind {R : β → Prop} {g : α → Except φ β} (hx : Ensures P x)
    (hg : ∀ b, P b → Ensures R (g b)) : Ensures R (x >>= g) := by
  intro c hc
  obtain ⟨b, hb, hc⟩ := bind_eq_ok.1 hc
  exact hg b (hx b hb) c hc

/-- Nothing need be known of the first part. -/
lemma Ensures.skip {y : Except φ β} {g : β → Except φ α} (hg : ∀ b, Ensures P (g b)) :
    Ensures P (y >>= g) := by
  intro c hc
  obtain ⟨b, -, hc⟩ := bind_eq_ok.1 hc
  exact hg b c hc

/-- A property that every step of a loop keeps. -/
lemma Ensures.foldlM {γ : Type*} {f : α → γ → Except φ α} {l : List γ} (ha : P a)
    (hf : ∀ c ∈ l, ∀ b, P b → Ensures P (f b c)) : Ensures P (l.foldlM f a) := by
  induction l generalizing a with
  | nil => exact ensures_ok.2 ha
  | cons c l ih =>
    rw [List.foldlM_cons]
    exact (hf c List.mem_cons_self a ha).bind fun b hb =>
      ih hb fun c' hc' => hf c' (List.mem_cons_of_mem c hc')

lemma Ensures.elim {o : Option α} {e : φ} {Q : β → Prop} {g : α → Except φ β}
    (hg : ∀ b, o = some b → Ensures Q (g b)) : Ensures Q (o.elim (.error e) .ok >>= g) := by
  cases o with
  | none => exact fun _ h => nomatch h
  | some b => exact hg b rfl

lemma Ensures.mono (hx : Ensures P x) (hPQ : ∀ b, P b → Q b) : Ensures Q x :=
  fun b hb => hPQ b (hx b hb)

end

/-! ## What a computation keeps -/

/-- Every successful result of `x` agrees with `a` on `f`. -/
def Keeps {γ : Type*} (f : α → γ) (a : α) (x : Except φ α) : Prop :=
  Ensures (fun b => f b = f a) x

section

variable {γ : Type*} {f : α → γ} {a b : α} {x : Except φ α} {g : α → Except φ α}

@[simp] lemma keeps_ok : Keeps f a (.ok b : Except φ α) ↔ f b = f a := ensures_ok

@[simp] lemma keeps_pure : Keeps f a (pure b : Except φ α) ↔ f b = f a := ensures_ok

@[simp] lemma keeps_error {e : φ} : Keeps f a (.error e) := ensures_error

@[simp] lemma keeps_check_bind {e : φ} {p : Bool} {g : PUnit → Except φ α} :
    Keeps f a (check e p >>= g) ↔ (p = true → Keeps f a (g ⟨⟩)) := ensures_check_bind

@[simp] lemma keeps_map_check {e : φ} {p : Bool} {h : PUnit → α} :
    Keeps f a (h <$> check e p) ↔ (p = true → f (h ⟨⟩) = f a) := ensures_map_check

lemma Keeps.bind (hx : Keeps f a x) (hg : ∀ b, f b = f a → Keeps f b (g b)) :
    Keeps f a (x >>= g) :=
  Ensures.bind hx fun b hb => (hg b hb).mono fun _ hc => hc.trans hb

/-- A postcondition of what follows a computation that keeps `f`. -/
lemma Keeps.ensures_bind {Q : α → Prop} (hx : Keeps f a x)
    (hg : ∀ b, f b = f a → Ensures Q (g b)) : Ensures Q (x >>= g) :=
  Ensures.bind hx hg

lemma Keeps.of_eq (h : Keeps f b x) (hba : f b = f a) : Keeps f a x :=
  Ensures.mono h fun _ hc => hc.trans hba

end

end Sesc.Lib
