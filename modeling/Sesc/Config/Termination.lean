import Sesc.Config.RoundTrip
import Sesc.Config.Streams

/-!
# When `LoadFrom` terminates

A read that fails is no harm where an assertion follows.  It is where the word for the type that is
still in the variable is that of a node with a value: then every turn makes another such node, whose
value is not read either.
-/

namespace Sesc.Config

open Lib

/-- The values of the nodes of a type with one value. -/
def NodeType.storage : NodeType → Option Storage
  | int => some .int
  | real => some .real
  | string => some .string
  | _ => none

/-- The values of the nodes of a type with a set of values. -/
def NodeType.setStorage : NodeType → Option Storage
  | intSet => some .int
  | realSet => some .real
  | stringSet => some .string
  | _ => none

/-! ## The texts -/

/-- The text begins with the word for a type and a name. -/
def Head (t : NodeType) (l l' : List Char) : Prop :=
  ∃ l₁ name, scanWord l = some (t.word, l₁) ∧ scanWord l₁ = some (name, l')

/-- The text begins with so many values. -/
def Values (F : RealFormat) (s : Storage) : ℕ → List Char → List Char → Prop
  | 0, l, l' => l' = l
  | k + 1, l, l' => ∃ value l₁, s.scan (F := F) l = some (value, l₁) ∧ Values F s k l₁ l'

/-- The text begins with a set: its size, and its values in brackets. -/
def SetText (F : RealFormat) (s : Storage) (l l' : List Char) : Prop :=
  ∃ size l₁ l₂ l₃, scanInt32 l = some (size, l₁) ∧ scanChar l₁ = some ('{', l₂) ∧
    Values F s size.toInt.toNat l₂ l₃ ∧ scanChar l₃ = some ('}', l')

/-- The text begins with nodes, each of them complete, and the word that ends them. -/
inductive Entries (F : RealFormat) : List Char → List Char → Prop
  | done {l l' : List Char} : scanWord l = some (endWord, l') → Entries F l l'
  | value {t : NodeType} {s : Storage} {l l₁ l₂ l' : List Char} {v : s.Value F} : Head t l l₁ →
      t.storage = some s → s.scan l₁ = some (v, l₂) → Entries F l₂ l' → Entries F l l'
  | set {t : NodeType} {s : Storage} {l l₁ l₂ l' : List Char} : Head t l l₁ →
      t.setStorage = some s → SetText F s l₁ l₂ → Entries F l₂ l' → Entries F l l'
  | root {l l₁ l₂ l₃ l' : List Char} : Head .root l l₁ → scanWord l₁ = some (beginWord, l₂) →
      Entries F l₂ l₃ → Entries F l₃ l' → Entries F l l'

/-- Where nodes should be, behind a node with a value (`b`) or not, the text ends behind a node with
a value or behind the word for such a type, or has no value where one should be; there may be
complete nodes before, and it may be inside of other nodes. -/
inductive Hangs (F : RealFormat) : Bool → List Char → Prop
  | noType {l : List Char} : scanWord l = none → Hangs F true l
  | noName {b : Bool} {t : NodeType} {s : Storage} {l l₁ : List Char} :
      scanWord l = some (t.word, l₁) → t.storage = some s → scanWord l₁ = none → Hangs F b l
  | noValue {b : Bool} {t : NodeType} {s : Storage} {l l₁ : List Char} : Head t l l₁ →
      t.storage = some s → s.scan (F := F) l₁ = none → Hangs F b l
  | inside {b : Bool} {l l₁ l₂ : List Char} : Head .root l l₁ →
      scanWord l₁ = some (beginWord, l₂) → Hangs F false l₂ → Hangs F b l
  | value {b : Bool} {t : NodeType} {s : Storage} {l l₁ l₂ : List Char} {v : s.Value F} :
      Head t l l₁ → t.storage = some s → s.scan l₁ = some (v, l₂) → Hangs F true l₂ → Hangs F b l
  | set {b : Bool} {t : NodeType} {s : Storage} {l l₁ l₂ : List Char} : Head t l l₁ →
      t.setStorage = some s → SetText F s l₁ l₂ → Hangs F false l₂ → Hangs F b l
  | root {b : Bool} {l l₁ l₂ l₃ : List Char} : Head .root l l₁ →
      scanWord l₁ = some (beginWord, l₂) → Entries F l₂ l₃ → Hangs F false l₃ → Hangs F b l

lemma NodeType.eq_word {t : NodeType} {w : List Char} (h : ofWord w = some t) : w = t.word :=
  (of_decide_eq_true (List.find?_some (p := fun t : NodeType => decide (t.word = w)) h)).symm

lemma Head.length_lt {t : NodeType} {l l' : List Char} (h : Head t l l') :
    l'.length < l.length := by
  obtain ⟨l₁, name, htype, hname⟩ := h
  exact (isWord_of_scanWord hname).2.trans (isWord_of_scanWord htype).2

variable {F : RealFormat} {u : Uninitialised} {k : ℕ} {nodeType nodeName w l l' l₁ : List Char}
  {t : NodeType} {s : Storage} {input : Stream}

/-! ## The lengths of the texts -/

lemma length_scan_le {v : s.Value F} (h : s.scan l = some (v, l')) : l'.length ≤ l.length :=
  ((reading_scan s).2 (v, l') (by rw [h]; rfl)).2

lemma length_scanInt32_le {i : Int32} (h : scanInt32 l = some (i, l')) : l'.length ≤ l.length := by
  obtain ⟨r, hr, h⟩ := Option.bind_eq_some_iff.1 h
  split at h
  · cases h
    exact length_scanInt_le hr
  · cases h

lemma length_values_le (h : Values F s k l l') : l'.length ≤ l.length := by
  induction k generalizing l with
  | zero => exact (congrArg List.length h).le
  | succ k ih =>
    obtain ⟨v, l₁, hscan, h⟩ := h
    exact (ih h).trans (length_scan_le hscan)

lemma length_setText_lt (h : SetText F s l l') : l'.length < l.length := by
  obtain ⟨size, l₁, l₂, l₃, hint, hopen, hvalues, hclose⟩ := h
  have h₁ := length_scanInt32_le hint
  have h₂ := length_scanChar_lt hopen
  have h₃ := length_values_le hvalues
  have h₄ := length_scanChar_lt hclose
  omega

lemma Entries.length_lt (h : Entries F l l') : l'.length < l.length := by
  induction h with
  | done hend => exact (isWord_of_scanWord hend).2
  | value hhead _ hscan _ ih => exact ih.trans ((length_scan_le hscan).trans_lt hhead.length_lt)
  | set hhead _ hset _ ih => exact ih.trans ((length_setText_lt hset).trans hhead.length_lt)
  | root hhead hbegin _ _ ih ih' =>
    exact ih'.trans (ih.trans ((isWord_of_scanWord hbegin).2.trans hhead.length_lt))

namespace Stream

/-! ## The reads -/

@[simp] lemma readWord_none : readWord none w = (w, none) := rfl

@[simp] lemma readChar_none {c : Char} : readChar none c = (c, none) := rfl

lemma readWord_eq {target : List Char} (h : scanWord l = some (w, l')) :
    readWord (some l) target = (w, some l') := by
  rw [readWord, Option.bind_some, h]

lemma readWord_of_none {target : List Char} (h : scanWord l = none) :
    readWord (some l) target = (target, none) := by
  rw [readWord, Option.bind_some, h]

@[simp] lemma readValue_none : readValue F s none = none := rfl

lemma readValue_eq {v : s.Value F} (h : s.scan l = some (v, l')) :
    readValue F s (some l) = some l' := by
  rw [readValue, Option.bind_some, h, Option.map_some]

lemma readValue_of_none (h : s.scan (F := F) l = none) : readValue F s (some l) = none := by
  rw [readValue, Option.bind_some, h, Option.map_none]

@[simp] lemma readValues_none : readValues F s k none = none := by
  induction k with
  | zero => rfl
  | succ k ih => rw [readValues, readValue_none, ih]

lemma readValues_eq : readValues F s k (some l) = some l' ↔ Values F s k l l' := by
  induction k generalizing l with
  | zero =>
    rw [readValues, Values, Option.some_inj]
    exact eq_comm
  | succ k ih =>
    rw [readValues, Values]
    cases hscan : s.scan (F := F) l with
    | none =>
      rw [readValue_of_none hscan, readValues_none]
      refine iff_of_false (by simp) ?_
      rintro ⟨v, l₁, h, -⟩
      cases h
    | some r =>
      rw [readValue_eq hscan, ih]
      constructor
      · exact fun h => ⟨r.1, r.2, rfl, h⟩
      · rintro ⟨v, l₁, h, hvalues⟩
        cases h
        exact hvalues

/-! ## Nodes with a set of values -/

/-- What follows the values: the character that closes the set, or an assertion fails. -/
lemma close_eq {c : Char} (hc : c ≠ '}') (input : Stream) :
    (∃ l l', input = some l ∧ scanChar l = some ('}', l') ∧
      (check LoadFault.assertion ((readChar input c).1 = '}') >>= fun _ =>
        Except.ok (readChar input c).2) = .ok (some l')) ∨
    (check LoadFault.assertion ((readChar input c).1 = '}') >>= fun _ =>
      Except.ok (readChar input c).2) = .error .assertion := by
  cases hread : input.bind scanChar with
  | none =>
    have hchar : readChar input c = (c, none) := by
      rw [readChar, hread]
    refine .inr ?_
    simp only [hchar, check, decide_eq_false hc, error_bind]
  | some r =>
    obtain ⟨d, l'⟩ := r
    have hchar : readChar input c = (d, some l') := by
      rw [readChar, hread]
    obtain ⟨l, rfl, hscan⟩ := Option.bind_eq_some_iff.1 hread
    by_cases hd : d = '}'
    · subst hd
      refine .inl ⟨l, l', rfl, hscan, ?_⟩
      rw [hchar]
      exact check_bind rfl
    · refine .inr ?_
      simp only [hchar, check, decide_eq_false hd, error_bind]

/-- A set from its bracket on.  That a read has failed shows in the one that opens it, or in the one
that closes it. -/
lemma brackets_eq (k : ℕ) (c : Char) (input : Stream) :
    (∃ l l₁ l', input = some l ∧ c = '{' ∧ Values F s k l l₁ ∧ scanChar l₁ = some ('}', l') ∧
      (do check LoadFault.assertion (c = '{')
          let (trash, input) := readChar (readValues F s k input) c
          check .assertion (trash = '}')
          return input) = .ok (some l')) ∨
    (do check LoadFault.assertion (c = '{')
        let (trash, input) := readChar (readValues F s k input) c
        check .assertion (trash = '}')
        return input) = .error .assertion := by
  by_cases hc : c = '{'
  · subst hc
    rw [check_bind rfl]
    rcases close_eq (c := '{') (by decide) (readValues F s k input) with ⟨l₁, l', hvalues, hclose, h⟩ | h
    · cases input with
      | none =>
        rw [readValues_none] at hvalues
        cases hvalues
      | some l => exact .inl ⟨l, l₁, l', rfl, rfl, readValues_eq.1 hvalues, hclose, h⟩
    · exact .inr h
  · refine .inr ?_
    simp only [check, decide_eq_false hc, error_bind]

lemma readChar_eq_some {c d : Char} (h : readChar input c = (d, some l')) :
    ∃ l, input = some l ∧ scanChar l = some (d, l') := by
  cases hread : input.bind scanChar with
  | none =>
    rw [readChar, hread] at h
    cases h
  | some r =>
    rw [readChar, hread] at h
    cases h
    exact Option.bind_eq_some_iff.1 hread

lemma readInt32_eq_some {i j : Int32} (h : readInt32 input i = (j, some l')) :
    ∃ l, input = some l ∧ scanInt32 l = some (j, l') := by
  cases input with
  | none => cases h
  | some l =>
    cases hread : scanInt32 l with
    | none =>
      rw [readInt32, hread] at h
      cases h
    | some r =>
      rw [readInt32, hread] at h
      cases h
      exact ⟨l, rfl, hread⟩

/-- A set is read, or an assertion fails. -/
lemma loadSet_eq (u : Uninitialised) (s : Storage) (input : Stream) :
    (∃ l l', input = some l ∧ SetText F s l l' ∧ loadSet F u s input = .ok (some l')) ∨
      loadSet F u s input = .error .assertion := by
  rcases brackets_eq (F := F) (s := s) (readInt32 input u.setSize).1.toInt.toNat
    (readChar (readInt32 input u.setSize).2 u.trash).1
    (readChar (readInt32 input u.setSize).2 u.trash).2 with
    ⟨l₂, l₃, l', hopen, hc, hvalues, hclose, h⟩ | h
  · -- the bracket has been read, and so has the size
    obtain ⟨l₁, hsize, hscan⟩ := readChar_eq_some (Prod.ext hc hopen)
    obtain ⟨l, rfl, hint⟩ := readInt32_eq_some (Prod.ext rfl hsize)
    exact .inl ⟨l, l', rfl, ⟨_, l₁, l₂, l₃, hint, hscan, hvalues, hclose⟩, h⟩
  · exact .inr h

lemma loadSet_of_setText (h : SetText F s l l') : loadSet F u s (some l) = .ok (some l') := by
  obtain ⟨size, l₁, l₂, l₃, hint, hopen, hvalues, hclose⟩ := h
  have hsize : readInt32 (some l) u.setSize = (size, some l₁) := by
    rw [readInt32, hint]
  have hbracket : readChar (some l₁) u.trash = ('{', some l₂) := by
    rw [readChar, Option.bind_some, hopen]
  have hlast : readChar (some l₃) '{' = ('}', some l') := by
    rw [readChar, Option.bind_some, hclose]
  rw [loadSet, hsize]
  simp only [hbracket, check_bind, readValues_eq.2 hvalues, hlast]
  rfl

/-! ## The turns of the loop -/

variable {loop : Stream → Except LoadFault Stream}

lemma loadNode_value (h : t.storage = some s) :
    loadNode F u loop (some t) input = .ok (readValue F s input) := by
  cases t <;> cases h <;> rfl

lemma loadNode_set (h : t.setStorage = some s) :
    loadNode F u loop (some t) input = loadSet F u s input := by
  cases t <;> cases h <;> rfl

/-- The marker of a node with sub-nodes cannot be read. -/
lemma loadRoot_none (loop : Stream → Except LoadFault Stream) :
    loadRoot loop none = .error .assertion := by
  show (check LoadFault.assertion (([] : List Char) = beginWord) >>= fun _ => loop none) = _
  simp only [check, decide_eq_false (show ¬([] : List Char) = beginWord by decide), error_bind]

lemma loadRoot_eq (h : scanWord l = some (beginWord, l')) :
    loadRoot loop (some l) = loop (some l') := by
  rw [loadRoot, readWord_eq h]
  exact check_bind rfl

/-- A type has one value, a set of values, or sub-nodes. -/
lemma storage_cases (t : NodeType) :
    (∃ s, t.storage = some s) ∨ (∃ s, t.setStorage = some s) ∨ t = .root := by
  cases t with
  | int => exact .inl ⟨.int, rfl⟩
  | real => exact .inl ⟨.real, rfl⟩
  | string => exact .inl ⟨.string, rfl⟩
  | intSet => exact .inr (.inl ⟨.int, rfl⟩)
  | realSet => exact .inr (.inl ⟨.real, rfl⟩)
  | stringSet => exact .inr (.inl ⟨.string, rfl⟩)
  | root => exact .inr (.inr rfl)

lemma isSome_storage_of_set (h : t.setStorage = some s) : t.storage.isSome = false := by
  cases t <;> cases h <;> rfl

/-- The word that is in the variable for the type: it is empty, or that of a node with a value (`b`)
or not. -/
def Kept (b : Bool) (nodeType : List Char) : Prop :=
  nodeType = [] ∧ b = false ∨ ∃ t : NodeType, nodeType = t.word ∧ b = t.storage.isSome

lemma Kept.ne_endWord {b : Bool} (h : Kept b nodeType) : nodeType ≠ endWord := by
  rcases h with ⟨rfl, -⟩ | ⟨t, rfl, -⟩
  · decide
  · exact t.word_ne_endWord

lemma loadLoop_done (h : scanWord l = some (endWord, l')) :
    loadLoop F u (k + 1) nodeType nodeName (some l) = .ok (some l') := by
  rw [loadLoop, readWord_eq h]
  exact if_pos rfl

/-- A turn that reads a type and a name. -/
lemma loadLoop_head (h : Head t l l') : ∃ name,
    loadLoop F u (k + 1) nodeType nodeName (some l) =
      loadNode F u (loadLoop F u k [] []) (some t) (some l') >>= loadLoop F u k t.word name := by
  obtain ⟨l₁, name, htype, hname⟩ := h
  refine ⟨name, ?_⟩
  rw [loadLoop, readWord_eq htype]
  show (if t.word = endWord then _ else _) = _
  rw [if_neg t.word_ne_endWord, readWord_eq hname, t.ofWord_word]

/-- A turn that reads neither type nor name. -/
lemma loadLoop_none (hne : nodeType ≠ endWord) :
    loadLoop F u (k + 1) nodeType nodeName none =
      loadNode F u (loadLoop F u k [] []) (NodeType.ofWord nodeType) none >>=
        loadLoop F u k nodeType nodeName := by
  rw [loadLoop, readWord_none]
  exact if_neg hne

/-- Once a read has failed, nodes with a value are made without end. -/
lemma loadLoop_none_value (h : t.storage = some s) :
    loadLoop F u k t.word nodeName none = .error .bound := by
  induction k with
  | zero => rfl
  | succ k ih =>
    rw [loadLoop_none t.word_ne_endWord, t.ofWord_word, loadNode_value h, readValue_none, ok_bind, ih]

/-- Other nodes fail an assertion. -/
lemma loadNode_none_of_storage (h : t.storage = none) :
    loadNode F u loop (some t) none = .error .assertion := by
  rcases storage_cases t with ⟨s, hs⟩ | ⟨s, hs⟩ | rfl
  · rw [h] at hs
    cases hs
  · rw [loadNode_set hs]
    rcases loadSet_eq (F := F) u s none with ⟨l, l', hnone, -⟩ | hset
    · cases hnone
    · exact hset
  · exact loadRoot_none _

lemma loadLoop_none_of_kept_true (h : Kept true nodeType) :
    loadLoop F u k nodeType nodeName none = .error .bound := by
  rcases h with ⟨-, hfalse⟩ | ⟨t, rfl, ht⟩
  · cases hfalse
  · obtain ⟨s, hs⟩ := Option.isSome_iff_exists.1 ht.symm
    exact loadLoop_none_value hs

lemma loadLoop_none_of_kept (h : Kept false nodeType) :
    loadLoop F u (k + 1) nodeType nodeName none = .error .assertion := by
  rw [loadLoop_none h.ne_endWord]
  rcases h with ⟨rfl, -⟩ | ⟨t, rfl, ht⟩
  · rfl
  · rw [t.ofWord_word, loadNode_none_of_storage (Option.not_isSome_iff_eq_none.1 (by simp [← ht])),
      error_bind]

/-- A turn that reads no type is one after a read that has failed. -/
lemma loadLoop_noType (h : scanWord l = none) :
    loadLoop F u (k + 1) nodeType nodeName (some l) =
      loadLoop F u (k + 1) nodeType nodeName none := by
  rw [loadLoop, loadLoop, readWord_of_none h, readWord_none]

/-- A turn that reads a type and no name. -/
lemma loadLoop_noName (h : scanWord l = some (w, l')) (hne : w ≠ endWord)
    (hname : scanWord l' = none) :
    loadLoop F u (k + 1) nodeType nodeName (some l) =
      loadNode F u (loadLoop F u k [] []) (NodeType.ofWord w) none >>=
        loadLoop F u k w nodeName := by
  rw [loadLoop, readWord_eq h]
  show (if w = endWord then _ else _) = _
  rw [if_neg hne, readWord_of_none hname]

/-! ## The texts on which the loop does not leave -/

/-- The loop reads complete nodes to their end, if it has turns enough. -/
lemma loadLoop_of_entries (h : Entries F l l') : ∀ k nodeType nodeName,
    loadLoop F u k nodeType nodeName (some l) = .ok (some l') ∨
      k ≤ l.length ∧ loadLoop F u k nodeType nodeName (some l) = .error .bound := by
  induction h with
  | done hend =>
    intro k nodeType nodeName
    cases k with
    | zero => exact .inr ⟨Nat.zero_le _, rfl⟩
    | succ k => exact .inl (loadLoop_done hend)
  | value hhead hs hscan _ ih =>
    intro k nodeType nodeName
    cases k with
    | zero => exact .inr ⟨Nat.zero_le _, rfl⟩
    | succ k =>
      obtain ⟨name, hturn⟩ := loadLoop_head (F := F) (u := u) (k := k) hhead
      have hlt := (length_scan_le hscan).trans_lt hhead.length_lt
      rw [hturn, loadNode_value hs, readValue_eq hscan, ok_bind]
      exact (ih k _ name).imp_right fun ⟨hk, hloop⟩ => ⟨hk.trans_lt hlt, hloop⟩
  | set hhead hs hset _ ih =>
    intro k nodeType nodeName
    cases k with
    | zero => exact .inr ⟨Nat.zero_le _, rfl⟩
    | succ k =>
      obtain ⟨name, hturn⟩ := loadLoop_head (F := F) (u := u) (k := k) hhead
      have hlt := (length_setText_lt hset).trans hhead.length_lt
      rw [hturn, loadNode_set hs, loadSet_of_setText hset, ok_bind]
      exact (ih k _ name).imp_right fun ⟨hk, hloop⟩ => ⟨hk.trans_lt hlt, hloop⟩
  | root hhead hbegin hinner _ ih ih' =>
    intro k nodeType nodeName
    cases k with
    | zero => exact .inr ⟨Nat.zero_le _, rfl⟩
    | succ k =>
      obtain ⟨name, hturn⟩ := loadLoop_head (F := F) (u := u) (k := k) hhead
      have hlt := (isWord_of_scanWord hbegin).2.trans hhead.length_lt
      rw [hturn]
      show loadRoot _ _ >>= _ = _ ∨ k < _ ∧ loadRoot _ _ >>= _ = _
      rw [loadRoot_eq hbegin]
      rcases ih k [] [] with hloop | ⟨hk, hloop⟩
      · rw [hloop, ok_bind]
        exact (ih' k _ name).imp_right fun ⟨hk, hloop⟩ =>
          ⟨hk.trans_lt (hinner.length_lt.trans hlt), hloop⟩
      · rw [hloop]
        exact .inr ⟨hk.trans_lt hlt, rfl⟩

/-- The loop never leaves, whatever the number of turns. -/
lemma loadLoop_of_hangs {b : Bool} (h : Hangs F b l) : ∀ k nodeType nodeName, Kept b nodeType →
    loadLoop F u k nodeType nodeName (some l) = .error .bound := by
  induction h with
  | noType htype =>
    intro k nodeType nodeName hkept
    cases k with
    | zero => rfl
    | succ k =>
      rw [loadLoop_noType htype]
      exact loadLoop_none_of_kept_true hkept
  | @noName b t s l l₁ htype hs hname =>
    intro k nodeType nodeName _
    cases k with
    | zero => rfl
    | succ k =>
      rw [loadLoop_noName htype t.word_ne_endWord hname, t.ofWord_word, loadNode_value hs, ok_bind]
      exact loadLoop_none_value hs
  | noValue hhead hs hscan =>
    intro k nodeType nodeName _
    cases k with
    | zero => rfl
    | succ k =>
      obtain ⟨name, hturn⟩ := loadLoop_head (F := F) (u := u) (k := k) hhead
      rw [hturn, loadNode_value hs, readValue_of_none hscan, ok_bind]
      exact loadLoop_none_value hs
  | inside hhead hbegin _ ih =>
    intro k nodeType nodeName _
    cases k with
    | zero => rfl
    | succ k =>
      obtain ⟨name, hturn⟩ := loadLoop_head (F := F) (u := u) (k := k) hhead
      rw [hturn]
      show loadRoot _ _ >>= _ = _
      rw [loadRoot_eq hbegin, ih k [] [] (.inl ⟨rfl, rfl⟩)]
      rfl
  | value hhead hs hscan _ ih =>
    intro k nodeType nodeName _
    cases k with
    | zero => rfl
    | succ k =>
      obtain ⟨name, hturn⟩ := loadLoop_head (F := F) (u := u) (k := k) hhead
      rw [hturn, loadNode_value hs, readValue_eq hscan, ok_bind]
      exact ih k _ name (.inr ⟨_, rfl, by rw [hs]; rfl⟩)
  | @set b t s l l₁ l₂ hhead hs hset _ ih =>
    intro k nodeType nodeName _
    cases k with
    | zero => rfl
    | succ k =>
      obtain ⟨name, hturn⟩ := loadLoop_head (F := F) (u := u) (k := k) hhead
      rw [hturn, loadNode_set hs, loadSet_of_setText hset, ok_bind]
      exact ih k _ name (.inr ⟨t, rfl, (isSome_storage_of_set hs).symm⟩)
  | root hhead hbegin hentries _ ih =>
    intro k nodeType nodeName _
    cases k with
    | zero => rfl
    | succ k =>
      obtain ⟨name, hturn⟩ := loadLoop_head (F := F) (u := u) (k := k) hhead
      rw [hturn]
      show loadRoot _ _ >>= _ = _
      rw [loadRoot_eq hbegin]
      rcases loadLoop_of_entries hentries k [] [] with hinner | hinner
      · rw [hinner, ok_bind]
        exact ih k _ name (.inr ⟨.root, rfl, rfl⟩)
      · rw [hinner.2]
        rfl

/-! ## What a loop with turns enough does -/

/-- How the loop ends, if its text has a type of a node with a value before it (`b`) or not. -/
def Outcome (F : RealFormat) (b : Bool) (l : List Char) : Except LoadFault Stream → Prop
  | .ok input => ∃ l', input = some l' ∧ Entries F l l'
  | .error f => f = .bound → Hangs F b l

lemma outcome_assertion {b : Bool} : Outcome F b l (.error .assertion) := by
  intro h
  cases h

/-- Behind a complete node it goes on as behind the text of the node. -/
lemma Outcome.mono {b b' : Bool} {x : Except LoadFault Stream} (h : Outcome F b' l' x)
    (hentries : ∀ {l''}, Entries F l' l'' → Entries F l l'')
    (hhangs : Hangs F b' l' → Hangs F b l) : Outcome F b l x := by
  cases x with
  | error f => exact fun hf => hhangs (h hf)
  | ok input =>
    obtain ⟨l'', rfl, hl''⟩ := h
    exact ⟨l'', rfl, hentries hl''⟩

/-- A turn that reads a word that is not one for a type. -/
lemma loadLoop_unknown (h : scanWord l = some (w, l')) (hne : w ≠ endWord)
    (hw : NodeType.ofWord w = none) :
    loadLoop F u (k + 1) nodeType nodeName (some l) = .error .assertion := by
  rw [loadLoop, readWord_eq h]
  show (if w = endWord then _ else _) = _
  rw [if_neg hne, hw]
  rfl

/-- A turn for a node with sub-nodes, of which the loop inside is known. -/
lemma outcome_root {b : Bool} {name : List Char} (hhead : Head .root l l₁)
    (hinner : ∀ l₂, l₂.length < l.length → Outcome F false l₂ (loadLoop F u k [] [] (some l₂)))
    (houter : ∀ l₃, l₃.length < l.length →
      Outcome F false l₃ (loadLoop F u k NodeType.root.word name (some l₃))) :
    Outcome F b l (loadRoot (loadLoop F u k [] []) (some l₁) >>=
      loadLoop F u k NodeType.root.word name) := by
  cases hmarker : scanWord l₁ with
  | none =>
    have hroot : loadRoot (loadLoop F u k [] []) (some l₁) = .error .assertion := by
      rw [loadRoot, readWord_of_none hmarker]
      exact loadRoot_none (loadLoop F u k [] [])
    rw [hroot]
    exact outcome_assertion
  | some r =>
    obtain ⟨marker, l₂⟩ := r
    by_cases hbegin : marker = beginWord
    · subst hbegin
      have hlt : l₂.length < l.length := (isWord_of_scanWord hmarker).2.trans hhead.length_lt
      have hout := hinner l₂ hlt
      rw [loadRoot_eq hmarker]
      cases hloop : loadLoop F u k [] [] (some l₂) with
      | error f =>
        rw [hloop] at hout
        exact fun hf => .inside hhead hmarker (hout hf)
      | ok input =>
        rw [hloop] at hout
        obtain ⟨l₃, rfl, hentries⟩ := hout
        exact (houter l₃ (hentries.length_lt.trans hlt)).mono (.root hhead hmarker hentries)
          (.root hhead hmarker hentries)
    · have hroot : loadRoot (loadLoop F u k [] []) (some l₁) = .error .assertion := by
        rw [loadRoot, readWord_eq hmarker]
        simp only [check, decide_eq_false hbegin, error_bind]
      rw [hroot]
      exact outcome_assertion

/-- A turn that reads a type and a name. -/
lemma outcome_head {b : Bool} {name : List Char} (hhead : Head t l l₁)
    (hloop : ∀ b' l' nodeType nodeName, l'.length < l.length → Kept b' nodeType →
      Outcome F b' l' (loadLoop F u k nodeType nodeName (some l'))) :
    Outcome F b l (loadNode F u (loadLoop F u k [] []) (some t) (some l₁) >>=
      loadLoop F u k t.word name) := by
  have hlt : l₁.length < l.length := hhead.length_lt
  rcases storage_cases t with ⟨s, hs⟩ | ⟨s, hs⟩ | rfl
  · rw [loadNode_value hs]
    cases hscan : s.scan (F := F) l₁ with
    | none =>
      rw [readValue_of_none hscan, ok_bind, loadLoop_none_value hs]
      exact fun _ => .noValue hhead hs hscan
    | some r =>
      obtain ⟨v, l₂⟩ := r
      have hlt₂ : l₂.length < l.length := (length_scan_le hscan).trans_lt hlt
      rw [readValue_eq hscan, ok_bind]
      exact (hloop true l₂ _ name hlt₂ (.inr ⟨t, rfl, by rw [hs]; rfl⟩)).mono
        (.value hhead hs hscan) (.value hhead hs hscan)
  · rw [loadNode_set hs]
    rcases loadSet_eq (F := F) u s (some l₁) with ⟨l₀, l₂, h₀, hset, hload⟩ | hload
    · cases h₀
      have hlt₂ : l₂.length < l.length := (length_setText_lt hset).trans hlt
      rw [hload, ok_bind]
      exact (hloop false l₂ _ name hlt₂ (.inr ⟨t, rfl, (isSome_storage_of_set hs).symm⟩)).mono
        (.set hhead hs hset) (.set hhead hs hset)
    · rw [hload]
      exact outcome_assertion
  · exact outcome_root hhead (fun l₂ h => hloop false l₂ [] [] h (.inl ⟨rfl, rfl⟩))
      fun l₃ h => hloop false l₃ _ name h (.inr ⟨.root, rfl, rfl⟩)

/-- With more turns than the text has characters the loop leaves, or the text is one on which it
does not. -/
lemma outcome_loadLoop (k : ℕ) : ∀ b l nodeType nodeName, l.length < k → Kept b nodeType →
    Outcome F b l (loadLoop F u k nodeType nodeName (some l)) := by
  induction k with
  | zero => exact fun _ _ _ _ h => absurd h (Nat.not_lt_zero _)
  | succ k ih =>
    intro b l nodeType nodeName hk hkept
    have hloop : ∀ b' l' nodeType nodeName, l'.length < l.length → Kept b' nodeType →
        Outcome F b' l' (loadLoop F u k nodeType nodeName (some l')) :=
      fun b' l' T N hlt hT => ih b' l' T N (by omega) hT
    cases htype : scanWord l with
    | none =>
      rw [loadLoop_noType htype]
      cases b with
      | false =>
        rw [loadLoop_none_of_kept hkept]
        exact outcome_assertion
      | true =>
        rw [loadLoop_none_of_kept_true hkept]
        exact fun _ => .noType htype
    | some r =>
      obtain ⟨w, l₁⟩ := r
      by_cases hend : w = endWord
      · subst hend
        rw [loadLoop_done htype]
        exact ⟨l₁, rfl, .done htype⟩
      · cases hw : NodeType.ofWord w with
        | none =>
          rw [loadLoop_unknown htype hend hw]
          exact outcome_assertion
        | some t =>
          cases NodeType.eq_word hw
          cases hname : scanWord l₁ with
          | none =>
            rw [loadLoop_noName htype hend hname, hw]
            cases hs : t.storage with
            | none =>
              rw [loadNode_none_of_storage hs]
              exact outcome_assertion
            | some s =>
              rw [loadNode_value hs, readValue_none, ok_bind, loadLoop_none_value hs]
              exact fun _ => .noName htype hs hname
          | some r₁ =>
            obtain ⟨name, l₂⟩ := r₁
            have hhead : Head t l l₂ := ⟨l₁, name, htype, hname⟩
            obtain ⟨name', hturn⟩ := loadLoop_head (F := F) (u := u) (k := k) hhead
            rw [hturn]
            exact outcome_head hhead hloop

end Stream

/-! ## The texts that are accepted -/

/-! ## Which texts `LoadFrom` terminates on -/

/-- `LoadFrom` terminates on a text unless the nodes behind its first word hang. -/
theorem terminates_iff_not_hangs (F : RealFormat) (u : Uninitialised) (l : List Char) :
    Terminates F u l ↔ ¬∃ l', scanWord l = some (beginWord, l') ∧ Hangs F false l' := by
  constructor
  · rintro ⟨k, hk⟩ ⟨l', hbegin, hhangs⟩
    apply hk
    rw [Stream.loadFrom, Stream.loadRoot_eq hbegin]
    exact Stream.loadLoop_of_hangs hhangs k [] [] (.inl ⟨rfl, rfl⟩)
  · intro hnot
    refine ⟨l.length + 1, fun hbound => ?_⟩
    cases hmarker : scanWord l with
    | none =>
      rw [Stream.loadFrom, Stream.loadRoot, Stream.readWord_of_none hmarker] at hbound
      have hroot := Stream.loadRoot_none (Stream.loadLoop F u (l.length + 1) [] [])
      cases hbound.symm.trans hroot
    | some r =>
      obtain ⟨marker, l'⟩ := r
      by_cases hbegin : marker = beginWord
      · subst hbegin
        rw [Stream.loadFrom, Stream.loadRoot_eq hmarker] at hbound
        have hlt : l'.length < l.length := (isWord_of_scanWord hmarker).2
        have hout := Stream.outcome_loadLoop (F := F) (u := u) (l.length + 1) false l' [] []
          (Nat.lt_succ_of_lt hlt) (.inl ⟨rfl, rfl⟩)
        rw [hbound] at hout
        exact hnot ⟨l', hmarker, hout rfl⟩
      · rw [Stream.loadFrom, Stream.loadRoot, Stream.readWord_eq hmarker] at hbound
        simp only [check, decide_eq_false hbegin, error_bind] at hbound
        cases hbound

/-- A node with a value, and nothing behind it. -/
def truncatedText : List Char := "Begin Int x 5".toList

theorem not_terminates_truncatedText : ¬∃ u, Terminates integers u truncatedText := by
  rintro ⟨u, k, hk⟩
  have hbegin : scanWord truncatedText = some (beginWord, " Int x 5".toList) := by decide
  have hhead : Head .int " Int x 5".toList " 5".toList := ⟨" x 5".toList, ['x'], by decide, by decide⟩
  have hhangs : Hangs integers false " Int x 5".toList :=
    .value (s := .int) (v := (5 : Int64)) hhead rfl (by decide : scanInt64 " 5".toList = some (5, []))
      (.noType (by decide))
  apply hk
  rw [Stream.loadFrom, Stream.loadRoot_eq hbegin]
  exact Stream.loadLoop_of_hangs hhangs k [] [] (.inl ⟨rfl, rfl⟩)

end Sesc.Config
