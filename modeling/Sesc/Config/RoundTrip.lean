import Sesc.Config.Configuration

/-!
# The text of a tree and the tree of a text

A tree without sets is read back from the text that is written for it.  The node of a set has the
type of a node with one value, so that its text is read as such a node: the size of the set is the
value, and the bracket that follows is no type.
-/

namespace Sesc.Config

open Lib

variable {F : RealFormat} {c : Char} {l l' : List Char} {k : ℕ}

/-! ## Values -/

namespace Storage

/-- A string is a word. -/
def IsText : (s : Storage) → s.Value F → Prop
  | int, _ => True
  | real, _ => True
  | string, value => IsWord value

/-- A real number is finite. -/
def finite : (s : Storage) → s.Value F → Bool
  | int, _ => true
  | real, value => F.finite value
  | string, _ => true

/-- A value at the precision with which it is printed. -/
def printed : (s : Storage) → s.Value F → s.Value F
  | int, value => value
  | real, value => F.printed value
  | string, value => value

variable {s : Storage} {value : s.Value F}

lemma isWord_print (h : s.IsText value) : IsWord (s.print value) :=
  match s, value, h with
  | int, value, _ => isWord_printInt (Int64.toInt value)
  | real, value, _ => F.isWord_print value
  | string, _, h => h

lemma scan_cons (hc : isSpace c = true) : s.scan (F := F) (c :: l) = s.scan l := by
  cases s with
  | int =>
    show scanInt64 (c :: l) = scanInt64 l
    rw [scanInt64, scanInt64, scanInt, skipSpace_cons hc, ← scanInt]
  | real =>
    show F.scan (skipSpace (c :: l)) = F.scan (skipSpace l)
    rw [skipSpace_cons hc]
  | string => exact scanWord_cons hc

lemma scanInt64_printInt (i : Int64) (hc : isSpace c = true) :
    scanInt64 (printInt i.toInt ++ c :: l) = some (i, c :: l) := by
  have hrange : inRange 0x8000000000000000 i.toInt = true := by
    rw [inRange, Bool.and_eq_true, decide_eq_true_eq, decide_eq_true_eq]
    exact ⟨i.le_toInt, i.toInt_lt⟩
  rw [scanInt64, scanInt_printInt i.toInt hc, Option.bind_some, if_pos hrange, Int64.ofInt_toInt]

/-- A value is read from its text. -/
lemma scan_print (hfinite : s.finite value = true) (htext : s.IsText value)
    (hc : isSpace c = true) :
    s.scan (s.print value ++ c :: l) = some (s.printed value, c :: l) :=
  match s, value, hfinite, htext with
  | int, value, _, _ => scanInt64_printInt value hc
  | real, value, hfinite, _ => by
    show F.scan (skipSpace (F.print value ++ c :: l)) = _
    rw [(F.isWord_print value).skipSpace]
    exact F.scan_print value c l hfinite hc
  | string, _, _, htext => scanWord_append htext hc

/-- A number that is not finite is not read from its text. -/
lemma scan_infinite (h : s.finite value = false) : s.scan (F := F) (s.print value ++ l) = none :=
  match s, value, h with
  | real, value, h => by
    show F.scan (skipSpace (F.print value ++ l)) = none
    rw [(F.isWord_print value).skipSpace]
    exact F.scan_infinite value l h

/-- Where a value is expected the size of a set is read as one. -/
lemma scan_setSize (s : Storage) (n : ℕ) (hc : isSpace c = true) :
    ∃ value : s.Value F, s.scan (printInt (setSize n) ++ c :: l) = some (value, c :: l) := by
  cases s with
  | int =>
    have hsize : setSize n = ((Int32.ofNat n).toInt64).toInt := (Int32.toInt_toInt64 _).symm
    rw [hsize]
    exact ⟨_, scanInt64_printInt _ hc⟩
  | real =>
    obtain ⟨r, hr⟩ := F.scan_int (Int32.ofNat n) c l hc
    refine ⟨r, ?_⟩
    show F.scan (skipSpace (printInt (setSize n) ++ c :: l)) = _
    rw [(isWord_printInt (setSize n)).skipSpace]
    exact hr
  | string => exact ⟨_, scanWord_append (isWord_printInt (setSize n)) hc⟩

/-- What has been read is text, and finite. -/
lemma isText_of_scan (h : s.scan l = some (value, l')) :
    s.IsText value ∧ s.finite value = true ∧ l'.length ≤ l.length :=
  match s, value, h with
  | int, _, h => by
    refine ⟨trivial, rfl, ?_⟩
    obtain ⟨⟨i, rest⟩, hscan, h⟩ := Option.bind_eq_some_iff.1 h
    split at h
    · cases h
      exact length_scanInt_le hscan
    · cases h
  | real, _, h => by
    refine ⟨trivial, F.finite_scan _ _ _ h, ?_⟩
    have hskip : (skipSpace l).length ≤ l.length := length_skipSpace_le
    exact (F.length_scan _ _ _ h).trans hskip
  | string, _, h => by
    obtain ⟨hword, hlt⟩ := isWord_of_scanWord h
    exact ⟨hword, rfl, hlt.le⟩

end Storage

/-! ## Trees -/

mutual

/-- A node and all nodes below it. -/
def ConfigNode.subNodes : ConfigNode F → List (ConfigNode F)
  | .primitive s name value => [.primitive s name value]
  | .set s name values => [.set s name values]
  | .root name nodes => .root name nodes :: subNodesOf nodes

/-- The given nodes and all nodes below them. -/
def subNodesOf : List (ConfigNode F) → List (ConfigNode F)
  | [] => []
  | n :: nodes => n.subNodes ++ subNodesOf nodes

end

mutual

/-- A node with its real numbers at the precision with which they are printed. -/
def ConfigNode.printed : ConfigNode F → ConfigNode F
  | .primitive s name value => .primitive s name (s.printed value)
  | .set s name values => .set s name (values.map s.printed)
  | .root name nodes => .root name (printedNodes nodes)

def printedNodes : List (ConfigNode F) → List (ConfigNode F)
  | [] => []
  | n :: nodes => n.printed :: printedNodes nodes

end

namespace ConfigNode

/-- The name and the strings of a node are words. -/
def IsText : ConfigNode F → Prop
  | primitive s name value => IsWord name ∧ s.IsText value
  | set s name values => IsWord name ∧ ∀ value ∈ values, s.IsText value
  | root name _ => IsWord name

/-- The node is no set. -/
def IsNoSet : ConfigNode F → Prop
  | primitive _ _ _ => True
  | set _ _ _ => False
  | root _ _ => True

/-- The node has no real number that is not finite. -/
def IsFinite : ConfigNode F → Prop
  | primitive s _ value => s.finite value = true
  | set s _ values => ∀ value ∈ values, s.finite value = true
  | root _ _ => True

lemma IsText.name {n : ConfigNode F} (h : n.IsText) : IsWord n.name := by
  cases n with
  | primitive s name value => exact h.1
  | set s name values => exact h.1
  | root name nodes => exact h

end ConfigNode

lemma mem_subNodes_self (n : ConfigNode F) : n ∈ n.subNodes := by
  cases n with
  | primitive s name value => exact List.mem_singleton_self _
  | set s name values => exact List.mem_singleton_self _
  | root name nodes => exact List.mem_cons_self

lemma mem_subNodesOf {m : ConfigNode F} {nodes : List (ConfigNode F)} :
    m ∈ subNodesOf nodes ↔ ∃ n ∈ nodes, m ∈ n.subNodes := by
  induction nodes with
  | nil => exact iff_of_false List.not_mem_nil fun ⟨n, hn, _⟩ => List.not_mem_nil hn
  | cons n nodes ih => simp only [subNodesOf, List.mem_append, ih, List.mem_cons, exists_eq_or_imp]

/-! ## Words that `LoadFrom` knows -/

lemma isSpace_endl : isSpace endl = true := by decide

lemma isSpace_blank : isSpace blank = true := by decide

lemma NodeType.isWord_word (t : NodeType) : IsWord t.word := by
  cases t <;> exact .of_isWord (by decide)

lemma NodeType.ofWord_word (t : NodeType) : ofWord t.word = some t := by
  cases t <;> decide

lemma NodeType.word_ne_endWord (t : NodeType) : t.word ≠ endWord := by
  cases t <;> decide

lemma isWord_beginWord : IsWord beginWord := .of_isWord (by decide)

lemma isWord_endWord : IsWord endWord := .of_isWord (by decide)

/-- A sub-node in a text, after its type and its name. -/
def entry (n : ConfigNode F) : List Char :=
  n.type.word ++ blank :: n.name ++ blank :: n.writeTo

lemma writeNodes_cons {n : ConfigNode F} {nodes : List (ConfigNode F)} :
    writeNodes (n :: nodes) = entry n ++ writeNodes nodes := by
  rw [writeNodes, entry]

lemma loadLoop_cons (hc : isSpace c = true) : loadLoop (F := F) k (c :: l) = loadLoop k l := by
  cases k with
  | zero => rfl
  | succ k => rw [loadLoop, loadLoop, scanWord_cons hc]

/-- The loop reads the type and the name of a sub-node. -/
lemma loadLoop_entry {t : NodeType} {name : List Char} (hname : IsWord name) :
    loadLoop (F := F) (k + 1) (t.word ++ blank :: name ++ blank :: l) =
      loadFollowing (loadLoop k) (some t) name (blank :: l) := by
  have hword : scanWord (t.word ++ blank :: name ++ blank :: l) =
      some (t.word, blank :: (name ++ blank :: l)) := by
    rw [List.append_assoc]
    exact scanWord_append t.isWord_word isSpace_blank
  simp only [loadLoop, hword, require_some, ok_bind, if_neg t.word_ne_endWord, loadNext,
    scanWord_cons isSpace_blank, scanWord_append hname isSpace_blank, t.ofWord_word]

/-- The word that ends the loop. -/
lemma loadLoop_endWord (hc : isSpace c = true) :
    loadLoop (F := F) (k + 1) (endWord ++ c :: l) = .ok ([], c :: l) := by
  simp only [loadLoop, scanWord_append isWord_endWord hc, require_some, ok_bind, if_pos]

/-! ## Trees without sets -/

mutual

/-- A node is read from its text. -/
theorem loadNode_writeTo (n : ConfigNode F) (k : ℕ) (l : List Char) (htext : ∀ m ∈ n.subNodes, m.IsText)
    (hset : ∀ m ∈ n.subNodes, m.IsNoSet) (hfinite : ∀ m ∈ n.subNodes, m.IsFinite)
    (hk : n.writeTo.length < k) :
    loadNode (loadLoop k) (some n.type) n.name (blank :: n.writeTo ++ l) =
      .ok (n.printed, endl :: l) := by
  match n with
  | .primitive s name value =>
    have hscan := s.scan_print (l := l) (hfinite _ (mem_subNodes_self _))
      (htext _ (mem_subNodes_self _)).2 isSpace_endl
    have hload : loadPrimitive s name (blank :: (s.print value ++ [endl]) ++ l) =
        .ok (.primitive s name (s.printed value), endl :: l) := by
      rw [loadPrimitive, List.cons_append, s.scan_cons isSpace_blank, List.append_assoc,
        List.singleton_append, hscan]
      rfl
    cases s with
    | int => exact hload
    | real => exact hload
    | string => exact hload
  | .set s name values => exact absurd (hset _ (mem_subNodes_self _)) id
  | .root name nodes =>
    have hlen : (writeNodes nodes).length + 1 ≤ k := by
      rw [ConfigNode.writeTo] at hk
      simp only [List.length_append, List.length_cons] at hk
      omega
    have hsub : ∀ m ∈ subNodesOf nodes, m ∈ (ConfigNode.root name nodes).subNodes := fun m hm =>
      .tail _ hm
    have hloop := loadLoop_writeNodes nodes k l (fun m hm => htext m (hsub m hm))
      (fun m hm => hset m (hsub m hm)) (fun m hm => hfinite m (hsub m hm)) hlen
    show loadRootNode (loadLoop k) name (blank :: (ConfigNode.root name nodes).writeTo ++ l) = _
    have htextEq : blank :: (ConfigNode.root name nodes).writeTo ++ l =
        blank :: (beginWord ++ endl :: (writeNodes nodes ++ endWord ++ endl :: l)) := by
      rw [ConfigNode.writeTo]
      simp only [List.cons_append, List.append_assoc, List.nil_append]
    simp only [loadRootNode, loadRoot, htextEq, scanWord_cons isSpace_blank,
      scanWord_append isWord_beginWord isSpace_endl, require_some, ok_bind, check_bind,
      loadLoop_cons isSpace_endl, hloop]
    rfl

/-- The sub-nodes of a node are read from their text. -/
theorem loadLoop_writeNodes (nodes : List (ConfigNode F)) (k : ℕ) (l : List Char)
    (htext : ∀ m ∈ subNodesOf nodes, m.IsText) (hset : ∀ m ∈ subNodesOf nodes, m.IsNoSet)
    (hfinite : ∀ m ∈ subNodesOf nodes, m.IsFinite) (hk : (writeNodes nodes).length + 1 ≤ k) :
    loadLoop k (writeNodes nodes ++ endWord ++ endl :: l) = .ok (printedNodes nodes, endl :: l) := by
  match nodes with
  | [] =>
    obtain ⟨k, rfl⟩ : ∃ j, k = j + 1 := ⟨k - 1, by omega⟩
    exact loadLoop_endWord isSpace_endl
  | n :: nodes =>
    obtain ⟨k, rfl⟩ : ∃ j, k = j + 1 := ⟨k - 1, by omega⟩
    have hname := (htext n (List.mem_append_left _ (mem_subNodes_self n))).name
    have hlen : n.writeTo.length + (writeNodes nodes).length + 1 ≤ k := by
      rw [writeNodes] at hk
      simp only [List.length_append, List.length_cons] at hk
      omega
    have hnode := loadNode_writeTo n k (writeNodes nodes ++ endWord ++ endl :: l)
      (fun m hm => htext m (List.mem_append_left _ hm))
      (fun m hm => hset m (List.mem_append_left _ hm))
      (fun m hm => hfinite m (List.mem_append_left _ hm)) (by omega)
    have hloop := loadLoop_writeNodes nodes k l (fun m hm => htext m (List.mem_append_right _ hm))
      (fun m hm => hset m (List.mem_append_right _ hm))
      (fun m hm => hfinite m (List.mem_append_right _ hm)) (by omega)
    have hshape : writeNodes (n :: nodes) ++ endWord ++ endl :: l = n.type.word ++ blank :: n.name ++
        blank :: (n.writeTo ++ (writeNodes nodes ++ endWord ++ endl :: l)) := by
      rw [writeNodes]
      simp only [List.cons_append, List.append_assoc]
    rw [hshape, loadLoop_entry hname, ← List.cons_append, loadFollowing, hnode]
    simp only [ok_bind, loadLoop_cons isSpace_endl, hloop]
    rfl

end

/-! ## Trees with sets -/

/-- A text is not accepted. -/
def Fails {α : Type} (x : Except LoadFault α) : Prop := ∀ r, x ≠ .ok r

lemma fails_error {α : Type} {f : LoadFault} : Fails (.error f : Except LoadFault α) := by
  rintro r ⟨⟩

lemma Fails.bind {α β : Type} {x : Except LoadFault α} {g : α → Except LoadFault β}
    (h : Fails x) : Fails (x >>= g) := by
  intro r hr
  obtain ⟨a, ha, -⟩ := bind_eq_ok.1 hr
  exact h a ha

/-- A bracket is no type. -/
lemma fails_bracket : Fails (loadLoop (F := F) k (blank :: '{' :: blank :: l)) := by
  rw [loadLoop_cons isSpace_blank]
  cases k with
  | zero => exact fails_error
  | succ k =>
    have hword : IsWord ['{'] := .of_isWord (by decide)
    have hscan : scanWord ('{' :: blank :: l) = some (['{'], blank :: l) :=
      scanWord_append hword isSpace_blank
    have hne : ['{'] ≠ endWord := by decide
    have hnone : NodeType.ofWord ['{'] = none := by decide
    simp only [loadLoop, hscan, require_some, ok_bind, if_neg hne, loadNext, hnone]
    cases scanWord (blank :: l) with
    | none => exact fails_error
    | some r => exact fails_error

mutual

/-- The text of a node is not read when there is a set or an infinite number in it. -/
theorem fails_writeTo (n : ConfigNode F) (k : ℕ) (l : List Char)
    (htext : ∀ m ∈ n.subNodes, m.IsText) (hbad : ∃ m ∈ n.subNodes, ¬(m.IsNoSet ∧ m.IsFinite))
    (hk : n.writeTo.length < k) :
    Fails (loadFollowing (F := F) (loadLoop k) (some n.type) n.name (blank :: n.writeTo ++ l)) := by
  obtain ⟨m, hm, hbad⟩ := hbad
  match n with
  | .primitive s name value =>
    obtain rfl := List.mem_singleton.1 hm
    have hfinite : s.finite value = false := by
      rw [← Bool.not_eq_true]
      exact fun h => hbad ⟨trivial, h⟩
    have hscan : s.scan (F := F) (blank :: (s.print value ++ [endl]) ++ l) = none := by
      rw [List.cons_append, s.scan_cons isSpace_blank, List.append_assoc]
      exact s.scan_infinite hfinite
    have hload : Fails (loadPrimitive (F := F) s name (blank :: (s.print value ++ [endl]) ++ l)) := by
      rw [loadPrimitive, hscan]
      exact fails_error
    cases s with
    | int => exact Fails.bind hload
    | real => exact Fails.bind hload
    | string => exact Fails.bind hload
  | .set s name values =>
    obtain ⟨rest, hrest⟩ : ∃ rest, blank :: s.writeSet values ++ l =
        blank :: (printInt (setSize values.length) ++ blank :: '{' :: blank :: rest) := by
      refine ⟨(values.take (setSize values.length).toNat).flatMap
        (fun value => s.print value ++ [blank]) ++ ['}', endl] ++ l, ?_⟩
      rw [Storage.writeSet]
      simp only [List.cons_append, List.append_assoc, List.nil_append]
    obtain ⟨value, hscan⟩ := s.scan_setSize (F := F) (l := '{' :: blank :: rest) values.length
      isSpace_blank
    have hload : loadPrimitive (F := F) s name (blank :: s.writeSet values ++ l) =
        .ok (.primitive s name value, blank :: '{' :: blank :: rest) := by
      rw [loadPrimitive, hrest, s.scan_cons isSpace_blank, hscan]
      rfl
    have hnode : loadNode (loadLoop k) (some (ConfigNode.set s name values).type) name
        (blank :: (ConfigNode.set s name values).writeTo ++ l) =
          .ok (.primitive s name value, blank :: '{' :: blank :: rest) := by
      rw [ConfigNode.writeTo]
      cases s with
      | int => exact hload
      | real => exact hload
      | string => exact hload
    rw [loadFollowing, ConfigNode.name, hnode, ok_bind]
    exact fails_bracket.bind
  | .root name nodes =>
    have hlen : (writeNodes nodes).length < k := by
      rw [ConfigNode.writeTo] at hk
      simp only [List.length_append, List.length_cons] at hk
      omega
    have hsub : m ∈ subNodesOf nodes := by
      rcases List.mem_cons.1 hm with rfl | hm
      · exact absurd ⟨trivial, trivial⟩ hbad
      · exact hm
    have hloop := fails_writeNodes nodes k (endWord ++ endl :: l)
      (fun m hm => htext m (.tail _ hm)) ⟨m, hsub, hbad⟩ hlen
    have hshape : blank :: (ConfigNode.root name nodes).writeTo ++ l =
        blank :: (beginWord ++ endl :: (writeNodes nodes ++ (endWord ++ endl :: l))) := by
      rw [ConfigNode.writeTo]
      simp only [List.cons_append, List.append_assoc, List.nil_append]
    have hload : Fails (loadRootNode (F := F) (loadLoop k) name
        (blank :: (ConfigNode.root name nodes).writeTo ++ l)) := by
      rw [hshape]
      simp only [loadRootNode, loadRoot, scanWord_cons isSpace_blank,
        scanWord_append isWord_beginWord isSpace_endl, require_some, ok_bind, check_bind,
        loadLoop_cons isSpace_endl]
      exact hloop.bind
    exact Fails.bind hload

/-- The text of sub-nodes is not read when there is a set or an infinite number in it. -/
theorem fails_writeNodes (nodes : List (ConfigNode F)) (k : ℕ) (l : List Char)
    (htext : ∀ m ∈ subNodesOf nodes, m.IsText)
    (hbad : ∃ m ∈ subNodesOf nodes, ¬(m.IsNoSet ∧ m.IsFinite))
    (hk : (writeNodes nodes).length < k) :
    Fails (loadLoop (F := F) k (writeNodes nodes ++ l)) := by
  obtain ⟨m, hm, hbad⟩ := hbad
  match nodes with
  | [] => exact absurd hm List.not_mem_nil
  | n :: nodes =>
    obtain ⟨k, rfl⟩ : ∃ j, k = j + 1 := ⟨k - 1, by omega⟩
    have hname := (htext n (List.mem_append_left _ (mem_subNodes_self n))).name
    have hlen : n.writeTo.length + (writeNodes nodes).length < k := by
      rw [writeNodes] at hk
      simp only [List.length_append, List.length_cons] at hk
      omega
    have hshape : writeNodes (n :: nodes) ++ l = n.type.word ++ blank :: n.name ++
        blank :: (n.writeTo ++ (writeNodes nodes ++ l)) := by
      rw [writeNodes]
      simp only [List.cons_append, List.append_assoc]
    rw [hshape, loadLoop_entry hname, ← List.cons_append]
    by_cases hn : ∃ m ∈ n.subNodes, ¬(m.IsNoSet ∧ m.IsFinite)
    · exact fails_writeTo n k _ (fun m hm => htext m (List.mem_append_left _ hm)) hn (by omega)
    · -- the first node is read, and one of the others fails
      have hgood : ∀ m ∈ n.subNodes, m.IsNoSet ∧ m.IsFinite := by
        intro m hm
        by_contra h
        exact hn ⟨m, hm, h⟩
      have hrest : m ∈ subNodesOf nodes := by
        rcases List.mem_append.1 hm with hm | hm
        · exact absurd (hgood m hm) hbad
        · exact hm
      have hloop := fails_writeNodes nodes k l (fun m hm => htext m (List.mem_append_right _ hm))
        ⟨m, hrest, hbad⟩ (by omega)
      rw [loadFollowing, loadNode_writeTo n k _ (fun m hm => htext m (List.mem_append_left _ hm))
        (fun m hm => (hgood m hm).1) (fun m hm => (hgood m hm).2) (by omega), ok_bind]
      simp only [loadLoop_cons isSpace_endl]
      exact hloop.bind

end

/-! ## Trees that have been read -/

/-- A reading function yields what has the property `P`, does not reach the bound, and leaves no
more than the text `l`. -/
def Reading {α : Type} (P : α → Prop) (l : List Char) (x : Except LoadFault (α × List Char)) :
    Prop :=
  x ≠ .error .bound ∧ ∀ r, x = .ok r → P r.1 ∧ r.2.length ≤ l.length

section

variable {α β : Type} {P : α → Prop} {Q : β → Prop} {a : α} {x : Except LoadFault (α × List Char)}

lemma Reading.ok (ha : P a) : Reading P l (.ok (a, l)) := by
  refine ⟨fun h => (nomatch h), ?_⟩
  rintro r ⟨⟩
  exact ⟨ha, Nat.le_refl _⟩

lemma Reading.error {f : LoadFault} (hf : f ≠ .bound) :
    Reading P l (.error f : Except LoadFault (α × List Char)) := by
  refine ⟨fun h => hf (Except.error.inj h), ?_⟩
  rintro r ⟨⟩

lemma Reading.require {o : Option (α × List Char)}
    (ho : ∀ r, o = some r → P r.1 ∧ r.2.length ≤ l.length) : Reading P l (require o) := by
  cases o with
  | none => exact .error (by decide)
  | some r =>
    refine ⟨fun h => (nomatch h), ?_⟩
    rintro r' ⟨⟩
    exact ho r rfl

lemma Reading.bind {g : α × List Char → Except LoadFault (β × List Char)} (hx : Reading P l x)
    (hg : ∀ a l', P a → l'.length ≤ l.length → Reading Q l' (g (a, l'))) :
    Reading Q l (x >>= g) := by
  constructor
  · intro h
    cases x with
    | error f => exact hx.1 (congrArg _ (Except.error.inj h))
    | ok r =>
      obtain ⟨hP, hle⟩ := hx.2 r rfl
      exact (hg r.1 r.2 hP hle).1 h
  · intro r hr
    obtain ⟨⟨a, l'⟩, ha, hr⟩ := bind_eq_ok.1 hr
    obtain ⟨hP, hle⟩ := hx.2 _ ha
    obtain ⟨hQ, hle'⟩ := (hg a l' hP hle).2 r hr
    exact ⟨hQ, hle'.trans hle⟩

lemma Reading.check {p : Prop} [Decidable p]
    (hx : Reading P l x) : Reading P l (check .assertion p >>= fun _ => x) := by
  by_cases hp : p
  · rw [check_bind hp]
    exact hx
  · have hfail : (Lib.check LoadFault.assertion p >>= fun _ => x) = .error .assertion := by
      rw [decide_eq_false hp]
      rfl
    rw [hfail]
    exact .error (by decide)

lemma reading_scanWord : Reading IsWord l (require (scanWord l)) :=
  .require fun _ h => by
    obtain ⟨hword, hlt⟩ := isWord_of_scanWord h
    exact ⟨hword, hlt.le⟩

lemma reading_expect : Reading (fun _ => True) l (expect c l) := by
  have hchar : Reading (fun _ => True) l (require (scanChar l)) :=
    .require fun _ h => ⟨trivial, (length_scanChar_lt h).le⟩
  exact hchar.bind fun a l' _ _ => Reading.check (.ok trivial)

/-- What is read of a text and is finite. -/
def Storage.IsRead (s : Storage) (value : s.Value F) : Prop :=
  s.IsText value ∧ s.finite value = true

lemma reading_scan (s : Storage) : Reading (s.IsRead (F := F)) l (require (s.scan l)) :=
  .require fun _ h => by
    obtain ⟨htext, hfinite, hle⟩ := s.isText_of_scan h
    exact ⟨⟨htext, hfinite⟩, hle⟩

lemma reading_loadValues (s : Storage) : ∀ k (l : List Char),
    Reading (fun values => ∀ value ∈ values, s.IsRead (F := F) value) l (loadValues s k l) := by
  intro k
  induction k with
  | zero =>
    intro l
    exact .ok fun _ h => absurd h List.not_mem_nil
  | succ k ih =>
    intro l
    rw [loadValues]
    refine (reading_scan s).bind fun value l' hvalue _ => (ih l').bind fun values l'' hvalues _ => ?_
    refine .ok fun v hv => ?_
    rcases List.mem_cons.1 hv with rfl | hv
    · exact hvalue
    · exact hvalues v hv

lemma reading_loadSet (s : Storage) :
    Reading (fun values => ∀ value ∈ values, s.IsRead (F := F) value) l (s.loadSet l) := by
  have hsize : Reading (fun _ => True) l (require (scanInt32 l)) := by
    refine .require fun r h => ⟨trivial, ?_⟩
    obtain ⟨⟨i, rest⟩, hscan, h⟩ := Option.bind_eq_some_iff.1 h
    split at h
    · cases h
      exact length_scanInt_le hscan
    · cases h
  rw [Storage.loadSet]
  refine hsize.bind fun size l₁ _ _ => reading_expect.bind fun _ l₂ _ _ => ?_
  refine (reading_loadValues s _ l₂).bind fun values l₃ hvalues _ => ?_
  exact reading_expect.bind fun _ l₄ _ _ => .ok hvalues

end

/-- The names and strings in a tree are words, and its numbers are finite. -/
def IsRead (nodes : List (ConfigNode F)) : Prop := ∀ m ∈ subNodesOf nodes, m.IsText ∧ m.IsFinite

lemma isRead_singleton {n : ConfigNode F} (h : ∀ m ∈ n.subNodes, m.IsText ∧ m.IsFinite) :
    IsRead [n] := by
  intro m hm
  rw [subNodesOf, subNodesOf, List.append_nil] at hm
  exact h m hm

section

variable {loop : Loop F} {name : List Char}

lemma reading_loadPrimitive (s : Storage) (hname : IsWord name) :
    Reading (fun n => IsRead [n]) l (loadPrimitive (F := F) s name l) := by
  refine (reading_scan s).bind fun value l' hvalue _ => .ok (isRead_singleton fun m hm => ?_)
  obtain rfl := List.mem_singleton.1 hm
  exact ⟨⟨hname, hvalue.1⟩, hvalue.2⟩

lemma reading_loadSetNode (s : Storage) (hname : IsWord name) :
    Reading (fun n => IsRead [n]) l (loadSetNode (F := F) s name l) := by
  refine (reading_loadSet s).bind fun values l' hvalues _ => .ok (isRead_singleton fun m hm => ?_)
  obtain rfl := List.mem_singleton.1 hm
  exact ⟨⟨hname, fun value hv => (hvalues value hv).1⟩, fun value hv => (hvalues value hv).2⟩

/-- A loop that reads trees from texts of at most the given length. -/
lemma reading_loadRoot (hloop : ∀ l' : List Char, l'.length ≤ l.length → Reading IsRead l' (loop l')) :
    Reading IsRead l (loadRoot loop l) :=
  reading_scanWord.bind fun _ l' _ hle => Reading.check (hloop l' hle)

lemma reading_loadNode {type : Option NodeType} (hname : IsWord name)
    (hloop : ∀ l' : List Char, l'.length ≤ l.length → Reading IsRead l' (loop l')) :
    Reading (fun n => IsRead [n]) l (loadNode loop type name l) := by
  have hroot : Reading (fun n => IsRead [n]) l (loadRootNode loop name l) := by
    refine (reading_loadRoot hloop).bind fun nodes l' hnodes _ =>
      .ok (isRead_singleton fun m hm => ?_)
    rcases List.mem_cons.1 hm with rfl | hm
    · exact ⟨hname, trivial⟩
    · exact hnodes m hm
  cases type with
  | none => exact .error (by decide)
  | some t =>
    cases t with
    | root => exact hroot
    | int => exact reading_loadPrimitive .int hname
    | real => exact reading_loadPrimitive .real hname
    | string => exact reading_loadPrimitive .string hname
    | intSet => exact reading_loadSetNode .int hname
    | realSet => exact reading_loadSetNode .real hname
    | stringSet => exact reading_loadSetNode .string hname

/-- The loop never reaches its bound, and yields trees whose text can be read. -/
lemma reading_loadLoop : ∀ k (l : List Char), l.length < k →
    Reading (IsRead (F := F)) l (loadLoop k l) := by
  intro k
  induction k with
  | zero => exact fun l h => absurd h (Nat.not_lt_zero _)
  | succ k ih =>
    intro l hk
    rw [loadLoop]
    cases hscan : scanWord l with
    | none => exact .error (by decide)
    | some r =>
      obtain ⟨nodeType, l₁⟩ := r
      obtain ⟨-, hlt⟩ := isWord_of_scanWord hscan
      -- the word that has been read makes the text shorter
      have hloop : ∀ l' : List Char, l'.length ≤ l₁.length → Reading IsRead l' (loadLoop (F := F) k l') :=
        fun l' hle => ih l' (by omega)
      have hnext : Reading (IsRead (F := F)) l₁ (if nodeType = endWord then .ok ([], l₁)
          else loadNext (loadLoop k) nodeType l₁) := by
        split
        · exact .ok fun _ h => absurd h List.not_mem_nil
        · refine reading_scanWord.bind fun name l₂ hname hle₂ => ?_
          refine (reading_loadNode hname fun l' hle => hloop l' (hle.trans hle₂)).bind
            fun n l₃ hn hle₃ => ?_
          refine (hloop l₃ (hle₃.trans hle₂)).bind fun nodes l₄ hnodes _ => .ok fun m hm => ?_
          rcases List.mem_append.1 hm with hm | hm
          · exact hn m (List.mem_append_left _ hm)
          · exact hnodes m hm
      exact ⟨hnext.1, fun r hr => ⟨(hnext.2 r hr).1, (hnext.2 r hr).2.trans hlt.le⟩⟩

/-- `LoadFrom` yields trees whose text can be read. -/
lemma reading_loadFrom : Reading (IsRead (F := F)) l (loadFrom l) :=
  reading_loadRoot fun l' hle => reading_loadLoop _ l' (Nat.lt_succ_of_le hle)

end

/-! ## Round trips -/

/-- The text that is written for a root is accepted, and yields its sub-nodes with their real
numbers at the precision with which they are printed. -/
def RoundTrips (name : List Char) (nodes : List (ConfigNode F)) : Prop :=
  ∃ l, loadFrom (ConfigNode.root name nodes).writeTo = .ok (printedNodes nodes, l)

variable {name : List Char} {nodes : List (ConfigNode F)}

lemma loadFrom_writeTo : loadFrom (F := F) (ConfigNode.root name nodes).writeTo =
    loadLoop ((ConfigNode.root name nodes).writeTo.length + 1)
      (writeNodes nodes ++ endWord ++ endl :: []) := by
  have hshape : (ConfigNode.root name nodes).writeTo =
      beginWord ++ endl :: (writeNodes nodes ++ endWord ++ endl :: []) := by
    rw [ConfigNode.writeTo]
    simp only [List.append_assoc, List.cons_append]
  rw [loadFrom, loadRoot]
  simp only [hshape, scanWord_append isWord_beginWord isSpace_endl, require_some, ok_bind,
    check_bind, loadLoop_cons isSpace_endl]

lemma length_writeNodes_lt :
    (writeNodes nodes).length < (ConfigNode.root name nodes).writeTo.length := by
  rw [ConfigNode.writeTo]
  simp only [List.length_append, List.length_cons]
  omega

/-- A tree whose names and strings are words makes the round trip if and only if it has no set and
no infinite number. -/
lemma roundTrips_iff (htext : ∀ m ∈ subNodesOf nodes, m.IsText) :
    RoundTrips name nodes ↔ ∀ m ∈ subNodesOf nodes, m.IsNoSet ∧ m.IsFinite := by
  have hlen : (writeNodes nodes).length < (ConfigNode.root name nodes).writeTo.length :=
    length_writeNodes_lt
  rw [RoundTrips, loadFrom_writeTo]
  constructor
  · rintro ⟨l, hl⟩ m hm
    by_contra hbad
    rw [List.append_assoc] at hl
    exact fails_writeNodes nodes _ _ htext ⟨m, hm, hbad⟩ (by omega) _ hl
  · intro h
    exact ⟨_, loadLoop_writeNodes nodes _ _ htext (fun m hm => (h m hm).1) (fun m hm => (h m hm).2)
      (by omega)⟩

/-- Trees make the round trip exactly when there is no set and no infinite number in them; those that
have been read from a text, exactly when there is no set in them. -/
theorem roundTrips_iff_isNoSet (F : RealFormat) :
    (∀ name (nodes : List (ConfigNode F)), (∀ m ∈ subNodesOf nodes, m.IsText) →
      (RoundTrips name nodes ↔ ∀ m ∈ subNodesOf nodes, m.IsNoSet ∧ m.IsFinite)) ∧
    ∀ text (nodes : List (ConfigNode F)) rest name, loadFrom text = .ok (nodes, rest) →
      (RoundTrips name nodes ↔ ∀ m ∈ subNodesOf nodes, m.IsNoSet) := by
  refine ⟨fun name nodes htext => roundTrips_iff htext, fun text nodes rest name hload => ?_⟩
  have hread : IsRead nodes := (reading_loadFrom.2 _ hload).1
  rw [roundTrips_iff fun m hm => (hread m hm).1]
  constructor
  · intro h m hm
    exact (h m hm).1
  · intro h m hm
    exact ⟨h m hm, (hread m hm).2⟩

/-! ## Two trees -/

/-- Real numbers that are integers, and one that is infinite. -/
def integers : RealFormat where
  Real := Option ℤ
  finite := Option.isSome
  print r := r.elim ['i', 'n', 'f'] printInt
  scan l := (scanInt l).map fun r => (some r.1, r.2)
  printed := id
  isWord_print r := by
    cases r with
    | none => exact .of_isWord (by decide)
    | some i => exact isWord_printInt i
  scan_print r c l hr hc := by
    cases r with
    | none => cases hr
    | some i =>
      show (scanInt (printInt i ++ c :: l)).map _ = _
      rw [scanInt_printInt i hc]
      rfl
  scan_infinite r l hr := by
    cases r with
    | none => rfl
    | some i => cases hr
  scan_int i c l hc := by
    rw [scanInt_printInt i.toInt hc]
    exact ⟨_, rfl⟩
  finite_scan l r l' h := by
    obtain ⟨⟨i, rest⟩, -, h⟩ := Option.map_eq_some_iff.1 h
    cases h
    rfl
  length_scan l r l' h := by
    obtain ⟨⟨i, rest⟩, hscan, h⟩ := Option.map_eq_some_iff.1 h
    cases h
    exact length_scanInt_le hscan

/-- A node with the real number 3, and a node with a string in a sub-node. -/
def plainNodes : List (ConfigNode integers) :=
  [RealConfigNode ['r'] (some 3), .root ['s'] [StringConfigNode ['t'] ['a', 'b']]]

theorem roundTrips_plainNodes : RoundTrips ['c'] plainNodes := by
  refine ((roundTrips_iff_isNoSet integers).1 ['c'] plainNodes fun m hm => ?_).2 fun m hm => ?_
  · rcases List.mem_cons.1 hm with rfl | hm
    · exact ⟨.of_isWord (by decide), trivial⟩
    rcases List.mem_cons.1 hm with rfl | hm
    · exact IsWord.of_isWord (by decide)
    obtain rfl := List.mem_singleton.1 hm
    exact ⟨.of_isWord (by decide), .of_isWord (by decide)⟩
  · rcases List.mem_cons.1 hm with rfl | hm
    · exact ⟨trivial, rfl⟩
    rcases List.mem_cons.1 hm with rfl | hm
    · exact ⟨trivial, trivial⟩
    obtain rfl := List.mem_singleton.1 hm
    exact ⟨trivial, rfl⟩

/-- The set of 1 and 2. -/
def setNodes : List (ConfigNode integers) := [IntSetConfigNode ['x'] [1, 2]]

/-- What is written for the set is refused. -/
theorem not_roundTrips_setNodes : (∀ m ∈ subNodesOf setNodes, m.IsText) ∧
    loadFrom (F := integers) (ConfigNode.root ['c'] setNodes).writeTo = .error .assertion ∧
    ¬RoundTrips ['c'] setNodes := by
  have hload : failsWith (loadFrom (F := integers) (ConfigNode.root ['c'] setNodes).writeTo)
      .assertion = true := by
    decide +kernel
  have hfails := failsWith_iff.1 hload
  refine ⟨fun m hm => ?_, hfails, fun ⟨l, hl⟩ => ?_⟩
  · obtain rfl := List.mem_singleton.1 hm
    exact ⟨.of_isWord (by decide), fun _ _ => trivial⟩
  · rw [hfails] at hl
    cases hl

end Sesc.Config
