import Mathlib.Data.Int.Notation
import Mathlib.Data.List.TakeWhile
import Mathlib.Tactic.Common

/-!
# Words and numbers in a text

A text is read from the left: a reading function skips white space, and answers what it has read
and what is left of the text, or nothing when it cannot read.
-/

namespace Sesc.Lib

variable {c : Char} {l l' w : List Char} {i : ℤ}

/-- White space: a blank, or one of the control characters from the tabulator to the carriage
return. -/
def isSpace (c : Char) : Bool := c.toNat = 32 || 9 ≤ c.toNat && c.toNat ≤ 13

/-- What follows the white space at the beginning of a text. -/
def skipSpace (l : List Char) : List Char := l.dropWhile isSpace

/-- A word is not empty and has no white space. -/
structure IsWord (w : List Char) : Prop where
  ne_nil : w ≠ []
  not_isSpace : ∀ c ∈ w, isSpace c = false

/-- A test for words. -/
def isWord (w : List Char) : Bool := !w.isEmpty && w.all fun c => !isSpace c

lemma IsWord.of_isWord (h : isWord w = true) : IsWord w := by
  rw [isWord, Bool.and_eq_true, Bool.not_eq_true', List.isEmpty_eq_false_iff] at h
  exact ⟨h.1, fun c hc => (Bool.not_eq_true' _).mp (List.all_eq_true.1 h.2 c hc)⟩

/-- The next character. -/
def scanChar (l : List Char) : Option (Char × List Char) :=
  match skipSpace l with
  | [] => none
  | c :: l => some (c, l)

/-- The next word. -/
def scanWord (l : List Char) : Option (List Char × List Char) :=
  if skipSpace l = [] then none
  else some ((skipSpace l).takeWhile (!isSpace ·), (skipSpace l).dropWhile (!isSpace ·))

/-- The digits at the beginning of a text. -/
def scanDigits (l : List Char) : Option (ℕ × List Char) :=
  if l.takeWhile Char.isDigit = [] then none
  else some (Nat.ofDigitChars 10 (l.takeWhile Char.isDigit) 0, l.dropWhile Char.isDigit)

/-- The next integer: digits, which a sign may precede. -/
def scanInt (l : List Char) : Option (ℤ × List Char) :=
  match skipSpace l with
  | [] => none
  | c :: l =>
    if c = '-' then (scanDigits l).map fun r => (-(r.1 : ℤ), r.2)
    else if c = '+' then (scanDigits l).map fun r => ((r.1 : ℤ), r.2)
    else (scanDigits (c :: l)).map fun r => ((r.1 : ℤ), r.2)

/-- The digits of an integer, after a sign if it is negative. -/
def printInt (i : ℤ) : List Char :=
  if i < 0 then '-' :: Nat.toDigits 10 i.natAbs else Nat.toDigits 10 i.natAbs

/-! ## White space -/

@[simp] lemma skipSpace_cons (hc : isSpace c = true) : skipSpace (c :: l) = skipSpace l :=
  List.dropWhile_cons_of_pos hc

lemma skipSpace_of_not (hc : isSpace c = false) : skipSpace (c :: l) = c :: l :=
  List.dropWhile_cons_of_neg (by rw [hc]; exact Bool.false_ne_true)

lemma length_skipSpace_le : (skipSpace l).length ≤ l.length := (List.dropWhile_suffix _).length_le

lemma IsWord.skipSpace (hw : IsWord w) : skipSpace (w ++ l) = w ++ l := by
  cases w with
  | nil => exact absurd rfl hw.ne_nil
  | cons c w => exact skipSpace_of_not (hw.not_isSpace c List.mem_cons_self)

/-! ## Words -/

@[simp] lemma scanWord_cons (hc : isSpace c = true) : scanWord (c :: l) = scanWord l := by
  rw [scanWord, skipSpace_cons hc, scanWord]

/-- A word that white space follows is read. -/
lemma scanWord_append (hw : IsWord w) (hc : isSpace c = true) :
    scanWord (w ++ c :: l) = some (w, c :: l) := by
  have hall : ∀ a ∈ w, (!isSpace a) = true := fun a ha => by rw [hw.not_isSpace a ha]; rfl
  have hne : w ++ c :: l ≠ [] := fun h => hw.ne_nil (List.append_eq_nil_iff.1 h).1
  rw [scanWord, hw.skipSpace, if_neg hne,
    List.takeWhile_append_of_pos hall, List.dropWhile_append_of_pos hall,
    List.takeWhile_cons_of_neg (by rw [hc]; exact Bool.false_ne_true),
    List.dropWhile_cons_of_neg (by rw [hc]; exact Bool.false_ne_true), List.append_nil]

/-- What has been read is a word, and the text has become shorter. -/
lemma isWord_of_scanWord (h : scanWord l = some (w, l')) : IsWord w ∧ l'.length < l.length := by
  rw [scanWord] at h
  split at h
  · cases h
  · rename_i hne
    rw [Option.some.injEq, Prod.mk.injEq] at h
    obtain ⟨rfl, rfl⟩ := h
    obtain ⟨c, rest, hrest⟩ := List.exists_cons_of_ne_nil hne
    have hc : isSpace c = false := by
      have hhead := List.head_dropWhile_not isSpace (l := l) hne
      have hc : (skipSpace l).head hne = c := by simp only [hrest, List.head_cons]
      rw [← hc]
      exact hhead
    have hpos : (!isSpace c) = true := by
      rw [hc]
      rfl
    refine ⟨⟨?_, fun a ha => ?_⟩, ?_⟩
    · rw [hrest, List.takeWhile_cons_of_pos (p := fun a => !isSpace a) hpos]
      exact List.cons_ne_nil _ _
    · have ha := List.mem_takeWhile_imp ha
      rwa [Bool.not_eq_true'] at ha
    · rw [hrest, List.dropWhile_cons_of_pos (p := fun a => !isSpace a) hpos]
      have hlen : (c :: rest).length ≤ l.length := hrest ▸ length_skipSpace_le
      exact Nat.lt_of_lt_of_le (Nat.lt_succ_of_le (List.dropWhile_suffix _).length_le) hlen

/-! ## Numbers -/

lemma isDigit_iff : c.isDigit = true ↔ 48 ≤ c.toNat ∧ c.toNat ≤ 57 := by
  rw [Char.isDigit, Bool.and_eq_true, decide_eq_true_eq, decide_eq_true_eq]
  exact Iff.rfl

lemma isSpace_iff : isSpace c = true ↔ c.toNat = 32 ∨ 9 ≤ c.toNat ∧ c.toNat ≤ 13 := by
  rw [isSpace, Bool.or_eq_true, Bool.and_eq_true, decide_eq_true_eq, decide_eq_true_eq,
    decide_eq_true_eq]

lemma isDigit_of_isSpace (hc : isSpace c = true) : c.isDigit = false := by
  rw [Bool.eq_false_iff]
  intro hdigit
  have hc := isSpace_iff.1 hc
  have hdigit := isDigit_iff.1 hdigit
  omega

lemma isSpace_of_isDigit (hc : c.isDigit = true) : isSpace c = false := by
  rw [Bool.eq_false_iff]
  intro hspace
  rw [isDigit_of_isSpace hspace] at hc
  exact Bool.false_ne_true hc

lemma isDigit_of_mem_toDigits {n : ℕ} (hc : c ∈ Nat.toDigits 10 n) : c.isDigit = true :=
  Nat.isDigit_of_mem_toDigits (by decide) (by decide) hc

lemma scanDigits_toDigits (n : ℕ) (hc : c.isDigit = false) :
    scanDigits (Nat.toDigits 10 n ++ c :: l) = some (n, c :: l) := by
  have hall : ∀ a ∈ Nat.toDigits 10 n, a.isDigit = true := fun a ha => isDigit_of_mem_toDigits ha
  have hneg : ¬c.isDigit = true := by rw [hc]; exact Bool.false_ne_true
  have htake : (Nat.toDigits 10 n ++ c :: l).takeWhile Char.isDigit = Nat.toDigits 10 n := by
    rw [List.takeWhile_append_of_pos hall, List.takeWhile_cons_of_neg hneg, List.append_nil]
  rw [scanDigits, htake, if_neg Nat.toDigits_ne_nil, List.dropWhile_append_of_pos hall,
    List.dropWhile_cons_of_neg hneg, Nat.ofDigitChars_ten_toDigits]

/-- Every character of a printed integer is a digit or the sign. -/
lemma mem_printInt (hc : c ∈ printInt i) : c = '-' ∨ c.isDigit = true := by
  rw [printInt] at hc
  split at hc
  · rcases List.mem_cons.1 hc with rfl | hc
    · exact .inl rfl
    · exact .inr (isDigit_of_mem_toDigits hc)
  · exact .inr (isDigit_of_mem_toDigits hc)

lemma isWord_printInt (i : ℤ) : IsWord (printInt i) where
  ne_nil := by
    rw [printInt]
    split
    · exact List.cons_ne_nil _ _
    · exact Nat.toDigits_ne_nil
  not_isSpace c hc := by
    rcases mem_printInt hc with rfl | hc
    · decide
    · exact isSpace_of_isDigit hc

/-- An integer that white space follows is read. -/
lemma scanInt_printInt (i : ℤ) (hc : isSpace c = true) :
    scanInt (printInt i ++ c :: l) = some (i, c :: l) := by
  have hdigits := scanDigits_toDigits (l := l) i.natAbs (isDigit_of_isSpace hc)
  rw [scanInt, (isWord_printInt i).skipSpace, printInt]
  split
  · rename_i h
    split at h
    · cases h
    · exact absurd (List.append_eq_nil_iff.1 h).1 Nat.toDigits_ne_nil
  · rename_i a l' h
    split at h
    · rename_i hneg
      obtain ⟨rfl, rfl⟩ := List.cons.inj h
      rw [if_pos rfl]
      show (scanDigits (Nat.toDigits 10 i.natAbs ++ c :: l)).map _ = _
      rw [hdigits, Option.map_some]
      congr 2
      omega
    · rename_i hpos
      have ha : a.isDigit = true := by
        obtain ⟨d, ds, hds⟩ :=
          List.exists_cons_of_ne_nil (Nat.toDigits_ne_nil (n := i.natAbs) (b := 10))
        rw [hds] at h
        rw [← (List.cons.inj h).1]
        exact isDigit_of_mem_toDigits (hds ▸ List.mem_cons_self)
      rw [if_neg (by rintro rfl; exact absurd ha (by decide)),
        if_neg (by rintro rfl; exact absurd ha (by decide)), ← h, hdigits, Option.map_some]
      congr 2
      omega

lemma length_scanInt_le (h : scanInt l = some (i, l')) : l'.length ≤ l.length := by
  have hdigits : ∀ {l₀ : List Char} {n : ℕ}, scanDigits l₀ = some (n, l') → l'.length ≤ l₀.length := by
    intro l₀ n h
    rw [scanDigits] at h
    split at h
    · cases h
    · cases h
      exact (List.dropWhile_suffix _).length_le
  have hskip : (skipSpace l).length ≤ l.length := length_skipSpace_le
  rw [scanInt] at h
  split at h
  · cases h
  · rename_i c l₁ hl₁
    rw [hl₁, List.length_cons] at hskip
    split at h
    · obtain ⟨⟨n, rest⟩, hr, heq⟩ := Option.map_eq_some_iff.1 h
      cases heq
      have hle := hdigits hr
      omega
    · split at h
      · obtain ⟨⟨n, rest⟩, hr, heq⟩ := Option.map_eq_some_iff.1 h
        cases heq
        have hle := hdigits hr
        omega
      · obtain ⟨⟨n, rest⟩, hr, heq⟩ := Option.map_eq_some_iff.1 h
        cases heq
        have hle := hdigits hr
        rw [List.length_cons] at hle
        omega

lemma length_scanChar_lt (h : scanChar l = some (c, l')) : l'.length < l.length := by
  have hskip : (skipSpace l).length ≤ l.length := length_skipSpace_le
  rw [scanChar] at h
  split at h
  · cases h
  · rename_i hl
    cases h
    rw [hl, List.length_cons] at hskip
    omega

end Sesc.Lib
