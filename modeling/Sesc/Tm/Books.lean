import Mathlib.Logic.Relation
import Sesc.Tm.System

/-!
# The books of the transactions

What the counters of the transactions depend on, and the entries that the functions of the
interface make in it.  A transaction is counted for its accesses that are not retired and for
its children that are not resolved.
-/

namespace Sesc.Tm

open Lib Sesc.Trans

/-- The part of the state that the accounting is about. -/
structure Books where
  accessSet : Table StoredAccess.stamp
  transRecordSet : Table TransRecord.transactionID
  globalTransactionID : Level
  countedUp : List Level
  countedDown : List Level

def TMInterface.books (s : TMInterface) : Books where
  accessSet := s.accessSet
  transRecordSet := s.transRecordSet
  globalTransactionID := s.globalTransactionID
  countedUp := s.countedUp
  countedDown := s.countedDown

/-- The counter of a transaction is changed; the transaction 0 has none. -/
def addTo (t : Table TransRecord.transactionID) (id : Level) (n : ℤ) :
    Table TransRecord.transactionID :=
  if id = 0 then t else countIn t id n

/-- The number of the accesses of a transaction that are not retired. -/
def unretiredIn (t : Table StoredAccess.stamp) (id : Level) : ℕ :=
  t.count fun a => a.transactionEntry = id && !a.retired

/-- The number of the children of a transaction that are not resolved. -/
def unresolvedIn (t : Table TransRecord.transactionID) (id : Level) : ℕ :=
  t.count fun tr => tr.parentTransactionID = id && !tr.resolved

/-- A transaction has begun and is not resolved. -/
def PendingIn (t : Table TransRecord.transactionID) (id : Level) : Prop :=
  ∃ tr, t.find id = some tr ∧ tr.resolved = false

/-- The counters of the transactions are right. -/
def AccountedIn (accesses : Table StoredAccess.stamp) (t : Table TransRecord.transactionID) :
    Prop :=
  ∀ id tr, t.find id = some tr → tr.accessCounter = unretiredIn accesses id + unresolvedIn t id

/-- The transaction that a pending end returns to is the parent. -/
def TransRecord.EndsInParent (tr : TransRecord) : Prop :=
  ∀ op, tr.transEndOp = some op → op.newTransactionEntry = tr.parentTransactionID

/-- The entries that are made in the books. -/
inductive Entry : Books → Books → Prop
  /-- A record changes in what the accounting does not see. -/
  | relabel {b : Books} {id : Level} {f : TransRecord → TransRecord}
      {g : ∀ tr, (f tr).transactionID = tr.transactionID}
      (same : ∀ tr, b.transRecordSet.find id = some tr →
        (f tr).accessCounter = tr.accessCounter ∧
          (f tr).parentTransactionID = tr.parentTransactionID ∧ (f tr).resolved = tr.resolved ∧
          (tr.EndsInParent → (f tr).EndsInParent)) :
      Entry b { b with transRecordSet := b.transRecordSet.modify id f g }
  | access {b : Books} {a : StoredAccess} (new : b.accessSet.find a.stamp = none)
      (unretired : a.retired = false)
      (present : a.transactionEntry ≠ 0 → b.transRecordSet.find a.transactionEntry ≠ none) :
      Entry b { b with
        accessSet := b.accessSet.insert a
        transRecordSet := addTo b.transRecordSet a.transactionEntry 1 }
  | begins {b : Books} {pid : Pid} {parent dependant : Level} (nonzero : b.globalTransactionID ≠ 0)
      (present : parent ≠ 0 → (b.transRecordSet.insert
        (.new pid b.globalTransactionID parent dependant)).find parent ≠ none) :
      Entry b { b with
        transRecordSet := addTo (b.transRecordSet.insert
          (.new pid b.globalTransactionID parent dependant)) parent 1
        globalTransactionID := (b.globalTransactionID + 1) % 4294967296
        countedUp := if parent = 0 then b.countedUp
          else b.countedUp ++ [b.globalTransactionID] }
  | resolve {b : Books} {tr : TransRecord} {committed : Bool}
      (found : b.transRecordSet.find tr.transactionID = some tr)
      (unresolved : tr.resolved = false) :
      Entry b { b with
        transRecordSet := resolveIn (addTo b.transRecordSet tr.parentTransactionID (-1))
          tr.transactionID committed
        countedDown := if tr.parentTransactionID = 0 then b.countedDown
          else b.countedDown ++ [tr.transactionID] }
  | retire {b : Books} {a : StoredAccess} (found : b.accessSet.find a.stamp = some a)
      (unretired : a.retired = false) :
      Entry b { b with
        accessSet := retireIn b.accessSet a.stamp
        transRecordSet := addTo b.transRecordSet a.transactionEntry (-1) }
  | erase {b : Books} {tr : TransRecord} (found : b.transRecordSet.find tr.transactionID = some tr)
      (resolved : tr.resolved = true) :
      Entry b { b with transRecordSet := b.transRecordSet.erase tr.transactionID }
  | destroy {b : Books} {a : StoredAccess} (found : b.accessSet.find a.stamp = some a)
      (retired : a.retired = true) :
      Entry b { b with accessSet := b.accessSet.erase a.stamp }

/-! ## What the entries keep -/

/-- The counters stay right when they change as the accesses and the children do. -/
lemma AccountedIn.of_balance {accesses accesses' : Table StoredAccess.stamp}
    {t t' : Table TransRecord.transactionID} (h : AccountedIn accesses t)
    (hstep : ∀ id tr', t'.find id = some tr' → ∃ tr, t.find id = some tr ∧
      tr'.accessCounter + unretiredIn accesses id + unresolvedIn t id =
        tr.accessCounter + unretiredIn accesses' id + unresolvedIn t' id) :
    AccountedIn accesses' t' := by
  intro id tr' htr'
  obtain ⟨tr, htr, hbalance⟩ := hstep id tr' htr'
  have := h id tr htr
  omega

section

variable {t : Table TransRecord.transactionID} {id j : Level} {n : ℤ} {tr : TransRecord}
  {committed : Bool}

lemma find_addTo : (addTo t id n).find j = (t.find j).map fun tr =>
    if j = id ∧ id ≠ 0 then { tr with accessCounter := tr.accessCounter + n } else tr := by
  rw [addTo]
  by_cases hid : id = 0
  · simp [hid]
  · rw [if_neg hid, countIn, Table.find_modify]
    by_cases hj : j = id <;> simp [hj, hid]

/-- A record of the changed table is one of the old table with another counter. -/
lemma exists_of_find_addTo (h : (addTo t id n).find j = some tr) :
    ∃ tr', t.find j = some tr' ∧
      tr.accessCounter = tr'.accessCounter + (if j = id ∧ id ≠ 0 then n else 0) ∧
      tr.parentTransactionID = tr'.parentTransactionID ∧
      (tr'.EndsInParent → tr.EndsInParent) := by
  rw [find_addTo, Option.map_eq_some_iff] at h
  obtain ⟨tr', htr', rfl⟩ := h
  refine ⟨tr', htr', ?_⟩
  split
  · exact ⟨rfl, rfl, fun h => h⟩
  · exact ⟨(Int.add_zero _).symm, rfl, fun h => h⟩

lemma exists_find_addTo (id : Level) (n : ℤ) (h : t.find j = some tr) :
    ∃ tr', (addTo t id n).find j = some tr' ∧
      tr'.parentTransactionID = tr.parentTransactionID ∧ tr'.resolved = tr.resolved := by
  rw [find_addTo, h, Option.map_some]
  split
  · exact ⟨_, rfl, rfl, rfl⟩
  · exact ⟨_, rfl, rfl, rfl⟩

@[simp] lemma unresolvedIn_addTo : unresolvedIn (addTo t id n) j = unresolvedIn t j := by
  rw [addTo]
  split
  · rfl
  · exact Table.count_modify_of_eq fun _ _ => rfl

/-- A change of a record that keeps it resolved or unresolved. -/
lemma pendingIn_modify {f : TransRecord → TransRecord}
    {g : ∀ tr, (f tr).transactionID = tr.transactionID}
    (h : ∀ tr, t.find id = some tr → (f tr).resolved = tr.resolved) :
    PendingIn (t.modify id f g) j ↔ PendingIn t j := by
  rw [PendingIn, PendingIn, Table.find_modify]
  split
  · rename_i hj
    subst hj
    constructor
    · rintro ⟨tr, htr, hpending⟩
      obtain ⟨tr', htr', rfl⟩ := Option.map_eq_some_iff.1 htr
      exact ⟨tr', htr', (h tr' htr').symm.trans hpending⟩
    · rintro ⟨tr, htr, hpending⟩
      exact ⟨f tr, by rw [htr, Option.map_some], (h tr htr).trans hpending⟩
  · rfl

@[simp] lemma pendingIn_addTo : PendingIn (addTo t id n) j ↔ PendingIn t j := by
  rw [addTo]
  split
  · rfl
  · exact pendingIn_modify fun _ _ => rfl

lemma pendingIn_resolveIn : PendingIn (resolveIn t id committed) j ↔ j ≠ id ∧ PendingIn t j := by
  rw [PendingIn, PendingIn, resolveIn, Table.find_modify]
  split
  · rename_i hj
    refine iff_of_false ?_ fun h => h.1 hj
    rintro ⟨tr, htr, hpending⟩
    obtain ⟨tr', -, rfl⟩ := Option.map_eq_some_iff.1 htr
    cases hpending
  · rename_i hj
    exact (and_iff_right hj).symm

/-- One child less is unresolved. -/
lemma unresolvedIn_resolveIn (j : Level) (committed : Bool) {tr : TransRecord} (found : t.find id = some tr)
    (unresolved : tr.resolved = false) :
    unresolvedIn (resolveIn t id committed) j + (if tr.parentTransactionID = j then 1 else 0) =
      unresolvedIn t j := by
  have h := Table.count_modify (f := fun tr => { tr with resolved := true, committed := committed })
    (g := fun _ => rfl) (p := fun tr => tr.parentTransactionID = j && !tr.resolved) found
  rw [unresolvedIn, unresolvedIn, resolveIn]
  by_cases hj : tr.parentTransactionID = j
  · simp [hj, unresolved] at h
    simp [hj, h]
  · simp [hj, unresolved] at h
    simp [hj, h]

end

namespace Books

/-- A new transaction is unknown, since its identifier is greater than all others. -/
structure Registered (b : Books) : Prop where
  bound : b.globalTransactionID < 4294967296
  find_zero : b.transRecordSet.find 0 = none
  record_lt : b.globalTransactionID ≠ 0 → ∀ id tr, b.transRecordSet.find id = some tr →
    id < b.globalTransactionID ∧ tr.parentTransactionID < b.globalTransactionID
  access_lt : b.globalTransactionID ≠ 0 → ∀ stamp a, b.accessSet.find stamp = some a →
    a.transactionEntry < b.globalTransactionID
  countedUp_lt : b.globalTransactionID ≠ 0 → ∀ id ∈ b.countedUp, id < b.globalTransactionID
  endsInParent : ∀ id tr, b.transRecordSet.find id = some tr → tr.EndsInParent
  /-- The children are those that have been counted up. -/
  nested : ∀ id tr, b.transRecordSet.find id = some tr →
    (tr.parentTransactionID ≠ 0 ↔ id ∈ b.countedUp)

/-- A child has been counted down once when it is resolved, and not at all before. -/
structure CountedOnce (b : Books) : Prop where
  resolved : ∀ id ∈ b.countedUp, ¬PendingIn b.transRecordSet id → b.countedDown.count id = 1
  pending : ∀ id, PendingIn b.transRecordSet id ∨ id ∉ b.countedUp → b.countedDown.count id = 0

/-- The books are in order. -/
structure Kept (b : Books) : Prop where
  registered : b.Registered
  accounted : AccountedIn b.accessSet b.transRecordSet
  countedOnce : b.CountedOnce

variable {b b' : Books}

/-- Records and accesses may go, and records may change apart from their parents. -/
lemma Registered.mono (hb : b.Registered) (hg : b'.globalTransactionID = b.globalTransactionID)
    (hup : b'.countedUp = b.countedUp)
    (hrecord : ∀ id tr, b'.transRecordSet.find id = some tr → ∃ tr',
      b.transRecordSet.find id = some tr' ∧ tr.parentTransactionID = tr'.parentTransactionID ∧
        (tr'.EndsInParent → tr.EndsInParent))
    (haccess : ∀ stamp a, b'.accessSet.find stamp = some a →
      (∃ a', b.accessSet.find stamp = some a' ∧ a.transactionEntry = a'.transactionEntry) ∨
        (a.transactionEntry ≠ 0 → b.transRecordSet.find a.transactionEntry ≠ none)) :
    b'.Registered where
  bound := by rw [hg]; exact hb.bound
  find_zero := by
    cases h : b'.transRecordSet.find 0 with
    | none => rfl
    | some tr =>
      obtain ⟨tr', htr', -⟩ := hrecord 0 tr h
      rw [hb.find_zero] at htr'
      cases htr'
  record_lt := by
    rw [hg]
    intro hne id tr htr
    obtain ⟨tr', htr', hparent, -⟩ := hrecord id tr htr
    rw [hparent]
    exact hb.record_lt hne id tr' htr'
  access_lt := by
    rw [hg]
    intro hne stamp a ha
    rcases haccess stamp a ha with ⟨a', ha', hentry⟩ | hpresent
    · rw [hentry]
      exact hb.access_lt hne stamp a' ha'
    · by_cases hzero : a.transactionEntry = 0
      · rw [hzero]
        exact Nat.pos_of_ne_zero hne
      · obtain ⟨tr, htr⟩ := Option.ne_none_iff_exists'.1 (hpresent hzero)
        exact (hb.record_lt hne _ tr htr).1
  countedUp_lt := by
    rw [hg, hup]
    exact hb.countedUp_lt
  endsInParent := by
    intro id tr htr
    obtain ⟨tr', htr', -, hends⟩ := hrecord id tr htr
    exact hends (hb.endsInParent id tr' htr')
  nested := by
    intro id tr htr
    obtain ⟨tr', htr', hparent, -⟩ := hrecord id tr htr
    rw [hparent, hup]
    exact hb.nested id tr' htr'

lemma Registered.ne_zero (hb : b.Registered) {id : Level} {tr : TransRecord}
    (h : b.transRecordSet.find id = some tr) : id ≠ 0 := by
  rintro rfl
  rw [hb.find_zero] at h
  cases h

/-- Nothing is resolved or begins. -/
lemma CountedOnce.congr (hb : b.CountedOnce) (hup : b'.countedUp = b.countedUp)
    (hdown : b'.countedDown = b.countedDown) (hpending : ∀ id, PendingIn b'.transRecordSet id ↔ PendingIn b.transRecordSet id) :
    b'.CountedOnce where
  resolved id := by
    rw [hup, hdown, hpending]
    exact hb.resolved id
  pending id := by
    rw [hup, hdown, hpending]
    exact hb.pending id

/-! ### Relabelling -/

section

variable {id : Level} {f : TransRecord → TransRecord}
  {g : ∀ tr, (f tr).transactionID = tr.transactionID}

lemma Kept.relabel (hb : b.Kept)
    (same : ∀ tr, b.transRecordSet.find id = some tr →
      (f tr).accessCounter = tr.accessCounter ∧
        (f tr).parentTransactionID = tr.parentTransactionID ∧ (f tr).resolved = tr.resolved ∧
        (tr.EndsInParent → (f tr).EndsInParent)) :
    Kept { b with transRecordSet := b.transRecordSet.modify id f g } := by
  have hback : ∀ j tr, (b.transRecordSet.modify id f g).find j = some tr →
      ∃ tr', b.transRecordSet.find j = some tr' ∧ tr.accessCounter = tr'.accessCounter ∧
        tr.parentTransactionID = tr'.parentTransactionID ∧ (tr'.EndsInParent → tr.EndsInParent) := by
    intro j tr htr
    rw [Table.find_modify] at htr
    split at htr
    · rename_i hj
      subst hj
      obtain ⟨tr', htr', rfl⟩ := Option.map_eq_some_iff.1 htr
      obtain ⟨hcounter, hparent, -, hends⟩ := same tr' htr'
      exact ⟨tr', htr', hcounter, hparent, hends⟩
    · exact ⟨tr, htr, rfl, rfl, fun h => h⟩
  refine ⟨?_, ?_, ?_⟩
  · refine hb.registered.mono rfl rfl ?_ fun stamp a ha => .inl ⟨a, ha, rfl⟩
    intro j tr htr
    obtain ⟨tr', htr', -, hparent, hends⟩ := hback j tr htr
    exact ⟨tr', htr', hparent, hends⟩
  · refine hb.accounted.of_balance fun j tr htr => ?_
    obtain ⟨tr', htr', hcounter, -⟩ := hback j tr htr
    refine ⟨tr', htr', ?_⟩
    have hcount : unresolvedIn (b.transRecordSet.modify id f g) j =
        unresolvedIn b.transRecordSet j := by
      refine Table.count_modify_of_eq fun r hr => ?_
      obtain ⟨-, hparent, hresolved, -⟩ := same r hr
      rw [hparent, hresolved]
    rw [hcounter, hcount]
  · refine hb.countedOnce.congr rfl rfl fun j => ?_
    exact pendingIn_modify (g := g) fun tr htr => (same tr htr).2.2.1

end

/-! ### Accesses -/

/-- One access more is not retired. -/
lemma unretiredIn_insert {t : Table StoredAccess.stamp} {a : StoredAccess} {id : Level}
    (new : t.find a.stamp = none) (unretired : a.retired = false) :
    unretiredIn (t.insert a) id = unretiredIn t id + if id = a.transactionEntry then 1 else 0 := by
  rw [unretiredIn, Table.count_insert new, unretiredIn]
  by_cases h : id = a.transactionEntry
  · simp [h, unretired]
  · simp [h, Ne.symm h]

lemma Kept.access (hb : b.Kept) {a : StoredAccess} (new : b.accessSet.find a.stamp = none)
    (unretired : a.retired = false)
    (present : a.transactionEntry ≠ 0 → b.transRecordSet.find a.transactionEntry ≠ none) :
    Kept { b with
      accessSet := b.accessSet.insert a
      transRecordSet := addTo b.transRecordSet a.transactionEntry 1 } := by
  refine ⟨?_, ?_, ?_⟩
  · refine hb.registered.mono rfl rfl (fun id tr htr => ?_) ?_
    · obtain ⟨tr', htr', -, h⟩ := exists_of_find_addTo htr
      exact ⟨tr', htr', h⟩
    intro stamp a' ha'
    have hfind : (b.accessSet.insert a).find stamp = some a' := ha'
    rw [Table.find_insert] at hfind
    split at hfind
    · cases hfind
      exact .inr present
    · exact .inl ⟨a', hfind, rfl⟩
  · refine hb.accounted.of_balance fun id tr htr => ?_
    obtain ⟨tr', htr', hcounter, -⟩ := exists_of_find_addTo htr
    refine ⟨tr', htr', ?_⟩
    have hid : id ≠ 0 := hb.registered.ne_zero htr'
    rw [hcounter, unresolvedIn_addTo, unretiredIn_insert new unretired]
    by_cases h : id = a.transactionEntry
    · rw [if_pos h, if_pos ⟨h, h ▸ hid⟩]
      omega
    · rw [if_neg h, if_neg fun h' => h h'.1]
      omega
  · exact hb.countedOnce.congr rfl rfl fun id => pendingIn_addTo

/-- One access less is not retired. -/
lemma unretiredIn_retireIn {t : Table StoredAccess.stamp} {a : StoredAccess} (id : Level)
    (found : t.find a.stamp = some a) (unretired : a.retired = false) :
    unretiredIn (retireIn t a.stamp) id + (if id = a.transactionEntry then 1 else 0) =
      unretiredIn t id := by
  have h := Table.count_modify (f := fun a => { a with retired := true }) (g := fun _ => rfl)
    (p := fun a => a.transactionEntry = id && !a.retired) found
  rw [unretiredIn, unretiredIn, retireIn]
  by_cases hid : id = a.transactionEntry
  · simp [hid, unretired] at h
    simp [hid, h]
  · simp [Ne.symm hid, unretired] at h
    simp [hid, h]

lemma Kept.retire (hb : b.Kept) {a : StoredAccess} (found : b.accessSet.find a.stamp = some a)
    (unretired : a.retired = false) :
    Kept { b with
      accessSet := retireIn b.accessSet a.stamp
      transRecordSet := addTo b.transRecordSet a.transactionEntry (-1) } := by
  refine ⟨?_, ?_, ?_⟩
  · refine hb.registered.mono rfl rfl (fun id tr htr => ?_) ?_
    · obtain ⟨tr', htr', -, h⟩ := exists_of_find_addTo htr
      exact ⟨tr', htr', h⟩
    intro stamp a' ha'
    have hfind : (retireIn b.accessSet a.stamp).find stamp = some a' := ha'
    rw [retireIn, Table.find_modify] at hfind
    split at hfind
    · obtain ⟨a'', ha'', rfl⟩ := Option.map_eq_some_iff.1 hfind
      exact .inl ⟨a'', ha'', rfl⟩
    · exact .inl ⟨a', hfind, rfl⟩
  · show AccountedIn (retireIn b.accessSet a.stamp) (addTo b.transRecordSet a.transactionEntry (-1))
    refine hb.accounted.of_balance fun id tr htr => ?_
    obtain ⟨tr', htr', hcounter, -⟩ := exists_of_find_addTo htr
    refine ⟨tr', htr', ?_⟩
    have hid : id ≠ 0 := hb.registered.ne_zero htr'
    rw [hcounter, unresolvedIn_addTo, ← unretiredIn_retireIn id found unretired]
    by_cases h : id = a.transactionEntry
    · rw [if_pos h, if_pos ⟨h, h ▸ hid⟩]
      omega
    · rw [if_neg h, if_neg fun h' => h h'.1]
      omega
  · exact hb.countedOnce.congr rfl rfl fun id => pendingIn_addTo

lemma Kept.destroy (hb : b.Kept) {a : StoredAccess} (found : b.accessSet.find a.stamp = some a)
    (retired : a.retired = true) :
    Kept { b with accessSet := b.accessSet.erase a.stamp } := by
  refine ⟨?_, ?_, ?_⟩
  · refine hb.registered.mono rfl rfl (fun id tr htr => ⟨tr, htr, rfl, fun h => h⟩) ?_
    intro stamp a' ha'
    have hfind : (b.accessSet.erase a.stamp).find stamp = some a' := ha'
    rw [Table.find_erase] at hfind
    split at hfind
    · cases hfind
    · exact .inl ⟨a', hfind, rfl⟩
  · refine hb.accounted.of_balance fun id tr htr => ⟨tr, htr, ?_⟩
    have hcount : unretiredIn (b.accessSet.erase a.stamp) id = unretiredIn b.accessSet id := by
      have h := Table.count_erase (p := fun a => a.transactionEntry = id && !a.retired) found
      simp only [retired, Bool.not_true, Bool.and_false, Bool.toNat_false, Nat.add_zero] at h
      exact h
    rw [hcount]
  · exact hb.countedOnce.congr rfl rfl fun _ => Iff.rfl

/-! ### Transactions -/

lemma Kept.erase (hb : b.Kept) {tr : TransRecord}
    (found : b.transRecordSet.find tr.transactionID = some tr) (resolved : tr.resolved = true) :
    Kept { b with transRecordSet := b.transRecordSet.erase tr.transactionID } := by
  have hback : ∀ j tr', (b.transRecordSet.erase tr.transactionID).find j = some tr' →
      b.transRecordSet.find j = some tr' := by
    intro j tr' h
    rw [Table.find_erase] at h
    split at h
    · cases h
    · exact h
  refine ⟨?_, ?_, ?_⟩
  · refine hb.registered.mono rfl rfl ?_ fun stamp a ha => .inl ⟨a, ha, rfl⟩
    exact fun id tr' htr' => ⟨tr', hback id tr' htr', rfl, fun h => h⟩
  · refine hb.accounted.of_balance fun id tr' htr' => ⟨tr', hback id tr' htr', ?_⟩
    have hcount : unresolvedIn (b.transRecordSet.erase tr.transactionID) id =
        unresolvedIn b.transRecordSet id := by
      have h := Table.count_erase (p := fun tr => tr.parentTransactionID = id && !tr.resolved) found
      simp only [resolved, Bool.not_true, Bool.and_false, Bool.toNat_false, Nat.add_zero] at h
      exact h
    rw [hcount]
  · refine hb.countedOnce.congr rfl rfl fun id => ?_
    constructor
    · rintro ⟨tr', htr', hpending⟩
      exact ⟨tr', hback id tr' htr', hpending⟩
    · rintro ⟨tr', htr', hpending⟩
      refine ⟨tr', ?_, hpending⟩
      show (b.transRecordSet.erase tr.transactionID).find id = some tr'
      rw [Table.find_erase, if_neg, htr']
      rintro rfl
      rw [found] at htr'
      cases htr'
      rw [resolved] at hpending
      cases hpending

/-- A record of the table after a transaction has been resolved. -/
lemma exists_of_find_resolveIn {t : Table TransRecord.transactionID} {id j : Level}
    {committed : Bool} {tr : TransRecord} (h : (resolveIn t id committed).find j = some tr) :
    ∃ tr', t.find j = some tr' ∧ tr.accessCounter = tr'.accessCounter ∧
      tr.parentTransactionID = tr'.parentTransactionID ∧
      (tr'.EndsInParent → tr.EndsInParent) := by
  rw [resolveIn, Table.find_modify] at h
  split at h
  · obtain ⟨tr', htr', rfl⟩ := Option.map_eq_some_iff.1 h
    exact ⟨tr', htr', rfl, rfl, fun h => h⟩
  · exact ⟨tr, h, rfl, rfl, fun h => h⟩

/-- A resolved child is counted down from its parent. -/
lemma Kept.resolve (hb : b.Kept) {tr : TransRecord} {committed : Bool}
    (found : b.transRecordSet.find tr.transactionID = some tr) (unresolved : tr.resolved = false) :
    Kept { b with
      transRecordSet := resolveIn (addTo b.transRecordSet tr.parentTransactionID (-1))
        tr.transactionID committed
      countedDown := if tr.parentTransactionID = 0 then b.countedDown
        else b.countedDown ++ [tr.transactionID] } := by
  have hnested := hb.registered.nested _ tr found
  refine ⟨?_, ?_, ?_⟩
  · refine hb.registered.mono rfl rfl (fun j r hr => ?_) fun stamp a ha => .inl ⟨a, ha, rfl⟩
    obtain ⟨r', hr', -, hparent', hends'⟩ := exists_of_find_resolveIn hr
    obtain ⟨r'', hr'', -, hparent, hends⟩ := exists_of_find_addTo hr'
    exact ⟨r'', hr'', hparent'.trans hparent, fun h => hends' (hends h)⟩
  · show AccountedIn b.accessSet (resolveIn (addTo b.transRecordSet tr.parentTransactionID (-1)) _ _)
    refine hb.accounted.of_balance fun j r hr => ?_
    obtain ⟨r', hr', hcounter', -⟩ := exists_of_find_resolveIn hr
    obtain ⟨r'', hr'', hcounter, -⟩ := exists_of_find_addTo hr'
    refine ⟨r'', hr'', ?_⟩
    have hj : j ≠ 0 := hb.registered.ne_zero hr''
    obtain ⟨trd, hfound, hparent, hresolved⟩ := exists_find_addTo tr.parentTransactionID (-1) found
    have hcount := unresolvedIn_resolveIn j committed hfound (hresolved.trans unresolved)
    rw [hparent, unresolvedIn_addTo] at hcount
    rw [hcounter', hcounter]
    by_cases h : tr.parentTransactionID = j
    · rw [if_pos h] at hcount
      rw [if_pos ⟨h.symm, h ▸ hj⟩]
      omega
    · rw [if_neg h] at hcount
      rw [if_neg fun h' => h h'.1.symm]
      omega
  · have hpending : ∀ j, PendingIn (resolveIn (addTo b.transRecordSet tr.parentTransactionID (-1))
        tr.transactionID committed) j ↔ j ≠ tr.transactionID ∧ PendingIn b.transRecordSet j := by
      intro j
      rw [pendingIn_resolveIn, pendingIn_addTo]
    have hcount : ∀ j, (if tr.parentTransactionID = 0 then b.countedDown
        else b.countedDown ++ [tr.transactionID]).count j = b.countedDown.count j +
          if tr.parentTransactionID ≠ 0 ∧ j = tr.transactionID then 1 else 0 := by
      intro j
      by_cases h : tr.parentTransactionID = 0
      · simp [h]
      · rw [if_neg h, List.count_append, List.count_singleton]
        by_cases hj : j = tr.transactionID
        · simp [h, hj]
        · simp [h, hj, Ne.symm hj]
    have hzero : b.countedDown.count tr.transactionID = 0 :=
      hb.countedOnce.pending _ (.inl ⟨tr, found, unresolved⟩)
    constructor
    · intro j hup hj
      have hj' := fun hp => hj ((hpending j).2 hp)
      refine (hcount j).trans ?_
      by_cases h : j = tr.transactionID
      · subst h
        rw [hzero, if_pos ⟨hnested.2 hup, rfl⟩]
      · rw [if_neg fun h' => h h'.2]
        exact hb.countedOnce.resolved j hup fun hp => hj' ⟨h, hp⟩
    · intro j hj
      refine (hcount j).trans ?_
      by_cases h : j = tr.transactionID
      · subst h
        have hup : tr.transactionID ∉ b.countedUp :=
          hj.resolve_left fun hp => ((hpending _).1 hp).1 rfl
        rw [hzero, if_neg fun h' => hup (hnested.1 h'.1)]
      · rw [if_neg fun h' => h h'.2]
        exact hb.countedOnce.pending j (hj.imp_left fun hp => ((hpending j).1 hp).2)

/-! ### New transactions -/

lemma unresolvedIn_insert {t : Table TransRecord.transactionID} {tr : TransRecord} (j : Level)
    (new : t.find tr.transactionID = none) (unresolved : tr.resolved = false) :
    unresolvedIn (t.insert tr) j =
      unresolvedIn t j + if tr.parentTransactionID = j then 1 else 0 := by
  rw [unresolvedIn, Table.count_insert new, unresolvedIn]
  by_cases h : tr.parentTransactionID = j
  · simp [h, unresolved]
  · simp [h]

/-- Nothing has been counted for a transaction that is about to begin. -/
lemma Registered.new (hb : b.Registered) (nonzero : b.globalTransactionID ≠ 0) :
    b.transRecordSet.find b.globalTransactionID = none ∧ b.globalTransactionID ∉ b.countedUp ∧
      unretiredIn b.accessSet b.globalTransactionID = 0 ∧
        unresolvedIn b.transRecordSet b.globalTransactionID = 0 := by
  refine ⟨?_, fun h => Nat.lt_irrefl _ (hb.countedUp_lt nonzero _ h), ?_, ?_⟩
  · cases h : b.transRecordSet.find b.globalTransactionID with
    | none => rfl
    | some tr => exact absurd (hb.record_lt nonzero _ tr h).1 (Nat.lt_irrefl _)
  · refine Table.count_eq_zero.2 fun a ha => ?_
    have hlt := hb.access_lt nonzero _ a (Table.find_eq_some.2 ⟨ha, rfl⟩)
    simp [Nat.ne_of_lt hlt]
  · refine Table.count_eq_zero.2 fun tr htr => ?_
    have hlt := (hb.record_lt nonzero _ tr (Table.find_eq_some.2 ⟨htr, rfl⟩)).2
    simp [Nat.ne_of_lt hlt]

section

variable {pid : Pid} {parent dependant : Level}

/-- The records after a transaction has begun: the new one and the old ones. -/
lemma exists_of_find_begins {tr : TransRecord} {id : Level}
    (h : (addTo (b.transRecordSet.insert
      (.new pid b.globalTransactionID parent dependant)) parent 1).find id = some tr) :
    ∃ tr', (id = b.globalTransactionID ∧ tr' = .new pid b.globalTransactionID parent dependant ∨
        id ≠ b.globalTransactionID ∧ b.transRecordSet.find id = some tr') ∧
      tr.accessCounter = tr'.accessCounter + (if id = parent ∧ parent ≠ 0 then 1 else 0) ∧
      tr.parentTransactionID = tr'.parentTransactionID ∧
      (tr'.EndsInParent → tr.EndsInParent) := by
  obtain ⟨tr', htr', h⟩ := exists_of_find_addTo h
  refine ⟨tr', ?_, h⟩
  rw [Table.find_insert] at htr'
  split at htr'
  · rename_i hid
    cases htr'
    exact .inl ⟨hid, rfl⟩
  · rename_i hid
    exact .inr ⟨hid, htr'⟩

lemma Registered.begins (hb : b.Registered) (nonzero : b.globalTransactionID ≠ 0)
    (present : parent ≠ 0 → (b.transRecordSet.insert
      (.new pid b.globalTransactionID parent dependant)).find parent ≠ none) :
    Registered { b with
      transRecordSet := addTo (b.transRecordSet.insert
        (.new pid b.globalTransactionID parent dependant)) parent 1
      globalTransactionID := (b.globalTransactionID + 1) % 4294967296
      countedUp := if parent = 0 then b.countedUp
        else b.countedUp ++ [b.globalTransactionID] } := by
  obtain ⟨-, hnew, -, -⟩ := hb.new nonzero
  have hbound := hb.bound
  -- the identifiers do not wrap around before they reach 0, after which nothing begins
  have hnext : (b.globalTransactionID + 1) % 4294967296 ≠ 0 →
      (b.globalTransactionID + 1) % 4294967296 = b.globalTransactionID + 1 := by
    intro h
    rcases Nat.lt_or_ge (b.globalTransactionID + 1) 4294967296 with hlt | hge
    · exact Nat.mod_eq_of_lt hlt
    · have heq : b.globalTransactionID + 1 = 4294967296 := Nat.le_antisymm hbound hge
      rw [heq] at h
      exact absurd rfl h
  have hparent : parent < b.globalTransactionID + 1 := by
    by_cases hzero : parent = 0
    · rw [hzero]
      exact Nat.succ_pos _
    · obtain ⟨tr, htr⟩ := Option.ne_none_iff_exists'.1 (present hzero)
      rw [Table.find_insert] at htr
      split at htr
      · rename_i h
        rw [h]
        exact Nat.lt_succ_self _
      · exact Nat.lt_succ_of_lt (hb.record_lt nonzero _ tr htr).1
  constructor
  · exact Nat.mod_lt _ (by decide)
  · show (addTo _ parent 1).find 0 = none
    rw [find_addTo, Table.find_insert, if_neg fun h => nonzero h.symm, hb.find_zero]
    rfl
  · intro h id tr htr
    rw [hnext h]
    obtain ⟨tr', ⟨rfl, rfl⟩ | ⟨-, htr'⟩, -, hparent', -⟩ := exists_of_find_begins htr
    · rw [hparent']
      exact ⟨Nat.lt_succ_self _, hparent⟩
    · rw [hparent']
      obtain ⟨hid, hlt⟩ := hb.record_lt nonzero id tr' htr'
      exact ⟨Nat.lt_succ_of_lt hid, Nat.lt_succ_of_lt hlt⟩
  · intro h stamp a ha
    rw [hnext h]
    exact Nat.lt_succ_of_lt (hb.access_lt nonzero stamp a ha)
  · intro h id hid
    rw [hnext h]
    have hid' : id ∈ if parent = 0 then b.countedUp else b.countedUp ++ [b.globalTransactionID] :=
      hid
    split at hid'
    · exact Nat.lt_succ_of_lt (hb.countedUp_lt nonzero id hid')
    · rcases List.mem_append.1 hid' with hid' | hid'
      · exact Nat.lt_succ_of_lt (hb.countedUp_lt nonzero id hid')
      · rw [List.mem_singleton.1 hid']
        exact Nat.lt_succ_self _
  · intro id tr htr
    obtain ⟨tr', ⟨-, rfl⟩ | ⟨-, htr'⟩, -, -, hends⟩ := exists_of_find_begins htr
    · refine hends fun op hop => ?_
      cases hop
    · exact hends (hb.endsInParent id tr' htr')
  · intro id tr htr
    show _ ↔ id ∈ if parent = 0 then b.countedUp else b.countedUp ++ [b.globalTransactionID]
    obtain ⟨tr', ⟨rfl, rfl⟩ | ⟨hid, htr'⟩, -, hparent', -⟩ := exists_of_find_begins htr
    · rw [hparent']
      show parent ≠ 0 ↔ _
      split
      · rename_i hzero
        exact iff_of_false (fun h => h hzero) hnew
      · rename_i hzero
        exact iff_of_true hzero (List.mem_append_right _ (List.mem_singleton_self _))
    · rw [hparent', hb.nested id tr' htr']
      split
      · rfl
      · rw [List.mem_append, List.mem_singleton, or_iff_left hid]

lemma Kept.begins (hb : b.Kept) (nonzero : b.globalTransactionID ≠ 0)
    (present : parent ≠ 0 → (b.transRecordSet.insert
      (.new pid b.globalTransactionID parent dependant)).find parent ≠ none) :
    Kept { b with
      transRecordSet := addTo (b.transRecordSet.insert
        (.new pid b.globalTransactionID parent dependant)) parent 1
      globalTransactionID := (b.globalTransactionID + 1) % 4294967296
      countedUp := if parent = 0 then b.countedUp
        else b.countedUp ++ [b.globalTransactionID] } := by
  obtain ⟨hfind, hnew, hunretired, hunresolved⟩ := hb.registered.new nonzero
  refine ⟨hb.registered.begins nonzero present, ?_, ?_⟩
  · show AccountedIn b.accessSet (addTo _ parent 1)
    intro id tr htr
    obtain ⟨tr', hcases, hcounter, -⟩ := exists_of_find_begins htr
    rw [hcounter, unresolvedIn_addTo, unresolvedIn_insert id hfind rfl]
    obtain ⟨rfl, rfl⟩ | ⟨-, htr'⟩ := hcases
    · rw [hunretired, hunresolved]
      show (0 : ℤ) + _ = ((0 : ℕ) : ℤ) + ((0 + if parent = _ then 1 else 0 : ℕ) : ℤ)
      by_cases h : b.globalTransactionID = parent
      · rw [if_pos ⟨h, h ▸ nonzero⟩, if_pos h.symm]
        rfl
      · rw [if_neg fun h' => h h'.1, if_neg (Ne.symm h)]
        rfl
    · have hid : id ≠ 0 := hb.registered.ne_zero htr'
      rw [hb.accounted id tr' htr']
      show _ + _ + _ = _ + ((_ + if parent = id then 1 else 0 : ℕ) : ℤ)
      by_cases h : id = parent
      · rw [if_pos ⟨h, h ▸ hid⟩, if_pos h.symm]
        omega
      · rw [if_neg fun h' => h h'.1, if_neg (Ne.symm h)]
        omega
  · have hpending : ∀ id, PendingIn (addTo (b.transRecordSet.insert
        (.new pid b.globalTransactionID parent dependant)) parent 1) id ↔
          id = b.globalTransactionID ∨ PendingIn b.transRecordSet id := by
      intro id
      rw [pendingIn_addTo, PendingIn, PendingIn, Table.find_insert]
      split
      · rename_i h
        exact iff_of_true ⟨_, rfl, rfl⟩ (.inl h)
      · rename_i h
        exact (or_iff_right h).symm
    have hup : ∀ id, id ∈ (if parent = 0 then b.countedUp
        else b.countedUp ++ [b.globalTransactionID]) → id ≠ b.globalTransactionID →
          id ∈ b.countedUp := by
      intro id hid hne
      split at hid
      · exact hid
      · exact (List.mem_append.1 hid).resolve_right fun h => hne (List.mem_singleton.1 h)
    have hdown : ∀ id, id ∈ b.countedUp → id ∈ (if parent = 0 then b.countedUp
        else b.countedUp ++ [b.globalTransactionID]) := by
      intro id hid
      split
      · exact hid
      · exact List.mem_append_left _ hid
    constructor
    · intro id hid hnot
      have hnot' := fun h => hnot ((hpending id).2 h)
      exact hb.countedOnce.resolved id (hup id hid fun h => hnot' (.inl h)) fun h => hnot' (.inr h)
    · intro id hid
      by_cases h : id = b.globalTransactionID
      · rw [h]
        exact hb.countedOnce.pending _ (.inr hnew)
      · refine hb.countedOnce.pending id (hid.imp (fun hp => ?_) fun hn hm => hn (hdown id hm))
        exact ((hpending id).1 hp).resolve_left h

end

/-- Every entry leaves the books in order. -/
theorem Kept.entry (hb : b.Kept) (h : Entry b b') : b'.Kept := by
  cases h with
  | relabel same => exact hb.relabel same
  | access new unretired present => exact hb.access new unretired present
  | begins nonzero present => exact hb.begins nonzero present
  | resolve found unresolved => exact hb.resolve found unresolved
  | retire found unretired => exact hb.retire found unretired
  | erase found resolved => exact hb.erase found resolved
  | destroy found retired => exact hb.destroy found retired

lemma kept_new : TMInterface.new.books.Kept where
  registered := by
    constructor
    · decide
    · rfl
    · exact fun _ id tr h => nomatch h
    · exact fun _ stamp a h => nomatch h
    · exact fun _ id h => nomatch h
    · exact fun id tr h => nomatch h
    · exact fun id tr h => nomatch h
  accounted := fun id tr h => nomatch h
  countedOnce := ⟨fun id h => (nomatch h), fun id _ => rfl⟩

end Books

end Sesc.Tm
