import Sesc.Smp.Progress

/-!
# Every modification is written back

A line that a cache has modified is written back when the cache gives it up, whether the cache evicts it,
answers a read of another cache, or yields to a write of another cache.  In the last case the answer is
under way when the state has already changed, so that the write-back is owed for a while.
-/

namespace Sesc.Smp

open Lib Mshr

namespace Line

variable {n : ℕ}

/-- The cache `d` has given up a modified line for the request of the cache `c`, and has still to answer. -/
def owes (L : Line n) (c d : Fin n) : Bool :=
  L.snoop c d = .acking ∧ (L.sent c).any fun p => p.1 = .snooping ∧ p.2.supplier = some d ∧ p.2.writeDown = true

/-- The write-backs that the cache has still to do for requests. -/
def owed (L : Line n) (d : Fin n) : ℕ := if ∃ c, L.owes c d = true then 1 else 0

/-- The modifications of the cache that it has in its line. -/
def held (L : Line n) (d : Fin n) : ℕ := if (L.state d).isDirty then 1 else 0

/-- The suppliers of the requests. -/
structure Supplies (L : Line n) : Prop where
  down : ∀ c location r, L.sent c = some (location, r) → r.writeDown = true → r.state = .MODIFIED
  supplier : ∀ c r d, L.sent c = some (.snooping, r) → r.supplier = some d → L.snoop c d ≠ .received
  fresh : ∀ c r, L.sent c = some (.toBus, r) → r.needSnoop = true → r.supplier = none
  yields : ∀ c r d, L.sent c = some (.snooping, r) → L.snoop c d = .invalidating →
    (L.state d = .TRANS_INV_D ↔ r.supplier = some d ∧ r.writeDown = true)

/-- The modifications of a cache are written back, held or owed. -/
def Balanced (L : Line n) : Prop := ∀ d, L.dirtied d = L.writeBacks d + L.held d + L.owed d

variable {upperCaches : ℕ} {L L' : Line n} {c d : Fin n} {memOp : MemOperation} {stage : Stage n}
  {r r' : SMPMemRequest n} {location : Location} {st : MESIState} {a : Access n}

lemma owes_iff : L.owes c d = true ↔
    L.snoop c d = .acking ∧ ∃ r, L.sent c = some (.snooping, r) ∧ r.supplier = some d ∧ r.writeDown = true := by
  rcases hs : L.sent c with _ | ⟨location, r⟩
  · simp [owes, hs]
  · simp only [owes, hs, Option.any_some, decide_eq_true_eq, Option.some.injEq, Prod.mk.injEq]
    refine and_congr_right fun _ => ?_
    constructor
    · rintro ⟨rfl, hr⟩
      exact ⟨r, ⟨rfl, rfl⟩, hr⟩
    · rintro ⟨_, ⟨rfl, rfl⟩, hr⟩
      exact ⟨rfl, hr⟩

lemma owed_congr (hsnoop : L'.snoop = L.snoop) (hsent : L'.sent = L.sent) : L'.owed d = L.owed d := by
  refine if_congr (exists_congr fun c => ?_) rfl rfl
  rw [owes_iff, owes_iff, hsnoop, hsent]

/-- The cache that has a request is the only one to which anything is owed. -/
lemma owed_of_sent (h : L.Registers) (hc : L.sent c = some (location, r)) :
    L.owed d = if location = .snooping ∧ L.snoop c d = .acking ∧ r.supplier = some d ∧ r.writeDown = true then 1
      else 0 := by
  refine if_congr ?_ rfl rfl
  constructor
  · rintro ⟨c', hc'⟩
    obtain ⟨hack, r', hr', hsupplier, hdown⟩ := owes_iff.1 hc'
    have hcc : c' = c := by
      by_contra hne
      rw [h.sent_eq_none hc hne] at hr'
      cases hr'
    subst hcc
    rw [hc] at hr'
    cases hr'
    exact ⟨rfl, hack, hsupplier, hdown⟩
  · rintro ⟨rfl, hack, hsupplier, hdown⟩
    exact ⟨c, owes_iff.2 ⟨hack, r, hc, hsupplier, hdown⟩⟩

lemma owed_of_none (h : ∀ c r, L.sent c ≠ some (.snooping, r)) : L.owed d = 0 := by
  refine if_neg ?_
  rintro ⟨c, hc⟩
  obtain ⟨-, r, hr, -⟩ := owes_iff.1 hc
  exact h c r hr

@[simp] lemma snoop_writeBackDirty : (L.writeBackDirty d).snoop = L.snoop := by
  unfold Line.writeBackDirty
  split_ifs <;> rfl

/-! ## The request of a cache -/

lemma sent_setStage_early (ha : L.access c = some a) (hold : a.stage.request = none) (hnew : stage.request = none) :
    (L.setStage c memOp stage).sent = L.sent := by
  funext c'
  rw [sent_setStage]
  split_ifs with hc
  · rw [hc, sent_of_access ha, hold, hnew]
  · rfl

lemma sent_start (hc : L.access c = none) : (L.setStage c memOp .scheduled).sent = L.sent := by
  funext c'
  rw [sent_setStage]
  split_ifs with hcc
  · rw [hcc, sent, hc]
    rfl
  · rfl

lemma sent_retireOutsReq (ha : L.access c = some a) (hold : a.stage.request = none) :
    (L.retireOutsReq c).sent = L.sent := by
  have hnone : L.sent c = none := (sent_of_access ha).trans hold
  funext c'
  by_cases hc : c' = c
  · subst hc
    rw [hnone]
    unfold Line.retireOutsReq
    split <;> simp [sent, Stage.request]
  · unfold Line.retireOutsReq
    split <;> simp [sent, hc]

lemma sent_issueMutExcl (hc : L.access c = some ⟨memOp, .scheduled⟩) (memOp' : MemOperation) :
    (L.issueMutExcl c memOp').sent = L.sent := by
  unfold Line.issueMutExcl
  split
  · exact sent_setStage_early hc rfl rfl
  · exact sent_setStage_early hc rfl rfl

/-- The registers are all that changes. -/
structure SameLine (L L' : Line n) : Prop where
  state : L'.state = L.state
  snoop : L'.snoop = L.snoop
  writeBacks : L'.writeBacks = L.writeBacks
  dirtied : L'.dirtied = L.dirtied

lemma SameLine.retireOutsReq : SameLine L (L.retireOutsReq c) := by
  unfold Line.retireOutsReq
  split <;> exact ⟨rfl, rfl, rfl, rfl⟩

lemma SameLine.issueMutExcl : SameLine L (L.issueMutExcl c memOp) := by
  unfold Line.issueMutExcl
  split <;> exact ⟨rfl, rfl, rfl, rfl⟩

lemma SameLine.concludeAccess : SameLine L (L.concludeAccess c) := by
  unfold Line.concludeAccess Line.retireMutExcl Line.retireOutsReq
  split <;> split <;> exact ⟨rfl, rfl, rfl, rfl⟩

namespace Supplies

lemma congr (h : L.Supplies) (hsent : L'.sent = L.sent) (hsnoop : L'.snoop = L.snoop)
    (hstate : ∀ c d, L.snoop c d = .invalidating → L'.state d = L.state d) : L'.Supplies := by
  constructor
  · rw [hsent]
    exact h.down
  · rw [hsent, hsnoop]
    exact h.supplier
  · rw [hsent]
    exact h.fresh
  · intro c r d hr hd
    rw [hsnoop] at hd
    rw [hstate c d hd]
    exact h.yields c r d (hsent ▸ hr) hd

/-- The one request that there is. -/
lemma of_sent (h : L.Registers) (hc : L.sent c = some (location, r))
    (hdown : r.writeDown = true → r.state = .MODIFIED)
    (hsupplier : location = .snooping → ∀ d, r.supplier = some d → L.snoop c d ≠ .received)
    (hfresh : location = .toBus → r.needSnoop = true → r.supplier = none)
    (hyields : location = .snooping → ∀ d, L.snoop c d = .invalidating →
      (L.state d = .TRANS_INV_D ↔ r.supplier = some d ∧ r.writeDown = true)) : L.Supplies := by
  have hone : ∀ c' p, L.sent c' = some p → c' = c ∧ p = (location, r) := by
    intro c' p hp
    by_cases hcc : c' = c
    · subst hcc
      rw [hc] at hp
      cases hp
      exact ⟨rfl, rfl⟩
    · rw [h.sent_eq_none hc hcc] at hp
      cases hp
  constructor
  · intro c' location' r' hr'
    obtain ⟨-, he⟩ := hone c' _ hr'
    cases he
    exact hdown
  · intro c' r' d hr'
    obtain ⟨rfl, he⟩ := hone c' _ hr'
    cases he
    exact hsupplier rfl d
  · intro c' r' hr'
    obtain ⟨-, he⟩ := hone c' _ hr'
    cases he
    exact hfresh rfl
  · intro c' r' d hr'
    obtain ⟨rfl, he⟩ := hone c' _ hr'
    cases he
    exact hyields rfl d

lemma of_none (h : ∀ c, L.sent c = none) : L.Supplies := by
  constructor
  · intro c location r hr
    rw [h c] at hr
    cases hr
  · intro c r d hr
    rw [h c] at hr
    cases hr
  · intro c r hr
    rw [h c] at hr
    cases hr
  · intro c r d hr
    rw [h c] at hr
    cases hr

end Supplies

/-- A cache that reads its line has not begun to give it up. -/
lemma not_invalidating_of_read (h : L.Inv) (hs : L.Sound upperCaches) (hread : (L.state d).canBeRead = true)
    (c : Fin n) : L.snoop c d ≠ .invalidating := by
  intro hc
  obtain ⟨e, he, -⟩ := hs.invalidating c d hc
  have hnone := (h.not_leaving (ne_leaving hread)).1
  rw [he] at hnone
  cases hnone

lemma state_changeStateTo_of_read (h : L.Inv) (hs : L.Sound upperCaches) (hread : (L.state d).canBeRead = true) :
    ∀ c d', L.snoop c d' = .invalidating → (L.changeStateTo d st).state d' = L.state d' := by
  intro c d' hd'
  rw [state_changeStateTo, if_neg]
  rintro rfl
  exact not_invalidating_of_read h hs hread c hd'

/-- What a cache that had the line adds to the answer. -/
lemma combineResponses_supply (hs : L.Sound upperCaches) (hb : L.Supplies)
    (hc : L.sent c = some (.snooping, r)) (hd : L.snoop c d = .received) (hread : (L.state d).canBeRead = true)
    (hr' : r.combineResponses d (L.state d) = .ok r') :
    r.writeDown = false ∧ (r'.writeDown = true ↔ L.state d = .MODIFIED) ∧
      (r'.writeDown = true → r'.supplier = some d ∧ r'.state = .MODIFIED) ∧
      ∀ m, r'.supplier = some m → m = d ∨ r.supplier = some m := by
  have hdown : r.writeDown = false := by
    by_contra hw
    have hstate := hb.down c _ r hc (by simpa using hw)
    have := hs.owned c _ r hc (by rw [hstate]; rfl) d hd
    rw [hread] at this
    cases this
  refine ⟨hdown, ?_⟩
  have hvalid : ¬(L.state d = .INVALID ∨ (L.state d).isLocked = true) := by
    rintro (hi | hl)
    · exact ne_invalid hread hi
    · exact absurd (MESIState.isLocked_iff.1 hl).2 (by simp [hread])
  unfold SMPMemRequest.combineResponses at hr'
  rw [if_neg hvalid, check_bind_eq_ok] at hr'
  obtain ⟨-, hr'⟩ := hr'
  split_ifs at hr' with hshared hfound hex
  · cases hr'
    simp only [hdown, hshared, reduceCtorEq, Bool.false_eq_true, false_implies, true_and]
    exact fun m hm => .inr hm
  · cases hr'
    simp [hdown, hshared, eq_comm]
  · cases hr'
    simp [hdown, hex, eq_comm]
  · obtain ⟨hmod, hr'⟩ := check_bind_eq_ok.1 hr'
    cases hr'
    simp [hmod, eq_comm]

lemma Supplies.sendRequest {sendData : Bool} (h' : ((L.changeStateTo c st).sendRequest c memOp sendData).Registers) :
    ((L.changeStateTo c st).sendRequest c memOp sendData).Supplies := by
  refine .of_sent (c := c) h' ((sent_setStage ..).trans (if_pos rfl)) ?_ ?_ ?_ ?_ <;> simp

/-- The answer of a cache that does not supply the line after it has answered. -/
lemma Supplies.respond (h' : (L.respond c d r).Registers) (hdown : r.writeDown = true → r.state = .MODIFIED)
    (hsupplier : ∀ m, m ≠ d → r.supplier = some m → L.snoop c m ≠ .received)
    (hyields : ∀ m, m ≠ d → L.snoop c m = .invalidating →
      (L.state m = .TRANS_INV_D ↔ r.supplier = some m ∧ r.writeDown = true)) : (L.respond c d r).Supplies := by
  have hstate : (L.supply d r).state = L.state := by
    unfold supply
    split_ifs <;> rfl
  unfold Line.respond collect at h' ⊢
  split_ifs at h' ⊢
  · exact .of_sent (c := c) h' ((sent_setStage ..).trans (if_pos rfl)) hdown (by simp)
      (by simp) (by simp)
  · refine .of_sent (c := c) h' ((sent_setStage ..).trans (if_pos rfl)) hdown ?_ (by simp) ?_
    · intro _ m hm hreceived
      replace hreceived := (snoop_setSnoop ..).symm.trans hreceived
      split_ifs at hreceived with hmd
      rw [snoop_supply] at hreceived
      exact hsupplier m (by simpa using hmd) hm hreceived
    · intro _ m hm
      replace hm := (snoop_setSnoop ..).symm.trans hm
      split_ifs at hm with hmd
      rw [snoop_supply] at hm
      refine Iff.trans ?_ (hyields m (by simpa using hmd) hm)
      exact Eq.congr (congrFun hstate m) rfl

/-- The accesses whose requests have not been sent are of no concern. -/
lemma Supplies.sameLine (hb : L.Supplies) (hsent : L'.sent = L.sent) (h : SameLine L L') : L'.Supplies :=
  hb.congr hsent h.snoop fun _ d _ => congrFun h.state d

/-- A request goes on with what it has. -/
lemma Supplies.move (hb : L.Supplies) (hc : L.sent c = some (location, r))
    (h' : (L.setStage c r.memOp (.sent .toRequestor r)).Registers) :
    (L.setStage c r.memOp (.sent .toRequestor r)).Supplies := by
  refine .of_sent (c := c) h' ((sent_setStage ..).trans (if_pos rfl)) (hb.down c _ r hc) ?_ ?_ ?_ <;> simp

lemma leaving_eq_dirty (hread : st.canBeRead = true) : st.leaving = .TRANS_INV_D ↔ st = .MODIFIED := by
  rcases MESIState.canBeRead_iff.1 hread with rfl | rfl | rfl <;> decide

/-- No request is left when that of the holder has been answered. -/
lemma sent_concludeAccess (h : L.Registers) (hc : L.sent c = some (location, r)) (c' : Fin n) :
    (L.concludeAccess c).sent c' = none := by
  obtain ⟨memOp, ha⟩ := sent_eq_some.1 hc
  rcases hs : (L.concludeAccess c).sent c' with _ | ⟨location', r'⟩
  · rfl
  obtain ⟨memOp', hb⟩ := sent_eq_some.1 hs
  rcases access_concludeAccess hb with ⟨hne, hb⟩ | hstage | hstage
  · exact absurd (h.unique hb ha rfl rfl) hne
  · cases hstage
  · cases hstage

lemma Supplies.transition (h : L.Inv) (hs : L.Sound upperCaches) (h' : L'.Registers) (hb : L.Supplies)
    {e : LineEvent n} (ht : L.Transition upperCaches e L') : L'.Supplies := by
  cases ht with
  | special => exact hb
  | start hpush hspecial hc => exact hb.sameLine (sent_start hc) ⟨rfl, rfl, rfl, rfl⟩
  | wait hpush hspecial hc => exact hb.sameLine rfl ⟨rfl, rfl, rfl, rfl⟩
  | readHit hc hread => exact hb.sameLine (sent_retireOutsReq hc rfl) .retireOutsReq
  | @writeHit c memOp hc hmemOp hwrite =>
    have hread := MESIState.canBeRead_of_canBeWritten hwrite
    have hstate : (L.changeStateTo c .MODIFIED).Supplies := hb.congr rfl rfl (state_changeStateTo_of_read h hs hread)
    exact hstate.sameLine (sent_retireOutsReq (L := L.changeStateTo c .MODIFIED) hc rfl) .retireOutsReq
  | locked hc hlocked => exact hb.sameLine (sent_setStage_early hc rfl rfl) ⟨rfl, rfl, rfl, rfl⟩
  | miss hc hstate => exact hb.sameLine (sent_issueMutExcl hc _) .issueMutExcl
  | missShared hc hmemOp hstate => exact hb.sameLine (sent_issueMutExcl hc _) .issueMutExcl
  | upgrade hc hmemOp hstate => exact .sendRequest h'
  | send hc hstate => exact .sendRequest h'
  | sendRetry hc hstate => exact hb.sameLine (sent_setStage_early hc rfl rfl) ⟨rfl, rfl, rfl, rfl⟩
  | sendWaiting hc hstate => exact hb.sameLine (sent_setStage_early hc rfl rfl) ⟨rfl, rfl, rfl, rfl⟩
  | allocate hc => exact .sendRequest h'
  | retry hc => exact hb.sameLine (sent_setStage_early hc rfl rfl) ⟨rfl, rfl, rfl, rfl⟩
  | retryWaiting hc => exact hb.sameLine (sent_setStage_early hc rfl rfl) ⟨rfl, rfl, rfl, rfl⟩
  | reserve hc => exact .sendRequest h'
  | @evict c hupper hread =>
    refine hb.congr sent_writeBackDirty snoop_writeBackDirty fun c' d hd => ?_
    rw [state_changeStateTo, state_writeBackDirty]
    exact (state_changeStateTo (L := L) d).symm.trans (state_changeStateTo_of_read h hs hread c' d hd)
  | @startEviction c addr hupper hread => exact hb.congr rfl rfl (state_changeStateTo_of_read h hs hread)
  | @finishEviction c hc =>
    refine hb.congr sent_writeBackDirty snoop_writeBackDirty fun c' d hd => ?_
    obtain ⟨e, he, -⟩ := hs.invalidating c' d hd
    have hne : d ≠ c := by
      rintro rfl
      rw [h.replacing d hc] at he
      cases he
    refine (state_changeStateTo (L := L.writeBackDirty c) d).trans ?_
    rw [if_neg hne, state_writeBackDirty]
  | @toMemory c r hc hsnoop =>
    refine .of_sent (c := c) h' ((sent_setStage ..).trans (if_pos rfl)) (hb.down c _ r hc) ?_ ?_ ?_ <;> simp
  | single hc hsnoop hn => exact (hb.move hc ⟨h'.memOp, h'.waiting, h'.holder, h'.nodup, h'.queued⟩).congr rfl rfl fun _ _ _ => rfl
  | @broadcast c r hc hsnoop hn =>
    have hnone := hb.fresh c r hc hsnoop
    refine .of_sent (c := c) h' ((sent_setStage ..).trans (if_pos rfl)) (hb.down c _ r hc) ?_ (by simp) ?_
    · intro _ d hd
      rw [hnone] at hd
      cases hd
    · intro _ d hd
      by_cases hdc : d = c <;> simp [hdc] at hd
  | @unaffected c d r hc hd hread =>
    exact .respond h' (hb.down c _ r hc) (fun m _ => hb.supplier c r m hc) fun m _ => hb.yields c r m hc
  | @share c d r r' hc hd hread hmemOp hr' =>
    obtain ⟨hdown, -, hsupplies, hkeep⟩ := combineResponses_supply hs hb hc hd hread hr'
    refine Supplies.respond (L := L.changeStateTo d .SHARED) h' (fun hw => (hsupplies hw).2) (fun m hm hsup => ?_)
      fun m hm hinv => ?_
    · exact hb.supplier c r m hc ((hkeep m hsup).resolve_left hm)
    · rw [state_changeStateTo, if_neg hm, hb.yields c r m hc hinv, hdown]
      refine iff_of_false (by simp) fun hw => hm ?_
      exact Option.some.inj (hw.1.symm.trans (hsupplies hw.2).1)
  | @yield c d r r' hc hd hread hmemOp hr' hupper =>
    obtain ⟨hdown, hmodified, hsupplies, hkeep⟩ := combineResponses_supply hs hb hc hd hread hr'
    refine .of_sent (c := c) h' ((sent_setStage ..).trans (if_pos rfl)) (fun hw => (hsupplies hw).2)
      (fun _ m hm => ?_) (by simp) fun _ m hinv => ?_
    · refine fun hreceived => ?_
      replace hreceived := (snoop_setSnoop ..).symm.trans hreceived
      split_ifs at hreceived with hmd
      exact hb.supplier c r m hc ((hkeep m hm).resolve_left (by simpa using hmd)) hreceived
    · replace hinv := (snoop_setSnoop ..).symm.trans hinv
      rw [state_changeStateTo]
      by_cases hmd : m = d
      · rw [if_pos hmd, leaving_eq_dirty hread, ← hmodified, hmd]
        exact ⟨fun hw => ⟨(hsupplies hw).1, hw⟩, And.right⟩
      · rw [if_neg (by simp [hmd])] at hinv
        rw [if_neg hmd]
        refine (hb.yields c r m hc hinv).trans ?_
        rw [hdown]
        refine iff_of_false (by simp) fun hw => hmd ?_
        exact Option.some.inj (hw.1.symm.trans (hsupplies hw.2).1)
  | @yieldNow c d r r' hc hd hread hmemOp hr' hupper =>
    obtain ⟨hdown, -, hsupplies, hkeep⟩ := combineResponses_supply hs hb hc hd hread hr'
    refine .of_sent (c := c) h' ((sent_setStage ..).trans (if_pos rfl)) (fun hw => (hsupplies hw).2)
      (fun _ m hm => ?_) (by simp) fun _ m hinv => ?_
    · refine fun hreceived => ?_
      replace hreceived := (snoop_setSnoop ..).symm.trans hreceived
      split_ifs at hreceived with hmd
      exact hb.supplier c r m hc ((hkeep m hm).resolve_left (by simpa using hmd)) hreceived
    · replace hinv := (snoop_setSnoop ..).symm.trans hinv
      split_ifs at hinv with hmd
      obtain ⟨e, he, -⟩ := hs.invalidating c m hinv
      rw [hupper] at hs
      obtain ⟨hpos, hle, -⟩ := hs.entry m e he
      simp only [Nat.cast_zero] at hle
      omega
  | oneInvalidated hd hlast => exact hb.congr rfl rfl fun _ _ _ => rfl
  | @allInvalidated c d e hd hlast hcb =>
    have hsnoop : ∀ c' d', ((((L.setPendInv d none).changeStateTo d .INVALID).setSnoop c d .acking).snoop c' d') =
        if c' = c ∧ d' = d then .acking else L.snoop c' d' := fun c' d' => snoop_setSnoop ..
    refine ⟨hb.down, fun c' r d' hr hsup => ?_, hb.fresh, fun c' r d' hr hinv => ?_⟩
    · rw [hsnoop]
      split_ifs
      · simp
      · exact hb.supplier c' r d' hr hsup
    · rw [hsnoop] at hinv
      split_ifs at hinv with hcd
      have hdd : d' ≠ d := by
        rintro rfl
        obtain ⟨e', he', hcb'⟩ := hs.invalidating c' d' hinv
        rw [hd] at he'
        cases he'
        rw [hcb] at hcb'
        cases hcb'
        exact hcd ⟨rfl, rfl⟩
      have hstate : (((L.setPendInv d none).changeStateTo d .INVALID).setSnoop c d .acking).state d' = L.state d' :=
        (state_changeStateTo (L := L.setPendInv d none) d').trans (if_neg hdd)
      rw [hstate]
      exact hb.yields c' r d' hr hinv
  | gaveWay hd hlast hcb => exact hb.congr rfl rfl fun _ _ _ => rfl
  | @ack c d r hc hd =>
    exact .respond h' (hb.down c _ r hc) (fun m _ => hb.supplier c r m hc) fun m _ => hb.yields c r m hc
  | memory hc => exact hb.move hc h'
  | @goToMemory c r hc hmiss hsnoop hdata =>
    refine .of_sent (c := c) h' ((sent_setStage ..).trans (if_pos rfl)) (hb.down c _ r hc) ?_ ?_ ?_ <;> simp
  | @conclude c r st hc hanswer =>
    exact .of_none (sent_concludeAccess (L := L.changeStateTo c st) h.registers.changeStateTo hc)

/-! ## The balance -/

/-- A dirty line of the cache becomes clean. -/
def lost (L : Line n) (d : Fin n) (st : MESIState) (d' : Fin n) : ℕ :=
  if d' = d ∧ (L.state d).isDirty = true ∧ st.isDirty = false then 1 else 0

lemma dirtied_changeStateTo (st : MESIState) (d' : Fin n) : (L.changeStateTo d st).dirtied d' + L.held d' =
    L.dirtied d' + (L.changeStateTo d st).held d' + L.lost d st d' := by
  by_cases hd : d' = d
  · subst hd
    rcases hold : (L.state d').isDirty <;> rcases hnew : st.isDirty <;>
      simp [Line.changeStateTo, held, lost, hold, hnew]
  · simp only [held, lost, state_changeStateTo, hd, false_and, if_false]
    have : (L.changeStateTo d st).dirtied d' = L.dirtied d' := by
      simp only [Line.changeStateTo]
      split_ifs
      · exact Function.update_of_ne hd _ _
      · rfl
    omega

lemma lost_of_clean (h : (L.state d).isDirty = false) (d' : Fin n) : L.lost d st d' = 0 := if_neg (by simp [h])

lemma lost_of_dirty (h : st.isDirty = true) (d' : Fin n) : L.lost d st d' = 0 := if_neg (by simp [h])

lemma writeBacks_writeBackDirty (d' : Fin n) :
    (L.writeBackDirty d).writeBacks d' = L.writeBacks d' + (L.writeBackDirty d).lost d .INVALID d' := by
  have hclean : MESIState.INVALID.isDirty = false := rfl
  unfold Line.writeBackDirty
  split_ifs with hdirty
  · by_cases hd : d' = d
    · subst hd
      simp [doWriteBack, lost, hdirty, hclean]
    · simp [doWriteBack, lost, hd]
  · simp [lost, hdirty]

/-- The cache `d` supplies a modified line. -/
def supplies (r : SMPMemRequest n) (d : Fin n) : Prop := r.supplier = some d ∧ r.writeDown = true

instance (r : SMPMemRequest n) (d : Fin n) : Decidable (supplies r d) := inferInstanceAs (Decidable (_ ∧ _))

lemma writeBacks_supply (d' : Fin n) :
    (L.supply d r).writeBacks d' = L.writeBacks d' + if d' = d ∧ supplies r d then 1 else 0 := by
  by_cases hs : supplies r d
  · have hsupply : L.supply d r = L.doWriteBack d := if_pos hs
    rw [hsupply]
    by_cases hd : d' = d
    · subst hd
      simp [doWriteBack, hs]
    · simp [doWriteBack, hd]
  · have hsupply : L.supply d r = L := if_neg hs
    rw [hsupply]
    simp [hs]

/-- What the answer of a cache does to the balance. -/
lemma respond_balance (h' : (L.respond c d r).Registers) (d' : Fin n) :
    (L.respond c d r).state d' = L.state d' ∧ (L.respond c d r).dirtied d' = L.dirtied d' ∧
      (L.respond c d r).writeBacks d' = L.writeBacks d' + (if d' = d ∧ supplies r d then 1 else 0) ∧
      (L.respond c d r).owed d' = if d' ≠ d ∧ L.snoop c d' = .acking ∧ supplies r d' then 1 else 0 := by
  have hframe : ∀ L₁ : Line n, (L₁.collect c r).state = L₁.state ∧ (L₁.collect c r).dirtied = L₁.dirtied ∧
      (L₁.collect c r).writeBacks = L₁.writeBacks := by
    intro L₁
    unfold collect
    split_ifs <;> exact ⟨rfl, rfl, rfl⟩
  obtain ⟨h1, h2, h3⟩ := hframe ((L.supply d r).setSnoop c d .idle)
  have hsupply : (L.supply d r).state = L.state ∧ (L.supply d r).dirtied = L.dirtied := by
    unfold supply
    split_ifs <;> exact ⟨rfl, rfl⟩
  refine ⟨congrFun (h1.trans hsupply.1) d', congrFun (h2.trans hsupply.2) d',
    (congrFun h3 d').trans (writeBacks_supply d'), ?_⟩
  have hidle : ∀ d', ((L.supply d r).setSnoop c d .idle).snoop c d' = if d' = d then .idle else L.snoop c d' := by
    intro d'
    rw [snoop_setSnoop, snoop_supply]
    simp
  unfold Line.respond collect at h' ⊢
  split_ifs at h' ⊢ with hdue hacking hacking
  · -- all have answered
    have := idle_of_due_eq_zero hdue d'
    rw [hidle, if_neg hacking.1, hacking.2.1] at this
    cases this
  · exact (owed_of_sent (c := c) h' ((sent_setStage ..).trans (if_pos rfl))).trans (if_neg (by simp))
  · refine (owed_of_sent (c := c) h' ((sent_setStage ..).trans (if_pos rfl))).trans (if_pos ⟨rfl, ?_, hacking.2.2⟩)
    exact (hidle d').trans ((if_neg hacking.1).trans hacking.2.1)
  · refine (owed_of_sent (c := c) h' ((sent_setStage ..).trans (if_pos rfl))).trans (if_neg ?_)
    rintro ⟨-, hack, hsup⟩
    replace hack := (hidle d').symm.trans hack
    split_ifs at hack with hd
    exact hacking ⟨hd, hack, hsup⟩

/-- No request is being answered while the registers have granted an access that has sent none. -/
lemma owed_of_early (h : L.Registers) (ha : L.access c = some a) (hholds : a.stage.holds = true)
    (hearly : a.stage.request = none) (d : Fin n) : L.owed d = 0 := by
  refine owed_of_none fun c' r hr => ?_
  obtain ⟨memOp, hb⟩ := sent_eq_some.1 hr
  have hcc := h.unique hb ha rfl hholds
  subst hcc
  rw [ha] at hb
  cases hb
  cases hearly

lemma owed_of_location (h : L.Registers) (hc : L.sent c = some (location, r)) (hne : location ≠ .snooping)
    (d : Fin n) : L.owed d = 0 := (owed_of_sent h hc).trans (if_neg fun hs => hne hs.1)

lemma Balanced.sameLine (hb : L.Balanced) (hsent : L'.sent = L.sent) (h : SameLine L L') : L'.Balanced := by
  intro d
  rw [held, h.state, h.dirtied, h.writeBacks, owed_congr h.snoop hsent]
  exact hb d

/-- A request moves on, and it is nowhere being answered. -/
lemma Balanced.move {location' : Location} (hb : L.Balanced) (h : L.Registers) (h' : L'.Registers)
    (hc : L.sent c = some (location, r)) (hne : location ≠ .snooping) (hc' : L'.sent c = some (location', r'))
    (hne' : location' ≠ .snooping) (hstate : L'.state = L.state) (hback : L'.writeBacks = L.writeBacks)
    (hdirtied : L'.dirtied = L.dirtied) : L'.Balanced := by
  intro d
  have := hb d
  rw [held, hstate, hback, hdirtied, owed_of_location h' hc' hne']
  rw [owed_of_location h hc hne] at this
  exact this

lemma Balanced.sendRequest (h : L.Registers) (hb : L.Balanced) {sendData : Bool}
    (h' : ((L.changeStateTo c st).sendRequest c memOp sendData).Registers) (ha : L.access c = some a)
    (hholds : a.stage.holds = true) (hearly : a.stage.request = none) (hclean : (L.state c).isDirty = false) :
    ((L.changeStateTo c st).sendRequest c memOp sendData).Balanced := by
  intro d
  have hnew := owed_of_location (c := c) h' ((sent_setStage ..).trans (if_pos rfl)) (by simp) d
  have hold := owed_of_early h ha hholds hearly d
  have hdirtied := dirtied_changeStateTo (L := L) (d := c) st d
  rw [lost_of_clean hclean] at hdirtied
  have := hb d
  rw [hnew]
  change (L.changeStateTo c st).dirtied d = L.writeBacks d + (L.changeStateTo c st).held d + 0
  omega

/-- The write-back of a line that is given up, and the line that is lost. -/
lemma Balanced.giveUp (hb : L.Balanced) {o : Line n} (howed : o.owed = (L.writeBackDirty d).owed)
    (hstate : o.state = ((L.writeBackDirty d).changeStateTo d .INVALID).state)
    (hwriteBacks : o.writeBacks = (L.writeBackDirty d).writeBacks)
    (hdirtied : o.dirtied = ((L.writeBackDirty d).changeStateTo d .INVALID).dirtied) : o.Balanced := by
  intro d'
  have hlost := dirtied_changeStateTo (L := L.writeBackDirty d) (d := d) .INVALID d'
  have hback := writeBacks_writeBackDirty (L := L) (d := d) d'
  have hsame : (L.writeBackDirty d).dirtied d' = L.dirtied d' ∧ (L.writeBackDirty d).held d' = L.held d' ∧
      (L.writeBackDirty d).owed d' = L.owed d' := by
    unfold Line.writeBackDirty
    split_ifs <;> exact ⟨rfl, rfl, rfl⟩
  have := hb d'
  rw [howed, hwriteBacks, hdirtied, held, hstate]
  change _ = _ + ((L.writeBackDirty d).changeStateTo d .INVALID).held d' + _
  omega

lemma isDirty_of_read (hread : st.canBeRead = true) : st.isDirty = true ↔ st = .MODIFIED := by
  rcases MESIState.canBeRead_iff.1 hread with rfl | rfl | rfl <;> decide

lemma isDirty_leaving : st.leaving.isDirty = st.isDirty := by
  unfold MESIState.leaving
  split_ifs with h
  · rw [h]
    rfl
  · rw [Bool.eq_false_iff.2 h]
    rfl

lemma isDirty_transient : r.transient.isDirty = false := by
  unfold SMPMemRequest.transient
  split_ifs <;> rfl

/-- What a cache that had the line adds to the answer is what it loses. -/
lemma supplies_iff (hs : L.Sound upperCaches) (hb : L.Supplies) (hc : L.sent c = some (.snooping, r))
    (hd : L.snoop c d = .received) (hread : (L.state d).canBeRead = true)
    (hr' : r.combineResponses d (L.state d) = .ok r') (d' : Fin n) :
    supplies r' d' ↔ d' = d ∧ (L.state d).isDirty = true := by
  obtain ⟨-, hmodified, hsupplies, -⟩ := combineResponses_supply hs hb hc hd hread hr'
  rw [isDirty_of_read hread, ← hmodified]
  constructor
  · rintro ⟨hsup, hw⟩
    exact ⟨Option.some.inj (hsup.symm.trans (hsupplies hw).1), hw⟩
  · rintro ⟨rfl, hw⟩
    exact ⟨(hsupplies hw).1, hw⟩

lemma Balanced.respond (hb : L.Balanced) (h : L.Registers) (h' : (L.respond c d r).Registers)
    (hc : L.sent c = some (.snooping, r)) (hd : L.snoop c d = .acking ∨ ¬supplies r d) :
    (L.respond c d r).Balanced := by
  intro d'
  obtain ⟨hstate, hdirtied, hback, howed⟩ := respond_balance h' d'
  have hold : L.owed d' = if L.snoop c d' = .acking ∧ supplies r d' then 1 else 0 :=
    (owed_of_sent h hc).trans (if_congr (by simp [supplies]) rfl rfl)
  have := hb d'
  rw [held, hstate, hdirtied, hback, howed]
  change _ = _ + L.held d' + _
  by_cases hdd : d' = d
  · subst hdd
    simp only [ne_eq, not_true_eq_false, false_and, if_false, true_and]
    rcases hd with hd | hd
    · simp only [hd, true_and] at hold
      omega
    · simp only [hd, and_false, if_false] at hold ⊢
      omega
  · simp only [hdd, ne_eq, not_false_eq_true, true_and, false_and, if_false]
    omega

/-- A modified line is given up for the request of another cache. -/
lemma owed_of_not_down (h : L.Registers) (hc : L.sent c = some (location, r)) (hdown : r.writeDown = false)
    (d : Fin n) : L.owed d = 0 := (owed_of_sent h hc).trans (if_neg (by simp [hdown]))

/-- A cache that has something to do about a request. -/
lemma sent_of_snoop (h : L.Inv) (hd : L.snoop c d ≠ .idle) : ∃ r, L.sent c = some (.snooping, r) := by
  rcases hc : L.sent c with _ | ⟨location, r⟩
  · exact absurd ((h.quiet c hc).idle d) hd
  · by_cases hl : location = .snooping
    · subst hl
      exact ⟨r, rfl⟩
    · exact absurd (((h.onItsWay c _ r hc).elsewhere hl).2 d) hd

lemma Balanced.transition (h : L.Inv) (hs : L.Sound upperCaches) (h' : L'.Registers) (hsup : L.Supplies)
    (hb : L.Balanced) {e : LineEvent n} (ht : L.Transition upperCaches e L') : L'.Balanced := by
  cases ht with
  | special => exact hb
  | start hpush hspecial hc => exact hb.sameLine (sent_start hc) ⟨rfl, rfl, rfl, rfl⟩
  | wait hpush hspecial hc => exact hb.sameLine rfl ⟨rfl, rfl, rfl, rfl⟩
  | readHit hc hread => exact hb.sameLine (sent_retireOutsReq hc rfl) .retireOutsReq
  | @writeHit c memOp hc hmemOp hwrite =>
    have hstate : (L.changeStateTo c .MODIFIED).Balanced := by
      intro d
      have hdirtied := dirtied_changeStateTo (L := L) (d := c) .MODIFIED d
      rw [lost_of_dirty (by decide)] at hdirtied
      have := hb d
      have howed : (L.changeStateTo c .MODIFIED).owed d = L.owed d := owed_congr rfl rfl
      rw [howed]
      change _ = L.writeBacks d + _ + _
      omega
    exact hstate.sameLine (sent_retireOutsReq (L := L.changeStateTo c .MODIFIED) hc rfl) .retireOutsReq
  | locked hc hlocked => exact hb.sameLine (sent_setStage_early hc rfl rfl) ⟨rfl, rfl, rfl, rfl⟩
  | miss hc hstate => exact hb.sameLine (sent_issueMutExcl hc _) .issueMutExcl
  | missShared hc hmemOp hstate => exact hb.sameLine (sent_issueMutExcl hc _) .issueMutExcl
  | upgrade hc hmemOp hstate => exact hb.sendRequest h.registers h' hc rfl rfl (by rw [hstate]; rfl)
  | send hc hstate => exact hb.sendRequest h.registers h' hc rfl rfl (by rw [hstate]; rfl)
  | sendRetry hc hstate => exact hb.sameLine (sent_setStage_early hc rfl rfl) ⟨rfl, rfl, rfl, rfl⟩
  | sendWaiting hc hstate => exact hb.sameLine (sent_setStage_early hc rfl rfl) ⟨rfl, rfl, rfl, rfl⟩
  | allocate hc => exact hb.sendRequest h.registers h' hc rfl rfl (by rw [h.allocating _ _ _ hc]; rfl)
  | retry hc => exact hb.sameLine (sent_setStage_early hc rfl rfl) ⟨rfl, rfl, rfl, rfl⟩
  | retryWaiting hc => exact hb.sameLine (sent_setStage_early hc rfl rfl) ⟨rfl, rfl, rfl, rfl⟩
  | reserve hc => exact hb.sendRequest h.registers h' hc rfl rfl (by rw [h.allocating _ _ _ hc]; rfl)
  | evict hupper hread => exact hb.giveUp rfl rfl rfl rfl
  | @startEviction c addr hupper hread =>
    intro d
    have hdirtied := dirtied_changeStateTo (L := L) (d := c) (L.state c).leaving d
    have hlost : L.lost c (L.state c).leaving d = 0 := by
      refine if_neg ?_
      rw [isDirty_leaving]
      simp
    have := hb d
    have howed : ((L.setPendInv c (some ⟨upperCaches, false, true, .allocate addr⟩)).changeStateTo c
      (L.state c).leaving).owed d = L.owed d := owed_congr rfl rfl
    rw [howed]
    change (L.changeStateTo c (L.state c).leaving).dirtied d = L.writeBacks d +
      (L.changeStateTo c (L.state c).leaving).held d + _
    omega
  | finishEviction hc => exact hb.giveUp rfl rfl rfl rfl
  | @toMemory c r hc hsnoop =>
    exact hb.move h.registers h' hc (by simp) ((sent_setStage ..).trans (if_pos rfl)) (by simp) rfl rfl rfl
  | @single c r hc hsnoop hn =>
    exact hb.move h.registers h' hc (by simp) ((sent_setStage ..).trans (if_pos rfl)) (by simp) rfl rfl rfl
  | @broadcast c r hc hsnoop hn =>
    intro d
    have hold := owed_of_location h.registers hc (by simp) d
    have hnew := (owed_of_sent (c := c) (d := d) h' ((sent_setStage ..).trans (if_pos rfl))).trans (if_neg ?_)
    · have := hb d
      rw [hnew]
      change L.dirtied d = L.writeBacks d + L.held d + 0
      omega
    · rintro ⟨-, hack, -⟩
      by_cases hdc : d = c <;> simp [hdc] at hack
  | @unaffected c d r hc hd hread =>
    exact hb.respond h.registers h' hc (.inr fun hsupplies => hsup.supplier c r d hc hsupplies.1 hd)
  | @share c d r r' hc hd hread hmemOp hr' =>
    intro d'
    obtain ⟨hstate, hdirtied, hback, howed⟩ := respond_balance (L := L.changeStateTo d .SHARED) h' d'
    have hold := owed_of_not_down h.registers hc (combineResponses_supply hs hsup hc hd hread hr').1 d'
    have hlost := dirtied_changeStateTo (L := L) (d := d) .SHARED d'
    have hiff := supplies_iff hs hsup hc hd hread hr'
    have := hb d'
    rw [held, hstate, hdirtied, hback, howed]
    change _ = L.writeBacks d' + _ + (L.changeStateTo d .SHARED).held d' + _
    have hnone : ¬(d' ≠ d ∧ (L.changeStateTo d .SHARED).snoop c d' = .acking ∧ supplies r' d') :=
      fun hx => hx.1 ((hiff d').1 hx.2.2).1
    have hlost' : (if d' = d ∧ supplies r' d then 1 else 0) = L.lost d .SHARED d' :=
      if_congr (and_congr_right fun _ => by simp [hiff, show MESIState.SHARED.isDirty = false from rfl]) rfl rfl
    rw [if_neg hnone, hlost']
    omega
  | @yield c d r r' hc hd hread hmemOp hr' hupper =>
    intro d'
    have hold := owed_of_not_down h.registers hc (combineResponses_supply hs hsup hc hd hread hr').1 d'
    have hlost := dirtied_changeStateTo (L := L) (d := d) (L.state d).leaving d'
    have hzero : L.lost d (L.state d).leaving d' = 0 := by
      refine if_neg ?_
      rw [isDirty_leaving]
      simp
    have hnew := (owed_of_sent (c := c) (d := d') h' ((sent_setStage ..).trans (if_pos rfl))).trans (if_neg ?_)
    · have := hb d'
      rw [hnew]
      change (L.changeStateTo d (L.state d).leaving).dirtied d' = L.writeBacks d' +
        (L.changeStateTo d (L.state d).leaving).held d' + 0
      omega
    · rintro ⟨-, hack, hsupplies⟩
      obtain ⟨rfl, -⟩ := (supplies_iff hs hsup hc hd hread hr' d').1 hsupplies
      replace hack := (snoop_setSnoop ..).symm.trans hack
      simp at hack
  | @yieldNow c d r r' hc hd hread hmemOp hr' hupper =>
    intro d'
    have hold := owed_of_not_down h.registers hc (combineResponses_supply hs hsup hc hd hread hr').1 d'
    have hlost := dirtied_changeStateTo (L := L) (d := d) .INVALID d'
    have hiff := supplies_iff hs hsup hc hd hread hr' d'
    have hnew := owed_of_sent (c := c) (d := d') h' ((sent_setStage ..).trans (if_pos rfl))
    have hlost' : (if Location.snooping = .snooping ∧
        (((L.setStage c r'.memOp (.sent .snooping r')).setSnoop c d .acking).changeStateTo d .INVALID).snoop c d' =
          .acking ∧ r'.supplier = some d' ∧ r'.writeDown = true then 1 else 0) = L.lost d .INVALID d' := by
      refine if_congr ?_ rfl rfl
      constructor
      · rintro ⟨-, -, hsupplies⟩
        obtain ⟨hdd, hdirty⟩ := hiff.1 hsupplies
        exact ⟨hdd, hdirty, rfl⟩
      · rintro ⟨hdd, hdirty, -⟩
        refine ⟨rfl, ?_, hiff.2 ⟨hdd, hdirty⟩⟩
        exact (snoop_setSnoop ..).trans (if_pos ⟨rfl, hdd⟩)
    have := hb d'
    rw [hnew, hlost']
    change (L.changeStateTo d .INVALID).dirtied d' = L.writeBacks d' + (L.changeStateTo d .INVALID).held d' + _
    omega
  | oneInvalidated hd hlast => exact hb.sameLine rfl ⟨rfl, rfl, rfl, rfl⟩
  | @allInvalidated c d e hd hlast hcb =>
    intro d'
    have hinv := h.invalidating c d e hd hcb
    obtain ⟨r, hc⟩ := sent_of_snoop h (by simp [hinv] : L.snoop c d ≠ .idle)
    have hyields := hsup.yields c r d hc hinv
    have hold := owed_of_sent (d := d') h.registers hc
    have hnew := owed_of_sent (c := c) (d := d') h' hc
    have hsnoop : ((((L.setPendInv d none).changeStateTo d .INVALID).setSnoop c d .acking).snoop c d') =
        if d' = d then .acking else L.snoop c d' :=
      (snoop_setSnoop ..).trans (if_congr (and_iff_right rfl) rfl rfl)
    have hlost := dirtied_changeStateTo (L := L) (d := d) .INVALID d'
    have hdirty : (L.state d).isDirty = true ↔ supplies r d := by
      refine Iff.trans ?_ hyields
      rcases h.leaving d (.inl (by simp [hd])) with hl | hl <;> rw [hl] <;> decide
    have := hb d'
    rw [hnew, hsnoop]
    change (L.changeStateTo d .INVALID).dirtied d' = L.writeBacks d' + (L.changeStateTo d .INVALID).held d' + _
    by_cases hdd : d' = d
    · subst hdd
      have hlost' : L.lost d' .INVALID d' = if supplies r d' then 1 else 0 :=
        if_congr (by simp [hdirty, show MESIState.INVALID.isDirty = false from rfl]) rfl rfl
      rw [if_pos rfl]
      simp only [hinv, reduceCtorEq, false_and, and_false, if_false] at hold
      rw [hlost'] at hlost
      simp only [true_and]
      change _ = _ + _ + if supplies r d' then 1 else 0
      omega
    · have hlost' : L.lost d .INVALID d' = 0 := if_neg fun hx => hdd hx.1
      rw [if_neg hdd, ← hold]
      omega
  | gaveWay hd hlast hcb => exact hb.sameLine rfl ⟨rfl, rfl, rfl, rfl⟩
  | @ack c d r hc hd => exact hb.respond h.registers h' hc (.inl hd)
  | @memory c r hc =>
    exact hb.move h.registers h' hc (by simp) ((sent_setStage ..).trans (if_pos rfl)) (by simp) rfl rfl rfl
  | @goToMemory c r hc hmiss hsnoop hdata =>
    intro d
    have hold := owed_of_location h.registers hc (by simp) d
    have hnew := owed_of_location (c := c) h' ((sent_setStage ..).trans (if_pos rfl)) (by simp) d
    have hlost := dirtied_changeStateTo (L := L) (d := c)
      (if r.memOp = .MemRead then .TRANS_RD_MEM else .TRANS_WR_MEM) d
    rw [lost_of_clean ((h.onItsWay c _ r hc).state ▸ isDirty_transient)] at hlost
    have := hb d
    rw [hnew]
    change (L.changeStateTo c _).dirtied d = L.writeBacks d + (L.changeStateTo c _).held d + 0
    omega
  | @conclude c r st hc hanswer =>
    have hmid : (L.changeStateTo c st).Balanced := by
      intro d
      have hlost := dirtied_changeStateTo (L := L) (d := c) st d
      rw [lost_of_clean ((h.onItsWay c _ r hc).state ▸ isDirty_transient)] at hlost
      have := hb d
      have howed : (L.changeStateTo c st).owed d = L.owed d := owed_congr rfl rfl
      rw [howed]
      change _ = L.writeBacks d + _ + _
      omega
    obtain ⟨hstate, -, hback, hdirtied⟩ := SameLine.concludeAccess (L := L.changeStateTo c st) (c := c)
    intro d
    have hold : (L.changeStateTo c st).owed d = 0 :=
      owed_of_location (L := L.changeStateTo c st) h.registers.changeStateTo hc (by simp) d
    have hnew : ((L.changeStateTo c st).concludeAccess c).owed d = 0 := owed_of_none fun c' r' hr' => by
      rw [sent_concludeAccess (L := L.changeStateTo c st) h.registers.changeStateTo hc c'] at hr'
      cases hr'
    have := hmid d
    rw [hold] at this
    rw [held, hstate, hback, hdirtied, hnew]
    exact this

/-- What is proved of the modifications of every reachable line. -/
structure Kept (upperCaches : ℕ) (L : Line n) : Prop where
  safe : L.Safe upperCaches
  supplies : L.Supplies
  balanced : L.Balanced

lemma Kept.new : (Line.new : Line n).Kept upperCaches where
  safe := ⟨.new, .new⟩
  supplies := .of_none fun _ => rfl
  balanced d := by
    have howed : (Line.new : Line n).owed d = 0 := owed_of_none fun _ _ hr => by cases hr
    have hheld : (Line.new : Line n).held d = 0 := if_neg (show ¬MESIState.INVALID.isDirty = true by decide)
    have hnew : (Line.new : Line n).dirtied d = 0 ∧ (Line.new : Line n).writeBacks d = 0 := ⟨rfl, rfl⟩
    omega

lemma Kept.step (h : L.Kept upperCaches) {e : LineEvent n} (hs : L.step upperCaches e = .ok L') :
    L'.Kept upperCaches := by
  have hsafe := h.safe.step hs
  have ht := h.safe.transition_of_step hs
  have hregisters := hsafe.inv.registers
  exact ⟨hsafe, h.supplies.transition h.safe.inv h.safe.sound hregisters ht,
    h.balanced.transition h.safe.inv h.safe.sound hregisters h.supplies ht⟩

end Line

namespace System

variable {n upperCaches : ℕ}

lemma preserved_kept : Preserved upperCaches (Line.Kept (n := n) upperCaches) :=
  ⟨.new, fun _ _ _ h hs => h.step hs⟩

/-- Every time that a cache makes a clean line dirty, the line is written back exactly once: in every state
the modifications of the cache are those that have been written back, the one that it holds in its line,
and the one that it owes to the request of another cache. -/
theorem written_back (n upperCaches : ℕ) {s : System n} (h : (machine n upperCaches).Reachable s) (addr : Addr)
    (d : Fin n) : (s addr).dirtied d = (s addr).writeBacks d + (s addr).held d + (s addr).owed d :=
  (preserved_kept.reachable h addr).balanced d

/-- A cache writes a line and evicts it; another cache asks the memory for it. -/
def readAfterEviction : List (Event 2) :=
  [.access c₀ 7 .MemWrite, .run c₀ 7, .send c₀ 7 .invalid, .bus c₀ 7, .receive c₀ c₁ 7, .answer c₀ 7, .bus c₀ 7,
    .memory c₀ 7, .answer c₀ 7, .access c₀ 8 .MemRead, .run c₀ 8, .send c₀ 8 (.line 7), .access c₁ 7 .MemRead,
    .run c₁ 7, .send c₁ 7 .invalid, .bus c₁ 7, .receive c₁ c₀ 7, .answer c₁ 7, .bus c₁ 7]

theorem written_back_readAfterEviction : ∃ s, (machine 2 0).Run readAfterEviction s ∧ (s 7).dirtied 0 = 1 ∧
    (s 7).dirtied 0 = (s 7).writeBacks 0 + (s 7).held 0 + (s 7).owed 0 :=
  ⟨_, Machine.run_of_exec rfl, rfl, written_back 2 0 ⟨readAfterEviction, Machine.run_of_exec rfl⟩ 7 0⟩

end System

end Sesc.Smp
