import Sesc.Smp.System
import Sesc.Smp.Transitions

/-!
# The assertions of the protocol

Every reachable line is sound, so that the code performs each event that may happen.  One assertion is
left that can fail: a cache may evict a line while a write that has found it shared waits for the registers.
-/

namespace Sesc.Smp

open Lib Mshr

namespace Line

variable {n upperCaches : ℕ} {L L' : Line n} {c d : Fin n} {memOp : MemOperation} {stage : Stage n}
  {r r' : SMPMemRequest n} {location : Location} {st : MESIState}

lemma Sound.new : (Line.new : Line n).Sound upperCaches where
  special _ _ h := nomatch h
  waiting _ _ h := nomatch h
  missed _ _ h := nomatch h
  allocating _ _ _ h := nomatch h
  request _ _ _ h := nomatch h
  fresh _ _ h := nomatch h
  owned _ _ _ h := nomatch h
  entry _ _ h := nomatch h
  replacing _ h := absurd rfl h
  leaving _ h := by
    rcases h with h | h <;> cases h
  invalidating _ _ h := nomatch h

/-! ## Accesses -/

namespace Operations

lemma congr (h : L.Operations) (haccess : L'.access = L.access) (hwaiting : L'.waiting = L.waiting)
    (hstate : L'.state = L.state) (hsnoop : L'.snoop = L.snoop) : L'.Operations := by
  have hsent : L'.sent = L.sent := by
    funext c
    rw [sent, sent, haccess]
  constructor
  · rw [haccess]
    exact h.special
  · rw [hwaiting]
    exact h.waiting
  · rw [haccess, hstate]
    exact h.missed
  · rw [haccess]
    exact h.allocating
  · rw [hsent]
    exact h.request
  · rw [hsent]
    exact h.fresh
  · rw [hsent, hsnoop, hstate]
    exact h.owned

lemma setStage (h : L.Operations) (hspecial : memOp ≠ .MemSpecialOp)
    (hmissed : stage = .queued ∨ stage = .granted →
      L.state c = .INVALID ∨ memOp ≠ .MemRead ∧ (L.state c = .SHARED ∨ L.state c = .TRANS_INV))
    (hallocating : ∀ rpl, stage = .allocating rpl → memOp ≠ .MemWrite)
    (hrequest : ∀ location r, stage.request = some (location, r) →
      r.WellFormed ∧ (location = .toBus → r.state = .INVALID))
    (howned : ∀ location r, stage.request = some (location, r) → r.state.canBeWritten = true → ∀ d,
      L.snoop c d = .received → (L.state d).canBeRead = false) :
    (L.setStage c memOp stage).Operations where
  special c' a ha := by
    simp only [Line.setStage, Function.update_apply] at ha
    split_ifs at ha with hc
    · cases ha
      exact hspecial
    · exact h.special c' a ha
  waiting := h.waiting
  missed c' a ha := by
    simp only [Line.setStage, Function.update_apply] at ha
    split_ifs at ha with hc
    · cases ha
      rw [hc]
      exact hmissed
    · exact h.missed c' a ha
  allocating c' memOp' rpl ha := by
    simp only [Line.setStage, Function.update_apply] at ha
    split_ifs at ha with hc
    · cases ha
      exact hallocating rpl rfl
    · exact h.allocating c' memOp' rpl ha
  request c' location r hr := by
    rw [sent_setStage] at hr
    split_ifs at hr with hc
    · exact (hrequest location r hr).1
    · exact h.request c' location r hr
  fresh c' r hr := by
    rw [sent_setStage] at hr
    split_ifs at hr with hc
    · exact (hrequest _ r hr).2 rfl
    · exact h.fresh c' r hr
  owned c' location r hr := by
    rw [sent_setStage] at hr
    split_ifs at hr with hc
    · rw [hc]
      exact howned location r hr
    · exact h.owned c' location r hr

/-- An access that has no request yet, and no line to allocate. -/
lemma setEarly (h : L.Operations) (hspecial : memOp ≠ .MemSpecialOp)
    (hstage : stage = .scheduled ∨ ((stage = .queued ∨ stage = .granted) ∧
      (L.state c = .INVALID ∨ memOp ≠ .MemRead ∧ (L.state c = .SHARED ∨ L.state c = .TRANS_INV)))) :
    (L.setStage c memOp stage).Operations := by
  rcases hstage with rfl | ⟨rfl | rfl, hmissed⟩
  · exact h.setStage hspecial (by simp) (by simp) (by simp [Stage.request]) (by simp [Stage.request])
  · exact h.setStage hspecial (fun _ => hmissed) (by simp) (by simp [Stage.request]) (by simp [Stage.request])
  · exact h.setStage hspecial (fun _ => hmissed) (by simp) (by simp [Stage.request]) (by simp [Stage.request])

lemma setAllocating (h : L.Operations) (hspecial : memOp ≠ .MemSpecialOp) (hwrite : memOp ≠ .MemWrite)
    (rpl : Option Addr) : (L.setStage c memOp (.allocating rpl)).Operations :=
  h.setStage hspecial (by simp) (fun _ _ => hwrite) (by simp [Stage.request]) (by simp [Stage.request])

lemma setSent (h : L.Operations) (location : Location) (hr : r.WellFormed) (hfresh : location = .toBus → r.state = .INVALID)
    (howned : r.state.canBeWritten = true → ∀ d, L.snoop c d = .received → (L.state d).canBeRead = false) :
    (L.setStage c r.memOp (.sent location r)).Operations := by
  refine h.setStage hr.special (by simp) (by simp) ?_ ?_
  · rintro _ _ ⟨⟩
    exact ⟨hr, hfresh⟩
  · rintro _ _ ⟨⟩
    exact howned

lemma dropWaiting (h : L.Operations) {l : List MemOperation} (hl : ∀ m ∈ l, m ≠ .MemSpecialOp) :
    { L with waiting := Function.update L.waiting c l }.Operations where
  special := h.special
  waiting c' m hm := by
    simp only [Function.update_apply] at hm
    split_ifs at hm with hc
    · exact hl m hm
    · exact h.waiting c' m hm
  missed := h.missed
  allocating := h.allocating
  request := h.request
  fresh := h.fresh
  owned := h.owned

/-- The access of a cache is over. -/
lemma clear (h : L.Operations) : { L with access := Function.update L.access c none }.Operations := by
  have haccess : ∀ c' a, Function.update L.access c none c' = some a → L.access c' = some a := by
    intro c' a ha
    by_cases hc : c' = c
    · simp [hc] at ha
    · simpa [hc] using ha
  have hsent : ∀ c' p, { L with access := Function.update L.access c none }.sent c' = some p →
      L.sent c' = some p := by
    rintro c' ⟨location, r⟩ hp
    obtain ⟨memOp, ha⟩ := sent_eq_some.1 hp
    exact sent_eq_some.2 ⟨memOp, haccess c' _ ha⟩
  exact ⟨fun c' a ha => h.special c' a (haccess c' a ha), h.waiting,
    fun c' a ha => h.missed c' a (haccess c' a ha),
    fun c' m rpl ha => h.allocating c' m rpl (haccess c' _ ha),
    fun c' location r hr => h.request c' location r (hsent c' _ hr), fun c' r hr => h.fresh c' r (hsent c' _ hr),
    fun c' location r hr => h.owned c' location r (hsent c' _ hr)⟩

lemma retireOutsReq (h : L.Operations) : (L.retireOutsReq c).Operations := by
  unfold Line.retireOutsReq
  split
  · exact h.clear
  next memOp rest hwaiting =>
    have hmem : ∀ m ∈ memOp :: rest, m ≠ .MemSpecialOp := fun m hm => h.waiting c m (hwaiting ▸ hm)
    have hset := h.setEarly (c := c) (hmem memOp List.mem_cons_self) (.inl rfl)
    exact hset.dropWaiting fun m hm => hmem m (List.mem_cons_of_mem _ hm)

lemma issueMutExcl (h : L.Operations) (hspecial : memOp ≠ .MemSpecialOp)
    (hmissed : L.state c = .INVALID ∨ memOp ≠ .MemRead ∧ (L.state c = .SHARED ∨ L.state c = .TRANS_INV)) :
    (L.issueMutExcl c memOp).Operations := by
  unfold Line.issueMutExcl
  split
  · exact (h.setEarly hspecial (.inr ⟨.inr rfl, hmissed⟩)).congr rfl rfl rfl rfl
  · exact (h.setEarly hspecial (.inr ⟨.inl rfl, hmissed⟩)).congr rfl rfl rfl rfl

/-- The next access in the queue becomes the holder. -/
lemma retireMutExcl (h : L.Operations) (hregisters : L.Registers) : L.retireMutExcl.Operations := by
  unfold Line.retireMutExcl
  split
  · exact h.congr rfl rfl rfl rfl
  next d rest hqueue =>
    obtain ⟨memOp, hd⟩ := hregisters.queued d (by simp [hqueue])
    have hmissed := h.missed d _ hd (.inl rfl)
    have hset := h.setEarly (c := d) (h.special d _ hd) (.inr ⟨.inr rfl, hmissed⟩)
    rw [hd]
    exact hset.congr rfl rfl rfl rfl

lemma changeStateTo (h : L.Operations)
    (hmissed : ∀ a, L.access d = some a → a.stage = .queued ∨ a.stage = .granted →
      st = .INVALID ∨ a.memOp ≠ .MemRead ∧ (st = .SHARED ∨ st = .TRANS_INV))
    (hread : st.canBeRead = true → (L.state d).canBeRead = true ∨ ∀ c, L.snoop c d ≠ .received) :
    (L.changeStateTo d st).Operations where
  special := h.special
  waiting := h.waiting
  missed c a ha hstage := by
    rw [state_changeStateTo]
    split_ifs with hc
    · exact hmissed a (hc ▸ ha) hstage
    · exact h.missed c a ha hstage
  allocating := h.allocating
  request := h.request
  fresh := h.fresh
  owned c location r hr hw d' hd' := by
    rw [state_changeStateTo]
    split_ifs with hd
    · have hold := h.owned c location r hr hw d' hd'
      by_contra hst
      subst hd
      rcases hread (by simpa using hst) with hread | hnot
      · rw [hold] at hread
        cases hread
      · exact hnot c hd'
    · exact h.owned c location r hr hw d' hd'

lemma setSnoop (h : L.Operations) {s : Snoop} (hs : s ≠ .received) : (L.setSnoop c d s).Operations where
  special := h.special
  waiting := h.waiting
  missed := h.missed
  allocating := h.allocating
  request := h.request
  fresh := h.fresh
  owned c' location r hr hw d' hd' := by
    rw [snoop_setSnoop] at hd'
    split_ifs at hd' with hcd
    · exact absurd hd' hs
    · exact h.owned c' location r hr hw d' hd'

end Operations

/-! ## Lines on their way out -/

namespace Departures

lemma congr (h : L.Departures upperCaches) (hstate : L'.state = L.state) (hsnoop : L'.snoop = L.snoop)
    (hpend : L'.pendInvTable = L.pendInvTable) (hreplacing : L'.replacing = L.replacing) :
    L'.Departures upperCaches := by
  constructor
  · rw [hpend]
    exact h.entry
  · rw [hreplacing]
    exact h.replacing
  · rw [hstate, hpend, hreplacing]
    exact h.leaving
  · rw [hsnoop, hpend]
    exact h.invalidating

lemma setStage (h : L.Departures upperCaches) : (L.setStage c memOp stage).Departures upperCaches :=
  h.congr rfl rfl rfl rfl

lemma retireOutsReq (h : L.Departures upperCaches) : (L.retireOutsReq c).Departures upperCaches := by
  unfold Line.retireOutsReq
  split <;> exact h.congr rfl rfl rfl rfl

lemma issueMutExcl (h : L.Departures upperCaches) : (L.issueMutExcl c memOp).Departures upperCaches := by
  unfold Line.issueMutExcl
  split <;> exact h.congr rfl rfl rfl rfl

lemma concludeAccess (h : L.Departures upperCaches) : (L.concludeAccess c).Departures upperCaches := by
  obtain ⟨h1, h2, -, h4, h5⟩ := L.concludeAccess_frame (c := c)
  exact h.congr h1 h2 h4 h5

lemma changeStateTo (h : L.Departures upperCaches)
    (hst : st = .TRANS_INV ∨ st = .TRANS_INV_D → L.pendInvTable d ≠ none ∨ L.replacing d ≠ none) :
    (L.changeStateTo d st).Departures upperCaches where
  entry := h.entry
  replacing := h.replacing
  leaving d' hd' := by
    rw [state_changeStateTo] at hd'
    split_ifs at hd' with hd
    · rw [hd]
      exact hst hd'
    · exact h.leaving d' hd'
  invalidating := h.invalidating

lemma setSnoop (h : L.Departures upperCaches) {s : Snoop}
    (hs : s = .invalidating → ∃ e, L.pendInvTable d = some e ∧ e.cb = .ack c) :
    (L.setSnoop c d s).Departures upperCaches where
  entry := h.entry
  replacing := h.replacing
  leaving := h.leaving
  invalidating c' d' hd' := by
    rw [snoop_setSnoop] at hd'
    split_ifs at hd' with hcd
    · obtain ⟨rfl, rfl⟩ := hcd
      exact hs hd'
    · exact h.invalidating c' d' hd'

lemma setReplacing (h : L.Departures upperCaches) {o : Option Addr} (ho : o ≠ none → 0 < upperCaches)
    (hnone : o = none → L.state d ≠ .TRANS_INV ∧ L.state d ≠ .TRANS_INV_D) :
    (L.setReplacing d o).Departures upperCaches where
  entry := h.entry
  replacing d' hd' := by
    simp only [Line.setReplacing, Function.update_apply] at hd'
    split_ifs at hd'
    · exact ho hd'
    · exact h.replacing d' hd'
  leaving d' hd' := by
    simp only [Line.setReplacing, Function.update_apply]
    split_ifs with hd
    · subst hd
      refine .inr fun hn => ?_
      rcases hd' with hs | hs
      · exact (hnone hn).1 hs
      · exact (hnone hn).2 hs
    · exact h.leaving d' hd'
  invalidating := h.invalidating

/-- A new entry, or one that replaces an entry with the same callback. -/
lemma setPendInv_some (h : L.Departures upperCaches) {e : Entry n}
    (he : 0 < e.outsResps ∧ e.outsResps ≤ upperCaches ∧
      ((e.invalidate = true ∧ e.writeback = false ∧ ∃ c, e.cb = .ack c) ∨
        (e.invalidate = false ∧ ∃ addr, e.cb = .allocate addr)))
    (hold : ∀ e', L.pendInvTable d = some e' → e'.cb = e.cb) :
    (L.setPendInv d (some e)).Departures upperCaches where
  entry d' e' he' := by
    simp only [Line.setPendInv, Function.update_apply] at he'
    split_ifs at he'
    · cases he'
      exact he
    · exact h.entry d' e' he'
  replacing := h.replacing
  leaving d' hd' := by
    simp only [Line.setPendInv, Function.update_apply]
    split_ifs
    · simp
    · exact h.leaving d' hd'
  invalidating c d' hc := by
    obtain ⟨e', he', hcb⟩ := h.invalidating c d' hc
    simp only [Line.setPendInv, Function.update_apply]
    split_ifs with hd
    · exact ⟨e, rfl, (hold e' (hd ▸ he')).symm.trans hcb⟩
    · exact ⟨e', he', hcb⟩

lemma setPendInv_none (h : L.Departures upperCaches) (hc : ∀ c, L.snoop c d ≠ .invalidating)
    (hleaving : L.state d = .TRANS_INV ∨ L.state d = .TRANS_INV_D → L.replacing d ≠ none) :
    (L.setPendInv d none).Departures upperCaches where
  entry d' e' he' := by
    simp only [Line.setPendInv, Function.update_apply] at he'
    split_ifs at he'
    exact h.entry d' e' he'
  replacing := h.replacing
  leaving d' hd' := by
    simp only [Line.setPendInv, Function.update_apply]
    split_ifs with hd
    · subst hd
      exact .inr (hleaving hd')
    · exact h.leaving d' hd'
  invalidating c d' hd' := by
    have hd : d' ≠ d := by
      rintro rfl
      exact hc c hd'
    simpa [Line.setPendInv, hd] using h.invalidating c d' hd'

end Departures

/-! ## One step -/

lemma mutateWriteToRead_ne_special (h : memOp ≠ .MemSpecialOp) : mutateWriteToRead memOp ≠ .MemSpecialOp := by
  unfold mutateWriteToRead
  split_ifs
  · simp
  · exact h

lemma mutateWriteToRead_ne_write : mutateWriteToRead memOp ≠ .MemWrite := by
  unfold mutateWriteToRead
  split_ifs with h
  · simp
  · exact h

lemma wellFormed_new {sendData : Bool} (hspecial : memOp ≠ .MemSpecialOp) (hpush : memOp ≠ .MemPush)
    (hwrite : memOp = .MemWrite → sendData = false) (hread : memOp = .MemRead → sendData = true) :
    SMPMemRequest.WellFormed (n := n) ⟨memOp, .INVALID, none, false, memOp ≠ .MemPush, sendData, false⟩ :=
  ⟨hspecial, hwrite, hread, fun _ => decide_eq_true hpush⟩

lemma Sound.writeBackDirty (hs : L.Sound upperCaches) : (L.writeBackDirty d).Sound upperCaches := by
  unfold Line.writeBackDirty
  split_ifs
  · exact ⟨hs.toOperations.congr rfl rfl rfl rfl, hs.toDepartures.congr rfl rfl rfl rfl⟩
  · exact hs

/-- A new request goes to the bus. -/
lemma Sound.sendRequest (hs : L.Sound upperCaches) {sendData : Bool}
    (hr : SMPMemRequest.WellFormed (n := n) ⟨memOp, .INVALID, none, false, memOp ≠ .MemPush, sendData, false⟩)
    (hst : st.canBeRead = false ∧ st ≠ .TRANS_INV ∧ st ≠ .TRANS_INV_D) :
    ((L.changeStateTo c st).sendRequest c memOp sendData).Sound upperCaches := by
  obtain ⟨hread, hinv, hinvd⟩ := hst
  have hset : (L.setStage c memOp (.sent .toBus
      ⟨memOp, .INVALID, none, false, memOp ≠ .MemPush, sendData, false⟩)).Operations :=
    hs.toOperations.setSent _ hr (fun _ => rfl) fun hw => absurd (show MESIState.canBeWritten .INVALID = true from hw) (by decide)
  refine ⟨hset.changeStateTo ?_ fun hw => absurd hw (by simp [hread]), ?_⟩
  · intro a ha hstage
    simp only [Line.setStage, Function.update_self, Option.some.injEq] at ha
    subst ha
    simp at hstage
  · exact (hs.toDepartures.setStage (c := c)).changeStateTo (by simp [hinv, hinvd])

lemma missing_spec : (MESIState.missing memOp).canBeRead = false ∧ MESIState.missing memOp ≠ .TRANS_INV ∧
    MESIState.missing memOp ≠ .TRANS_INV_D := by
  unfold MESIState.missing
  split_ifs <;> decide

lemma Sound.fetch (hs : L.Sound upperCaches) (hspecial : memOp ≠ .MemSpecialOp) (hpush : memOp ≠ .MemPush)
    (hwrite : memOp ≠ .MemWrite) : (L.fetch c memOp).Sound upperCaches :=
  hs.sendRequest (wellFormed_new hspecial hpush (fun h => absurd h hwrite) fun _ => rfl) missing_spec

/-- The bus has an answer more. -/
lemma Sound.respond (hs : L.Sound upperCaches) (hr : r.WellFormed)
    (howned : r.state.canBeWritten = true → ∀ d', d' ≠ d → L.snoop c d' = .received → (L.state d').canBeRead = false) :
    (L.respond c d r).Sound upperCaches := by
  have hsupply : (L.supply d r).Sound upperCaches := by
    unfold supply
    split_ifs
    · exact ⟨hs.toOperations.congr rfl rfl rfl rfl, hs.toDepartures.congr rfl rfl rfl rfl⟩
    · exact hs
  have hstate : (L.supply d r).state = L.state := by
    unfold supply
    split_ifs <;> rfl
  have hops := hsupply.toOperations.setSnoop (c := c) (d := d) (s := .idle) (by simp)
  have hdeps := hsupply.toDepartures.setSnoop (c := c) (d := d) (s := .idle) (by simp)
  have howned' : r.state.canBeWritten = true → ∀ d', ((L.supply d r).setSnoop c d .idle).snoop c d' = .received →
      (((L.supply d r).setSnoop c d .idle).state d').canBeRead = false := by
    intro hw d' hd'
    rw [snoop_setSnoop] at hd'
    split_ifs at hd' with hdd
    rw [snoop_supply] at hd'
    rw [state_setSnoop, hstate]
    exact howned hw d' (by simpa using hdd) hd'
  unfold Line.respond collect
  split_ifs
  · exact ⟨(hops.setSent _ hr (by simp) howned').congr rfl rfl rfl rfl, hdeps.congr rfl rfl rfl rfl⟩
  · exact ⟨(hops.setSent _ hr (by simp) howned').congr rfl rfl rfl rfl, hdeps.congr rfl rfl rfl rfl⟩

/-- What an answer may change of a request. -/
structure Combines (r r' : SMPMemRequest n) (st : MESIState) : Prop where
  memOp : r'.memOp = r.memOp
  needData : r'.needData = r.needData
  needSnoop : r'.needSnoop = r.needSnoop
  owned : r'.state.canBeWritten = true → r.state.canBeWritten = true ∨ st.canBeWritten = true

lemma combines_of (hs : r.combineResponses d st = .ok r') : Combines r r' st := by
  unfold SMPMemRequest.combineResponses at hs
  split_ifs at hs with hnot hshared hfound hex
  · cases hs
    exact ⟨rfl, rfl, rfl, .inl⟩
  · obtain ⟨-, hs⟩ := check_bind_eq_ok.1 hs
    cases hs
    exact ⟨rfl, rfl, rfl, .inl⟩
  · obtain ⟨-, hs⟩ := check_bind_eq_ok.1 hs
    cases hs
    exact ⟨rfl, rfl, rfl, .inr⟩
  · obtain ⟨-, hs⟩ := check_bind_eq_ok.1 hs
    cases hs
    exact ⟨rfl, rfl, rfl, .inr⟩
  · obtain ⟨-, hs⟩ := check_bind_eq_ok.1 hs
    obtain ⟨-, hs⟩ := check_bind_eq_ok.1 hs
    cases hs
    exact ⟨rfl, rfl, rfl, .inr⟩

lemma Combines.wellFormed (h : Combines r r' st) (hr : r.WellFormed) : r'.WellFormed := by
  obtain ⟨hspecial, hwrite, hread, hupgrade⟩ := hr
  constructor <;> simp only [h.memOp, h.needData, h.needSnoop] <;> assumption

/-- Once a cache has answered that it had the line alone, nobody else can read it. -/
lemma Combines.alone (hcombines : Combines r r' (L.state d)) (h : L.Inv) (hs : L.Sound upperCaches)
    (hc : L.sent c = some (location, r)) (hw : r'.state.canBeWritten = true) {d' : Fin n} (hne : d' ≠ d)
    (hd' : L.snoop c d' = .received) : (L.state d').canBeRead = false := by
  rcases hcombines.owned hw with hw | hw
  · exact hs.owned c location r hc hw d' hd'
  · exact h.alone d d' hne.symm hw

lemma not_missed_of_read (h : L.Inv) (hs : L.Sound upperCaches) (hread : (L.state d).canBeRead = true)
    {a : Access n} (ha : L.access d = some a) (hstage : a.stage = .queued ∨ a.stage = .granted) :
    a.memOp ≠ .MemRead ∧ L.state d = .SHARED := by
  rcases hs.missed d a ha hstage with hm | ⟨hm, hm' | hm'⟩
  · exact absurd hm (ne_invalid hread)
  · exact ⟨hm, hm'⟩
  · exact absurd hm' (ne_leaving hread).1

/-- A line becomes one that nobody may read. -/
lemma Sound.giveUp (hs : L.Sound upperCaches)
    (hmissed : ∀ a, L.access d = some a → a.stage = .queued ∨ a.stage = .granted →
      st = .INVALID ∨ a.memOp ≠ .MemRead ∧ st = .TRANS_INV)
    (hread : st.canBeRead = false)
    (hst : st = .TRANS_INV ∨ st = .TRANS_INV_D → L.pendInvTable d ≠ none ∨ L.replacing d ≠ none) :
    (L.changeStateTo d st).Sound upperCaches :=
  ⟨hs.toOperations.changeStateTo (fun a ha hstage => (hmissed a ha hstage).imp_right (And.imp_right .inr))
    fun hr => absurd hr (by simp [hread]), hs.toDepartures.changeStateTo hst⟩

/-- The line of a cache begins to give way. -/
lemma Sound.leave (h : L.Inv) (hs : L.Sound upperCaches) (hread : (L.state d).canBeRead = true) {e : Entry n}
    (he : 0 < e.outsResps ∧ e.outsResps ≤ upperCaches ∧
      ((e.invalidate = true ∧ e.writeback = false ∧ ∃ c, e.cb = .ack c) ∨
        (e.invalidate = false ∧ ∃ addr, e.cb = .allocate addr))) :
    ((L.setPendInv d (some e)).changeStateTo d (L.state d).leaving).Sound upperCaches := by
  have hpend := (h.not_leaving (ne_leaving hread)).1
  have hset : (L.setPendInv d (some e)).Sound upperCaches :=
    ⟨hs.toOperations.congr rfl rfl rfl rfl,
      hs.toDepartures.setPendInv_some he fun e' he' => absurd (hpend.symm.trans he') (by simp)⟩
  refine hset.giveUp (fun a ha hstage => ?_) ?_ fun _ => .inl (by simp [setPendInv])
  · obtain ⟨hm, hshared⟩ := not_missed_of_read h hs hread ha hstage
    rw [hshared]
    exact .inr ⟨hm, rfl⟩
  · rcases leaving_cases (L.state d) with hl | hl <;> rw [hl] <;> rfl

lemma Sound.transition (h : L.Inv) (hs : L.Sound upperCaches) {e : LineEvent n}
    (ht : L.Transition upperCaches e L') : L'.Sound upperCaches := by
  cases ht with
  | special => exact hs
  | start hpush hspecial hc =>
    exact ⟨hs.toOperations.setEarly hspecial (.inl rfl), hs.toDepartures.setStage⟩
  | wait hpush hspecial hc =>
    refine ⟨hs.toOperations.dropWaiting fun m hm => ?_, hs.toDepartures.congr rfl rfl rfl rfl⟩
    rcases List.mem_append.1 hm with hm | hm
    · exact hs.waiting _ m hm
    · exact List.mem_singleton.1 hm ▸ hspecial
  | readHit hc hread => exact ⟨hs.toOperations.retireOutsReq, hs.toDepartures.retireOutsReq⟩
  | @writeHit c memOp hc hmemOp hwrite =>
    have hstate : (L.changeStateTo c .MODIFIED).Sound upperCaches := by
      refine ⟨hs.toOperations.changeStateTo ?_ fun _ => .inl (MESIState.canBeRead_of_canBeWritten hwrite),
        hs.toDepartures.changeStateTo (by simp)⟩
      intro a ha hstage
      rw [hc] at ha
      cases ha
      simp at hstage
    exact ⟨hstate.toOperations.retireOutsReq, hstate.toDepartures.retireOutsReq⟩
  | locked hc hlocked =>
    exact ⟨hs.toOperations.setEarly (mutateWriteToRead_ne_special (hs.special _ _ hc)) (.inl rfl),
      hs.toDepartures.setStage⟩
  | miss hc hstate =>
    exact ⟨hs.toOperations.issueMutExcl (mutateWriteToRead_ne_special (hs.special _ _ hc)) (.inl hstate),
      hs.toDepartures.issueMutExcl⟩
  | missShared hc hmemOp hstate =>
    exact ⟨hs.toOperations.issueMutExcl (hs.special _ _ hc) (.inr ⟨hmemOp, .inl hstate⟩),
      hs.toDepartures.issueMutExcl⟩
  | upgrade hc hmemOp hstate =>
    exact hs.sendRequest (wellFormed_new (hs.special _ _ hc) (h.registers.memOp _ _ hc) (fun _ => rfl)
      fun hr => absurd hr hmemOp) (by decide)
  | send hc hstate =>
    exact hs.fetch (mutateWriteToRead_ne_special (hs.special _ _ hc))
      (mutateWriteToRead_ne (h.registers.memOp _ _ hc)) mutateWriteToRead_ne_write
  | sendRetry hc hstate =>
    exact ⟨hs.toOperations.setAllocating (mutateWriteToRead_ne_special (hs.special _ _ hc))
      mutateWriteToRead_ne_write none, hs.toDepartures.setStage⟩
  | @sendWaiting c memOp rpl hc hstate =>
    exact ⟨hs.toOperations.setAllocating (mutateWriteToRead_ne_special (hs.special _ _ hc))
      mutateWriteToRead_ne_write (some rpl), hs.toDepartures.setStage⟩
  | allocate hc =>
    exact hs.fetch (hs.special _ _ hc) (h.registers.memOp _ _ hc) (hs.allocating _ _ _ hc)
  | retry hc =>
    exact ⟨hs.toOperations.setAllocating (hs.special _ _ hc) (hs.allocating _ _ _ hc) none,
      hs.toDepartures.setStage⟩
  | @retryWaiting c memOp rpl hc =>
    exact ⟨hs.toOperations.setAllocating (hs.special _ _ hc) (hs.allocating _ _ _ hc) (some rpl),
      hs.toDepartures.setStage⟩
  | reserve hc =>
    exact hs.fetch (hs.special _ _ hc) (h.registers.memOp _ _ hc) (hs.allocating _ _ _ hc)
  | evict hupper hread =>
    refine Sound.giveUp ?_ (fun _ _ _ => .inl rfl) rfl (by simp)
    exact hs.writeBackDirty
  | startEviction hupper hread => exact hs.leave h hread ⟨by simpa using hupper, le_refl _, .inr ⟨rfl, _, rfl⟩⟩
  | @finishEviction c hc =>
    have hinvalid : ((L.writeBackDirty c).changeStateTo c .INVALID).Sound upperCaches :=
      hs.writeBackDirty.giveUp (fun _ _ _ => .inl rfl) rfl (by simp)
    exact ⟨hinvalid.toOperations.congr rfl rfl rfl rfl, hinvalid.toDepartures.setReplacing (by simp) (by simp)⟩
  | toMemory hc hsnoop =>
    exact ⟨hs.toOperations.setSent _ (hs.request _ _ _ hc) (by simp) (hs.owned _ _ _ hc), hs.toDepartures.setStage⟩
  | single hc hsnoop hn =>
    exact ⟨(hs.toOperations.setSent _ (hs.request _ _ _ hc) (by simp) (hs.owned _ _ _ hc)).congr rfl rfl rfl rfl,
      hs.toDepartures.congr rfl rfl rfl rfl⟩
  | @broadcast c r hc hsnoop hn =>
    have hset := hs.toOperations.setSent (c := c) .snooping (hs.request _ _ _ hc) (by simp)
      (hs.owned _ _ _ hc)
    have hfresh := hs.fresh c r hc
    refine ⟨⟨hset.special, hset.waiting, hset.missed, hset.allocating, hset.request, hset.fresh, ?_⟩,
      ⟨hs.entry, hs.replacing, hs.leaving, fun c' d hd => ?_⟩⟩
    · intro c' location r' hr' hw d hd
      replace hr' := (sent_setStage L r.memOp (.sent .snooping r) c').symm.trans hr'
      split_ifs at hr' with hcc
      · cases hr'
        rw [hfresh] at hw
        cases hw
      · exact hs.owned c' location r' hr' hw d (by simpa [hcc, Line.setStage] using hd)
    · by_cases hcc : c' = c
      · by_cases hdc : d = c <;> simp [hcc, hdc] at hd
      · exact hs.invalidating c' d (by simpa [hcc, Line.setStage] using hd)
  | @unaffected c d r hc hd hread =>
    exact hs.respond (hs.request _ _ _ hc) fun hw d' _ => hs.owned _ _ _ hc hw d'
  | @share c d r r' hc hd hread hmemOp hr' =>
    have hcombines := combines_of hr'
    have hshared : (L.changeStateTo d .SHARED).Sound upperCaches := by
      refine ⟨hs.toOperations.changeStateTo ?_ fun _ => .inl hread, hs.toDepartures.changeStateTo (by simp)⟩
      intro a ha hstage
      exact .inr ⟨(not_missed_of_read h hs hread ha hstage).1, .inl rfl⟩
    refine hshared.respond (hcombines.wellFormed (hs.request _ _ _ hc)) fun hw d' hne hd' => ?_
    rw [state_changeStateTo, if_neg hne]
    exact hcombines.alone h hs hc hw hne hd'
  | @yield c d r r' hc hd hread hmemOp hr' hupper =>
    have hcombines := combines_of hr'
    have hleave := hs.leave h hread (e := ⟨upperCaches, true, false, .ack c⟩)
      ⟨by simpa using hupper, le_refl _, .inl ⟨rfl, rfl, c, rfl⟩⟩
    have hset := hleave.toOperations.setSent (c := c) .snooping
      (hcombines.wellFormed (hs.request _ _ _ hc)) (by simp) fun hw d' hd' => ?_
    · exact ⟨hset.setSnoop (by simp),
        (hleave.toDepartures.setStage (c := c)).setSnoop fun _ => ⟨⟨upperCaches, true, false, .ack c⟩, by simp [Line.setStage, setPendInv, Line.changeStateTo], rfl⟩⟩
    · rw [state_changeStateTo]
      split_ifs with hdd
      · rcases leaving_cases (L.state d) with hl | hl <;> rw [hl] <;> rfl
      · exact hcombines.alone h hs hc hw hdd hd'
  | @yieldNow c d r r' hc hd hread hmemOp hr' hupper =>
    have hcombines := combines_of hr'
    have hgive : (L.changeStateTo d .INVALID).Sound upperCaches :=
      hs.giveUp (fun _ _ _ => .inl rfl) rfl (by simp)
    have hset := hgive.toOperations.setSent (c := c) .snooping
      (hcombines.wellFormed (hs.request _ _ _ hc)) (by simp) fun hw d' hd' => ?_
    · exact ⟨hset.setSnoop (by simp), (hgive.toDepartures.setStage (c := c)).setSnoop (by simp)⟩
    · rw [state_changeStateTo]
      split_ifs with hdd
      · rfl
      · exact hcombines.alone h hs hc hw hdd hd'
  | @oneInvalidated d e hd hlast =>
    obtain ⟨hpos, hle, hcb⟩ := hs.entry d e hd
    refine ⟨hs.toOperations.congr rfl rfl rfl rfl, hs.toDepartures.setPendInv_some ?_ fun e' he' => ?_⟩
    · exact ⟨by simpa using hlast, by simp only; omega, hcb⟩
    · rw [hd] at he'
      cases he'
      rfl
  | @allInvalidated c d e hd hlast hcb =>
    have hgive : (L.changeStateTo d .INVALID).Sound upperCaches :=
      hs.giveUp (fun _ _ _ => .inl rfl) rfl (by simp)
    have hops := hgive.toOperations.setSnoop (c := c) (d := d) (s := .acking) (by simp)
    have hdeps := hgive.toDepartures.setSnoop (c := c) (d := d) (s := .acking) (by simp)
    refine ⟨hops.congr rfl rfl rfl rfl, hdeps.setPendInv_none (fun c' hc' => ?_) (by simp)⟩
    rw [snoop_setSnoop] at hc'
    split_ifs at hc' with hcc
    obtain ⟨e', he', hcb'⟩ := hs.invalidating c' d hc'
    rw [hd] at he'
    cases he'
    rw [hcb] at hcb'
    cases hcb'
    exact hcc ⟨rfl, rfl⟩
  | @gaveWay d e addr hd hlast hcb =>
    have hupper : 0 < upperCaches := by
      obtain ⟨hpos, hle, -⟩ := hs.entry d e hd
      omega
    have hdeps := hs.toDepartures.setReplacing (d := d) (o := some addr) (fun _ => hupper) (by simp)
    refine ⟨hs.toOperations.congr rfl rfl rfl rfl, hdeps.setPendInv_none (fun c hc => ?_) (by simp [setReplacing])⟩
    obtain ⟨e', he', hcb'⟩ := hs.invalidating c d hc
    rw [hd] at he'
    cases he'
    rw [hcb] at hcb'
    cases hcb'
  | ack hc hd => exact hs.respond (hs.request _ _ _ hc) fun hw d' _ => hs.owned _ _ _ hc hw d'
  | memory hc =>
    exact ⟨hs.toOperations.setSent _ (hs.request _ _ _ hc) (by simp) (hs.owned _ _ _ hc), hs.toDepartures.setStage⟩
  | @goToMemory c r hc hmiss hsnoop hdata =>
    obtain ⟨hspecial, hwrite, hread, -⟩ := hs.request _ _ _ hc
    have hset := hs.toOperations.setSent (c := c) .toBus (r := { r with needSnoop := false })
      ⟨hspecial, hwrite, hread, fun hn => absurd (hn.symm.trans hdata) (by simp)⟩ (fun _ => hmiss) (hs.owned c _ r hc)
    refine ⟨hset.changeStateTo (fun a ha hstage => ?_) fun hr => ?_,
      (hs.toDepartures.setStage (c := c)).changeStateTo ?_⟩
    · simp only [Line.setStage, Function.update_self, Option.some.injEq] at ha
      subst ha
      simp at hstage
    · split_ifs at hr <;> cases hr
    · split_ifs <;> simp
  | @conclude c r st hc hanswer =>
    obtain ⟨memOp, ha⟩ := sent_eq_some.1 hc
    have hst : st ≠ .TRANS_INV ∧ st ≠ .TRANS_INV_D := by cases hanswer <;> decide
    have hidle : ∀ c', L.snoop c' c ≠ .received := by
      intro c'
      by_cases hcc : c' = c
      · rw [hcc, (h.onItsWay c _ r hc).self]
        simp
      · rw [(h.quiet c' (h.registers.sent_eq_none hc hcc)).idle c]
        simp
    have hops : (L.changeStateTo c st).Operations := by
      refine hs.toOperations.changeStateTo (fun a ha' hstage => ?_) fun _ => .inr hidle
      rw [ha] at ha'
      cases ha'
      simp at hstage
    have hregisters : ((L.changeStateTo c st).retireOutsReq c).Registers :=
      h.registers.changeStateTo.retireOutsReq ha (by simp)
    exact ⟨hops.retireOutsReq.retireMutExcl hregisters,
      (hs.toDepartures.changeStateTo fun hl => (hl.elim hst.1 hst.2).elim).concludeAccess⟩

/-! ## Runs -/

/-- What is proved of every reachable line. -/
structure Safe (upperCaches : ℕ) (L : Line n) : Prop where
  inv : L.Inv
  sound : L.Sound upperCaches

lemma Fails.step_eq (hs : L.Sound upperCaches) {e : LineEvent n} (he : L.Fails e) :
    L.step upperCaches e = .error .assertion := by
  cases e with
  | access c memOp =>
    cases he
    rfl
  | send c allocated =>
    obtain ⟨⟨memOp, hc⟩, hstate⟩ := he
    have hread : memOp ≠ .MemRead := by
      rcases hs.missed c _ hc (.inr rfl) with hm | ⟨hm, -⟩
      · rw [hstate] at hm
        cases hm
      · exact hm
    have hlocked : ¬((L.state c).isValid → (L.state c).isLocked = false ∧ L.state c = .SHARED) := by
      rw [hstate]
      decide
    simp only [Line.step, withAccess_of_access hc, hread, if_false, sendWrite]
    rw [check_bind trivial, check_bind_of_not hlocked]
  | _ => exact he.elim

/-- A step is one of the transitions. -/
lemma Safe.transition_of_step (h : L.Safe upperCaches) {e : LineEvent n} (hs : L.step upperCaches e = .ok L') :
    L.Transition upperCaches e L' := by
  by_cases he : L.Enabled upperCaches e
  · obtain ⟨L₁, hL₁, ht⟩ := he.steps h.inv h.sound
    rw [hs] at hL₁
    cases hL₁
    exact ht
  · by_cases hf : L.Fails e
    · rw [hf.step_eq h.sound] at hs
      cases hs
    · rw [step_of_not_enabled he hf] at hs
      cases hs

lemma Safe.step (h : L.Safe upperCaches) {e : LineEvent n} (hs : L.step upperCaches e = .ok L') :
    L'.Safe upperCaches :=
  ⟨h.inv.step hs, h.sound.transition h.inv (h.transition_of_step hs)⟩

end Line

namespace System

variable {n upperCaches : ℕ} {s s' : System n}

lemma preserved_safe : Preserved upperCaches (Line.Safe (n := n) upperCaches) :=
  ⟨⟨.new, .new⟩, fun _ _ _ h hs => h.step hs⟩

/-- The events that fail an assertion. -/
def Fails (s : System n) : Event n → Prop
  | .access _ _ memOp => memOp = .MemPush
  | .send c addr _ => (∃ memOp, (s addr).access c = some ⟨memOp, .granted⟩) ∧ (s addr).state c = .TRANS_INV
  | _ => False

/-- What happens to a line that gives way is no concern of the others. -/
lemma allocateLine_frame {c : Fin n} {addr : Addr} {victim : Victim} {allocated : Line.Allocated}
    (hs : s.allocateLine upperCaches c addr victim = .ok (allocated, s')) : s' addr = s addr := by
  cases victim with
  | none =>
    cases hs
    rfl
  | invalid =>
    cases hs
    rfl
  | line rpl =>
    obtain ⟨hne, hs⟩ := check_bind_eq_ok.1 hs
    split_ifs at hs
    · obtain ⟨s₁, hs₁, hs⟩ := bind_eq_ok.1 hs
      cases hs
      obtain ⟨L, -, rfl⟩ := onLine_eq_ok.1 hs₁
      simp [hne.symm]
    · obtain ⟨s₁, hs₁, hs⟩ := bind_eq_ok.1 hs
      cases hs
      obtain ⟨L, -, rfl⟩ := onLine_eq_ok.1 hs₁
      simp [hne.symm]

end System

end Sesc.Smp
