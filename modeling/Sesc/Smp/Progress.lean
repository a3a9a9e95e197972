import Sesc.Smp.Work

/-!
# Accesses come to their end

Whatever an access waits for is an event that can happen: the queue of the registers waits for their
holder, a request for the answers that are due, and an allocation for the line that gives way to it.
-/

namespace Sesc.Smp

open Lib Mshr

namespace Line

variable {n : ℕ}

/-- Nobody waits for nothing. -/
structure Live (L : Line n) : Prop where
  held : ∀ c, L.holder = some c → ∃ a, L.access c = some a ∧ a.stage.holds = true
  queued : ∀ c memOp, L.access c = some ⟨memOp, .queued⟩ → c ∈ L.queue
  queue : L.queue ≠ [] → L.holder ≠ none
  due : ∀ c r, L.sent c = some (.snooping, r) → 0 < L.due c

variable {upperCaches : ℕ} {L L' : Line n} {c d : Fin n} {memOp : MemOperation} {stage : Stage n}
  {r r' : SMPMemRequest n} {location : Location} {st : MESIState} {a : Access n}

lemma Live.new : (Line.new : Line n).Live where
  held _ h := nomatch h
  queued _ _ h := nomatch h
  queue h := absurd rfl h
  due _ _ h := nomatch h

namespace Live

lemma congr (h : L.Live) (haccess : L'.access = L.access) (hholder : L'.holder = L.holder)
    (hqueue : L'.queue = L.queue) (hsnoop : L'.snoop = L.snoop) : L'.Live := by
  have hsent : L'.sent = L.sent := by
    funext c
    rw [sent, sent, haccess]
  constructor
  · rw [haccess, hholder]
    exact h.held
  · rw [haccess, hqueue]
    exact h.queued
  · rw [hqueue, hholder]
    exact h.queue
  · intro c r hr
    rw [due_congr (congrFun hsnoop c)]
    exact h.due c r (hsent ▸ hr)

/-- The access of a cache changes, but the holder remains one. -/
lemma setStage (h : L.Live) (hholds : L.holder = some c → stage.holds = true)
    (hqueued : stage = .queued → c ∈ L.queue)
    (hdue : ∀ r, stage.request = some (.snooping, r) → 0 < L.due c) : (L.setStage c memOp stage).Live where
  held c' hc' := by
    simp only [Line.setStage, Function.update_apply]
    split_ifs with hc
    · exact ⟨_, rfl, hholds (hc ▸ hc')⟩
    · exact h.held c' hc'
  queued c' memOp' ha := by
    simp only [Line.setStage, Function.update_apply] at ha
    split_ifs at ha with hc
    · cases ha
      exact hc ▸ hqueued rfl
    · exact h.queued c' memOp' ha
  queue := h.queue
  due c' r hr := by
    rw [sent_setStage] at hr
    split_ifs at hr with hc
    · exact hc ▸ hdue r hr
    · exact h.due c' r hr

/-- The request of the holder goes on. -/
lemma setSent (h : L.Live) (hdue : location = .snooping → 0 < L.due c) :
    (L.setStage c memOp (.sent location r)).Live := by
  refine h.setStage (fun _ => rfl) (by simp) ?_
  rintro _ ⟨⟩
  exact hdue rfl

lemma changeStateTo (h : L.Live) : (L.changeStateTo d st).Live := h.congr rfl rfl rfl rfl

lemma setSnoop (h : L.Live) {s : Snoop} (hs : s ≠ .idle) : (L.setSnoop c d s).Live where
  held := h.held
  queued := h.queued
  queue := h.queue
  due c' r hr := by
    refine lt_of_lt_of_le (h.due c' r hr) (Finset.card_le_card fun d' hd' => ?_)
    simp only [Finset.mem_filter, Finset.mem_univ, true_and, snoop_setSnoop] at hd' ⊢
    split_ifs
    · exact hs
    · exact hd'

lemma clear (h : L.Live) (hc : L.holder ≠ some c) :
    { L with access := Function.update L.access c none }.Live where
  held c' hc' := by
    have hne : c' ≠ c := by
      rintro rfl
      exact hc hc'
    simpa [hne] using h.held c' hc'
  queued c' memOp ha := by
    by_cases hc' : c' = c
    · simp [hc'] at ha
    · exact h.queued c' memOp (by simpa [hc'] using ha)
  queue := h.queue
  due c' r hr := by
    by_cases hc' : c' = c
    · simp [sent, hc'] at hr
    · exact h.due c' r (by simpa [sent, hc'] using hr)

lemma retireOutsReq (h : L.Live) (hc : L.holder ≠ some c) : (L.retireOutsReq c).Live := by
  unfold Line.retireOutsReq
  split
  · exact h.clear hc
  · exact (h.setStage (fun hholder => absurd hholder hc) (by simp) (by simp [Stage.request])).congr rfl rfl rfl rfl

lemma issueMutExcl (h : L.Live) (hc : L.holder ≠ some c) : (L.issueMutExcl c memOp).Live := by
  unfold Line.issueMutExcl
  split
  next hnone =>
    refine ⟨?_, ?_, by simp, ?_⟩
    · rintro c' ⟨⟩
      exact ⟨_, Function.update_self .., rfl⟩
    · intro c' memOp' ha
      simp only [Line.setStage, Function.update_apply] at ha
      split_ifs at ha
      · cases ha
      · exact h.queued c' memOp' ha
    · intro c' r hr
      replace hr := (sent_setStage L memOp .granted c').symm.trans hr
      split_ifs at hr
      · cases hr
      · exact h.due c' r hr
  next d hd =>
    refine ⟨?_, ?_, fun _ => by simp [Line.setStage, hd], ?_⟩
    · intro c' hc'
      have hne : c' ≠ c := by
        rintro rfl
        exact hc hc'
      simpa [Line.setStage, hne] using h.held c' hc'
    · intro c' memOp' ha
      simp only [Line.setStage, Function.update_apply] at ha
      split_ifs at ha with hcc
      · simp [hcc]
      · exact List.mem_append_left _ (h.queued c' memOp' ha)
    · intro c' r hr
      replace hr := (sent_setStage L memOp .queued c').symm.trans hr
      split_ifs at hr
      · cases hr
      · exact h.due c' r hr

lemma queue_retireOutsReq : (L.retireOutsReq c).queue = L.queue := by
  unfold Line.retireOutsReq
  split <;> rfl

lemma access_retireOutsReq_of_ne (hd : d ≠ c) : (L.retireOutsReq c).access d = L.access d := by
  unfold Line.retireOutsReq
  split <;> simp [hd]

lemma queue_retireMutExcl : L.retireMutExcl.queue = L.queue.tail := by
  unfold Line.retireMutExcl
  split
  next hnil => rw [hnil]; rfl
  next d rest hcons => rw [hcons]; rfl

lemma holder_retireMutExcl : L.retireMutExcl.holder = L.queue.head? := by
  unfold Line.retireMutExcl
  split
  next hnil => rw [hnil]; rfl
  next d rest hcons => rw [hcons]; rfl

/-- The registers pass on to the next access in the queue. -/
lemma concludeAccess (h : L.Live) (hregisters : L.Registers) (ha : L.access c = some a)
    (hholds : a.stage.holds = true) (hq : a.stage ≠ .queued) : (L.concludeAccess c).Live := by
  have hqueue : (L.concludeAccess c).queue = L.queue.tail :=
    queue_retireMutExcl.trans (congrArg _ queue_retireOutsReq)
  have hholder : (L.concludeAccess c).holder = L.queue.head? :=
    holder_retireMutExcl.trans (congrArg _ queue_retireOutsReq)
  have hgranted : ∀ d ∈ L.queue.head?, ∃ memOp, (L.concludeAccess c).access d = some ⟨memOp, .granted⟩ := by
    intro d hd
    obtain ⟨memOp, hd'⟩ := hregisters.queued d (List.mem_of_mem_head? hd)
    have hne : d ≠ c := by
      rintro rfl
      rw [ha] at hd'
      cases hd'
      exact hq rfl
    unfold Line.concludeAccess Line.retireMutExcl
    split
    next hnil =>
      rw [← queue_retireOutsReq (L := L) (c := c), hnil] at hd
      cases hd
    next d' rest hcons =>
      rw [← queue_retireOutsReq (L := L) (c := c), hcons] at hd
      cases hd
      exact ⟨memOp, by simp [access_retireOutsReq_of_ne hne, hd']⟩
  constructor
  · intro d hd
    rw [hholder] at hd
    obtain ⟨memOp, hd⟩ := hgranted d hd
    exact ⟨_, hd, rfl⟩
  · intro d memOp hd
    rw [hqueue]
    rcases access_concludeAccess hd with ⟨-, hd'⟩ | hd' | hd'
    · have hmem := h.queued d memOp hd'
      rcases hl : L.queue with _ | ⟨d', rest⟩ <;> rw [hl] at hmem
      · cases hmem
      · obtain ⟨memOp', hd''⟩ := hgranted d' (by simp [hl])
        rcases List.mem_cons.1 hmem with rfl | hmem
        · rw [hd] at hd''
          cases hd''
        · exact hmem
    · cases hd'
    · cases hd'
  · rw [hqueue, hholder]
    intro hne hnone
    rw [List.head?_eq_none_iff.1 hnone] at hne
    exact hne rfl
  · intro d r hd
    obtain ⟨memOp, hd⟩ := sent_eq_some.1 hd
    rcases access_concludeAccess hd with ⟨hne, hd'⟩ | hd' | hd'
    · exact absurd (hregisters.unique hd' ha rfl hholds) hne
    · cases hd'
    · cases hd'

end Live

/-- A cache whose access has not been granted is not the holder. -/
lemma Live.not_holder (h : L.Live) (ha : L.access c = some a) (hholds : a.stage.holds = false) :
    L.holder ≠ some c := by
  intro hc
  obtain ⟨b, hb, hbholds⟩ := h.held c hc
  rw [ha] at hb
  cases hb
  rw [hholds] at hbholds
  cases hbholds

lemma Live.not_holder_of_none (h : L.Live) (ha : L.access c = none) : L.holder ≠ some c := by
  intro hc
  obtain ⟨b, hb, -⟩ := h.held c hc
  rw [ha] at hb
  cases hb

lemma Live.writeBackDirty (h : L.Live) : (L.writeBackDirty d).Live := by
  unfold Line.writeBackDirty
  split_ifs
  · exact h.congr rfl rfl rfl rfl
  · exact h

lemma Live.sendRequest (h : L.Live) (sendData : Bool) :
    ((L.changeStateTo c st).sendRequest c memOp sendData).Live := by
  have hstate : (L.changeStateTo c st).Live := h.changeStateTo
  exact hstate.setSent (by simp)

/-- A request that is answered by all is on its way back. -/
lemma Live.respond (h : L.Live) (hregisters : L.Registers) (hc : L.sent c = some (.snooping, r)) :
    (L.respond c d r').Live := by
  have hsupply : (L.supply d r').access = L.access ∧ (L.supply d r').holder = L.holder ∧
      (L.supply d r').queue = L.queue := by
    unfold supply
    split_ifs <;> exact ⟨rfl, rfl, rfl⟩
  obtain ⟨haccess, hholder, hqueue⟩ := hsupply
  obtain ⟨memOp, ha⟩ := sent_eq_some.1 hc
  -- nobody but the holder has a request
  have hfree : ∀ c' r'', c' ≠ c → L.sent c' ≠ some (.snooping, r'') := by
    intro c' r'' hne hr
    rw [hregisters.sent_eq_none hc hne] at hr
    cases hr
  have hset : ∀ (location : Location) (L₁ : Line n), L₁.access = L.access → L₁.holder = L.holder →
      L₁.queue = L.queue → (location = .snooping → 0 < L₁.due c) →
      (L₁.setStage c r'.memOp (.sent location r')).Live := by
    intro location L₁ h₁ h₂ h₃ hdue
    have hsent : L₁.sent = L.sent := by
      funext c'
      rw [sent, sent, h₁]
    constructor
    · intro c' hc'
      simp only [Line.setStage, Function.update_apply]
      split_ifs with hcc
      · exact ⟨_, rfl, rfl⟩
      · rw [h₁]
        exact h.held c' (h₂ ▸ hc')
    · intro c' memOp' hb
      simp only [Line.setStage, Function.update_apply] at hb
      split_ifs at hb with hcc
      · cases hb
      · rw [h₁] at hb
        exact h₃ ▸ h.queued c' memOp' hb
    · intro hne
      exact h₂ ▸ h.queue (h₃ ▸ hne)
    · intro c' r'' hr
      rw [sent_setStage] at hr
      split_ifs at hr with hcc
      · cases hr
        exact hcc ▸ hdue rfl
      · exact absurd (hsent ▸ hr) (hfree c' r'' hcc)
  unfold Line.respond collect
  split_ifs with hdue
  · exact (hset .toRequestor ((L.supply d r').setSnoop c d .idle) haccess hholder hqueue (by simp)).congr rfl rfl rfl rfl
  · exact (hset .snooping ((L.supply d r').setSnoop c d .idle) haccess hholder hqueue
      fun _ => Nat.pos_of_ne_zero hdue).congr rfl rfl rfl rfl

lemma Live.transition (h : L.Inv) (hl : L.Live) {e : LineEvent n} (ht : L.Transition upperCaches e L') :
    L'.Live := by
  cases ht with
  | special => exact hl
  | start hpush hspecial hc =>
    exact hl.setStage (fun hholder => absurd hholder (hl.not_holder_of_none hc)) (by simp) (by simp [Stage.request])
  | wait hpush hspecial hc => exact hl.congr rfl rfl rfl rfl
  | readHit hc hread => exact hl.retireOutsReq (hl.not_holder hc rfl)
  | writeHit hc hmemOp hwrite => exact hl.changeStateTo.retireOutsReq (hl.not_holder hc rfl)
  | locked hc hlocked =>
    exact hl.setStage (fun hholder => absurd hholder (hl.not_holder hc rfl)) (by simp) (by simp [Stage.request])
  | miss hc hstate => exact hl.issueMutExcl (hl.not_holder hc rfl)
  | missShared hc hmemOp hstate => exact hl.issueMutExcl (hl.not_holder hc rfl)
  | upgrade hc hmemOp hstate => exact hl.sendRequest false
  | send hc hstate => exact hl.sendRequest true
  | sendRetry hc hstate => exact hl.setStage (fun _ => rfl) (by simp) (by simp [Stage.request])
  | sendWaiting hc hstate => exact hl.setStage (fun _ => rfl) (by simp) (by simp [Stage.request])
  | allocate hc => exact hl.sendRequest true
  | retry hc => exact hl.setStage (fun _ => rfl) (by simp) (by simp [Stage.request])
  | retryWaiting hc => exact hl.setStage (fun _ => rfl) (by simp) (by simp [Stage.request])
  | reserve hc => exact hl.sendRequest true
  | @evict c hupper hread => exact hl.writeBackDirty.changeStateTo
  | startEviction hupper hread => exact hl.congr rfl rfl rfl rfl
  | @finishEviction c hc => exact (hl.writeBackDirty (d := c)).congr rfl rfl rfl rfl
  | toMemory hc hsnoop => exact hl.setSent (by simp)
  | @single c r hc hsnoop hn =>
    have hset : (L.setStage c r.memOp (.sent .toRequestor r)).Live := hl.setSent (by simp)
    exact hset.congr rfl rfl rfl rfl
  | @broadcast c r hc hsnoop hn =>
    refine ⟨?_, ?_, hl.queue, ?_⟩
    · intro c' hc'
      simp only [Line.setStage, Function.update_apply]
      split_ifs with hcc
      · exact ⟨_, rfl, rfl⟩
      · exact hl.held c' hc'
    · intro c' memOp ha
      simp only [Line.setStage, Function.update_apply] at ha
      split_ifs at ha with hcc
      · cases ha
      · exact hl.queued c' memOp ha
    · intro c' r' hr
      replace hr := (sent_setStage L r.memOp (.sent .snooping r) c').symm.trans hr
      split_ifs at hr with hcc
      · rw [hcc, Line.due]
        simp only [Function.update_self]
        rw [card_received c]
        omega
      · rw [h.registers.sent_eq_none hc hcc] at hr
        cases hr
  | unaffected hc hd hread => exact hl.respond h.registers hc
  | share hc hd hread hmemOp hr' => exact hl.changeStateTo.respond h.registers.changeStateTo hc
  | @yield c d r r' hc hd hread hmemOp hr' hupper =>
    have hset : (L.setStage c r'.memOp (.sent .snooping r')).Live := hl.setSent fun _ => hl.due c r hc
    exact (hset.setSnoop (c := c) (d := d) (s := .invalidating) (by simp)).congr rfl rfl rfl rfl
  | @yieldNow c d r r' hc hd hread hmemOp hr' hupper =>
    have hset : (L.setStage c r'.memOp (.sent .snooping r')).Live := hl.setSent fun _ => hl.due c r hc
    exact (hset.setSnoop (c := c) (d := d) (s := .acking) (by simp)).congr rfl rfl rfl rfl
  | oneInvalidated hd hlast => exact hl.congr rfl rfl rfl rfl
  | @allInvalidated c d e hd hlast hcb =>
    exact (hl.setSnoop (c := c) (d := d) (s := .acking) (by simp)).congr rfl rfl rfl rfl
  | gaveWay hd hlast hcb => exact hl.congr rfl rfl rfl rfl
  | ack hc hd => exact hl.respond h.registers hc
  | memory hc => exact hl.setSent (by simp)
  | goToMemory hc hmiss hsnoop hdata => exact hl.changeStateTo.setSent (by simp)
  | conclude hc hanswer =>
    obtain ⟨memOp, ha⟩ := sent_eq_some.1 hc
    exact hl.changeStateTo.concludeAccess h.registers.changeStateTo ha rfl (by simp)

/-! ## A line that waits for another one -/

/-- The access of the cache waits for the line `rpl` to give way. -/
def WaitsFor (L : Line n) (c : Fin n) (rpl : Addr) : Prop :=
  ∃ memOp, L.access c = some ⟨memOp, .allocating (some rpl)⟩

/-- The line gives way to the line of an address. -/
def DepartsFor (L : Line n) (c : Fin n) (addr : Addr) : Prop :=
  L.replacing c = some addr ∨ ∃ e, L.pendInvTable c = some e ∧ e.cb = .allocate addr

variable {c' : Fin n} {rpl addr : Addr}

lemma waitsFor_iff {x : Option (Access n)} (haccess : L'.access = Function.update L.access c x) :
    L'.WaitsFor c' rpl ↔ if c' = c then ∃ memOp, x = some ⟨memOp, .allocating (some rpl)⟩ else L.WaitsFor c' rpl := by
  unfold WaitsFor
  rw [haccess]
  by_cases hc : c' = c
  · subst hc
    simp
  · simp [hc]

/-- The same accesses wait for the same lines. -/
def SameWaiting (L L' : Line n) : Prop := ∀ c rpl, L'.WaitsFor c rpl ↔ L.WaitsFor c rpl

lemma SameWaiting.of_access (haccess : L'.access = L.access) : SameWaiting L L' := by
  intro c rpl
  rw [WaitsFor, WaitsFor, haccess]

lemma SameWaiting.of_update {x : Option (Access n)} (haccess : L'.access = Function.update L.access c x)
    (hnew : ∀ memOp rpl, x ≠ some ⟨memOp, .allocating (some rpl)⟩)
    (hold : ∀ memOp rpl, L.access c ≠ some ⟨memOp, .allocating (some rpl)⟩) : SameWaiting L L' := by
  intro c' rpl
  rw [waitsFor_iff haccess]
  split_ifs with hc
  · subst hc
    constructor
    · rintro ⟨memOp, hx⟩
      exact absurd hx (hnew memOp rpl)
    · rintro ⟨memOp, hx⟩
      exact absurd hx (hold memOp rpl)
  · rfl

lemma SameWaiting.setStage (ha : L.access c = some a) (hnew : ∀ rpl, stage ≠ .allocating (some rpl))
    (hold : ∀ rpl, a.stage ≠ .allocating (some rpl)) : SameWaiting L (L.setStage c memOp stage) := by
  refine .of_update rfl (fun memOp' rpl hx => ?_) fun memOp' rpl hx => ?_
  · cases hx
    exact hnew rpl rfl
  · rw [ha] at hx
    cases hx
    exact hold rpl rfl

lemma SameWaiting.retireOutsReq (ha : L.access c = some a) (hold : ∀ rpl, a.stage ≠ .allocating (some rpl)) :
    SameWaiting L (L.retireOutsReq c) := by
  have hold' : ∀ memOp rpl, L.access c ≠ some ⟨memOp, .allocating (some rpl)⟩ := by
    intro memOp rpl hx
    rw [ha] at hx
    cases hx
    exact hold rpl rfl
  unfold Line.retireOutsReq
  split
  · exact .of_update rfl (by simp) hold'
  · exact .of_update rfl (by simp) hold'

lemma SameWaiting.issueMutExcl (ha : L.access c = some ⟨memOp, .scheduled⟩) (memOp' : MemOperation) :
    SameWaiting L (L.issueMutExcl c memOp') := by
  unfold Line.issueMutExcl
  split
  · exact .of_update rfl (by simp) (by simp [ha])
  · exact .of_update rfl (by simp) (by simp [ha])

lemma SameWaiting.retireMutExcl (h : L.Registers) : SameWaiting L L.retireMutExcl := by
  unfold Line.retireMutExcl
  split
  · exact .of_access rfl
  next d rest hqueue =>
    obtain ⟨memOp, hd⟩ := h.queued d (by simp [hqueue])
    exact .of_update rfl (by simp) (by simp [hd])

lemma SameWaiting.sendRequest (ha : L.access c = some a) (hold : ∀ rpl, a.stage ≠ .allocating (some rpl))
    (sendData : Bool) : SameWaiting L ((L.changeStateTo c st).sendRequest c memOp sendData) :=
  SameWaiting.setStage (L := L.changeStateTo c st) ha (by simp) hold

lemma SameWaiting.move (hc : L.sent c = some (location, r)) (location' : Location) (r' : SMPMemRequest n) :
    SameWaiting L (L.setStage c r'.memOp (.sent location' r')) := by
  obtain ⟨memOp, ha⟩ := sent_eq_some.1 hc
  exact .setStage ha (by simp) (by simp)

lemma SameWaiting.respond (hc : L.sent c = some (location, r)) : SameWaiting L (L.respond c d r') := by
  have haccess : (L.supply d r').access = L.access := by
    unfold supply
    split_ifs <;> rfl
  obtain ⟨memOp, ha⟩ := sent_eq_some.1 hc
  unfold Line.respond collect
  split_ifs
  · refine .of_update (c := c) ?_ (by simp) (by simp [ha]) (x := some ⟨r'.memOp, .sent .toRequestor r'⟩)
    simp [Line.finalizeAccess, Line.setStage, Line.setSnoop, haccess]
  · refine .of_update (c := c) ?_ (by simp) (by simp [ha]) (x := some ⟨r'.memOp, .sent .snooping r'⟩)
    simp [Line.setStage, Line.setSnoop, haccess]

/-- The events by which the access of the cache begins to wait for another line. -/
def BeginsWaiting (c : Fin n) (rpl : Addr) (e : LineEvent n) : Prop :=
  e = .send c (.waiting rpl) ∨ e = .retryAllocate c (.waiting rpl)

/-- The access of the cache `c` begins to wait. -/
lemma begins_iff {c' : Fin n} {rpl' : Addr} {e : LineEvent n} (ha : L.access c' = some a)
    (hold : ∀ rpl, a.stage ≠ .allocating (some rpl)) (hstate : L.state c' = .INVALID) (he : BeginsWaiting c' rpl' e)
    (hreserve : ∀ c rpl, e ≠ .reserve c rpl) :
    (L.setStage c' memOp (.allocating (some rpl'))).WaitsFor c rpl ↔
      (L.WaitsFor c rpl ∧ e ≠ .reserve c rpl) ∨ (BeginsWaiting c rpl e ∧ L.state c = .INVALID) := by
  rw [waitsFor_iff (c := c') rfl]
  have hbegins : BeginsWaiting c rpl e ↔ c = c' ∧ rpl = rpl' := by
    rcases he with rfl | rfl <;> simp [BeginsWaiting, eq_comm]
  rw [hbegins]
  by_cases hc : c = c'
  · subst hc
    have hnot : ¬L.WaitsFor c rpl := by
      rintro ⟨m, hm⟩
      rw [ha] at hm
      cases hm
      exact hold rpl rfl
    simp [hnot, hstate, eq_comm]
  · simp [hc, hreserve]

lemma access_writeBackDirty : (L.writeBackDirty d).access = L.access := by
  unfold Line.writeBackDirty
  split_ifs <;> rfl

/-- An access begins to wait for a line, and goes on when the line has been reserved. -/
lemma Transition.waitsFor_iff (h : L.Inv) {e : LineEvent n} (ht : L.Transition upperCaches e L') :
    L'.WaitsFor c rpl ↔ (L.WaitsFor c rpl ∧ e ≠ .reserve c rpl) ∨
      (BeginsWaiting c rpl e ∧ L.state c = .INVALID) := by
  have same : SameWaiting L L' → (∀ c rpl, e ≠ .reserve c rpl) →
      (∀ c rpl, ¬(BeginsWaiting c rpl e ∧ L.state c = .INVALID)) →
      (L'.WaitsFor c rpl ↔ (L.WaitsFor c rpl ∧ e ≠ .reserve c rpl) ∨
        (BeginsWaiting c rpl e ∧ L.state c = .INVALID)) := by
    intro hsame hreserve hbegins
    rw [hsame c rpl]
    simp [hreserve, hbegins]
  cases ht with
  | special => exact same (.of_access rfl) (by simp) (by simp [BeginsWaiting])
  | start hpush hspecial hc => exact same (.of_update rfl (by simp) (by simp [hc])) (by simp) (by simp [BeginsWaiting])
  | wait hpush hspecial hc => exact same (.of_access rfl) (by simp) (by simp [BeginsWaiting])
  | readHit hc hread => exact same (.retireOutsReq hc (by simp)) (by simp) (by simp [BeginsWaiting])
  | @writeHit c memOp hc hmemOp hwrite =>
    exact same (SameWaiting.retireOutsReq (L := L.changeStateTo c .MODIFIED) hc (by simp)) (by simp)
      (by simp [BeginsWaiting])
  | locked hc hlocked => exact same (.setStage hc (by simp) (by simp)) (by simp) (by simp [BeginsWaiting])
  | miss hc hstate => exact same (.issueMutExcl hc _) (by simp) (by simp [BeginsWaiting])
  | missShared hc hmemOp hstate => exact same (.issueMutExcl hc _) (by simp) (by simp [BeginsWaiting])
  | upgrade hc hmemOp hstate =>
    refine same (.sendRequest hc (by simp) false) (by simp) ?_
    rintro c rpl ⟨hbegins | hbegins, hinvalid⟩ <;> cases hbegins
    rw [hstate] at hinvalid
    cases hinvalid
  | send hc hstate => exact same (.sendRequest hc (by simp) true) (by simp) (by simp [BeginsWaiting])
  | sendRetry hc hstate => exact same (.setStage hc (by simp) (by simp)) (by simp) (by simp [BeginsWaiting])
  | @sendWaiting c₀ memOp rpl₀ hc hstate => exact begins_iff hc (by simp) hstate (.inl rfl) (by simp)
  | allocate hc => exact same (.sendRequest hc (by simp) true) (by simp) (by simp [BeginsWaiting])
  | retry hc => exact same (.setStage hc (by simp) (by simp)) (by simp) (by simp [BeginsWaiting])
  | @retryWaiting c₀ memOp rpl₀ hc =>
    exact begins_iff hc (by simp) (h.allocating _ _ _ hc) (.inr rfl) (by simp)
  | @reserve c₀ memOp rpl₀ hc =>
    refine (waitsFor_iff (c := c₀) rfl).trans ?_
    by_cases hcc : c = c₀
    · subst hcc
      simp [WaitsFor, hc, BeginsWaiting]
    · simp [hcc, Ne.symm hcc, BeginsWaiting]
      rfl
  | @evict c hupper hread => exact same (.of_access access_writeBackDirty) (by simp) (by simp [BeginsWaiting])
  | startEviction hupper hread => exact same (.of_access rfl) (by simp) (by simp [BeginsWaiting])
  | finishEviction hc => exact same (.of_access access_writeBackDirty) (by simp) (by simp [BeginsWaiting])
  | toMemory hc hsnoop => exact same (.move hc _ _) (by simp) (by simp [BeginsWaiting])
  | single hc hsnoop hn => exact same (.move hc .toRequestor _) (by simp) (by simp [BeginsWaiting])
  | broadcast hc hsnoop hn => exact same (.move hc .snooping _) (by simp) (by simp [BeginsWaiting])
  | unaffected hc hd hread => exact same (.respond hc) (by simp) (by simp [BeginsWaiting])
  | @share c d r r' hc hd hread hmemOp hr' =>
    exact same (SameWaiting.respond (L := L.changeStateTo d .SHARED) hc) (by simp) (by simp [BeginsWaiting])
  | yield hc hd hread hmemOp hr' hupper => exact same (.move hc .snooping _) (by simp) (by simp [BeginsWaiting])
  | yieldNow hc hd hread hmemOp hr' hupper => exact same (.move hc .snooping _) (by simp) (by simp [BeginsWaiting])
  | oneInvalidated hd hlast => exact same (.of_access rfl) (by simp) (by simp [BeginsWaiting])
  | allInvalidated hd hlast hcb => exact same (.of_access rfl) (by simp) (by simp [BeginsWaiting])
  | gaveWay hd hlast hcb => exact same (.of_access rfl) (by simp) (by simp [BeginsWaiting])
  | ack hc hd => exact same (.respond hc) (by simp) (by simp [BeginsWaiting])
  | memory hc => exact same (.move hc _ _) (by simp) (by simp [BeginsWaiting])
  | @goToMemory c r hc hmiss hsnoop hdata =>
    obtain ⟨memOp, ha⟩ := sent_eq_some.1 hc
    exact same (.of_update rfl (by simp) (by simp [ha])) (by simp) (by simp [BeginsWaiting])
  | @conclude c r st hc hanswer =>
    obtain ⟨memOp, ha⟩ := sent_eq_some.1 hc
    have hregisters : ((L.changeStateTo c st).retireOutsReq c).Registers :=
      h.registers.changeStateTo.retireOutsReq ha (by simp)
    have hretire : SameWaiting L ((L.changeStateTo c st).retireOutsReq c) :=
      SameWaiting.retireOutsReq (L := L.changeStateTo c st) ha (by simp)
    refine same (fun c' rpl => ?_) (by simp) (by simp [BeginsWaiting])
    exact (SameWaiting.retireMutExcl hregisters c' rpl).trans (hretire c' rpl)

/-! ## A line that gives way -/

/-- What leaves the lines on their way out alone. -/
structure SameLeaving (L L' : Line n) : Prop where
  pendInvTable : L'.pendInvTable = L.pendInvTable
  replacing : L'.replacing = L.replacing

lemma SameLeaving.retireOutsReq : SameLeaving L (L.retireOutsReq c) := by
  unfold Line.retireOutsReq
  split <;> exact ⟨rfl, rfl⟩

lemma SameLeaving.issueMutExcl : SameLeaving L (L.issueMutExcl c memOp) := by
  unfold Line.issueMutExcl
  split <;> exact ⟨rfl, rfl⟩

lemma SameLeaving.respond : SameLeaving L (L.respond c d r) := by
  unfold Line.respond collect supply
  split_ifs <;> exact ⟨rfl, rfl⟩

lemma SameLeaving.departsFor_iff (h : SameLeaving L L') : L'.DepartsFor c addr ↔ L.DepartsFor c addr := by
  rw [DepartsFor, DepartsFor, h.pendInvTable, h.replacing]

lemma not_departsFor (h : L.pendInvTable c = none ∧ L.replacing c = none) : ¬L.DepartsFor c addr := by
  rintro (hr | ⟨e, he, -⟩)
  · rw [h.2] at hr
    cases hr
  · rw [h.1] at he
    cases he

lemma departsFor_iff {o : Option (Entry n)} {p : Option Addr}
    (hpend : L'.pendInvTable = Function.update L.pendInvTable d o)
    (hreplacing : L'.replacing = Function.update L.replacing d p) : L'.DepartsFor c addr ↔
      if c = d then p = some addr ∨ ∃ e, o = some e ∧ e.cb = .allocate addr else L.DepartsFor c addr := by
  unfold DepartsFor
  rw [hpend, hreplacing]
  by_cases hc : c = d
  · subst hc
    simp
  · simp [hc]

lemma replacing_of_entry (h : L.Inv) {e : Entry n} (he : L.pendInvTable d = some e) : L.replacing d = none := by
  by_contra hr
  rw [h.replacing d hr] at he
  cases he

/-- A line begins to give way, and no more does so when `doAllocateLine` has been called. -/
lemma Transition.departsFor_iff (h : L.Inv) {e : LineEvent n} (ht : L.Transition upperCaches e L') :
    L'.DepartsFor c addr ↔ (L.DepartsFor c addr ∧ e ≠ .finishEviction c) ∨ e = .startEviction c addr := by
  have same : SameLeaving L L' → (∀ c, e ≠ .finishEviction c) → (∀ c addr, e ≠ .startEviction c addr) →
      (L'.DepartsFor c addr ↔ (L.DepartsFor c addr ∧ e ≠ .finishEviction c) ∨ e = .startEviction c addr) := by
    intro hsame hfinish hstart
    rw [hsame.departsFor_iff]
    simp [hfinish, hstart]
  -- the line of the cache `d` gives way to the same line as before
  have keep : ∀ {d : Fin n} {o p}, L'.pendInvTable = Function.update L.pendInvTable d o →
      L'.replacing = Function.update L.replacing d p →
      (∀ addr, (p = some addr ∨ ∃ e, o = some e ∧ e.cb = .allocate addr) ↔ L.DepartsFor d addr) →
      (∀ c, e ≠ .finishEviction c) → (∀ c addr, e ≠ .startEviction c addr) →
      (L'.DepartsFor c addr ↔ (L.DepartsFor c addr ∧ e ≠ .finishEviction c) ∨ e = .startEviction c addr) := by
    intro d o p hpend hreplacing hiff hfinish hstart
    rw [Line.departsFor_iff hpend hreplacing]
    split_ifs with hc
    · simp [hc, hiff, hfinish, hstart]
    · simp [hfinish, hstart]
  cases ht with
  | readHit hc hread => exact same .retireOutsReq (by simp) (by simp)
  | @writeHit c memOp hc hmemOp hwrite =>
    obtain ⟨hpend, hreplacing⟩ := SameLeaving.retireOutsReq (L := L.changeStateTo c .MODIFIED) (c := c)
    exact same ⟨hpend, hreplacing⟩ (by simp) (by simp)
  | miss hc hstate => exact same .issueMutExcl (by simp) (by simp)
  | missShared hc hmemOp hstate => exact same .issueMutExcl (by simp) (by simp)
  | evict hupper hread => exact same ⟨pendInvTable_writeBackDirty, replacing_writeBackDirty⟩ (by simp) (by simp)
  | @startEviction c₀ addr₀ hupper hread =>
    have hnot := h.not_leaving (ne_leaving hread)
    refine (Line.departsFor_iff (d := c₀) (p := L.replacing c₀) rfl (by simp [setPendInv, Line.changeStateTo])).trans ?_
    split_ifs with hc
    · subst hc
      simp [hnot.2, not_departsFor hnot, eq_comm]
    · simp [Ne.symm hc]
  | @finishEviction c₀ hc =>
    refine (Line.departsFor_iff (L := L) (d := c₀) (p := none) (o := none) ?_ ?_).trans ?_
    · simpa [setReplacing, Line.changeStateTo] using h.replacing c₀ hc
    · simp [setReplacing, Line.changeStateTo]
    · split_ifs with hcc
      · simp [hcc]
      · simp [Ne.symm hcc]
  | unaffected hc hd hread => exact same .respond (by simp) (by simp)
  | @share c d r r' hc hd hread hmemOp hr' =>
    obtain ⟨hpend, hreplacing⟩ := SameLeaving.respond (L := L.changeStateTo d .SHARED) (c := c) (d := d) (r := r')
    exact same ⟨hpend, hreplacing⟩ (by simp) (by simp)
  | @yield c d r r' hc hd hread hmemOp hr' hupper =>
    have hnot := h.not_leaving (ne_leaving hread)
    refine keep (d := d) (p := L.replacing d) rfl (by simp [setPendInv, Line.changeStateTo, Line.setSnoop, Line.setStage])
      (fun addr => ?_) (by simp) (by simp)
    simp [hnot.2, not_departsFor hnot]
  | @oneInvalidated d e hd hlast =>
    refine keep (d := d) (p := L.replacing d) rfl (by simp [setPendInv]) (fun addr => ?_) (by simp) (by simp)
    simp [DepartsFor, hd]
  | @allInvalidated c d e hd hlast hcb =>
    refine keep (d := d) (p := L.replacing d) rfl (by simp [setPendInv, Line.changeStateTo, Line.setSnoop])
      (fun addr => ?_) (by simp) (by simp)
    simp [DepartsFor, hd, hcb]
  | @gaveWay d e addr₀ hd hlast hcb =>
    refine keep (d := d) (p := some addr₀) rfl rfl (fun addr => ?_) (by simp) (by simp)
    simp [DepartsFor, hd, hcb, replacing_of_entry h hd]
  | ack hc hd => exact same .respond (by simp) (by simp)
  | @conclude c r st hc hanswer =>
    obtain ⟨-, -, -, hpend, hreplacing⟩ := (L.changeStateTo c st).concludeAccess_frame (c := c)
    exact same ⟨hpend, hreplacing⟩ (by simp) (by simp)
  | _ => exact same ⟨rfl, rfl⟩ (by simp) (by simp)

end Line

/-! ## The caches -/

namespace LineEvent

variable {n : ℕ}

/-- An event that concerns one line only. -/
def Ordinary : LineEvent n → Prop
  | .send _ (.waiting _) | .retryAllocate _ (.waiting _) | .reserve _ _ | .evict _ | .startEviction _ _
  | .finishEviction _ => False
  | _ => True

/-- The events of two lines, one of which gives way to the other. -/
inductive Paired (c : Fin n) (addr rpl : Addr) : LineEvent n → LineEvent n → Prop
  | evict : Paired c addr rpl (.evict c) (.send c .line)
  | evictRetry : Paired c addr rpl (.evict c) (.retryAllocate c .line)
  | start : Paired c addr rpl (.startEviction c addr) (.send c (.waiting rpl))
  | startRetry : Paired c addr rpl (.startEviction c addr) (.retryAllocate c (.waiting rpl))
  | finish : Paired c addr rpl (.finishEviction c) (.reserve c rpl)

end LineEvent

namespace Event

variable {n : ℕ}

def isAccess : Event n → Bool
  | .access _ _ _ => true
  | _ => false

/-- The line that an access asks for. -/
def accessed : Event n → List Addr
  | .access _ addr _ => [addr]
  | _ => []

/-- What an event costs: nothing when it is an access, or an access that finds the line locked or the
set of the cache full. -/
def cost (s : System n) : Event n → ℕ
  | .access _ _ _ | .retryAllocate _ _ .none => 0
  | .run c addr => if ((s addr).state c).isLocked then 0 else 1
  | _ => 1

def gain (upperCaches : ℕ) (e : Event n) : ℕ := if e.isAccess then accessWork n upperCaches else 0

end Event

namespace System

variable {n upperCaches : ℕ} {s s' : System n}

/-- All that is proved of the lines, and that an access waits for a line just as the line gives way. -/
structure Sane (upperCaches : ℕ) (s : System n) : Prop where
  safe : ∀ addr, (s addr).Safe upperCaches
  live : ∀ addr, (s addr).Live
  waits : ∀ c addr rpl, (s rpl).DepartsFor c addr ↔ (s addr).WaitsFor c rpl

/-- What one event does to the lines. -/
inductive Transition (upperCaches : ℕ) (s : System n) (e : Event n) : System n → Prop
  | one {addr : Addr} {le : LineEvent n} {L : Line n} : le.Ordinary → (s addr).Transition upperCaches le L →
      (∀ c memOp, le = .access c memOp → addr ∈ e.accessed) → e.cost s ≤ le.cost upperCaches (s addr) →
      le.gain upperCaches ≤ e.gain upperCaches → Transition upperCaches s e (Function.update s addr L)
  | two {c : Fin n} {addr rpl : Addr} {le le' : LineEvent n} {L L' : Line n} : rpl ≠ addr →
      le.Paired c addr rpl le' → (s rpl).Transition upperCaches le L →
      (s addr).Transition upperCaches le' L' → (s addr).state c = .INVALID → e.isAccess = false →
      Transition upperCaches s e (Function.update (Function.update s rpl L) addr L')

lemma Sane.onLine (h : s.Sane upperCaches) {addr : Addr} {le : LineEvent n} {e : Event n}
    (hs : s.onLine upperCaches addr le = .ok s') (hord : le.Ordinary)
    (haccess : ∀ c memOp, le = .access c memOp → addr ∈ e.accessed) (hcost : e.cost s ≤ le.cost upperCaches (s addr))
    (hgain : le.gain upperCaches ≤ e.gain upperCaches) : Transition upperCaches s e s' := by
  obtain ⟨L, hL, rfl⟩ := onLine_eq_ok.1 hs
  exact .one hord ((h.safe addr).transition_of_step hL) haccess hcost hgain

lemma Sane.two (h : s.Sane upperCaches) {c : Fin n} {addr rpl : Addr} {le le' : LineEvent n} {e : Event n}
    {s₁ : System n} (hne : rpl ≠ addr) (hpaired : le.Paired c addr rpl le')
    (hs₁ : s.onLine upperCaches rpl le = .ok s₁) (hs : s₁.onLine upperCaches addr le' = .ok s')
    (hstate : (s addr).state c = .INVALID) (he : e.isAccess = false) : Transition upperCaches s e s' := by
  obtain ⟨L, hL, rfl⟩ := onLine_eq_ok.1 hs₁
  obtain ⟨L', hL', rfl⟩ := onLine_eq_ok.1 hs
  rw [Function.update_of_ne hne.symm] at hL'
  exact .two hne hpaired ((h.safe rpl).transition_of_step hL) ((h.safe addr).transition_of_step hL') hstate he

/-- `allocateLine`, and then the event of the line that asked for it. -/
lemma Sane.allocate (h : s.Sane upperCaches) {c : Fin n} {addr : Addr} {victim : Victim}
    {f : Line.Allocated → LineEvent n} (hf : f = .send c ∨ f = .retryAllocate c) {e : Event n}
    (hs : (s.allocateLine upperCaches c addr victim >>= fun p => p.2.onLine upperCaches addr (f p.1)) = .ok s')
    (hstate : (s addr).state c = .INVALID) (he : e.isAccess = false) (hcost : e.cost s ≤ 1)
    (hretry : victim = .none → e.cost s ≤ (f .retry).cost upperCaches (s addr)) :
    Transition upperCaches s e s' := by
  have hgain : e.gain upperCaches = 0 := by simp [Event.gain, he]
  cases victim with
  | none =>
    have hs : s.onLine upperCaches addr (f .retry) = .ok s' := hs
    refine h.onLine hs ?_ ?_ (hretry rfl) ?_ <;> rcases hf with rfl | rfl
    · trivial
    · trivial
    · simp
    · simp
    · simp [LineEvent.gain]
    · simp [LineEvent.gain]
  | invalid =>
    have hs : s.onLine upperCaches addr (f .line) = .ok s' := hs
    refine h.onLine hs ?_ ?_ ?_ ?_ <;> rcases hf with rfl | rfl
    · trivial
    · trivial
    · simp
    · simp
    · exact hcost
    · exact hcost
    · simp [LineEvent.gain]
    · simp [LineEvent.gain]
  | line rpl =>
    obtain ⟨⟨allocated, s₁⟩, hs₁, hs⟩ := bind_eq_ok.1 hs
    obtain ⟨hne, hs₁⟩ := check_bind_eq_ok.1 hs₁
    split_ifs at hs₁
    · obtain ⟨s₂, hs₂, hs₁⟩ := bind_eq_ok.1 hs₁
      cases hs₁
      refine h.two hne ?_ hs₂ hs hstate he
      rcases hf with rfl | rfl
      · exact .evict
      · exact .evictRetry
    · obtain ⟨s₂, hs₂, hs₁⟩ := bind_eq_ok.1 hs₁
      cases hs₁
      refine h.two hne ?_ hs₂ hs hstate he
      rcases hf with rfl | rfl
      · exact .start
      · exact .startRetry

/-- A line that gives way to another one is not the one that is allocated. -/
lemma Sane.ne_of_waitsFor (h : s.Sane upperCaches) {c : Fin n} {addr rpl : Addr} (hw : (s addr).WaitsFor c rpl) :
    rpl ≠ addr ∧ (s addr).state c = .INVALID := by
  obtain ⟨memOp, hc⟩ := hw
  have hinvalid := (h.safe addr).inv.allocating c _ _ hc
  refine ⟨?_, hinvalid⟩
  rintro rfl
  have hdeparts := (h.waits c rpl rpl).2 ⟨memOp, hc⟩
  have hleaving : (s rpl).state c = .TRANS_INV ∨ (s rpl).state c = .TRANS_INV_D := by
    refine (h.safe rpl).inv.leaving c ?_
    rcases hdeparts with hr | ⟨e, he, -⟩
    · exact .inr (by simp [hr])
    · exact .inl (by simp [he])
  rw [hinvalid] at hleaving
  rcases hleaving with hl | hl <;> cases hl

/-- What one event does, read off the code. -/
lemma Sane.transition_of_step (h : s.Sane upperCaches) {e : Event n} (hs : s.step upperCaches e = .ok s') :
    Transition upperCaches s e s' := by
  cases e with
  | access c addr memOp => exact h.onLine hs trivial (by simp [Event.accessed]) (Nat.zero_le _) (le_refl _)
  | run c addr => exact h.onLine hs trivial (by simp) (le_refl _) (Nat.zero_le _)
  | send c addr victim =>
    dsimp only [System.step, System.send] at hs
    split_ifs at hs with hvalid
    · exact h.onLine hs trivial (by simp) (le_refl _) (Nat.zero_le _)
    · have hstate : (s addr).state c = .INVALID := by
        by_contra hne
        exact hvalid (MESIState.isValid_iff.2 hne)
      exact h.allocate (.inl rfl) hs hstate rfl (le_refl _) fun _ => le_refl _
  | retryAllocate c addr victim =>
    have hstate : (s addr).state c = .INVALID := by
      obtain ⟨⟨allocated, s₁⟩, hs₁, hs₂⟩ := bind_eq_ok.1 hs
      obtain ⟨L, hL, -⟩ := onLine_eq_ok.1 hs₂
      rw [allocateLine_frame hs₁] at hL
      unfold Line.step at hL
      obtain ⟨memOp, stage, hc, hL⟩ := Line.withAccess_eq_ok hL
      obtain ⟨rfl, -⟩ := check_bind_eq_ok.1 hL
      exact (h.safe addr).inv.allocating c _ _ hc
    refine h.allocate (.inr rfl) hs hstate rfl ?_ fun hv => ?_
    · cases victim <;> simp [Event.cost]
    · subst hv
      exact Nat.zero_le _
  | doAllocateLine c rpl =>
    dsimp only [System.step, System.doAllocateLine] at hs
    split at hs
    · cases hs
    next addr hrpl =>
      obtain ⟨s₁, hs₁, hs⟩ := bind_eq_ok.1 hs
      obtain ⟨hne, hstate⟩ := h.ne_of_waitsFor ((h.waits c addr rpl).1 (.inl hrpl))
      exact h.two hne .finish hs₁ hs hstate rfl
  | bus c addr => exact h.onLine hs trivial (by simp) (le_refl _) (Nat.zero_le _)
  | receive c d addr => exact h.onLine hs trivial (by simp) (le_refl _) (Nat.zero_le _)
  | upperInvalidated d addr => exact h.onLine hs trivial (by simp) (le_refl _) (Nat.zero_le _)
  | ack c d addr => exact h.onLine hs trivial (by simp) (le_refl _) (Nat.zero_le _)
  | memory c addr => exact h.onLine hs trivial (by simp) (le_refl _) (Nat.zero_le _)
  | answer c addr => exact h.onLine hs trivial (by simp) (le_refl _) (Nat.zero_le _)

lemma departsFor_unique {L : Line n} (h : L.Inv) {c : Fin n} {a b : Addr} (ha : L.DepartsFor c a)
    (hb : L.DepartsFor c b) : a = b := by
  rcases ha with ha | ⟨e, he, ha⟩ <;> rcases hb with hb | ⟨e', he', hb⟩
  · exact Option.some.inj (ha.symm.trans hb)
  · rw [h.replacing c (by simp [ha])] at he'
    cases he'
  · rw [h.replacing c (by simp [hb])] at he
    cases he
  · rw [he] at he'
    cases he'
    rw [ha] at hb
    cases hb
    rfl

lemma Sane.live_of_transition (h : s.Sane upperCaches) {e : Event n} (ht : Transition upperCaches s e s')
    (addr : Addr) : (s' addr).Live := by
  cases ht with
  | @one addr₀ le L _ hL _ _ _ =>
    by_cases ha : addr = addr₀
    · subst ha
      simpa using (h.live addr).transition (h.safe addr).inv hL
    · simpa [ha] using h.live addr
  | @two c addr₀ rpl le le' L L' hne _ hL hL' _ _ =>
    by_cases ha : addr = addr₀
    · subst ha
      simpa using (h.live addr).transition (h.safe addr).inv hL'
    · by_cases hr : addr = rpl
      · subst hr
        simpa [ha] using (h.live addr).transition (h.safe addr).inv hL
      · simpa [ha, hr] using h.live addr

/-- Lines still give way just for the accesses that wait for them. -/
lemma Sane.waits_of_transition (h : s.Sane upperCaches) {e : Event n} (ht : Transition upperCaches s e s')
    (c : Fin n) (addr rpl : Addr) : (s' rpl).DepartsFor c addr ↔ (s' addr).WaitsFor c rpl := by
  cases ht with
  | @one addr₀ le L hord hL _ _ _ =>
    have hinv := (h.safe addr₀).inv
    have hdeparts : ∀ r c a, (Function.update s addr₀ L r).DepartsFor c a ↔ (s r).DepartsFor c a := by
      intro r c a
      by_cases hr : r = addr₀
      · subst hr
        rw [Function.update_self, hL.departsFor_iff hinv]
        constructor
        · rintro (⟨hd, -⟩ | rfl)
          · exact hd
          · exact hord.elim
        · intro hd
          exact .inl ⟨hd, by rintro rfl; exact hord⟩
      · rw [Function.update_of_ne hr]
    have hwaits : ∀ a c r, (Function.update s addr₀ L a).WaitsFor c r ↔ (s a).WaitsFor c r := by
      intro a c r
      by_cases ha : a = addr₀
      · subst ha
        rw [Function.update_self, hL.waitsFor_iff hinv]
        constructor
        · rintro (⟨hw, -⟩ | ⟨rfl | rfl, -⟩)
          · exact hw
          · exact hord.elim
          · exact hord.elim
        · intro hw
          exact .inl ⟨hw, by rintro rfl; exact hord⟩
      · rw [Function.update_of_ne ha]
    rw [hdeparts, hwaits]
    exact h.waits c addr rpl
  | @two c₀ addr₀ rpl₀ le le' L L' hne hpaired hL hL' hstate _ =>
    have hinv := (h.safe addr₀).inv
    have hdeparts : ∀ r c a, (Function.update (Function.update s rpl₀ L) addr₀ L' r).DepartsFor c a ↔
        ((s r).DepartsFor c a ∧ ¬(r = rpl₀ ∧ le = .finishEviction c)) ∨ (r = rpl₀ ∧ le = .startEviction c a) := by
      intro r c a
      by_cases hr : r = addr₀
      · subst hr
        rw [Function.update_self, hL'.departsFor_iff hinv]
        cases hpaired <;> simp [hne.symm]
      · by_cases hr' : r = rpl₀
        · subst hr'
          rw [Function.update_of_ne hr, Function.update_self, hL.departsFor_iff (h.safe r).inv]
          simp
        · rw [Function.update_of_ne hr, Function.update_of_ne hr']
          simp [hr']
    have hwaits : ∀ a c r, (Function.update (Function.update s rpl₀ L) addr₀ L' a).WaitsFor c r ↔
        ((s a).WaitsFor c r ∧ ¬(a = addr₀ ∧ le' = .reserve c r)) ∨ (a = addr₀ ∧ Line.BeginsWaiting c r le') := by
      intro a c r
      by_cases ha : a = addr₀
      · subst ha
        have hbegins : Line.BeginsWaiting c r le' ∧ (s a).state c = .INVALID ↔ Line.BeginsWaiting c r le' := by
          refine and_iff_left_of_imp fun hb => ?_
          rcases hb with rfl | rfl <;> cases hpaired <;> exact hstate
        rw [Function.update_self, hL'.waitsFor_iff hinv, hbegins]
        simp
      · by_cases hr' : a = rpl₀
        · subst hr'
          rw [Function.update_of_ne ha, Function.update_self, hL.waitsFor_iff (h.safe a).inv]
          cases hpaired <;> simp [Line.BeginsWaiting, ha]
        · rw [Function.update_of_ne ha, Function.update_of_ne hr']
          simp [ha]
    rw [hdeparts, hwaits, h.waits]
    cases hpaired with
    | evict => simp [Line.BeginsWaiting]
    | evictRetry => simp [Line.BeginsWaiting]
    | start =>
      simp [Line.BeginsWaiting]
      tauto
    | startRetry =>
      simp [Line.BeginsWaiting]
      tauto
    | finish =>
      have hreserve : (s addr₀).WaitsFor c₀ rpl₀ := by
        cases hL' with
        | reserve hc => exact ⟨_, hc⟩
      simp only [reduceCtorEq, and_false, or_false, Line.BeginsWaiting, LineEvent.finishEviction.injEq,
        LineEvent.reserve.injEq]
      refine and_congr_right fun hw => not_congr ?_
      constructor
      · rintro ⟨rfl, rfl⟩
        have haddr := departsFor_unique (h.safe rpl).inv ((h.waits _ _ _).2 hw) ((h.waits _ _ _).2 hreserve)
        exact ⟨haddr, rfl, rfl⟩
      · rintro ⟨-, hc, hr⟩
        exact ⟨hr.symm, hc⟩

lemma Sane.new : Sane upperCaches (fun _ => .new : System n) where
  safe _ := ⟨.new, .new⟩
  live _ := .new
  waits c addr rpl := by
    refine iff_of_false (Line.not_departsFor ⟨rfl, rfl⟩) ?_
    rintro ⟨memOp, hc⟩
    cases hc

lemma Sane.step (h : s.Sane upperCaches) {e : Event n} (hs : s.step upperCaches e = .ok s') :
    s'.Sane upperCaches where
  safe := preserved_safe.system_step h.safe hs
  live := h.live_of_transition (h.transition_of_step hs)
  waits := h.waits_of_transition (h.transition_of_step hs)

lemma Sane.run {es : List (Event n)} (h : (machine n upperCaches).Run es s) : s.Sane upperCaches :=
  Machine.Reachable.invariant (I := fun s => Sane upperCaches s) ⟨es, h⟩ .new fun _ _ _ h hs => h.step hs

/-! ### The work of all lines -/

/-- Nothing but an access happens to a line that nobody has. -/
lemma ne_new_of_transition {L L' : Line n} {e : LineEvent n} (ht : L.Transition upperCaches e L')
    (he : ∀ c memOp, e ≠ .access c memOp) : L ≠ .new := by
  rintro rfl
  cases ht <;> simp_all [Line.new, Line.sent, MESIState.canBeRead, MESIState.bits]

/-- The work that is left for the lines of the set. -/
def work (upperCaches : ℕ) (A : Finset Addr) (s : System n) : ℕ := ∑ addr ∈ A, (s addr).work upperCaches

variable {A : Finset Addr}

/-- The lines outside the set have not been touched. -/
def Untouched (A : Finset Addr) (s : System n) : Prop := ∀ addr ∉ A, s addr = .new

lemma Transition.mem {e : LineEvent n} {L : Line n} {addr : Addr} (hA : Untouched A s)
    (ht : (s addr).Transition upperCaches e L) (he : ∀ c memOp, e ≠ .access c memOp) : addr ∈ A := by
  by_contra ha
  exact ne_new_of_transition ht he (hA addr ha)

lemma paired_ne_access {c : Fin n} {addr rpl : Addr} {le le' : LineEvent n} (h : le.Paired c addr rpl le') :
    (∀ c memOp, le ≠ .access c memOp) ∧ ∀ c memOp, le' ≠ .access c memOp := by
  cases h <;> simp

/-- What one of the two lines pays for is work that the other one does. -/
lemma paired_work (upperCaches : ℕ) {c : Fin n} {addr rpl : Addr} {le le' : LineEvent n} (h : le.Paired c addr rpl le')
    (L L' : Line n) : le.gain upperCaches + le'.gain upperCaches + 1 ≤
      le.cost upperCaches L + le'.cost upperCaches L' := by
  cases h <;> simp only [LineEvent.gain, LineEvent.cost] <;> omega

lemma cost_le_one (e : Event n) (s : System n) : e.cost s ≤ 1 := by
  unfold Event.cost
  split
  · omega
  · omega
  · split_ifs <;> omega
  · omega

lemma Untouched.transition (hA : Untouched A s) {e : Event n} (hacc : ∀ addr ∈ e.accessed, addr ∈ A)
    (ht : Transition upperCaches s e s') : Untouched A s' := by
  intro addr ha
  cases ht with
  | @one addr₀ le L _ hL hle _ _ =>
    have hmem : addr₀ ∈ A := by
      by_cases he : ∃ c memOp, le = .access c memOp
      · obtain ⟨c, memOp, he⟩ := he
        exact hacc addr₀ (hle c memOp he)
      · exact Transition.mem hA hL fun c memOp hc => he ⟨c, memOp, hc⟩
    rw [Function.update_of_ne (ne_of_mem_of_not_mem hmem ha).symm]
    exact hA addr ha
  | @two c addr₀ rpl le le' L L' hne hpaired hL hL' _ _ =>
    obtain ⟨hle, hle'⟩ := paired_ne_access hpaired
    have hmem := Transition.mem hA hL' hle'
    have hmem' := Transition.mem hA hL hle
    rw [Function.update_of_ne (ne_of_mem_of_not_mem hmem ha).symm,
      Function.update_of_ne (ne_of_mem_of_not_mem hmem' ha).symm]
    exact hA addr ha

lemma Sane.work_le (h : s.Sane upperCaches) (hA : Untouched A s) {e : Event n}
    (hacc : ∀ addr ∈ e.accessed, addr ∈ A) (ht : Transition upperCaches s e s') :
    s'.work upperCaches A + e.cost s ≤ s.work upperCaches A + e.gain upperCaches := by
  cases ht with
  | @one addr₀ le L _ hL hle hcost hgain =>
    have hmem : addr₀ ∈ A := by
      by_cases he : ∃ c memOp, le = .access c memOp
      · obtain ⟨c, memOp, he⟩ := he
        exact hacc addr₀ (hle c memOp he)
      · exact Transition.mem hA hL fun c memOp hc => he ⟨c, memOp, hc⟩
    have hsum := sum_update (Line.work upperCaches) s hmem L
    have hline := hL.work_le (h.safe addr₀).inv
    simp only [work]
    omega
  | @two c addr₀ rpl le le' L L' hne hpaired hL hL' _ _ =>
    obtain ⟨hle, hle'⟩ := paired_ne_access hpaired
    have hsum := sum_update (Line.work upperCaches) s (Transition.mem hA hL hle) L
    have hsum' := sum_update (Line.work upperCaches) (Function.update s rpl L) (Transition.mem hA hL' hle') L'
    rw [Function.update_of_ne hne.symm] at hsum'
    have hline := hL.work_le (h.safe rpl).inv
    have hline' := hL'.work_le (h.safe addr₀).inv
    have hpay := paired_work upperCaches hpaired (s rpl) (s addr₀)
    have hone := cost_le_one e s
    simp only [work]
    omega

/-- The lines that the accesses of a run have asked for. -/
def accessed (es : List (Event n)) : Finset Addr := (es.flatMap Event.accessed).toFinset

lemma untouched_run {es : List (Event n)} (h : (machine n upperCaches).Run es s) (hes : ∀ e ∈ es, ∀ addr ∈ e.accessed, addr ∈ A) :
    Untouched A s := by
  induction h with
  | nil => exact fun _ _ => rfl
  | snoc e hrun _ hs ih =>
    have ht := (Sane.run hrun).transition_of_step hs
    exact (ih fun e' he' => hes e' (List.mem_append_left _ he')).transition (hes e (by simp)) ht

lemma mem_accessed {es : List (Event n)} {e : Event n} (he : e ∈ es) {addr : Addr} (ha : addr ∈ e.accessed) :
    addr ∈ accessed es :=
  List.mem_toFinset.2 (List.mem_flatMap.2 ⟨e, he, ha⟩)

/-- However they interleave, the steps of the caches and the bus are bounded by the accesses from the upper
levels: no line goes back and forth between caches for ever.  Only an access that finds the line locked and
an allocation that finds the set full are tried again for nothing. -/
theorem work_bounded (n upperCaches : ℕ) {es : List (Event n)} {p : System n × ℕ}
    (h : ((machine n upperCaches).counting fun s e => e.cost s).Run es p) :
    p.2 ≤ (12 + upperCaches + n * (upperCaches + 3)) * es.countP Event.isAccess := by
  have hle := Machine.Run.cost_le (work upperCaches (accessed es)) Event.isAccess (accessWork n upperCaches) h (by simp [work, machine, Line.work_new]) ?_
  · have hk : accessWork n upperCaches = 12 + upperCaches + n * (upperCaches + 3) := by
      unfold accessWork busWork
      omega
    rw [hk] at hle
    omega
  · intro es' s e s' hes hrun hs
    have hsane := Sane.run hrun
    have hmem : ∀ e' ∈ es' ++ [e], ∀ addr ∈ e'.accessed, addr ∈ accessed es :=
      fun e' he' addr ha => mem_accessed (hes.subset he') ha
    exact hsane.work_le (untouched_run hrun fun e' he' => hmem e' (List.mem_append_left _ he'))
      (hmem e (by simp)) (hsane.transition_of_step hs)

/-- Each step of the run is counted, but for the two accesses. -/
theorem work_bounded_readThenWrite : ∃ p : System 2 × ℕ,
    ((machine 2 0).counting fun s e => e.cost s).Run readThenWrite p ∧ p.2 = 14 ∧
      p.2 ≤ (12 + 0 + 2 * (0 + 3)) * readThenWrite.countP Event.isAccess :=
  ⟨_, Machine.run_of_exec rfl, rfl, work_bounded 2 0 (Machine.run_of_exec rfl)⟩

/-! ### Something can always happen -/

lemma onLine_of_enabled {addr : Addr} (le : LineEvent n) (h : (s addr).Safe upperCaches)
    (he : (s addr).Enabled upperCaches le) : ∃ s', s.onLine upperCaches addr le = .ok s' := by
  obtain ⟨L, hL, -⟩ := he.steps h.inv h.sound
  exact ⟨_, onLine_eq_ok.2 ⟨L, hL, rfl⟩⟩

/-- `doAllocateLine` finds the access that waits for the line. -/
lemma Sane.doAllocateLine (h : s.Sane upperCaches) {c : Fin n} {addr rpl : Addr}
    (hr : (s rpl).replacing c = some addr) : ∃ s', s.step upperCaches (.doAllocateLine c rpl) = .ok s' := by
  obtain ⟨memOp, hc⟩ := (h.waits c addr rpl).1 (.inl hr)
  obtain ⟨hne, -⟩ := h.ne_of_waitsFor ⟨memOp, hc⟩
  obtain ⟨s₁, hs₁⟩ := onLine_of_enabled (.finishEviction c) (h.safe rpl) (by simp [Line.Enabled, hr])
  have hc₁ : (s₁ addr).access c = some ⟨memOp, .allocating (some rpl)⟩ := by
    obtain ⟨L, -, rfl⟩ := onLine_eq_ok.1 hs₁
    rw [Function.update_of_ne hne.symm, hc]
  obtain ⟨s', hs'⟩ := onLine_of_enabled (.reserve c rpl) (preserved_safe.onLine h.safe hs₁ addr) ⟨memOp, hc₁⟩
  refine ⟨s', ?_⟩
  dsimp only [System.step, System.doAllocateLine]
  rw [hr]
  exact bind_eq_ok.2 ⟨s₁, hs₁, hs'⟩

end System

end Sesc.Smp
