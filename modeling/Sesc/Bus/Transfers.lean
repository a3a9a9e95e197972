import Mathlib.Data.Finset.Card
import Mathlib.Data.Finset.Range
import Mathlib.Data.List.Count
import Sesc.Bus.SnoopyBus

/-!
# The transfers of a bus

For every address, the copies of requests that are not answered are as many as the transfer
still expects, and the requests that have started a transfer are those to which a response has
been forwarded and the one of the transfer that is not satisfied yet.
-/

namespace Sesc.Bus

open Lib

variable {cfg : BusConfig} {s s' : SnoopyBus} {a addr : Address} {t : TransferData} {m msg : Msg}
  {i : ℕ}

/-! ## What is under way for an address -/

/-- The connections in a log of messages for an address. -/
def connectionsAt (log : List (ℕ × Msg)) (a : Address) : List ℕ :=
  (log.filter fun x => x.2.getAddress = a).map Prod.fst

lemma connectionsAt_append {log : List (ℕ × Msg)} :
    connectionsAt (log ++ [(i, m)]) a =
      if m.getAddress = a then connectionsAt log a ++ [i] else connectionsAt log a := by
  rw [connectionsAt, List.filter_append, List.map_append, List.filter_singleton]
  split
  · rename_i hm
    rw [decide_eq_true (show (i, m).2.getAddress = a from hm)]
    rfl
  · rename_i hm
    rw [decide_eq_false (show ¬(i, m).2.getAddress = a from hm)]
    exact List.append_nil _

namespace SnoopyBus

/-- The number of copies of requests for an address that have not been answered. -/
def outstanding (s : SnoopyBus) (a : Address) : ℕ :=
  s.unanswered.countP fun x => x.2.getAddress = a

/-- The connection to which a response is still to be forwarded. -/
def unsatisfied (s : SnoopyBus) (a : Address) : List ℕ :=
  match s.pendingTransfers a with
  | some t => if t.satisfied then [] else [t.solicitingConnection]
  | none => []

lemma unsatisfied_of_none (h : s.pendingTransfers a = none) : s.unsatisfied a = [] := by
  rw [unsatisfied, h]

lemma unsatisfied_of_some (h : s.pendingTransfers a = some t) :
    s.unsatisfied a = if t.satisfied then [] else [t.solicitingConnection] := by
  rw [unsatisfied, h]

lemma unsatisfied_eq :
    s.unsatisfied a = (s.pendingTransfers a).elim [] fun t =>
      if t.satisfied then [] else [t.solicitingConnection] := by
  rcases h : s.pendingTransfers a with _ | t
  · rw [unsatisfied_of_none h, Option.elim_none]
  · rw [unsatisfied_of_some h, Option.elim_some]

end SnoopyBus

namespace BusConfig

/-- The number of answers that a transfer still expects; the remote connection is asked last. -/
def expected (cfg : BusConfig) (t : TransferData) : ℤ :=
  if t.solicitingConnection = cfg.remoteConnection then t.pendingResponses
  else if t.satisfied = false ∧ t.pendingResponses = 1 then 1
  else t.pendingResponses - 1

/-- The books for an address. -/
structure Balanced (cfg : BusConfig) (s : SnoopyBus) (a : Address) : Prop where
  pending : ∀ t, s.pendingTransfers a = some t →
    t.solicitingMsg.getAddress = a ∧ 1 ≤ cfg.expected t ∧ cfg.expected t = s.outstanding a
  finished : s.pendingTransfers a = none → s.outstanding a = 0
  log : connectionsAt s.started a = connectionsAt s.forwarded a ++ s.unsatisfied a

/-- A transfer that is pending has an answer outstanding. -/
lemma Balanced.outstanding_pos (h : cfg.Balanced s a) (hpending : s.pendingTransfers a ≠ none) :
    0 < s.outstanding a := by
  obtain ⟨t, ht⟩ := Option.ne_none_iff_exists'.1 hpending
  obtain ⟨-, hle, heq⟩ := h.pending t ht
  omega

/-- The books of another address are the same. -/
lemma Balanced.congr (h : cfg.Balanced s a) (hpending : s'.pendingTransfers a = s.pendingTransfers a)
    (houtstanding : s'.outstanding a = s.outstanding a)
    (hstarted : connectionsAt s'.started a = connectionsAt s.started a)
    (hforwarded : connectionsAt s'.forwarded a = connectionsAt s.forwarded a) :
    cfg.Balanced s' a where
  pending t ht := by
    rw [houtstanding]
    exact h.pending t (hpending ▸ ht)
  finished hnone := by
    rw [houtstanding]
    exact h.finished (hpending ▸ hnone)
  log := by
    rw [hstarted, hforwarded, SnoopyBus.unsatisfied, hpending]
    exact h.log

/-! ## Runs of a bus -/

/-- A bus that is not idle has a transfer pending or an attempt scheduled, and what waits at an
idle bus waits for a pending transfer. -/
structure Inv (cfg : BusConfig) (s : SnoopyBus) : Prop where
  balanced : ∀ a, cfg.Balanced s a
  waiting : ∀ i, s.waitingMsgs i ≠ [] →
    i < cfg.connectionCount ∧ (i = cfg.remoteConnection ∨ 3 ≤ cfg.connectionCount)
  busy : s.transferInProgress = true → 0 < s.attempts ∨ ∃ a, s.pendingTransfers a ≠ none
  idle : s.transferInProgress = false → 0 < s.attempts ∨
    ∀ i, ∀ m ∈ s.waitingMsgs i, s.pendingTransfers m.getAddress ≠ none

/-! ### Starting a transfer -/

lemma foldl_sendRequest (l : List ℕ) (s : SnoopyBus) (msg : Msg) :
    l.foldl (fun s i => s.sendRequest i msg) s =
      { s with unanswered := s.unanswered ++ l.map fun i => (i, msg) } := by
  induction l generalizing s with
  | nil =>
    rw [List.map_nil, List.append_nil]
    rfl
  | cons i l ih =>
    rw [List.foldl_cons, ih]
    dsimp only [SnoopyBus.sendRequest]
    rw [List.append_assoc]
    rfl

/-- A request is broadcast to all connections but two, or but one if the remote one sent it. -/
lemma length_broadcastTargets (hi : i < cfg.connectionCount) :
    (cfg.broadcastTargets i).length =
      if i = cfg.remoteConnection then cfg.connectionCount - 1 else cfg.connectionCount - 2 := by
  have hremote := cfg.remote_lt
  have hcard : (cfg.broadcastTargets i).length =
      (((Finset.range cfg.connectionCount).erase i).erase cfg.remoteConnection).card := by
    have hnodup : (cfg.broadcastTargets i).Nodup := List.nodup_range.filter _
    rw [← List.toFinset_card_of_nodup hnodup]
    congr 1
    ext j
    rw [broadcastTargets, List.mem_toFinset, List.mem_filter, List.mem_range, Finset.mem_erase,
      Finset.mem_erase, Finset.mem_range, decide_eq_true_eq]
    tauto
  have hcount : ((Finset.range cfg.connectionCount).erase i).card = cfg.connectionCount - 1 := by
    rw [Finset.card_erase_of_mem (Finset.mem_range.2 hi), Finset.card_range]
  rw [hcard]
  split
  · rename_i heq
    have hnot : cfg.remoteConnection ∉ (Finset.range cfg.connectionCount).erase i := by
      rw [heq]
      exact Finset.notMem_erase _ _
    rw [Finset.erase_eq_of_notMem hnot, hcount]
  · rename_i hne
    have hmem : cfg.remoteConnection ∈ (Finset.range cfg.connectionCount).erase i :=
      Finset.mem_erase.2 ⟨Ne.symm hne, Finset.mem_range.2 hremote⟩
    rw [Finset.card_erase_of_mem hmem, hcount, Nat.sub_sub]

lemma broadcastMsg_eq (h : cfg.broadcastMsg msg i s = .ok s') :
    s'.pendingTransfers = Function.update s.pendingTransfers msg.getAddress
      (some ⟨cfg.connectionCount - 1, msg, i, false⟩) ∧
    s'.unanswered = s.unanswered ++ (cfg.broadcastTargets i).map (fun j => (j, msg)) ∧
    s'.started = s.started ++ [(i, msg)] ∧ s'.forwarded = s.forwarded ∧
    s'.transferInProgress = s.transferInProgress ∧ s'.waitingMsgs = s.waitingMsgs := by
  obtain ⟨-, h⟩ := check_bind_eq_ok.1 h
  rw [foldl_sendRequest] at h
  cases h
  exact ⟨rfl, rfl, rfl, rfl, rfl, rfl⟩

/-- The books after a request has been broadcast. -/
lemma balanced_broadcastMsg (hs : ∀ a, cfg.Balanced s a) (hi : i < cfg.connectionCount)
    (hlocal : i = cfg.remoteConnection ∨ 3 ≤ cfg.connectionCount)
    (hnone : s.pendingTransfers msg.getAddress = none) (h : cfg.broadcastMsg msg i s = .ok s') :
    (∀ a, cfg.Balanced s' a) ∧ s'.pendingTransfers msg.getAddress ≠ none := by
  obtain ⟨hpending, hunanswered, hstarted, hforwarded, -, -⟩ := broadcastMsg_eq h
  have hself : s'.pendingTransfers msg.getAddress =
      some ⟨cfg.connectionCount - 1, msg, i, false⟩ := by
    rw [hpending, Function.update_self]
  have houtstanding : ∀ a, s'.outstanding a =
      s.outstanding a + if msg.getAddress = a then (cfg.broadcastTargets i).length else 0 := by
    intro a
    rw [SnoopyBus.outstanding, hunanswered, List.countP_append, List.countP_map]
    refine congrArg _ ?_
    split
    · rename_i ha
      exact List.countP_eq_length.2 fun _ _ => decide_eq_true ha
    · rename_i ha
      exact List.countP_eq_zero.2 fun _ _ hj => ha (of_decide_eq_true hj)
  refine ⟨fun a => ?_, by rw [hself]; exact Option.some_ne_none _⟩
  by_cases ha : msg.getAddress = a
  · subst ha
    have hlength := length_broadcastTargets hi
    have hcount := houtstanding msg.getAddress
    rw [if_pos rfl, (hs msg.getAddress).finished hnone, Nat.zero_add] at hcount
    have hpos := cfg.local_pos
    refine ⟨fun t ht => ?_, fun hn => ?_, ?_⟩
    · cases hself.symm.trans ht
      rw [hcount, expected]
      dsimp only
      split
      · rename_i hremote
        rw [if_pos hremote] at hlength
        exact ⟨rfl, by omega, by omega⟩
      · -- a local connection has asked, so that there are at least three connections
        rename_i hremote
        have hthree := hlocal.resolve_left hremote
        rw [if_neg hremote] at hlength
        rw [if_neg (by omega)]
        exact ⟨rfl, by omega, by omega⟩
    · cases hself.symm.trans hn
    · rw [hstarted, hforwarded, connectionsAt_append, if_pos rfl, (hs msg.getAddress).log,
        SnoopyBus.unsatisfied_of_none hnone, List.append_nil, SnoopyBus.unsatisfied_of_some hself]
      rfl
  · refine (hs a).congr ?_ ?_ ?_ ?_
    · rw [hpending, Function.update_of_ne (Ne.symm ha)]
    · rw [houtstanding, if_neg ha, Nat.add_zero]
    · rw [hstarted, connectionsAt_append, if_neg ha]
    · rw [hforwarded]

/-- An attempt finds no message that can be transferred, or broadcasts one for whose address no
transfer is pending. -/
lemma attemptTransfer_cases {rand : ℕ} (h : cfg.attemptTransfer rand s = .ok s') :
    (cfg.pendingMsgs s = [] ∧ s' = { s with transferInProgress := false }) ∨
    ∃ i choice m, m ∈ s.waitingMsgs i ∧ s.pendingTransfers m.getAddress = none ∧
      cfg.broadcastMsg m i { s with
        transferInProgress := true
        waitingMsgs := Function.update s.waitingMsgs i ((s.waitingMsgs i).eraseIdx choice) } =
        .ok s' := by
  rw [attemptTransfer] at h
  split at h
  · rename_i hnone
    cases h
    exact .inl ⟨hnone, rfl⟩
  · obtain ⟨i, -, h⟩ := bind_eq_ok.1 h
    obtain ⟨choice, hchoice, h⟩ := bind_eq_ok.1 h
    obtain ⟨m, hm, h⟩ := bind_eq_ok.1 h
    have hindex : msgIndex s i = some choice := elim_error_eq_ok.1 hchoice
    have hget : (s.waitingMsgs i)[choice]? = some m := elim_error_eq_ok.1 hm
    obtain ⟨hlt, hpending, -⟩ := List.findIdx?_eq_some_iff_getElem.1 hindex
    have hgetElem : (s.waitingMsgs i)[choice] = m := by
      rw [List.getElem?_eq_getElem hlt] at hget
      exact Option.some.inj hget
    rw [hgetElem] at hpending
    exact .inr ⟨i, choice, m, List.mem_of_getElem? hget, of_decide_eq_true hpending, h⟩

/-- The books and the state of the bus after an attempt to start a transfer. -/
lemma Inv.attemptTransfer {rand : ℕ} (hs : ∀ a, cfg.Balanced s a)
    (hwaiting : ∀ i, s.waitingMsgs i ≠ [] →
      i < cfg.connectionCount ∧ (i = cfg.remoteConnection ∨ 3 ≤ cfg.connectionCount))
    (h : cfg.attemptTransfer rand s = .ok s') : cfg.Inv s' := by
  obtain ⟨hnone, rfl⟩ | ⟨i, choice, m, hm, hpending, h⟩ := attemptTransfer_cases h
  · refine ⟨fun a => (hs a).congr rfl rfl rfl rfl, hwaiting, fun hbusy => (nomatch hbusy),
      fun _ => .inr fun i m hm hpending => ?_⟩
    -- the connection would have been found
    have hi : i ∈ cfg.pendingMsgs s := by
      refine List.mem_filter.2 ⟨List.mem_range.2 (hwaiting i (List.ne_nil_of_mem hm)).1, ?_⟩
      rw [msgIndex, List.findIdx?_isSome, List.any_eq_true]
      exact ⟨m, hm, decide_eq_true hpending⟩
    rw [hnone] at hi
    cases hi
  · obtain ⟨hi, hlocal⟩ := hwaiting i (List.ne_nil_of_mem hm)
    have hbefore : ∀ a, cfg.Balanced { s with
        transferInProgress := true
        waitingMsgs := Function.update s.waitingMsgs i ((s.waitingMsgs i).eraseIdx choice) } a :=
      fun a => (hs a).congr rfl rfl rfl rfl
    obtain ⟨hbalanced, hsome⟩ := balanced_broadcastMsg hbefore hi hlocal hpending h
    obtain ⟨-, -, -, -, hprogress, hkept⟩ := broadcastMsg_eq h
    refine ⟨hbalanced, fun j hj => ?_, fun _ => .inr ⟨_, hsome⟩, fun hidle => ?_⟩
    · rw [hkept] at hj
      dsimp only at hj
      by_cases hji : j = i
      · rw [hji]
        exact ⟨hi, hlocal⟩
      · rw [Function.update_of_ne hji] at hj
        exact hwaiting j hj
    · rw [hprogress] at hidle
      cases hidle

/-- An attempt starts no transfer for an address for which one is pending. -/
lemma started_attemptTransfer {rand : ℕ} (ha : s.pendingTransfers a ≠ none)
    (h : cfg.attemptTransfer rand s = .ok s') :
    connectionsAt s'.started a = connectionsAt s.started a := by
  obtain ⟨-, rfl⟩ | ⟨i, choice, m, -, hpending, h⟩ := attemptTransfer_cases h
  · rfl
  · obtain ⟨-, -, hstarted, -, -, -⟩ := broadcastMsg_eq h
    have hne : m.getAddress ≠ a := by
      rintro rfl
      exact ha hpending
    rw [hstarted, connectionsAt_append, if_neg hne]

/-! ### Answers -/

lemma getAddress_of_answers {response request : Msg} (h : answers response request = true) :
    response.getAddress = request.getAddress ∧ isResponse response = true ∧
      ∃ b, isSatisfied response = .ok b := by
  cases response <;> cases request <;> first
    | cases h
    | exact ⟨(of_decide_eq_true h).1, rfl, _, rfl⟩

/-- An answer has been taken from those that are outstanding. -/
lemma outstanding_eraseIdx {index : ℕ} {x : ℕ × Msg} (hx : s.unanswered[index]? = some x)
    (hs' : s'.unanswered = s.unanswered.eraseIdx index) (a : Address) :
    s.outstanding a = s'.outstanding a + if x.2.getAddress = a then 1 else 0 := by
  obtain ⟨hlt, hget⟩ := List.getElem?_eq_some_iff.1 hx
  have hperm := List.getElem_cons_eraseIdx_perm hlt
  rw [SnoopyBus.outstanding, SnoopyBus.outstanding, hs', ← hperm.countP_eq, hget, List.countP_cons]
  refine congrArg _ ?_
  split <;> rename_i ha
  · rw [if_pos (of_decide_eq_true ha)]
  · rw [if_neg fun h => ha (decide_eq_true h)]

/-- What becomes of a transfer when an answer is processed: it may be over, the remote
connection may be asked and a response may be forwarded. -/
structure Answered (cfg : BusConfig) (t : TransferData) (u : Option TransferData)
    (asked sent : Bool) : Prop where
  ended : u = none → cfg.expected t = 1 ∧ asked = false
  pending : ∀ v, u = some v → v.solicitingMsg = t.solicitingMsg ∧ 1 ≤ cfg.expected v ∧
    cfg.expected v + 1 = cfg.expected t + if asked then 1 else 0
  log : (if t.satisfied then [] else [t.solicitingConnection]) =
    (if sent then [t.solicitingConnection] else []) ++
      u.elim [] fun v => if v.satisfied then [] else [v.solicitingConnection]

/-- What the processing of an answer does to the bus. -/
structure Processed (cfg : BusConfig) (s s' : SnoopyBus) (msg : Msg) (t : TransferData)
    (u : Option TransferData) (asked sent : Bool) : Prop where
  pendingTransfers : s'.pendingTransfers = Function.update s.pendingTransfers msg.getAddress u
  unanswered : s'.unanswered =
    s.unanswered ++ if asked then [(cfg.remoteConnection, t.solicitingMsg)] else []
  forwarded : s'.forwarded =
    s.forwarded ++ if sent then [(t.solicitingConnection, msg)] else []
  started : s'.started = s.started
  waitingMsgs : s'.waitingMsgs = s.waitingMsgs
  transferInProgress : s'.transferInProgress = s.transferInProgress
  attempts : s.attempts ≤ s'.attempts ∧ (u = none → 0 < s'.attempts)
  answered : cfg.Answered t u asked sent

/-- The first response that is satisfied is forwarded. -/
lemma answered_satisfied (hsatisfied : t.satisfied = false) (hexpected : 1 ≤ cfg.expected t)
    {v : TransferData}
    (hv : v = { t with pendingResponses := t.pendingResponses - 1, satisfied := true }) :
    cfg.Answered t (if cfg.isOver v then none else some v) false true where
  ended h := by grind [expected, isOver]
  pending u hu := by grind [expected, isOver]
  log := by
    rw [hsatisfied]
    by_cases hover : cfg.isOver v
    · rw [if_pos hover]
      rfl
    · rw [if_neg hover, hv]
      rfl

/-- When all local connections have answered, the remote one is asked. -/
lemma answered_local (hsatisfied : t.satisfied = false) (hexpected : 1 ≤ cfg.expected t)
    {v : TransferData}
    (hv : v = { t with pendingResponses := t.pendingResponses - 1, satisfied := false })
    (hlast : v.pendingResponses = 1 ∧ v.solicitingConnection ≠ cfg.remoteConnection) :
    cfg.Answered t (some v) true false where
  ended h := nomatch h
  pending u hu := by grind [expected]
  log := by
    rw [hsatisfied, hv]
    rfl

/-- The last response is forwarded. -/
lemma answered_last (hsatisfied : t.satisfied = false) (hexpected : 1 ≤ cfg.expected t)
    (hlast : t.pendingResponses - 1 = 0) : cfg.Answered t none false true where
  ended h := by grind [expected]
  pending u hu := nomatch hu
  log := by
    rw [hsatisfied]
    rfl

/-- A response that is not satisfied is dropped while others are expected. -/
lemma answered_unsatisfied (hsatisfied : t.satisfied = false) (hexpected : 1 ≤ cfg.expected t)
    {v : TransferData}
    (hv : v = { t with pendingResponses := t.pendingResponses - 1, satisfied := false })
    (hlocal : ¬(v.pendingResponses = 1 ∧ v.solicitingConnection ≠ cfg.remoteConnection))
    (hlast : v.pendingResponses ≠ 0) : cfg.Answered t (some v) false false where
  ended h := nomatch h
  pending u hu := by grind [expected]
  log := by
    rw [hsatisfied, hv]
    rfl

/-- After a satisfied response the others are only counted. -/
lemma answered_later (hsatisfied : t.satisfied = true) (hexpected : 1 ≤ cfg.expected t)
    {v : TransferData} (hv : v = { t with pendingResponses := t.pendingResponses - 1 }) :
    cfg.Answered t (if cfg.isOver v then none else some v) false false where
  ended h := by grind [expected, isOver]
  pending u hu := by grind [expected, isOver]
  log := by
    rw [if_pos hsatisfied]
    by_cases hover : cfg.isOver v
    · rw [if_pos hover]
      rfl
    · rw [if_neg hover, Option.elim_some, hv, if_pos hsatisfied]
      rfl

lemma processed_first (hsatisfied : t.satisfied = false) (hexpected : 1 ≤ cfg.expected t)
    (h : cfg.processFirst msg msg.getAddress t s = .ok s') :
    ∃ u asked sent, cfg.Processed s s' msg t u asked sent := by
  obtain ⟨satisfied, -, h⟩ := bind_eq_ok.1 h
  cases h
  cases satisfied with
  | true =>
    rw [if_pos rfl]
    exact ⟨_, false, true, rfl, (List.append_nil _).symm, rfl, rfl, rfl, rfl,
      ⟨Nat.le_succ _, fun _ => Nat.succ_pos _⟩, answered_satisfied hsatisfied hexpected rfl⟩
  | false =>
    rw [if_neg Bool.false_ne_true]
    split
    · rename_i hlocal
      exact ⟨_, true, false, rfl, rfl, (List.append_nil _).symm, rfl, rfl, rfl,
        ⟨Nat.le_refl _, fun h => nomatch h⟩, answered_local hsatisfied hexpected rfl hlocal⟩
    · rename_i hlocal
      split
      · rename_i hlast
        exact ⟨none, false, true, rfl, (List.append_nil _).symm, rfl, rfl, rfl, rfl,
          ⟨Nat.le_succ _, fun _ => Nat.succ_pos _⟩, answered_last hsatisfied hexpected hlast⟩
      · rename_i hlast
        exact ⟨_, false, false, rfl, (List.append_nil _).symm, (List.append_nil _).symm, rfl, rfl,
          rfl, ⟨Nat.le_refl _, fun h => nomatch h⟩,
          answered_unsatisfied hsatisfied hexpected rfl hlocal hlast⟩

lemma processed_later (hsatisfied : t.satisfied = true) (hexpected : 1 ≤ cfg.expected t) :
    ∃ u asked sent, cfg.Processed s (cfg.processLater msg.getAddress t s) msg t u asked sent := by
  have hanswered := answered_later hsatisfied hexpected rfl
  rw [processLater]
  split
  · rename_i hover
    rw [if_pos hover] at hanswered
    exact ⟨none, false, false, rfl, (List.append_nil _).symm, (List.append_nil _).symm, rfl, rfl,
      rfl, ⟨Nat.le_succ _, fun _ => Nat.succ_pos _⟩, hanswered⟩
  · rename_i hover
    rw [if_neg hover] at hanswered
    exact ⟨_, false, false, rfl, (List.append_nil _).symm, (List.append_nil _).symm, rfl, rfl,
      rfl, ⟨Nat.le_refl _, fun h => nomatch h⟩, hanswered⟩

/-- An answer keeps the books. -/
lemma Inv.processed {r : SnoopyBus} {u : Option TransferData} {asked sent : Bool}
    {connection index : ℕ} {request : Msg} (hs : cfg.Inv s)
    (hx : s.unanswered[index]? = some (connection, request))
    (haddr : msg.getAddress = request.getAddress)
    (hr : r = { s with unanswered := s.unanswered.eraseIdx index })
    (ht : s.pendingTransfers msg.getAddress = some t) (h : cfg.Processed r s' msg t u asked sent) :
    cfg.Inv s' := by
  obtain ⟨hmsg, hexpected, houtstanding⟩ := (hs.balanced msg.getAddress).pending t ht
  have herase : ∀ a, s.outstanding a = r.outstanding a + if request.getAddress = a then 1 else 0 :=
    outstanding_eraseIdx hx (by rw [hr])
  have hrest : r.pendingTransfers = s.pendingTransfers ∧ r.forwarded = s.forwarded ∧
      r.started = s.started ∧ r.waitingMsgs = s.waitingMsgs ∧ r.attempts = s.attempts ∧
      r.transferInProgress = s.transferInProgress := by
    rw [hr]
    exact ⟨rfl, rfl, rfl, rfl, rfl, rfl⟩
  obtain ⟨hrpending, hrforwarded, hrstarted, hrwaiting, hrattempts, hrprogress⟩ := hrest
  have hcount : ∀ a, s'.outstanding a =
      r.outstanding a + if msg.getAddress = a ∧ asked = true then 1 else 0 := by
    intro a
    rw [SnoopyBus.outstanding, h.unanswered, List.countP_append]
    refine congrArg _ ?_
    cases asked with
    | false =>
      rw [if_neg Bool.false_ne_true, if_neg fun hasked => Bool.false_ne_true hasked.2]
      rfl
    | true =>
      rw [if_pos rfl, List.countP_singleton, hmsg]
      by_cases ha : msg.getAddress = a <;> simp [ha]
  have hself : s'.pendingTransfers msg.getAddress = u := by
    rw [h.pendingTransfers, Function.update_self]
  have hother : ∀ a, msg.getAddress ≠ a → s'.pendingTransfers a = s.pendingTransfers a := by
    intro a ha
    rw [h.pendingTransfers, Function.update_of_ne (Ne.symm ha), hrpending]
  have hattempts : u = none → 0 < s'.attempts := h.attempts.2
  refine ⟨fun a => ?_, fun i hi => ?_, fun hbusy => ?_, fun hidle => ?_⟩
  · have herasea := herase a
    have hcounta := hcount a
    rw [← haddr] at herasea
    by_cases ha : msg.getAddress = a
    · subst ha
      rw [if_pos rfl] at herasea
      refine ⟨fun v hv => ?_, fun hnone => ?_, ?_⟩
      · obtain ⟨hvmsg, hvpos, hvexpected⟩ := h.answered.pending v (hself.symm.trans hv)
        refine ⟨by rw [hvmsg, hmsg], hvpos, ?_⟩
        cases asked <;> simp at hcounta hvexpected <;> omega
      · obtain ⟨hone, hasked⟩ := h.answered.ended (hself.symm.trans hnone)
        rw [hasked, if_neg fun hasked => Bool.false_ne_true hasked.2] at hcounta
        omega
      · rw [h.started, hrstarted, (hs.balanced msg.getAddress).log,
          SnoopyBus.unsatisfied_of_some ht, h.answered.log, SnoopyBus.unsatisfied_eq, hself,
          h.forwarded, hrforwarded]
        cases sent with
        | true => rw [if_pos rfl, if_pos rfl, connectionsAt_append, if_pos rfl, List.append_assoc]
        | false => rw [if_neg Bool.false_ne_true, if_neg Bool.false_ne_true, List.append_nil,
            List.nil_append]
    · rw [if_neg ha] at herasea
      rw [if_neg fun h => ha h.1] at hcounta
      refine (hs.balanced a).congr (hother a ha) (by omega) (by rw [h.started, hrstarted]) ?_
      rw [h.forwarded, hrforwarded]
      cases sent with
      | true => rw [if_pos rfl, connectionsAt_append, if_neg ha]
      | false => rw [if_neg Bool.false_ne_true, List.append_nil]
  · rw [h.waitingMsgs, hrwaiting] at hi
    exact hs.waiting i hi
  · -- either the transfer is over and an attempt is scheduled, or it is still pending
    by_cases hu : u = none
    · exact .inl (hattempts hu)
    · exact .inr ⟨_, by rwa [hself]⟩
  · by_cases hu : u = none
    · exact .inl (hattempts hu)
    · rw [h.transferInProgress, hrprogress] at hidle
      refine (hs.idle hidle).imp (fun hpos => ?_) fun hblocked j m hm => ?_
      · exact Nat.lt_of_lt_of_le hpos (hrattempts ▸ h.attempts.1)
      · rw [h.waitingMsgs, hrwaiting] at hm
        by_cases ha : msg.getAddress = m.getAddress
        · rwa [← ha, hself]
        · rw [hother _ ha]
          exact hblocked j m hm

/-- An answer to a copy of a request is processed. -/
lemma Inv.answers {index connection : ℕ} {request response : Msg} (hs : cfg.Inv s)
    (hx : s.unanswered[index]? = some (connection, request))
    (hanswers : answers response request = true) :
    ∃ s', cfg.answer index response s = .ok s' ∧ cfg.Inv s' ∧ s'.started = s.started := by
  obtain ⟨haddr, hresponse, satisfied, hsatisfied⟩ := getAddress_of_answers hanswers
  have herase : s.outstanding response.getAddress = SnoopyBus.outstanding { s with
      unanswered := s.unanswered.eraseIdx index } response.getAddress + 1 := by
    have := outstanding_eraseIdx hx (rfl : SnoopyBus.unanswered { s with
      unanswered := s.unanswered.eraseIdx index } = _) response.getAddress
    rwa [if_pos haddr.symm] at this
  -- the copy is outstanding, so that its transfer is pending
  have hpending : s.pendingTransfers response.getAddress ≠ none := by
    intro hnone
    have := (hs.balanced response.getAddress).finished hnone
    omega
  obtain ⟨t, ht⟩ := Option.ne_none_iff_exists'.1 hpending
  obtain ⟨-, hexpected, -⟩ := (hs.balanced response.getAddress).pending t ht
  have hok : ∃ s', cfg.processResponse response { s with
      unanswered := s.unanswered.eraseIdx index } = .ok s' ∧
      ∃ u asked sent, cfg.Processed { s with unanswered := s.unanswered.eraseIdx index } s'
        response t u asked sent := by
    rw [processResponse, (check_eq_ok (u := ⟨⟩)).2 hresponse, ok_bind, ht, Option.elim_some, ok_bind]
    cases hlater : t.satisfied with
    | true => exact ⟨_, rfl, processed_later hlater hexpected⟩
    | false =>
      rw [if_neg Bool.false_ne_true]
      rcases hfirst : cfg.processFirst response response.getAddress t { s with
        unanswered := s.unanswered.eraseIdx index } with e | r
      · rw [processFirst, hsatisfied, ok_bind] at hfirst
        cases hfirst
      · exact ⟨r, rfl, processed_first hlater hexpected hfirst⟩
  obtain ⟨s', hs', u, asked, sent, hprocessed⟩ := hok
  refine ⟨s', ?_, hs.processed hx haddr rfl ht hprocessed, hprocessed.started⟩
  rw [answer, hx, Option.elim_some, ok_bind, (check_eq_ok (u := ⟨⟩)).2 hanswers, ok_bind]
  exact hs'

/-! ### Steps and runs -/

lemma Inv.new : cfg.Inv .new where
  balanced _ := ⟨fun _ h => (nomatch h), fun _ => rfl, rfl⟩
  waiting _ h := absurd rfl h
  busy h := nomatch h
  idle _ := .inr fun _ _ h => nomatch h

/-- An event other than a request on the only local connection of a bus. -/
def Served (cfg : BusConfig) (e : Event) : Prop :=
  ∀ m c rand, e = .request m c rand → c = cfg.remoteConnection ∨ 3 ≤ cfg.connectionCount

/-- A request is queued and, if the bus is idle, an attempt is made to start a transfer. -/
lemma Inv.recvRequest {rand : ℕ} (hs : cfg.Inv s) (hi : i < cfg.connectionCount)
    (hlocal : i = cfg.remoteConnection ∨ 3 ≤ cfg.connectionCount)
    (h : cfg.recvRequest msg i rand s = .ok s') : cfg.Inv s' := by
  have hwaiting : ∀ j, Function.update s.waitingMsgs i (s.waitingMsgs i ++ [msg]) j ≠ [] →
      j < cfg.connectionCount ∧ (j = cfg.remoteConnection ∨ 3 ≤ cfg.connectionCount) := by
    intro j hj
    by_cases hji : j = i
    · rw [hji]
      exact ⟨hi, hlocal⟩
    · rw [Function.update_of_ne hji] at hj
      exact hs.waiting j hj
  have hbalanced : ∀ a, cfg.Balanced { s with
      waitingMsgs := Function.update s.waitingMsgs i (s.waitingMsgs i ++ [msg]) } a :=
    fun a => (hs.balanced a).congr rfl rfl rfl rfl
  rw [BusConfig.recvRequest] at h
  split at h
  · rename_i hbusy
    cases h
    exact ⟨hbalanced, hwaiting, hs.busy, fun hidle => absurd (hbusy.symm.trans hidle) (by decide)⟩
  · exact Inv.attemptTransfer hbalanced hwaiting h

lemma Inv.step {e : Event} (hs : cfg.Inv s) (he : cfg.Served e)
    (h : cfg.machine.step s e = .ok s') : cfg.Inv s' := by
  cases e with
  | request m c rand =>
    obtain ⟨⟨-, hc⟩, h⟩ := check_bind_eq_ok.1 h
    exact hs.recvRequest hc (he m c rand rfl) h
  | answer index response =>
    obtain ⟨x, hx, hrest⟩ := bind_eq_ok.1 h
    obtain ⟨hanswers, -⟩ := check_bind_eq_ok.1 hrest
    have hget : s.unanswered[index]? = some x := elim_error_eq_ok.1 hx
    obtain ⟨r, hr, hinv, -⟩ := hs.answers (show s.unanswered[index]? = some (x.1, x.2) from hget) hanswers
    cases hr.symm.trans h
    exact hinv
  | attempt rand =>
    obtain ⟨-, h⟩ := check_bind_eq_ok.1 h
    have hbalanced : ∀ a, cfg.Balanced { s with attempts := s.attempts - 1 } a :=
      fun a => (hs.balanced a).congr rfl rfl rfl rfl
    exact Inv.attemptTransfer hbalanced hs.waiting h

/-- The transfers and the queues of a bus. -/
structure Accounted (cfg : BusConfig) (s : SnoopyBus) : Prop where
  /-- One response is forwarded for every transfer, but for one that is not satisfied yet. -/
  forwarded : ∀ a, connectionsAt s.started a = connectionsAt s.forwarded a ++ s.unsatisfied a
  /-- No transfer is started for an address while one is pending. -/
  single : ∀ e s' a, cfg.machine.step s e = .ok s' → s.pendingTransfers a ≠ none →
    connectionsAt s'.started a = connectionsAt s.started a
  /-- Every answer to a copy of a request is processed. -/
  answered : ∀ index x response, s.unanswered[index]? = some x → answers response x.2 = true →
    ∃ s', cfg.machine.step s (.answer index response) = .ok s'
  /-- When all copies are answered, no transfer is pending. -/
  finished : s.unanswered = [] → ∀ a, s.pendingTransfers a = none
  /-- When in addition no attempt is scheduled, no request is waiting. -/
  drained : s.unanswered = [] → s.attempts = 0 → ∀ i, s.waitingMsgs i = []

/-- A step starts no transfer for an address for which one is pending. -/
lemma Inv.started_step {e : Event} (hs : cfg.Inv s) (ha : s.pendingTransfers a ≠ none)
    (h : cfg.machine.step s e = .ok s') :
    connectionsAt s'.started a = connectionsAt s.started a := by
  cases e with
  | request m c rand =>
    obtain ⟨-, h⟩ := check_bind_eq_ok.1 h
    rw [BusConfig.recvRequest] at h
    split at h
    · cases h
      rfl
    · exact started_attemptTransfer (s := { s with
        waitingMsgs := Function.update s.waitingMsgs c (s.waitingMsgs c ++ [m]) }) ha h
  | answer index response =>
    obtain ⟨x, hx, hrest⟩ := bind_eq_ok.1 h
    obtain ⟨hanswers, -⟩ := check_bind_eq_ok.1 hrest
    obtain ⟨r, hr, -, hstarted⟩ := hs.answers
      (show s.unanswered[index]? = some (x.1, x.2) from elim_error_eq_ok.1 hx) hanswers
    cases hr.symm.trans h
    rw [hstarted]
  | attempt rand =>
    obtain ⟨-, h⟩ := check_bind_eq_ok.1 h
    exact started_attemptTransfer (s := { s with attempts := s.attempts - 1 }) ha h

lemma Inv.accounted (hs : cfg.Inv s) : cfg.Accounted s := by
  have hfinished : s.unanswered = [] → ∀ a, s.pendingTransfers a = none := by
    intro hnil a
    by_contra hpending
    have hpos := (hs.balanced a).outstanding_pos hpending
    rw [SnoopyBus.outstanding, hnil, List.countP_nil] at hpos
    exact Nat.lt_irrefl _ hpos
  refine ⟨fun a => (hs.balanced a).log, fun e s' a h ha => hs.started_step ha h,
    fun index x response hx hanswers => ?_, hfinished, fun hnil hattempts i => ?_⟩
  · obtain ⟨s', hs', -, -⟩ := hs.answers (show s.unanswered[index]? = some (x.1, x.2) from hx)
      hanswers
    exact ⟨s', hs'⟩
  · have hnone := hfinished hnil
    have hidle : s.transferInProgress = false := by
      by_contra hbusy
      rcases hs.busy (eq_true_of_ne_false hbusy) with hpos | ⟨a, ha⟩
      · omega
      · exact ha (hnone a)
    rcases hs.idle hidle with hpos | hblocked
    · omega
    · by_contra hne
      obtain ⟨m, hm⟩ := List.exists_mem_of_ne_nil _ hne
      exact hblocked i m hm (hnone _)

/-! ## The transfers of a run -/

/-- While no request arrives on the only local connection of a bus, one response is forwarded for
every transfer, and when all copies of requests are answered nothing is pending or waiting. -/
theorem accounted_of_runWhere (cfg : BusConfig) (es : List Event) (s : SnoopyBus)
    (h : cfg.machine.RunWhere (fun _ e => cfg.Served e) es s) : cfg.Accounted s :=
  Inv.accounted (h.invariant Inv.new fun _ _ _ hs he hstep => hs.step he hstep)

/-- The last of some connections is remote. -/
def lastRemote (n : ℕ) : BusConfig where
  connectionCount := n + 2
  remoteConnection := n + 1
  arbitrationType := .remoteFirstRandom
  remote_lt := by omega
  local_pos := by omega

/-- Two reads of a line of which the other local connection answers the first. -/
def readRun : List Event :=
  [.request (.read ⟨1, 64, false, false, false⟩) 0 0,
    .request (.read ⟨2, 64, false, false, false⟩) 2 0,
    .answer 0 (.readResponse ⟨3, 64, true, true, false, false, 0, false, 1⟩)]

/-- The first read is answered, and the second is started by the scheduled attempt. -/
theorem accounted_readRun : ∃ s, (lastRemote 1).machine.Run readRun s ∧ s.unanswered = [] ∧
    connectionsAt s.forwarded 64 = [0] ∧ s.attempts = 1 ∧ (lastRemote 1).Accounted s := by
  have hrun : succeeds ((lastRemote 1).machine.exec (lastRemote 1).machine.init readRun) (fun s =>
      decide (s.unanswered = [] ∧ connectionsAt s.forwarded 64 = [0] ∧ s.attempts = 1)) = true := by
    decide +kernel
  obtain ⟨s, hs, htest⟩ := succeeds_iff.1 hrun
  obtain ⟨hunanswered, hforwarded, hattempts⟩ := of_decide_eq_true htest
  have hwhere : (lastRemote 1).machine.RunWhere (fun _ e => (lastRemote 1).Served e) readRun s :=
    (Machine.run_of_exec hs).mono fun _ _ _ _ _ _ _ => .inr (by decide)
  exact ⟨s, Machine.run_of_exec hs, hunanswered, hforwarded, hattempts,
    accounted_of_runWhere _ readRun s hwhere⟩

/-- A read of the only local connection is broadcast to nobody, and its transfer stays pending. -/
theorem not_accounted_of_onlyLocal : ∃ s,
    (lastRemote 0).machine.Run [.request (.read ⟨1, 64, false, false, false⟩) 0 0] s ∧
    s.unanswered = [] ∧ s.attempts = 0 ∧ s.pendingTransfers 64 ≠ none ∧
    connectionsAt s.forwarded 64 = [] ∧ ¬(lastRemote 0).Accounted s := by
  have hrun : succeeds ((lastRemote 0).machine.exec (lastRemote 0).machine.init
      [.request (.read ⟨1, 64, false, false, false⟩) 0 0]) (fun s =>
      decide (s.unanswered = [] ∧ s.attempts = 0 ∧ s.pendingTransfers 64 ≠ none ∧
        connectionsAt s.forwarded 64 = [])) = true := by
    decide +kernel
  obtain ⟨s, hs, htest⟩ := succeeds_iff.1 hrun
  obtain ⟨hunanswered, hattempts, hpending, hforwarded⟩ := of_decide_eq_true htest
  exact ⟨s, Machine.run_of_exec hs, hunanswered, hattempts, hpending, hforwarded,
    fun h => hpending (h.finished hunanswered 64)⟩

end BusConfig

end Sesc.Bus
