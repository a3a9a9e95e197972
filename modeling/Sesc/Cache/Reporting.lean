import Sesc.Cache.Frame
import Sesc.Cache.Inclusion

/-!
# What a hierarchy reports to the level below

A remote read of a line is answered by the lower cache, at once or after the top cache has
answered it.  The answer to a shared read says whether the line was dirty.  This file notes
for every remote read whether a cache of the hierarchy held the line dirty when the read
arrived, and compares it with the answer.
-/

namespace Sesc.Cache

open Lib

/-- The state of a line that has been shared. -/
def BIPMOESIState.downgraded : BIPMOESIState → BIPMOESIState
  | modified => owned
  | exclusive => shared
  | s => s

lemma BIPMOESIState.eq_of_ne {x : BIPMOESIState} (hmodified : x ≠ modified)
    (hexclusive : x ≠ exclusive) : x = invalid ∨ x = shared ∨ x = owned := by
  cases x with
  | modified => exact absurd rfl hmodified
  | owned => exact .inr (.inr rfl)
  | exclusive => exact absurd rfl hexclusive
  | shared => exact .inr (.inl rfl)
  | invalid => exact .inl rfl

/-- The state of the block of a tag, invalid if there is none. -/
def CacheConfig.stateOf (cfg : CacheConfig) (c : BIPMOESICache) (tag : AddrTag) : BIPMOESIState :=
  ((cfg.block c tag).map BlockState.state).getD .invalid

/-- A remote read that has been answered and whether the hierarchy held the line dirty when the
read arrived. -/
structure Served where
  read : ReadMsg
  foundDirty : Bool
  response : ReadResponseMsg
deriving DecidableEq

/-- A shared read of a dirty line is told that the line is dirty. -/
def Served.Reports (x : Served) : Prop :=
  x.read.requestingExclusive = false → x.response.satisfied = true → x.foundDirty = true →
    x.response.isDirty = true

instance (x : Served) : Decidable x.Reports :=
  inferInstanceAs (Decidable (_ → _ → _ → _))

/-- A hierarchy and the remote reads it has received: for each tag, whether the line was dirty
when the reads that wait for the top cache arrived, and the reads that have been answered. -/
structure Reporting where
  hierarchy : Hierarchy
  found : AddrTag → List Bool
  served : List Served

/-- Every shared read of a dirty line has been told that the line is dirty. -/
def ReportsDirty (s : Reporting) : Prop := ∀ x ∈ s.served, x.Reports

/-- What the lower cache receives in an event. -/
def Hierarchy.received (s : Hierarchy) : HierarchyEvent → Option (Port × Msg × List ℕ)
  | .remote msg rands => some (.remoteConnection, msg, rands)
  | .deliver k rands => s.flight[k]?.bind fun t =>
      if t.dest = .l2 then some (.localConnection, t.msg, rands) else none
  | _ => none

/-- Reads that are answered one after the other by a block in the given state: as long as the
block is valid and no exclusive read has taken it, a shared read that found the line dirty
meets a modified block. -/
def MeetModified : BIPMOESIState → List (ReadMsg × Bool) → Prop
  | _, [] => True
  | x, (m, found) :: rest => x = .invalid ∨ m.requestingExclusive = true ∨
      (found = true → x = .modified) ∧ MeetModified x.downgraded rest

namespace HierarchyConfig

variable (cfg : HierarchyConfig)

/-- The tag of an address in the lower cache. -/
def tagOf (addr : Address) : AddrTag := (cfg.cache .l2).calcTag addr

/-- A cache of the hierarchy holds the line in a dirty state. -/
def isDirty (s : Hierarchy) (tag : AddrTag) : Bool :=
  ((cfg.cache .l1).stateOf (s.cache .l1) tag).isDirty ||
    ((cfg.cache .l2).stateOf (s.cache .l2) tag).isDirty

/-- The answers to remote reads that the lower cache sends in an event. -/
def answers (s : Hierarchy) (e : HierarchyEvent) : List ReadResponseMsg :=
  match s.received e with
  | none => []
  | some (port, msg, rands) =>
    match (cfg.cache .l2).recvMsg port msg (activation s .l2 rands) with
    | .ok a => a.sent.filterMap Sent.readAnswer
    | .error _ => []

/-- The remote reads that the lower cache answers in an event, if it answers any, with what
their lines were found to be. -/
def answered (s : Reporting) (e : HierarchyEvent) : List (ReadMsg × Bool) :=
  match s.hierarchy.received e with
  | some (.remoteConnection, .read m, _) => [(m, cfg.isDirty s.hierarchy (cfg.tagOf m.addr))]
  | some (.localConnection, .readResponse m, _) =>
    ((s.hierarchy.cache .l2).waitingOnRemoteReads (cfg.tagOf m.addr)).zip
      (s.found (cfg.tagOf m.addr))
  | _ => []

/-- What is noted of the reads that wait for the top cache. -/
def noteFound (s : Reporting) (e : HierarchyEvent) : AddrTag → List Bool :=
  match s.hierarchy.received e with
  | some (.remoteConnection, .read m, _) =>
    if cfg.answers s.hierarchy e = [] then
      Function.update s.found (cfg.tagOf m.addr)
        (s.found (cfg.tagOf m.addr) ++ [cfg.isDirty s.hierarchy (cfg.tagOf m.addr)])
    else s.found
  | some (.localConnection, .readResponse m, _) =>
    Function.update s.found (cfg.tagOf m.addr) []
  | _ => s.found

def reportingStep (s : Reporting) (e : HierarchyEvent) : Except Fault Reporting := do
  let h ← cfg.step s.hierarchy e
  return {
    hierarchy := h
    found := cfg.noteFound s e
    served := s.served ++ List.zipWith (fun x r => ⟨x.1, x.2, r⟩) (cfg.answered s e)
      (cfg.answers s.hierarchy e) }

/-- The machine of a hierarchy whose answers are noted. -/
def reporting : Machine Reporting HierarchyEvent Fault where
  init := ⟨.new, fun _ => [], []⟩
  step := cfg.reportingStep

/-- The condition on a step: a shared read that the lower cache answers at once does not find
the line dirty, and the reads that waited for the top cache meet a modified block of the lower
one if they found the line dirty. -/
def MeetsModified (s : Reporting) (e : HierarchyEvent) : Prop :=
  match s.hierarchy.received e with
  | some (.remoteConnection, .read m, _) =>
    m.requestingExclusive = false →
    (cfg.cache .l2).stateOf (s.hierarchy.cache .l2) (cfg.tagOf m.addr) = .shared ∨
      (cfg.cache .l2).stateOf (s.hierarchy.cache .l2) (cfg.tagOf m.addr) = .owned →
    cfg.isDirty s.hierarchy (cfg.tagOf m.addr) = false
  | some (.localConnection, .readResponse m, _) =>
    MeetModified ((cfg.cache .l2).stateOf (s.hierarchy.cache .l2) (cfg.tagOf m.addr))
      (cfg.answered s e)
  | _ => True

end HierarchyConfig

/-! ## One answer -/

namespace CacheConfig

variable {cfg : CacheConfig} {a b : Activation} {tag : AddrTag} {j : ℕ}

lemma stateOf_of_lookup {c : BIPMOESICache} (hj : cfg.lookup c tag = some j) :
    cfg.stateOf c tag = (c.cacheContents j).state := by
  rw [stateOf, block_of_lookup hj]
  rfl

lemma stateOf_of_lookup_none {c : BIPMOESICache} (hj : cfg.lookup c tag = none) :
    cfg.stateOf c tag = .invalid := by
  rw [stateOf, block_of_lookup_none hj]
  rfl

/-- The state of a block that has been changed in place. -/
lemma stateOf_modifyBlock (ha : cfg.WellFormed a.cache) (hj : cfg.lookup a.cache tag = some j)
    {f : BlockState → BlockState} (hf : ∀ x, (f x).valid = x.valid ∧ (f x).tag = x.tag) :
    cfg.WellFormed (a.modifyBlock j f).cache ∧
      cfg.stateOf (a.modifyBlock j f).cache tag = (f (a.cache.cacheContents j)).state := by
  obtain ⟨hwf, hlookup, -⟩ := ha.block_modify hj (hf _)
  refine ⟨hwf, ?_⟩
  have hj' : cfg.lookup (a.modifyBlock j f).cache tag = some j := by rw [hlookup, hj]
  rw [stateOf_of_lookup hj', cacheContents_modifyBlock_self]

/-- What a remote read does: the answer it gets and the state that it leaves. -/
structure AnswersRead (cfg : CacheConfig) (m : ReadMsg) (a b : Activation)
    (res : ReadResponseMsg) : Prop where
  sent : b.sent.filterMap Sent.readAnswer = a.sent.filterMap Sent.readAnswer ++ [res]
  satisfied : res.satisfied = true → cfg.stateOf a.cache (cfg.calcTag m.addr) ≠ .invalid
  unsatisfied : res.satisfied = false → cfg.stateOf a.cache (cfg.calcTag m.addr) = .invalid
  isDirty : m.requestingExclusive = false → res.satisfied = true →
    (res.isDirty = true ↔ cfg.stateOf a.cache (cfg.calcTag m.addr) = .modified)
  waiting : b.cache.waitingOnRemoteReads = a.cache.waitingOnRemoteReads
  wellFormed : cfg.WellFormed b.cache
  state : cfg.stateOf b.cache (cfg.calcTag m.addr) =
    if m.requestingExclusive then .invalid
    else (cfg.stateOf a.cache (cfg.calcTag m.addr)).downgraded

lemma readAnswers_sendMsg {res : ReadResponseMsg} {delay : TimeDelta} :
    (a.sendMsg .remoteConnection (.readResponse res) delay).sent.filterMap Sent.readAnswer =
      a.sent.filterMap Sent.readAnswer ++ [res] := by
  rw [Activation.sendMsg, List.filterMap_append]
  rfl

lemma answersRead_of_performRemoteRead (ha : cfg.WellFormed a.cache) {m : ReadMsg}
    (h : cfg.performRemoteRead m a = .ok b) : ∃ res, cfg.AnswersRead m a b res := by
  rw [performRemoteRead] at h
  dsimp only at h
  have hstamped : cfg.WellFormed a.stamped.cache := ha
  split at h
  · rename_i hnone
    cases h
    have hinvalid : cfg.stateOf a.cache (cfg.calcTag m.addr) = .invalid :=
      stateOf_of_lookup_none hnone
    refine ⟨_, readAnswers_sendMsg, (fun h => absurd h Bool.false_ne_true), fun _ => hinvalid,
      (fun _ h => absurd h Bool.false_ne_true), rfl, ha, ?_⟩
    show cfg.stateOf a.cache (cfg.calcTag m.addr) = _
    rw [hinvalid]
    split <;> rfl
  · rename_i j hj
    have hj : cfg.lookup a.stamped.cache (cfg.calcTag m.addr) = some j := hj
    have hstate : cfg.stateOf a.cache (cfg.calcTag m.addr) = (a.cache.cacheContents j).state :=
      stateOf_of_lookup hj
    split at h
    · rename_i hinvalid
      have hinvalid : cfg.stateOf a.cache (cfg.calcTag m.addr) = .invalid := hstate.trans hinvalid
      cases h
      refine ⟨_, readAnswers_sendMsg, (fun h => absurd h Bool.false_ne_true), fun _ => hinvalid,
        (fun _ h => absurd h Bool.false_ne_true), rfl, ha, ?_⟩
      show cfg.stateOf a.cache (cfg.calcTag m.addr) = _
      rw [hinvalid]
      split <;> rfl
    · rename_i hvalid
      have hvalid : cfg.stateOf a.cache (cfg.calcTag m.addr) ≠ .invalid := hstate ▸ hvalid
      split at h
      · rename_i hexclusive
        have hnever : m.requestingExclusive = false → False := by
          rw [hexclusive]
          exact fun h => absurd h.symm Bool.false_ne_true
        split at h
        · obtain ⟨-, h⟩ := check_bind_eq_ok.1 h
          cases h
          obtain ⟨hwf, hafter⟩ := stateOf_modifyBlock hstamped hj
            (f := fun x => { x with state := .invalid }) fun x => ⟨rfl, rfl⟩
          refine ⟨_, readAnswers_sendMsg, fun _ => hvalid,
            (fun h => absurd h.symm Bool.false_ne_true),
            fun h => (hnever h).elim, rfl, hwf, ?_⟩
          rw [if_pos hexclusive]
          exact hafter
        · obtain ⟨-, h⟩ := check_bind_eq_ok.1 h
          obtain ⟨c, hc, hret⟩ := bind_eq_ok.1 h
          cases hret
          rw [invalidateBlock_eq_ok hc]
          obtain ⟨hwf, hlines⟩ := hstamped.block_erase hj
          refine ⟨_, readAnswers_sendMsg, fun _ => hvalid,
            (fun h => absurd h.symm Bool.false_ne_true),
            fun h => (hnever h).elim, rfl, hwf, ?_⟩
          have hblock : (cfg.lines (a.stamped.modifyBlock j fun _ => .new)).block
              (cfg.calcTag m.addr) = none := by
            rw [hlines, Lines.block_setBlock, if_pos rfl]
          have hblock : cfg.block (a.stamped.modifyBlock j fun _ => .new).cache
              (cfg.calcTag m.addr) = none := hblock
          rw [if_pos hexclusive]
          show cfg.stateOf (a.stamped.modifyBlock j fun _ => .new).cache _ = _
          rw [stateOf, hblock]
          rfl
      · rename_i hshared
        cases h
        refine ⟨_, readAnswers_sendMsg, fun _ => hvalid,
          (fun h => absurd h.symm Bool.false_ne_true), fun _ _ => ?_, rfl, ?_, ?_⟩
        · rw [hstate]
          exact decide_eq_true_iff
        · dsimp only [Activation.sendMsg]
          refine (stateOf_modifyBlock hstamped hj ?_).1
          exact fun x => ⟨rfl, rfl⟩
        · rw [if_neg hshared, hstate]
          dsimp only [Activation.sendMsg]
          refine (stateOf_modifyBlock hstamped hj ?_).2.trans ?_
          · exact fun x => ⟨rfl, rfl⟩
          · dsimp only [BlockState.mapState, Activation.stamped]
            cases (a.cache.cacheContents j).state <;> rfl

/-- When an answer reports dirty data. -/
lemma AnswersRead.reports_iff {m : ReadMsg} {res : ReadResponseMsg} (h : cfg.AnswersRead m a b res)
    (found : Bool) : (Served.mk m found res).Reports ↔
      cfg.stateOf a.cache (cfg.calcTag m.addr) = .invalid ∨ m.requestingExclusive = true ∨
        (found = true → cfg.stateOf a.cache (cfg.calcTag m.addr) = .modified) := by
  constructor
  · intro hreports
    by_cases hinvalid : cfg.stateOf a.cache (cfg.calcTag m.addr) = .invalid
    · exact .inl hinvalid
    · rcases hexclusive : m.requestingExclusive with _ | _
      · have hsatisfied : res.satisfied = true := by
          rcases hs : res.satisfied with _ | _
          · exact absurd (h.unsatisfied hs) hinvalid
          · rfl
        exact .inr (.inr fun hfound =>
          (h.isDirty hexclusive hsatisfied).1 (hreports hexclusive hsatisfied hfound))
      · exact .inr (.inl rfl)
  · intro hcases hexclusive hsatisfied hfound
    have hexclusive : m.requestingExclusive = false := hexclusive
    rcases hcases with hinvalid | hexclusive' | hmodified
    · exact absurd hinvalid (h.satisfied hsatisfied)
    · rw [hexclusive] at hexclusive'
      cases hexclusive'
    · exact (h.isDirty hexclusive hsatisfied).2 (hmodified hfound)

lemma meetModified_invalid (l : List (ReadMsg × Bool)) : MeetModified .invalid l := by
  cases l with
  | nil => exact trivial
  | cons x rest => exact .inl rfl

/-- The stored reads of a tag are answered in their order. -/
lemma performRemoteReads_reports {l : List ReadMsg} {flags : List Bool}
    (ha : cfg.WellFormed a.cache) (htag : ∀ m ∈ l, cfg.calcTag m.addr = tag)
    (hlen : flags.length = l.length) (h : cfg.performRemoteReads l a = .ok b) :
    ∃ rs, b.sent.filterMap Sent.readAnswer = a.sent.filterMap Sent.readAnswer ++ rs ∧
      b.cache.waitingOnRemoteReads = a.cache.waitingOnRemoteReads ∧ cfg.WellFormed b.cache ∧
      ((∀ x ∈ List.zipWith (fun x r => Served.mk x.1 x.2 r) (l.zip flags) rs, x.Reports) ↔
        MeetModified (cfg.stateOf a.cache tag) (l.zip flags)) := by
  induction l generalizing a flags with
  | nil =>
    cases h
    exact ⟨[], (List.append_nil _).symm, rfl, ha, iff_of_true (fun x hx => nomatch hx) trivial⟩
  | cons m rest ih =>
    obtain ⟨found, flags, rfl⟩ := List.exists_cons_of_length_eq_add_one hlen
    rw [performRemoteReads] at h
    obtain ⟨c, hc, h⟩ := bind_eq_ok.1 h
    obtain ⟨res, hres⟩ := answersRead_of_performRemoteRead ha hc
    have hlen : flags.length = rest.length := Nat.succ.inj hlen
    obtain ⟨rs, hsent, hwaiting, hwf, hreports⟩ :=
      ih hres.wellFormed (fun m' hm' => htag m' (.tail _ hm')) hlen h
    refine ⟨res :: rs, ?_, hwaiting.trans hres.waiting, hwf, ?_⟩
    · rw [hsent, hres.sent, List.append_assoc, List.singleton_append]
    · have hone := hres.reports_iff found
      have hstate := hres.state
      rw [htag m (.head _)] at hone hstate
      rw [hstate] at hreports
      rw [List.zip_cons_cons, List.zipWith_cons_cons, List.forall_mem_cons, hone, hreports,
        MeetModified]
      -- an invalid block stays invalid, an exclusive read leaves an invalid one
      rcases hexclusive : m.requestingExclusive with _ | _
      · rw [if_neg Bool.false_ne_true]
        by_cases hinvalid : cfg.stateOf a.cache tag = .invalid
        · rw [hinvalid]
          exact iff_of_true ⟨.inl rfl, meetModified_invalid _⟩ (.inl rfl)
        · simp only [hinvalid, false_or, Bool.false_eq_true]
      · rw [if_pos rfl]
        exact iff_of_true ⟨.inr (.inl rfl), meetModified_invalid _⟩ (.inr (.inl rfl))

/-- A read of the remote connection is answered at once or waits. -/
lemma onRemoteRead_cases (ha : cfg.WellFormed a.cache) {m : ReadMsg}
    (h : cfg.onRemoteRead m a = .ok b) :
    (∃ res, cfg.AnswersRead m a b res ∧ (cfg.topCache = false → m.requestingExclusive = false →
        cfg.stateOf a.cache (cfg.calcTag m.addr) ≠ .modified ∧
          cfg.stateOf a.cache (cfg.calcTag m.addr) ≠ .exclusive)) ∨
      b.sent.filterMap Sent.readAnswer = a.sent.filterMap Sent.readAnswer ∧
        b.cache.waitingOnRemoteReads = Function.update a.cache.waitingOnRemoteReads
          (cfg.calcTag m.addr) (a.cache.waitingOnRemoteReads (cfg.calcTag m.addr) ++ [m]) ∧
        (m.requestingExclusive = false →
          cfg.stateOf a.cache (cfg.calcTag m.addr) ≠ .shared ∧
            cfg.stateOf a.cache (cfg.calcTag m.addr) ≠ .owned) := by
  rw [onRemoteRead] at h
  dsimp only at h
  split at h
  · rename_i hnone
    obtain ⟨res, hres⟩ := answersRead_of_performRemoteRead ha h
    have hinvalid : cfg.stateOf a.cache (cfg.calcTag m.addr) = .invalid := by
      rw [stateOf, hnone]
      rfl
    refine .inl ⟨res, hres, fun _ _ => ?_⟩
    rw [hinvalid]
    decide
  · rename_i x hx
    have hstate : cfg.stateOf a.cache (cfg.calcTag m.addr) = x.state := by
      rw [stateOf, hx]
      rfl
    rw [hstate]
    split at h
    · rename_i hhere
      obtain ⟨res, hres⟩ := answersRead_of_performRemoteRead ha h
      refine .inl ⟨res, hres, fun hlower hshared => ?_⟩
      rcases hhere with htop | hinvalid | ⟨-, hstate | hstate⟩
      · rw [hlower] at htop
        cases htop
      all_goals
        rw [‹x.state = _›]
        decide
    · rename_i hforward
      cases h
      refine .inr ⟨?_, rfl, fun hshared => ⟨fun hstate => ?_, fun hstate => ?_⟩⟩
      · exact congrArg Prod.snd (Activation.readTraffic_sendMsg (a := a.stamped) rfl)
      · exact hforward (.inr (.inr ⟨hshared, .inl hstate⟩))
      · exact hforward (.inr (.inr ⟨hshared, .inr hstate⟩))

end CacheConfig

/-! ## All answers of a run -/

namespace HierarchyConfig

variable {cfg : HierarchyConfig} {s s' : Hierarchy} {e : HierarchyEvent} {a : Activation}
  {port : Port} {msg : Msg} {rands : List ℕ}

/-- What an event does to the lower cache. -/
lemma step_lower (h : cfg.step s e = .ok s') :
    (s.received e = none ∧ s'.cache .l2 = s.cache .l2) ∨ ∃ port msg rands a,
      s.received e = some (port, msg, rands) ∧
      (cfg.cache .l2).recvMsg port msg (activation s .l2 rands) = .ok a ∧
      s'.cache .l2 = a.cache := by
  obtain ⟨rfl, rfl⟩ | ⟨level, port, msg, rands, flight, a, ha, rfl, hevent⟩ := step_eq_ok h
  · exact .inl ⟨rfl, rfl⟩
  · rcases hevent with ⟨rfl, rfl, rfl, -, rfl⟩ | ⟨rfl, rfl, rfl, -, rfl⟩ |
      ⟨k, t, rfl, hk, rfl, rfl, rfl, rfl⟩
    · exact .inl ⟨rfl, rfl⟩
    · exact .inr ⟨_, _, _, a, rfl, ha, rfl⟩
    · have hreceived : s.received (.deliver k rands) =
          if t.dest = .l2 then some (.localConnection, t.msg, rands) else none := by
        rw [Hierarchy.received, hk, Option.bind_some]
      rw [hreceived]
      rcases hdest : t.dest with _ | _
      · exact .inl ⟨rfl, rfl⟩
      · rw [hdest] at ha
        exact .inr ⟨_, _, _, a, rfl, ha, rfl⟩

variable (cfg) in
/-- The reads that wait for the top cache are stored under their tag, and each has been noted. -/
structure Noted (c : BIPMOESICache) (found : AddrTag → List Bool) : Prop where
  wellFormed : (cfg.cache .l2).WellFormed c
  tag : ∀ tag, ∀ m ∈ c.waitingOnRemoteReads tag, cfg.tagOf m.addr = tag
  length : ∀ tag, (found tag).length = (c.waitingOnRemoteReads tag).length

variable {t : Reporting}

lemma answers_eq (hrecv : s.received e = some (port, msg, rands))
    (ha : (cfg.cache .l2).recvMsg port msg (activation s .l2 rands) = .ok a) :
    cfg.answers s e = a.sent.filterMap Sent.readAnswer := by
  rw [answers, hrecv]
  dsimp only
  rw [ha]

/-- A message that has nothing to do with the remote reads. -/
lemma noted_other (ht : cfg.Noted (t.hierarchy.cache .l2) t.found)
    (hrecv : t.hierarchy.received e = some (port, msg, rands))
    (ha : (cfg.cache .l2).recvMsg port msg (activation t.hierarchy .l2 rands) = .ok a)
    (hside : CacheConfig.side port msg ≠ some .reads) :
    cfg.Noted a.cache (cfg.noteFound t e) ∧ cfg.answered t e = [] ∧ cfg.MeetsModified t e := by
  have hwaiting : a.cache.waitingOnRemoteReads =
      (t.hierarchy.cache .l2).waitingOnRemoteReads :=
    congrArg Prod.fst (CacheConfig.readTraffic_recvMsg hside a ha)
  have hwf := (moves_of_recvMsg ht.wellFormed ha).1
  have hsame : cfg.noteFound t e = t.found ∧ cfg.answered t e = [] ∧ cfg.MeetsModified t e := by
    rw [noteFound, answered, MeetsModified, hrecv]
    cases port <;> cases msg <;> first
      | exact ⟨rfl, rfl, trivial⟩
      | exact absurd rfl hside
  refine ⟨⟨hwf, ?_, ?_⟩, hsame.2⟩
  · rw [hwaiting]
    exact ht.tag
  · rw [hwaiting, hsame.1]
    exact ht.length

/-- A remote read that is answered at once or waits for the top cache. -/
lemma noted_read {m : ReadMsg} (ht : cfg.Noted (t.hierarchy.cache .l2) t.found)
    (hrecv : t.hierarchy.received e = some (.remoteConnection, .read m, rands))
    (ha : (cfg.cache .l2).recvMsg .remoteConnection (.read m)
      (activation t.hierarchy .l2 rands) = .ok a) :
    cfg.Noted a.cache (cfg.noteFound t e) ∧
      ((∀ x ∈ List.zipWith (fun x r => Served.mk x.1 x.2 r) (cfg.answered t e)
        (cfg.answers t.hierarchy e), x.Reports) ↔ cfg.MeetsModified t e) := by
  have hwf := (moves_of_recvMsg ht.wellFormed ha).1
  have hanswers := answers_eq hrecv ha
  have hanswered : cfg.answered t e = [(m, cfg.isDirty t.hierarchy (cfg.tagOf m.addr))] := by
    rw [answered, hrecv]
  have hfound : cfg.noteFound t e = if cfg.answers t.hierarchy e = [] then
      Function.update t.found (cfg.tagOf m.addr)
        (t.found (cfg.tagOf m.addr) ++ [cfg.isDirty t.hierarchy (cfg.tagOf m.addr)])
      else t.found := by
    rw [noteFound, hrecv]
  rw [hanswered, MeetsModified, hrecv, hfound, hanswers]
  dsimp only
  generalize hdirty : cfg.isDirty t.hierarchy (cfg.tagOf m.addr) = dirty
  rcases CacheConfig.onRemoteRead_cases ht.wellFormed ha with
    ⟨res, hres, hstate⟩ | ⟨hsent, hwaiting, hstate⟩
  · have hsent : a.sent.filterMap Sent.readAnswer = [res] := hres.sent
    have hone := hres.reports_iff dirty
    rw [hsent, if_neg (List.cons_ne_nil _ _)]
    refine ⟨⟨hwf, ?_, ?_⟩, ?_⟩
    · rw [hres.waiting]
      exact ht.tag
    · rw [hres.waiting]
      exact ht.length
    · rw [List.zipWith_cons_cons, List.zipWith_nil_left, List.forall_mem_singleton, hone]
      constructor
      · rintro hcases hshared hheld
        have hstate : (cfg.cache .l2).stateOf (t.hierarchy.cache .l2) (cfg.tagOf m.addr) ≠ .invalid ∧
            (cfg.cache .l2).stateOf (t.hierarchy.cache .l2) (cfg.tagOf m.addr) ≠ .modified := by
          rcases hheld with hheld | hheld
          all_goals
            rw [hheld]
            decide
        rcases hcases with hinvalid | hexclusive | hmodified
        · exact absurd hinvalid hstate.1
        · rw [hshared] at hexclusive
          cases hexclusive
        · exact Bool.eq_false_iff.2 fun h => hstate.2 (hmodified h)
      · intro hclean
        rcases hexclusive : m.requestingExclusive with _ | _
        · obtain ⟨hmodified, hne⟩ := hstate cfg.lower hexclusive
          rcases BIPMOESIState.eq_of_ne hmodified hne with hinvalid | hheld
          · exact .inl hinvalid
          · refine .inr (.inr fun hfound => ?_)
            rw [hclean hexclusive hheld] at hfound
            cases hfound
        · exact .inr (.inl rfl)
  · have hsent : a.sent.filterMap Sent.readAnswer = [] := hsent
    have hwaiting : a.cache.waitingOnRemoteReads =
        Function.update (t.hierarchy.cache .l2).waitingOnRemoteReads (cfg.tagOf m.addr)
          ((t.hierarchy.cache .l2).waitingOnRemoteReads (cfg.tagOf m.addr) ++ [m]) := hwaiting
    rw [hsent, if_pos rfl]
    refine ⟨⟨hwf, ?_, ?_⟩, ?_⟩
    · intro tag m' hm'
      rw [hwaiting] at hm'
      by_cases htag : tag = cfg.tagOf m.addr
      · subst htag
        rw [Function.update_self] at hm'
        rcases List.mem_append.1 hm' with hold | hnew
        · exact ht.tag _ m' hold
        · rw [List.mem_singleton.1 hnew]
      · rw [Function.update_of_ne htag] at hm'
        exact ht.tag tag m' hm'
    · intro tag
      rw [hwaiting]
      by_cases htag : tag = cfg.tagOf m.addr
      · subst htag
        rw [Function.update_self, Function.update_self, List.length_append, List.length_append,
          ht.length]
        rfl
      · rw [Function.update_of_ne htag, Function.update_of_ne htag, ht.length]
    · rw [List.zipWith_nil_right]
      refine iff_of_true (List.forall_mem_nil _) fun hshared hheld => ?_
      obtain ⟨hne, hne'⟩ := hstate hshared
      exact (hheld.elim hne hne').elim

/-- The top cache has answered. -/
lemma noted_readResponse {m : ReadResponseMsg} (ht : cfg.Noted (t.hierarchy.cache .l2) t.found)
    (hrecv : t.hierarchy.received e = some (.localConnection, .readResponse m, rands))
    (ha : (cfg.cache .l2).recvMsg .localConnection (.readResponse m)
      (activation t.hierarchy .l2 rands) = .ok a) :
    cfg.Noted a.cache (cfg.noteFound t e) ∧
      ((∀ x ∈ List.zipWith (fun x r => Served.mk x.1 x.2 r) (cfg.answered t e)
        (cfg.answers t.hierarchy e), x.Reports) ↔ cfg.MeetsModified t e) := by
  have hanswers := answers_eq hrecv ha
  have hanswered : cfg.answered t e =
      ((t.hierarchy.cache .l2).waitingOnRemoteReads (cfg.tagOf m.addr)).zip
        (t.found (cfg.tagOf m.addr)) := by
    rw [answered, hrecv]
  have hfound : cfg.noteFound t e = Function.update t.found (cfg.tagOf m.addr) [] := by
    rw [noteFound, hrecv]
  rw [MeetsModified, hrecv, hanswered, hfound, hanswers]
  dsimp only
  have hstart : (cfg.cache .l2).WellFormed ((activation t.hierarchy .l2 rands).setWaitingOnRemoteReads
      (cfg.tagOf m.addr) []).cache := ht.wellFormed.tables rfl rfl
  obtain ⟨rs, hsent, hwaiting, hwf, hreports⟩ := CacheConfig.performRemoteReads_reports hstart
    (ht.tag (cfg.tagOf m.addr)) (ht.length (cfg.tagOf m.addr)) ha
  have hsent : a.sent.filterMap Sent.readAnswer = rs := hsent
  have hwaiting : a.cache.waitingOnRemoteReads = Function.update
    (t.hierarchy.cache .l2).waitingOnRemoteReads (cfg.tagOf m.addr) [] := hwaiting
  rw [hsent]
  refine ⟨⟨hwf, ?_, ?_⟩, hreports⟩
  · intro tag m' hm'
    rw [hwaiting] at hm'
    by_cases htag : tag = cfg.tagOf m.addr
    · rw [htag, Function.update_self] at hm'
      cases hm'
    · rw [Function.update_of_ne htag] at hm'
      exact ht.tag tag m' hm'
  · intro tag
    rw [hwaiting]
    by_cases htag : tag = cfg.tagOf m.addr
    · rw [htag, Function.update_self, Function.update_self]
      rfl
    · rw [Function.update_of_ne htag, Function.update_of_ne htag, ht.length]

/-- One step: what is noted stays in order, and the step reports dirty data exactly when it
meets the condition. -/
lemma reportsDirty_step {t t' : Reporting}
    (ht : cfg.Noted (t.hierarchy.cache .l2) t.found) (h : cfg.reporting.step t e = .ok t') :
    cfg.Noted (t'.hierarchy.cache .l2) t'.found ∧
      (ReportsDirty t' ↔ ReportsDirty t ∧ cfg.MeetsModified t e) := by
  obtain ⟨s', hs', hret⟩ := bind_eq_ok.1 h
  cases hret
  have hserved : ∀ l : List Served, (∀ x ∈ t.served ++ l, x.Reports) ↔
      ReportsDirty t ∧ ∀ x ∈ l, x.Reports := fun l => List.forall_mem_append
  rw [ReportsDirty, hserved]
  obtain ⟨hrecv, hcache⟩ | ⟨port, msg, rands, a, hrecv, ha, hcache⟩ := step_lower hs'
  · have hnone : cfg.noteFound t e = t.found ∧ cfg.answered t e = [] ∧ cfg.MeetsModified t e := by
      rw [noteFound, answered, MeetsModified, hrecv]
      exact ⟨rfl, rfl, trivial⟩
    obtain ⟨hfound, hanswered, hmeets⟩ := hnone
    rw [hfound, hanswered]
    dsimp only
    rw [hcache]
    exact ⟨ht, and_congr_right' (iff_of_true (List.forall_mem_nil _) hmeets)⟩
  · dsimp only
    rw [hcache]
    by_cases hside : CacheConfig.side port msg = some .reads
    · cases port <;> cases msg <;> cases hside
      · obtain ⟨hnoted, hiff⟩ := noted_readResponse ht hrecv ha
        exact ⟨hnoted, and_congr_right' hiff⟩
      · obtain ⟨hnoted, hiff⟩ := noted_read ht hrecv ha
        exact ⟨hnoted, and_congr_right' hiff⟩
    · obtain ⟨hnoted, hanswered, hmeets⟩ := noted_other ht hrecv ha hside
      rw [hanswered]
      exact ⟨hnoted, and_congr_right' (iff_of_true (List.forall_mem_nil _) hmeets)⟩

lemma noted_new : cfg.Noted BIPMOESICache.new fun _ => [] where
  wellFormed := .new
  tag _ _ h := nomatch h
  length _ := rfl

/-- All shared reads of dirty lines in a run are told that the line is dirty if and only if each
of them is answered at once only for a clean line, or meets a modified block after the answer of
the top cache. -/
theorem reportsDirty_iff (cfg : HierarchyConfig) (es : List HierarchyEvent) (t : Reporting)
    (h : cfg.reporting.Run es t) :
    ReportsDirty t ↔ cfg.reporting.RunWhere cfg.MeetsModified es t := by
  refine h.iff_runWhere (fun x hx => nomatch hx) fun es s e s' hs hstep => ?_
  have hnoted : cfg.Noted (s.hierarchy.cache .l2) s.found :=
    Machine.Reachable.invariant (I := fun s => cfg.Noted (s.hierarchy.cache .l2) s.found) ⟨es, hs⟩
      noted_new fun s e s' hs hstep => (reportsDirty_step hs hstep).1
  exact (reportsDirty_step hnoted hstep).2

end HierarchyConfig

/-! ## A line that the processor has written -/

def processorWrite (addr : Address) : HierarchyEvent :=
  .processor (.write { msgID := 0, addr := addr }) []

def remoteRead (addr : Address) : HierarchyEvent :=
  .remote
    (.read
      { msgID := 0, addr := addr, requestingExclusive := false, alreadyHasBlock := false
        directoryLookup := false }) []

/-- The processor writes line 0, which both caches hold exclusively; the top cache answers the
shared read that follows, and then the lower one, whose block is still exclusive. -/
def writtenRun : List HierarchyEvent :=
  fillRun ++ [processorWrite 0, remoteRead 0, .processTick, .processTick, .deliver 0 [],
    .processTick, .processTick, .deliver 0 []]

theorem not_reportsDirty_of_written : ∃ t,
    (HierarchyConfig.oneBlock 1).reporting.Run writtenRun t ∧ ¬ReportsDirty t := by
  have hrun : succeeds ((HierarchyConfig.oneBlock 1).reporting.exec
      (HierarchyConfig.oneBlock 1).reporting.init writtenRun) (fun t =>
      decide (∃ x ∈ t.served, ¬x.Reports)) = true := by
    decide +kernel
  obtain ⟨t, ht, htest⟩ := succeeds_iff.1 hrun
  obtain ⟨x, hx, hnot⟩ := of_decide_eq_true htest
  exact ⟨t, Machine.run_of_exec ht, fun h => hnot (h x hx)⟩

/-- A lower cache with two blocks under a top cache with one. -/
def HierarchyConfig.twoBlocks : HierarchyConfig where
  cache
    | .l1 => .directMapped 1 true
    | .l2 => .directMapped 2 false
  latency := 1
  top := rfl
  lower := rfl
  lineSize := rfl

/-- The top cache evicts line 0, which the processor has written, before the shared read. -/
def evictedReadRun : List HierarchyEvent :=
  fillRun ++ [processorWrite 0, processorRead 64, .processTick, .processTick, .deliver 0 [],
    .deliver 0 [], remoteRead 0, .processTick, .processTick, .deliver 0 [], .deliver 0 [],
    .processTick, .processTick, .deliver 0 []]

/-- The lower cache has the dirty data when it answers. -/
theorem reportsDirty_iff_evicted : ∃ t,
    HierarchyConfig.twoBlocks.reporting.RunWhere HierarchyConfig.twoBlocks.MeetsModified
      evictedReadRun t ∧ ∃ x ∈ t.served, x.read.requestingExclusive = false ∧
        x.response.satisfied = true ∧ x.foundDirty = true := by
  have hrun : succeeds (HierarchyConfig.twoBlocks.reporting.exec
      HierarchyConfig.twoBlocks.reporting.init evictedReadRun) (fun t =>
      decide ((∀ x ∈ t.served, x.Reports) ∧ ∃ x ∈ t.served, x.read.requestingExclusive = false ∧
        x.response.satisfied = true ∧ x.foundDirty = true)) = true := by
    decide +kernel
  obtain ⟨t, ht, htest⟩ := succeeds_iff.1 hrun
  obtain ⟨hreports, hdirty⟩ := of_decide_eq_true htest
  have hiff := HierarchyConfig.reportsDirty_iff .twoBlocks evictedReadRun t
    (Machine.run_of_exec ht)
  exact ⟨t, hiff.1 hreports, hdirty⟩

end Sesc.Cache
