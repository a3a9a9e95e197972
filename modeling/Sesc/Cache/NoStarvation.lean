import Sesc.Cache.Invalidations
import Sesc.Cache.Queues

/-!
# No request starves

One cache runs in an arbitrary environment, with a ledger of the local requests it has accepted
and answered.  Requests wait for a block only while it is locked, and for a set only while all
its blocks are; every accepted request is answered or waits in one queue.
-/

namespace Sesc.Cache

open Lib

namespace CacheConfig

variable {cfg : CacheConfig} {a b : Activation} {tag : AddrTag} {j : ℕ}

/-! ## The other handlers -/

/-- A block keeps its place and its lock. -/
lemma Queues.restate {c c' : BIPMOESICache} (hq : cfg.Queues none none c) (hc' : cfg.WellFormed c')
    (hj : cfg.lookup c tag = some j) {x : BlockState}
    (hx : x.valid = (c.cacheContents j).valid ∧ x.tag = (c.cacheContents j).tag ∧
      x.locked = (c.cacheContents j).locked)
    (hinvalid : x.state = .invalid → x.locked = true)
    (hcontents : c'.cacheContents = Function.update c.cacheContents j x)
    (hblock : c'.waitingOnBlockUnlock = c.waitingOnBlockUnlock)
    (hset : c'.waitingOnSetUnlock = c.waitingOnSetUnlock) : cfg.Queues none none c' := by
  have hold := isBlockOf_of_lookup hj
  refine hq.replace hc' (.inl rfl) (fun _ _ h => h) hj
    ⟨hx.1.trans hold.2.1, hx.2.1.trans hold.2.2⟩ hcontents (l := c.waitingOnBlockUnlock tag) ?_ hset
    ?_ hinvalid ?_ (hq.filedBlock tag)
  · rw [hblock, Function.update_eq_self]
  · rw [hx.2.2]
    exact hq.locked tag _ (block_of_lookup hj)
  · intro hne hlocked
    rw [hx.2.2]
    exact hlocked hne

/-- The states of a block that becomes dirty. -/
lemma dirtied_eq_invalid {x : BIPMOESIState} (h : x.dirtied = .invalid) : x = .invalid := by
  cases x <;> first | rfl | cases h

/-- A block becomes dirty. -/
lemma Queues.dirty (hq : cfg.Queues none none a.cache) (hj : cfg.lookup a.cache tag = some j) :
    cfg.Queues none none (a.modifyBlock j fun b => b.mapState BIPMOESIState.dirtied).cache := by
  have hwf := (hq.wellFormed.block_modify hj (f := fun b => b.mapState BIPMOESIState.dirtied)
    ⟨rfl, rfl⟩).1
  refine hq.restate hwf hj (x := (a.cache.cacheContents j).mapState BIPMOESIState.dirtied)
    ⟨rfl, rfl, rfl⟩ (fun hdirtied => ?_) rfl rfl rfl
  have hinvalid : (a.cache.cacheContents j).state = .invalid := dirtied_eq_invalid hdirtied
  have hlocked := hq.invalid tag _ (block_of_lookup hj) hinvalid (Option.some_ne_none _)
  exact hlocked

lemma queues_performRemoteRead {m : ReadMsg} (hq : cfg.Queues none none a.cache)
    (h : cfg.performRemoteRead m a = .ok b) : cfg.Queues none none b.cache := by
  have hmoves : cfg.Moves .all a (cfg.performRemoteRead m a) :=
    moves_performRemoteRead trivial fun _ _ _ => trivial
  have hwf := (hmoves b h hq.wellFormed).1
  obtain ⟨res, c, hanswers, -, -, -, rfl⟩ := performRemoteRead_eq_ok h
  cases hanswers with
  | refuse => exact hq.tables hwf rfl rfl rfl
  | yield j f hj hstate hexclusive hsatisfied hres hf =>
    rcases hf with ⟨rfl, hwaiters⟩ | ⟨rfl, hwaiters⟩
    · refine hq.restate hwf hj (x := { a.cache.cacheContents j with state := .invalid })
        ⟨rfl, rfl, rfl⟩ (fun _ => ?_) rfl rfl rfl
      exact (hq.locked _ _ (block_of_lookup hj)).2 hwaiters
    · exact hq.erase hwf hj hwaiters rfl rfl rfl
  | share j f hj hstate hshared hsatisfied hres hf =>
    refine hq.restate hwf hj (x := (a.cache.cacheContents j).mapState f) ⟨rfl, rfl, rfl⟩
      (fun hinvalid => ?_) rfl rfl rfl
    exact absurd hinvalid (hf _ hstate).1

lemma queues_performRemoteReads {l : List ReadMsg} (hq : cfg.Queues none none a.cache)
    (h : cfg.performRemoteReads l a = .ok b) : cfg.Queues none none b.cache := by
  induction l generalizing a with
  | nil =>
    cases h
    exact hq
  | cons m rest ih =>
    rw [performRemoteReads] at h
    obtain ⟨c, hc, h⟩ := bind_eq_ok.1 h
    exact ih (queues_performRemoteRead hq hc) h

lemma queues_onLocalReadResponse {m : ReadResponseMsg} (hq : cfg.Queues none none a.cache)
    (h : cfg.onLocalReadResponse m a = .ok b) : cfg.Queues none none b.cache := by
  have htaken : cfg.Queues none none
      (a.setWaitingOnRemoteReads (cfg.calcTag m.addr) []).cache :=
    hq.tables (hq.wellFormed.tables rfl rfl) rfl rfl rfl
  exact queues_performRemoteReads htaken h

lemma queues_onRemoteRead {m : ReadMsg} (hq : cfg.Queues none none a.cache)
    (h : cfg.onRemoteRead m a = .ok b) : cfg.Queues none none b.cache := by
  rw [onRemoteRead] at h
  dsimp only at h
  split at h
  · exact queues_performRemoteRead hq h
  · split at h
    · exact queues_performRemoteRead hq h
    · cases h
      exact hq.tables (hq.wellFormed.tables rfl rfl) rfl rfl rfl

lemma queues_respondInvalidate (hq : cfg.Queues none none a.cache)
    (h : cfg.respondInvalidate tag a = .ok b) : cfg.Queues none none b.cache := by
  have hmoves : cfg.Moves .all a (cfg.respondInvalidate tag a) :=
    moves_respondInvalidate (fun _ => trivial) fun _ _ => trivial
  have hwf := (hmoves b h hq.wellFormed).1
  obtain ⟨hblock, hrest⟩ := Prod.mk.inj (Prod.mk.inj (keeps_respondInvalidate b h)).1
  obtain ⟨hset, -⟩ := Prod.mk.inj hrest
  obtain ⟨p, res, c, -, -, hinvalidates, rfl⟩ := respondInvalidate_eq_ok h
  cases hinvalidates with
  | refetch j m hj hwaiters hdirty hm =>
    refine hq.restate hwf hj (x := { a.cache.cacheContents j with state := .invalid })
      ⟨rfl, rfl, rfl⟩ (fun _ => ?_) rfl hblock hset
    exact (hq.locked _ _ (block_of_lookup hj)).2 hwaiters
  | erase j hj hwaiters hdirty => exact hq.erase hwf hj hwaiters rfl hblock hset
  | absent c hnone hwaiters hdirty hcontents hpending hsent =>
    exact hq.tables hwf hcontents hblock hset

lemma queues_onRemoteInvalidate {m : InvalidateMsg} (hq : cfg.Queues none none a.cache)
    (h : cfg.onRemoteInvalidate m a = .ok b) : cfg.Queues none none b.cache := by
  have hset : cfg.Queues none none
      (a.setPendingInvalidate (cfg.calcTag m.addr) (some m)).cache :=
    hq.tables (hq.wellFormed.tables rfl rfl) rfl rfl rfl
  rw [onRemoteInvalidate] at h
  dsimp only at h
  split at h
  · cases h
    exact hq
  · split at h
    · exact queues_respondInvalidate hset h
    · split at h
      · cases h
        exact hset
      · exact queues_respondInvalidate hset h

lemma queues_onLocalEviction {m : EvictionMsg} (hq : cfg.Queues none none a.cache)
    (h : cfg.onLocalEviction m a = .ok b) : cfg.Queues none none b.cache := by
  rw [onLocalEviction] at h
  cases h
  dsimp only [Activation.sendMsg, Activation.stamped]
  split
  · rename_i j hj
    split
    · exact hq.dirty hj
    · exact hq
  · exact hq

lemma queues_onLocalInvalidateResponse {m : InvalidateResponseMsg}
    (hq : cfg.Queues none none a.cache) (h : cfg.onLocalInvalidateResponse m a = .ok b) :
    cfg.Queues none none b.cache := by
  have hmoves : cfg.Moves .all a (cfg.onLocalInvalidateResponse m a) :=
    moves_onLocalInvalidateResponse (fun _ _ => trivial) fun _ _ => trivial
  have hwf := (hmoves b h hq.wellFormed).1
  rw [onLocalInvalidateResponse] at h
  obtain ⟨-, h⟩ := check_bind_eq_ok.1 h
  split at h
  · obtain ⟨-, h⟩ := check_bind_eq_ok.1 h
    obtain ⟨-, h⟩ := check_bind_eq_ok.1 h
    cases h
    exact hq.tables hwf rfl rfl rfl
  · dsimp only at h
    generalize hc : (ite (m.blockAttached = true) _ a : Activation) = c at h
    have hqc : cfg.Queues none none c.cache := by
      rw [← hc]
      split
      · split
        · rename_i x hx
          exact hq.tables (hq.wellFormed.soil hx) rfl rfl rfl
        · split
          · rename_i j hp hj
            exact hq.dirty hj
          · exact hq
      · exact hq
    -- sending a pending eviction changes no queue
    split at h
    · obtain ⟨d, hd, h⟩ := bind_eq_ok.1 h
      have hqd := queues_respondInvalidate hqc hd
      split at h
      · cases h
        exact hqd.tables hwf rfl rfl rfl
      · cases h
        exact hqd
    · rw [pure_bind] at h
      split at h
      · cases h
        exact hqc.tables hwf rfl rfl rfl
      · cases h
        exact hqc

/-- The local request that a message is. -/
def request : Port → Msg → List Request
  | .localConnection, .read m => [.read m.msgID m.addr]
  | .localConnection, .write m => [.write m.msgID m.addr]
  | _, _ => []

/-- Every handler keeps the queues in order and serves the request that its message is. -/
theorem serves_recvMsg (port : Port) (msg : Msg) :
    cfg.Serves none none (request port msg) a (cfg.recvMsg port msg a) := by
  by_cases hside : side port msg = some .requests
  · cases port <;> cases msg <;> first
      | exact serves_onLocalRead _
      | exact serves_onLocalWrite _
      | exact serves_onRemoteReadResponse _
      | cases hside
  · intro hq b hb
    have hnone : request port msg = [] := by
      cases port <;> cases msg <;> first
        | rfl
        | exact absurd rfl hside
    refine ⟨?_, fun r => ?_⟩
    · cases port <;> cases msg <;> first
        | (cases hb; done)
        | (cases hb; exact hq)
        | exact queues_onLocalEviction hq hb
        | exact queues_onLocalReadResponse hq hb
        | exact queues_onLocalInvalidateResponse hq hb
        | exact queues_onRemoteRead hq hb
        | exact queues_onRemoteInvalidate hq hb
        | exact absurd rfl hside
    · rw [hnone, List.count_nil, Nat.add_zero]
      exact load_congr (localTraffic_recvMsg hside b hb)

end CacheConfig

/-! ## The ledger of the requests -/

/-- A cache, the local requests it has accepted and those it has answered. -/
structure Requests where
  device : Device
  accepted : List Request
  answered : List Request

namespace CacheConfig

variable (cfg : CacheConfig)

def requestsStep (s : Requests) : DeviceEvent → Except Fault Requests
  | .recvMsg port msg rands => do
    let a ← cfg.recvMsg port msg (s.device.activation rands)
    return {
      device := { s.device with cache := a.cache, currentMsgStamp := a.currentMsgStamp }
      accepted := s.accepted ++ request port msg
      answered := s.answered ++ (a.sent.filterMap Sent.localAnswer).map LocalAnswer.request }
  | .processTick =>
    .ok { s with device := { s.device with currentTick := s.device.currentTick + 1 } }

/-- The machine of a cache whose local requests are entered in a ledger. -/
def requests : Machine Requests DeviceEvent Fault where
  init := ⟨.new, [], []⟩
  step := cfg.requestsStep

/-- Requests wait for a set only while every way of it holds a valid locked block, and for a
block only while it is locked; a request waits in the queue of its own tag or set, and as often
as it has been accepted it has been answered or waits in one of the queues. -/
structure NoneStarves (s : Requests) : Prop where
  set : ∀ i, s.device.cache.waitingOnSetUnlock i ≠ [] → ∀ j ∈ cfg.set i,
    (s.device.cache.cacheContents j).valid = true ∧ (s.device.cache.cacheContents j).locked = true
  block : ∀ tag, s.device.cache.waitingOnBlockUnlock tag ≠ [] →
    ∃ x, cfg.block s.device.cache tag = some x ∧ x.locked = true
  filedBlock : ∀ tag, ∀ w ∈ s.device.cache.waitingOnBlockUnlock tag, cfg.tagOf w.request = tag
  filedSet : ∀ i, ∀ w ∈ s.device.cache.waitingOnSetUnlock i, cfg.setOf w.request = i
  once : ∀ r, s.accepted.count r = s.answered.count r +
    ((s.device.cache.waitingOnBlockUnlock (cfg.tagOf r)).map BlockWaiter.request).count r +
    ((s.device.cache.waitingOnSetUnlock (cfg.setOf r)).map SetWaiter.request).count r

/-- What holds in every reachable state. -/
structure RequestsInv (s : Requests) : Prop where
  queues : cfg.Queues none none s.device.cache
  once : ∀ r, s.accepted.count r = s.answered.count r +
    ((s.device.cache.waitingOnBlockUnlock (cfg.tagOf r)).map BlockWaiter.request).count r +
    ((s.device.cache.waitingOnSetUnlock (cfg.setOf r)).map SetWaiter.request).count r

variable {cfg} {s s' : Requests} {e : DeviceEvent}

/-- One step. -/
lemma RequestsInv.step (hs : cfg.RequestsInv s) (h : cfg.requests.step s e = .ok s') :
    cfg.RequestsInv s' := by
  cases e with
  | processTick =>
    cases h
    exact ⟨hs.queues, hs.once⟩
  | recvMsg port msg rands =>
    obtain ⟨a, ha, hret⟩ := bind_eq_ok.1 h
    cases hret
    obtain ⟨hqueues, hload⟩ := serves_recvMsg port msg hs.queues a ha
    refine ⟨hqueues, fun r => ?_⟩
    have hr := hload r
    -- nothing had been sent when the handler began
    rw [load, load, show (s.device.activation rands).sent = [] from rfl,
      show (s.device.activation rands).cache = s.device.cache from rfl, List.filterMap_nil,
      List.map_nil, List.count_nil] at hr
    have hold := hs.once r
    dsimp only
    rw [List.count_append, List.count_append]
    omega

/-- No request starves in a queue of a cache. -/
theorem noneStarves_of_reachable (cfg : CacheConfig) (s : Requests) (h : cfg.requests.Reachable s) :
    cfg.NoneStarves s := by
  have hs : cfg.RequestsInv s :=
    h.invariant ⟨.new, fun r => rfl⟩ fun s e s' hs hstep => hs.step hstep
  refine ⟨fun i hi j hj => ?_, fun tag htag => ?_, hs.queues.filedBlock, hs.queues.filedSet, hs.once⟩
  · obtain ⟨hvalid, hlocked⟩ := hs.queues.full i hi j hj
    exact ⟨hvalid, hlocked (Option.some_ne_none j)⟩
  · obtain ⟨x, hx⟩ := Option.ne_none_iff_exists'.1 (hs.queues.held tag htag)
    exact ⟨x, hx, (hs.queues.locked tag x hx).2 htag⟩

end CacheConfig

/-- Line 0 is read, and then line 1, which has to wait for the only block. -/
def waitingRun : List DeviceEvent :=
  [.recvMsg .localConnection (.read
      { msgID := 1, addr := 0, requestingExclusive := false, alreadyHasBlock := false
        directoryLookup := false }) [],
    .recvMsg .localConnection (.write { msgID := 3, addr := 64 }) []]

theorem noneStarves_waiting : ∃ s, (CacheConfig.requests .oneBlock).Reachable s ∧
    s.device.cache.waitingOnBlockUnlock 0 ≠ [] ∧ s.device.cache.waitingOnSetUnlock 0 ≠ [] ∧
    CacheConfig.NoneStarves .oneBlock s := by
  have hrun : succeeds ((CacheConfig.requests .oneBlock).exec (CacheConfig.requests .oneBlock).init
      waitingRun) (fun s => decide (s.device.cache.waitingOnBlockUnlock 0 ≠ [] ∧
        s.device.cache.waitingOnSetUnlock 0 ≠ [])) = true := by
    decide +kernel
  obtain ⟨s, hs, htest⟩ := succeeds_iff.1 hrun
  obtain ⟨hblock, hset⟩ := of_decide_eq_true htest
  exact ⟨s, ⟨_, Machine.run_of_exec hs⟩, hblock, hset,
    CacheConfig.noneStarves_of_reachable .oneBlock s ⟨_, Machine.run_of_exec hs⟩⟩

end Sesc.Cache
