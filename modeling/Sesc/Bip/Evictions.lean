import Sesc.Bip.System

/-!
# The dirty evictions of a system

A dirty eviction that is not dropped by the directory of its node is on its way to the home of
the line, or the home has written the block to its memory when the eviction arrived.
-/

namespace Sesc.Bip

open Lib

variable {cfg : Config} {s s' : System} {n home : NodeID} {m : EvictionMsg} {a a' : Activation}
  {self : Device} {i : ℕ}

/-- A handler sends a write of a line to the memory of its node. -/
def Writes (home : NodeID) (addr : Address) (sent : List Packet) : Prop :=
  ∃ w : WriteMsg, w.addr = addr ∧ .toMemory home (.write w) ∈ sent

/-- The write that an eviction has caused, at the delivery `i` or later. -/
def WrittenFrom (s : System) (i : ℕ) (home n : NodeID) (m : EvictionMsg) : Prop :=
  ∃ j d, i ≤ j ∧ s.history[j]? = some d ∧ Writes home m.addr d.sent ∧
    (d.packet = .fromLocalCache n (.eviction m) ∨ d.packet = .network home n (.eviction m))

/-- When no message for a line is in flight, the block of every dirty eviction of the line that a
directory has received has been written to the memory of the home. -/
def EvictionsWritten (cfg : Config) (s : System) : Prop :=
  ∀ i n m sent, s.history[i]? = some ⟨.fromLocalCache n (.eviction m), sent⟩ →
    m.blockAttached = true → (∀ p ∈ s.flight, p.msg.getAddress ≠ m.addr) →
    WrittenFrom s i (cfg.directoryNodeCalc m.addr) n m

/-- No dirty eviction is delivered to a directory where an eviction of the line is pending. -/
def EvictsSettled (s : System) (e : Event) : Prop :=
  ∀ k order reply n m, e = .deliver k order reply →
    s.flight[k]? = some (.fromLocalCache n (.eviction m)) → m.blockAttached = true →
    (s.nodes n).pendingEviction m.addr = false

/-! ## The handlers of evictions -/

lemma writes_writeBlock {addr : Address} (h : self.writeBlock true addr a = .ok a') :
    Writes self.nodeID addr a'.sent := by
  obtain ⟨-, h⟩ := check_bind_eq_ok.1 h
  cases h
  exact ⟨_, rfl, List.mem_append_right _ (List.mem_singleton_self _)⟩

/-- The home writes the block of a dirty eviction. -/
lemma writes_onRemoteEviction {src : NodeID} (hblock : m.blockAttached = true)
    (h : self.onRemoteEviction m src a = .ok a') : Writes self.nodeID m.addr a'.sent := by
  rw [Device.onRemoteEviction] at h
  split at h
  · cases h
  · obtain ⟨b, -, h⟩ := bind_eq_ok.1 h
    rw [hblock] at h
    exact writes_writeBlock h

/-- The directory of a node passes a dirty eviction on to the home, if none is pending. -/
lemma onLocalEviction_sends (hblock : m.blockAttached = true)
    (hsettled : a.dir.pendingEviction m.addr = false)
    (h : self.onLocalEviction m a = .ok a') :
    Writes (self.directoryNodeCalc m.addr) m.addr a'.sent ∨
      .network (self.directoryNodeCalc m.addr) self.nodeID (.eviction m) ∈ a'.sent := by
  rw [Device.onLocalEviction, if_neg (by rw [hsettled]; exact Bool.false_ne_true)] at h
  split at h
  · rename_i hhome
    rw [hhome]
    exact .inl (writes_onRemoteEviction hblock h)
  · cases h
    exact .inr (List.mem_append_right _ (List.mem_singleton_self _))

/-! ## Runs -/

/-- A dirty eviction is on its way to the home, or its block has been written. -/
def EvictionsKept (cfg : Config) (s : System) : Prop :=
  ∀ i n m sent, s.history[i]? = some ⟨.fromLocalCache n (.eviction m), sent⟩ →
    m.blockAttached = true →
    .network (cfg.directoryNodeCalc m.addr) n (.eviction m) ∈ s.flight ∨
      WrittenFrom s i (cfg.directoryNodeCalc m.addr) n m

lemma WrittenFrom.append {d : Delivery} (h : WrittenFrom s i home n m)
    (hs' : s'.history = s.history ++ [d]) : WrittenFrom s' i home n m := by
  obtain ⟨j, d', hij, hj, hwrites, hpacket⟩ := h
  refine ⟨j, d', hij, ?_, hwrites, hpacket⟩
  rw [hs', List.getElem?_append_left (List.getElem?_eq_some_iff.1 hj).1, hj]

/-- A local cache sends a message. -/
lemma EvictionsKept.localSend {msg : Msg} (hs : EvictionsKept cfg s) :
    EvictionsKept cfg (s.localSend n msg) := by
  intro i n' m sent hi hblock
  exact (hs i n' m sent hi hblock).imp (List.mem_append_left _) id

/-- A packet other than a dropped eviction is delivered. -/
lemma EvictionsKept.deliver {k : ℕ} {order : HashOrder} {reply : CacheReply} {p : Packet}
    (hs : EvictionsKept cfg s) (hp : s.flight[k]? = some p)
    (hsettled : ∀ n m, p = .fromLocalCache n (.eviction m) → m.blockAttached = true →
      (s.nodes n).pendingEviction m.addr = false)
    (h : cfg.recvMsg p reply (s.activation p.node order) = .ok a) :
    EvictionsKept cfg (s.commit k p a) := by
  have hhistory : (s.commit k p a).history = s.history ++ [⟨p, a.sent⟩] := rfl
  have hlast : (s.commit k p a).history[s.history.length]? = some ⟨p, a.sent⟩ := by
    rw [hhistory, List.getElem?_concat_length]
  intro i n m sent hi hblock
  rw [hhistory, List.getElem?_append] at hi
  split at hi
  · rename_i hlt
    rcases hs i n m sent hi hblock with hflight | hwritten
    · by_cases hpm : p = .network (cfg.directoryNodeCalc m.addr) n (.eviction m)
      · -- the eviction has arrived at the home
        subst hpm
        exact .inr ⟨_, _, Nat.le_of_lt hlt, hlast, writes_onRemoteEviction hblock h, .inr rfl⟩
      · refine .inl (List.mem_append_left _ ?_)
        rw [(flight_perm hp).mem_iff, List.mem_cons] at hflight
        exact hflight.resolve_left (Ne.symm hpm)
    · exact .inr (hwritten.append hhistory)
  · -- the eviction has just been delivered to the directory of its node
    rename_i hge
    obtain ⟨hlen, hd⟩ := List.getElem?_eq_some_iff.1 hi
    have hi0 : i = s.history.length := by
      rw [List.length_singleton] at hlen
      omega
    rw [List.getElem_singleton] at hd
    obtain ⟨rfl, rfl⟩ := Delivery.mk.inj hd
    rcases onLocalEviction_sends hblock (hsettled n m rfl hblock) h with hwrites | hnetwork
    · exact .inr ⟨_, _, (Nat.le_of_eq hi0), hlast, hwrites, .inl rfl⟩
    · exact .inl (List.mem_append_right _ hnetwork)

lemma EvictionsKept.step {e : Event} (hs : EvictionsKept cfg s) (he : EvictsSettled s e)
    (h : step cfg s e = .ok s') : EvictionsKept cfg s' := by
  obtain ⟨node, addr, requestingExclusive, alreadyHasBlock, -, rfl⟩ |
    ⟨node, addr, dirty, -, rfl⟩ | ⟨k, order, reply, p, a, rfl, hp, ha, rfl⟩ := step_eq_ok h
  · exact hs.localSend
  · exact hs.localSend
  · refine hs.deliver hp (fun n m hpm hblock => ?_) ha
    rw [hpm] at hp
    exact he k order reply n m rfl hp hblock

/-- While no dirty eviction is delivered to a directory where an eviction of the line is pending,
the block of every dirty eviction is written once all messages for the line are delivered. -/
theorem evictionsWritten_of_runWhere (cfg : Config) (es : List Event) (s : System)
    (h : (machine cfg).RunWhere EvictsSettled es s) : EvictionsWritten cfg s := by
  have hkept : EvictionsKept cfg s := by
    refine h.invariant (fun i n m sent hi => ?_) fun _ _ _ hs he hstep => hs.step he hstep
    cases hi
  intro i n m sent hi hblock hflight
  refine (hkept i n m sent hi hblock).resolve_left fun hmem => ?_
  exact hflight _ hmem rfl

/-! ### Two evictions of a line -/

/-- The delivery of a packet, to a cache that has the block. -/
def deliverAt (k : ℕ) : Event := .deliver k ⟨0, 0, 0⟩ ⟨true, true⟩

/-- Node 1 reads line 0 of node 0 and evicts it. -/
def evictedRun : List Event :=
  [.localRead 1 0 true false, deliverAt 0, deliverAt 0, deliverAt 0, deliverAt 0, deliverAt 0,
    deliverAt 0, .localEviction 1 0 true, deliverAt 0, deliverAt 1, deliverAt 0]

/-- Node 1 reads the line again and evicts it before the answer to its first eviction arrives. -/
def evictedTwiceRun : List Event :=
  evictedRun ++
  [.localRead 1 0 true false, deliverAt 1, deliverAt 2, deliverAt 1, deliverAt 1, deliverAt 1,
    deliverAt 1, deliverAt 1, deliverAt 1, .localEviction 1 0 true, deliverAt 1, deliverAt 0,
    deliverAt 0]

/-- A test for `EvictsSettled`. -/
def settledTest (s : System) : Event → Bool
  | .deliver k _ _ => (s.flight[k]?).all fun
    | .fromLocalCache n (.eviction m) => !m.blockAttached || !(s.nodes n).pendingEviction m.addr
    | _ => true
  | _ => true

lemma evictsSettled_of_settledTest {e : Event} (h : settledTest s e = true) :
    EvictsSettled s e := by
  rintro k order reply n m rfl hk hblock
  have htest := (Option.all_eq_true _ _).1 h _ hk
  dsimp only at htest
  rw [hblock, Bool.not_true, Bool.false_or, Bool.not_eq_true'] at htest
  exact htest

/-- The block of the first eviction has been written. -/
theorem evictionsWritten_evictedRun : ∃ s, (machine .three).Run evictedRun s ∧
    EvictionsWritten .three s := by
  have hrun : succeeds (((machine .three).guarded settledTest .noSuchEvent).exec
      ((machine .three).guarded settledTest .noSuchEvent).init evictedRun) (fun _ => true)
      = true := by
    decide +kernel
  obtain ⟨s, hs, -⟩ := succeeds_iff.1 hrun
  have hwhere := (Machine.run_of_exec hs).of_guarded.mono fun _ _ => evictsSettled_of_settledTest
  exact ⟨s, hwhere.run, evictionsWritten_of_runWhere .three evictedRun s hwhere⟩

/-- The second dirty eviction is dropped: when no packet is in flight, nothing has been written
since it was received, and the home still records node 1 as the owner. -/
theorem not_evictionsWritten_evictedTwiceRun : ∃ s, (machine .three).Run evictedTwiceRun s ∧
    s.flight = [] ∧ ((s.nodes 0).directoryData 0).map BlockData.owner = some 1 ∧
    ¬EvictionsWritten .three s := by
  have hrun : succeeds ((machine .three).exec (machine .three).init evictedTwiceRun) (fun s =>
      decide (s.flight = [] ∧ ((s.nodes 0).directoryData 0).map BlockData.owner = some 1 ∧
        s.history[17]? = some ⟨.fromLocalCache 1 (.eviction ⟨12, 0, true⟩), []⟩ ∧
        (s.history.drop 17).map Delivery.sent = [[], [.toLocalCache 1
          (.evictionResponse ⟨6, 0, 4⟩)], []])) = true := by
    decide +kernel
  obtain ⟨s, hs, htest⟩ := succeeds_iff.1 hrun
  obtain ⟨hflight, howner, hdropped, hsent⟩ := of_decide_eq_true htest
  refine ⟨s, Machine.run_of_exec hs, hflight, howner, fun h => ?_⟩
  obtain ⟨j, d, hj, hd, ⟨w, -, hw⟩, -⟩ := h 17 1 ⟨12, 0, true⟩ [] hdropped rfl (by
    rw [hflight]
    exact fun p hp => nomatch hp)
  -- none of the later handlers has written
  have hmem : d.sent ∈ (s.history.drop 17).map Delivery.sent := by
    refine List.mem_map_of_mem (List.mem_of_getElem? (i := j - 17) ?_)
    rw [List.getElem?_drop, Nat.add_sub_cancel' hj, hd]
  rw [hsent] at hmem
  rw [List.mem_cons, List.mem_cons, List.mem_singleton] at hmem
  rcases hmem with hnil | hresponse | hnil
  · rw [hnil] at hw
    cases hw
  · rw [hresponse, List.mem_singleton] at hw
    cases hw
  · rw [hnil] at hw
    cases hw

end Sesc.Bip
