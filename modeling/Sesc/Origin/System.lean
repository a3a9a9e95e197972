import Mathlib.Data.List.GetD
import Mathlib.Data.List.Perm.Basic
import Sesc.Lib.Machine
import Sesc.Origin.CacheWaiting
import Sesc.Origin.Directory

/-!
# Nodes running `OriginDirectory`

Any number of nodes, each an `OriginDirectory` between a local cache and a memory, joined
by a network.  Packets are delivered in any order, also those of one node to itself.  The
local caches read and evict lines whenever they like; the memories are `TestMemory`.
-/

namespace Sesc.Origin

open Lib

/-- The nodes of a system and the calculator of home nodes, which are nodes of the system. -/
structure Config where
  nodeIDs : List NodeID
  directoryNodeCalc : NodeIDCalculator
  invalid_notMem : InvalidNodeID ∉ nodeIDs
  calc_mem : ∀ addr, directoryNodeCalc addr ∈ nodeIDs

/-- The configuration whose nodes are those of a `HashedPageCalculator`. -/
def Config.hashed (c : HashedPageCalculator) (hne : c.nodeSet ≠ [])
    (hinvalid : InvalidNodeID ∉ c.nodeSet) : Config where
  nodeIDs := c.nodeSet
  directoryNodeCalc := c.calcNodeID
  invalid_notMem := hinvalid
  calc_mem addr := by
    have hlt : addr / c.pageSize % c.nodeSet.length < c.nodeSet.length :=
      Nat.mod_lt _ (List.length_pos_iff.2 hne)
    rw [HashedPageCalculator.calcNodeID, List.getD_eq_getElem _ _ hlt]
    exact List.getElem_mem hlt

/-- Four nodes with pages of one line. -/
def Config.four : Config :=
  .hashed { pageSize := 64, nodeSet := [0, 1, 2, 3] } (by decide) (by decide)

/-- The state of all devices and the packets in flight.  `log` lists every packet ever sent;
no device reads it. -/
structure System where
  nodes : NodeID → OriginDirectory
  flight : List Packet
  currentMsgStamp : MessageID
  log : List Packet

def System.new : System where
  nodes := fun _ => .new
  flight := []
  currentMsgStamp := 1
  log := []

inductive Event
  /-- The local cache of a node reads a line. -/
  | localRead (node : NodeID) (addr : Address) (requestingExclusive alreadyHasBlock : Bool)
  /-- The local cache of a node evicts a line. -/
  | localEviction (node : NodeID) (addr : Address) (blockAttached : Bool)
  /-- A packet in flight is delivered; `dirty` is the state of the line in the local cache
  when the packet asks for it. -/
  | deliver (k : ℕ) (dirty : Bool)
deriving DecidableEq, Repr

/-- `TestMemory::RecvMsg`. -/
def testMemoryRecvMsg (node : NodeID) (msg : Msg) (a : Activation) : Except Fault Activation :=
  match msg with
  | .read m =>
    return a.stamped.send (.fromMemory node (.readResponse
      { ReadResponseMsg.ofRead a.currentMsgStamp m with
        blockAttached := true
        directoryLookup := m.directoryLookup
        exclusiveOwnership := true
        satisfied := true }))
  | .write m =>
    return a.stamped.send (.fromMemory node (.writeResponse
      { msgID := a.currentMsgStamp, addr := m.addr, solicitingMessage := m.msgID }))
  | .eviction m =>
    return a.stamped.send (.fromMemory node (.evictionResponse
      (.ofEviction a.currentMsgStamp m)))
  | _ => .error .assertion

/-- The local cache answers an invalidation and a read, and takes its own answers. -/
def localCacheRecvMsg (node : NodeID) (msg : Msg) (dirty : Bool) (a : Activation) :
    Except Fault Activation :=
  match msg with
  | .invalidate m =>
    return a.stamped.send (.fromLocalCache node (.invalidateResponse
      { InvalidateResponseMsg.ofInvalidate a.currentMsgStamp m with blockAttached := dirty }))
  | .read m =>
    return a.stamped.send (.fromLocalCache node (.readResponse
      { ReadResponseMsg.ofRead a.currentMsgStamp m with
        satisfied := true
        blockAttached := true
        isDirty := dirty }))
  | _ => .ok a

namespace Config

variable (cfg : Config)

def device (node : NodeID) : Device := ⟨node, cfg.directoryNodeCalc⟩

/-- The delivery of a packet at its node. -/
def recvMsg (p : Packet) (dirty : Bool) (a : Activation) : Except Fault Activation :=
  match p with
  | .toCache dest src msg => (cfg.device dest).recvMsgCache msg src a
  | .toDirectory dest src msg => (cfg.device dest).recvMsgDirectory msg src false a
  | .toLocalCache node msg => localCacheRecvMsg node msg dirty a
  | .fromLocalCache node msg => (cfg.device node).recvMsgCache msg InvalidNodeID a
  | .toMemory node msg => testMemoryRecvMsg node msg a
  | .fromMemory node msg => (cfg.device node).recvMsgDirectory msg InvalidNodeID true a

end Config

/-- The activation of a handler of a node. -/
def System.activation (s : System) (node : NodeID) : Activation where
  dir := s.nodes node
  currentMsgStamp := s.currentMsgStamp
  sent := []

/-- The state after a handler of a node that was given the packets `flight` to leave in
flight. -/
def System.commit (s : System) (node : NodeID) (flight : List Packet) (a : Activation) :
    System where
  nodes := Function.update s.nodes node a.dir
  flight := flight ++ a.sent
  currentMsgStamp := a.currentMsgStamp
  log := s.log ++ a.sent

/-- A local cache sends a message to its `OriginDirectory`. -/
def System.localSend (s : System) (node : NodeID) (msg : Msg) : System :=
  { s with
    flight := s.flight ++ [.fromLocalCache node msg]
    currentMsgStamp := s.currentMsgStamp + 1
    log := s.log ++ [.fromLocalCache node msg] }

def step (cfg : Config) (s : System) : Event → Except Fault System
  | .localRead node addr requestingExclusive alreadyHasBlock => do
    check .noSuchEvent (node ∈ cfg.nodeIDs)
    return s.localSend node (.read
      { msgID := s.currentMsgStamp
        addr := addr
        requestingExclusive := requestingExclusive
        alreadyHasBlock := alreadyHasBlock
        directoryLookup := false })
  | .localEviction node addr blockAttached => do
    check .noSuchEvent (node ∈ cfg.nodeIDs)
    return s.localSend node (.eviction
      { msgID := s.currentMsgStamp, addr := addr, blockAttached := blockAttached })
  | .deliver k dirty =>
    match s.flight[k]? with
    | none => .error .noSuchEvent
    | some p => do
      let a ← cfg.recvMsg p dirty (s.activation p.node)
      return s.commit p.node (s.flight.eraseIdx k) a

/-- The machine of a configuration. -/
def machine (cfg : Config) : Machine System Event Fault where
  init := .new
  step := step cfg

/-- What a step can do: a local cache sends a message, or the handler for a packet in
flight is run at its node. -/
lemma step_eq_ok {cfg : Config} {s s' : System} {e : Event} (h : step cfg s e = .ok s') :
    (∃ node addr requestingExclusive alreadyHasBlock,
        e = .localRead node addr requestingExclusive alreadyHasBlock ∧ node ∈ cfg.nodeIDs ∧
        s' = s.localSend node (.read
          { msgID := s.currentMsgStamp
            addr := addr
            requestingExclusive := requestingExclusive
            alreadyHasBlock := alreadyHasBlock
            directoryLookup := false })) ∨
    (∃ node addr blockAttached, e = .localEviction node addr blockAttached ∧
        node ∈ cfg.nodeIDs ∧ s' = s.localSend node (.eviction
          { msgID := s.currentMsgStamp, addr := addr, blockAttached := blockAttached })) ∨
    ∃ k dirty p a, e = .deliver k dirty ∧ s.flight[k]? = some p ∧
      cfg.recvMsg p dirty (s.activation p.node) = .ok a ∧
      s' = s.commit p.node (s.flight.eraseIdx k) a := by
  cases e with
  | localRead node addr requestingExclusive alreadyHasBlock =>
    obtain ⟨hmem, hs⟩ := check_bind_eq_ok.1 h
    cases hs
    exact .inl ⟨node, addr, _, _, rfl, hmem, rfl⟩
  | localEviction node addr blockAttached =>
    obtain ⟨hmem, hs⟩ := check_bind_eq_ok.1 h
    cases hs
    exact .inr (.inl ⟨node, addr, _, rfl, hmem, rfl⟩)
  | deliver k dirty =>
    rw [step] at h
    split at h
    · cases h
    · rename_i p hp
      obtain ⟨a, ha, hs⟩ := bind_eq_ok.1 h
      cases hs
      exact .inr (.inr ⟨k, dirty, p, a, rfl, hp, ha, rfl⟩)

/-- The packets in flight are the delivered one and those left in flight. -/
lemma flight_perm {s : System} {k : ℕ} {p : Packet} (h : s.flight[k]? = some p) :
    s.flight.Perm (p :: s.flight.eraseIdx k) := by
  obtain ⟨hk, rfl⟩ := List.getElem?_eq_some_iff.1 h
  exact (List.getElem_cons_eraseIdx_perm hk).symm

lemma nodes_commit_self {s : System} {n : NodeID} {a : Activation} (flight : List Packet) :
    (s.commit n flight a).nodes n = a.dir := Function.update_self _ _ _

lemma nodes_commit_of_ne {s : System} {n node : NodeID} {a : Activation} (h : n ≠ node)
    (flight : List Packet) : (s.commit node flight a).nodes n = s.nodes n :=
  Function.update_of_ne h _ _

/-! ## The packets of a node -/

/-- The part of a list that belongs to a node. -/
def ofNode {α : Type*} (n : NodeID) (l : List (NodeID × α)) : List α :=
  l.filterMap fun p => if p.1 = n then some p.2 else none

section

variable {α : Type*} (n : NodeID)

lemma ofNode_nil : ofNode n ([] : List (NodeID × α)) = [] := rfl

lemma ofNode_append (l l' : List (NodeID × α)) :
    ofNode n (l ++ l') = ofNode n l ++ ofNode n l' := List.filterMap_append

lemma ofNode_singleton (x : α) : ofNode n [(n, x)] = [x] := by simp [ofNode]

lemma mem_ofNode {l : List (NodeID × α)} {x : α} : x ∈ ofNode n l ↔ (n, x) ∈ l := by
  simp only [ofNode, List.mem_filterMap, Prod.exists]
  constructor
  · rintro ⟨node, y, hmem, hy⟩
    by_cases h : node = n
    · rw [if_pos h] at hy
      cases hy
      exact h ▸ hmem
    · rw [if_neg h] at hy
      cases hy
  · intro h
    exact ⟨n, x, h, if_pos rfl⟩

lemma ofNode_eq_nil {l : List (NodeID × α)} (h : ∀ q ∈ l, q.1 ≠ n) : ofNode n l = [] :=
  List.filterMap_eq_nil_iff.2 fun q hq => if_neg (h q hq)

variable (f : Packet → Option (NodeID × α))

lemma ofNode_append_filterMap (l l' : List Packet) : ofNode n ((l ++ l').filterMap f) =
    ofNode n (l.filterMap f) ++ ofNode n (l'.filterMap f) := by
  rw [← ofNode_append, List.filterMap_append]

variable {n}

/-- What the packets in flight carry: what the delivered one carries and the rest. -/
lemma ofNode_flight_perm {s : System} {k : ℕ} {p : Packet} (hk : s.flight[k]? = some p) :
    (ofNode n (s.flight.filterMap f)).Perm
      (ofNode n (f p).toList ++ ofNode n ((s.flight.eraseIdx k).filterMap f)) := by
  rw [← ofNode_append]
  refine ((flight_perm hk).filterMap _ |>.filterMap _).trans (.of_eq ?_)
  rw [List.filterMap_cons]
  cases f p <;> rfl

end

end Sesc.Origin
