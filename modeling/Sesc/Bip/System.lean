import Mathlib.Data.List.GetD
import Mathlib.Data.List.Perm.Basic
import Sesc.Bip.Directory
import Sesc.Lib.Machine

/-!
# Nodes running `BIPDirectory`

Any number of nodes, each a `BIPDirectory` between a local cache and a memory, joined by a
network.  Packets are delivered in any order, also those of one node to itself.  The local
caches read and evict lines whenever they like and answer as their state may be; the memories
are `TestMemory`.
-/

namespace Sesc.Bip

open Lib

/-- The nodes of a system and the calculator of home nodes, which are nodes of the system. -/
structure Config where
  nodeIDs : List NodeID
  directoryNodeCalc : NodeIDCalculator
  invalid_notMem : InvalidNodeID ∉ nodeIDs
  calc_mem : ∀ addr, directoryNodeCalc addr ∈ nodeIDs

/-- The configuration whose nodes are those of a `HashedPageCalculator`. -/
def Config.hashed (c : HashedPageCalculator) (hne : 0 < c.nodeSet.length)
    (hinvalid : InvalidNodeID ∉ c.nodeSet) : Config where
  nodeIDs := c.nodeSet
  directoryNodeCalc := c.calcNodeID
  invalid_notMem := hinvalid
  calc_mem addr := by
    have hlt : addr / c.pageSize % c.nodeSet.length < c.nodeSet.length :=
      Nat.mod_lt _ hne
    rw [HashedPageCalculator.calcNodeID, List.getD_eq_getElem _ _ hlt]
    exact List.getElem_mem hlt

/-- Three nodes with pages of one line. -/
def Config.three : Config :=
  .hashed { pageSize := 64, nodeSet := [0, 1, 2] } (by decide) (by decide)

/-- The delivery of a packet and the packets that its handler sent. -/
structure Delivery where
  packet : Packet
  sent : List Packet
deriving DecidableEq

/-- The state of all devices, the packets in flight, and the deliveries so far, which no device
reads. -/
structure System where
  nodes : NodeID → BIPDirectory
  flight : List Packet
  currentMsgStamp : MessageID
  history : List Delivery

def System.new : System where
  nodes := fun _ => .new
  flight := []
  currentMsgStamp := 1
  history := []

/-- What is left open about the local cache when it answers a message: whether it has the block,
and whether the block is dirty. -/
structure CacheReply where
  hasBlock : Bool
  dirty : Bool
deriving DecidableEq, Repr

inductive Event
  /-- The local cache of a node reads a line. -/
  | localRead (node : NodeID) (addr : Address) (requestingExclusive alreadyHasBlock : Bool)
  /-- The local cache of a node evicts a line. -/
  | localEviction (node : NodeID) (addr : Address) (blockAttached : Bool)
  /-- A packet in flight is delivered. -/
  | deliver (k : ℕ) (order : HashOrder) (reply : CacheReply)
deriving DecidableEq, Repr

/-- `TestMemory::RecvMsg`, for the accesses of a directory. -/
def testMemoryRecvMsg (node : NodeID) (msg : Msg) (a : Activation) : Except Fault Activation :=
  match msg with
  | .read m =>
    .ok (a.stamped.send (.fromMemory node (.readResponse
      { ReadResponseMsg.ofRead a.currentMsgStamp m with
        blockAttached := true
        directoryLookup := m.directoryLookup
        exclusiveOwnership := true
        satisfied := true })))
  | .write m =>
    .ok (a.stamped.send (.fromMemory node (.writeResponse
      { msgID := a.currentMsgStamp, addr := m.addr, solicitingMessage := m.msgID })))
  | _ => .error .assertion

/-- The local cache answers a read as in `PerformRemoteRead` and an invalidate as in
`RespondInvalidate`, and takes its own answers. -/
def localCacheRecvMsg (node : NodeID) (msg : Msg) (reply : CacheReply) (a : Activation) :
    Except Fault Activation :=
  match msg with
  | .read m =>
    .ok (a.stamped.send (.fromLocalCache node (.readResponse
      { ReadResponseMsg.ofRead a.currentMsgStamp m with
        satisfied := reply.hasBlock
        blockAttached := reply.hasBlock && !(m.requestingExclusive && m.alreadyHasBlock)
        exclusiveOwnership := reply.hasBlock && m.requestingExclusive
        isDirty := reply.hasBlock && !m.requestingExclusive && reply.dirty })))
  | .invalidate m =>
    .ok (a.stamped.send (.fromLocalCache node (.invalidateResponse
      { InvalidateResponseMsg.ofInvalidate a.currentMsgStamp m with
        blockAttached := reply.dirty })))
  | _ => .ok a

namespace Config

variable (cfg : Config)

def device (node : NodeID) : Device := ⟨node, cfg.directoryNodeCalc⟩

/-- The delivery of a packet at its node. -/
def recvMsg (p : Packet) (reply : CacheReply) (a : Activation) : Except Fault Activation :=
  match p with
  | .network dest src msg => (cfg.device dest).recvFromNetwork msg src a
  | .scheduled node msg => (cfg.device node).runScheduled msg a
  | .toLocalCache node msg => localCacheRecvMsg node msg reply a
  | .fromLocalCache node msg => (cfg.device node).recvFromCache msg a
  | .toMemory node msg => testMemoryRecvMsg node msg a
  | .fromMemory node msg => (cfg.device node).recvFromMemory msg a

end Config

/-- The activation of a handler of a node. -/
def System.activation (s : System) (node : NodeID) (order : HashOrder) : Activation where
  dir := s.nodes node
  currentMsgStamp := s.currentMsgStamp
  sent := []
  order := order

/-- The state after the handler for a packet, at an index of those in flight. -/
def System.commit (s : System) (k : ℕ) (p : Packet) (a : Activation) : System where
  nodes := Function.update s.nodes p.node a.dir
  flight := s.flight.eraseIdx k ++ a.sent
  currentMsgStamp := a.currentMsgStamp
  history := s.history ++ [⟨p, a.sent⟩]

/-- A local cache sends a message to its `BIPDirectory`. -/
def System.localSend (s : System) (node : NodeID) (msg : Msg) : System :=
  { s with
    flight := s.flight ++ [.fromLocalCache node msg]
    currentMsgStamp := s.currentMsgStamp + 1 }

/-- A local cache sends a read. -/
def System.localRead (s : System) (node : NodeID) (addr : Address)
    (requestingExclusive alreadyHasBlock : Bool) : System :=
  s.localSend node (.read
    { msgID := s.currentMsgStamp
      addr := addr
      requestingExclusive := requestingExclusive
      alreadyHasBlock := alreadyHasBlock
      directoryLookup := false })

/-- A local cache sends an eviction. -/
def System.localEviction (s : System) (node : NodeID) (addr : Address) (blockAttached : Bool) :
    System :=
  s.localSend node (.eviction
    { msgID := s.currentMsgStamp, addr := addr, blockAttached := blockAttached })

def step (cfg : Config) (s : System) : Event → Except Fault System
  | .localRead node addr requestingExclusive alreadyHasBlock => do
    check .noSuchEvent (node ∈ cfg.nodeIDs)
    return s.localRead node addr requestingExclusive alreadyHasBlock
  | .localEviction node addr blockAttached => do
    check .noSuchEvent (node ∈ cfg.nodeIDs)
    return s.localEviction node addr blockAttached
  | .deliver k order reply => do
    let p ← (s.flight[k]?).elim (.error .noSuchEvent) .ok
    let a ← cfg.recvMsg p reply (s.activation p.node order)
    return s.commit k p a

/-- The machine of a configuration. -/
def machine (cfg : Config) : Machine System Event Fault where
  init := .new
  step := step cfg

/-- What a step can do: a local cache sends a read or an eviction, or the handler for a packet
in flight is run at its node. -/
lemma step_eq_ok {cfg : Config} {s s' : System} {e : Event} (h : step cfg s e = .ok s') :
    (∃ node addr requestingExclusive alreadyHasBlock, node ∈ cfg.nodeIDs ∧
      s' = s.localRead node addr requestingExclusive alreadyHasBlock) ∨
    (∃ node addr blockAttached, node ∈ cfg.nodeIDs ∧
      s' = s.localEviction node addr blockAttached) ∨
    ∃ k order reply p a, e = .deliver k order reply ∧ s.flight[k]? = some p ∧
      cfg.recvMsg p reply (s.activation p.node order) = .ok a ∧ s' = s.commit k p a := by
  cases e with
  | localRead node addr requestingExclusive alreadyHasBlock =>
    obtain ⟨hnode, hs⟩ := check_bind_eq_ok.1 h
    cases hs
    exact .inl ⟨node, addr, _, _, hnode, rfl⟩
  | localEviction node addr blockAttached =>
    obtain ⟨hnode, hs⟩ := check_bind_eq_ok.1 h
    cases hs
    exact .inr (.inl ⟨node, addr, _, hnode, rfl⟩)
  | deliver k order reply =>
    obtain ⟨p, hp, h⟩ := bind_eq_ok.1 h
    obtain ⟨a, ha, hs⟩ := bind_eq_ok.1 h
    cases hs
    exact .inr (.inr ⟨k, order, reply, p, a, rfl, elim_error_eq_ok.1 hp, ha, rfl⟩)

/-- The packets in flight are the delivered one and those left in flight. -/
lemma flight_perm {s : System} {k : ℕ} {p : Packet} (h : s.flight[k]? = some p) :
    s.flight.Perm (p :: s.flight.eraseIdx k) := by
  obtain ⟨hk, rfl⟩ := List.getElem?_eq_some_iff.1 h
  exact (List.getElem_cons_eraseIdx_perm hk).symm

end Sesc.Bip
