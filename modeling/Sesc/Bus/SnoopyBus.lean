import Mathlib.Logic.Function.Basic
import Sesc.Lib.Check
import Sesc.Lib.Machine
import Sesc.Messages

/-!
# `SnoopyBus`

The bus broadcasts a request to all local connections but that of the sender, combines the
responses into one and forwards it to the sender.  When no response to a request of a local
connection is satisfied, the remote connection is asked.

When a message arrives or a scheduled call runs is left open: the latency calculators decide
on nothing but this.
-/

namespace Sesc.Bus

open Lib

/-- The arbitrators. -/
inductive ArbitrationType
  | random
  | remoteFirstRandom
deriving DecidableEq, Repr

/-- The connections of a bus, numbered from 0: one is remote, and at least one other is local. -/
structure BusConfig where
  connectionCount : ℕ
  remoteConnection : ℕ
  arbitrationType : ArbitrationType
  remote_lt : remoteConnection < connectionCount
  local_pos : 2 ≤ connectionCount

/-- A request that has been broadcast. -/
structure TransferData where
  pendingResponses : ℤ
  solicitingMsg : Msg
  solicitingConnection : ℕ
  satisfied : Bool
deriving DecidableEq, Repr

/-- The bus and what is under way: the copies of requests that the bus has sent and that have
not been answered, and the scheduled calls of `AttemptTransfer`.  The requests that have started
a transfer and the responses that have been forwarded are recorded with their connections. -/
structure SnoopyBus where
  waitingMsgs : ℕ → List Msg
  pendingTransfers : Address → Option TransferData
  transferInProgress : Bool
  unanswered : List (ℕ × Msg)
  attempts : ℕ
  started : List (ℕ × Msg)
  forwarded : List (ℕ × Msg)

/-- After `Initialize`. -/
def SnoopyBus.new : SnoopyBus where
  waitingMsgs := fun _ => []
  pendingTransfers := fun _ => none
  transferInProgress := false
  unanswered := []
  attempts := 0
  started := []
  forwarded := []

/-! ## Messages -/

/-- `IsResponse`, of the messages that a bus knows. -/
def isResponse : Msg → Bool
  | .readResponse _ | .writeResponse _ | .invalidateResponse _ | .evictionResponse _ => true
  | _ => false

/-- A request for which `GetRelevantAddr` does not fail. -/
def isRequest : Msg → Bool
  | .read _ | .write _ | .invalidate _ | .eviction _ => true
  | _ => false

/-- Whether a response satisfies the request, by its type. -/
def isSatisfied : Msg → Except Fault Bool
  | .readResponse m => .ok m.satisfied
  | .writeResponse _ => .ok false
  | .evictionResponse _ => .ok false
  | .invalidateResponse m => .ok m.blockAttached
  | _ => .error .assertion

/-- The response answers the request. -/
def answers : Msg → Msg → Bool
  | .readResponse r, .read m => r.addr = m.addr ∧ r.solicitingMessage = m.msgID
  | .writeResponse r, .write m => r.addr = m.addr ∧ r.solicitingMessage = m.msgID
  | .invalidateResponse r, .invalidate m => r.addr = m.addr ∧ r.solicitingMessage = m.msgID
  | .evictionResponse r, .eviction m => r.addr = m.addr ∧ r.solicitingMessage = m.msgID
  | _, _ => false

namespace SnoopyBus

variable (s : SnoopyBus)

/-- `SendMsg` of a copy of a request. -/
def sendRequest (connection : ℕ) (msg : Msg) : SnoopyBus :=
  { s with unanswered := s.unanswered ++ [(connection, msg)] }

/-- `SendMsg` of a response to the sender of the request. -/
def forward (connection : ℕ) (msg : Msg) : SnoopyBus :=
  { s with forwarded := s.forwarded ++ [(connection, msg)] }

/-- `ScheduleEvent` of `AttemptTransfer`. -/
def scheduleAttempt : SnoopyBus := { s with attempts := s.attempts + 1 }

def setTransfer (addr : Address) (t : Option TransferData) : SnoopyBus :=
  { s with pendingTransfers := Function.update s.pendingTransfers addr t }

end SnoopyBus

namespace BusConfig

variable (cfg : BusConfig)

/-! ## Starting a transfer -/

/-- `RandomArbitration::SelectNext`, on the connections that are pending. -/
def selectRandom (pending : List ℕ) (rand : ℕ) : Except Fault ℕ :=
  (pending[rand % pending.length]?).elim (.error .assertion) .ok

/-- `SelectNext` of the arbitrator. -/
def selectNext (pending : List ℕ) (rand : ℕ) : Except Fault ℕ :=
  match cfg.arbitrationType with
  | .random => selectRandom pending rand
  | .remoteFirstRandom =>
    if cfg.remoteConnection ∈ pending then .ok cfg.remoteConnection
    else selectRandom pending rand

/-- The connections to which a request of a connection is broadcast. -/
def broadcastTargets (connectionID : ℕ) : List ℕ :=
  (List.range cfg.connectionCount).filter fun i => i ≠ connectionID ∧ i ≠ cfg.remoteConnection

/-- `BroadcastMsg`. -/
def broadcastMsg (msg : Msg) (connectionID : ℕ) (s : SnoopyBus) : Except Fault SnoopyBus := do
  check .assertion (isResponse msg = false)
  return {
    (cfg.broadcastTargets connectionID).foldl (fun s i => s.sendRequest i msg) s with
    pendingTransfers := Function.update s.pendingTransfers msg.getAddress
      (some ⟨cfg.connectionCount - 1, msg, connectionID, false⟩)
    started := s.started ++ [(connectionID, msg)] }

/-- The index of the first waiting message of a connection that can be transferred. -/
def msgIndex (s : SnoopyBus) (i : ℕ) : Option ℕ :=
  (s.waitingMsgs i).findIdx? fun m => s.pendingTransfers m.getAddress = none

/-- The connections that have a message that can be transferred. -/
def pendingMsgs (s : SnoopyBus) : List ℕ :=
  (List.range cfg.connectionCount).filter fun i => (msgIndex s i).isSome

/-- `AttemptTransfer`, for a message that has been found. -/
def startTransfer (rand : ℕ) (s : SnoopyBus) : Except Fault SnoopyBus := do
  let i ← cfg.selectNext (cfg.pendingMsgs s) rand
  let choice ← (msgIndex s i).elim (.error .assertion) .ok
  let m ← ((s.waitingMsgs i)[choice]?).elim (.error .assertion) .ok
  cfg.broadcastMsg m i { s with
    transferInProgress := true
    waitingMsgs := Function.update s.waitingMsgs i ((s.waitingMsgs i).eraseIdx choice) }

/-- `AttemptTransfer`. -/
def attemptTransfer (rand : ℕ) (s : SnoopyBus) : Except Fault SnoopyBus :=
  if cfg.pendingMsgs s = [] then .ok { s with transferInProgress := false }
  else cfg.startTransfer rand s

/-! ## Responses -/

/-- A transfer is over when all have answered that are asked: for a request of a local
connection all local ones, if their response is satisfied. -/
def isOver (t : TransferData) : Prop :=
  t.pendingResponses = 0 ∨
    t.pendingResponses = 1 ∧ t.solicitingConnection ≠ cfg.remoteConnection

instance (t : TransferData) : Decidable (cfg.isOver t) :=
  inferInstanceAs (Decidable (_ ∨ _))

/-- The transfer is erased if it is over. -/
def settle (addr : Address) (t : TransferData) (s : SnoopyBus) : SnoopyBus :=
  s.setTransfer addr (if cfg.isOver t then none else some t)

/-- `ProcessResponse`, when no response has been satisfied before. -/
def processFirst (msg : Msg) (addr : Address) (t : TransferData) (s : SnoopyBus) :
    Except Fault SnoopyBus := do
  let satisfied ← isSatisfied msg
  let t := { t with pendingResponses := t.pendingResponses - 1, satisfied := satisfied }
  return if satisfied then
      cfg.settle addr t (s.forward t.solicitingConnection msg).scheduleAttempt
    else if t.pendingResponses = 1 ∧ t.solicitingConnection ≠ cfg.remoteConnection then
      (s.sendRequest cfg.remoteConnection t.solicitingMsg).setTransfer addr (some t)
    else if t.pendingResponses = 0 then
      ((s.forward t.solicitingConnection msg).scheduleAttempt).setTransfer addr none
    else s.setTransfer addr (some t)

/-- `ProcessResponse`, when a response has been satisfied before. -/
def processLater (addr : Address) (t : TransferData) (s : SnoopyBus) : SnoopyBus :=
  let t := { t with pendingResponses := t.pendingResponses - 1 }
  if cfg.isOver t then s.scheduleAttempt.setTransfer addr none
  else s.setTransfer addr (some t)

/-- `ProcessResponse`. -/
def processResponse (msg : Msg) (s : SnoopyBus) : Except Fault SnoopyBus := do
  check .assertion (isResponse msg = true)
  let t ← (s.pendingTransfers msg.getAddress).elim (.error .assertion) .ok
  if t.satisfied then return cfg.processLater msg.getAddress t s
  else cfg.processFirst msg msg.getAddress t s

/-! ## Runs -/

/-- `RecvMsg`, for a request. -/
def recvRequest (msg : Msg) (connectionID : ℕ) (rand : ℕ) (s : SnoopyBus) :
    Except Fault SnoopyBus :=
  let s := { s with
    waitingMsgs := Function.update s.waitingMsgs connectionID
      (s.waitingMsgs connectionID ++ [msg]) }
  if s.transferInProgress then .ok s else cfg.attemptTransfer rand s

/-- What happens to a bus: a request arrives on a connection; the copy of a request at an index
of those not answered is answered; a scheduled call of `AttemptTransfer` runs.  The numbers that
`rand` returns are given. -/
inductive Event
  | request (msg : Msg) (connectionID : ℕ) (rand : ℕ)
  | answer (index : ℕ) (response : Msg)
  | attempt (rand : ℕ)
deriving DecidableEq, Repr

/-- An answer to the copy of a request. -/
def answer (index : ℕ) (response : Msg) (s : SnoopyBus) : Except Fault SnoopyBus := do
  let request ← (s.unanswered[index]?).elim (.error .noSuchEvent) .ok
  check .noSuchEvent (answers response request.2 = true)
  cfg.processResponse response { s with unanswered := s.unanswered.eraseIdx index }

/-- A bus and the devices at its connections. -/
def machine : Machine SnoopyBus Event Fault where
  init := .new
  step s e := match e with
    | .request msg connectionID rand => do
      check .noSuchEvent (isRequest msg = true ∧ connectionID < cfg.connectionCount)
      cfg.recvRequest msg connectionID rand s
    | .answer index response => cfg.answer index response s
    | .attempt rand => do
      check .noSuchEvent (0 < s.attempts)
      cfg.attemptTransfer rand { s with attempts := s.attempts - 1 }

end BusConfig

end Sesc.Bus
