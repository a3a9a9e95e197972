import Sesc.Events.EventManager

/-!
# `RandomLoadNetwork`

A network that delivers every message after a delay, which is constant or drawn at random.  With
`enforceInOrder` the calculator of the delays keeps the arrival time of the last message of every
pair of connections and corrects the delay.
-/

namespace Sesc.Network

open Lib Sesc.Events

abbrev TimeDelta := ℕ

/-- `NetworkMsg`; of the payload only its identifier and its size are of interest. -/
structure NetworkMsg where
  sourceNode : NodeID
  destinationNode : NodeID
  isOverrideSource : Bool
  payloadMsg : MessageID
  payloadSize : ℕ
deriving DecidableEq, Repr

def NetworkMsg.msgSize (m : NetworkMsg) : ℕ := m.payloadSize + 4

/-! ## Delays -/

/-- The configuration of `RandomCalculator` and `RandomLoadedCalculator`. -/
structure RandomConfig where
  minTime : TimeDelta
  maxTime : TimeDelta
  perByte : TimeDelta
  enforceInOrder : Bool
  minTime_lt_maxTime : minTime < maxTime

namespace RandomConfig

variable (c : RandomConfig)

def initialTime : TimeDelta := c.minTime

def randomRange : TimeDelta := (c.maxTime - c.minTime + 1) % tickRange

end RandomConfig

/-- The three calculators.  What `RandomLoadedCalculator` adds for a number of packets in transit
is a product of floating-point numbers. -/
inductive DelayCalculator
  | constant (timeTaken perByte : TimeDelta)
  | random (c : RandomConfig)
  | randomLoaded (c : RandomConfig) (timeForPackets : ℤ → TimeDelta)

namespace DelayCalculator

def enforceInOrder : DelayCalculator → Bool
  | constant _ _ => false
  | random c | randomLoaded c _ => c.enforceInOrder

/-- `dtBase` before it is corrected; `rand` is what `rand()` returns. -/
def baseTime (packetsInTransit : ℤ) (rand : ℕ) : DelayCalculator → TimeDelta
  | constant timeTaken _ => timeTaken
  | random c => (c.initialTime + rand % c.randomRange) % tickRange
  | randomLoaded c timeForPackets =>
    (c.initialTime + rand % c.randomRange + timeForPackets packetsInTransit) % tickRange

/-- `dtPacket`. -/
def packetTime (m : NetworkMsg) : DelayCalculator → TimeDelta
  | constant _ perByte => perByte * m.msgSize % tickRange
  | random c | randomLoaded c _ => c.perByte * m.msgSize % tickRange

end DelayCalculator

/-! ## The device -/

/-- The configuration of a network; `latency` is that of the connections. -/
structure NetworkConfig where
  calculator : DelayCalculator
  nodeToConnection : NodeID → Option ℕ
  nodeCount : ℕ
  latency : ℕ → TimeDelta
  startTick : TickTime
  reserve : ℕ → ℕ
  maxReserve : ℕ → ℕ

/-- What the calculator of the delays keeps. -/
structure RandomLoadNetwork where
  mostRecentMsg : ℕ → ℕ → TickTime
  packetsInTransit : ℤ

namespace RandomLoadNetwork

variable (cfg : NetworkConfig) (n : RandomLoadNetwork)

def new : RandomLoadNetwork where
  mostRecentMsg := fun _ _ => 0
  packetsInTransit := 0

def setMostRecentMsg (fromNode toNode : ℕ) (time : TickTime) : RandomLoadNetwork :=
  let row := Function.update (n.mostRecentMsg fromNode) toNode time
  { n with mostRecentMsg := Function.update n.mostRecentMsg fromNode row }

/-- The connection of a node, which must be known. -/
def connection (node : NodeID) : Except Fault ℕ :=
  (cfg.nodeToConnection node).elim (.error .assertion) .ok

/-- The delay is corrected if the message would overtake the last one. -/
def correctedTime (last time : TickTime) (dtBase : TimeDelta) : TimeDelta :=
  if last > (time + dtBase) % tickRange then last - (time + dtBase) % tickRange else dtBase

/-- `CalcTime`. -/
def calcTime (m : NetworkMsg) (fromNode toNode : ℕ) (time : TickTime) (rand : ℕ) :
    Except Fault (TimeDelta × RandomLoadNetwork) :=
  let dtBase := cfg.calculator.baseTime n.packetsInTransit rand
  let dtPacket := cfg.calculator.packetTime m
  if cfg.calculator.enforceInOrder then do
    check .assertion (fromNode < cfg.nodeCount ∧ toNode < cfg.nodeCount)
    let dtBase := correctedTime (n.mostRecentMsg fromNode toNode) time dtBase
    return ((dtBase + dtPacket) % tickRange,
      n.setMostRecentMsg fromNode toNode ((time + dtBase + dtPacket) % tickRange))
  else .ok ((dtBase + dtPacket) % tickRange, n)

/-- `OnMsgSend`. -/
def onMsgSend : Except Fault RandomLoadNetwork :=
  match cfg.calculator with
  | .randomLoaded _ _ => do
    check .assertion (0 < n.packetsInTransit + 1)
    return { n with packetsInTransit := n.packetsInTransit + 1 }
  | _ => .ok n

/-- `OnMsgDelivered`. -/
def onMsgDelivered : Except Fault RandomLoadNetwork :=
  match cfg.calculator with
  | .randomLoaded _ _ => do
    check .assertion (0 < n.packetsInTransit)
    return { n with packetsInTransit := n.packetsInTransit - 1 }
  | _ => .ok n

end RandomLoadNetwork

/-! ## The network in the simulator -/

/-- The callbacks: `DeliverMsg`, the transmission of a message by a connection, and those of the
other devices. -/
inductive Callback
  | deliver (m : NetworkMsg)
  | transmit (m : NetworkMsg) (connectionID : ℕ)
  | other (k : ℕ)
deriving DecidableEq, Repr

structure System where
  network : RandomLoadNetwork
  events : Events.System Callback

/-- What happens to a network.  `rand` is what `rand()` returns; other callbacks are scheduled by
their generators. -/
inductive Event
  | recvMsg (m : NetworkMsg) (connectionID rand freshFunction freshContainer : ℕ)
  | scheduleOther (generator k : ℕ) (request : EventManager.Request)
      (freshFunction freshContainer : ℕ)
  | processTick
  | resume (freshFunction freshContainer : ℕ)
deriving DecidableEq, Repr

namespace System

variable (cfg : NetworkConfig) (s : System)

/-- `EM().CurrentTick()`. -/
def now : TickTime := s.events.manager.currentTick

/-- `RecvMsg`; 0 is the generator of the calls of `DeliverMsg`. -/
def recvMsg (m : NetworkMsg) (connectionID rand freshFunction freshContainer : ℕ) :
    Except Fault System := do
  let fromNode ← RandomLoadNetwork.connection cfg m.sourceNode
  let toNode ← RandomLoadNetwork.connection cfg m.destinationNode
  check .assertion (fromNode = connectionID ∨ m.isOverrideSource)
  let (delay, network) ← s.network.calcTime cfg m fromNode toNode s.now rand
  let network ← network.onMsgSend cfg
  let events ← s.events.schedule 0 (.deliver m) (.after delay) freshFunction freshContainer
  return { network := network, events := events }

/-- `DeliverMsg`; 1 is the generator of the transmissions. -/
def deliverMsg (m : NetworkMsg) (freshFunction freshContainer : ℕ) : Except Fault System := do
  let _ ← RandomLoadNetwork.connection cfg m.sourceNode
  let toNode ← RandomLoadNetwork.connection cfg m.destinationNode
  let network ← s.network.onMsgDelivered cfg
  let events ← s.events.schedule 1 (.transmit m toNode) (.after (cfg.latency toNode))
    freshFunction freshContainer
  return { network := network, events := events }

/-- The callback that has begun in a step of `ProcessTick`. -/
def begun (executed executed' : List (TickTime × Callback)) : Option Callback :=
  if executed.length < executed'.length then executed'.getLast?.map Prod.snd else none

/-- The next step of `ProcessTick`, with the callback if it is one of the network. -/
def resume (freshFunction freshContainer : ℕ) : Except Fault System := do
  let events ← s.events.resume
  match begun s.events.executed events.executed with
  | some (.deliver m) => deliverMsg cfg { s with events } m freshFunction freshContainer
  | _ => return { s with events }

def step : Event → Except Fault System
  | .recvMsg m connectionID rand freshFunction freshContainer =>
    s.recvMsg cfg m connectionID rand freshFunction freshContainer
  | .scheduleOther generator k request freshFunction freshContainer => do
    let events ← s.events.schedule generator (.other k) request freshFunction freshContainer
    return { s with events := events }
  | .processTick => do
    let m ← s.events.manager.processTick
    return { s with events := { s.events with manager := m } }
  | .resume freshFunction freshContainer => s.resume cfg freshFunction freshContainer

/-- A network as a machine. -/
def machine : Machine System Event Fault where
  init :=
    { network := .new
      events := (Events.System.machine cfg.startTick cfg.reserve cfg.maxReserve).init }
  step := step cfg

end System

end Sesc.Network
