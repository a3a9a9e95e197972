import Sesc.Config.Lookup
import Sesc.Lib.FinMap

/-!
# `MemorySystem`

The devices of a memory system and the connections between them, as `Initialize` makes them from
a configuration.  Some devices, the interfaces to the processors, are submitted before by name.

A device is the number of the call of `new` that has made it.  What the class of a device does in
its own `Initialize`, apart from that of `BaseMemDevice`, is left to a test that may refuse the
configuration.
-/

namespace Sesc.Wiring

open Lib Config

abbrev Device := ℕ
abbrev Name := List Char
abbrev TimeDelta := ℕ

/-- A connection in one direction.  The source does not keep `entry`, the number of the entry of the
configuration that the connection is made from. -/
structure Connection where
  name : Name
  fromDevice : Device
  toDevice : Device
  toConnectionID : ℕ
  latency : TimeDelta
  entry : ℕ
deriving DecidableEq, Repr

/-- `Connection::SendMsg` and `EventManager::DeliverMsg`: the device that receives what is sent, and
the index of the connection it is told that the message arrives on. -/
def Connection.delivery (c : Connection) : Device × ℕ := (c.toDevice, c.toConnectionID)

/-- `MemorySystem::ConnectionDescription`. -/
structure ConnectionDescription where
  deviceA : Name
  deviceB : Name
  nameA : Name
  nameB : Name
  latency : TimeDelta
deriving DecidableEq, Repr

/-- A memory system, with the connection set of each device and the number of devices made. -/
structure MemorySystem where
  interfaceDevices : FinMap Name Device
  deviceSet : List Device
  deviceConnections : Device → List Connection
  connectionSet : List Connection
  created : ℕ

/-- The types of devices that are registered with the factory. -/
def deviceTypes : List Name :=
  ["Directory", "BIPDirectory", "OriginDirectory", "MSICache", "MESICache", "MOESICache",
    "BIPMOESICache", "NetworkMemoryInterface", "RandomLoadNetwork", "SnoopyBus",
    "TestMemory"].map String.toList

namespace MemorySystem

def new : MemorySystem where
  interfaceDevices := ∅
  deviceSet := []
  deviceConnections := fun _ => []
  connectionSet := []
  created := 0

variable (m : MemorySystem)

/-- `SubmitInterfaceDevice`, for a device that its caller has just made. -/
def submitInterfaceDevice (name : Name) : Except Fault MemorySystem := do
  check .assertion (name ≠ [])
  check .assertion (m.interfaceDevices.find name = none)
  return { m with
    interfaceDevices := m.interfaceDevices.insert name m.created
    created := m.created + 1 }

/-- `Factory::Create`. -/
def create (type : Name) : Except Fault (Device × MemorySystem) := do
  check .assertion (type ∈ deviceTypes)
  return (m.created, { m with created := m.created + 1 })

end MemorySystem

variable {F : RealFormat}

/-! ## Devices -/

/-- A turn of the loop over the devices: the name of the device. -/
def addDevice (config : ConfigNode F) (m : MemorySystem) : Except Fault (Name × MemorySystem) := do
  check .assertion (config.isA .root = true)
  let deviceType ← config.requiredString "DeviceType".toList
  let deviceName ← config.requiredString "DeviceName".toList
  match m.interfaceDevices.find deviceName with
  | some d =>
    return (deviceName, { m with
      deviceSet := m.deviceSet ++ [d]
      interfaceDevices := m.interfaceDevices.erase deviceName })
  | none =>
    let (d, m) ← m.create deviceType
    return (deviceName, { m with deviceSet := m.deviceSet ++ [d] })

/-- The loop over the devices, with the names of those before. -/
def addDevices : List (ConfigNode F) → List Name → MemorySystem →
    Except Fault (List Name × MemorySystem)
  | [], names, m => .ok (names, m)
  | config :: configs, names, m => do
    let (deviceName, m) ← addDevice config m
    addDevices configs (names ++ [deviceName]) m

/-! ## Connections -/

/-- A turn of the loop over the connections. -/
def connectionDescription (config : ConfigNode F) : Except Fault ConnectionDescription := do
  check .assertion (config.isA .root = true)
  let deviceA ← config.requiredString "FromDevice".toList
  let deviceB ← config.requiredString "ToDevice".toList
  let nameA ← config.requiredString "FromName".toList
  let nameB ← config.requiredString "ToName".toList
  let latency ← config.requiredInt "Latency".toList
  return ⟨deviceA, deviceB, nameA, nameB, latency.toUInt64.toNat⟩

/-- The connections made so far for each index of a device, and their number. -/
structure Wires where
  connectionSeen : ℕ → ℕ
  tempConSet : ℕ → List Connection

def Wires.new : Wires where
  connectionSeen := fun _ => 0
  tempConSet := fun _ => []

/-- A connection is pushed to the connections of an index. -/
def Wires.push (w : Wires) (i : ℕ) (c : Connection) : Wires :=
  { w with tempConSet := Function.update w.tempConSet i (w.tempConSet i ++ [c]) }

/-- One more connection of an index has been seen. -/
def Wires.see (w : Wires) (i : ℕ) : Wires :=
  { w with connectionSeen := Function.update w.connectionSeen i (w.connectionSeen i + 1) }

/-- The loop over the names of the devices: the last index of a name, after `found` before `i`. -/
def findDevice (name : Name) : List Name → ℕ → Option ℕ → Option ℕ
  | [], _, found => found
  | n :: names, i, found => findDevice name names (i + 1) (if n = name then some i else found)

/-- The index of a device that must be there. -/
def deviceIndex (names : List Name) (name : Name) : Except Fault ℕ :=
  (findDevice name names 0 none).elim (.error .assertion) .ok

/-- The device of an index. -/
def deviceAt (devices : List Device) (i : ℕ) : Except Fault Device :=
  (devices[i]?).elim (.error .assertion) .ok

/-- A turn of the loop over the descriptions: both directions of a connection are made. -/
def connect (devices : List Device) (names : List Name) (entry : ℕ) (d : ConnectionDescription)
    (w : Wires) : Except Fault Wires := do
  let fromDeviceID ← deviceIndex names d.deviceA
  let toDeviceID ← deviceIndex names d.deviceB
  check .assertion (fromDeviceID ≠ toDeviceID)
  let fromDevice ← deviceAt devices fromDeviceID
  let toDevice ← deviceAt devices toDeviceID
  let w' := w.push fromDeviceID
    ⟨d.nameA, fromDevice, toDevice, w.connectionSeen toDeviceID, d.latency, entry⟩
  let w' := w'.push toDeviceID
    ⟨d.nameB, toDevice, fromDevice, w.connectionSeen fromDeviceID, d.latency, entry⟩
  return (w'.see fromDeviceID).see toDeviceID

/-- The loop over the descriptions, from the given entry on. -/
def connectAll (devices : List Device) (names : List Name) : ℕ → List ConnectionDescription →
    Wires → Except Fault Wires
  | _, [], w => .ok w
  | entry, d :: descriptions, w => do
    let w ← connect devices names entry d w
    connectAll devices names (entry + 1) descriptions w

/-! ## Initialization -/

/-- `BaseMemDevice::Initialize`, and the test of what the class of the device does after it. -/
def initializeDevice (accepts : Device → ConfigNode F → List Connection → Bool)
    (config : ConfigNode F) (d : Device) (connections : List Connection) (m : MemorySystem) :
    Except Fault MemorySystem := do
  check .assertion (connections ≠ [])
  let _ ← config.requiredString "DeviceName".toList
  let _ ← config.requiredInt "DeviceID".toList
  check .assertion (accepts d config connections = true)
  return { m with
    deviceConnections :=
      Function.update m.deviceConnections d (m.deviceConnections d ++ connections) }

/-- The loop that initializes the devices, from the given index on. -/
def initializeDevices (accepts : Device → ConfigNode F → List Connection → Bool) (w : Wires) :
    ℕ → List (ConfigNode F × Device) → MemorySystem → Except Fault MemorySystem
  | _, [], m => .ok m
  | i, (config, d) :: rest, m => do
    let m ← initializeDevice accepts config d (w.tempConSet i) m
    initializeDevices accepts w (i + 1) rest m

/-- `MemorySystem::Initialize`. -/
def MemorySystem.initializeSystem (accepts : Device → ConfigNode F → List Connection → Bool)
    (config : ConfigNode F) (m : MemorySystem) : Except Fault MemorySystem := do
  check .assertion (config.isA .root = true)
  let devices := config.named "MemoryDevice".toList
  let connections := config.named "Connection".toList
  check .assertion (devices ≠ [])
  check .assertion (connections ≠ [])
  let (deviceNameSet, m) ← addDevices devices [] m
  let conDescs ← connections.mapM connectionDescription
  let w ← connectAll m.deviceSet deviceNameSet 0 conDescs .new
  let m ← initializeDevices accepts w 0 (devices.zip m.deviceSet) m
  check .assertion (m.interfaceDevices.keys = [])
  return { m with
    connectionSet := m.connectionSet ++ (List.range m.deviceSet.length).flatMap w.tempConSet }

/-- A memory system for which interface devices have been submitted and that has then been
initialized. -/
def start (accepts : Device → ConfigNode F → List Connection → Bool) (submitted : List Name)
    (config : ConfigNode F) : Except Fault MemorySystem := do
  let m ← submitted.foldlM MemorySystem.submitInterfaceDevice .new
  m.initializeSystem accepts config

end Sesc.Wiring
