import Mathlib.Logic.Function.Basic
import Sesc.Devices.PerfectVersioning
import Sesc.Lib.Check
import Sesc.Lib.Machine

/-!
# The transfers of the devices

The devices of the transactional memory may ask for accesses of their own.  In each cycle a processor
asks `TMInterface` for these transfers and hands them to the memory system; the interface remembers, for
the address of every accepted transfer, which device has asked for it, until the access is completed.
-/

namespace Sesc.Devices

open Lib

inductive Device
  | collisionDetection
  | collisionManager
  | versioning
deriving DecidableEq, Repr

structure TransferInfo where
  isRead : Bool
  isRequired : Bool
  address : VAddr
  transferSize : ℕ
deriving DecidableEq, Repr

/-- The transfer methods of a device with the states `σ`. -/
structure TransferDevice (σ : Type) where
  hasTransfers : Cpu → σ → Except Fault (Bool × σ)
  getTransferInfo : σ → Except Fault (TransferInfo × σ)
  acceptTransfer : σ → Except Fault σ
  denyTransfer : σ → Except Fault σ
  confirmTransferCompleted : Cpu → Bool → VAddr → σ → Except Fault σ

/-- A transfer that a device has asked for: the processor that hands it over, with the arguments of its
callback. -/
structure Transfer where
  device : Device
  cpuID : Cpu
  isRead : Bool
  address : VAddr
deriving DecidableEq, Repr

/-- The interface with its devices, and the accesses of the memory system. -/
structure TMInterface (σ : Device → Type) where
  devices : ∀ d, σ d
  deviceTransfering : Option Device
  activeAddr : VAddr
  inProgressTransfer : VAddr → Option Device
  /-- The transfer that a processor is handing to the memory system. -/
  handed : Option Transfer
  accepted : List Transfer
  /-- The accepted transfers whose accesses are not completed. -/
  outstanding : List Transfer
  /-- The calls of `ConfirmTransferCompleted` of the devices. -/
  confirmed : List Transfer

inductive TransferEvent (σ : Device → Type)
  /-- A processor asks for a transfer. -/
  | request (cpuID : Cpu)
  /-- The memory system takes the transfer. -/
  | accept
  | deny
  /-- An outstanding access is completed. -/
  | complete (k : ℕ)
  /-- Any other method of a device changes its state. -/
  | observe (d : Device) (x : σ d)

namespace TMInterface

variable {σ : Device → Type} (D : ∀ d, TransferDevice (σ d)) (s : TMInterface σ)

def setDevice (d : Device) (x : σ d) : TMInterface σ :=
  { s with devices := Function.update s.devices d x }

/-- A branch of `HasTransfers`. -/
def askDevice (d : Device) (cpuID : Cpu) : Except Fault (Bool × TMInterface σ) := do
  let (has, x) ← (D d).hasTransfers cpuID (s.devices d)
  let s := s.setDevice d x
  return (has, if has then { s with deviceTransfering := some d } else s)

def hasTransfers (cpuID : Cpu) : Except Fault (Bool × TMInterface σ) := do
  let (has, s) ← s.askDevice D .collisionDetection cpuID
  if has then return (true, s)
  let (has, s) ← s.askDevice D .collisionManager cpuID
  if has then return (true, s)
  s.askDevice D .versioning cpuID

def getTransferInfo : Except Fault (TransferInfo × TMInterface σ) := do
  let d ← s.deviceTransfering.elim (.error .assertion) .ok
  let (info, x) ← (D d).getTransferInfo (s.devices d)
  return (info, { s.setDevice d x with activeAddr := info.address })

/-- The `insert` of a map leaves an entry that it finds as it is. -/
def insertInProgress (m : VAddr → Option Device) (addr : VAddr) (d : Device) :
    VAddr → Option Device :=
  if (m addr).isSome then m else Function.update m addr (some d)

def acceptTransfer : Except Fault (TMInterface σ) := do
  let d ← s.deviceTransfering.elim (.error .assertion) .ok
  let x ← (D d).acceptTransfer (s.devices d)
  return { s.setDevice d x with
    inProgressTransfer := insertInProgress s.inProgressTransfer s.activeAddr d
    deviceTransfering := none
    activeAddr := 0 }

def denyTransfer : Except Fault (TMInterface σ) := do
  let d ← s.deviceTransfering.elim (.error .assertion) .ok
  let x ← (D d).denyTransfer (s.devices d)
  return { s.setDevice d x with deviceTransfering := none, activeAddr := 0 }

def confirmTransferCompleted (cpuID : Cpu) (isRead : Bool) (address : VAddr) :
    Except Fault (TMInterface σ) := do
  let d ← (s.inProgressTransfer address).elim (.error .assertion) .ok
  let x ← (D d).confirmTransferCompleted cpuID isRead address (s.devices d)
  return { s.setDevice d x with
    inProgressTransfer := Function.update s.inProgressTransfer address none
    confirmed := s.confirmed ++ [⟨d, cpuID, isRead, address⟩] }

def act : TransferEvent σ → Except Fault (TMInterface σ)
  | .request cpuID => do
    check .noSuchEvent (s.handed = none)
    let (has, s) ← s.hasTransfers D cpuID
    if has then
      let (info, s') ← s.getTransferInfo D
      return { s' with
        handed := s.deviceTransfering.map fun d => ⟨d, cpuID, info.isRead, info.address⟩ }
    else return s
  | .accept => do
    let t ← s.handed.elim (.error .noSuchEvent) .ok
    let s ← s.acceptTransfer D
    return { s with
      handed := none
      accepted := s.accepted ++ [t]
      outstanding := s.outstanding ++ [t] }
  | .deny => do
    let _ ← s.handed.elim (.error .noSuchEvent) .ok
    let s ← s.denyTransfer D
    return { s with handed := none }
  | .complete k => do
    let t ← s.outstanding[k]?.elim (.error .noSuchEvent) .ok
    let s ← s.confirmTransferCompleted D t.cpuID t.isRead t.address
    return { s with outstanding := s.outstanding.eraseIdx k }
  | .observe d x => .ok (s.setDevice d x)

end TMInterface

/-- The interface with devices in given states. -/
def transfers {σ : Device → Type} (D : ∀ d, TransferDevice (σ d)) (x : ∀ d, σ d) :
    Machine (TMInterface σ) (TransferEvent σ) Fault where
  init :=
    { devices := x
      deviceTransfering := none
      activeAddr := 0
      inProgressTransfer := fun _ => none
      handed := none
      accepted := []
      outstanding := []
      confirmed := [] }
  step s e := s.act D e

/-- The methods of `PerfectVersioning`. -/
def versioningDevice (P : VersioningParams) : TransferDevice PerfectVersioning where
  hasTransfers cpuID s := s.hasTransfers cpuID
  getTransferInfo s := do
    check .assertion P.transferEnabled
    let cpu ← s.currentCpu.elim (.error .assertion) .ok
    let t ← (s.necessaryTransfers cpu).head?.elim (.error .assertion) .ok
    return (⟨t.isRead, true, t.address, P.lineSize⟩, s)
  acceptTransfer s := s.acceptTransfer P
  denyTransfer s := s.denyTransfer P
  confirmTransferCompleted _ _ _ s := .ok s

end Sesc.Devices
