import Traceability.Bytes.LittleEndian
import Mathlib.Data.Finmap

/-! Domain types, storage items, events and errors of the traceability pallet. -/
namespace Traceability.Pallet

abbrev Public := Vector UInt8 32
abbrev Signature := Vector UInt8 64
abbrev H256 := Vector UInt8 32

/-- Device credential for onboarding (Algorithm 1). -/
structure DeviceCredential where
  deviceId : Bytes
  publicKey : Public
  producer : Bytes
  metadata : Bytes
  signature : Signature
  deriving DecidableEq

inductive DeviceStatus where
  | active
  | suspended
  | revoked
  deriving DecidableEq

/-- Registered device record. -/
structure DeviceRecord where
  deviceId : Bytes
  publicKey : Public
  producer : Bytes
  metadata : Bytes
  registeredAt : UInt64
  status : DeviceStatus
  deriving DecidableEq

inductive EventType where
  | temperature
  | humidity
  | gps
  | custodyTransfer
  | qualityInspection
  deriving DecidableEq

/-- IoT measurement event (Algorithm 2). -/
structure IoTEvent where
  deviceId : Bytes
  timestamp : UInt64
  eventType : EventType
  payload : Bytes
  signature : Signature
  deriving DecidableEq

/-- Batch state for custody tracking (Algorithm 3). -/
inductive BatchState where
  | harvested
  | packaged
  | inTransit
  | delivered
  | inspected
  deriving DecidableEq

inductive GovernanceOutcome where
  | approved
  | rejected
  deriving DecidableEq

/-- Runtime events. The pallet never constructs the two failure notices. -/
inductive Event where
  | deviceRegistered (deviceId : Bytes) (publicKey : Public) (producer : Bytes)
  | eventProcessed (deviceId : Bytes) (eventHash : H256) (eventType : EventType)
      (timestamp : UInt64)
  | governanceEvaluated (batchId : Bytes) (outcome : GovernanceOutcome)
      (newState : Option BatchState)
  | signatureVerificationFailed (deviceId : Bytes)
  | timestampStale (deviceId : Bytes) (eventTimestamp currentTime : UInt64)
  deriving DecidableEq

inductive Error where
  | invalidCredentialSignature
  | invalidCredentialSchema
  | deviceNotRegistered
  | invalidEventSignature
  | staleTimestamp
  | invalidEventSchema
  | deviceAlreadyRegistered
  | policyConditionsNotMet
  | invalidStateTransition
  | deviceNotActive
  deriving DecidableEq

inductive DispatchError where
  | badOrigin
  | module (error : Error)
  deriving DecidableEq

instance : Coe Error DispatchError := ⟨.module⟩

abbrev DispatchResult := Except DispatchError Unit

inductive Origin (AccountId : Type) where
  | root
  | signed (who : AccountId)
  | none
  deriving DecidableEq

/-- What the runtime fixes for the pallet: the freshness window and the two host
functions, Ed25519 verification and the BlakeTwo256 hash of a SCALE-encoded event. -/
structure Config where
  timestampFreshnessWindow : UInt64
  ed25519Verify : Signature → Bytes → Public → Bool
  hashOf : IoTEvent → H256

/-- What the executing block supplies to a call. Extrinsics run in blocks numbered from
one; `now` is `T::TimeProvider::now().as_secs()`. -/
structure Context where
  blockNumber : ℕ
  blockNumber_pos : 0 < blockNumber
  now : UInt64

abbrev StorageMap (K V : Type) := Finmap fun _ : K => V

/-- The pallet's storage items together with the events deposited over all blocks. -/
structure Chain where
  devices : StorageMap Bytes DeviceRecord
  events : StorageMap H256 IoTEvent
  eventCount : UInt64
  deviceCount : UInt64
  batches : StorageMap Bytes BatchState
  governanceCheckpoints : UInt64
  log : List Event

/-- Empty storage. -/
def genesis : Chain := ⟨∅, ∅, 0, 0, ∅, 0, []⟩

end Traceability.Pallet
