import Traceability.Machine.Programs
import Traceability.Pallet.Encoding

/-! The three extrinsics, statement by statement, and their dispatch. A body keeps the
writes it made before an error; the dispatch layer rolls them back. -/
namespace Traceability.Pallet
open Machine

abbrev PalletM := ExceptT DispatchError (StateM Chain)

variable {AccountId : Type}

def ensureSigned : Origin AccountId → PalletM AccountId
  | .signed who => pure who
  | _ => throw .badOrigin

/-- `frame_system` drops events deposited in block zero. -/
def depositEvent (ctx : Context) (event : Event) : PalletM Unit :=
  if ctx.blockNumber = 0 then pure () else modify fun st => { st with log := st.log ++ [event] }

/-- Algorithm 1: device onboarding. -/
def onboardDevice (cfg : Config) (ctx : Context) (origin : Origin AccountId)
    (credential : DeviceCredential) : PalletM Unit := do
  let _ ← ensureSigned origin
  let message := encodeCredentialMessage credential
  ensure (cfg.ed25519Verify credential.signature message credential.publicKey)
    (.module .invalidCredentialSignature)
  ensure (validateCredentialSchema credential) (.module .invalidCredentialSchema)
  let st ← get
  ensure (!decide (credential.deviceId ∈ st.devices)) (.module .deviceAlreadyRegistered)
  let record : DeviceRecord :=
    { deviceId := credential.deviceId
      publicKey := credential.publicKey
      producer := credential.producer
      metadata := credential.metadata
      registeredAt := ctx.now
      status := .active }
  modify fun st => { st with devices := st.devices.insert credential.deviceId record }
  modify fun st => { st with deviceCount := st.deviceCount + 1 }
  depositEvent ctx
    (.deviceRegistered credential.deviceId credential.publicKey credential.producer)

/-- Algorithm 2: IoT event admission. The subtraction is on `u64`; the comparison before
it is what keeps it from wrapping. -/
def processEvent (cfg : Config) (ctx : Context) (origin : Origin AccountId)
    (event : IoTEvent) : PalletM Unit := do
  let _ ← ensureSigned origin
  ensure (validateEventSchema event) (.module .invalidEventSchema)
  let currentTime := ctx.now
  let freshnessWindow := cfg.timestampFreshnessWindow
  ensure (decide (event.timestamp ≤ currentTime) &&
    decide (currentTime - event.timestamp ≤ freshnessWindow)) (.module .staleTimestamp)
  let st ← get
  let device ← propagate (okOr (.module .deviceNotRegistered) (st.devices.lookup event.deviceId))
  ensure (decide (device.status = .active)) (.module .deviceNotActive)
  let message := encodeEventMessage event
  ensure (cfg.ed25519Verify event.signature message device.publicKey)
    (.module .invalidEventSignature)
  let eventHash := cfg.hashOf event
  modify fun st => { st with events := st.events.insert eventHash event }
  modify fun st => { st with eventCount := st.eventCount + 1 }
  depositEvent ctx (.eventProcessed event.deviceId eventHash event.eventType event.timestamp)

def ascii (s : String) : Bytes := s.toList.map fun c => UInt8.ofNat c.toNat

/-- Policy lookup and evaluation. The batch state is an argument the policy ignores. -/
def lookupAndEvaluatePolicy (eventType : EventType) (role : Bytes) (_state : BatchState) :
    Except DispatchError GovernanceOutcome :=
  match eventType with
  | .custodyTransfer =>
    if role = ascii "Producer" ∨ role = ascii "Logistics" ∨ role = ascii "Retailer" then
      .ok .approved
    else .ok .rejected
  | .qualityInspection => if role = ascii "Regulator" then .ok .approved else .ok .rejected
  | _ => .ok .approved

/-- Finite state machine transition (Algorithm 3). -/
def stateTransition : BatchState → EventType → Except DispatchError BatchState
  | .harvested, .custodyTransfer => .ok .packaged
  | .packaged, .custodyTransfer => .ok .inTransit
  | .inTransit, .custodyTransfer => .ok .delivered
  | .delivered, .qualityInspection => .ok .inspected
  | _, _ => .error (.module .invalidStateTransition)

/-- The state of a batch, where a missing key stands for a harvested batch. -/
def Chain.currentState (st : Chain) (batchId : Bytes) : BatchState :=
  (st.batches.lookup batchId).getD .harvested

/-- Algorithm 3: governance evaluation and state transition. -/
def evaluateGovernance (ctx : Context) (origin : Origin AccountId) (batchId : Bytes)
    (eventType : EventType) (role : Bytes) : PalletM Unit := do
  let _ ← ensureSigned origin
  let st ← get
  let currentState := st.currentState batchId
  let policyOutcome ← propagate (lookupAndEvaluatePolicy eventType role currentState)
  match policyOutcome with
  | .approved => do
    let nextState ← propagate (stateTransition currentState eventType)
    modify fun st => { st with batches := st.batches.insert batchId nextState }
    modify fun st => { st with governanceCheckpoints := st.governanceCheckpoints + 1 }
    depositEvent ctx (.governanceEvaluated batchId .approved (some nextState))
  | .rejected => do
    modify fun st => { st with governanceCheckpoints := st.governanceCheckpoints + 1 }
    depositEvent ctx (.governanceEvaluated batchId .rejected none)
    throw (.module .policyConditionsNotMet)

inductive Call where
  | onboardDevice (credential : DeviceCredential)
  | processEvent (event : IoTEvent)
  | evaluateGovernance (batchId : Bytes) (eventType : EventType) (role : Bytes)
  deriving DecidableEq

/-- One call as a block executes it. -/
structure Extrinsic (AccountId : Type) where
  ctx : Context
  origin : Origin AccountId
  call : Call

def Extrinsic.body (cfg : Config) (x : Extrinsic AccountId) : PalletM Unit :=
  match x.call with
  | .onboardDevice credential => Pallet.onboardDevice cfg x.ctx x.origin credential
  | .processEvent event => Pallet.processEvent cfg x.ctx x.origin event
  | .evaluateGovernance batchId eventType role =>
    Pallet.evaluateGovernance x.ctx x.origin batchId eventType role

/-- FRAME dispatches every call as a transaction. -/
def dispatch (cfg : Config) (x : Extrinsic AccountId) (st : Chain) : DispatchResult × Chain :=
  transactional (x.body cfg) st

end Traceability.Pallet
