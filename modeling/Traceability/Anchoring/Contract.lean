import Traceability.Anchoring.Types
import Traceability.Machine.Programs

/-! The functions of the anchoring contract, statement by statement. A call that reverts
leaves the storage as it was, which is what its dispatch as a transaction does. -/
namespace Traceability.Anchoring
open Machine Bytes

abbrev ContractM := ExceptT Revert (StateM SupplyChainAnchoring)

def require (c : Bool) (reason : String) : ContractM Unit := ensure c (.error reason)

def emit (event : Event) : ContractM Unit := modify fun st => { st with log := st.log ++ [event] }

def onlyOwner (msg : Message) : ContractM Unit := do
  let st ← get
  require (decide (msg.sender = st.owner)) "Only owner can call this function"

def onlyAuthorized (msg : Message) : ContractM Unit := do
  let st ← get
  require (st.authorizedSubmitters msg.sender) "Caller not authorized to submit anchorings"

/-- Check if Merkle root has been anchored. -/
def SupplyChainAnchoring.isAnchored (st : SupplyChainAnchoring) (merkleRoot : Bytes32) : Bool :=
  decide ((st.anchorings merkleRoot).merkleRoot ≠ 0)

/-- `totalAnchorings++`, which panics instead of wrapping. -/
def incrementTotal : ContractM Unit := do
  let st ← get
  ensure (decide (st.totalAnchorings.val + 1 < 2 ^ 256)) (.panic 0x11)
  modify fun st => { st with totalAnchorings := st.totalAnchorings + 1 }

/-- Anchor Merkle root commitment to analytics chain (Algorithm 4, lines 9-16). -/
def anchorReconciliation (msg : Message) (payload : ReconciliationPayload) : ContractM Bool := do
  onlyAuthorized msg
  require (decide (payload.merkleRoot ≠ 0)) "Invalid Merkle root"
  require (decide (0 < payload.eventCount)) "Event count must be positive"
  require (decide (payload.startBlock ≤ payload.endBlock)) "Invalid block range"
  let st ← get
  require (!st.isAnchored payload.merkleRoot) "Merkle root already anchored"
  let record : AnchoringRecord :=
    { merkleRoot := payload.merkleRoot
      startBlock := payload.startBlock
      endBlock := payload.endBlock
      eventCount := payload.eventCount
      timestamp := payload.timestamp
      chainId := payload.chainId
      anchorBlock := msg.blockNumber
      submitter := msg.sender }
  modify fun st =>
    { st with anchorings := Function.update st.anchorings payload.merkleRoot record }
  modify fun st => { st with merkleRoots := st.merkleRoots ++ [payload.merkleRoot] }
  incrementTotal
  emit (.reconciliationAnchored payload.merkleRoot payload.startBlock payload.endBlock
    payload.eventCount payload.timestamp payload.chainId msg.sender)
  pure true

def authorizeSubmitter (msg : Message) (submitter : Address) : ContractM Unit := do
  onlyOwner msg
  modify fun st =>
    { st with authorizedSubmitters := Function.update st.authorizedSubmitters submitter true }
  emit (.submitterAuthorizationChanged submitter true)

def revokeSubmitter (msg : Message) (submitter : Address) : ContractM Unit := do
  onlyOwner msg
  modify fun st =>
    { st with authorizedSubmitters := Function.update st.authorizedSubmitters submitter false }
  emit (.submitterAuthorizationChanged submitter false)

def transferOwnership (msg : Message) (newOwner : Address) : ContractM Unit := do
  onlyOwner msg
  require (decide (newOwner ≠ 0)) "Invalid new owner"
  modify fun st => { st with owner := newOwner }

inductive Call where
  | anchorReconciliation (payload : ReconciliationPayload)
  | authorizeSubmitter (submitter : Address)
  | revokeSubmitter (submitter : Address)
  | transferOwnership (newOwner : Address)
  deriving DecidableEq

/-- What a call returns. -/
inductive ReturnValue where
  | nothing
  | success (value : Bool)
  deriving DecidableEq

/-- One call as a block executes it. -/
structure Transaction where
  msg : Message
  call : Call
  deriving DecidableEq

def Transaction.body (tx : Transaction) : ContractM ReturnValue :=
  match tx.call with
  | .anchorReconciliation payload => do
    let value ← Anchoring.anchorReconciliation tx.msg payload
    pure (.success value)
  | .authorizeSubmitter submitter => do
    Anchoring.authorizeSubmitter tx.msg submitter
    pure .nothing
  | .revokeSubmitter submitter => do
    Anchoring.revokeSubmitter tx.msg submitter
    pure .nothing
  | .transferOwnership newOwner => do
    Anchoring.transferOwnership tx.msg newOwner
    pure .nothing

abbrev Outcome := Except Revert ReturnValue

def dispatch (tx : Transaction) (st : SupplyChainAnchoring) : Outcome × SupplyChainAnchoring :=
  transactional tx.body st

section Views
variable (st : SupplyChainAnchoring)

/-- `abi.encodePacked` of two words. -/
def encodePacked (a b : Bytes32) : Bytes := bigEndian 32 a ++ bigEndian 32 b

/-- Verify Merkle proof against anchored root. -/
def verifyMerkleProof (keccak256 : Bytes → Bytes32) (root : Bytes32) (proof : List Bytes32)
    (leaf : Bytes32) : Except Revert Bool :=
  if st.isAnchored root then
    let computedHash := proof.foldl
      (fun computedHash proofElement =>
        if computedHash < proofElement then keccak256 (encodePacked computedHash proofElement)
        else keccak256 (encodePacked proofElement computedHash)) leaf
    .ok (decide (computedHash = root))
  else .error (.error "Merkle root not anchored")

/-- Get anchoring record for a Merkle root. -/
def getAnchoring (merkleRoot : Bytes32) : Except Revert AnchoringRecord :=
  if st.isAnchored merkleRoot then .ok (st.anchorings merkleRoot)
  else .error (.error "Merkle root not anchored")

/-- Get all anchored Merkle roots. -/
def getAllMerkleRoots : List Bytes32 := st.merkleRoots

/-- Get anchoring statistics: total count, latest root and latest timestamp. -/
def getStatistics : Uint256 × Bytes32 × Uint256 :=
  if h : 0 < st.merkleRoots.length then
    let latestRoot := st.merkleRoots[st.merkleRoots.length - 1]
    (st.totalAnchorings, latestRoot, (st.anchorings latestRoot).timestamp)
  else (st.totalAnchorings, 0, 0)

end Views

end Traceability.Anchoring
