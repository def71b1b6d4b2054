import Traceability.Bytes.LittleEndian

/-! Storage, payloads, events and errors of the anchoring contract. -/
namespace Traceability.Anchoring

/-- A `bytes32`, read as a big-endian number; the contract compares it as one. -/
abbrev Bytes32 := Fin (2 ^ 256)
abbrev Uint256 := Fin (2 ^ 256)
abbrev Address := Fin (2 ^ 160)

instance wordNeZero : NeZero (2 ^ 256) := ⟨(Nat.two_pow_pos 256).ne'⟩

instance addressNeZero : NeZero (2 ^ 160) := ⟨(Nat.two_pow_pos 160).ne'⟩

/-- Reconciliation payload (Algorithm 4, line 9). -/
structure ReconciliationPayload where
  merkleRoot : Bytes32
  startBlock : Uint256
  endBlock : Uint256
  eventCount : Uint256
  timestamp : Uint256
  chainId : Bytes
  deriving DecidableEq

/-- Reconciliation metadata stored on-chain. -/
structure AnchoringRecord where
  merkleRoot : Bytes32
  startBlock : Uint256
  endBlock : Uint256
  eventCount : Uint256
  timestamp : Uint256
  chainId : Bytes
  anchorBlock : Uint256
  submitter : Address
  deriving DecidableEq

/-- What a mapping holds under a key that was never written. -/
def emptyRecord : AnchoringRecord := ⟨0, 0, 0, 0, 0, [], 0, 0⟩

/-- Contract events. The failure notice is declared but never emitted. -/
inductive Event where
  | reconciliationAnchored (merkleRoot : Bytes32) (startBlock endBlock eventCount : Uint256)
      (timestamp : Uint256) (chainId : Bytes) (submitter : Address)
  | anchoringFailed (merkleRoot : Bytes32) (reason : String)
  | submitterAuthorizationChanged (submitter : Address) (authorized : Bool)
  deriving DecidableEq

/-- Why a call is reverted: a failed `require`, or a panic of checked arithmetic. -/
inductive Revert where
  | error (reason : String)
  | panic (code : ℕ)
  deriving DecidableEq

/-- The contract's storage together with the events it has emitted. -/
structure SupplyChainAnchoring where
  anchorings : Bytes32 → AnchoringRecord
  merkleRoots : List Bytes32
  totalAnchorings : Uint256
  authorizedSubmitters : Address → Bool
  owner : Address
  log : List Event

/-- What a transaction supplies to a call: `msg.sender` and `block.number`. -/
structure Message where
  sender : Address
  blockNumber : Uint256
  deriving DecidableEq

/-- The constructor: the deployer owns the contract and may submit to it. -/
def construct (deployer : Address) : SupplyChainAnchoring where
  anchorings _ := emptyRecord
  merkleRoots := []
  totalAnchorings := 0
  authorizedSubmitters := Function.update (fun _ => false) deployer true
  owner := deployer
  log := []

end Traceability.Anchoring
