import Traceability.Anchoring.Contract
import Mathlib.Tactic.Simps.Basic

/-! What a transaction can do to the contract: revert and change nothing, or make one of four
updates under the conditions its checks establish. -/
namespace Traceability.Anchoring
open Machine

def ReconciliationPayload.record (p : ReconciliationPayload) (msg : Message) : AnchoringRecord :=
  ⟨p.merkleRoot, p.startBlock, p.endBlock, p.eventCount, p.timestamp, p.chainId, msg.blockNumber,
    msg.sender⟩

@[simps]
def SupplyChainAnchoring.anchor (st : SupplyChainAnchoring) (msg : Message)
    (p : ReconciliationPayload) : SupplyChainAnchoring :=
  { st with
    anchorings := Function.update st.anchorings p.merkleRoot (p.record msg)
    merkleRoots := st.merkleRoots ++ [p.merkleRoot]
    totalAnchorings := st.totalAnchorings + 1
    log := st.log ++ [.reconciliationAnchored p.merkleRoot p.startBlock p.endBlock p.eventCount
      p.timestamp p.chainId msg.sender] }

@[simps]
def SupplyChainAnchoring.setSubmitter (st : SupplyChainAnchoring) (submitter : Address)
    (authorized : Bool) : SupplyChainAnchoring :=
  { st with
    authorizedSubmitters := Function.update st.authorizedSubmitters submitter authorized
    log := st.log ++ [.submitterAuthorizationChanged submitter authorized] }

@[simps]
def SupplyChainAnchoring.transfer (st : SupplyChainAnchoring) (newOwner : Address) :
    SupplyChainAnchoring :=
  { st with owner := newOwner }

/-- The checks of `anchorReconciliation`. -/
structure AcceptsPayload (st : SupplyChainAnchoring) (sender : Address)
    (p : ReconciliationPayload) : Prop where
  authorized : st.authorizedSubmitters sender = true
  nonzero : p.merkleRoot ≠ 0
  positive : 0 < p.eventCount
  range : p.startBlock ≤ p.endBlock
  fresh : st.isAnchored p.merkleRoot = false
  room : st.totalAnchorings.val + 1 < 2 ^ 256

section Equations
variable (msg : Message) (st : SupplyChainAnchoring)

theorem dispatch_anchorReconciliation (p : ReconciliationPayload) :
    dispatch ⟨msg, .anchorReconciliation p⟩ st =
      if st.authorizedSubmitters msg.sender then
        if p.merkleRoot ≠ 0 then
          if 0 < p.eventCount then
            if p.startBlock ≤ p.endBlock then
              if st.isAnchored p.merkleRoot = false then
                if st.totalAnchorings.val + 1 < 2 ^ 256 then
                  (.ok (.success true), st.anchor msg p)
                else (.error (.panic 0x11), st)
              else (.error (.error "Merkle root already anchored"), st)
            else (.error (.error "Invalid block range"), st)
          else (.error (.error "Event count must be positive"), st)
        else (.error (.error "Invalid Merkle root"), st)
      else (.error (.error "Caller not authorized to submit anchorings"), st) := by
  simp [dispatch, transactional, Transaction.body, anchorReconciliation, onlyAuthorized, require,
    incrementTotal, emit, SupplyChainAnchoring.anchor, ReconciliationPayload.record]

theorem dispatch_authorizeSubmitter (submitter : Address) :
    dispatch ⟨msg, .authorizeSubmitter submitter⟩ st =
      if msg.sender = st.owner then (.ok .nothing, st.setSubmitter submitter true)
      else (.error (.error "Only owner can call this function"), st) := by
  simp [dispatch, transactional, Transaction.body, authorizeSubmitter, onlyOwner, require, emit,
    SupplyChainAnchoring.setSubmitter]

theorem dispatch_revokeSubmitter (submitter : Address) :
    dispatch ⟨msg, .revokeSubmitter submitter⟩ st =
      if msg.sender = st.owner then (.ok .nothing, st.setSubmitter submitter false)
      else (.error (.error "Only owner can call this function"), st) := by
  simp [dispatch, transactional, Transaction.body, revokeSubmitter, onlyOwner, require, emit,
    SupplyChainAnchoring.setSubmitter]

theorem dispatch_transferOwnership (newOwner : Address) :
    dispatch ⟨msg, .transferOwnership newOwner⟩ st =
      if msg.sender = st.owner then
        if newOwner ≠ 0 then (.ok .nothing, st.transfer newOwner)
        else (.error (.error "Invalid new owner"), st)
      else (.error (.error "Only owner can call this function"), st) := by
  simp [dispatch, transactional, Transaction.body, transferOwnership, onlyOwner, require,
    SupplyChainAnchoring.transfer]

end Equations

/-- A payload that passes the checks is anchored. -/
theorem AcceptsPayload.dispatch_eq {st : SupplyChainAnchoring} {msg : Message}
    {p : ReconciliationPayload} (h : AcceptsPayload st msg.sender p) :
    dispatch ⟨msg, .anchorReconciliation p⟩ st = (.ok (.success true), st.anchor msg p) := by
  rw [dispatch_anchorReconciliation, if_pos h.authorized, if_pos h.nonzero, if_pos h.positive,
    if_pos h.range, if_pos h.fresh, if_pos h.room]

/-- Everything a transaction can do. -/
inductive Effect (tx : Transaction) (st : SupplyChainAnchoring) :
    Outcome × SupplyChainAnchoring → Prop
  | reverted (reason : Revert) : Effect tx st (.error reason, st)
  | anchored (p : ReconciliationPayload) (call : tx.call = .anchorReconciliation p)
      (accepts : AcceptsPayload st tx.msg.sender p) :
      Effect tx st (.ok (.success true), st.anchor tx.msg p)
  | authorized (submitter : Address) (call : tx.call = .authorizeSubmitter submitter)
      (owner : tx.msg.sender = st.owner) :
      Effect tx st (.ok .nothing, st.setSubmitter submitter true)
  | revoked (submitter : Address) (call : tx.call = .revokeSubmitter submitter)
      (owner : tx.msg.sender = st.owner) :
      Effect tx st (.ok .nothing, st.setSubmitter submitter false)
  | transferred (newOwner : Address) (call : tx.call = .transferOwnership newOwner)
      (owner : tx.msg.sender = st.owner) (nonzero : newOwner ≠ 0) :
      Effect tx st (.ok .nothing, st.transfer newOwner)

theorem dispatch_effect (tx : Transaction) (st : SupplyChainAnchoring) :
    Effect tx st (dispatch tx st) := by
  obtain ⟨msg, call⟩ := tx
  cases call with
  | anchorReconciliation p =>
    rw [dispatch_anchorReconciliation]
    split_ifs with ha hz hp hr hf hroom
    · exact .anchored p rfl ⟨ha, hz, hp, hr, hf, hroom⟩
    all_goals exact .reverted _
  | authorizeSubmitter submitter =>
    rw [dispatch_authorizeSubmitter]
    split_ifs with ho
    · exact .authorized submitter rfl ho
    · exact .reverted _
  | revokeSubmitter submitter =>
    rw [dispatch_revokeSubmitter]
    split_ifs with ho
    · exact .revoked submitter rfl ho
    · exact .reverted _
  | transferOwnership newOwner =>
    rw [dispatch_transferOwnership]
    split_ifs with ho hz
    · exact .transferred newOwner rfl ho hz
    all_goals exact .reverted _

/-- The conditions a call's checks put on its sender and the state before it. -/
def Enabled (tx : Transaction) (st : SupplyChainAnchoring) : Prop :=
  match tx.call with
  | .anchorReconciliation p => AcceptsPayload st tx.msg.sender p
  | .authorizeSubmitter _ => tx.msg.sender = st.owner
  | .revokeSubmitter _ => tx.msg.sender = st.owner
  | .transferOwnership newOwner => tx.msg.sender = st.owner ∧ newOwner ≠ 0

/-- A call whose checks hold does not revert. -/
theorem exists_ok_of_enabled {tx : Transaction} {st : SupplyChainAnchoring} (h : Enabled tx st) :
    ∃ value, (dispatch tx st).1 = .ok value := by
  obtain ⟨msg, call⟩ := tx
  cases call with
  | anchorReconciliation p =>
    have haccepts : AcceptsPayload st msg.sender p := h
    rw [haccepts.dispatch_eq]
    exact ⟨_, rfl⟩
  | authorizeSubmitter submitter =>
    have howner : msg.sender = st.owner := h
    rw [dispatch_authorizeSubmitter, if_pos howner]
    exact ⟨_, rfl⟩
  | revokeSubmitter submitter =>
    have howner : msg.sender = st.owner := h
    rw [dispatch_revokeSubmitter, if_pos howner]
    exact ⟨_, rfl⟩
  | transferOwnership newOwner =>
    obtain ⟨howner, hnonzero⟩ := h
    rw [dispatch_transferOwnership, if_pos howner, if_pos hnonzero]
    exact ⟨_, rfl⟩

/-- A call whose checks fail reverts, and a call that reverts changes nothing. -/
theorem dispatch_of_not_enabled {tx : Transaction} {st : SupplyChainAnchoring}
    (h : ¬ Enabled tx st) : ∃ reason, dispatch tx st = (.error reason, st) := by
  have heff := dispatch_effect tx st
  generalize dispatch tx st = out at heff
  unfold Enabled at h
  cases heff with
  | reverted reason => exact ⟨reason, rfl⟩
  | anchored p call accepts => rw [call] at h; exact absurd accepts h
  | authorized submitter call owner => rw [call] at h; exact absurd owner h
  | revoked submitter call owner => rw [call] at h; exact absurd owner h
  | transferred newOwner call owner nonzero =>
    rw [call] at h
    exact absurd ⟨owner, nonzero⟩ h

theorem dispatch_ok_iff {tx : Transaction} {st : SupplyChainAnchoring} :
    (∃ value, (dispatch tx st).1 = .ok value) ↔ Enabled tx st := by
  refine ⟨fun ⟨value, hvalue⟩ => ?_, exists_ok_of_enabled⟩
  by_contra hno
  obtain ⟨reason, hreason⟩ := dispatch_of_not_enabled hno
  rw [hreason] at hvalue
  cases hvalue

end Traceability.Anchoring
