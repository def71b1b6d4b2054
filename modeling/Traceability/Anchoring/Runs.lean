import Traceability.Machine.Run
import Traceability.Anchoring.Effects

/-! Runs of the contract after its construction. -/
namespace Traceability.Anchoring
open Machine

/-- A transaction with its outcome and the storage before and after it. -/
abbrev Executed := Entry SupplyChainAnchoring Transaction Outcome

abbrev stateAfter (deployer : Address) (txs : List Transaction) : SupplyChainAnchoring :=
  run dispatch (construct deployer) txs

abbrev historyOf (deployer : Address) (txs : List Transaction) : List Executed :=
  history dispatch (construct deployer) txs

/-- Induction along a run, one case for each thing a transaction can do. -/
theorem state_induction {deployer : Address} {P : List Executed → SupplyChainAnchoring → Prop}
    (start : P [] (construct deployer))
    (reverted : ∀ h st tx reason, P h st → P (h ++ [⟨st, tx, .error reason, st⟩]) st)
    (anchored : ∀ h st msg p, AcceptsPayload st msg.sender p → P h st →
      P (h ++ [⟨st, ⟨msg, .anchorReconciliation p⟩, .ok (.success true), st.anchor msg p⟩])
        (st.anchor msg p))
    (authorized : ∀ h st msg submitter, msg.sender = st.owner → P h st →
      P (h ++ [⟨st, ⟨msg, .authorizeSubmitter submitter⟩, .ok .nothing,
        st.setSubmitter submitter true⟩]) (st.setSubmitter submitter true))
    (revoked : ∀ h st msg submitter, msg.sender = st.owner → P h st →
      P (h ++ [⟨st, ⟨msg, .revokeSubmitter submitter⟩, .ok .nothing,
        st.setSubmitter submitter false⟩]) (st.setSubmitter submitter false))
    (transferred : ∀ h st msg newOwner, msg.sender = st.owner → newOwner ≠ 0 → P h st →
      P (h ++ [⟨st, ⟨msg, .transferOwnership newOwner⟩, .ok .nothing, st.transfer newOwner⟩])
        (st.transfer newOwner))
    (txs : List Transaction) : P (historyOf deployer txs) (stateAfter deployer txs) := by
  refine history_induction _ start (fun pre tx hp => ?_) txs
  have heff := dispatch_effect tx (stateAfter deployer pre)
  unfold execute
  generalize dispatch tx (stateAfter deployer pre) = out at heff
  obtain ⟨msg, call⟩ := tx
  cases heff with
  | reverted reason => exact reverted _ _ _ reason hp
  | anchored p hcall accepts =>
    cases hcall
    exact anchored _ _ msg p accepts hp
  | authorized submitter hcall owner =>
    cases hcall
    exact authorized _ _ msg submitter owner hp
  | revoked submitter hcall owner =>
    cases hcall
    exact revoked _ _ msg submitter owner hp
  | transferred newOwner hcall owner nonzero =>
    cases hcall
    exact transferred _ _ msg newOwner owner nonzero hp

/-- The update of a step is one of the four, or none. -/
theorem step_rel {R : SupplyChainAnchoring → SupplyChainAnchoring → Prop} (refl : ∀ s, R s s)
    (anchored : ∀ st msg p, AcceptsPayload st msg.sender p → R st (st.anchor msg p))
    (set : ∀ st submitter authorized, R st (st.setSubmitter submitter authorized))
    (transferred : ∀ st newOwner, newOwner ≠ 0 → R st (st.transfer newOwner))
    (st : SupplyChainAnchoring) (tx : Transaction) : R st (dispatch tx st).2 := by
  have heff := dispatch_effect tx st
  generalize dispatch tx st = out at heff
  cases heff with
  | reverted reason => exact refl st
  | anchored p _ accepts => exact anchored st _ p accepts
  | authorized submitter _ _ => exact set st submitter true
  | revoked submitter _ _ => exact set st submitter false
  | transferred newOwner _ _ nonzero => exact transferred st newOwner nonzero

/-- A reconciliation window of the operational chain. -/
def window (root : Bytes32) : ReconciliationPayload where
  merkleRoot := root
  startBlock := 1000
  endBlock := 1500
  eventCount := 2
  timestamp := 1700151200
  chainId := "substrate-operational-01".toList.map fun c => UInt8.ofNat c.toNat

/-- Its anchoring by the deployer, address one, in block seven. -/
def anchorWindow (root : Bytes32) : Transaction := ⟨⟨1, 7⟩, .anchorReconciliation (window root)⟩

theorem acceptsPayload_window {root : Bytes32} (h : root ≠ 0) :
    AcceptsPayload (construct 1) 1 (window root) where
  authorized := by simp [construct]
  nonzero := h
  positive := (by decide : (0 : Uint256) < 2)
  range := (by decide : (1000 : Uint256) ≤ 1500)
  fresh := by simp [SupplyChainAnchoring.isAnchored, construct, emptyRecord]
  room := by decide

theorem dispatch_anchorWindow {root : Bytes32} (h : root ≠ 0) :
    dispatch (anchorWindow root) (construct 1) =
      (.ok (.success true), (construct 1).anchor ⟨1, 7⟩ (window root)) := by
  have haccepts : AcceptsPayload (construct 1) (Message.sender ⟨1, 7⟩) (window root) :=
    acceptsPayload_window h
  exact haccepts.dispatch_eq

end Traceability.Anchoring
