import Traceability.Anchoring.Registry

/-! Anchored records are never changed. The list of roots only grows, and what is stored under
an anchored root stays. -/
namespace Traceability.Anchoring
open Machine

/-- The later storage keeps every record and the order of the roots. -/
structure Extends (st st' : SupplyChainAnchoring) : Prop where
  roots : st.merkleRoots <+: st'.merkleRoots
  records : ∀ r, st.isAnchored r = true → st'.anchorings r = st.anchorings r

namespace Extends
variable {s t u : SupplyChainAnchoring}

theorem refl (s : SupplyChainAnchoring) : Extends s s := ⟨List.prefix_refl _, fun _ _ => rfl⟩

theorem isAnchored (h : Extends s t) {r : Bytes32} (hr : s.isAnchored r = true) :
    t.isAnchored r = true := by
  rwa [isAnchored_iff, h.records r hr, ← isAnchored_iff]

theorem trans (h : Extends s t) (h' : Extends t u) : Extends s u :=
  ⟨h.roots.trans h'.roots, fun r hr => by rw [h'.records r (h.isAnchored hr), h.records r hr]⟩

end Extends

/-- An accepted payload has a new root, so no record is overwritten. -/
theorem extends_anchor {st : SupplyChainAnchoring} {msg : Message} {p : ReconciliationPayload}
    (hp : AcceptsPayload st msg.sender p) : Extends st (st.anchor msg p) := by
  refine ⟨List.prefix_append _ _, fun r hr => ?_⟩
  apply SupplyChainAnchoring.anchorings_anchor_of_ne msg p
  intro heq
  rw [heq, hp.fresh] at hr
  exact Bool.false_ne_true hr

theorem extends_run (st : SupplyChainAnchoring) (txs : List Transaction) :
    Extends st (run dispatch st txs) := by
  refine run_rel _ Extends.refl Extends.trans (step_rel Extends.refl ?_ ?_ ?_) st txs
  · exact fun _ _ _ hp => extends_anchor hp
  · exact fun st _ _ => ⟨List.prefix_refl _, fun _ _ => rfl⟩
  · exact fun st _ _ => ⟨List.prefix_refl _, fun _ _ => rfl⟩

section Views
variable {st st' : SupplyChainAnchoring} {r : Bytes32}

theorem getAnchoring_of_extends (h : Extends st st') (hr : st.isAnchored r = true) :
    getAnchoring st' r = getAnchoring st r := by
  unfold getAnchoring
  rw [if_pos hr, if_pos (h.isAnchored hr), h.records r hr]

/-- Verification looks at the storage only to see that the root is anchored. -/
theorem verifyMerkleProof_congr (h : st.isAnchored r = st'.isAnchored r)
    (keccak256 : Bytes → Bytes32) (proof : List Bytes32) (leaf : Bytes32) :
    verifyMerkleProof st keccak256 r proof leaf = verifyMerkleProof st' keccak256 r proof leaf := by
  unfold verifyMerkleProof
  rw [h]

theorem dispatch_anchorReconciliation_of_isAnchored {p : ReconciliationPayload}
    (h : st.isAnchored p.merkleRoot = true) (msg : Message) :
    ∃ reason, dispatch ⟨msg, .anchorReconciliation p⟩ st = (.error reason, st) := by
  apply dispatch_of_not_enabled
  intro henabled
  have haccepts : AcceptsPayload st msg.sender p := henabled
  exact Bool.false_ne_true (haccepts.fresh.symm.trans h)

end Views

/-- A successful anchoring stores the payload, the block and the sender. -/
theorem dispatch_anchorReconciliation_ok {msg : Message} {p : ReconciliationPayload}
    {st : SupplyChainAnchoring} {value : ReturnValue}
    (h : (dispatch ⟨msg, .anchorReconciliation p⟩ st).1 = .ok value) :
    AcceptsPayload st msg.sender p ∧
      (dispatch ⟨msg, .anchorReconciliation p⟩ st).2 = st.anchor msg p := by
  have haccepts : AcceptsPayload st msg.sender p := dispatch_ok_iff.mp ⟨value, h⟩
  exact ⟨haccepts, congrArg Prod.snd haccepts.dispatch_eq⟩

/-- Anchored records are immutable: whatever follows a successful anchoring, its record, its
place in the list and every verification against its root stay, and the root stays taken. -/
theorem anchored_record_immutable (deployer : Address) (txs : List Transaction) (msg : Message)
    (payload : ReconciliationPayload)
    (hok : (dispatch ⟨msg, .anchorReconciliation payload⟩ (stateAfter deployer txs)).1 =
      .ok (.success true)) (later : List Transaction) :
    let anchoring : Transaction := ⟨msg, .anchorReconciliation payload⟩
    let st := stateAfter deployer (txs ++ [anchoring])
    let st' := stateAfter deployer (txs ++ anchoring :: later)
    getAnchoring st' payload.merkleRoot = .ok
      { merkleRoot := payload.merkleRoot, startBlock := payload.startBlock
        endBlock := payload.endBlock, eventCount := payload.eventCount
        timestamp := payload.timestamp, chainId := payload.chainId
        anchorBlock := msg.blockNumber, submitter := msg.sender } ∧
    getAllMerkleRoots st <+: getAllMerkleRoots st' ∧
    (∀ msg' payload', payload'.merkleRoot = payload.merkleRoot →
      ∃ reason, dispatch ⟨msg', .anchorReconciliation payload'⟩ st' = (.error reason, st')) ∧
    ∀ keccak256 proof leaf, verifyMerkleProof st' keccak256 payload.merkleRoot proof leaf =
      verifyMerkleProof st keccak256 payload.merkleRoot proof leaf := by
  intro anchoring st st'
  obtain ⟨haccepts, hafter⟩ := dispatch_anchorReconciliation_ok hok
  have hst : st = (stateAfter deployer txs).anchor msg payload := by
    rw [← hafter]
    exact run_append _ _ _ _
  have hst' : st' = run dispatch st later := by
    have hsplit : txs ++ anchoring :: later = txs ++ [anchoring] ++ later := by simp
    exact (congrArg (stateAfter deployer) hsplit).trans (run_append _ _ _ _)
  have hextends : Extends st st' := hst' ▸ extends_run st later
  have hanchored : st.isAnchored payload.merkleRoot = true := by
    rw [hst]
    exact (SupplyChainAnchoring.isAnchored_anchor msg haccepts.nonzero _).mpr (.inl rfl)
  refine ⟨?_, hextends.roots, fun msg' payload' heq => ?_, fun keccak256 proof leaf => ?_⟩
  · rw [getAnchoring_of_extends hextends hanchored, getAnchoring, if_pos hanchored, hst]
    simp [ReconciliationPayload.record]
  · exact dispatch_anchorReconciliation_of_isAnchored (heq ▸ hextends.isAnchored hanchored) msg'
  · exact verifyMerkleProof_congr ((hextends.isAnchored hanchored).trans hanchored.symm) _ _ _

/-- The deployer anchors root five, then loses its permission and hands the contract over. -/
theorem anchored_record_immutable_window :
    getAnchoring (stateAfter 1 [anchorWindow 5, ⟨⟨1, 8⟩, .revokeSubmitter 1⟩,
      ⟨⟨1, 9⟩, .transferOwnership 2⟩]) 5 = .ok ((window 5).record ⟨1, 7⟩) :=
  (anchored_record_immutable 1 [] ⟨1, 7⟩ (window 5)
    (congrArg Prod.fst (dispatch_anchorWindow (by decide)))
    [⟨⟨1, 8⟩, .revokeSubmitter 1⟩, ⟨⟨1, 9⟩, .transferOwnership 2⟩]).1

end Traceability.Anchoring
