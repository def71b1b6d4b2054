import Traceability.Anchoring.Runs
import Mathlib.Data.Fintype.Card

/-! The registry of anchored roots. The mapping, the list of roots and the counter describe one
set of records, and zero is the key that none of them has. -/
namespace Traceability.Anchoring
open Machine

@[simp] theorem isAnchored_iff {st : SupplyChainAnchoring} {r : Bytes32} :
    st.isAnchored r = true ↔ (st.anchorings r).merkleRoot ≠ 0 := decide_eq_true_iff

/-- The storage items agree with one another. -/
structure SupplyChainAnchoring.Consistent (st : SupplyChainAnchoring) : Prop where
  total : st.totalAnchorings.val = st.merkleRoots.length
  nodup : st.merkleRoots.Nodup
  listed : ∀ r, r ∈ st.merkleRoots ↔ st.isAnchored r = true
  key : ∀ r, st.isAnchored r = true → (st.anchorings r).merkleRoot = r
  positive : ∀ r ∈ st.merkleRoots, 0 < (st.anchorings r).eventCount
  range : ∀ r ∈ st.merkleRoots, (st.anchorings r).startBlock ≤ (st.anchorings r).endBlock

theorem consistent_construct (deployer : Address) : (construct deployer).Consistent where
  total := rfl
  nodup := List.nodup_nil
  listed r := by simp [construct, emptyRecord]
  key r h := by simp [construct, emptyRecord] at h
  positive := List.forall_mem_nil _
  range := List.forall_mem_nil _

namespace SupplyChainAnchoring
variable {st : SupplyChainAnchoring}

theorem anchorings_anchor_of_ne (msg : Message) (p : ReconciliationPayload) {r : Bytes32}
    (h : r ≠ p.merkleRoot) : (st.anchor msg p).anchorings r = st.anchorings r := by
  simp [h]

theorem isAnchored_anchor (msg : Message) {p : ReconciliationPayload} (hp : p.merkleRoot ≠ 0)
    (r : Bytes32) :
    (st.anchor msg p).isAnchored r = true ↔ r = p.merkleRoot ∨ st.isAnchored r = true := by
  by_cases hr : r = p.merkleRoot
  · subst hr
    simp [ReconciliationPayload.record, hp]
  · simp [hr]

namespace Consistent

theorem zero_notMem (h : st.Consistent) : 0 ∉ st.merkleRoots := by
  intro hmem
  have hanchored := (h.listed 0).mp hmem
  exact isAnchored_iff.mp hanchored (h.key 0 hanchored)

theorem key_eq_zero_or (h : st.Consistent) (r : Bytes32) :
    (st.anchorings r).merkleRoot = 0 ∨ (st.anchorings r).merkleRoot = r := by
  by_cases hr : (st.anchorings r).merkleRoot = 0
  · exact .inl hr
  · exact .inr (h.key r (isAnchored_iff.mpr hr))

/-- The counter cannot overflow: there are fewer nonzero roots than it can count. -/
theorem room (h : st.Consistent) {r : Bytes32} (hr : r ≠ 0) (hfresh : r ∉ st.merkleRoots) :
    st.totalAnchorings.val + 1 < 2 ^ 256 := by
  have hnodup : (0 :: r :: st.merkleRoots).Nodup :=
    List.nodup_cons.mpr ⟨by simp [hr.symm, h.zero_notMem], List.nodup_cons.mpr ⟨hfresh, h.nodup⟩⟩
  have hle := hnodup.length_le_card
  rw [Fintype.card_fin] at hle
  simp only [List.length_cons] at hle
  rw [h.total]
  omega

theorem anchor (h : st.Consistent) {msg : Message} {p : ReconciliationPayload}
    (hp : AcceptsPayload st msg.sender p) : (st.anchor msg p).Consistent := by
  have hfresh : p.merkleRoot ∉ st.merkleRoots := by
    rw [h.listed, hp.fresh]
    exact Bool.false_ne_true
  have hold : ∀ r ∈ st.merkleRoots, (st.anchor msg p).anchorings r = st.anchorings r :=
    fun r hr => anchorings_anchor_of_ne msg p fun heq => hfresh (heq ▸ hr)
  have hnew : (st.anchor msg p).anchorings p.merkleRoot = p.record msg := by simp
  constructor
  · have hval : (st.totalAnchorings + 1).val = st.totalAnchorings.val + 1 := by
      rw [Fin.val_add_one_of_lt']
      exact hp.room
    rw [anchor_totalAnchorings, hval, h.total, anchor_merkleRoots, List.length_append,
      List.length_singleton]
  · rw [anchor_merkleRoots, ← List.concat_eq_append]
    exact h.nodup.concat hfresh
  · intro r
    rw [isAnchored_anchor msg hp.nonzero, ← h.listed, anchor_merkleRoots, List.mem_append,
      List.mem_singleton, or_comm]
  · intro r hr
    rcases (isAnchored_anchor msg hp.nonzero r).mp hr with rfl | hr
    · rw [hnew]
      rfl
    · rw [hold r ((h.listed r).mpr hr), h.key r hr]
  · intro r hr
    rw [anchor_merkleRoots, List.mem_append, List.mem_singleton] at hr
    rcases hr with hr | rfl
    · rw [hold r hr]
      exact h.positive r hr
    · rw [hnew]
      exact hp.positive
  · intro r hr
    rw [anchor_merkleRoots, List.mem_append, List.mem_singleton] at hr
    rcases hr with hr | rfl
    · rw [hold r hr]
      exact h.range r hr
    · rw [hnew]
      exact hp.range

end Consistent
end SupplyChainAnchoring

theorem consistent_stateAfter (deployer : Address) (txs : List Transaction) :
    (stateAfter deployer txs).Consistent := by
  refine run_invariant _ (consistent_construct deployer) (fun st tx hst => ?_) txs
  refine step_rel (R := fun s t => s.Consistent → t.Consistent) (fun _ h => h) ?_ ?_ ?_ st tx hst
  · exact fun st msg p hp h => h.anchor hp
  · exact fun st _ _ h => ⟨h.total, h.nodup, h.listed, h.key, h.positive, h.range⟩
  · exact fun st _ _ h => ⟨h.total, h.nodup, h.listed, h.key, h.positive, h.range⟩

theorem isAnchored_anchorWindow {root : Bytes32} (h : root ≠ 0) :
    (stateAfter 1 [anchorWindow root]).isAnchored root = true := by
  rw [stateAfter, run_cons, dispatch_anchorWindow h, run_nil]
  exact (SupplyChainAnchoring.isAnchored_anchor _ h _).mpr (.inl rfl)

/-- No run reaches the overflow check of the counter. -/
theorem dispatch_ne_panic (deployer : Address) (txs : List Transaction) (tx : Transaction)
    (code : ℕ) : (dispatch tx (stateAfter deployer txs)).1 ≠ .error (.panic code) := by
  have hst := consistent_stateAfter deployer txs
  generalize stateAfter deployer txs = st at hst
  obtain ⟨msg, call⟩ := tx
  cases call with
  | anchorReconciliation p =>
    rw [dispatch_anchorReconciliation]
    split_ifs with ha hz hp hr hf hroom
    · simp
    · have hfresh : p.merkleRoot ∉ st.merkleRoots := by
        rw [hst.listed, hf]
        exact Bool.false_ne_true
      exact absurd (hst.room hz hfresh) hroom
    all_goals simp
  | authorizeSubmitter submitter =>
    rw [dispatch_authorizeSubmitter]
    split_ifs <;> simp
  | revokeSubmitter submitter =>
    rw [dispatch_revokeSubmitter]
    split_ifs <;> simp
  | transferOwnership newOwner =>
    rw [dispatch_transferOwnership]
    split_ifs <;> simp

section Views
variable {st : SupplyChainAnchoring}

theorem getAnchoring_reverts_iff {r : Bytes32} :
    (∃ reason, getAnchoring st r = .error reason) ↔ st.isAnchored r = false := by
  unfold getAnchoring
  cases st.isAnchored r <;> simp

theorem verifyMerkleProof_reverts_iff {keccak256 : Bytes → Bytes32} {r leaf : Bytes32}
    {proof : List Bytes32} :
    (∃ reason, verifyMerkleProof st keccak256 r proof leaf = .error reason) ↔
      st.isAnchored r = false := by
  unfold verifyMerkleProof
  cases st.isAnchored r <;> simp

theorem getStatistics_eq :
    getStatistics st = (st.totalAnchorings, st.merkleRoots.getLast?.getD 0,
      (st.merkleRoots.getLast?.map fun r => (st.anchorings r).timestamp).getD 0) := by
  unfold getStatistics
  split_ifs with h
  · rw [List.getLast?_eq_getElem?, List.getElem?_eq_getElem (by omega)]
    rfl
  · have hnil : st.merkleRoots = [] := List.length_eq_zero_iff.mp (by omega)
    rw [hnil]
    rfl

end Views

/-- Anchoring registry invariant, for every run and every storage it reaches. -/
theorem anchoring_registry (deployer : Address) (txs : List Transaction) :
    let st := stateAfter deployer txs
    st.totalAnchorings.val = st.merkleRoots.length ∧
    (0 ∉ st.merkleRoots ∧ st.merkleRoots.Nodup) ∧
    (∀ r, ((st.anchorings r).merkleRoot = 0 ∨ (st.anchorings r).merkleRoot = r) ∧
      ((st.anchorings r).merkleRoot ≠ 0 ↔ r ∈ st.merkleRoots) ∧
      ((∃ reason, getAnchoring st r = .error reason) ↔ r ∉ st.merkleRoots) ∧
      ∀ keccak256 proof leaf,
        (∃ reason, verifyMerkleProof st keccak256 r proof leaf = .error reason) ↔
          r ∉ st.merkleRoots) ∧
    (∀ r ∈ st.merkleRoots, 0 < (st.anchorings r).eventCount ∧
      (st.anchorings r).startBlock ≤ (st.anchorings r).endBlock) ∧
    (getStatistics st).1.val = st.merkleRoots.length ∧
    (getStatistics st).2.1 = st.merkleRoots.getLast?.getD 0 ∧
    (getStatistics st).2.2 =
      (st.merkleRoots.getLast?.map fun r => (st.anchorings r).timestamp).getD 0 := by
  intro st
  have hst : st.Consistent := consistent_stateAfter deployer txs
  have hunlisted : ∀ r, st.isAnchored r = false ↔ r ∉ st.merkleRoots := by
    intro r
    rw [hst.listed, Bool.not_eq_true]
  refine ⟨hst.total, ⟨hst.zero_notMem, hst.nodup⟩, fun r => ⟨hst.key_eq_zero_or r, ?_, ?_, ?_⟩,
    fun r hr => ⟨hst.positive r hr, hst.range r hr⟩, ?_⟩
  · rw [hst.listed, isAnchored_iff]
  · rw [getAnchoring_reverts_iff, hunlisted]
  · intro keccak256 proof leaf
    rw [verifyMerkleProof_reverts_iff, hunlisted]
  · rw [getStatistics_eq]
    exact ⟨hst.total, rfl, rfl⟩

end Traceability.Anchoring
