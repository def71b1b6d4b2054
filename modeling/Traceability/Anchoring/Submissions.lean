import Traceability.Anchoring.Authority
import Traceability.Anchoring.Immutability
import Traceability.Anchoring.Reordering

/-! What gets through. Whether a call succeeds is decided by the successful calls before it. Of
reconciliations that arrive in any order, from any senders and more than once, each root that
was entitled to a record gets one, and the failures in between do no harm. -/
namespace Traceability.Anchoring
open Machine

/-- The root that a successful call anchors. -/
def anchoredRoot (a : Executed) : Option Bytes32 :=
  match a.input.call, a.output with
  | .anchorReconciliation p, .ok _ => some p.merkleRoot
  | _, _ => none

/-- The checks that look at nothing but the payload. -/
structure ReconciliationPayload.WellFormed (p : ReconciliationPayload) : Prop where
  nonzero : p.merkleRoot ≠ 0
  positive : 0 < p.eventCount
  range : p.startBlock ≤ p.endBlock

/-- What the calls so far entitle a sender to. -/
def Entitled (deployer : Address) (h : List Executed) (tx : Transaction) : Prop :=
  match tx.call with
  | .anchorReconciliation p => HoldsPermission deployer h tx.msg.sender ∧ p.WellFormed ∧
      ∀ a ∈ h, anchoredRoot a ≠ some p.merkleRoot
  | .authorizeSubmitter _ => tx.msg.sender = ownerAfter deployer h
  | .revokeSubmitter _ => tx.msg.sender = ownerAfter deployer h
  | .transferOwnership newOwner => tx.msg.sender = ownerAfter deployer h ∧ newOwner ≠ 0

theorem anchoredRoot_error (st st' : SupplyChainAnchoring) (tx : Transaction) (reason : Revert) :
    anchoredRoot ⟨st, tx, .error reason, st'⟩ = none := by
  obtain ⟨_, call⟩ := tx
  cases call <;> rfl

/-- An entry that anchors nothing leaves the anchored roots of a history alone. -/
theorem exists_anchoredRoot_concat {h : List Executed} {a : Executed} (ha : anchoredRoot a = none)
    (r : Bytes32) :
    (∃ b ∈ h ++ [a], anchoredRoot b = some r) ↔ ∃ b ∈ h, anchoredRoot b = some r := by
  simp [or_and_right, exists_or, ha]

/-- A root is anchored when a call of the run has anchored it. -/
theorem isAnchored_stateAfter_iff (deployer : Address) (txs : List Transaction) :
    ∀ r, (stateAfter deployer txs).isAnchored r = true ↔
      ∃ a ∈ historyOf deployer txs, anchoredRoot a = some r := by
  refine state_induction (P := fun h st => ∀ r, st.isAnchored r = true ↔
    ∃ a ∈ h, anchoredRoot a = some r) ?_ ?_ ?_ ?_ ?_ ?_ txs
  · intro r
    simp [construct, emptyRecord]
  · intro h st tx reason hst r
    rw [exists_anchoredRoot_concat (anchoredRoot_error _ _ _ reason), hst r]
  · intro h st msg p hp hst r
    have hlast : anchoredRoot ⟨st, ⟨msg, .anchorReconciliation p⟩, .ok (.success true),
        st.anchor msg p⟩ = some p.merkleRoot := rfl
    rw [SupplyChainAnchoring.isAnchored_anchor msg hp.nonzero, hst r]
    simp [or_and_right, exists_or, hlast, or_comm, eq_comm]
  · intro h st msg submitter _ hst r
    rw [exists_anchoredRoot_concat rfl]
    exact hst r
  · intro h st msg submitter _ hst r
    rw [exists_anchoredRoot_concat rfl]
    exact hst r
  · intro h st msg newOwner _ _ hst r
    rw [exists_anchoredRoot_concat rfl]
    exact hst r

theorem acceptsPayload_iff {st : SupplyChainAnchoring} (hst : st.Consistent) {sender : Address}
    {p : ReconciliationPayload} : AcceptsPayload st sender p ↔
      st.authorizedSubmitters sender = true ∧ p.WellFormed ∧
        st.isAnchored p.merkleRoot = false := by
  constructor
  · intro h
    exact ⟨h.authorized, ⟨h.nonzero, h.positive, h.range⟩, h.fresh⟩
  · intro ⟨hauthorized, hp, hfresh⟩
    exact ⟨hauthorized, hp.nonzero, hp.positive, hp.range, hfresh,
      hst.room_of_fresh hp.nonzero hfresh⟩

/-- The guards of a call look at what the calls before it decide. -/
theorem enabled_iff_entitled (deployer : Address) (txs : List Transaction) (tx : Transaction) :
    Enabled tx (stateAfter deployer txs) ↔ Entitled deployer (historyOf deployer txs) tx := by
  have hauthority := authority_stateAfter deployer txs
  obtain ⟨msg, call⟩ := tx
  cases call with
  | anchorReconciliation p =>
    have hfresh : (stateAfter deployer txs).isAnchored p.merkleRoot = false ↔
        ∀ a ∈ historyOf deployer txs, anchoredRoot a ≠ some p.merkleRoot := by
      rw [← Bool.not_eq_true, isAnchored_stateAfter_iff]
      simp only [not_exists, not_and, ne_eq]
    show AcceptsPayload (stateAfter deployer txs) msg.sender p ↔ _
    rw [acceptsPayload_iff (consistent_stateAfter deployer txs), hauthority.permissions, hfresh]
    rfl
  | authorizeSubmitter submitter =>
    show msg.sender = (stateAfter deployer txs).owner ↔ _
    rw [hauthority.owner]
    rfl
  | revokeSubmitter submitter =>
    show msg.sender = (stateAfter deployer txs).owner ↔ _
    rw [hauthority.owner]
    rfl
  | transferOwnership newOwner =>
    show msg.sender = (stateAfter deployer txs).owner ∧ newOwner ≠ 0 ↔ _
    rw [hauthority.owner]
    rfl

/-- A call succeeds exactly when the calls before it entitle its sender; else it reverts and
leaves the storage alone. -/
theorem succeeds_iff_entitled (deployer : Address) (txs : List Transaction) (tx : Transaction) :
    let st := stateAfter deployer txs
    let h := historyOf deployer txs
    ((∃ value, (dispatch tx st).1 = .ok value) ↔ Entitled deployer h tx) ∧
      (¬ Entitled deployer h tx → ∃ reason, dispatch tx st = (.error reason, st)) := by
  intro st h
  rw [← enabled_iff_entitled deployer txs tx]
  exact ⟨dispatch_ok_iff, dispatch_of_not_enabled⟩

/-- A reconciliation on its way to the contract. -/
structure Submission where
  msg : Message
  payload : ReconciliationPayload

def Submission.transaction (m : Submission) : Transaction :=
  ⟨m.msg, .anchorReconciliation m.payload⟩

/-- Whether a submission is entitled to a record, by its sender's permission and its payload. -/
structure Submission.Eligible (st : SupplyChainAnchoring) (m : Submission) : Prop where
  authorized : st.authorizedSubmitters m.msg.sender = true
  wellFormed : m.payload.WellFormed

section Submissions
variable {st : SupplyChainAnchoring}

theorem Submission.eligible_congr {st' : SupplyChainAnchoring}
    (h : st'.authorizedSubmitters = st.authorizedSubmitters) (m : Submission) :
    m.Eligible st' ↔ m.Eligible st := by
  constructor
  · intro hm
    exact ⟨h ▸ hm.authorized, hm.wellFormed⟩
  · intro hm
    exact ⟨h.symm ▸ hm.authorized, hm.wellFormed⟩

theorem Submission.succeeds_iff (m : Submission) :
    (dispatch m.transaction st).1 = .ok (.success true) ↔
      AcceptsPayload st m.msg.sender m.payload := by
  constructor
  · intro h
    exact dispatch_ok_iff.mp ⟨_, h⟩
  · intro h
    exact congrArg Prod.fst h.dispatch_eq

theorem Submission.accepts_iff (hst : st.Consistent) (m : Submission) :
    AcceptsPayload st m.msg.sender m.payload ↔
      m.Eligible st ∧ st.isAnchored m.payload.merkleRoot = false := by
  rw [acceptsPayload_iff hst]
  constructor
  · intro ⟨hauthorized, hp, hfresh⟩
    exact ⟨⟨hauthorized, hp⟩, hfresh⟩
  · intro ⟨h, hfresh⟩
    exact ⟨h.authorized, h.wellFormed, hfresh⟩

/-- What one submission does: its root is anchored if it is eligible, and nothing else moves. -/
theorem Submission.isAnchored_dispatch (hst : st.Consistent) (m : Submission) :
    (dispatch m.transaction st).2.authorizedSubmitters = st.authorizedSubmitters ∧
      ∀ r, (dispatch m.transaction st).2.isAnchored r = true ↔
        st.isAnchored r = true ∨ m.Eligible st ∧ m.payload.merkleRoot = r := by
  by_cases haccepts : AcceptsPayload st m.msg.sender m.payload
  · have hdispatch : dispatch m.transaction st = (.ok (.success true), st.anchor m.msg m.payload) :=
      haccepts.dispatch_eq
    have heligible : m.Eligible st := ((m.accepts_iff hst).mp haccepts).1
    rw [hdispatch]
    refine ⟨rfl, fun r => ?_⟩
    show (st.anchor m.msg m.payload).isAnchored r = true ↔ _
    rw [SupplyChainAnchoring.isAnchored_anchor m.msg haccepts.nonzero]
    have hroot : m.Eligible st ∧ m.payload.merkleRoot = r ↔ r = m.payload.merkleRoot :=
      ⟨fun h => h.2.symm, fun h => ⟨heligible, h.symm⟩⟩
    rw [hroot, or_comm]
  · have hdisabled : ¬ Enabled m.transaction st := haccepts
    obtain ⟨reason, hdispatch⟩ := dispatch_of_not_enabled hdisabled
    rw [hdispatch]
    refine ⟨rfl, fun r => ⟨.inl, fun h => ?_⟩⟩
    rcases h with h | ⟨heligible, hr⟩
    · exact h
    -- an eligible submission can fail for one reason only
    · by_contra hno
      apply haccepts
      rw [m.accepts_iff hst, hr]
      exact ⟨heligible, Bool.eq_false_of_not_eq_true hno⟩

/-- What submissions do that arrive one after the other. -/
theorem isAnchored_run_submissions (hst : st.Consistent) (ms : List Submission) :
    let st' := run dispatch st (ms.map Submission.transaction)
    st'.Consistent ∧ st'.authorizedSubmitters = st.authorizedSubmitters ∧
      ∀ r, st'.isAnchored r = true ↔
        st.isAnchored r = true ∨ ∃ m ∈ ms, m.Eligible st ∧ m.payload.merkleRoot = r := by
  induction ms generalizing st with
  | nil =>
    refine ⟨hst, rfl, fun r => ⟨.inl, fun h => ?_⟩⟩
    rcases h with h | ⟨m, hm, -⟩
    · exact h
    · cases hm
  | cons m ms ih =>
    obtain ⟨hsubmitters, hanchored⟩ := m.isAnchored_dispatch hst
    obtain ⟨hconsistent, hsubmitters', hanchored'⟩ := ih (hst.dispatch m.transaction)
    have heligible := Submission.eligible_congr hsubmitters
    refine ⟨hconsistent, hsubmitters'.trans hsubmitters, fun r => ?_⟩
    show (run dispatch (dispatch m.transaction st).2 _).isAnchored r = true ↔ _
    rw [hanchored', hanchored]
    simp only [heligible, List.exists_mem_cons_iff, or_assoc]

/-- After others, a submission succeeds if none of them took its root. -/
theorem Submission.succeeds_after_iff (hst : st.Consistent) (pre : List Submission)
    (m : Submission) :
    (dispatch m.transaction (run dispatch st (pre.map transaction))).1 = .ok (.success true) ↔
      m.Eligible st ∧ m.payload.merkleRoot ∉ st.merkleRoots ∧
        ∀ m' ∈ pre, m'.Eligible st → m'.payload.merkleRoot ≠ m.payload.merkleRoot := by
  obtain ⟨hnow, hsubmitters, hanchored⟩ := isAnchored_run_submissions hst pre
  have hnew : (run dispatch st (pre.map transaction)).isAnchored m.payload.merkleRoot = false ↔
      m.payload.merkleRoot ∉ st.merkleRoots ∧
        ∀ m' ∈ pre, m'.Eligible st → m'.payload.merkleRoot ≠ m.payload.merkleRoot := by
    rw [← Bool.not_eq_true, hanchored, ← hst.listed, not_or]
    simp only [not_exists, not_and, ne_eq]
  rw [m.succeeds_iff, m.accepts_iff hnow, m.eligible_congr hsubmitters, hnew]

/-- What succeeds is what is read under its root, whatever follows. -/
theorem Submission.getAnchoring_of_succeeds {m : Submission}
    (hok : (dispatch m.transaction st).1 = .ok (.success true)) (later : List Transaction) :
    getAnchoring (run dispatch st (m.transaction :: later)) m.payload.merkleRoot =
      .ok (m.payload.record m.msg) := by
  obtain ⟨hp, hafter⟩ := dispatch_anchorReconciliation_ok hok
  have hmine : (st.anchor m.msg m.payload).isAnchored m.payload.merkleRoot = true :=
    (SupplyChainAnchoring.isAnchored_anchor m.msg hp.nonzero _).mpr (.inl rfl)
  have hrun : run dispatch st (m.transaction :: later) =
      run dispatch (st.anchor m.msg m.payload) later := by
    rw [run_cons, ← hafter]
    rfl
  rw [hrun, getAnchoring_of_extends (extends_run _ later) hmine, getAnchoring, if_pos hmine]
  simp

end Submissions

/-- No reconciliation is lost or recorded twice. Whatever submissions arrive after a run, each
root of an eligible one is anchored in the end, and no other new one. A submission succeeds
exactly when it is the first eligible one with a new root, and then the record is its own. -/
theorem submissions_kept (deployer : Address) (before : List Transaction) (ms : List Submission) :
    let st := stateAfter deployer before
    let st' := run dispatch st (ms.map Submission.transaction)
    (∀ r, r ∈ getAllMerkleRoots st' ↔
      r ∈ getAllMerkleRoots st ∨ ∃ m ∈ ms, m.Eligible st ∧ m.payload.merkleRoot = r) ∧
    ∀ pre m post, ms = pre ++ m :: post →
      let now := run dispatch st (pre.map Submission.transaction)
      ((dispatch m.transaction now).1 = .ok (.success true) ↔
        m.Eligible st ∧ m.payload.merkleRoot ∉ getAllMerkleRoots st ∧
          ∀ m' ∈ pre, m'.Eligible st → m'.payload.merkleRoot ≠ m.payload.merkleRoot) ∧
      ((dispatch m.transaction now).1 = .ok (.success true) →
        getAnchoring st' m.payload.merkleRoot = .ok (m.payload.record m.msg)) := by
  intro st st'
  have hst : st.Consistent := consistent_stateAfter deployer before
  obtain ⟨hst', -, hanchored⟩ := isAnchored_run_submissions hst ms
  constructor
  · intro r
    show r ∈ st'.merkleRoots ↔ r ∈ st.merkleRoots ∨ _
    rw [hst'.listed, hst.listed]
    exact hanchored r
  · intro pre m post hms now
    refine ⟨Submission.succeeds_after_iff hst pre m, fun hok => ?_⟩
    have hlater : st' = run dispatch now (m.transaction :: post.map Submission.transaction) := by
      show run dispatch st (ms.map Submission.transaction) = _
      rw [hms, List.map_append, List.map_cons, run_append]
    rw [hlater]
    exact Submission.getAnchoring_of_succeeds hok _

end Traceability.Anchoring
