import Traceability.Anchoring.Runs
import Mathlib.Data.Set.Basic

/-! Addresses that nobody lets in. As long as they are handed neither a permission nor the
contract, their calls revert and leave no trace in a run. -/
namespace Traceability.Anchoring
open Machine

/-- A call that gives a permission or the contract to no member of the set. -/
def Call.Bypasses (call : Call) (U : Set Address) : Prop :=
  ∀ a ∈ U, call ≠ .authorizeSubmitter a ∧ call ≠ .transferOwnership a

/-- No member of the set owns the contract or may submit to it. -/
structure KeepsOut (U : Set Address) (st : SupplyChainAnchoring) : Prop where
  owner : st.owner ∉ U
  submitters : ∀ a ∈ U, st.authorizedSubmitters a = false

section Outsiders
variable {U : Set Address} {st : SupplyChainAnchoring} {tx : Transaction}

theorem keepsOut_construct {deployer : Address} (h : deployer ∉ U) :
    KeepsOut U (construct deployer) where
  owner := h
  submitters a ha := by
    have hne : a ≠ deployer := fun heq => h (heq ▸ ha)
    exact Function.update_of_ne hne true fun _ => false

/-- Every state-changing call is guarded by ownership or by a permission. -/
theorem KeepsOut.not_enabled (h : KeepsOut U st) (htx : tx.msg.sender ∈ U) : ¬ Enabled tx st := by
  obtain ⟨msg, call⟩ := tx
  have howner : msg.sender ≠ st.owner := fun heq => h.owner (heq ▸ htx)
  intro henabled
  cases call with
  | anchorReconciliation p =>
    obtain ⟨hauthorized, -⟩ := henabled
    exact Bool.false_ne_true ((h.submitters _ htx).symm.trans hauthorized)
  | authorizeSubmitter submitter => exact howner henabled
  | revokeSubmitter submitter => exact howner henabled
  | transferOwnership newOwner => exact howner henabled.1

/-- A call that hands nothing to the set keeps it out. -/
theorem KeepsOut.step (h : KeepsOut U st) (htx : tx.call.Bypasses U) :
    KeepsOut U (dispatch tx st).2 := by
  have heff := dispatch_effect tx st
  generalize dispatch tx st = out at heff
  cases heff with
  | reverted reason => exact h
  | anchored p _ _ => exact ⟨h.owner, h.submitters⟩
  | authorized submitter hcall _ =>
    refine ⟨h.owner, fun a ha => ?_⟩
    have hne : a ≠ submitter := fun heq => (htx a ha).1 (heq ▸ hcall)
    rw [SupplyChainAnchoring.setSubmitter_authorizedSubmitters, Function.update_of_ne hne]
    exact h.submitters a ha
  | revoked submitter _ _ =>
    refine ⟨h.owner, fun a ha => ?_⟩
    rw [SupplyChainAnchoring.setSubmitter_authorizedSubmitters, Function.update_apply]
    split_ifs
    · rfl
    · exact h.submitters a ha
  | transferred newOwner hcall _ _ =>
    exact ⟨fun hmem => (htx newOwner hmem).2 hcall, h.submitters⟩

/-- Whoever is kept out stays out: what the members call reverts, so only others count. -/
theorem KeepsOut.step_of_insiders (h : KeepsOut U st)
    (htx : tx.msg.sender ∉ U → tx.call.Bypasses U) :
    KeepsOut U (dispatch tx st).2 := by
  by_cases hsender : tx.msg.sender ∈ U
  · obtain ⟨reason, hreason⟩ := dispatch_of_not_enabled (h.not_enabled hsender)
    rwa [hreason]
  · exact h.step (htx hsender)

end Outsiders

/-- Outsiders cannot interfere. Every call made by a member of the set reverts, and deleting
all of them leaves the storage and the outcome of every other call as they were. -/
theorem outsiders_do_not_interfere (deployer : Address) (txs : List Transaction)
    (U : Set Address) [DecidablePred fun a => a ∈ U] (hdeployer : deployer ∉ U)
    (hgrants : ∀ tx ∈ txs, tx.msg.sender ∉ U → tx.call.Bypasses U) :
    let others := txs.filter fun tx => tx.msg.sender ∉ U
    (∀ a ∈ historyOf deployer txs, a.input.msg.sender ∈ U → ∃ reason, a.output = .error reason) ∧
    stateAfter deployer others = stateAfter deployer txs ∧
    (historyOf deployer others).map Entry.output =
      ((historyOf deployer txs).filter fun a => a.input.msg.sender ∉ U).map Entry.output := by
  intro others
  have hout : ∀ a ∈ historyOf deployer txs, KeepsOut U a.before :=
    before_invariant _ (keepsOut_construct hdeployer)
      fun st tx htx hst => hst.step_of_insiders (hgrants tx htx)
  have hreverts : ∀ a ∈ historyOf deployer txs, a.input.msg.sender ∈ U →
      ∃ reason, (a.output, a.after) = (.error reason, a.before) := by
    intro a ha hsender
    rw [← step_of_mem_history _ ha]
    exact dispatch_of_not_enabled ((hout a ha).not_enabled hsender)
  have hidle : ∀ a ∈ historyOf deployer txs,
      decide (a.input.msg.sender ∉ U) = false → a.after = a.before := by
    intro a ha hsender
    obtain ⟨reason, hreason⟩ := hreverts a ha (by simpa using hsender)
    exact (Prod.mk.inj hreason).2
  obtain ⟨hrun, hhistory⟩ :=
    history_filter_idle dispatch (fun tx => decide (tx.msg.sender ∉ U)) hidle
  refine ⟨fun a ha hsender => ?_, hrun, congrArg (List.map Entry.output) hhistory⟩
  obtain ⟨reason, hreason⟩ := hreverts a ha hsender
  exact ⟨reason, (Prod.mk.inj hreason).1⟩

/-- Address three tries to take over a contract whose deployer hands it to address two. -/
theorem outsiders_do_not_interfere_takeover :
    stateAfter 1 [⟨⟨1, 8⟩, .transferOwnership 2⟩] =
      stateAfter 1 [⟨⟨3, 7⟩, .transferOwnership 3⟩, ⟨⟨1, 8⟩, .transferOwnership 2⟩,
        ⟨⟨3, 9⟩, .authorizeSubmitter 3⟩] :=
  (outsiders_do_not_interfere 1 [⟨⟨3, 7⟩, .transferOwnership 3⟩, ⟨⟨1, 8⟩, .transferOwnership 2⟩,
    ⟨⟨3, 9⟩, .authorizeSubmitter 3⟩] {3} (by decide) (by simp [Call.Bypasses])).2.1

end Traceability.Anchoring
