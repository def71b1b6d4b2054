import Traceability.Machine.Journal
import Traceability.Anchoring.Registry

/-! What an observer of the contract's events knows. From the log alone, the list of roots, the
counter and the permission map can be rebuilt, and each record but for its block number. -/
namespace Traceability.Anchoring
open Machine Journal

/-- What `ReconciliationAnchored` publishes of a record: every field but the root it is filed
under and the block that anchored it. -/
structure Published where
  startBlock : Uint256
  endBlock : Uint256
  eventCount : Uint256
  timestamp : Uint256
  chainId : Bytes
  submitter : Address
  deriving DecidableEq

def AnchoringRecord.published (r : AnchoringRecord) : Published :=
  ⟨r.startBlock, r.endBlock, r.eventCount, r.timestamp, r.chainId, r.submitter⟩

/-- A `ReconciliationAnchored` entry: the root, with the rest of the entry. -/
def anchoredEntry : Event → Option (Bytes32 × Published)
  | .reconciliationAnchored root startBlock endBlock eventCount timestamp chainId submitter =>
    some (root, ⟨startBlock, endBlock, eventCount, timestamp, chainId, submitter⟩)
  | _ => none

/-- A `SubmitterAuthorizationChanged` entry: the submitter, with the permission. -/
def submitterEntry : Event → Option (Address × Bool)
  | .submitterAuthorizationChanged submitter authorized => some (submitter, authorized)
  | _ => none

/-- The roots of the `ReconciliationAnchored` entries, in order. -/
def anchoredRoots (log : List Event) : List Bytes32 :=
  (log.filterMap anchoredEntry).map Prod.fst

/-- The storage is what the log says of it. -/
structure LogInvariant (deployer : Address) (st : SupplyChainAnchoring) : Prop where
  roots : st.merkleRoots = anchoredRoots st.log
  records : ∀ r, entriesFor anchoredEntry r st.log =
    if st.isAnchored r then [(st.anchorings r).published] else []
  blank : ∀ r, st.isAnchored r = false → st.anchorings r = emptyRecord
  submitters : ∀ s, st.authorizedSubmitters s =
    (entriesFor submitterEntry s st.log).getLast?.getD (decide (s = deployer))

theorem logInvariant_construct (deployer : Address) :
    LogInvariant deployer (construct deployer) where
  roots := rfl
  records r := by simp [construct, entriesFor, emptyRecord, SupplyChainAnchoring.isAnchored]
  blank _ _ := rfl
  submitters s := by simp [construct, entriesFor, Function.update_apply]

section Steps
variable {deployer : Address} {st : SupplyChainAnchoring}

theorem anchoredRoots_concat (log : List Event) (ev : Event) :
    anchoredRoots (log ++ [ev]) =
      anchoredRoots log ++ ((anchoredEntry ev).map Prod.fst).toList := by
  unfold anchoredRoots
  rw [List.filterMap_append, List.map_append]
  cases h : anchoredEntry ev <;> simp [h]

theorem LogInvariant.anchor (hi : LogInvariant deployer st) {msg : Message}
    {p : ReconciliationPayload} (hp : AcceptsPayload st msg.sender p) :
    LogInvariant deployer (st.anchor msg p) := by
  have hread : anchoredEntry (.reconciliationAnchored p.merkleRoot p.startBlock p.endBlock
      p.eventCount p.timestamp p.chainId msg.sender) =
        some (p.merkleRoot, (p.record msg).published) := rfl
  constructor
  · rw [SupplyChainAnchoring.anchor_log, anchoredRoots_concat, ← hi.roots]
    rfl
  · intro r
    have hanchored : (st.anchor msg p).isAnchored r = true ↔
        r = p.merkleRoot ∨ st.isAnchored r = true :=
      SupplyChainAnchoring.isAnchored_anchor msg hp.nonzero r
    rw [SupplyChainAnchoring.anchor_log, entriesFor_concat_of_some hread, hi.records r]
    by_cases hr : r = p.merkleRoot
    · subst hr
      rw [if_pos rfl, if_pos (hanchored.mpr (.inl rfl)), hp.fresh]
      simp
    · rw [if_neg hr, SupplyChainAnchoring.anchorings_anchor_of_ne msg p hr]
      simp [hanchored, hr]
  · intro r hr
    have hanchored : (st.anchor msg p).isAnchored r = true ↔
        r = p.merkleRoot ∨ st.isAnchored r = true :=
      SupplyChainAnchoring.isAnchored_anchor msg hp.nonzero r
    have hno : ¬ (r = p.merkleRoot ∨ st.isAnchored r = true) := by
      intro h
      rw [hanchored.mpr h] at hr
      cases hr
    obtain ⟨hne, hold⟩ := not_or.mp hno
    rw [SupplyChainAnchoring.anchorings_anchor_of_ne msg p hne]
    exact hi.blank r (Bool.eq_false_of_not_eq_true hold)
  · intro s
    rw [SupplyChainAnchoring.anchor_log, entriesFor_concat_of_none rfl]
    exact hi.submitters s

theorem LogInvariant.setSubmitter (hi : LogInvariant deployer st) (submitter : Address)
    (authorized : Bool) : LogInvariant deployer (st.setSubmitter submitter authorized) := by
  have hread : submitterEntry (.submitterAuthorizationChanged submitter authorized) =
      some (submitter, authorized) := rfl
  constructor
  · rw [SupplyChainAnchoring.setSubmitter_log, anchoredRoots_concat, ← hi.roots]
    exact (List.append_nil _).symm
  · intro r
    rw [SupplyChainAnchoring.setSubmitter_log, entriesFor_concat_of_none rfl]
    exact hi.records r
  · exact hi.blank
  · intro s
    rw [SupplyChainAnchoring.setSubmitter_log, entriesFor_concat_of_some hread,
      SupplyChainAnchoring.setSubmitter_authorizedSubmitters, Function.update_apply]
    by_cases hs : s = submitter
    · rw [if_pos hs, if_pos hs, List.getLast?_concat, Option.getD_some]
    · rw [if_neg hs, if_neg hs]
      exact hi.submitters s

end Steps

theorem logInvariant (deployer : Address) (txs : List Transaction) :
    LogInvariant deployer (stateAfter deployer txs) := by
  refine run_invariant _ (logInvariant_construct deployer) (fun st tx hst => ?_) txs
  refine step_rel (R := fun s t => LogInvariant deployer s → LogInvariant deployer t)
    (fun _ h => h) ?_ ?_ ?_ st tx hst
  · exact fun st msg p hp h => h.anchor hp
  · exact fun st submitter authorized h => h.setSubmitter submitter authorized
  · exact fun st _ _ h => ⟨h.roots, h.records, h.blank, h.submitters⟩

/-- The events determine the storage. After any run, the anchored roots are those of the
`ReconciliationAnchored` entries in order, and the counter is their number; a root has no
entry and a blank record, or one entry that shows what `getAnchoring` returns; and a
permission is what the last entry for its holder says, or whether the holder deployed. -/
theorem events_determine_storage (deployer : Address) (txs : List Transaction) :
    let st := stateAfter deployer txs
    getAllMerkleRoots st = anchoredRoots st.log ∧
      st.totalAnchorings.val = entryCount anchoredEntry st.log ∧
      (∀ r, (entriesFor anchoredEntry r st.log = [] ∧ st.anchorings r = emptyRecord) ∨
        ∃ record, entriesFor anchoredEntry r st.log = [record.published] ∧
          record.merkleRoot = r ∧ getAnchoring st r = .ok record) ∧
      ∀ s, st.authorizedSubmitters s =
        (entriesFor submitterEntry s st.log).getLast?.getD (decide (s = deployer)) := by
  intro st
  have hst : st.Consistent := consistent_stateAfter deployer txs
  have hi : LogInvariant deployer st := logInvariant deployer txs
  refine ⟨hi.roots, ?_, ?_, hi.submitters⟩
  · rw [hst.total, hi.roots, anchoredRoots, List.length_map, entryCount,
      List.length_filterMap_eq_countP]
  · intro r
    have hrecord := hi.records r
    cases hr : st.isAnchored r with
    | false =>
      rw [hr] at hrecord
      exact .inl ⟨hrecord, hi.blank r hr⟩
    | true =>
      rw [hr] at hrecord
      exact .inr ⟨st.anchorings r, hrecord, hst.key r hr, if_pos hr⟩

end Traceability.Anchoring
