import Traceability.Anchoring.Registry

/-! Who may do what, as a function of the calls made so far. The owner is the last one the
contract was handed to; a permission is what the last call that named its holder says. -/
namespace Traceability.Anchoring
open Machine

/-- The submitter that a successful call names. -/
def namedSubmitter (a : Executed) : Option Address :=
  match a.input.call, a.output with
  | .authorizeSubmitter submitter, .ok _ => some submitter
  | .revokeSubmitter submitter, .ok _ => some submitter
  | _, _ => none

/-- The most recent successful `authorizeSubmitter` or `revokeSubmitter` naming `s`. -/
def lastNaming (s : Address) (h : List Executed) : Option Executed :=
  (h.filter fun a => namedSubmitter a = some s).getLast?

/-- The new owner of a successful `transferOwnership`. -/
def transferredTo (a : Executed) : Option Address :=
  match a.input.call, a.output with
  | .transferOwnership newOwner, .ok _ => some newOwner
  | _, _ => none

/-- The new owner of the last successful transfer, or the deployer. -/
def ownerAfter (deployer : Address) (h : List Executed) : Address :=
  (h.filterMap transferredTo).getLast?.getD deployer

/-- The last call naming `s` authorized it and was made by the owner of that moment, or there
was none and `s` deployed the contract. -/
def HoldsPermission (deployer : Address) (h : List Executed) (s : Address) : Prop :=
  match lastNaming s h with
  | none => s = deployer
  | some a => a.input.call = .authorizeSubmitter s ∧ a.input.msg.sender = a.before.owner

section Entries
variable (st st' : SupplyChainAnchoring) (tx : Transaction) (msg : Message)

@[simp] theorem namedSubmitter_error (reason : Revert) :
    namedSubmitter ⟨st, tx, .error reason, st'⟩ = none := by
  obtain ⟨_, call⟩ := tx
  cases call <;> rfl

@[simp] theorem transferredTo_error (reason : Revert) :
    transferredTo ⟨st, tx, .error reason, st'⟩ = none := by
  obtain ⟨_, call⟩ := tx
  cases call <;> rfl

@[simp] theorem namedSubmitter_anchorReconciliation (p : ReconciliationPayload) (out : Outcome) :
    namedSubmitter ⟨st, ⟨msg, .anchorReconciliation p⟩, out, st'⟩ = none := rfl

@[simp] theorem transferredTo_anchorReconciliation (p : ReconciliationPayload) (out : Outcome) :
    transferredTo ⟨st, ⟨msg, .anchorReconciliation p⟩, out, st'⟩ = none := rfl

@[simp] theorem namedSubmitter_authorizeSubmitter (s : Address) (value : ReturnValue) :
    namedSubmitter ⟨st, ⟨msg, .authorizeSubmitter s⟩, .ok value, st'⟩ = some s := rfl

@[simp] theorem transferredTo_authorizeSubmitter (s : Address) (out : Outcome) :
    transferredTo ⟨st, ⟨msg, .authorizeSubmitter s⟩, out, st'⟩ = none := rfl

@[simp] theorem namedSubmitter_revokeSubmitter (s : Address) (value : ReturnValue) :
    namedSubmitter ⟨st, ⟨msg, .revokeSubmitter s⟩, .ok value, st'⟩ = some s := rfl

@[simp] theorem transferredTo_revokeSubmitter (s : Address) (out : Outcome) :
    transferredTo ⟨st, ⟨msg, .revokeSubmitter s⟩, out, st'⟩ = none := rfl

@[simp] theorem namedSubmitter_transferOwnership (o : Address) (out : Outcome) :
    namedSubmitter ⟨st, ⟨msg, .transferOwnership o⟩, out, st'⟩ = none := rfl

@[simp] theorem transferredTo_transferOwnership (o : Address) (value : ReturnValue) :
    transferredTo ⟨st, ⟨msg, .transferOwnership o⟩, .ok value, st'⟩ = some o := rfl

end Entries

section Logs
variable (deployer : Address) (h : List Executed) (a : Executed)

theorem lastNaming_concat (s : Address) :
    lastNaming s (h ++ [a]) = if namedSubmitter a = some s then some a else lastNaming s h := by
  unfold lastNaming
  rw [List.filter_append]
  split_ifs with ha
  · simp [ha]
  · simp [ha]

theorem ownerAfter_concat :
    ownerAfter deployer (h ++ [a]) = (transferredTo a).getD (ownerAfter deployer h) := by
  unfold ownerAfter
  cases ha : transferredTo a with
  | none => simp [ha]
  | some o => simp [ha]

variable {deployer h a}

theorem mem_of_lastNaming {s : Address} {b : Executed} (hb : lastNaming s h = some b) :
    b ∈ h ∧ namedSubmitter b = some s := by
  simpa using List.mem_of_getLast? hb

/-- A call after the last naming cannot name. -/
theorem lastNaming_append_cons {s : Address} (ha : namedSubmitter a = some s)
    (h₁ h₂ : List Executed) : ∃ b ∈ a :: h₂, lastNaming s (h₁ ++ a :: h₂) = some b := by
  have hne : (a :: h₂).filter (fun b => namedSubmitter b = some s) ≠ [] := by simp [ha]
  obtain ⟨b, hb⟩ := Option.isSome_iff_exists.mp (List.getLast?_isSome.mpr hne)
  refine ⟨b, List.mem_of_mem_filter (List.mem_of_getLast? hb), ?_⟩
  unfold lastNaming
  rw [List.filter_append, List.getLast?_append, hb, Option.some_or]

theorem holdsPermission_concat_of_ne {s : Address} (ha : namedSubmitter a ≠ some s) :
    HoldsPermission deployer (h ++ [a]) s ↔ HoldsPermission deployer h s := by
  rw [HoldsPermission, HoldsPermission, lastNaming_concat, if_neg ha]

theorem holdsPermission_concat {s : Address} (ha : namedSubmitter a = some s) :
    HoldsPermission deployer (h ++ [a]) s ↔
      a.input.call = .authorizeSubmitter s ∧ a.input.msg.sender = a.before.owner := by
  rw [HoldsPermission, lastNaming_concat, if_pos ha]

end Logs

theorem namedSubmitter_eq_some {a : Executed} {s : Address} (h : namedSubmitter a = some s) :
    ∃ value, a.output = .ok value := by
  obtain ⟨st, tx, out, st'⟩ := a
  cases out with
  | error reason => simp at h
  | ok value => exact ⟨value, rfl⟩

theorem transferredTo_eq_some {a : Executed} {o : Address} (h : transferredTo a = some o) :
    a.input.call = .transferOwnership o ∧ ∃ value, a.output = .ok value := by
  obtain ⟨st, ⟨msg, call⟩, out, st'⟩ := a
  cases out with
  | error reason => simp at h
  | ok value =>
    cases call with
    | transferOwnership newOwner =>
      rw [transferredTo_transferOwnership] at h
      exact ⟨congrArg Call.transferOwnership (Option.some_inj.mp h), value, rfl⟩
    | anchorReconciliation p => cases h
    | authorizeSubmitter submitter => cases h
    | revokeSubmitter submitter => cases h

/-- The owner and the permission map are functions of the calls so far. -/
structure Authority (deployer : Address) (h : List Executed) (st : SupplyChainAnchoring) :
    Prop where
  owner : st.owner = ownerAfter deployer h
  permissions : ∀ s, st.authorizedSubmitters s = true ↔ HoldsPermission deployer h s

/-- A call that names nobody and transfers nothing moves no authority. -/
theorem Authority.append_of_none {deployer : Address} {h : List Executed}
    {st st' : SupplyChainAnchoring} {a : Executed} (hst : Authority deployer h st)
    (hn : namedSubmitter a = none) (ht : transferredTo a = none) (ho : st'.owner = st.owner)
    (hs : st'.authorizedSubmitters = st.authorizedSubmitters) :
    Authority deployer (h ++ [a]) st' := by
  constructor
  · rw [ho, ownerAfter_concat, ht, hst.owner, Option.getD_none]
  · intro s
    rw [hs, holdsPermission_concat_of_ne (by simp [hn]), hst.permissions]

/-- A call that sets the permission of `submitter` decides it alone. -/
theorem Authority.append_setSubmitter {deployer submitter : Address} {h : List Executed}
    {st : SupplyChainAnchoring} {a : Executed} {authorized : Bool} (hst : Authority deployer h st)
    (hn : namedSubmitter a = some submitter) (ht : transferredTo a = none)
    (hset : authorized = true ↔
      a.input.call = .authorizeSubmitter submitter ∧ a.input.msg.sender = a.before.owner) :
    Authority deployer (h ++ [a]) (st.setSubmitter submitter authorized) := by
  constructor
  · rw [SupplyChainAnchoring.setSubmitter_owner, ownerAfter_concat, ht, hst.owner,
      Option.getD_none]
  · intro s
    rw [SupplyChainAnchoring.setSubmitter_authorizedSubmitters, Function.update_apply]
    split_ifs with hs
    · rw [hs, holdsPermission_concat hn, hset]
    · rw [holdsPermission_concat_of_ne (by simpa [hn] using Ne.symm hs), hst.permissions]

theorem authority_stateAfter (deployer : Address) (txs : List Transaction) :
    Authority deployer (historyOf deployer txs) (stateAfter deployer txs) := by
  refine state_induction ?_ ?_ ?_ ?_ ?_ ?_ txs
  · refine ⟨rfl, fun s => ?_⟩
    simp [construct, HoldsPermission, lastNaming, Function.update_apply]
  · intro h st tx reason hst
    exact hst.append_of_none (namedSubmitter_error _ _ _ _) (transferredTo_error _ _ _ _) rfl rfl
  · intro h st msg p _ hst
    exact hst.append_of_none rfl rfl rfl rfl
  · intro h st msg submitter howner hst
    exact hst.append_setSubmitter rfl rfl (iff_of_true rfl ⟨rfl, howner⟩)
  · intro h st msg submitter howner hst
    exact hst.append_setSubmitter rfl rfl (iff_of_false Bool.false_ne_true fun hcall => by
      cases hcall.1)
  · intro h st msg newOwner _ _ hst
    refine ⟨by rw [ownerAfter_concat]; rfl, fun s => ?_⟩
    rw [holdsPermission_concat_of_ne (by simp)]
    exact hst.permissions s

theorem owner_ne_zero {deployer : Address} (hdeployer : deployer ≠ 0) (txs : List Transaction) :
    (stateAfter deployer txs).owner ≠ 0 := by
  refine run_invariant _ (P := fun st : SupplyChainAnchoring => st.owner ≠ 0) hdeployer
    (fun st tx hst => ?_) txs
  refine step_rel (R := fun s t => s.owner ≠ 0 → t.owner ≠ 0) (fun _ h => h) ?_ ?_ ?_ st tx hst
  · exact fun _ _ _ _ h => h
  · exact fun _ _ _ h => h
  · exact fun _ _ hnonzero _ => hnonzero

/-- A successful transfer is made by the owner that the calls before it determine. -/
theorem transfer_by_owner {deployer : Address} {txs : List Transaction}
    {h₁ h₂ : List Executed} {a : Executed} {newOwner : Address}
    (hsplit : historyOf deployer txs = h₁ ++ a :: h₂) (ha : transferredTo a = some newOwner) :
    a.input.msg.sender = ownerAfter deployer h₁ := by
  obtain ⟨hcall, value, hvalue⟩ := transferredTo_eq_some ha
  obtain ⟨pre, -, -, rfl, hexecuted, -⟩ := history_eq_append_cons _ hsplit
  rw [hexecuted, execute_output] at hvalue
  have henabled := dispatch_ok_iff.mp ⟨value, hvalue⟩
  rw [Enabled, hcall] at henabled
  rw [henabled.1]
  exact (authority_stateAfter deployer pre).owner

/-- Where an anchored record comes from. -/
def AnchoredBy (h : List Executed) (r : Bytes32) (record : AnchoringRecord) : Prop :=
  ∃ h₁ a h₂ payload, h = h₁ ++ a :: h₂ ∧ a.input.call = .anchorReconciliation payload ∧
    a.output = .ok (.success true) ∧ payload.merkleRoot = r ∧
    record = payload.record a.input.msg

theorem AnchoredBy.concat {h : List Executed} {r : Bytes32} {record : AnchoringRecord}
    (hr : AnchoredBy h r record) (a : Executed) : AnchoredBy (h ++ [a]) r record := by
  obtain ⟨h₁, b, h₂, payload, rfl, hb⟩ := hr
  exact ⟨h₁, b, h₂ ++ [a], payload, by simp, hb⟩

theorem anchoredBy_stateAfter (deployer : Address) (txs : List Transaction) :
    ∀ r, (stateAfter deployer txs).isAnchored r = true →
      AnchoredBy (historyOf deployer txs) r ((stateAfter deployer txs).anchorings r) := by
  refine state_induction (P := fun h st => ∀ r, st.isAnchored r = true →
    AnchoredBy h r (st.anchorings r)) ?_ ?_ ?_ ?_ ?_ ?_ txs
  · intro r hr
    simp [construct, emptyRecord] at hr
  · exact fun h st tx reason hst r hr => (hst r hr).concat _
  · intro h st msg p hp hst r hr
    by_cases heq : r = p.merkleRoot
    · subst heq
      exact ⟨h, _, [], p, rfl, rfl, rfl, rfl, Function.update_self _ _ _⟩
    · rcases (SupplyChainAnchoring.isAnchored_anchor msg hp.nonzero r).mp hr with hr | hr
      · exact absurd hr heq
      · rw [SupplyChainAnchoring.anchorings_anchor_of_ne msg p heq]
        exact (hst r hr).concat _
  · exact fun h st msg s _ hst r hr => (hst r hr).concat _
  · exact fun h st msg s _ hst r hr => (hst r hr).concat _
  · exact fun h st msg o _ _ hst r hr => (hst r hr).concat _

/-- Whoever anchors holds a permission by the calls before. -/
theorem submitter_holdsPermission {deployer : Address} {txs : List Transaction}
    {h₁ h₂ : List Executed} {a : Executed} {payload : ReconciliationPayload} {value : ReturnValue}
    (hsplit : historyOf deployer txs = h₁ ++ a :: h₂)
    (hcall : a.input.call = .anchorReconciliation payload) (hout : a.output = .ok value) :
    HoldsPermission deployer h₁ a.input.msg.sender := by
  obtain ⟨pre, -, -, rfl, hexecuted, -⟩ := history_eq_append_cons _ hsplit
  rw [hexecuted, execute_output] at hout
  have henabled := dispatch_ok_iff.mp ⟨value, hout⟩
  rw [Enabled, hcall] at henabled
  exact ((authority_stateAfter deployer pre).permissions _).mp henabled.authorized

/-- After a revocation only an authorization by the owner of its moment lets `s` submit again. -/
theorem not_holdsPermission_of_revoked {deployer s : Address} {h₁ h₂ : List Executed}
    {a : Executed} (ha : a.input.call = .revokeSubmitter s) (hok : ∃ value, a.output = .ok value)
    (hno : ∀ b ∈ h₂, ¬ (b.input.call = .authorizeSubmitter s ∧
      b.input.msg.sender = b.before.owner ∧ ∃ value, b.output = .ok value)) :
    ¬ HoldsPermission deployer (h₁ ++ a :: h₂) s := by
  have hnamed : namedSubmitter a = some s := by
    obtain ⟨value, hvalue⟩ := hok
    rw [namedSubmitter, ha, hvalue]
  obtain ⟨b, hb, hlast⟩ := lastNaming_append_cons hnamed h₁ h₂
  rw [HoldsPermission, hlast]
  intro hholds
  dsimp only at hholds
  rcases List.mem_cons.mp hb with rfl | hb
  · rw [ha] at hholds
    cases hholds.1
  · exact hno b hb ⟨hholds.1, hholds.2, namedSubmitter_eq_some (mem_of_lastNaming hlast).2⟩

/-- The chain of authority. Every record was anchored by a submitter who held a permission by
the calls before; the owner is the last one in a chain of transfers by owners that starts at
the deployer; and whoever is revoked stays so until the owner of that time authorizes again. -/
theorem chain_of_authority {deployer : Address} (hdeployer : deployer ≠ 0)
    (txs : List Transaction) :
    let st := stateAfter deployer txs
    let h := historyOf deployer txs
    (∀ r, (st.anchorings r).merkleRoot ≠ 0 → ∃ h₁ a h₂ payload, h = h₁ ++ a :: h₂ ∧
      a.input.call = .anchorReconciliation payload ∧ a.output = .ok (.success true) ∧
      st.anchorings r = payload.record a.input.msg ∧
      HoldsPermission deployer h₁ (st.anchorings r).submitter) ∧
    (st.owner ≠ 0 ∧ st.owner = ownerAfter deployer h ∧
      ∀ h₁ a h₂ newOwner, h = h₁ ++ a :: h₂ → transferredTo a = some newOwner →
        a.input.msg.sender = ownerAfter deployer h₁) ∧
    ∀ s h₁ a h₂, h = h₁ ++ a :: h₂ → a.input.call = .revokeSubmitter s →
      (∃ value, a.output = .ok value) →
      (∀ b ∈ h₂, ¬ (b.input.call = .authorizeSubmitter s ∧
        b.input.msg.sender = b.before.owner ∧ ∃ value, b.output = .ok value)) →
      ∀ n payload, ∃ reason,
        dispatch ⟨⟨s, n⟩, .anchorReconciliation payload⟩ st = (.error reason, st) := by
  intro st h
  have hauthority : Authority deployer h st := authority_stateAfter deployer txs
  refine ⟨fun r hr => ?_, ⟨owner_ne_zero hdeployer txs, hauthority.owner,
    fun h₁ a h₂ newOwner hsplit => transfer_by_owner hsplit⟩, ?_⟩
  · obtain ⟨h₁, a, h₂, payload, hsplit, hcall, hout, -, hrecord⟩ :=
      anchoredBy_stateAfter deployer txs r (isAnchored_iff.mpr hr)
    refine ⟨h₁, a, h₂, payload, hsplit, hcall, hout, hrecord, ?_⟩
    have hsubmitter : (st.anchorings r).submitter = a.input.msg.sender := by
      rw [hrecord, ReconciliationPayload.record]
    rw [hsubmitter]
    exact submitter_holdsPermission hsplit hcall hout
  · intro s h₁ a h₂ hsplit hcall hok hno n payload
    apply dispatch_of_not_enabled
    intro henabled
    have haccepts : AcceptsPayload st s payload := henabled
    have hholds := (hauthority.permissions s).mp haccepts.authorized
    rw [hsplit] at hholds
    exact not_holdsPermission_of_revoked hcall hok hno hholds

/-- A deployer anchors a window, revokes itself and hands the contract to address two. -/
theorem chain_of_authority_handover :
    let txs := [anchorWindow 5, ⟨⟨1, 8⟩, .revokeSubmitter 1⟩, ⟨⟨1, 9⟩, .transferOwnership 2⟩]
    (stateAfter 1 txs).owner ≠ 0 ∧ (stateAfter 1 txs).owner = ownerAfter 1 (historyOf 1 txs) := by
  intro txs
  obtain ⟨-, ⟨hnonzero, howner, -⟩, -⟩ := chain_of_authority (by decide : (1 : Address) ≠ 0) txs
  exact ⟨hnonzero, howner⟩

end Traceability.Anchoring
