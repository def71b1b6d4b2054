import Traceability.Machine.Journal
import Traceability.Pallet.Mock

/-! Governance evaluations and their audit record. The counter and the event that the
rejected branch writes are rolled back with its error, so only an approved evaluation with
a defined transition leaves a trace. -/
namespace Traceability.Pallet
open Machine Storage Journal

variable {AccountId : Type}

/-- A `GovernanceEvaluated` entry: its batch, with the outcome and the new state. -/
def governanceEntry : Event → Option (Bytes × GovernanceOutcome × Option BatchState)
  | .governanceEvaluated b outcome newState => some (b, outcome, newState)
  | _ => none

def governanceEntries (b : Bytes) (log : List Event) :
    List (GovernanceOutcome × Option BatchState) := entriesFor governanceEntry b log

@[simp] theorem governanceEntries_append (b : Bytes) (log log' : List Event) :
    governanceEntries b (log ++ log') = governanceEntries b log ++ governanceEntries b log' :=
  entriesFor_append b log log'

@[simp] theorem governanceEntries_evaluated (b b' : Bytes) (outcome : GovernanceOutcome)
    (newState : Option BatchState) :
    governanceEntries b [.governanceEvaluated b' outcome newState] =
      if b = b' then [(outcome, newState)] else [] :=
  entriesFor_of_some rfl b

/-- The policy table: which roles and states an event type is approved and defined for. -/
def Permitted (state : BatchState) (ty : EventType) (role : Bytes) : Prop :=
  (ty = .custodyTransfer ∧
      (role = ascii "Producer" ∨ role = ascii "Logistics" ∨ role = ascii "Retailer") ∧
      (state = .harvested ∨ state = .packaged ∨ state = .inTransit)) ∨
    (ty = .qualityInspection ∧ role = ascii "Regulator" ∧ state = .delivered)

instance (state : BatchState) (ty : EventType) (role : Bytes) :
    Decidable (Permitted state ty role) := inferInstanceAs (Decidable (_ ∨ _))

theorem exists_advancesBatch_iff {st : Chain} {b : Bytes} {ty : EventType} {role : Bytes} :
    (∃ next, AdvancesBatch st b ty role next) ↔ Permitted (st.currentState b) ty role := by
  constructor
  · rintro ⟨next, happroved, htransition⟩
    cases ty with
    | custodyTransfer =>
      have hrole : role = ascii "Producer" ∨ role = ascii "Logistics" ∨
          role = ascii "Retailer" := by
        by_contra hno
        simp [lookupAndEvaluatePolicy, hno] at happroved
      refine .inl ⟨rfl, hrole, ?_⟩
      cases hs : st.currentState b <;> simp_all [stateTransition]
    | qualityInspection =>
      have hrole : role = ascii "Regulator" := by
        by_contra hno
        simp [lookupAndEvaluatePolicy, hno] at happroved
      refine .inr ⟨rfl, hrole, ?_⟩
      cases hs : st.currentState b <;> simp_all [stateTransition]
    | temperature => cases hs : st.currentState b <;> simp_all [stateTransition]
    | humidity => cases hs : st.currentState b <;> simp_all [stateTransition]
    | gps => cases hs : st.currentState b <;> simp_all [stateTransition]
  · rintro (⟨rfl, hrole, hs⟩ | ⟨rfl, hrole, hs⟩)
    · have happroved : lookupAndEvaluatePolicy .custodyTransfer role (st.currentState b) =
          .ok .approved := if_pos hrole
      rcases hs with hs | hs | hs
      · exact ⟨.packaged, happroved, by rw [hs]; rfl⟩
      · exact ⟨.inTransit, happroved, by rw [hs]; rfl⟩
      · exact ⟨.delivered, happroved, by rw [hs]; rfl⟩
    · exact ⟨.inspected, if_pos hrole, by rw [hs]; rfl⟩

/-- A signed evaluation either advances the batch or changes nothing at all. -/
theorem dispatch_evaluateGovernance_cases (cfg : Config) (ctx : Context) (who : AccountId)
    (st : Chain) (b : Bytes) (ty : EventType) (role : Bytes) :
    (∃ next, AdvancesBatch st b ty role next ∧
      dispatch cfg ⟨ctx, .signed who, .evaluateGovernance b ty role⟩ st =
        (.ok (), st.advance b next)) ∨
    (¬ Permitted (st.currentState b) ty role ∧ ∃ err,
      dispatch cfg ⟨ctx, .signed who, .evaluateGovernance b ty role⟩ st = (.error err, st)) := by
  by_cases h : ∃ next, AdvancesBatch st b ty role next
  · obtain ⟨next, happroved, htransition⟩ := h
    refine .inl ⟨next, ⟨happroved, htransition⟩, ?_⟩
    simp [dispatch_evaluateGovernance, happroved, htransition]
  · exact .inr ⟨fun hp => h (exists_advancesBatch_iff.mpr hp), dispatch_of_not_enabled h⟩

/-- The call raised the checkpoint counter by one and logged one more entry for the batch,
with the outcome of the policy. -/
def EvaluationRecorded (cfg : Config) (x : Extrinsic AccountId) (st : Chain) (b : Bytes)
    (ty : EventType) (role : Bytes) : Prop :=
  (dispatch cfg x st).2.governanceCheckpoints.toNat = st.governanceCheckpoints.toNat + 1 ∧
    ∃ outcome newState, lookupAndEvaluatePolicy ty role (st.currentState b) = .ok outcome ∧
      governanceEntries b (dispatch cfg x st).2.log =
        governanceEntries b st.log ++ [(outcome, newState)]

/-- An evaluation leaves its audit record exactly when the role and the batch's state permit
it and the counter is below its maximum. -/
theorem evaluationRecorded_iff (cfg : Config) (ctx : Context) (who : AccountId) (st : Chain)
    (b : Bytes) (ty : EventType) (role : Bytes) :
    EvaluationRecorded cfg ⟨ctx, .signed who, .evaluateGovernance b ty role⟩ st b ty role ↔
      Permitted (st.currentState b) ty role ∧ st.governanceCheckpoints.toNat + 1 < 2 ^ 64 := by
  unfold EvaluationRecorded
  rcases dispatch_evaluateGovernance_cases cfg ctx who st b ty role with
    ⟨next, hadv, hd⟩ | ⟨hno, err, hd⟩
  · have hp : Permitted (st.currentState b) ty role := exists_advancesBatch_iff.mp ⟨next, hadv⟩
    rw [hd, Chain.advance_governanceCheckpoints, toNat_add_one_eq_iff]
    simp [hp, hadv.approved]
  · simp [hd, hno]

/-- A custody transfer by a role outside the supply chain. -/
def rejectedEvaluation : Extrinsic UInt64 :=
  Mock.call (.evaluateGovernance (ascii "batch-1") .custodyTransfer (ascii "Consumer"))

/-- The policy rejects it on empty storage, and the call leaves the chain as it was. -/
theorem rejectedEvaluation_not_recorded :
    lookupAndEvaluatePolicy .custodyTransfer (ascii "Consumer")
      (genesis.currentState (ascii "batch-1")) = .ok .rejected ∧
    dispatch Mock.config rejectedEvaluation genesis =
      (.error (.module .policyConditionsNotMet), genesis) ∧
    ¬ EvaluationRecorded Mock.config rejectedEvaluation genesis (ascii "batch-1")
      .custodyTransfer (ascii "Consumer") := by
  have hd : dispatch Mock.config rejectedEvaluation genesis =
      (.error (.module .policyConditionsNotMet), genesis) := by rfl
  refine ⟨by rfl, hd, ?_⟩
  rintro ⟨hcount, -⟩
  rw [hd] at hcount
  exact Nat.succ_ne_self _ hcount.symm

end Traceability.Pallet
