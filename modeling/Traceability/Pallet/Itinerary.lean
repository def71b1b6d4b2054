import Traceability.Machine.Itinerary
import Traceability.Pallet.Lifecycle

/-! How far a batch gets. The calls that move a batch are fixed by the leg it is at, so its
state after any run is the longest part of its route that the calls meet in order, whatever
stands between them. -/
namespace Traceability.Pallet
open Machine List

variable {AccountId : Type}

/-- The number of legs a batch has covered. -/
def leg : BatchState → ℕ
  | .harvested => 0
  | .packaged => 1
  | .inTransit => 2
  | .delivered => 3
  | .inspected => 4

/-- The signed calls that take a batch over leg `n` of its route. -/
def Takes (b : Bytes) (n : ℕ) (x : Extrinsic AccountId) : Prop :=
  n < route.length ∧ (∃ who, x.origin = .signed who) ∧ TakenBy b n x.call

theorem takenBy_evaluateGovernance {b b' : Bytes} {n : ℕ} {ty : EventType} {role : Bytes} :
    TakenBy b n (.evaluateGovernance b' ty role) ↔ b' = b ∧
      if n < 3 then ty = .custodyTransfer ∧
        (role = ascii "Producer" ∨ role = ascii "Logistics" ∨ role = ascii "Retailer")
      else ty = .qualityInspection ∧ role = ascii "Regulator" := by
  unfold TakenBy
  split_ifs with hn
  · constructor
    · rintro ⟨r, hcall, hr⟩
      cases hcall
      exact ⟨rfl, rfl, hr⟩
    · rintro ⟨rfl, rfl, hr⟩
      exact ⟨role, rfl, hr⟩
  · constructor
    · rintro ⟨r, hcall, hr⟩
      cases hcall
      exact ⟨rfl, rfl, hr⟩
    · rintro ⟨rfl, rfl, hr⟩
      exact ⟨role, rfl, hr⟩

/-- The policy and the transition table permit exactly the calls that take the next leg. -/
theorem permitted_iff {s : BatchState} {b : Bytes} {ty : EventType} {role : Bytes} :
    Permitted s ty role ↔
      leg s < route.length ∧ TakenBy b (leg s) (.evaluateGovernance b ty role) := by
  rw [takenBy_evaluateGovernance, length_route]
  cases s <;> simp [Permitted, leg]

theorem leg_transition {s next : BatchState} {ty : EventType}
    (h : stateTransition s ty = .ok next) : leg next = leg s + 1 := by
  cases s <;> cases ty <;> cases h <;> rfl

/-- Each batch travels along its route, one leg for each call that takes it. -/
theorem travels (cfg : Config) (b : Bytes) :
    Travels (@dispatch AccountId cfg) (fun st => leg (st.currentState b)) (Takes b) := by
  constructor
  · rintro st ⟨ctx, origin, call⟩ ⟨hlt, ⟨who, horigin⟩, htaken⟩
    obtain rfl : origin = .signed who := horigin
    cases call with
    | onboardDevice c =>
      obtain ⟨role, hrole⟩ := htaken
      split_ifs at hrole <;> cases hrole.1
    | processEvent e =>
      obtain ⟨role, hrole⟩ := htaken
      split_ifs at hrole <;> cases hrole.1
    | evaluateGovernance b' ty role =>
      obtain ⟨rfl, -⟩ := takenBy_evaluateGovernance.mp htaken
      have hp := permitted_iff.mpr ⟨hlt, htaken⟩
      rcases dispatch_evaluateGovernance_cases cfg ctx who st b' ty role with
        ⟨next, hadv, hd⟩ | ⟨hno, -⟩
      · rw [hd]
        have hnext : (st.advance b' next).currentState b' = next := by
          simp [Chain.currentState]
        show leg ((st.advance b' next).currentState b') = _
        rw [hnext]
        exact leg_transition hadv.transition
      · exact absurd hp hno
  · intro st x hno
    have heff := dispatch_effect cfg x st
    generalize dispatch cfg x st = out at heff
    cases heff with
    | refused err => rfl
    | onboarded who c horigin hcall haccepts => rfl
    | processed who e r horigin hcall hadmits => rfl
    | evaluated who b' ty role next horigin hcall hadv =>
      by_cases hb : b = b'
      · subst hb
        obtain ⟨hlt, htaken⟩ := permitted_iff (b := b).mp (exists_advancesBatch_iff.mp ⟨next, hadv⟩)
        exact absurd ⟨hlt, ⟨who, horigin⟩, hcall ▸ htaken⟩ hno
      · show leg ((st.advance b' next).currentState b) = _
        unfold Chain.currentState
        rw [Chain.advance_batches, Finmap.lookup_insert_of_ne _ hb]

/-- From any chain, a batch gets `k` legs further exactly when the calls contain takers of its
next `k` legs in order, with any other calls in between. -/
theorem batch_advances_iff (cfg : Config) (st : Chain) (b : Bytes) (xs : List (Extrinsic AccountId))
    (k : ℕ) :
    leg (st.currentState b) + k ≤ leg ((run (dispatch cfg) st xs).currentState b) ↔
      SublistForall₂ (Takes b) (List.range' (leg (st.currentState b)) k) xs :=
  (travels cfg b).reaches_iff st xs k

/-- Whether a call takes a leg is a matter of its origin and what it asks for. -/
theorem Takes.of_same {b : Bytes} {n : ℕ} {x y : Extrinsic AccountId}
    (hsame : x.origin = y.origin ∧ x.call = y.call) (h : Takes b n x) : Takes b n y := by
  unfold Takes
  rwa [← hsame.1, ← hsame.2]

/-- No batch falls behind when calls are added anywhere in a run, whatever they are, and
whatever clocks, windows and hash functions the two runs have: the calls of the first are found
among those of the second by origin and call, whenever they are made there. -/
theorem batch_not_set_back (cfg cfg' : Config) {st st' : Chain} {b : Bytes}
    {xs ys : List (Extrinsic AccountId)} (hst : leg (st.currentState b) ≤ leg (st'.currentState b))
    (hsub : SublistForall₂ (fun x y => x.origin = y.origin ∧ x.call = y.call) xs ys) :
    leg ((run (dispatch cfg) st xs).currentState b) ≤
      leg ((run (dispatch cfg') st' ys).currentState b) :=
  (travels cfg b).position_mono (travels cfg' b) (fun _ _ _ hsame => Takes.of_same hsame) hst hsub

/-- A rejected evaluation in front of a producer's transfer does not hold the batch up, in a run
that makes the transfer in another block and at another time. -/
theorem batch_not_set_back_rejectedEvaluation :
    let transfer := Mock.call (.evaluateGovernance (ascii "batch-1") .custodyTransfer
      (ascii "Producer"))
    let later : Extrinsic UInt64 := { transfer with ctx := ⟨9, Nat.succ_pos 8, 1700000000⟩ }
    leg ((run (dispatch Mock.config) genesis [transfer]).currentState (ascii "batch-1")) ≤
      leg ((run (dispatch Mock.config) genesis [rejectedEvaluation, later]).currentState
        (ascii "batch-1")) := by
  intro transfer later
  exact batch_not_set_back Mock.config Mock.config (le_refl _)
    (.cons_right (.cons ⟨rfl, rfl⟩ .nil))

end Traceability.Pallet
