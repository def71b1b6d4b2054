import Traceability.Pallet.Governance
import Mathlib.Tactic.IntervalCases

/-! Batch lifecycle. The approved evaluations of a batch walk one fixed route, whatever
happens to other batches in between. -/
namespace Traceability.Pallet
open Machine

variable {AccountId : Type}

/-- The states a batch moves through after the harvest. -/
def route : List BatchState := [.packaged, .inTransit, .delivered, .inspected]

@[simp] theorem length_route : route.length = 4 := rfl

/-- The `new_state` values of the approved entries for a batch. -/
def approvedStates (b : Bytes) (log : List Event) : List (Option BatchState) :=
  (governanceEntries b log).filterMap fun p => if p.1 = .approved then some p.2 else none

@[simp] theorem approvedStates_append (b : Bytes) (log log' : List Event) :
    approvedStates b (log ++ log') = approvedStates b log ++ approvedStates b log' := by
  simp [approvedStates]

@[simp] theorem approvedStates_registered (b id : Bytes) (k : Public) (producer : Bytes) :
    approvedStates b [.deviceRegistered id k producer] = [] := rfl

@[simp] theorem approvedStates_processed (b id : Bytes) (k : H256) (ty : EventType) (t : UInt64) :
    approvedStates b [.eventProcessed id k ty t] = [] := rfl

@[simp] theorem approvedStates_evaluated (b b' : Bytes) (newState : Option BatchState) :
    approvedStates b [.governanceEvaluated b' .approved newState] =
      if b = b' then [newState] else [] := by
  by_cases h : b = b' <;> simp [approvedStates, h]

/-- The approved entries for a batch that a call deposited, each with the call. -/
def approvals (b : Bytes) (a : Executed AccountId) : List (Call × Option BatchState) :=
  (approvedStates b (deposited a)).map fun s => (a.input.call, s)

def approvalsOf (b : Bytes) (h : List (Executed AccountId)) : List (Call × Option BatchState) :=
  h.flatMap (approvals b)

@[simp] theorem approvalsOf_append (b : Bytes) (h h' : List (Executed AccountId)) :
    approvalsOf b (h ++ h') = approvalsOf b h ++ approvalsOf b h' := List.flatMap_append

theorem approvalsOf_singleton {b : Bytes} {st st' : Chain} {x : Extrinsic AccountId}
    {out : DispatchResult} {events : List Event} (hlog : st'.log = st.log ++ events) :
    approvalsOf b [(⟨st, x, out, st'⟩ : Executed AccountId)] =
      (approvedStates b events).map fun s => (x.call, s) := by
  simp [approvalsOf, approvals, deposited, hlog]

/-- Who may take a batch to position `i` of the route. -/
def TakenBy (b : Bytes) (i : ℕ) (c : Call) : Prop :=
  ∃ role, if i < 3 then
    c = .evaluateGovernance b .custodyTransfer role ∧
      (role = ascii "Producer" ∨ role = ascii "Logistics" ∨ role = ascii "Retailer")
  else c = .evaluateGovernance b .qualityInspection role ∧ role = ascii "Regulator"

/-- A batch that has covered `n` legs of the route. -/
structure Covered (b : Bytes) (n : ℕ) (h : List (Executed AccountId)) (st : Chain) : Prop where
  le : n ≤ 4
  stored : st.batches.lookup b = (route.take n).getLast?
  logged : approvedStates b st.log = (route.take n).map some
  calls : (approvalsOf b h).map Prod.snd = (route.take n).map some
  takers : ∀ i p, (approvalsOf b h)[i]? = some p → TakenBy b i p.1

theorem Covered.currentState {b : Bytes} {n : ℕ} {h : List (Executed AccountId)} {st : Chain}
    (hc : Covered b n h st) : st.currentState b = ((route.take n).getLast?).getD .harvested := by
  unfold Chain.currentState
  rw [hc.stored]

/-- From each position the policy and the transition table leave one way on. -/
theorem next_leg {n : ℕ} (hn : n ≤ 4) {b : Bytes} {st : Chain} {ty : EventType} {role : Bytes}
    {next : BatchState} (hs : st.currentState b = ((route.take n).getLast?).getD .harvested)
    (hadv : AdvancesBatch st b ty role next) :
    ∃ hlt : n < route.length, next = route.get ⟨n, hlt⟩ ∧
      TakenBy b n (.evaluateGovernance b ty role) := by
  have htransition := hadv.transition
  have hp := exists_advancesBatch_iff.mp ⟨next, hadv⟩
  rw [hs] at htransition hp
  rcases hp with ⟨rfl, hrole, hstate⟩ | ⟨rfl, hrole, hstate⟩
  · interval_cases n
    · exact ⟨by decide, (Except.ok.inj htransition).symm, role, rfl, hrole⟩
    · exact ⟨by decide, (Except.ok.inj htransition).symm, role, rfl, hrole⟩
    · exact ⟨by decide, (Except.ok.inj htransition).symm, role, rfl, hrole⟩
    · simp [route] at hstate
    · simp [route] at hstate
  · interval_cases n
    · simp [route] at hstate
    · simp [route] at hstate
    · simp [route] at hstate
    · exact ⟨by decide, (Except.ok.inj htransition).symm, role, rfl, hrole⟩
    · simp [route] at hstate

/-- A step that leaves the batch and its entries alone keeps its position. -/
theorem Covered.append_of_nil {b : Bytes} {n : ℕ} {h : List (Executed AccountId)}
    {st st' : Chain} {x : Extrinsic AccountId} {out : DispatchResult} {events : List Event}
    (hc : Covered b n h st) (hlookup : st'.batches.lookup b = st.batches.lookup b)
    (hlog : st'.log = st.log ++ events) (hnone : approvedStates b events = []) :
    Covered b n (h ++ [⟨st, x, out, st'⟩]) st' := by
  have happrovals : approvalsOf b (h ++ [(⟨st, x, out, st'⟩ : Executed AccountId)]) =
      approvalsOf b h := by
    rw [approvalsOf_append, approvalsOf_singleton hlog, hnone]
    simp
  refine ⟨hc.le, hlookup.trans hc.stored, ?_, ?_, ?_⟩
  · rw [hlog, approvedStates_append, hnone, List.append_nil, hc.logged]
  · rw [happrovals, hc.calls]
  · rw [happrovals]
    exact hc.takers

/-- An approved evaluation takes the batch over the next leg. -/
theorem Covered.advance {b : Bytes} {n : ℕ} {h : List (Executed AccountId)} {st : Chain}
    {x : Extrinsic AccountId} {out : DispatchResult} (hc : Covered b n h st)
    (hlt : n < route.length) (htaken : TakenBy b n x.call) :
    Covered b (n + 1) (h ++ [⟨st, x, out, st.advance b (route.get ⟨n, hlt⟩)⟩])
      (st.advance b (route.get ⟨n, hlt⟩)) := by
  have htake : route.take (n + 1) = route.take n ++ [route.get ⟨n, hlt⟩] :=
    (List.take_concat_get' route n hlt).symm
  have hone : approvalsOf b [⟨st, x, out, st.advance b (route.get ⟨n, hlt⟩)⟩] =
      [(x.call, some (route.get ⟨n, hlt⟩))] := by
    rw [approvalsOf_singleton (Chain.advance_log ..), approvedStates_evaluated, if_pos rfl,
      List.map_singleton]
  have hlen : (approvalsOf b h).length = n := by
    have hl := congrArg List.length hc.calls
    rw [List.length_map, List.length_map, List.length_take, length_route] at hl
    rw [hl]
    exact Nat.min_eq_left hc.le
  refine ⟨hlt, ?_, ?_, ?_, ?_⟩
  · rw [htake, List.getLast?_concat, Chain.advance_batches, Finmap.lookup_insert]
  · rw [htake, Chain.advance_log, approvedStates_append, hc.logged, approvedStates_evaluated,
      if_pos rfl, List.map_append, List.map_singleton]
  · rw [approvalsOf_append, hone, List.map_append, hc.calls, htake, List.map_append]
    rfl
  · intro i p hp
    rw [approvalsOf_append, hone] at hp
    rcases lt_trichotomy i n with hi | rfl | hi
    · rw [List.getElem?_append_left (hlen.symm ▸ hi)] at hp
      exact hc.takers i p hp
    · rw [List.getElem?_append_right hlen.le, hlen, Nat.sub_self, List.getElem?_cons_zero,
        Option.some_inj] at hp
      rw [← hp]
      exact htaken
    · rw [List.getElem?_eq_none (by simp [hlen]; omega)] at hp
      cases hp

theorem covered (cfg : Config) (b : Bytes) (xs : List (Extrinsic AccountId)) :
    ∃ n, Covered b n (historyOf cfg xs) (chainAfter cfg xs) := by
  refine chain_induction (P := fun h st => ∃ n, Covered b n h st) ?_ ?_ ?_ ?_ ?_ xs
  · exact ⟨0, by decide, rfl, rfl, rfl, fun i p hp => by simp [approvalsOf] at hp⟩
  · rintro h st x err _ ⟨n, hc⟩
    exact ⟨n, hc.append_of_nil rfl (List.append_nil _).symm rfl⟩
  · rintro h st ctx who c _ _ ⟨n, hc⟩
    exact ⟨n, hc.append_of_nil rfl (Chain.register_log ..) (approvedStates_registered ..)⟩
  · rintro h st ctx who e r _ _ ⟨n, hc⟩
    exact ⟨n, hc.append_of_nil rfl (Chain.store_log ..) (approvedStates_processed ..)⟩
  · rintro h st ctx who b' ty role next _ hadv ⟨n, hc⟩
    by_cases hb : b = b'
    · subst hb
      obtain ⟨hlt, rfl, htaken⟩ := next_leg hc.le hc.currentState hadv
      exact ⟨n + 1, hc.advance hlt htaken⟩
    · have hevents : approvedStates b [.governanceEvaluated b' .approved (some next)] = [] := by
        rw [approvedStates_evaluated, if_neg hb]
      refine ⟨n, hc.append_of_nil ?_ (Chain.advance_log st b' next) hevents⟩
      rw [Chain.advance_batches, Finmap.lookup_insert_of_ne _ hb]

/-- The calls that can touch a batch. -/
def namesBatch (b : Bytes) (x : Extrinsic AccountId) : Bool :=
  match x.call with
  | .evaluateGovernance b' _ _ => b' = b
  | _ => false

theorem lookup_batches_skip {cfg : Config} {b : Bytes} {x : Extrinsic AccountId} {st : Chain}
    (h : namesBatch b x = false) :
    (dispatch cfg x st).2.batches.lookup b = st.batches.lookup b := by
  have heff := dispatch_effect cfg x st
  generalize dispatch cfg x st = out at heff
  cases heff with
  | refused err => rfl
  | onboarded _ c _ _ _ => rfl
  | processed _ e r _ _ _ => rfl
  | evaluated _ b' ty role next _ call _ =>
    have hne : b ≠ b' := by
      rintro rfl
      simp [namesBatch, call] at h
    exact Finmap.lookup_insert_of_ne _ hne

/-- An evaluation reads and writes the state of its own batch only. -/
theorem lookup_batches_act {cfg : Config} {b : Bytes} {x : Extrinsic AccountId} {st st' : Chain}
    (hx : namesBatch b x = true) (h : st.batches.lookup b = st'.batches.lookup b) :
    (dispatch cfg x st).2.batches.lookup b = (dispatch cfg x st').2.batches.lookup b := by
  by_cases hsigned : ∃ who, x.origin = .signed who
  · obtain ⟨ctx, origin, call⟩ := x
    obtain ⟨who, rfl⟩ := hsigned
    cases call with
    | onboardDevice c => simp [namesBatch] at hx
    | processEvent e => simp [namesBatch] at hx
    | evaluateGovernance b' ty role =>
      obtain rfl : b' = b := by simpa [namesBatch] using hx
      have hstate : st.currentState b' = st'.currentState b' := by
        unfold Chain.currentState
        rw [h]
      rw [dispatch_evaluateGovernance, dispatch_evaluateGovernance, hstate]
      rcases lookupAndEvaluatePolicy ty role (st'.currentState b') with err | _ | _
      · exact h
      · cases stateTransition (st'.currentState b') ty with
        | error err => exact h
        | ok next => simp
      · exact h
  · have horigin := not_exists.mp hsigned
    rw [dispatch_unsigned cfg horigin, dispatch_unsigned cfg horigin]
    exact h

/-- A batch depends on the calls that name it and on no others. -/
theorem lookup_batches_filter (cfg : Config) (b : Bytes) (xs : List (Extrinsic AccountId)) :
    (chainAfter cfg xs).batches.lookup b =
      (chainAfter cfg (xs.filter (namesBatch b))).batches.lookup b :=
  run_filter_view _ (fun st : Chain => st.batches.lookup b) (namesBatch b)
    (fun _ _ => lookup_batches_skip) (fun _ _ _ => lookup_batches_act) xs rfl

theorem harvested_notMem_route : BatchState.harvested ∉ route := by decide

/-- No call is permitted on an inspected batch, so it stays inspected. -/
theorem lookup_batches_inspected {cfg : Config} {b : Bytes} {st : Chain}
    (h : st.batches.lookup b = some .inspected) (ys : List (Extrinsic AccountId)) :
    (run (dispatch cfg) st ys).batches.lookup b = some .inspected := by
  let R (s t : Chain) : Prop :=
    s.batches.lookup b = some .inspected → t.batches.lookup b = some .inspected
  have hR : R st (run (dispatch cfg) st ys) := by
    refine chain_rel (fun _ hs => hs) (fun h₁ h₂ hs => h₂ (h₁ hs)) ?_ ?_ ?_ st ys
    · exact fun _ _ _ _ hs => hs
    · exact fun _ _ _ _ _ hs => hs
    · intro st b' ty role next hadv hs
      have hne : b ≠ b' := by
        rintro rfl
        have hp := exists_advancesBatch_iff.mp ⟨next, hadv⟩
        unfold Chain.currentState at hp
        rw [hs] at hp
        simp [Permitted] at hp
      rwa [Chain.advance_batches, Finmap.lookup_insert_of_ne _ hne]
  exact hR h

/-- The life of a batch. -/
theorem batch_lifecycle (cfg : Config) (xs : List (Extrinsic AccountId)) (b : Bytes) :
    approvedStates b (chainAfter cfg xs).log <+: route.map some ∧
      (chainAfter cfg xs).batches.lookup b =
        (approvedStates b (chainAfter cfg xs).log).getLast?.join ∧
      (chainAfter cfg xs).batches.lookup b ≠ some .harvested ∧
      (approvalsOf b (historyOf cfg xs)).map Prod.snd =
        approvedStates b (chainAfter cfg xs).log ∧
      (∀ i p, (approvalsOf b (historyOf cfg xs))[i]? = some p → TakenBy b i p.1) ∧
      ((chainAfter cfg xs).batches.lookup b = some .inspected → ∀ ys : List (Extrinsic AccountId),
        (chainAfter cfg (xs ++ ys)).batches.lookup b = some .inspected) ∧
      (chainAfter cfg xs).batches.lookup b =
        (chainAfter cfg (xs.filter (namesBatch b))).batches.lookup b := by
  obtain ⟨n, hc⟩ := covered cfg b xs
  refine ⟨?_, ?_, ?_, ?_, hc.takers, ?_, lookup_batches_filter cfg b xs⟩
  · rw [hc.logged]
    exact (List.take_prefix n route).map some
  · rw [hc.logged, hc.stored, List.getLast?_map]
    cases (route.take n).getLast? <;> rfl
  · intro hs
    rw [hc.stored] at hs
    exact harvested_notMem_route (List.mem_of_mem_take (List.mem_of_getLast? hs))
  · rw [hc.calls, hc.logged]
  · intro hs ys
    rw [chainAfter_append]
    exact lookup_batches_inspected hs ys

end Traceability.Pallet
