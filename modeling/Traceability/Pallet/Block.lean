import Traceability.Machine.Commute
import Traceability.Pallet.Mock
import Mathlib.Logic.Equiv.Fin.Rotate

/-! Order inside a block. Each call reads and writes the storage it names and steps a
counter, so calls that name different things may trade places. -/
namespace Traceability.Pallet
open Machine

variable {AccountId : Type}

/-- Calls whose order matters: two onboardings of one device id, an onboarding and an event
of that id, two evaluations of one batch. -/
def Dependent : Call → Call → Prop
  | .onboardDevice c, .onboardDevice c' => c.deviceId = c'.deviceId
  | .onboardDevice c, .processEvent e => c.deviceId = e.deviceId
  | .processEvent e, .onboardDevice c => e.deviceId = c.deviceId
  | .evaluateGovernance b _ _, .evaluateGovernance b' _ _ => b = b'
  | _, _ => False

instance : DecidableRel Dependent
  | .onboardDevice c, .onboardDevice c' => inferInstanceAs (Decidable (c.deviceId = c'.deviceId))
  | .onboardDevice c, .processEvent e => inferInstanceAs (Decidable (c.deviceId = e.deviceId))
  | .processEvent e, .onboardDevice c => inferInstanceAs (Decidable (e.deviceId = c.deviceId))
  | .evaluateGovernance b _ _, .evaluateGovernance b' _ _ => inferInstanceAs (Decidable (b = b'))
  | .onboardDevice _, .evaluateGovernance _ _ _ => .isFalse id
  | .processEvent _, .processEvent _ => .isFalse id
  | .processEvent _, .evaluateGovernance _ _ _ => .isFalse id
  | .evaluateGovernance _ _ _, .onboardDevice _ => .isFalse id
  | .evaluateGovernance _ _ _, .processEvent _ => .isFalse id

theorem Dependent.symm {x y : Call} (h : Dependent x y) : Dependent y x := by
  cases x <;> cases y <;> first | exact Eq.symm h | exact h

/-- The storage items of two chains are equal; their logs may differ. -/
structure SameStorage (st st' : Chain) : Prop where
  devices : st.devices = st'.devices
  events : st.events = st'.events
  batches : st.batches = st'.batches
  deviceCount : st.deviceCount = st'.deviceCount
  eventCount : st.eventCount = st'.eventCount
  governanceCheckpoints : st.governanceCheckpoints = st'.governanceCheckpoints

theorem sameStorage_equivalence : Equivalence SameStorage where
  refl _ := by constructor <;> rfl
  symm h := ⟨h.1.symm, h.2.symm, h.3.symm, h.4.symm, h.5.symm, h.6.symm⟩
  trans h h' := ⟨h.1.trans h'.1, h.2.trans h'.2, h.3.trans h'.3, h.4.trans h'.4, h.5.trans h'.5,
    h.6.trans h'.6⟩

/-- What a call does to the chain. -/
inductive Update where
  | idle
  | device (now : UInt64) (credential : DeviceCredential)
  | event (event : IoTEvent)
  | batch (batchId : Bytes) (next : BatchState)

def Update.apply (cfg : Config) : Update → Chain → Chain
  | .idle, st => st
  | .device now c, st => st.register now c
  | .event e, st => st.store cfg e
  | .batch b next, st => st.advance b next

/-- The updates a call can make. -/
def Update.MadeBy : Update → Call → Prop
  | .idle, _ => True
  | .device _ c, call => call = .onboardDevice c
  | .event e, call => call = .processEvent e
  | .batch b _, call => ∃ ty role, call = .evaluateGovernance b ty role

/-- Two chains agree on what a call reads. -/
def SameReads : Call → Chain → Chain → Prop
  | .onboardDevice c, st, st' => st.devices.lookup c.deviceId = st'.devices.lookup c.deviceId
  | .processEvent e, st, st' => st.devices.lookup e.deviceId = st'.devices.lookup e.deviceId
  | .evaluateGovernance b _ _, st, st' => st.batches.lookup b = st'.batches.lookup b

theorem SameReads.refl (call : Call) (st : Chain) : SameReads call st st := by
  cases call <;> rfl

theorem SameStorage.reads {st st' : Chain} (h : SameStorage st st') (call : Call) :
    SameReads call st st' := by
  cases call with
  | onboardDevice c => exact congrArg (Finmap.lookup c.deviceId) h.devices
  | processEvent e => exact congrArg (Finmap.lookup e.deviceId) h.devices
  | evaluateGovernance b ty role => exact congrArg (Finmap.lookup b) h.batches

/-- A call that is refused in two chains makes no update in either. -/
theorem exists_idle (cfg : Config) (call : Call) (out : DispatchResult) (st st' : Chain) :
    ∃ out' u, Update.MadeBy u call ∧ (out, st) = (out', u.apply cfg st) ∧
      (out, st') = (out', u.apply cfg st') :=
  ⟨out, .idle, trivial, rfl, rfl⟩

/-- Chains that agree on what a call reads give it one result and one update. -/
theorem dispatch_of_sameReads (cfg : Config) (x : Extrinsic AccountId) {st st' : Chain}
    (h : SameReads x.call st st') :
    ∃ out u, Update.MadeBy u x.call ∧ dispatch cfg x st = (out, u.apply cfg st) ∧
      dispatch cfg x st' = (out, u.apply cfg st') := by
  by_cases hsigned : ∃ who, x.origin = .signed who
  · obtain ⟨ctx, origin, call⟩ := x
    obtain ⟨who, rfl⟩ := hsigned
    cases call with
    | onboardDevice c =>
      have hmem : c.deviceId ∈ st.devices ↔ c.deviceId ∈ st'.devices := by
        rw [Finmap.mem_iff, Finmap.mem_iff, show st.devices.lookup c.deviceId = _ from h]
      simp only [dispatch_onboardDevice, hmem]
      split_ifs
      · exact exists_idle cfg _ _ st st'
      · exact ⟨_, .device ctx.now c, rfl, rfl, rfl⟩
      · exact exists_idle cfg _ _ st st'
      · exact exists_idle cfg _ _ st st'
    | processEvent e =>
      have hlookup : st.devices.lookup e.deviceId = st'.devices.lookup e.deviceId := h
      simp only [dispatch_processEvent, hlookup]
      split_ifs
      · cases st'.devices.lookup e.deviceId with
        | none => exact exists_idle cfg _ _ st st'
        | some r =>
          dsimp only
          split_ifs
          · exact ⟨_, .event e, rfl, rfl, rfl⟩
          · exact exists_idle cfg _ _ st st'
          · exact exists_idle cfg _ _ st st'
      · exact exists_idle cfg _ _ st st'
      · exact exists_idle cfg _ _ st st'
    | evaluateGovernance b ty role =>
      have hstate : st.currentState b = st'.currentState b := by
        unfold Chain.currentState
        rw [show st.batches.lookup b = _ from h]
      simp only [dispatch_evaluateGovernance, hstate]
      rcases lookupAndEvaluatePolicy ty role (st'.currentState b) with err | _ | _
      · exact exists_idle cfg _ _ st st'
      · dsimp only
        cases stateTransition (st'.currentState b) ty with
        | error err => exact exists_idle cfg _ _ st st'
        | ok next => exact ⟨_, .batch b next, ⟨ty, role, rfl⟩, rfl, rfl⟩
      · exact exists_idle cfg _ _ st st'
  · have horigin := not_exists.mp hsigned
    rw [dispatch_unsigned cfg horigin, dispatch_unsigned cfg horigin]
    exact exists_idle cfg _ _ st st'

/-- A call leaves alone what an independent call reads. -/
theorem sameReads_apply {cfg : Config} {u : Update} {x y : Call} (hu : u.MadeBy y)
    (h : ¬ Dependent x y) (st : Chain) : SameReads x (u.apply cfg st) st := by
  cases u with
  | idle => exact .refl x st
  | device now c =>
    obtain rfl := hu
    cases x with
    | onboardDevice c' => exact Finmap.lookup_insert_of_ne _ h
    | processEvent e => exact Finmap.lookup_insert_of_ne _ h
    | evaluateGovernance b ty role => rfl
  | event e =>
    obtain rfl := hu
    cases x <;> rfl
  | batch b next =>
    obtain ⟨ty, role, rfl⟩ := hu
    cases x with
    | onboardDevice c => rfl
    | processEvent e => rfl
    | evaluateGovernance b' ty' role' => exact Finmap.lookup_insert_of_ne _ h

theorem SameStorage.apply {st st' : Chain} (h : SameStorage st st') (cfg : Config) (u : Update) :
    SameStorage (u.apply cfg st) (u.apply cfg st') := by
  obtain ⟨devices, events, batches, deviceCount, eventCount, checkpoints⟩ := h
  cases u <;> constructor <;>
    simp [Update.apply, devices, events, batches, deviceCount, eventCount, checkpoints]

theorem respects_sameStorage (cfg : Config) :
    Respects (@dispatch AccountId cfg) SameStorage where
  output x h := by
    obtain ⟨out, u, -, hs, ht⟩ := dispatch_of_sameReads cfg x (h.reads x.call)
    rw [hs, ht]
  after x h := by
    obtain ⟨out, u, -, hs, ht⟩ := dispatch_of_sameReads cfg x (h.reads x.call)
    rw [hs, ht]
    exact h.apply cfg u

/-- Two events that are not told apart by their hash are one event. -/
def Distinguishes (cfg : Config) (x y : Call) : Prop :=
  ∀ e e', x = .processEvent e → y = .processEvent e' → cfg.hashOf e = cfg.hashOf e' → e = e'

/-- Updates of independent calls commute, the shared counters included. -/
theorem Update.apply_comm {cfg : Config} {u v : Update} {x y : Call} (hu : u.MadeBy x)
    (hv : v.MadeBy y) (h : ¬ Dependent x y) (hhash : Distinguishes cfg x y) (st : Chain) :
    SameStorage (v.apply cfg (u.apply cfg st)) (u.apply cfg (v.apply cfg st)) := by
  cases u with
  | idle => exact sameStorage_equivalence.refl _
  | device now c =>
    cases v with
    | device now' c' =>
      obtain rfl := hu
      obtain rfl := hv
      exact ⟨Finmap.insert_insert_of_ne _ h, rfl, rfl, rfl, rfl, rfl⟩
    | idle | event _ | batch _ _ => constructor <;> rfl
  | event e =>
    cases v with
    | event e' =>
      by_cases heq : cfg.hashOf e = cfg.hashOf e'
      · obtain rfl := hhash e e' hu hv heq
        exact sameStorage_equivalence.refl _
      · exact ⟨rfl, Finmap.insert_insert_of_ne _ heq, rfl, rfl, rfl, rfl⟩
    | idle | device _ _ | batch _ _ => constructor <;> rfl
  | batch b next =>
    cases v with
    | batch b' next' =>
      obtain ⟨ty, role, rfl⟩ := hu
      obtain ⟨ty', role', rfl⟩ := hv
      exact ⟨rfl, rfl, Finmap.insert_insert_of_ne _ h, rfl, rfl, rfl⟩
    | idle | device _ _ | event _ => constructor <;> rfl

/-- Independent calls give, in either order, the results and updates that each gives alone. -/
theorem dispatch_swap {x y : Extrinsic AccountId} (h : ¬ Dependent x.call y.call) (cfg : Config)
    (s : Chain) : ∃ (out out' : DispatchResult) (u v : Update),
      u.MadeBy x.call ∧ v.MadeBy y.call ∧
      dispatch cfg x s = (out, u.apply cfg s) ∧ dispatch cfg y s = (out', v.apply cfg s) ∧
      dispatch cfg x (v.apply cfg s) = (out, u.apply cfg (v.apply cfg s)) ∧
      dispatch cfg y (u.apply cfg s) = (out', v.apply cfg (u.apply cfg s)) := by
  obtain ⟨_, w, hw, hyw, -⟩ := dispatch_of_sameReads cfg y (.refl y.call s)
  obtain ⟨out, u, hu, hxw, hx⟩ := dispatch_of_sameReads cfg x (sameReads_apply hw h s)
  obtain ⟨out', v, hv, hyu, hy⟩ :=
    dispatch_of_sameReads cfg y (sameReads_apply hu (fun hd => h hd.symm) s)
  have hvw : w.apply cfg s = v.apply cfg s := congrArg Prod.snd (hyw.symm.trans hy)
  rw [hvw] at hxw
  exact ⟨out, out', u, v, hu, hv, hx, hy, hxw, hyu⟩

/-- Independent calls commute from every state, failing ones included. -/
theorem commutes_of_independent {cfg : Config} {x y : Extrinsic AccountId}
    (h : ¬ Dependent x.call y.call) (hhash : Distinguishes cfg x.call y.call) :
    Commutes (dispatch cfg) SameStorage x y := by
  constructor
  · intro s
    obtain ⟨out, out', u, v, -, -, hx, hy, hxv, -⟩ := dispatch_swap h cfg s
    rw [hy, hx, hxv]
  · intro s
    obtain ⟨out, out', u, v, -, -, hx, hy, -, hyu⟩ := dispatch_swap h cfg s
    rw [hx, hy, hyu]
  · intro s
    obtain ⟨out, out', u, v, hu, hv, hx, hy, hxv, hyu⟩ := dispatch_swap h cfg s
    rw [hx, hy, hxv, hyu]
    exact Update.apply_comm hu hv h hhash s

/-- Order independence inside a block: a permutation of the calls that keeps the order of the
dependent ones gives every call the result it had and leaves the same storage. -/
theorem block_order_independent (cfg : Config) (st : Chain) (xs : List (Extrinsic AccountId))
    (π : Equiv.Perm (Fin xs.length))
    (hfree : ∀ x ∈ xs, ∀ y ∈ xs, Distinguishes cfg x.call y.call)
    (hkeep : ∀ i j, i < j → Dependent (xs.get i).call (xs.get j).call → π.symm i < π.symm j) :
    let ys := List.ofFn fun p => xs.get (π p)
    SameStorage (run (dispatch cfg) st ys) (run (dispatch cfg) st xs) ∧
      ∀ p, (outputs (dispatch cfg) st ys)[p.val]? = (outputs (dispatch cfg) st xs)[(π p).val]? := by
  refine run_perm (respects_sameStorage cfg) sameStorage_equivalence xs π ?_ st
  intro i j hlt hno
  apply hkeep i j hlt
  by_contra hindependent
  refine hno (commutes_of_independent (fun hd => hindependent hd.symm) ?_)
  exact hfree _ (List.get_mem xs j) _ (List.get_mem xs i)

/-- The mock device's onboarding and reading keep their order, an evaluation moves in front. -/
theorem block_order_independent_mock :
    let xs := [Mock.call (.onboardDevice Mock.credential), Mock.call (.processEvent Mock.reading),
      Mock.call (.evaluateGovernance (ascii "batch-1") .custodyTransfer (ascii "Producer"))]
    let ys := [Mock.call (.evaluateGovernance (ascii "batch-1") .custodyTransfer
        (ascii "Producer")),
      Mock.call (.onboardDevice Mock.credential), Mock.call (.processEvent Mock.reading)]
    SameStorage (run (dispatch Mock.config) genesis ys)
      (run (dispatch Mock.config) genesis xs) := by
  intro xs ys
  have hfree : ∀ x ∈ xs, ∀ y ∈ xs, Distinguishes Mock.config x.call y.call := by
    intro x hx y hy e e' he he' _
    simp only [xs, List.mem_cons, List.not_mem_nil, or_false] at hx hy
    rcases hx with rfl | rfl | rfl <;> rcases hy with rfl | rfl | rfl <;> simp_all [Mock.call]
  exact (block_order_independent Mock.config genesis xs (finRotate 3).symm hfree (by decide)).1

end Traceability.Pallet
