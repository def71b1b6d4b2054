import Traceability.Machine.Run
import Traceability.Pallet.Effects

/-! Runs of the pallet from empty storage, and what their histories record. -/
namespace Traceability.Pallet
open Machine

variable {AccountId : Type}

/-- A call with its result and the chain before and after it. -/
abbrev Executed (AccountId : Type) := Entry Chain (Extrinsic AccountId) DispatchResult

abbrev chainAfter (cfg : Config) (xs : List (Extrinsic AccountId)) : Chain :=
  run (dispatch cfg) genesis xs

abbrev historyOf (cfg : Config) (xs : List (Extrinsic AccountId)) : List (Executed AccountId) :=
  history (dispatch cfg) genesis xs

theorem chainAfter_append (cfg : Config) (xs ys : List (Extrinsic AccountId)) :
    chainAfter cfg (xs ++ ys) = run (dispatch cfg) (chainAfter cfg xs) ys := run_append _ _ _ _

theorem historyOf_append (cfg : Config) (xs ys : List (Extrinsic AccountId)) :
    historyOf cfg (xs ++ ys) =
      historyOf cfg xs ++ history (dispatch cfg) (chainAfter cfg xs) ys := history_append _ _ _ _

/-- The credential a successful onboarding accepted. -/
def acceptedCredential (a : Executed AccountId) : Option DeviceCredential :=
  match a.input.call, a.output with
  | .onboardDevice c, .ok () => some c
  | _, _ => none

/-- The event a successful `processEvent` call admitted. -/
def admittedEvent (a : Executed AccountId) : Option IoTEvent :=
  match a.input.call, a.output with
  | .processEvent e, .ok () => some e
  | _, _ => none

/-- The credentials accepted so far, each with the clock reading it was accepted at. -/
def acceptances (h : List (Executed AccountId)) : List (DeviceCredential × UInt64) :=
  h.filterMap fun a => (acceptedCredential a).map fun c => (c, a.input.ctx.now)

def admittedEvents (h : List (Executed AccountId)) : List IoTEvent := h.filterMap admittedEvent

/-- The first credential accepted for a device id, with its clock reading. -/
def firstAccepted (id : Bytes) (h : List (Executed AccountId)) :
    Option (DeviceCredential × UInt64) :=
  (acceptances h).find? fun p => p.1.deviceId = id

/-- The events a call deposited. -/
def deposited (a : Executed AccountId) : List Event := a.after.log.drop a.before.log.length

/-- The keys of the accepted credentials. -/
def acceptedKeys (h : List (Executed AccountId)) : List Public :=
  (acceptances h).map fun p => p.1.publicKey

/-- The messages of the admitted events. -/
def admittedMessages (h : List (Executed AccountId)) : List Bytes :=
  (admittedEvents h).map encodeEventMessage

/-- Under each of these keys a signature verifies for at most one of these messages. -/
def Config.IdealSignatures (cfg : Config) (keys : List Public) (messages : List Bytes) : Prop :=
  ∀ k ∈ keys, ∀ m ∈ messages, ∀ m' ∈ messages, ∀ s,
    cfg.ed25519Verify s m k = true → cfg.ed25519Verify s m' k = true → m = m'

theorem Config.IdealSignatures.eq_of_pair {cfg : Config} {k : Public} {m m' : Bytes}
    {s : Signature} (h : cfg.IdealSignatures [k] [m, m'])
    (hm : cfg.ed25519Verify s m k = true) (hm' : cfg.ed25519Verify s m' k = true) : m = m' :=
  h k (by simp) m (by simp) m' (by simp) s hm hm'

/-- The event hash separates the events that the run admits. -/
def CollisionFree (cfg : Config) (h : List (Executed AccountId)) : Prop :=
  ∀ e ∈ admittedEvents h, ∀ e' ∈ admittedEvents h, cfg.hashOf e = cfg.hashOf e' → e = e'

section Entries
variable (st st' : Chain) (ctx : Context) (origin : Origin AccountId)

@[simp] theorem acceptedCredential_onboardDevice (c : DeviceCredential) :
    acceptedCredential ⟨st, ⟨ctx, origin, .onboardDevice c⟩, .ok (), st'⟩ = some c := rfl

@[simp] theorem acceptedCredential_processEvent (e : IoTEvent) :
    acceptedCredential ⟨st, ⟨ctx, origin, .processEvent e⟩, .ok (), st'⟩ = none := rfl

@[simp] theorem acceptedCredential_evaluateGovernance (b : Bytes) (ty : EventType) (role : Bytes) :
    acceptedCredential ⟨st, ⟨ctx, origin, .evaluateGovernance b ty role⟩, .ok (), st'⟩ = none := rfl

@[simp] theorem acceptedCredential_error (x : Extrinsic AccountId) (err : DispatchError) :
    acceptedCredential ⟨st, x, .error err, st'⟩ = none := by
  obtain ⟨_, _, call⟩ := x
  cases call <;> rfl

@[simp] theorem admittedEvent_onboardDevice (c : DeviceCredential) :
    admittedEvent ⟨st, ⟨ctx, origin, .onboardDevice c⟩, .ok (), st'⟩ = none := rfl

@[simp] theorem admittedEvent_processEvent (e : IoTEvent) :
    admittedEvent ⟨st, ⟨ctx, origin, .processEvent e⟩, .ok (), st'⟩ = some e := rfl

@[simp] theorem admittedEvent_evaluateGovernance (b : Bytes) (ty : EventType) (role : Bytes) :
    admittedEvent ⟨st, ⟨ctx, origin, .evaluateGovernance b ty role⟩, .ok (), st'⟩ = none := rfl

@[simp] theorem admittedEvent_error (x : Extrinsic AccountId) (err : DispatchError) :
    admittedEvent ⟨st, x, .error err, st'⟩ = none := by
  obtain ⟨_, _, call⟩ := x
  cases call <;> rfl

end Entries

theorem acceptedCredential_eq_some {a : Executed AccountId} {c : DeviceCredential} :
    acceptedCredential a = some c ↔ a.input.call = .onboardDevice c ∧ a.output = .ok () := by
  unfold acceptedCredential
  constructor
  · intro h
    split at h
    · exact ⟨by simp_all, by assumption⟩
    · simp at h
  · rintro ⟨hc, ho⟩
    simp [hc, ho]

theorem admittedEvent_eq_some {a : Executed AccountId} {e : IoTEvent} :
    admittedEvent a = some e ↔ a.input.call = .processEvent e ∧ a.output = .ok () := by
  unfold admittedEvent
  constructor
  · intro h
    split at h
    · exact ⟨by simp_all, by assumption⟩
    · simp at h
  · rintro ⟨hc, ho⟩
    simp [hc, ho]

theorem mem_acceptedKeys {h : List (Executed AccountId)} {a : Executed AccountId}
    {c : DeviceCredential} (ha : a ∈ h) (hc : acceptedCredential a = some c) :
    c.publicKey ∈ acceptedKeys h := by
  refine List.mem_map.mpr ⟨(c, a.input.ctx.now), List.mem_filterMap.mpr ⟨a, ha, ?_⟩, rfl⟩
  rw [hc, Option.map_some]

theorem mem_admittedEvents {h : List (Executed AccountId)} {e : IoTEvent} :
    e ∈ admittedEvents h ↔ ∃ a ∈ h, admittedEvent a = some e := List.mem_filterMap

@[simp] theorem admittedEvents_append (h h' : List (Executed AccountId)) :
    admittedEvents (h ++ h') = admittedEvents h ++ admittedEvents h' := List.filterMap_append

theorem admittedEvents_concat_of_none {h : List (Executed AccountId)} {a : Executed AccountId}
    (ha : admittedEvent a = none) : admittedEvents (h ++ [a]) = admittedEvents h := by
  simp [admittedEvents, ha]

theorem admittedEvents_concat_of_some {h : List (Executed AccountId)} {a : Executed AccountId}
    {e : IoTEvent} (ha : admittedEvent a = some e) :
    admittedEvents (h ++ [a]) = admittedEvents h ++ [e] := by
  simp [admittedEvents, ha]

@[simp] theorem acceptances_append (h h' : List (Executed AccountId)) :
    acceptances (h ++ h') = acceptances h ++ acceptances h' := List.filterMap_append

theorem firstAccepted_append (id : Bytes) (h h' : List (Executed AccountId)) :
    firstAccepted id (h ++ h') = (firstAccepted id h).or (firstAccepted id h') := by
  simp [firstAccepted]

/-- A first acceptance is an onboarding of the history, for the id it is looked up by. -/
theorem firstAccepted_eq_some {id : Bytes} {h : List (Executed AccountId)}
    {c : DeviceCredential} {t : UInt64} (hf : firstAccepted id h = some (c, t)) :
    c.deviceId = id ∧ ∃ a ∈ h, acceptedCredential a = some c ∧ a.input.ctx.now = t := by
  refine ⟨by simpa using List.find?_some hf, ?_⟩
  obtain ⟨a, ha, hac⟩ := List.mem_filterMap.mp (List.mem_of_find?_eq_some hf)
  obtain ⟨c', hc', heq⟩ := Option.map_eq_some_iff.mp hac
  cases heq
  exact ⟨a, ha, hc', rfl⟩

/-- A call of the history succeeded exactly when it was signed and enabled. -/
theorem output_eq_ok_iff {cfg : Config} {xs : List (Extrinsic AccountId)}
    {a : Executed AccountId} (ha : a ∈ historyOf cfg xs) :
    a.output = .ok () ↔ (∃ who, a.input.origin = .signed who) ∧ Enabled cfg a.input a.before := by
  rw [← dispatch_ok_iff, step_of_mem_history _ ha]

/-- An accepted credential passed every check in the state before its call. -/
theorem accepts_of_mem_history {cfg : Config} {xs : List (Extrinsic AccountId)}
    {a : Executed AccountId} {c : DeviceCredential} (ha : a ∈ historyOf cfg xs)
    (hc : acceptedCredential a = some c) : AcceptsCredential cfg a.before c := by
  obtain ⟨hcall, hout⟩ := acceptedCredential_eq_some.mp hc
  exact (enabled_onboardDevice hcall).mp ((output_eq_ok_iff ha).mp hout).2

/-- The admissions of a history are its signed calls for events that pass every check. -/
theorem admittedEvent_iff {cfg : Config} {xs : List (Extrinsic AccountId)}
    {a : Executed AccountId} {e : IoTEvent} (ha : a ∈ historyOf cfg xs) :
    admittedEvent a = some e ↔ a.input.call = .processEvent e ∧
      (∃ who, a.input.origin = .signed who) ∧
        ∃ r, AdmitsEvent cfg a.input.ctx.now a.before e r := by
  rw [admittedEvent_eq_some, output_eq_ok_iff ha]
  apply and_congr_right
  intro hcall
  rw [enabled_processEvent hcall]

theorem admits_of_mem_history {cfg : Config} {xs : List (Extrinsic AccountId)}
    {a : Executed AccountId} {e : IoTEvent} (ha : a ∈ historyOf cfg xs)
    (he : admittedEvent a = some e) : ∃ r, AdmitsEvent cfg a.input.ctx.now a.before e r :=
  ((admittedEvent_iff ha).mp he).2.2

/-- A history and the chain it ends in, for some run from empty storage. -/
def Reached (cfg : Config) (h : List (Executed AccountId)) (st : Chain) : Prop :=
  ∃ pre, historyOf cfg pre = h ∧ chainAfter cfg pre = st

/-- Induction along a run, one case for each thing a call can do. -/
theorem chain_induction {cfg : Config} {P : List (Executed AccountId) → Chain → Prop}
    (start : P [] genesis)
    (refused : ∀ h st x err, Reached cfg h st → P h st → P (h ++ [⟨st, x, .error err, st⟩]) st)
    (onboarded : ∀ h st ctx who c, Reached cfg h st → AcceptsCredential cfg st c → P h st →
      P (h ++ [⟨st, ⟨ctx, .signed who, .onboardDevice c⟩, .ok (), st.register ctx.now c⟩])
        (st.register ctx.now c))
    (processed : ∀ h st ctx who e r, Reached cfg h st → AdmitsEvent cfg ctx.now st e r → P h st →
      P (h ++ [⟨st, ⟨ctx, .signed who, .processEvent e⟩, .ok (), st.store cfg e⟩])
        (st.store cfg e))
    (evaluated : ∀ h st ctx who b ty role next, Reached cfg h st →
      AdvancesBatch st b ty role next → P h st →
      P (h ++ [⟨st, ⟨ctx, .signed who, .evaluateGovernance b ty role⟩, .ok (), st.advance b next⟩])
        (st.advance b next))
    (xs : List (Extrinsic AccountId)) : P (historyOf cfg xs) (chainAfter cfg xs) := by
  refine history_induction _ start (fun pre x hp => ?_) xs
  have hr : Reached cfg (historyOf cfg pre) (chainAfter cfg pre) := ⟨pre, rfl, rfl⟩
  have heff := dispatch_effect cfg x (chainAfter cfg pre)
  unfold execute
  generalize dispatch cfg x (chainAfter cfg pre) = out at heff
  obtain ⟨ctx, origin, call⟩ := x
  cases heff with
  | refused err => exact refused _ _ _ err hr hp
  | onboarded who c ho hc accepts =>
    cases ho
    cases hc
    exact onboarded _ _ ctx who c hr accepts hp
  | processed who e r ho hc admits =>
    cases ho
    cases hc
    exact processed _ _ ctx who e r hr admits hp
  | evaluated who b ty role next ho hc advances =>
    cases ho
    cases hc
    exact evaluated _ _ ctx who b ty role next hr advances hp

/-- Runs respect every reflexive and transitive relation that the three updates respect. -/
theorem chain_rel {cfg : Config} {R : Chain → Chain → Prop} (refl : ∀ s, R s s)
    (trans : ∀ {s t u}, R s t → R t u → R s u)
    (onboarded : ∀ st now c, AcceptsCredential cfg st c → R st (st.register now c))
    (processed : ∀ st now e r, AdmitsEvent cfg now st e r → R st (st.store cfg e))
    (evaluated : ∀ st b ty role next, AdvancesBatch st b ty role next → R st (st.advance b next))
    (st : Chain) (xs : List (Extrinsic AccountId)) : R st (run (dispatch cfg) st xs) := by
  refine run_rel _ refl trans (fun st x => ?_) st xs
  have heff := dispatch_effect cfg x st
  generalize dispatch cfg x st = out at heff
  cases heff with
  | refused err => exact refl st
  | onboarded _ c _ _ accepts => exact onboarded st _ c accepts
  | processed _ e r _ _ admits => exact processed st _ e r admits
  | evaluated _ b ty role next _ _ advances => exact evaluated st b ty role next advances

end Traceability.Pallet
