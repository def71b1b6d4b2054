import Traceability.Pallet.Extrinsics
import Mathlib.Tactic.Simps.Basic

/-! What a dispatched call can do. A call either fails and changes nothing, or it makes
one of three updates under the conditions its checks establish. -/
namespace Traceability.Pallet
open Machine

variable {AccountId : Type}

/-- The freshness test of `processEvent`, on `u64` as the code computes it. -/
def Fresh (cfg : Config) (now : UInt64) (e : IoTEvent) : Prop :=
  e.timestamp ≤ now ∧ now - e.timestamp ≤ cfg.timestampFreshnessWindow

instance (cfg : Config) (now : UInt64) (e : IoTEvent) : Decidable (Fresh cfg now e) :=
  inferInstanceAs (Decidable (_ ∧ _))

/-- The guarded subtraction never wraps, so the test is exact over the integers. -/
theorem fresh_iff {cfg : Config} {now : UInt64} {e : IoTEvent} :
    Fresh cfg now e ↔ e.timestamp.toNat ≤ now.toNat ∧
      now.toNat ≤ e.timestamp.toNat + cfg.timestampFreshnessWindow.toNat := by
  unfold Fresh
  rw [UInt64.le_iff_toNat_le]
  apply and_congr_right
  intro hle
  rw [UInt64.le_iff_toNat_le, UInt64.toNat_sub_of_le _ _ (UInt64.le_iff_toNat_le.mpr hle)]
  omega

/-- The checks of `onboardDevice`. -/
structure AcceptsCredential (cfg : Config) (st : Chain) (c : DeviceCredential) : Prop where
  verified : cfg.ed25519Verify c.signature (encodeCredentialMessage c) c.publicKey = true
  schema : validateCredentialSchema c = true
  unregistered : c.deviceId ∉ st.devices

/-- The checks of `processEvent`, where `r` is the record it reads. -/
structure AdmitsEvent (cfg : Config) (now : UInt64) (st : Chain) (e : IoTEvent)
    (r : DeviceRecord) : Prop where
  schema : validateEventSchema e = true
  fresh : Fresh cfg now e
  registered : st.devices.lookup e.deviceId = some r
  active : r.status = .active
  verified : cfg.ed25519Verify e.signature (encodeEventMessage e) r.publicKey = true

/-- The conditions under which `evaluateGovernance` moves a batch to `next`. -/
structure AdvancesBatch (st : Chain) (b : Bytes) (ty : EventType) (role : Bytes)
    (next : BatchState) : Prop where
  approved : lookupAndEvaluatePolicy ty role (st.currentState b) = .ok .approved
  transition : stateTransition (st.currentState b) ty = .ok next

def DeviceCredential.record (c : DeviceCredential) (now : UInt64) : DeviceRecord :=
  ⟨c.deviceId, c.publicKey, c.producer, c.metadata, now, .active⟩

@[simps]
def Chain.register (st : Chain) (now : UInt64) (c : DeviceCredential) : Chain :=
  { st with
    devices := st.devices.insert c.deviceId (c.record now)
    deviceCount := st.deviceCount + 1
    log := st.log ++ [.deviceRegistered c.deviceId c.publicKey c.producer] }

@[simps]
def Chain.store (st : Chain) (cfg : Config) (e : IoTEvent) : Chain :=
  { st with
    events := st.events.insert (cfg.hashOf e) e
    eventCount := st.eventCount + 1
    log := st.log ++ [.eventProcessed e.deviceId (cfg.hashOf e) e.eventType e.timestamp] }

@[simps]
def Chain.advance (st : Chain) (b : Bytes) (next : BatchState) : Chain :=
  { st with
    batches := st.batches.insert b next
    governanceCheckpoints := st.governanceCheckpoints + 1
    log := st.log ++ [.governanceEvaluated b .approved (some next)] }

@[simp] theorem depositEvent_eq (ctx : Context) (event : Event) :
    depositEvent ctx event = modify fun st => { st with log := st.log ++ [event] } :=
  if_neg ctx.blockNumber_pos.ne'

/-- A call that is not signed is refused before it reads anything. -/
theorem dispatch_unsigned (cfg : Config) {x : Extrinsic AccountId}
    (h : ∀ who, x.origin ≠ .signed who) (st : Chain) :
    dispatch cfg x st = (.error .badOrigin, st) := by
  obtain ⟨ctx, origin, call⟩ := x
  cases origin with
  | signed who => exact absurd rfl (h who)
  | root => cases call <;> rfl
  | none => cases call <;> rfl

section Signed
variable (cfg : Config) (ctx : Context) (who : AccountId) (st : Chain)

theorem dispatch_onboardDevice (c : DeviceCredential) :
    dispatch cfg ⟨ctx, .signed who, .onboardDevice c⟩ st =
      if cfg.ed25519Verify c.signature (encodeCredentialMessage c) c.publicKey then
        if validateCredentialSchema c then
          if c.deviceId ∈ st.devices then (.error (.module .deviceAlreadyRegistered), st)
          else (.ok (), st.register ctx.now c)
        else (.error (.module .invalidCredentialSchema), st)
      else (.error (.module .invalidCredentialSignature), st) := by
  simp [dispatch, transactional, Extrinsic.body, onboardDevice, ensureSigned,
    Chain.register, DeviceCredential.record]

theorem dispatch_processEvent (e : IoTEvent) :
    dispatch cfg ⟨ctx, .signed who, .processEvent e⟩ st =
      if validateEventSchema e then
        if Fresh cfg ctx.now e then
          match st.devices.lookup e.deviceId with
          | none => (.error (.module .deviceNotRegistered), st)
          | some r =>
            if r.status = .active then
              if cfg.ed25519Verify e.signature (encodeEventMessage e) r.publicKey then
                (.ok (), st.store cfg e)
              else (.error (.module .invalidEventSignature), st)
            else (.error (.module .deviceNotActive), st)
        else (.error (.module .staleTimestamp), st)
      else (.error (.module .invalidEventSchema), st) := by
  simp only [dispatch, transactional, Extrinsic.body, processEvent, ensureSigned, pure_bind,
    settle_ensure_bind, settle_get_bind, settle_propagate_bind, settle_modify_bind,
    depositEvent_eq, settle_modify, Fresh, Bool.and_eq_true, decide_eq_true_eq]
  cases st.devices.lookup e.deviceId <;> rfl

theorem dispatch_evaluateGovernance (b : Bytes) (ty : EventType) (role : Bytes) :
    dispatch cfg ⟨ctx, .signed who, .evaluateGovernance b ty role⟩ st =
      match lookupAndEvaluatePolicy ty role (st.currentState b) with
      | .error err => (.error err, st)
      | .ok .rejected => (.error (.module .policyConditionsNotMet), st)
      | .ok .approved =>
        match stateTransition (st.currentState b) ty with
        | .error err => (.error err, st)
        | .ok next => (.ok (), st.advance b next) := by
  simp only [dispatch, transactional, Extrinsic.body, evaluateGovernance, ensureSigned, pure_bind,
    settle_get_bind, settle_propagate_bind]
  rcases lookupAndEvaluatePolicy ty role (st.currentState b) with err | _ | _
  · rfl
  · simp only [settle_propagate_bind, depositEvent_eq]
    cases stateTransition (st.currentState b) ty <;> rfl
  · simp

end Signed

/-- Everything a dispatched call can do. -/
inductive Effect (cfg : Config) (x : Extrinsic AccountId) (st : Chain) :
    DispatchResult × Chain → Prop
  | refused (err : DispatchError) : Effect cfg x st (.error err, st)
  | onboarded (who : AccountId) (c : DeviceCredential) (origin : x.origin = .signed who)
      (call : x.call = .onboardDevice c) (accepts : AcceptsCredential cfg st c) :
      Effect cfg x st (.ok (), st.register x.ctx.now c)
  | processed (who : AccountId) (e : IoTEvent) (r : DeviceRecord) (origin : x.origin = .signed who)
      (call : x.call = .processEvent e) (admits : AdmitsEvent cfg x.ctx.now st e r) :
      Effect cfg x st (.ok (), st.store cfg e)
  | evaluated (who : AccountId) (b : Bytes) (ty : EventType) (role : Bytes) (next : BatchState)
      (origin : x.origin = .signed who) (call : x.call = .evaluateGovernance b ty role)
      (advances : AdvancesBatch st b ty role next) :
      Effect cfg x st (.ok (), st.advance b next)

theorem dispatch_effect (cfg : Config) (x : Extrinsic AccountId) (st : Chain) :
    Effect cfg x st (dispatch cfg x st) := by
  by_cases h : ∃ who, x.origin = .signed who
  · obtain ⟨ctx, origin, call⟩ := x
    obtain ⟨who, rfl⟩ := h
    cases call with
    | onboardDevice c =>
      rw [dispatch_onboardDevice]
      split_ifs with hv hs hd
      · exact .refused _
      · exact .onboarded who c rfl rfl ⟨hv, hs, hd⟩
      · exact .refused _
      · exact .refused _
    | processEvent e =>
      rw [dispatch_processEvent]
      split_ifs with hs hf
      · cases hr : st.devices.lookup e.deviceId with
        | none => exact .refused _
        | some r =>
          dsimp only
          split_ifs with ha hv
          · exact .processed who e r rfl rfl ⟨hs, hf, hr, ha, hv⟩
          · exact .refused _
          · exact .refused _
      · exact .refused _
      · exact .refused _
    | evaluateGovernance b ty role =>
      rw [dispatch_evaluateGovernance]
      rcases hp : lookupAndEvaluatePolicy ty role (st.currentState b) with err | _ | _
      · exact .refused _
      · dsimp only
        cases ht : stateTransition (st.currentState b) ty with
        | error err => exact .refused _
        | ok next => exact .evaluated who b ty role next rfl rfl ⟨hp, ht⟩
      · exact .refused _
  · rw [dispatch_unsigned cfg (not_exists.mp h)]
    exact .refused _

/-- The conditions a call's checks put on the state before it. -/
def Enabled (cfg : Config) (x : Extrinsic AccountId) (st : Chain) : Prop :=
  match x.call with
  | .onboardDevice c => AcceptsCredential cfg st c
  | .processEvent e => ∃ r, AdmitsEvent cfg x.ctx.now st e r
  | .evaluateGovernance b ty role => ∃ next, AdvancesBatch st b ty role next

/-- A call succeeds exactly when it is signed and its conditions hold. -/
theorem dispatch_ok_iff {cfg : Config} {x : Extrinsic AccountId} {st : Chain} :
    (dispatch cfg x st).1 = .ok () ↔ (∃ who, x.origin = .signed who) ∧ Enabled cfg x st := by
  constructor
  · intro hok
    have heff := dispatch_effect cfg x st
    generalize dispatch cfg x st = out at heff hok
    cases heff with
    | refused err => cases hok
    | onboarded who c origin call accepts =>
      exact ⟨⟨who, origin⟩, by simpa [Enabled, call] using accepts⟩
    | processed who e r origin call admits =>
      exact ⟨⟨who, origin⟩, by simpa [Enabled, call] using ⟨r, admits⟩⟩
    | evaluated who b ty role next origin call advances =>
      exact ⟨⟨who, origin⟩, by simpa [Enabled, call] using ⟨next, advances⟩⟩
  · obtain ⟨ctx, origin, call⟩ := x
    rintro ⟨⟨who, rfl⟩, henabled⟩
    cases call with
    | onboardDevice c =>
      obtain ⟨hv, hs, hd⟩ := henabled
      simp [dispatch_onboardDevice, hv, hs, hd]
    | processEvent e =>
      obtain ⟨r, hs, hf, hr, ha, hv⟩ := henabled
      simp [dispatch_processEvent, hs, hf, hr, ha, hv]
    | evaluateGovernance b ty role =>
      obtain ⟨next, happroved, htransition⟩ := henabled
      simp [dispatch_evaluateGovernance, happroved, htransition]

/-- A call that does not succeed changes nothing. -/
theorem dispatch_of_ne_ok {cfg : Config} {x : Extrinsic AccountId} {st : Chain}
    (h : (dispatch cfg x st).1 ≠ .ok ()) : ∃ err, dispatch cfg x st = (.error err, st) := by
  have heff := dispatch_effect cfg x st
  generalize dispatch cfg x st = out at heff h
  cases heff with
  | refused err => exact ⟨err, rfl⟩
  | onboarded _ _ _ _ _ => exact absurd rfl h
  | processed _ _ _ _ _ _ => exact absurd rfl h
  | evaluated _ _ _ _ _ _ _ _ => exact absurd rfl h

theorem dispatch_of_not_enabled {cfg : Config} {x : Extrinsic AccountId} {st : Chain}
    (h : ¬ Enabled cfg x st) : ∃ err, dispatch cfg x st = (.error err, st) :=
  dispatch_of_ne_ok fun hok => h (dispatch_ok_iff.mp hok).2

section Conditions
variable {cfg : Config} {x : Extrinsic AccountId} {st : Chain}

theorem enabled_onboardDevice {c : DeviceCredential} (hx : x.call = .onboardDevice c) :
    Enabled cfg x st ↔ AcceptsCredential cfg st c := by rw [Enabled, hx]

theorem enabled_processEvent {e : IoTEvent} (hx : x.call = .processEvent e) :
    Enabled cfg x st ↔ ∃ r, AdmitsEvent cfg x.ctx.now st e r := by rw [Enabled, hx]

end Conditions

end Traceability.Pallet
