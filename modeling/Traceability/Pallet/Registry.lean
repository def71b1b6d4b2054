import Traceability.Machine.Journal
import Traceability.Pallet.Mock

/-! The device registry. What it holds for an id is a function of the history: the record
of the first credential accepted for that id. -/
namespace Traceability.Pallet
open Machine Storage

variable {AccountId : Type}

theorem firstAccepted_eq_none_of_acceptances {id : Bytes} {a : Executed AccountId}
    (h : acceptedCredential a = none) : firstAccepted id [a] = none := by
  simp [firstAccepted, acceptances, h]

/-- The registry is the history of first acceptances, and the counter counts it. -/
structure RegistryInvariant (h : List (Executed AccountId)) (st : Chain) : Prop where
  lookup_eq : ∀ id, st.devices.lookup id = (firstAccepted id h).map fun p => p.1.record p.2
  counted : st.deviceCount = UInt64.ofNat st.devices.keys.card
  card_le : st.devices.keys.card ≤ h.length

theorem RegistryInvariant.append_of_none {h : List (Executed AccountId)} {st st' : Chain}
    {a : Executed AccountId} (hi : RegistryInvariant h st) (ha : acceptedCredential a = none)
    (hd : st'.devices = st.devices) (hc : st'.deviceCount = st.deviceCount) :
    RegistryInvariant (h ++ [a]) st' := by
  constructor
  · intro id
    rw [hd, hi.lookup_eq, firstAccepted_append, firstAccepted_eq_none_of_acceptances ha,
      Option.or_none]
  · rw [hd, hc, hi.counted]
  · rw [hd]
    exact hi.card_le.trans (by simp)

theorem registryInvariant (cfg : Config) (xs : List (Extrinsic AccountId)) :
    RegistryInvariant (historyOf cfg xs) (chainAfter cfg xs) := by
  refine chain_induction ⟨fun id => rfl, rfl, le_rfl⟩ ?_ ?_ ?_ ?_ xs
  · intro h st x err _ hi
    exact hi.append_of_none (acceptedCredential_error _ _ _ _) rfl rfl
  · intro h st ctx who c _ accepts hi
    constructor
    · intro id
      have hnew : firstAccepted id
          [(⟨st, ⟨ctx, .signed who, .onboardDevice c⟩, .ok (), st.register ctx.now c⟩ :
            Executed AccountId)] = if c.deviceId = id then some (c, ctx.now) else none := by
        simp [firstAccepted, acceptances, List.find?_cons]
        split <;> simp_all
      rw [Chain.register_devices, lookup_insert_eq, firstAccepted_append, hnew]
      by_cases hid : id = c.deviceId
      · subst hid
        have hfree : firstAccepted c.deviceId h = none := by
          have hl := Finmap.lookup_eq_none.mpr accepts.unregistered
          rw [hi.lookup_eq] at hl
          simpa using hl
        simp [hfree]
      · simp [hid, Ne.symm hid, hi.lookup_eq]
    · rw [Chain.register_deviceCount, hi.counted, counter_succ, Chain.register_devices,
        card_keys_insert_of_notMem accepts.unregistered]
    · rw [Chain.register_devices, card_keys_insert_of_notMem accepts.unregistered]
      simpa using hi.card_le
  · intro h st ctx who e r _ _ hi
    exact hi.append_of_none (acceptedCredential_processEvent _ _ _ _ _) rfl rfl
  · intro h st ctx who b ty role next _ _ hi
    exact hi.append_of_none (acceptedCredential_evaluateGovernance _ _ _ _ _ _ _) rfl rfl

/-- No call removes or changes a record. -/
theorem devices_lookup_run {cfg : Config} {st : Chain} {id : Bytes} {r : DeviceRecord}
    (h : st.devices.lookup id = some r) (ys : List (Extrinsic AccountId)) :
    (run (dispatch cfg) st ys).devices.lookup id = some r := by
  let R (s t : Chain) : Prop := ∀ id r, s.devices.lookup id = some r → t.devices.lookup id = some r
  have hR : R st (run (dispatch cfg) st ys) := by
    refine chain_rel (fun _ _ _ hr => hr) (fun h₁ h₂ id r hr => h₂ id r (h₁ id r hr)) ?_ ?_ ?_ st ys
    · intro st now c accepts id r hr
      have hne : id ≠ c.deviceId := by
        rintro rfl
        exact accepts.unregistered (Finmap.mem_of_lookup_eq_some hr)
      rwa [Chain.register_devices, Finmap.lookup_insert_of_ne _ hne]
    · exact fun _ _ _ _ _ _ _ hr => hr
    · exact fun _ _ _ _ _ _ _ _ hr => hr
  exact hR id r h

/-- A stored record is the record of the first credential accepted for its id. -/
theorem record_provenance {cfg : Config} {xs : List (Extrinsic AccountId)} {id : Bytes}
    {r : DeviceRecord} (h : (chainAfter cfg xs).devices.lookup id = some r) :
    ∃ c t, firstAccepted id (historyOf cfg xs) = some (c, t) ∧ r = c.record t ∧
      c.deviceId = id ∧ ∃ a ∈ historyOf cfg xs, acceptedCredential a = some c ∧
        AcceptsCredential cfg a.before c := by
  rw [(registryInvariant cfg xs).lookup_eq] at h
  obtain ⟨⟨c, t⟩, hf, rfl⟩ := Option.map_eq_some_iff.mp h
  obtain ⟨hid, a, ha, hac, -⟩ := firstAccepted_eq_some hf
  exact ⟨c, t, hf, rfl, hid, a, ha, hac, accepts_of_mem_history ha hac⟩

/-- A registered key came with an accepted credential. -/
theorem registered_mem_acceptedKeys {cfg : Config} {xs : List (Extrinsic AccountId)} {id : Bytes}
    {r : DeviceRecord} (h : (chainAfter cfg xs).devices.lookup id = some r) :
    r.publicKey ∈ acceptedKeys (historyOf cfg xs) := by
  obtain ⟨c, t, -, rfl, -, a, ha, hac, -⟩ := record_provenance h
  exact mem_acceptedKeys ha hac

/-- What every stored record satisfies under the id it is filed by. -/
structure WellFormedRecord (id : Bytes) (r : DeviceRecord) : Prop where
  filed : r.deviceId = id
  deviceId : r.deviceId ≠ []
  producer : r.producer ≠ []
  metadata : r.metadata.length ≤ 1024
  active : r.status = .active

theorem wellFormedRecord {cfg : Config} {xs : List (Extrinsic AccountId)} {id : Bytes}
    {r : DeviceRecord} (h : (chainAfter cfg xs).devices.lookup id = some r) :
    WellFormedRecord id r := by
  obtain ⟨c, t, -, rfl, hid, a, -, -, accepts⟩ := record_provenance h
  obtain ⟨hd, hp, hm⟩ := validateCredentialSchema_iff.mp accepts.schema
  exact ⟨hid, hd, hp, hm, rfl⟩

/-- Onboarding a registered id fails, whatever the credential and the origin. -/
theorem dispatch_registered {cfg : Config} {st : Chain} {x : Extrinsic AccountId}
    {c : DeviceCredential} (hx : x.call = .onboardDevice c) (hc : c.deviceId ∈ st.devices) :
    ∃ err, dispatch cfg x st = (.error err, st) := by
  exact dispatch_of_not_enabled fun h => ((enabled_onboardDevice hx).mp h).unregistered hc

/-- Where every record is active, `processEvent` never refuses for inactivity. -/
theorem dispatch_processEvent_ne_deviceNotActive {cfg : Config} {st : Chain}
    {x : Extrinsic AccountId} {e : IoTEvent} (hx : x.call = .processEvent e)
    (hact : ∀ id r, st.devices.lookup id = some r → r.status = .active) :
    (dispatch cfg x st).1 ≠ .error (.module .deviceNotActive) := by
  by_cases h : ∃ who, x.origin = .signed who
  · obtain ⟨ctx, origin, call⟩ := x
    obtain ⟨who, rfl⟩ := h
    cases hx
    rw [dispatch_processEvent]
    split_ifs with hs hf
    · cases hr : st.devices.lookup e.deviceId with
      | none => simp
      | some r =>
        dsimp only
        rw [if_pos (hact _ r hr)]
        split_ifs <;> simp
    · simp
    · simp
  · simp [dispatch_unsigned cfg (not_exists.mp h)]

/-- The device registry is append-only and counted: records are well formed and filed
under their own id, the counter is their number, the first accepted credential fixes a
record for ever, and a second onboarding fails without effect. -/
theorem registry_append_only (cfg : Config) (xs : List (Extrinsic AccountId))
    (hlen : xs.length < 2 ^ 64) :
    (∀ id r, (chainAfter cfg xs).devices.lookup id = some r → WellFormedRecord id r) ∧
      (chainAfter cfg xs).deviceCount.toNat = (chainAfter cfg xs).devices.keys.card ∧
      (∀ id r, (chainAfter cfg xs).devices.lookup id = some r → ∀ ys : List (Extrinsic AccountId),
        (chainAfter cfg (xs ++ ys)).devices.lookup id = some r) ∧
      (∀ id, (chainAfter cfg xs).devices.lookup id =
        (firstAccepted id (historyOf cfg xs)).map fun p => p.1.record p.2) ∧
      (∀ (x : Extrinsic AccountId) c, x.call = .onboardDevice c →
        c.deviceId ∈ (chainAfter cfg xs).devices →
          ∃ err, dispatch cfg x (chainAfter cfg xs) = (.error err, chainAfter cfg xs)) ∧
      ∀ (x : Extrinsic AccountId) e, x.call = .processEvent e →
        (dispatch cfg x (chainAfter cfg xs)).1 ≠ .error (.module .deviceNotActive) := by
  have hi := registryInvariant cfg xs
  have hcard : (chainAfter cfg xs).devices.keys.card < 2 ^ 64 :=
    lt_of_le_of_lt (by simpa using hi.card_le) hlen
  refine ⟨fun id r => wellFormedRecord, counter_toNat hi.counted hcard, ?_, hi.lookup_eq, ?_, ?_⟩
  · intro id r hr ys
    rw [chainAfter_append]
    exact devices_lookup_run hr ys
  · exact fun x c hx hc => dispatch_registered hx hc
  · exact fun x e hx => dispatch_processEvent_ne_deviceNotActive hx
      fun id r hr => (wellFormedRecord hr).active

/-- After the mock device is onboarded, its id stays taken. -/
theorem registry_append_only_mock :
    let xs := [Mock.call (.onboardDevice Mock.credential)]
    (chainAfter Mock.config xs).devices.lookup Mock.credential.deviceId =
        some (Mock.credential.record Mock.now) ∧
      (chainAfter Mock.config xs).deviceCount.toNat =
        (chainAfter Mock.config xs).devices.keys.card := by
  intro xs
  have h := registry_append_only Mock.config xs (by decide)
  exact ⟨by decide +kernel, h.2.1⟩

end Traceability.Pallet
