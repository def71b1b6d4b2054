import Traceability.Pallet.Registry

/-! The event index. Every stored event is filed under its own hash and was admitted by an
earlier call, from a device onboarded before that, under a key that still verifies it. -/
namespace Traceability.Pallet
open Machine Storage

variable {AccountId : Type}

theorem CollisionFree.of_append {cfg : Config} {h h' : List (Executed AccountId)}
    (hc : CollisionFree cfg (h ++ h')) : CollisionFree cfg h := by
  intro e he e' he' heq
  exact hc e (by simp [he]) e' (by simp [he']) heq

/-- The index holds admitted events under their hash, all of them when no two collide, and
the counter counts the admissions. -/
structure IndexInvariant (cfg : Config) (h : List (Executed AccountId)) (st : Chain) : Prop where
  sound : ∀ k e, st.events.lookup k = some e → k = cfg.hashOf e ∧ e ∈ admittedEvents h
  complete : CollisionFree cfg h → ∀ e ∈ admittedEvents h, st.events.lookup (cfg.hashOf e) = some e
  counted : st.eventCount = UInt64.ofNat (admittedEvents h).length

theorem IndexInvariant.append_of_none {cfg : Config} {h : List (Executed AccountId)}
    {st st' : Chain} {a : Executed AccountId} (hi : IndexInvariant cfg h st)
    (ha : admittedEvent a = none) (he : st'.events = st.events)
    (hc : st'.eventCount = st.eventCount) : IndexInvariant cfg (h ++ [a]) st' := by
  have hadm := admittedEvents_concat_of_none (h := h) ha
  constructor
  · rw [he, hadm]
    exact hi.sound
  · intro hfree
    rw [he, hadm]
    exact hi.complete hfree.of_append
  · rw [hc, hadm]
    exact hi.counted

theorem indexInvariant (cfg : Config) (xs : List (Extrinsic AccountId)) :
    IndexInvariant cfg (historyOf cfg xs) (chainAfter cfg xs) := by
  refine chain_induction ?_ ?_ ?_ ?_ ?_ xs
  · refine ⟨fun k e h => ?_, fun _ e he => ?_, rfl⟩
    · simp [genesis] at h
    · simp [admittedEvents] at he
  · intro h st x err _ hi
    exact hi.append_of_none (admittedEvent_error _ _ _ _) rfl rfl
  · intro h st ctx who c _ _ hi
    exact hi.append_of_none (admittedEvent_onboardDevice _ _ _ _ _) rfl rfl
  · intro h st ctx who e r _ _ hi
    have hadm := admittedEvents_concat_of_some (h := h)
      (admittedEvent_processEvent st (st.store cfg e) ctx (.signed who) e)
    constructor
    · intro k e' hk
      rw [Chain.store_events, lookup_insert_eq] at hk
      split_ifs at hk with hkey
      · cases hk
        exact ⟨hkey, by simp [hadm]⟩
      · obtain ⟨hh, hm⟩ := hi.sound k e' hk
        exact ⟨hh, by simp [hadm, hm]⟩
    · intro hfree e' he'
      rw [Chain.store_events, lookup_insert_eq]
      split_ifs with hkey
      · rw [hfree e' he' e (by simp [hadm]) hkey]
      · rw [hadm, List.mem_append, List.mem_singleton] at he'
        rcases he' with he' | rfl
        · exact hi.complete hfree.of_append e' he'
        · exact absurd rfl hkey
    · rw [hadm, Chain.store_eventCount, hi.counted, counter_succ, List.length_append,
        List.length_singleton]
  · intro h st ctx who b ty role next _ _ hi
    exact hi.append_of_none (admittedEvent_evaluateGovernance _ _ _ _ _ _ _) rfl rfl

/-- An admission in a run: the prefix it was made after, the record it read there, and that
record's place in every later state. -/
theorem admission_record {cfg : Config} {xs : List (Extrinsic AccountId)}
    {h₁ h₂ : List (Executed AccountId)} {b : Executed AccountId} {e : IoTEvent}
    (hsplit : historyOf cfg xs = h₁ ++ b :: h₂) (he : admittedEvent b = some e) :
    ∃ pre r, h₁ = historyOf cfg pre ∧ b.before = chainAfter cfg pre ∧
      AdmitsEvent cfg b.input.ctx.now (chainAfter cfg pre) e r ∧
      (chainAfter cfg xs).devices.lookup e.deviceId = some r := by
  have hmem : b ∈ historyOf cfg xs := by simp [hsplit]
  obtain ⟨r, hadmits⟩ := admits_of_mem_history hmem he
  obtain ⟨pre, post, hxs, hh₁, hb, -⟩ := history_eq_append_cons _ hsplit
  have hbefore : b.before = chainAfter cfg pre := by rw [hb]; rfl
  rw [hbefore] at hadmits
  refine ⟨pre, r, hh₁, hbefore, hadmits, ?_⟩
  rw [hxs, chainAfter_append]
  exact devices_lookup_run hadmits.registered _

theorem stored_schema {cfg : Config} {xs : List (Extrinsic AccountId)} {k : H256} {e : IoTEvent}
    (h : (chainAfter cfg xs).events.lookup k = some e) : validateEventSchema e = true := by
  obtain ⟨a, ha, hae⟩ := mem_admittedEvents.mp ((indexInvariant cfg xs).sound k e h).2
  obtain ⟨r, hadmits⟩ := admits_of_mem_history ha hae
  exact hadmits.schema

/-- Provenance of a stored event: the onboarding of its device, its admission inside the
freshness window, and signatures that the registered key still verifies. -/
theorem event_provenance (cfg : Config) (xs : List (Extrinsic AccountId)) (k : H256)
    (e : IoTEvent) (h : (chainAfter cfg xs).events.lookup k = some e) :
    k = cfg.hashOf e ∧ validateEventSchema e = true ∧
      ∃ r, (chainAfter cfg xs).devices.lookup e.deviceId = some r ∧
        cfg.ed25519Verify e.signature (encodeEventMessage e) r.publicKey = true ∧
        ∃ h₁ a h₂ b h₃ c, historyOf cfg xs = h₁ ++ a :: h₂ ++ b :: h₃ ∧
          acceptedCredential a = some c ∧
          r.deviceId = c.deviceId ∧ r.publicKey = c.publicKey ∧ r.producer = c.producer ∧
          r.metadata = c.metadata ∧
          cfg.ed25519Verify c.signature (encodeCredentialMessage c) r.publicKey = true ∧
          admittedEvent b = some e ∧ e.timestamp.toNat ≤ b.input.ctx.now.toNat ∧
          b.input.ctx.now.toNat - e.timestamp.toNat ≤ cfg.timestampFreshnessWindow.toNat := by
  obtain ⟨hk, hadm⟩ := (indexInvariant cfg xs).sound k e h
  obtain ⟨b, hb, hbe⟩ := mem_admittedEvents.mp hadm
  obtain ⟨h₀, h₃, hsplit⟩ := List.append_of_mem hb
  obtain ⟨pre, r, rfl, -, hadmits, hnow⟩ := admission_record hsplit hbe
  obtain ⟨c, t, -, rfl, -, a, ha, hac, haccepts⟩ := record_provenance hadmits.registered
  obtain ⟨h₁, h₂, hpre⟩ := List.append_of_mem ha
  obtain ⟨hle, hwindow⟩ := fresh_iff.mp hadmits.fresh
  refine ⟨hk, hadmits.schema, c.record t, hnow, hadmits.verified,
    h₁, a, h₂, b, h₃, c, ?_, hac, rfl, rfl, rfl, rfl, haccepts.verified, hbe, hle, by omega⟩
  rw [hsplit, hpre]

theorem event_provenance_mock :
    let xs := [Mock.call (.onboardDevice Mock.credential), Mock.call (.processEvent Mock.reading)]
    ∃ r, (chainAfter Mock.config xs).devices.lookup Mock.reading.deviceId = some r ∧
      Mock.config.ed25519Verify Mock.reading.signature (encodeEventMessage Mock.reading)
        r.publicKey = true := by
  intro xs
  obtain ⟨-, -, r, hr, hv, -⟩ :=
    event_provenance Mock.config xs (Mock.config.hashOf Mock.reading) Mock.reading
      (by decide +kernel)
  exact ⟨r, hr, hv⟩

end Traceability.Pallet
