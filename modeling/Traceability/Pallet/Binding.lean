import Traceability.Pallet.Provenance

/-! What a device's signature binds. The two messages are plain concatenations, so a
signature fixes the signed bytes but not the boundaries between fields, nor whether the
bytes were meant as a credential or as an event. -/
namespace Traceability.Pallet
open Machine Bytes

variable {AccountId : Type}

/-! ### Credentials -/

def SameBinding (c₁ c₂ : DeviceCredential) : Prop :=
  c₁.deviceId = c₂.deviceId ∧ c₁.producer = c₂.producer ∧ c₁.metadata = c₂.metadata

/-- The message of `c₁` tells it from `c₂`, and a signature made for `c₁`, if it is good for one
of the two messages only, never onboards `c₂` unless both bind the same fields. -/
structure CredentialBound (AccountId : Type) (c₁ c₂ : DeviceCredential) : Prop where
  message : encodeCredentialMessage c₁ = encodeCredentialMessage c₂ → SameBinding c₁ c₂
  signature : ∀ (cfg : Config) (x : Extrinsic AccountId) (st : Chain),
    cfg.IdealSignatures [c₁.publicKey] [encodeCredentialMessage c₁, encodeCredentialMessage c₂] →
    cfg.ed25519Verify c₁.signature (encodeCredentialMessage c₁) c₁.publicKey = true →
    x.call = .onboardDevice { c₂ with signature := c₁.signature } →
    (dispatch cfg x st).1 = .ok () → SameBinding c₁ c₂

/-- The public key registered for a device id. -/
def Chain.keyOf (st : Chain) (id : Bytes) : Option Public :=
  (st.devices.lookup id).map DeviceRecord.publicKey

/-- A pair of credentials under one key is bound exactly when neither is a shift of the
other. -/
theorem credentialBound_iff {c₁ c₂ : DeviceCredential} (hk : c₁.publicKey = c₂.publicKey) :
    CredentialBound AccountId c₁ c₂ ↔ ¬ CredentialShift c₁ c₂ ∧ ¬ CredentialShift c₂ c₁ := by
  constructor
  · intro h
    constructor
    · intro hs
      exact hs.fields_ne (h.message ((encodeCredentialMessage_eq_iff hk).mpr (.inr (.inl hs))))
    · intro hs
      have hsame := h.message ((encodeCredentialMessage_eq_iff hk).mpr (.inr (.inr hs)))
      exact hs.fields_ne ⟨hsame.1.symm, hsame.2.1.symm, hsame.2.2.symm⟩
  · rintro ⟨hn₁, hn₂⟩
    have hmessage : encodeCredentialMessage c₁ = encodeCredentialMessage c₂ →
        SameBinding c₁ c₂ := by
      intro heq
      rcases (encodeCredentialMessage_eq_iff hk).mp heq with hsame | hs | hs
      · exact hsame
      · exact absurd hs hn₁
      · exact absurd hs hn₂
    refine ⟨hmessage, fun cfg x st hideal hsigned hx hok => hmessage ?_⟩
    have hv := ((enabled_onboardDevice hx).mp (dispatch_ok_iff.mp hok).2).verified
    exact hideal.eq_of_pair hsigned (hk ▸ hv)

/-- The mock credential with its last producer byte moved to the metadata. -/
def shiftedCredential : DeviceCredential :=
  { Mock.credential with producer := ascii "produce", metadata := ascii "r" }

/-- Both pass the schema check under one key, and the signature made for the first
registers the second. -/
theorem shiftedCredential_not_bound :
    validateCredentialSchema Mock.credential = true ∧
    validateCredentialSchema shiftedCredential = true ∧
    Mock.credential.publicKey = shiftedCredential.publicKey ∧
    Mock.credential.signature = shiftedCredential.signature ∧
    (dispatch Mock.config (Mock.call (.onboardDevice shiftedCredential)) genesis).1 = .ok () ∧
    ¬ CredentialBound UInt64 Mock.credential shiftedCredential := by
  refine ⟨by decide +kernel, by decide +kernel, rfl, rfl, by decide +kernel, fun h => ?_⟩
  have hsame := h.message (by decide +kernel)
  exact absurd hsame.2.1 (by decide +kernel)

theorem credentialBound_iff_mock :
    CredentialBound UInt64 Mock.credential Mock.liftedCredential ∧
      CredentialShift shiftedCredential Mock.credential := by
  constructor
  · exact (credentialBound_iff (by decide +kernel)).mpr (by decide +kernel)
  · decide +kernel

/-! ### Credentials against events -/

/-- The byte strings that are the message of a valid credential under the key `k`. -/
theorem exists_credential_iff {k : Public} {m : Bytes} :
    (∃ c, validateCredentialSchema c = true ∧ c.publicKey = k ∧ encodeCredentialMessage c = m) ↔
      StrictlyInside k.toList m := by
  constructor
  · rintro ⟨c, hc, rfl, rfl⟩
    obtain ⟨hd, hp, -⟩ := validateCredentialSchema_iff.mp hc
    exact ⟨c.deviceId, c.producer ++ c.metadata, hd, by simp [hp],
      by simp [encodeCredentialMessage]⟩
  · rintro ⟨u, v, hu, hv, rfl⟩
    refine ⟨⟨u, k, v, [], Vector.replicate 64 0⟩, ?_, rfl, by simp [encodeCredentialMessage]⟩
    exact validateCredentialSchema_iff.mpr ⟨hu, hv, Nat.zero_le _⟩

/-- A nonempty id, eight bytes that are not all zero, a byte below five and at most 512
further bytes. -/
def EventShaped (m : Bytes) : Prop :=
  ∃ id ts ty payload, id ≠ [] ∧ ts.length = 8 ∧ ts ≠ List.replicate 8 0 ∧ ty < 5 ∧
    payload.length ≤ 512 ∧ m = id ++ ts ++ [ty] ++ payload

theorem encodeU64_eq_zeros_iff {n : UInt64} : encodeU64 n = List.replicate 8 0 ↔ n = 0 := by
  have hzero : encodeU64 0 = List.replicate 8 0 := by decide
  rw [← hzero]
  exact encodeU64_injective.eq_iff

/-- The byte strings that are the message of a valid event. -/
theorem exists_event_iff {m : Bytes} :
    (∃ e, validateEventSchema e = true ∧ encodeEventMessage e = m) ↔ EventShaped m := by
  constructor
  · rintro ⟨e, he, rfl⟩
    obtain ⟨hd, ht, hp⟩ := validateEventSchema_iff.mp he
    refine ⟨e.deviceId, encodeU64 e.timestamp, e.eventType.index, e.payload, hd, by simp, ?_,
      exists_index.mp ⟨_, rfl⟩, hp, rfl⟩
    rw [Ne, encodeU64_eq_zeros_iff]
    intro hz
    simp [hz] at ht
  · rintro ⟨id, ts, ty, payload, hd, hlen, hts, hty, hp, rfl⟩
    obtain ⟨n, rfl⟩ := exists_encodeU64 hlen
    obtain ⟨t, rfl⟩ := exists_index.mpr hty
    refine ⟨⟨id, n, t, payload, Vector.replicate 64 0⟩, ?_, rfl⟩
    refine validateEventSchema_iff.mpr ⟨hd, ?_, hp⟩
    rw [Ne, encodeU64_eq_zeros_iff] at hts
    exact UInt64.pos_iff_ne_zero.mpr hts

/-- The two kinds of message overlap only where a device's key lies strictly inside an event
message and a credential message has the shape of an event; there they do overlap. A signature
that is good for one of two messages only crosses from one extrinsic to the other in no other
case. -/
theorem message_domains (cfg : Config) (xs : List (Extrinsic AccountId)) :
    (∀ c e, validateCredentialSchema c = true → validateEventSchema e = true →
      encodeCredentialMessage c = encodeEventMessage e →
        StrictlyInside c.publicKey.toList (encodeEventMessage e) ∧
          EventShaped (encodeCredentialMessage c)) ∧
      (∀ e k, StrictlyInside k.toList (encodeEventMessage e) → ∃ c,
        validateCredentialSchema c = true ∧ c.publicKey = k ∧
          encodeCredentialMessage c = encodeEventMessage e) ∧
      (∀ c, EventShaped (encodeCredentialMessage c) → ∃ e, validateEventSchema e = true ∧
        encodeEventMessage e = encodeCredentialMessage c) ∧
      (∀ b ∈ historyOf cfg xs, ∀ e k, admittedEvent b = some e →
        b.before.keyOf e.deviceId = some k → ∀ (x : Extrinsic AccountId) (st : Chain) c,
          cfg.IdealSignatures [k] [encodeCredentialMessage c, encodeEventMessage e] →
          x.call = .onboardDevice c → c.publicKey = k → c.signature = e.signature →
          (dispatch cfg x st).1 = .ok () → StrictlyInside k.toList (encodeEventMessage e)) ∧
      ∀ a ∈ historyOf cfg xs, ∀ c, acceptedCredential a = some c →
        ∀ (x : Extrinsic AccountId) (st : Chain) e,
          cfg.IdealSignatures [c.publicKey] [encodeCredentialMessage c, encodeEventMessage e] →
          x.call = .processEvent e → st.keyOf e.deviceId = some c.publicKey → e.signature = c.signature →
          (dispatch cfg x st).1 = .ok () → EventShaped (encodeCredentialMessage c) := by
  refine ⟨fun c e hc he heq => ⟨?_, ?_⟩, fun e k => exists_credential_iff.mpr,
    fun c => exists_event_iff.mpr, ?_, ?_⟩
  · exact exists_credential_iff.mp ⟨c, hc, rfl, heq⟩
  · exact exists_event_iff.mp ⟨e, he, heq.symm⟩
  · intro b hb e k hbe hk x st c hideal hx hck hsig hok
    obtain ⟨r, hadmits⟩ := admits_of_mem_history hb hbe
    have hr : r.publicKey = k := by simpa [Chain.keyOf, hadmits.registered] using hk
    have haccepts := (enabled_onboardDevice hx).mp (dispatch_ok_iff.mp hok).2
    have hv := hadmits.verified
    have hv' := haccepts.verified
    rw [hr] at hv
    rw [hsig, hck] at hv'
    have heq := hideal.eq_of_pair hv' hv
    exact exists_credential_iff.mp ⟨c, haccepts.schema, hck, heq⟩
  · intro a ha c hac x st e hideal hx hk hsig hok
    obtain ⟨r, hadmits⟩ := (enabled_processEvent hx).mp (dispatch_ok_iff.mp hok).2
    have hr : r.publicKey = c.publicKey := by simpa [Chain.keyOf, hadmits.registered] using hk
    have hv := (accepts_of_mem_history ha hac).verified
    have hv' := hadmits.verified
    rw [hr, hsig] at hv'
    have heq := hideal.eq_of_pair hv hv'
    exact exists_event_iff.mp ⟨e, hadmits.schema, heq.symm⟩

/-- The signature the mock device made for a reading onboards a second device id under its
key: the reading's payload carries the key. -/
theorem keyReading_onboards :
    validateCredentialSchema Mock.liftedCredential = true ∧
    validateEventSchema Mock.keyReading = true ∧
    encodeCredentialMessage Mock.liftedCredential = encodeEventMessage Mock.keyReading ∧
    (historyOf Mock.config [Mock.call (.onboardDevice Mock.credential),
      Mock.call (.processEvent Mock.keyReading),
      Mock.call (.onboardDevice Mock.liftedCredential)]).map Entry.output =
        [.ok (), .ok (), .ok ()] ∧
    Mock.liftedCredential.signature = Mock.keyReading.signature := by
  refine ⟨by decide +kernel, by decide +kernel, by decide +kernel, by rfl, rfl⟩

/-- The events a history admits, each with the key it was admitted under. -/
def admittedWithKeys (h : List (Executed AccountId)) : List (IoTEvent × Option Public) :=
  h.filterMap fun a => (admittedEvent a).map fun e => (e, a.before.keyOf e.deviceId)

theorem mem_admittedWithKeys {h : List (Executed AccountId)} {e : IoTEvent} {k : Option Public} :
    (e, k) ∈ admittedWithKeys h ↔
      ∃ a ∈ h, admittedEvent a = some e ∧ a.before.keyOf e.deviceId = k := by
  simp [admittedWithKeys, List.mem_filterMap]

/-- The run up to the lifted credential. -/
def keyRun : List (Extrinsic UInt64) :=
  [Mock.call (.onboardDevice Mock.credential), Mock.call (.processEvent Mock.keyReading)]

theorem admittedWithKeys_keyRun :
    (Mock.keyReading, some Mock.deviceKey) ∈ admittedWithKeys (historyOf Mock.config keyRun) := by
  decide +kernel

theorem onboards_liftedCredential : (dispatch Mock.config
    (Mock.call (.onboardDevice Mock.liftedCredential)) (chainAfter Mock.config keyRun)).1 =
      .ok () := by
  decide +kernel

/-- The key reading's signature crosses to a credential, and its message carries the key. -/
theorem message_domains_mock :
    StrictlyInside Mock.deviceKey.toList (encodeEventMessage Mock.keyReading) := by
  obtain ⟨b, hb, hadmitted, hkey⟩ := mem_admittedWithKeys.mp admittedWithKeys_keyRun
  exact (message_domains Mock.config keyRun).2.2.2.1 b hb _ _ hadmitted hkey
    (Mock.call (.onboardDevice Mock.liftedCredential)) _ _ (Mock.config_ideal _ _) rfl rfl rfl
    onboards_liftedCredential

/-! ### Events of devices that share a key -/

/-- No two admissions of a run carry one signature under one registered key and differ in
their reading. -/
def EventsBound (cfg : Config) (xs : List (Extrinsic AccountId)) : Prop :=
  ∀ a ∈ historyOf cfg xs, ∀ b ∈ historyOf cfg xs, ∀ e₁ e₂, admittedEvent a = some e₁ →
    admittedEvent b = some e₂ → e₁.signature = e₂.signature →
    a.before.keyOf e₁.deviceId = b.before.keyOf e₂.deviceId → e₁.reading = e₂.reading

/-- After the calls `h`, the signed call `a` submits a valid and fresh event `e` with the
signature of an event `e'` that was admitted under the same key, and the message of one is
that of the other with the boundary after the device id moved. -/
structure Reinterprets (cfg : Config) (h : List (Executed AccountId)) (a : Executed AccountId)
    (e e' : IoTEvent) : Prop where
  origin : ∃ who, a.input.origin = .signed who
  call : a.input.call = .processEvent e
  schema : validateEventSchema e = true
  fresh : Fresh cfg a.input.ctx.now e
  earlier : e' ∈ admittedEvents h
  signature : e'.signature = e.signature
  key : a.before.keyOf e'.deviceId = a.before.keyOf e.deviceId
  shift : EventShift e' e ∨ EventShift e e'

theorem encodeEventMessage_eq_of_shift {e e' : IoTEvent} (h : EventShift e' e ∨ EventShift e e') :
    encodeEventMessage e' = encodeEventMessage e := encodeEventMessage_eq_iff.mpr (.inr h)

theorem keyOf_eq_some {st : Chain} {id : Bytes} {k : Public} :
    st.keyOf id = some k ↔ ∃ r, st.devices.lookup id = some r ∧ r.publicKey = k :=
  Option.map_eq_some_iff

/-- An event admitted by a run verifies under the key its device has in every later state. -/
theorem admitted_verifies {cfg : Config} {xs : List (Extrinsic AccountId)} {e : IoTEvent}
    (he : e ∈ admittedEvents (historyOf cfg xs)) :
    ∃ k, (chainAfter cfg xs).keyOf e.deviceId = some k ∧
      cfg.ed25519Verify e.signature (encodeEventMessage e) k = true := by
  obtain ⟨b, hb, hbe⟩ := mem_admittedEvents.mp he
  obtain ⟨h₁, h₂, hsplit⟩ := List.append_of_mem hb
  obtain ⟨pre, r, -, -, hadmits, hr⟩ := admission_record hsplit hbe
  exact ⟨r.publicKey, keyOf_eq_some.mpr ⟨r, hr, rfl⟩, hadmits.verified⟩

/-- A reinterpretation is admitted. -/
theorem Reinterprets.admitted {cfg : Config} {xs : List (Extrinsic AccountId)}
    {h₁ h₂ : List (Executed AccountId)} {a : Executed AccountId} {e e' : IoTEvent}
    (hsplit : historyOf cfg xs = h₁ ++ a :: h₂) (h : Reinterprets cfg h₁ a e e') :
    admittedEvent a = some e := by
  obtain ⟨pre, -, -, hh₁, hex, -⟩ := history_eq_append_cons _ hsplit
  have hbefore : a.before = chainAfter cfg pre := by rw [hex]; rfl
  obtain ⟨k, hk, hv⟩ := admitted_verifies (hh₁ ▸ h.earlier)
  have hkey := h.key
  rw [hbefore, hk, ← hbefore] at hkey
  obtain ⟨r, hr, rfl⟩ := keyOf_eq_some.mp hkey.symm
  rw [h.signature, encodeEventMessage_eq_of_shift h.shift] at hv
  have hactive : r.status = .active := (wellFormedRecord (hbefore ▸ hr)).active
  have ha : a ∈ historyOf cfg xs := by simp [hsplit]
  exact (admittedEvent_iff ha).mpr
    ⟨h.call, h.origin, r, h.schema, h.fresh, hr, hactive, hv⟩

/-- Of two admissions, the later one reinterprets the earlier one or agrees with it. -/
theorem reading_eq_of_not_reinterprets {cfg : Config} {xs : List (Extrinsic AccountId)}
    (hideal : cfg.IdealSignatures (acceptedKeys (historyOf cfg xs))
      (admittedMessages (historyOf cfg xs))) {h₁ h₂ : List (Executed AccountId)}
    {a b : Executed AccountId} {e₁ e₂ : IoTEvent} (hsplit : historyOf cfg xs = h₁ ++ b :: h₂)
    (ha : a ∈ h₁) (hae : admittedEvent a = some e₁) (hbe : admittedEvent b = some e₂)
    (hsig : e₁.signature = e₂.signature)
    (hkey : a.before.keyOf e₁.deviceId = b.before.keyOf e₂.deviceId)
    (hno : ¬ Reinterprets cfg h₁ b e₂ e₁) : e₁.reading = e₂.reading := by
  obtain ⟨pre, r₂, hpast, hbefore, hadmits₂, hnow⟩ := admission_record hsplit hbe
  rw [hpast] at ha hno hsplit
  obtain ⟨g₁, g₂, hpre⟩ := List.append_of_mem ha
  obtain ⟨pre', r₁, -, habefore, hadmits₁, hr₁⟩ := admission_record hpre hae
  have hk₁ : a.before.keyOf e₁.deviceId = some r₁.publicKey := by
    rw [habefore]
    exact keyOf_eq_some.mpr ⟨r₁, hadmits₁.registered, rfl⟩
  have hk₁' : b.before.keyOf e₁.deviceId = some r₁.publicKey := by
    rw [hbefore]
    exact keyOf_eq_some.mpr ⟨r₁, hr₁, rfl⟩
  have hk₂ : b.before.keyOf e₂.deviceId = some r₂.publicKey := by
    rw [hbefore]
    exact keyOf_eq_some.mpr ⟨r₂, hadmits₂.registered, rfl⟩
  have hk : r₁.publicKey = r₂.publicKey := by
    rw [hk₁, hk₂] at hkey
    exact Option.some.inj hkey
  have hv₁ := hadmits₁.verified
  rw [hsig, hk] at hv₁
  have hmem (e : IoTEvent) (he : e ∈ admittedEvents (historyOf cfg xs)) :
      encodeEventMessage e ∈ admittedMessages (historyOf cfg xs) := List.mem_map_of_mem he
  have hmessage := hideal _ (registered_mem_acceptedKeys hnow)
    _ (hmem e₁ (mem_admittedEvents.mpr ⟨a, by simp [hsplit, ha], hae⟩))
    _ (hmem e₂ (mem_admittedEvents.mpr ⟨b, by simp [hsplit], hbe⟩)) _ hv₁ hadmits₂.verified
  rcases encodeEventMessage_eq_iff.mp hmessage with hread | hshift
  · exact hread
  · have hb : b ∈ historyOf cfg xs := by simp [hsplit]
    obtain ⟨hcall, horigin, -⟩ := (admittedEvent_iff hb).mp hbe
    exact absurd ⟨horigin, hcall, hadmits₂.schema, hadmits₂.fresh,
      mem_admittedEvents.mpr ⟨a, ha, hae⟩, hsig, by rw [hk₁', hk₂, hk], hshift⟩ hno

/-- With signatures that are ideal on what it accepts and admits, a run binds its events exactly
when none of its calls reinterprets an event admitted before it. -/
theorem eventsBound_iff (cfg : Config) (xs : List (Extrinsic AccountId))
    (hideal : cfg.IdealSignatures (acceptedKeys (historyOf cfg xs))
      (admittedMessages (historyOf cfg xs))) :
    EventsBound cfg xs ↔ ∀ h₁ a h₂, historyOf cfg xs = h₁ ++ a :: h₂ →
      ∀ e e', ¬ Reinterprets cfg h₁ a e e' := by
  constructor
  · intro hbound h₁ a h₂ hsplit e e' h
    obtain ⟨b, hb, hbe⟩ := mem_admittedEvents.mp h.earlier
    obtain ⟨pre, r, rfl, hbefore, -, -⟩ := admission_record hsplit (h.admitted hsplit)
    obtain ⟨g₁, g₂, hpre⟩ := List.append_of_mem hb
    obtain ⟨pre', r', -, hbbefore, hadmits', hr'⟩ := admission_record hpre hbe
    have hkey : b.before.keyOf e'.deviceId = a.before.keyOf e.deviceId := by
      rw [← h.key, hbbefore, hbefore]
      exact (keyOf_eq_some.mpr ⟨r', hadmits'.registered, rfl⟩).trans
        (keyOf_eq_some.mpr ⟨r', hr', rfl⟩).symm
    have hread := hbound b (by simp [hsplit, hb]) a (by simp [hsplit]) e' e hbe
      (h.admitted hsplit) h.signature hkey
    rcases h.shift with hs | hs
    · exact hs.reading_ne hread
    · exact hs.reading_ne hread.symm
  · intro hno a ha b hb e₁ e₂ hae hbe hsig hkey
    obtain ⟨h₁, h₂, hsplit⟩ := List.append_of_mem hb
    have ha' : a ∈ h₁ ++ b :: h₂ := hsplit ▸ ha
    rcases List.mem_append.mp ha' with hbefore | hafter
    · exact reading_eq_of_not_reinterprets hideal hsplit hbefore hae hbe hsig hkey
        (hno _ _ _ hsplit _ _)
    · rcases List.mem_cons.mp hafter with rfl | hafter
      · rw [hae] at hbe
        exact congrArg IoTEvent.reading (Option.some.inj hbe)
      · -- `a` comes after `b`: the same argument with the two exchanged
        obtain ⟨g₁, g₂, rfl⟩ := List.append_of_mem hafter
        have hsplit' : historyOf cfg xs = (h₁ ++ b :: g₁) ++ a :: g₂ := by simp [hsplit]
        exact (reading_eq_of_not_reinterprets hideal hsplit' (by simp) hbe hae hsig.symm hkey.symm
          (hno _ _ _ hsplit' _ _)).symm

/-- The mock device, a second id under its key, and one signature submitted for both. -/
def reuseRun : List (Extrinsic UInt64) :=
  [Mock.call (.onboardDevice Mock.credential), Mock.call (.onboardDevice Mock.liftedCredential),
    Mock.call (.processEvent Mock.nestedReading), Mock.call (.processEvent Mock.liftedReading)]

/-- The run admits the two readings, both under the mock device's key. -/
theorem admittedWithKeys_reuseRun : admittedWithKeys (historyOf Mock.config reuseRun) =
    [(Mock.nestedReading, some Mock.deviceKey), (Mock.liftedReading, some Mock.deviceKey)] := by
  decide +kernel

theorem not_eventsBound_reuseRun : ¬ EventsBound Mock.config reuseRun := by
  intro h
  have hentry (p : IoTEvent × Option Public) (hp : p ∈ [(Mock.nestedReading, some Mock.deviceKey),
      (Mock.liftedReading, some Mock.deviceKey)]) : ∃ a ∈ historyOf Mock.config reuseRun,
      admittedEvent a = some p.1 ∧ a.before.keyOf p.1.deviceId = p.2 := by
    apply mem_admittedWithKeys.mp
    rwa [admittedWithKeys_reuseRun]
  obtain ⟨a, ha, hnested, hkey⟩ := hentry _ List.mem_cons_self
  obtain ⟨b, hb, hlifted, hkey'⟩ := hentry _ (List.mem_cons_of_mem _ List.mem_cons_self)
  have hread := h a ha b hb _ _ hnested hlifted rfl (hkey.trans hkey'.symm)
  exact absurd hread (by decide +kernel)

theorem admittedEvents_reuseRun :
    admittedEvents (historyOf Mock.config reuseRun) = [Mock.nestedReading, Mock.liftedReading] := by
  have hfirst := congrArg (List.map Prod.fst) admittedWithKeys_reuseRun
  unfold admittedWithKeys at hfirst
  simp only [List.map_filterMap, Option.map_map, Function.comp_def, Option.map_id'] at hfirst
  exact hfirst

/-- The nested reading and its reinterpretation are both admitted, under one key and one
signature that verifies for a single message, for two device ids. -/
theorem reuseRun_not_bound :
    Mock.config.IdealSignatures (acceptedKeys (historyOf Mock.config reuseRun))
      (admittedMessages (historyOf Mock.config reuseRun)) ∧
    admittedEvents (historyOf Mock.config reuseRun) = [Mock.nestedReading, Mock.liftedReading] ∧
    Mock.nestedReading.signature = Mock.liftedReading.signature ∧
    Mock.nestedReading.deviceId ≠ Mock.liftedReading.deviceId ∧
    ¬ EventsBound Mock.config reuseRun :=
  ⟨Mock.config_ideal _ _, admittedEvents_reuseRun, rfl, by decide +kernel, not_eventsBound_reuseRun⟩

theorem eventsBound_iff_reuseRun : ∃ h₁ a h₂, historyOf Mock.config reuseRun = h₁ ++ a :: h₂ ∧
    ∃ e e', Reinterprets Mock.config h₁ a e e' := by
  by_contra hno
  refine not_eventsBound_reuseRun
    ((eventsBound_iff Mock.config reuseRun (Mock.config_ideal _ _)).mpr ?_)
  intro h₁ a h₂ hsplit e e' h
  exact hno ⟨h₁, a, h₂, hsplit, e, e', h⟩

end Traceability.Pallet
