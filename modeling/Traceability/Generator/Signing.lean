import Traceability.Generator.Device
import Traceability.Pallet.Effects

/-! The generator and the pallet encode what a device signs differently: decimal digits and
the name of the type against fixed-width integers, hexadecimal text against raw key bytes. -/
namespace Traceability.Generator
open Bytes Machine

variable {K AccountId : Type}

/-- No type's index is the last letter of a type's name. -/
theorem exists_getLast?_eventTypeName (type : Pallet.EventType) :
    ∃ c, (encode (eventTypeName type)).getLast? = some c ∧
      ∀ type' : Pallet.EventType, type'.index ≠ c := by
  have hindex : ∀ c : UInt8, ¬ c < 5 → ∀ type' : Pallet.EventType, type'.index ≠ c :=
    fun c hc type' h => hc (Pallet.exists_index.mp ⟨type', h⟩)
  cases type with
  | temperature => exact ⟨0x65, by decide +kernel, hindex _ (by decide)⟩
  | humidity => exact ⟨0x79, by decide +kernel, hindex _ (by decide)⟩
  | gps => exact ⟨0x53, by decide +kernel, hindex _ (by decide)⟩
  | custodyTransfer => exact ⟨0x72, by decide +kernel, hindex _ (by decide)⟩
  | qualityInspection => exact ⟨0x6e, by decide +kernel, hindex _ (by decide)⟩

section Device
variable (scheme : SigningScheme K) (device : IoTDevice K)

/-- A device signs its event under the name of the type, the pallet reads an index there. -/
theorem eventMessage_ne {timestamp : ℤ} {type : Pallet.EventType} {payload : Dict}
    {p : Pallet.IoTEvent}
    (h : RepresentsEvent (device.signEvent scheme timestamp (eventTypeName type) payload) p) :
    device.eventMessage timestamp (eventTypeName type) payload ≠ Pallet.encodeEventMessage p := by
  have hid : p.deviceId = encode device.deviceId := h.deviceId
  have hpayload : p.payload = encode (dumps (.object payload)) := h.payload
  intro heq
  rw [IoTDevice.eventMessage, Pallet.encodeEventMessage, hid, hpayload, encode_append,
    encode_append, encode_append] at heq
  simp only [List.append_assoc, List.append_cancel_left_eq] at heq
  rw [← List.append_assoc, ← List.append_assoc] at heq
  have hmid := List.append_cancel_right heq
  obtain ⟨c, hc, hne⟩ := exists_getLast?_eventTypeName type
  have hlast := congrArg List.getLast? hmid
  rw [List.getLast?_append, hc, List.getLast?_append, Pallet.encodeEventType,
    List.getLast?_singleton] at hlast
  exact hne p.eventType (Option.some_inj.mp hlast).symm

/-- A device signs 64 digits of its key, the pallet reads 32 bytes there. -/
theorem credentialMessage_ne {p : Pallet.DeviceCredential}
    (h : RepresentsCredential (device.getCredential scheme) p) :
    device.credentialMessage scheme ≠ Pallet.encodeCredentialMessage p := by
  have hid : p.deviceId = encode device.deviceId := h.deviceId
  have hproducer : p.producer = encode device.owner := h.producer
  have hmetadata : p.metadata = encode (dumps (.object device.metadata)) := h.metadata
  intro heq
  have hlen := congrArg List.length heq
  rw [IoTDevice.credentialMessage, Pallet.encodeCredentialMessage, hid, hproducer,
    hmetadata] at hlen
  simp only [encode_append, List.length_append, IoTDevice.publicKey, length_encode_hex,
    Vector.length_toList] at hlen
  omega

variable {cfg : Pallet.Config}

theorem credential_unverified {p : Pallet.DeviceCredential}
    (h : RepresentsCredential (device.getCredential scheme) p)
    (hideal : scheme.Binds cfg.ed25519Verify device.signingKey
      [device.credentialMessage scheme] [Pallet.encodeCredentialMessage p]) :
    cfg.ed25519Verify p.signature (Pallet.encodeCredentialMessage p) p.publicKey = false := by
  rw [← Bool.not_eq_true, hex_toList_injective h.publicKey, hex_toList_injective h.signature]
  intro hverified
  have heq := hideal _ List.mem_cons_self _ List.mem_cons_self hverified
  exact credentialMessage_ne scheme device h heq.symm

theorem event_unverified {timestamp : ℤ} {type : Pallet.EventType} {payload : Dict}
    {p : Pallet.IoTEvent}
    (h : RepresentsEvent (device.signEvent scheme timestamp (eventTypeName type) payload) p)
    (hideal : scheme.Binds cfg.ed25519Verify device.signingKey
      [device.eventMessage timestamp (eventTypeName type) payload]
      [Pallet.encodeEventMessage p]) :
    cfg.ed25519Verify p.signature (Pallet.encodeEventMessage p)
      (scheme.verifyKey device.signingKey) = false := by
  rw [← Bool.not_eq_true, hex_toList_injective h.signature]
  intro hverified
  have heq := hideal _ List.mem_cons_self _ List.mem_cons_self hverified
  exact eventMessage_ne scheme device h heq.symm

theorem onboardDevice_refuses {p : Pallet.DeviceCredential}
    (h : RepresentsCredential (device.getCredential scheme) p)
    (hideal : scheme.Binds cfg.ed25519Verify device.signingKey
      [device.credentialMessage scheme] [Pallet.encodeCredentialMessage p])
    (ctx : Pallet.Context) (origin : Pallet.Origin AccountId) (st : Pallet.Chain) :
    (Pallet.dispatch cfg ⟨ctx, origin, .onboardDevice p⟩ st).1 ≠ .ok () := by
  intro hok
  have haccepts := (Pallet.enabled_onboardDevice rfl).mp (Pallet.dispatch_ok_iff.mp hok).2
  exact Bool.false_ne_true ((credential_unverified scheme device h hideal).symm.trans
    haccepts.verified)

theorem processEvent_refuses {timestamp : ℤ} {type : Pallet.EventType} {payload : Dict}
    {p : Pallet.IoTEvent}
    (h : RepresentsEvent (device.signEvent scheme timestamp (eventTypeName type) payload) p)
    (hideal : scheme.Binds cfg.ed25519Verify device.signingKey
      [device.eventMessage timestamp (eventTypeName type) payload]
      [Pallet.encodeEventMessage p])
    (ctx : Pallet.Context) (origin : Pallet.Origin AccountId) {st : Pallet.Chain}
    (hkey : ∀ r, st.devices.lookup p.deviceId = some r →
      r.publicKey = scheme.verifyKey device.signingKey) :
    (Pallet.dispatch cfg ⟨ctx, origin, .processEvent p⟩ st).1 ≠ .ok () := by
  intro hok
  obtain ⟨r, hr⟩ := (Pallet.enabled_processEvent rfl).mp (Pallet.dispatch_ok_iff.mp hok).2
  have hverified := hr.verified
  rw [hkey r hr.registered] at hverified
  exact Bool.false_ne_true ((event_unverified scheme device h hideal).symm.trans hverified)

/-- What the generator signs is never what the pallet verifies, for any device and reading. With
signatures that are not good for the pallet's messages as well, neither its credentials nor its
events are ever accepted. -/
theorem signed_bytes_never_agree (timestamp : UInt64) (type : Pallet.EventType) (payload : Dict)
    (c : Pallet.DeviceCredential) (hc : RepresentsCredential (device.getCredential scheme) c)
    (e : Pallet.IoTEvent)
    (he : RepresentsEvent
      (device.signEvent scheme timestamp.toNat (eventTypeName type) payload) e) :
    device.eventMessage timestamp.toNat (eventTypeName type) payload ≠
      Pallet.encodeEventMessage e ∧
    device.credentialMessage scheme ≠ Pallet.encodeCredentialMessage c ∧
    (scheme.Binds cfg.ed25519Verify device.signingKey
        [device.credentialMessage scheme] [Pallet.encodeCredentialMessage c] →
      ∀ (ctx : Pallet.Context) (origin : Pallet.Origin AccountId) (st : Pallet.Chain),
        (Pallet.dispatch cfg ⟨ctx, origin, .onboardDevice c⟩ st).1 ≠ .ok ()) ∧
    (scheme.Binds cfg.ed25519Verify device.signingKey
        [device.eventMessage timestamp.toNat (eventTypeName type) payload]
        [Pallet.encodeEventMessage e] →
      ∀ (ctx : Pallet.Context) (origin : Pallet.Origin AccountId) (st : Pallet.Chain),
        (∀ r, st.devices.lookup e.deviceId = some r →
          r.publicKey = scheme.verifyKey device.signingKey) →
        (Pallet.dispatch cfg ⟨ctx, origin, .processEvent e⟩ st).1 ≠ .ok ()) := by
  refine ⟨eventMessage_ne scheme device he, credentialMessage_ne scheme device hc, ?_, ?_⟩
  · intro hideal ctx origin st
    exact onboardDevice_refuses scheme device hc hideal ctx origin st
  · intro hideal ctx origin st hkey
    exact processEvent_refuses scheme device he hideal ctx origin hkey

end Device

section Farm
open Pallet.Mock (Signed fixed halves)

/-- Signing with a key whose signatures are listed. -/
def tableSign (table : List Signed) (k : Pallet.Public) (m : Bytes) : Pallet.Signature :=
  ((table.find? fun t => t.publicKey = k ∧ t.message = m).map Signed.signature).getD
    (Vector.replicate 64 0)

/-- Keys that stand for themselves, with listed signatures. -/
def tableScheme (table : List Signed) : SigningScheme Pallet.Public := ⟨id, tableSign table⟩

/-- Of each message exactly the signature that its key makes for it verifies. -/
def tableVerifies (table : List Signed) (s : Pallet.Signature) (m : Bytes) (k : Pallet.Public) :
    Bool :=
  decide (s = tableSign table k m)

theorem tableVerifies_sign (table : List Signed) (k : Pallet.Public) (m : Bytes) :
    tableVerifies table ((tableScheme table).sign k m) m ((tableScheme table).verifyKey k) = true :=
  decide_eq_true rfl

/-- A listed signature is good for its own message only, though every message has a signature. -/
theorem tableScheme_binds {table : List Signed} (hnodup : (table.map Signed.signature).Nodup)
    (hzero : Vector.replicate 64 0 ∉ table.map Signed.signature) {t : Signed} (ht : t ∈ table)
    (checked : List Bytes) :
    (tableScheme table).Binds (tableVerifies table) t.publicKey [t.message] checked := by
  have hlisted {m : Bytes} (hm : tableSign table t.publicKey m ∈ table.map Signed.signature) :
      ∃ u ∈ table, u.message = m ∧ u.signature = tableSign table t.publicKey m := by
    unfold tableSign at hm ⊢
    cases hfind : table.find? fun u => u.publicKey = t.publicKey ∧ u.message = m with
    | none =>
      rw [hfind] at hm
      exact absurd hm hzero
    | some u =>
      have hu : u.publicKey = t.publicKey ∧ u.message = m := by simpa using List.find?_some hfind
      exact ⟨u, List.mem_of_find?_eq_some hfind, hu.2, rfl⟩
  have hown : tableSign table t.publicKey t.message ∈ table.map Signed.signature := by
    unfold tableSign
    cases hfind : table.find? fun u => u.publicKey = t.publicKey ∧ u.message = t.message with
    | none => exact absurd (by simp) (List.find?_eq_none.mp hfind t ht)
    | some u => exact List.mem_map_of_mem (List.mem_of_find?_eq_some hfind)
  intro m hm m' _ hverify
  obtain rfl := List.mem_singleton.mp hm
  have hsame : tableSign table t.publicKey t.message = tableSign table t.publicKey m' :=
    of_decide_eq_true hverify
  obtain ⟨u, hu, humessage, husignature⟩ := hlisted hown
  obtain ⟨v, hv, hvmessage, hvsignature⟩ := hlisted (hsame ▸ hown)
  have huv : u = v :=
    List.inj_on_of_nodup_map hnodup hu hv (husignature.trans (hsame.trans hvsignature.symm))
  rw [← hvmessage, ← huv, humessage]

def farmKey : Pallet.Public := fixed 32
  0xa97be68df2d5638b90bff3cc5f2fa20125f0e46892d61bbb923e5d72411e3b7d

/-- The first device of the scenario under its default seed. -/
def farmDevice : IoTDevice Pallet.Public where
  signingKey := farmKey
  deviceId := "farm-temp-001"
  deviceType := "temperature_sensor"
  location := "Farm Cold Storage"
  owner := "Producer"

def farmPayload : Dict :=
  [("temperature_celsius", .literal "3.52"), ("sensor_id", .string "farm-temp-001"),
    ("location", .string "Farm Cold Storage")]

def farmSignedCredential : Signed :=
  ⟨farmKey, farmDevice.credentialMessage (tableScheme []), halves
    0x41efeed79fb7ee1162b398309d5dd06e23f4b54d9f44a1822d933647c859509f
    0x0b04e04c7a2f5f00aff6f40272007aed254dd838dd8aaa1766a44871043dcc08⟩

def farmSignedReading : Signed :=
  ⟨farmKey, farmDevice.eventMessage (1700000000 : UInt64).toNat (eventTypeName .temperature)
    farmPayload, halves
      0x2c91bb60f8250ac0f9568da6382477f7da4afaaab17eca36c5c20733f19fa9d2
      0x96548bec45eafefc58d1a678fd2ae39b7551bb9a187ef091a486e558c6c2440a⟩

def farmKeyring : List Signed := [farmSignedCredential, farmSignedReading]

def farmScheme : SigningScheme Pallet.Public := tableScheme farmKeyring

def farmConfig : Pallet.Config :=
  ⟨2000000, tableVerifies farmKeyring, fun _ => Vector.replicate 32 0⟩

theorem farmScheme_binds (t : Signed) (ht : t ∈ farmKeyring) (checked : List Bytes) :
    farmScheme.Binds farmConfig.ed25519Verify t.publicKey [t.message] checked :=
  tableScheme_binds (by decide +kernel) (by decide +kernel) ht checked

def farmCredential : Pallet.DeviceCredential := farmDevice.palletCredential farmScheme

def farmReading : Pallet.IoTEvent :=
  farmDevice.palletEvent farmScheme 1700000000 .temperature farmPayload

theorem represents_farmCredential :
    RepresentsCredential (farmDevice.getCredential farmScheme) farmCredential :=
  (representsCredential_iff farmScheme farmDevice).mpr rfl

theorem represents_farmReading : RepresentsEvent
    (farmDevice.signEvent farmScheme (1700000000 : UInt64).toNat
      (eventTypeName .temperature) farmPayload) farmReading :=
  (representsEvent_iff farmScheme farmDevice).mpr rfl

/-- Which signatures are listed does not change what is signed. -/
theorem credentialMessage_tableScheme (table table' : List Signed)
    (device : IoTDevice Pallet.Public) :
    device.credentialMessage (tableScheme table) =
      device.credentialMessage (tableScheme table') := rfl

theorem binds_farmCredential : farmScheme.Binds farmConfig.ed25519Verify farmDevice.signingKey
    [farmDevice.credentialMessage farmScheme] [Pallet.encodeCredentialMessage farmCredential] := by
  have hbinds := farmScheme_binds farmSignedCredential List.mem_cons_self
    [Pallet.encodeCredentialMessage farmCredential]
  dsimp only [farmSignedCredential] at hbinds
  rwa [credentialMessage_tableScheme [] farmKeyring] at hbinds

theorem binds_farmReading : farmScheme.Binds farmConfig.ed25519Verify farmDevice.signingKey
    [farmDevice.eventMessage (1700000000 : UInt64).toNat (eventTypeName .temperature) farmPayload]
    [Pallet.encodeEventMessage farmReading] := by
  have hbinds := farmScheme_binds farmSignedReading
    (List.mem_cons_of_mem _ List.mem_cons_self) [Pallet.encodeEventMessage farmReading]
  dsimp only [farmSignedReading] at hbinds
  exact hbinds

/-- A call of the farm in the second of its reading. -/
def farmCall (c : Pallet.Call) : Pallet.Extrinsic UInt64 :=
  ⟨⟨1, Nat.one_pos, 1700000000⟩, .signed 1, c⟩

theorem lookup_farmReading :
    (Pallet.genesis.register 1700000000 farmCredential).devices.lookup farmReading.deviceId =
      some (farmCredential.record 1700000000) := Finmap.lookup_insert _

/-- The farm's credential is refused, and so is its reading once its key is registered. -/
theorem farm_refused :
    farmDevice.eventMessage (1700000000 : UInt64).toNat (eventTypeName .temperature) farmPayload ≠
      Pallet.encodeEventMessage farmReading ∧
    farmDevice.credentialMessage farmScheme ≠ Pallet.encodeCredentialMessage farmCredential ∧
    (Pallet.dispatch farmConfig (farmCall (.onboardDevice farmCredential)) Pallet.genesis).1 =
      .error (.module .invalidCredentialSignature) ∧
    (Pallet.dispatch farmConfig (farmCall (.processEvent farmReading))
      (Pallet.genesis.register 1700000000 farmCredential)).1 =
      .error (.module .invalidEventSignature) := by
  refine ⟨eventMessage_ne farmScheme farmDevice represents_farmReading,
    credentialMessage_ne farmScheme farmDevice represents_farmCredential, ?_, ?_⟩
  · have hverify := credential_unverified farmScheme farmDevice represents_farmCredential
      binds_farmCredential
    unfold farmCall
    rw [Pallet.dispatch_onboardDevice, hverify]
    rfl
  · have hkey : (farmCredential.record 1700000000).publicKey =
        farmScheme.verifyKey farmDevice.signingKey := rfl
    have hverify := event_unverified farmScheme farmDevice represents_farmReading
      binds_farmReading
    have hschema : Pallet.validateEventSchema farmReading = true := by decide +kernel
    have hfresh : Pallet.Fresh farmConfig 1700000000 farmReading := by decide +kernel
    have hactive : (farmCredential.record 1700000000).status = .active := rfl
    simp only [farmCall, Pallet.dispatch_processEvent, hschema, hfresh, lookup_farmReading,
      hactive, hkey, hverify, if_true, Bool.false_eq_true, if_false]

theorem lookup_farm {r : Pallet.DeviceRecord}
    (h : (Pallet.genesis.register 1700000000 farmCredential).devices.lookup farmReading.deviceId =
      some r) : r.publicKey = farmKey := by
  rw [lookup_farmReading] at h
  obtain rfl := Option.some_inj.mp h
  rfl

/-- The scenario's first device against a chain that has registered its key. -/
theorem signed_bytes_never_agree_farm :
    (Pallet.dispatch farmConfig (farmCall (.processEvent farmReading))
      (Pallet.genesis.register 1700000000 farmCredential)).1 ≠ .ok () :=
  (signed_bytes_never_agree farmScheme farmDevice 1700000000 .temperature farmPayload
    farmCredential represents_farmCredential farmReading represents_farmReading).2.2.2
    binds_farmReading _ _ _ fun _ => lookup_farm

end Farm

end Traceability.Generator
