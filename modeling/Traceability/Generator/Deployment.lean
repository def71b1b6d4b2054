import Traceability.Generator.Schedule
import Traceability.Generator.Signing
import Traceability.Pallet.Runs

/-! The scenario in use. Read on its own it is consistent: each reading verifies under the one
credential of its device. Submitted to the pallet it leaves no trace. -/
namespace Traceability.Generator
open Bytes Machine

variable {K σ AccountId : Type}

theorem exists_of_mem_right {α β : Type} {R : α → β → Prop} {xs : List α} {ys : List β}
    (h : List.Forall₂ R xs ys) {y : β} (hy : y ∈ ys) : ∃ x ∈ xs, R x y := by
  induction h with
  | nil => cases hy
  | cons hhead _ ih =>
    rcases List.mem_cons.mp hy with rfl | hy
    · exact ⟨_, List.mem_cons_self, hhead⟩
    · obtain ⟨x, hx, hxy⟩ := ih hy
      exact ⟨x, List.mem_cons_of_mem _ hx, hxy⟩

namespace ScenarioGenerator
variable (gen : ScenarioGenerator K σ)

theorem setupDevices_nodup : (gen.setupDevices.toList.map IoTDevice.deviceId).Nodup := by
  show ["farm-temp-001", "farm-temp-002", "farm-humid-001", "truck-temp-001",
    "truck-gps-001"].Nodup
  decide

theorem device_mem_of_mem_plan {slot : Slot K} (h : slot ∈ gen.plan) :
    slot.device ∈ gen.setupDevices.toList := by
  have hdevice (i : ℕ) (hi : i < 5) : gen.setupDevices[i] ∈ gen.setupDevices.toList :=
    Vector.mem_toList_iff.mpr (Vector.getElem_mem hi)
  rcases List.mem_append.mp h with h | h
  · obtain ⟨round, hround, hslot⟩ := List.mem_flatten.mp h
    obtain ⟨i, -, rfl⟩ := List.mem_map.mp hround
    simp only [farmSlots, farmTempSensors, List.map_cons, List.map_nil, List.cons_append,
      List.nil_append, List.mem_cons, List.not_mem_nil, or_false] at hslot
    rcases hslot with rfl | rfl | rfl
    · exact hdevice 0 (by decide)
    · exact hdevice 1 (by decide)
    · exact hdevice 2 (by decide)
  · rcases List.mem_append.mp h with h | h
    · obtain ⟨i, -, rfl⟩ := List.mem_map.mp h
      exact hdevice 3 (by decide)
    · obtain ⟨i, -, rfl⟩ := List.mem_map.mp h
      exact hdevice 4 (by decide)

/-- Every event of a scenario is signed by one of its devices. -/
theorem Follows.exists_device {gen : ScenarioGenerator K σ} {scenario : Scenario}
    (h : gen.Follows scenario) {event : IoTEvent} (hevent : event ∈ scenario.allEvents) :
    ∃ device ∈ gen.setupDevices.toList, ∃ timestamp type payload,
      event = device.signEvent gen.scheme timestamp (eventTypeName type) payload := by
  obtain ⟨slot, hslot, payload, -, hfill⟩ := exists_of_mem_right h.allEvents hevent
  exact ⟨slot.device, gen.device_mem_of_mem_plan hslot, slot.timestamp, slot.type, payload, hfill⟩

end ScenarioGenerator

section Reader

/-- The texts that a reader of the file can rebuild. -/
def IoTEvent.message (event : IoTEvent) : Bytes :=
  encode (event.deviceId ++ toString event.timestamp ++ event.eventType ++
    dumps (.object event.payload))

def DeviceCredential.message (credential : DeviceCredential) : Bytes :=
  encode (credential.deviceId ++ credential.publicKey ++ credential.producer ++
    dumps (.object credential.metadata))

/-- The hexadecimal texts of a key and a signature verify for a message. -/
def Verifies (verify : Pallet.Signature → Bytes → Pallet.Public → Bool) (publicKey : String)
    (message : Bytes) (signature : String) : Prop :=
  ∃ (k : Pallet.Public) (s : Pallet.Signature), hex k.toList = publicKey ∧
    hex s.toList = signature ∧ verify s message k = true

/-- A scenario carries what is needed to check it: every credential verifies under its own key,
and every reading under the key of the only credential of its device. -/
theorem scenario_verifies (gen : ScenarioGenerator K σ) (rng : σ)
    (verify : Pallet.Signature → Bytes → Pallet.Public → Bool)
    (hsign : ∀ k m, verify (gen.scheme.sign k m) m (gen.scheme.verifyKey k) = true) :
    let scenario := (gen.generateFullScenario.run rng).1
    (∀ c ∈ scenario.credentials, Verifies verify c.publicKey c.message c.signature) ∧
    ∀ event ∈ scenario.allEvents, ∃ c ∈ scenario.credentials,
      Verifies verify c.publicKey event.message event.signature ∧
      ∀ c' ∈ scenario.credentials, c'.deviceId = event.deviceId ↔ c' = c := by
  intro scenario
  have h : gen.Follows scenario := gen.fullScenario_follows rng
  constructor
  · intro c hc
    rw [h.credentials] at hc
    obtain ⟨device, -, rfl⟩ := List.mem_map.mp hc
    exact ⟨_, _, rfl, rfl, hsign _ _⟩
  · intro event hevent
    obtain ⟨device, hdevice, timestamp, type, payload, rfl⟩ := h.exists_device hevent
    rw [h.credentials]
    refine ⟨_, List.mem_map_of_mem hdevice, ⟨_, _, rfl, rfl, hsign _ _⟩, fun c' hc' => ?_⟩
    obtain ⟨device', hdevice', rfl⟩ := List.mem_map.mp hc'
    constructor
    · intro hid
      rw [List.inj_on_of_nodup_map gen.setupDevices_nodup hdevice' hdevice hid]
    · intro heq
      exact congrArg DeviceCredential.deviceId heq

end Reader

section Submission

/-- A call that submits something of the scenario, or moves a batch. -/
def Submits (scenario : Scenario) : Pallet.Call → Prop
  | .onboardDevice p => ∃ c ∈ scenario.credentials, RepresentsCredential c p
  | .processEvent p => ∃ event ∈ scenario.allEvents, RepresentsEvent event p
  | .evaluateGovernance _ _ _ => True

/-- No device, no event. -/
def Untouched (st : Pallet.Chain) : Prop :=
  st.devices = ∅ ∧ st.events = ∅ ∧ st.deviceCount = 0 ∧ st.eventCount = 0

theorem untouched_dispatch {gen : ScenarioGenerator K σ} {scenario : Scenario}
    (h : gen.Follows scenario) {cfg : Pallet.Config}
    (hideal : ∀ device ∈ gen.setupDevices.toList,
      gen.scheme.Binds cfg.ed25519Verify device.signingKey
        [device.credentialMessage gen.scheme]
        [Pallet.encodeCredentialMessage (device.palletCredential gen.scheme)])
    {x : Pallet.Extrinsic AccountId} (hx : Submits scenario x.call) {st : Pallet.Chain}
    (hst : Untouched st) : Untouched (Pallet.dispatch cfg x st).2 := by
  have heffect := Pallet.dispatch_effect cfg x st
  generalize Pallet.dispatch cfg x st = out at heffect
  cases heffect with
  | refused err => exact hst
  | onboarded who p origin call accepts =>
    -- Accepted credentials verify, and those of the scenario do not.
    rw [call] at hx
    obtain ⟨c, hc, hrepresents⟩ := hx
    rw [h.credentials] at hc
    obtain ⟨device, hdevice, rfl⟩ := List.mem_map.mp hc
    have hbinds := hideal device hdevice
    rw [← (representsCredential_iff gen.scheme device).mp hrepresents] at hbinds
    have hunverified := credential_unverified gen.scheme device hrepresents hbinds
    rw [accepts.verified] at hunverified
    cases hunverified
  | processed who p r origin call admits =>
    have hregistered := admits.registered
    rw [hst.1, Finmap.lookup_empty] at hregistered
    cases hregistered
  | evaluated who b ty role next origin call advances => exact hst

/-- Whatever of the scenario is submitted, in whatever order, by whom and how often, and however
batches are moved in between: no device gets registered and no reading gets stored, if no device's
signature of its credential is good for the text that the pallet checks instead. -/
theorem scenario_never_admitted (gen : ScenarioGenerator K σ) (rng : σ) (cfg : Pallet.Config)
    (hideal : ∀ device ∈ gen.setupDevices.toList,
      gen.scheme.Binds cfg.ed25519Verify device.signingKey
        [device.credentialMessage gen.scheme]
        [Pallet.encodeCredentialMessage (device.palletCredential gen.scheme)])
    (xs : List (Pallet.Extrinsic AccountId))
    (hxs : ∀ x ∈ xs, Submits (gen.generateFullScenario.run rng).1 x.call) :
    Untouched (Pallet.chainAfter cfg xs) := by
  have h := gen.fullScenario_follows rng
  induction xs using List.reverseRecOn with
  | nil => exact ⟨rfl, rfl, rfl, rfl⟩
  | append_singleton xs x ih =>
    rw [Pallet.chainAfter_append]
    exact untouched_dispatch h hideal (hxs x (by simp)) (ih fun x hx => hxs x (by simp [hx]))

end Submission

section DefaultScenario
open Merkle (tableHash)
open Pallet.Mock (Signed fixed halves)

/-- The devices' names, and what the default seed makes of each. -/
def defaultKeys : List (String × Digest × Pallet.Public) :=
  [("farm-temp-001",
      fixed 32 0x2e4aee811f0b6d4ba19941c15197915278bcfc6d8034cc911c21f8d915fcfbf3,
      fixed 32 0xa97be68df2d5638b90bff3cc5f2fa20125f0e46892d61bbb923e5d72411e3b7d),
    ("farm-temp-002",
      fixed 32 0xc161a08fba3d41c9e91815b2dc00e62942ecc4e029db1af103aa3ee309e4e114,
      fixed 32 0x9cf7dcd5c60b949a051c4987f2902d7adbf1f5dc09e6fe929a23403e3d8834d1),
    ("farm-humid-001",
      fixed 32 0xd7fa787c52db54bd8ec8e229ded6f29272a899ab888c25ffee3c6e08babaf96f,
      fixed 32 0xe1ce8405457c6c2fb297da9b4ce411d378408a9331ceb6e454ff8da4b455a3c0),
    ("truck-temp-001",
      fixed 32 0x299a6b3bf67449721aaf6c751d5211b993c8213963bf7a24640b9aee835bb3b3,
      fixed 32 0x29c10975732b28bb8c4bf1cb67e0708d2585f26a01b8a47c97ea5e4d1d17421e),
    ("truck-gps-001",
      fixed 32 0x47e97adf9d2a3ca81c1902039d97321de740c101c707026709d8fef2ffad8ec8,
      fixed 32 0xcb7403540d64e3af36d23d7e34e248f0cc33935b81fdb54e813e19fc4d17c846)]

/-- The signatures of the devices' credentials, in the same order. -/
def credentialSignatures : List Pallet.Signature :=
  [halves 0x41efeed79fb7ee1162b398309d5dd06e23f4b54d9f44a1822d933647c859509f
      0x0b04e04c7a2f5f00aff6f40272007aed254dd838dd8aaa1766a44871043dcc08,
    halves 0x0afe49ea07e382c98528ef45367b980752df2636717dfeb923c620412a8d00cd
      0x048040687f3da65b54717064eae2edab3d7a8c6fe937c245140f59f64b2a4604,
    halves 0x153fb07d845f7fe361590d717b604c38faa0ce9ed7dfde991a981eab26005c98
      0xab095796aac8b09e736691303c6c94295df84c48bc33a23eac240da1381e8908,
    halves 0x69c9749c8af409b5430bb63cf9f1717830c195c1273b1f5c6ee08f1331ed57a6
      0x9bbf6874970998083692bba5a7180e990e2ba760e8b1bbab0f5fb0f2a9efbb00,
    halves 0x10736abd80833e7a7e8e2e6ed044e09c618b124052eeb655ec67a2a9b96c501e
      0x495034d4d6c98443153983cfda80d9c6a7fd8b6e5f6e52f0983b6412090efc00]

/-- The generator with its default seed, over BLAKE2b-256 and Ed25519 on these names and keys. -/
def generatorOver (scheme : SigningScheme Pallet.Public) : ScenarioGenerator Pallet.Public Unit where
  seed := 1152
  startTime := 1700000000
  blake2b := tableHash (defaultKeys.map fun k => (keyMaterial 1152 k.1, k.2.1))
    (Vector.replicate 32 0)
  signingKey := tableHash (defaultKeys.map Prod.snd) (Vector.replicate 32 0)
  scheme := scheme
  floats := ⟨fun _ _ => pure ⟨"3.52", by decide, literalChars_of_all (by decide)⟩,
    fun _ => ⟨"5.0", by decide, literalChars_of_all (by decide)⟩⟩

def defaultDevices : List (IoTDevice Pallet.Public) :=
  (generatorOver (tableScheme [])).setupDevices.toList

def credentialKeyring : List Signed :=
  List.zipWith (fun device s => ⟨device.signingKey, device.credentialMessage (tableScheme []), s⟩)
    defaultDevices credentialSignatures

def defaultGenerator : ScenarioGenerator Pallet.Public Unit :=
  generatorOver (tableScheme credentialKeyring)

def defaultConfig : Pallet.Config :=
  ⟨2000000, tableVerifies credentialKeyring, fun _ => Vector.replicate 32 0⟩

theorem map_signature_credentialKeyring :
    credentialKeyring.map Signed.signature = credentialSignatures := rfl

theorem getCredential_mem {device : IoTDevice Pallet.Public} (h : device ∈ defaultDevices) :
    device.getCredential defaultGenerator.scheme ∈
      (defaultGenerator.generateFullScenario.run ()).1.credentials := by
  have hfollows := defaultGenerator.fullScenario_follows ()
  rw [hfollows.credentials]
  exact List.mem_map_of_mem h

/-- The first device's credential carries what it takes to check it. -/
theorem scenario_verifies_default :
    ∃ c ∈ (defaultGenerator.generateFullScenario.run ()).1.credentials,
      c.deviceId = "farm-temp-001" ∧
        Verifies (tableVerifies credentialKeyring) c.publicKey c.message c.signature := by
  obtain ⟨device, hdevice, hid⟩ : ∃ device ∈ defaultDevices, device.deviceId = "farm-temp-001" :=
    ⟨_, List.mem_cons_self, rfl⟩
  exact ⟨_, getCredential_mem hdevice, hid, (scenario_verifies defaultGenerator ()
    (tableVerifies credentialKeyring) (tableVerifies_sign credentialKeyring)).1 _
      (getCredential_mem hdevice)⟩

theorem defaultGenerator_binds {device : IoTDevice Pallet.Public} (h : device ∈ defaultDevices)
    (checked : List Bytes) :
    defaultGenerator.scheme.Binds defaultConfig.ed25519Verify device.signingKey
      [device.credentialMessage defaultGenerator.scheme] checked := by
  obtain ⟨i, hi, rfl⟩ := List.getElem_of_mem h
  have hlength : credentialKeyring.length = defaultDevices.length := rfl
  have hlt : i < credentialKeyring.length := hlength ▸ hi
  have hentry : credentialKeyring[i].publicKey = defaultDevices[i].signingKey ∧
      credentialKeyring[i].message = defaultDevices[i].credentialMessage (tableScheme []) := by
    simp only [credentialKeyring, List.getElem_zipWith]
    exact ⟨rfl, rfl⟩
  have hnodup : (credentialKeyring.map Signed.signature).Nodup := by
    rw [map_signature_credentialKeyring]
    decide +kernel
  have hzero : Vector.replicate 64 0 ∉ credentialKeyring.map Signed.signature := by
    rw [map_signature_credentialKeyring]
    decide +kernel
  have hbinds := tableScheme_binds hnodup hzero (List.getElem_mem hlt) checked
  rwa [hentry.1, hentry.2, credentialMessage_tableScheme [] credentialKeyring] at hbinds

/-- All five credentials, submitted one after the other. -/
theorem scenario_never_admitted_default :
    Untouched (Pallet.chainAfter defaultConfig (defaultDevices.map fun device =>
      farmCall (.onboardDevice (device.palletCredential defaultGenerator.scheme)))) := by
  refine scenario_never_admitted defaultGenerator () defaultConfig
    (fun device hdevice => defaultGenerator_binds hdevice _) _ fun x hx => ?_
  obtain ⟨device, hdevice, rfl⟩ := List.mem_map.mp hx
  exact ⟨_, getCredential_mem hdevice, (representsCredential_iff _ device).mpr rfl⟩

end DefaultScenario

end Traceability.Generator
