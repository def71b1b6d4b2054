import Traceability.Generator.Identity

/-! The keys of a scenario. Each signing key is made from 32 bytes that are hashed from the seed
and the name of its device, so a public key tells both, or there is a collision. -/
namespace Traceability.Generator
open Bytes Machine Merkle

variable {K σ : Type}

namespace ScenarioGenerator
variable (gen : ScenarioGenerator K σ)

/-- The public key that 32 bytes end up as. -/
def derivedKey (seed : Digest) : Pallet.Public := gen.scheme.verifyKey (gen.signingKey seed)

/-- The texts behind the keys of the devices. -/
def keyTexts : List Bytes :=
  gen.setupDevices.toList.map fun device => keyMaterial gen.seed device.deviceId

/-- The same program with another seed and start time. -/
def reseed (seed startTime : ℤ) : ScenarioGenerator K σ :=
  { gen with seed := seed, startTime := startTime }

theorem verifyKey_setupDevices {device : IoTDevice K} (h : device ∈ gen.setupDevices.toList) :
    gen.scheme.verifyKey device.signingKey =
      gen.derivedKey (gen.blake2b (keyMaterial gen.seed device.deviceId)) := by
  have hmade : ∃ deviceId deviceType location owner,
      device = gen.makeDevice deviceId deviceType location owner := by
    simp only [setupDevices, Vector.toList_mk, List.mem_cons, List.not_mem_nil, or_false] at h
    rcases h with rfl | rfl | rfl | rfl | rfl <;> exact ⟨_, _, _, _, rfl⟩
  obtain ⟨deviceId, deviceType, location, owner, rfl⟩ := hmade
  rfl

theorem Follows.publicKey {gen : ScenarioGenerator K σ} {scenario : Scenario}
    (h : gen.Follows scenario) {c : DeviceCredential} (hc : c ∈ scenario.credentials) :
    keyMaterial gen.seed c.deviceId ∈ gen.keyTexts ∧ c.publicKey =
      hex (gen.derivedKey (gen.blake2b (keyMaterial gen.seed c.deviceId))).toList := by
  rw [h.credentials] at hc
  obtain ⟨device, hdevice, rfl⟩ := List.mem_map.mp hc
  refine ⟨List.mem_map_of_mem hdevice, ?_⟩
  show hex (gen.scheme.verifyKey device.signingKey).toList = _
  rw [gen.verifyKey_setupDevices hdevice]
  rfl

end ScenarioGenerator

/-- Public keys tell seeds and devices apart. Two credentials, of one scenario or of two that
start from whatever seeds, carry one public key exactly when the seed and the device are the
same; unless the hash or the key generation has a collision on what it was applied to. -/
theorem public_keys_identify (gen : ScenarioGenerator K σ) (seed startTime : ℤ) (rng rng' : σ)
    (hhash : CollisionFree gen.blake2b (gen.keyTexts ++ (gen.reseed seed startTime).keyTexts))
    (hkeys : CollisionFree gen.derivedKey
      ((gen.keyTexts ++ (gen.reseed seed startTime).keyTexts).map gen.blake2b)) :
    let scenario := (gen.generateFullScenario.run rng).1
    let scenario' := ((gen.reseed seed startTime).generateFullScenario.run rng').1
    ∀ c ∈ scenario.credentials, ∀ c' ∈ scenario'.credentials,
      c.publicKey = c'.publicKey ↔ gen.seed = seed ∧ c.deviceId = c'.deviceId := by
  intro scenario scenario' c hc c' hc'
  have h : gen.Follows scenario := gen.fullScenario_follows rng
  have h' : (gen.reseed seed startTime).Follows scenario' :=
    (gen.reseed seed startTime).fullScenario_follows rng'
  obtain ⟨htext, hkey⟩ := h.publicKey hc
  obtain ⟨htext', hkey'⟩ := h'.publicKey hc'
  have hmem := List.mem_append_left (gen.reseed seed startTime).keyTexts htext
  have hmem' := List.mem_append_right gen.keyTexts htext'
  rw [hkey, hkey', ← keyMaterial_inj]
  constructor
  · intro heq
    have hderived := hex_toList_injective heq
    have hdigest := hkeys _ (List.mem_map_of_mem hmem) _ (List.mem_map_of_mem hmem') hderived
    exact hhash _ hmem _ hmem' hdigest
  · intro heq
    rw [heq]
    rfl

theorem public_keys_identify_default :
    let credentials := (defaultGenerator.generateFullScenario.run ()).1.credentials
    (credentials.map DeviceCredential.publicKey).Nodup := by
  intro credentials
  have hsame : defaultGenerator.reseed 1152 1700000000 = defaultGenerator := rfl
  have hhash : CollisionFree defaultGenerator.blake2b (defaultGenerator.keyTexts ++
      (defaultGenerator.reseed 1152 1700000000).keyTexts) := by decide +kernel
  have hkeys : CollisionFree defaultGenerator.derivedKey ((defaultGenerator.keyTexts ++
      (defaultGenerator.reseed 1152 1700000000).keyTexts).map defaultGenerator.blake2b) := by
    decide +kernel
  have hidentify := public_keys_identify defaultGenerator 1152 1700000000 () () hhash hkeys
  rw [hsame] at hidentify
  have hids : (credentials.map DeviceCredential.deviceId).Nodup := by
    have hcredentials := (defaultGenerator.fullScenario_follows ()).credentials
    have hnames := defaultGenerator.setupDevices_nodup
    show (List.map _ (defaultGenerator.generateFullScenario.run ()).1.credentials).Nodup
    rwa [hcredentials, List.map_map]
  apply hids.of_map.map_on
  intro c hc c' hc' hkey
  exact List.inj_on_of_nodup_map hids hc hc' ((hidentify c hc c' hc').mp hkey).2

end Traceability.Generator
