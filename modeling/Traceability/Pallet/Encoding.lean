import Traceability.Pallet.Types
import Traceability.Bytes.Concat

/-! Schema checks and the byte strings that devices sign. The fields of a message are
appended one after the other, without lengths or separators. -/
namespace Traceability.Pallet
open Bytes

def validateCredentialSchema (cred : DeviceCredential) : Bool :=
  !cred.deviceId.isEmpty && !cred.producer.isEmpty && decide (cred.metadata.length ≤ 1024)

def validateEventSchema (event : IoTEvent) : Bool :=
  !event.deviceId.isEmpty && decide (0 < event.timestamp) && decide (event.payload.length ≤ 512)

theorem validateCredentialSchema_iff {cred : DeviceCredential} :
    validateCredentialSchema cred = true ↔
      cred.deviceId ≠ [] ∧ cred.producer ≠ [] ∧ cred.metadata.length ≤ 1024 := by
  simp [validateCredentialSchema, and_assoc]

theorem validateEventSchema_iff {event : IoTEvent} :
    validateEventSchema event = true ↔
      event.deviceId ≠ [] ∧ 0 < event.timestamp ∧ event.payload.length ≤ 512 := by
  simp [validateEventSchema, and_assoc]

/-- SCALE encoding of a `u64`. -/
def encodeU64 (n : UInt64) : Bytes := littleEndian 8 n.toNat

@[simp] theorem length_encodeU64 (n : UInt64) : (encodeU64 n).length = 8 :=
  length_littleEndian 8 _

theorem encodeU64_injective : Function.Injective encodeU64 := by
  intro m n h
  exact UInt64.toNat_inj.mp (littleEndian_injective m.toNat_lt n.toNat_lt h)

/-- Every eight bytes are the encoding of some `u64`. -/
theorem exists_encodeU64 {bs : Bytes} (h : bs.length = 8) : ∃ n, encodeU64 n = bs := by
  have hlt : ofLittleEndian bs < 2 ^ 64 := by
    have hb := ofLittleEndian_lt bs
    rw [h] at hb
    exact hb
  refine ⟨UInt64.ofNat (ofLittleEndian bs), ?_⟩
  have hn : (UInt64.ofNat (ofLittleEndian bs)).toNat = ofLittleEndian bs :=
    (UInt64.toNat_ofNat' ..).trans (Nat.mod_eq_of_lt hlt)
  have hle := littleEndian_ofLittleEndian bs
  unfold encodeU64
  rw [hn]
  rwa [h] at hle

/-- SCALE encoding of an enum without fields: the variant's index. -/
def EventType.index : EventType → UInt8
  | .temperature => 0
  | .humidity => 1
  | .gps => 2
  | .custodyTransfer => 3
  | .qualityInspection => 4

def encodeEventType (t : EventType) : Bytes := [t.index]

@[simp] theorem length_encodeEventType (t : EventType) : (encodeEventType t).length = 1 := rfl

theorem EventType.index_injective : Function.Injective EventType.index := by
  intro s t h
  cases s <;> cases t <;> first | rfl | exact absurd h (by decide)

theorem exists_index {b : UInt8} : (∃ t : EventType, t.index = b) ↔ b < 5 := by
  constructor
  · rintro ⟨t, rfl⟩
    cases t <;> decide
  · intro h
    have hb : b = 0 ∨ b = 1 ∨ b = 2 ∨ b = 3 ∨ b = 4 := by grind
    rcases hb with rfl | rfl | rfl | rfl | rfl
    exacts [⟨.temperature, rfl⟩, ⟨.humidity, rfl⟩, ⟨.gps, rfl⟩, ⟨.custodyTransfer, rfl⟩,
      ⟨.qualityInspection, rfl⟩]

def encodeCredentialMessage (cred : DeviceCredential) : Bytes :=
  cred.deviceId ++ cred.publicKey.toList ++ cred.producer ++ cred.metadata

def encodeEventMessage (event : IoTEvent) : Bytes :=
  event.deviceId ++ encodeU64 event.timestamp ++ encodeEventType event.eventType ++ event.payload

/-- What a device asserts: everything in an event but its signature. -/
abbrev Reading := Bytes × UInt64 × EventType × Bytes

def IoTEvent.reading (event : IoTEvent) : Reading :=
  (event.deviceId, event.timestamp, event.eventType, event.payload)

theorem validateEventSchema_congr {e₁ e₂ : IoTEvent} (h : e₁.reading = e₂.reading) :
    validateEventSchema e₁ = validateEventSchema e₂ := by
  simp only [IoTEvent.reading, Prod.mk.injEq] at h
  simp [validateEventSchema, h]

/-- The signed bytes after the device id. -/
def credentialBody (cred : DeviceCredential) : Bytes :=
  cred.publicKey.toList ++ (cred.producer ++ cred.metadata)

def eventBody (event : IoTEvent) : Bytes :=
  encodeU64 event.timestamp ++ (encodeEventType event.eventType ++ event.payload)

theorem encodeCredentialMessage_eq (cred : DeviceCredential) :
    encodeCredentialMessage cred = cred.deviceId ++ credentialBody cred := by
  simp [encodeCredentialMessage, credentialBody]

theorem encodeEventMessage_eq (event : IoTEvent) :
    encodeEventMessage event = event.deviceId ++ eventBody event := by
  simp [encodeEventMessage, eventBody]

/-- Under one key the body determines the producer and metadata only jointly. -/
theorem credentialBody_inj {c₁ c₂ : DeviceCredential} (hk : c₁.publicKey = c₂.publicKey) :
    credentialBody c₁ = credentialBody c₂ ↔
      c₁.producer ++ c₁.metadata = c₂.producer ++ c₂.metadata := by
  simp [credentialBody, hk]

/-- The fixed-width timestamp and type make the body of an event unambiguous. -/
theorem eventBody_inj {e₁ e₂ : IoTEvent} :
    eventBody e₁ = eventBody e₂ ↔
      e₁.timestamp = e₂.timestamp ∧ e₁.eventType = e₂.eventType ∧ e₁.payload = e₂.payload := by
  constructor
  · intro h
    obtain ⟨ht, h⟩ := List.append_inj h (by simp)
    obtain ⟨hty, hp⟩ := List.append_inj h (by simp)
    exact ⟨encodeU64_injective ht, EventType.index_injective (List.cons.inj hty).1, hp⟩
  · rintro ⟨ht, hty, hp⟩
    simp [eventBody, ht, hty, hp]

/-- The boundary after the device id of `c₂`, or the one after its producer, lies strictly
to the right of the same boundary of `c₁`, and the bytes around it agree. -/
def CredentialShift (c₁ c₂ : DeviceCredential) : Prop :=
  (c₁.deviceId = c₂.deviceId ∧ Shifted c₁.producer c₁.metadata c₂.producer c₂.metadata) ∨
    Shifted c₁.deviceId (credentialBody c₁) c₂.deviceId (credentialBody c₂)

instance (c₁ c₂ : DeviceCredential) : Decidable (CredentialShift c₁ c₂) :=
  inferInstanceAs (Decidable (_ ∨ _))

def EventShift (e₁ e₂ : IoTEvent) : Prop :=
  Shifted e₁.deviceId (eventBody e₁) e₂.deviceId (eventBody e₂)

instance (e₁ e₂ : IoTEvent) : Decidable (EventShift e₁ e₂) :=
  inferInstanceAs (Decidable (Shifted _ _ _ _))

/-- Two credentials under one key share their message exactly when they bind the same
fields or one is a shift of the other. -/
theorem encodeCredentialMessage_eq_iff {c₁ c₂ : DeviceCredential}
    (hk : c₁.publicKey = c₂.publicKey) :
    encodeCredentialMessage c₁ = encodeCredentialMessage c₂ ↔
      (c₁.deviceId = c₂.deviceId ∧ c₁.producer = c₂.producer ∧ c₁.metadata = c₂.metadata) ∨
        CredentialShift c₁ c₂ ∨ CredentialShift c₂ c₁ := by
  rw [encodeCredentialMessage_eq, encodeCredentialMessage_eq, append_eq_append_iff_shifted,
    credentialBody_inj hk, append_eq_append_iff_shifted]
  unfold CredentialShift
  grind

theorem encodeEventMessage_eq_iff {e₁ e₂ : IoTEvent} :
    encodeEventMessage e₁ = encodeEventMessage e₂ ↔
      e₁.reading = e₂.reading ∨ EventShift e₁ e₂ ∨ EventShift e₂ e₁ := by
  rw [encodeEventMessage_eq, encodeEventMessage_eq, append_eq_append_iff_shifted, eventBody_inj]
  simp [IoTEvent.reading, EventShift]

theorem CredentialShift.fields_ne {c₁ c₂ : DeviceCredential} (h : CredentialShift c₁ c₂) :
    ¬ (c₁.deviceId = c₂.deviceId ∧ c₁.producer = c₂.producer ∧ c₁.metadata = c₂.metadata) := by
  rintro ⟨hd, hp, -⟩
  rcases h with ⟨-, h⟩ | h
  · exact h.field_ne hp
  · exact h.field_ne hd

theorem EventShift.reading_ne {e₁ e₂ : IoTEvent} (h : EventShift e₁ e₂) :
    e₁.reading ≠ e₂.reading := fun he => Shifted.field_ne h (congrArg Prod.fst he)

end Traceability.Pallet
