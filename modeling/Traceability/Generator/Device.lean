import Traceability.Pallet.Mock
import Traceability.Generator.Json

/-! The generator's devices, the messages they sign, and what the pallet makes of them. -/
namespace Traceability.Generator
open Bytes Machine

/-- Signed identity record used when a device is registered. -/
structure DeviceCredential where
  deviceId : String
  publicKey : String
  producer : String
  metadata : Dict
  signature : String

/-- Signed sensor reading emitted by a simulated IoT device. -/
structure IoTEvent where
  deviceId : String
  timestamp : ℤ
  eventType : String
  payload : Dict
  signature : String

/-- Ed25519 signing keys: the key that verifies for each, and signing. -/
structure SigningScheme (K : Type) where
  verifyKey : K → Pallet.Public
  sign : K → Bytes → Pallet.Signature

/-- A signature that `k` makes for one of the messages `signed` is good for no other message
among the `checked` ones. -/
def SigningScheme.Binds {K : Type} (scheme : SigningScheme K)
    (verify : Pallet.Signature → Bytes → Pallet.Public → Bool) (k : K)
    (signed checked : List Bytes) : Prop :=
  ∀ m ∈ signed, ∀ m' ∈ checked, verify (scheme.sign k m) m' (scheme.verifyKey k) = true → m' = m

/-- Simulated IoT device with Ed25519 signing capability. -/
structure IoTDevice (K : Type) where
  signingKey : K
  deviceId : String
  deviceType : String
  location : String
  owner : String

namespace IoTDevice
variable {K : Type} (scheme : SigningScheme K) (device : IoTDevice K)

def metadata : Dict :=
  [("device_type", .string device.deviceType),
    ("location", .string device.location),
    ("owner", .string device.owner),
    ("capabilities", .array
      (if "sensor".toList <:+: device.deviceType.toList then
        [.string "temperature", .string "humidity"]
      else [.string "gps"]))]

/-- The public key as the credential carries it. -/
def publicKey : String := hex (scheme.verifyKey device.signingKey).toList

/-- What `getCredential` signs. -/
def credentialMessage : Bytes :=
  encode (device.deviceId ++ device.publicKey scheme ++ device.owner ++
    dumps (.object device.metadata))

/-- Generate registration credential with proof-of-possession. -/
def getCredential : DeviceCredential where
  deviceId := device.deviceId
  publicKey := device.publicKey scheme
  producer := device.owner
  metadata := device.metadata
  signature := hex (scheme.sign device.signingKey (device.credentialMessage scheme)).toList

/-- What `signEvent` signs. -/
def eventMessage (timestamp : ℤ) (eventType : String) (payload : Dict) : Bytes :=
  encode (device.deviceId ++ toString timestamp ++ eventType ++ dumps (.object payload))

/-- Sign an event exactly as the pallet will verify it. -/
def signEvent (timestamp : ℤ) (eventType : String) (payload : Dict) : IoTEvent where
  deviceId := device.deviceId
  timestamp := timestamp
  eventType := eventType
  payload := payload
  signature := hex
    (scheme.sign device.signingKey (device.eventMessage timestamp eventType payload)).toList

end IoTDevice

/-- The name an event carries for its type. -/
def eventTypeName : Pallet.EventType → String
  | .temperature => "Temperature"
  | .humidity => "Humidity"
  | .gps => "GPS"
  | .custodyTransfer => "CustodyTransfer"
  | .qualityInspection => "QualityInspection"

/-- The pallet's credential for a generated one: text is read as UTF-8, hexadecimal decoded. -/
structure RepresentsCredential (c : DeviceCredential) (p : Pallet.DeviceCredential) : Prop where
  deviceId : p.deviceId = encode c.deviceId
  publicKey : hex p.publicKey.toList = c.publicKey
  producer : p.producer = encode c.producer
  metadata : p.metadata = encode (dumps (.object c.metadata))
  signature : hex p.signature.toList = c.signature

/-- The pallet's event for a generated one. -/
structure RepresentsEvent (e : IoTEvent) (p : Pallet.IoTEvent) : Prop where
  deviceId : p.deviceId = encode e.deviceId
  timestamp : (p.timestamp.toNat : ℤ) = e.timestamp
  eventType : eventTypeName p.eventType = e.eventType
  payload : p.payload = encode (dumps (.object e.payload))
  signature : hex p.signature.toList = e.signature

section Represented
variable {K : Type} (scheme : SigningScheme K) (device : IoTDevice K)

def IoTDevice.palletCredential : Pallet.DeviceCredential where
  deviceId := encode device.deviceId
  publicKey := scheme.verifyKey device.signingKey
  producer := encode device.owner
  metadata := encode (dumps (.object device.metadata))
  signature := scheme.sign device.signingKey (device.credentialMessage scheme)

def IoTDevice.palletEvent (timestamp : UInt64) (type : Pallet.EventType) (payload : Dict) :
    Pallet.IoTEvent where
  deviceId := encode device.deviceId
  timestamp := timestamp
  eventType := type
  payload := encode (dumps (.object payload))
  signature := scheme.sign device.signingKey
    (device.eventMessage timestamp.toNat (eventTypeName type) payload)

/-- A generated credential stands for exactly one of the pallet's. -/
theorem representsCredential_iff {p : Pallet.DeviceCredential} :
    RepresentsCredential (device.getCredential scheme) p ↔ p = device.palletCredential scheme := by
  constructor
  · rintro ⟨hid, hkey, hproducer, hmetadata, hsignature⟩
    have hkey' := hex_toList_injective hkey
    have hsignature' := hex_toList_injective hsignature
    cases p
    simp_all [IoTDevice.palletCredential, IoTDevice.getCredential]
  · rintro rfl
    constructor <;> simp only [IoTDevice.palletCredential, IoTDevice.getCredential,
      IoTDevice.publicKey]

theorem eventTypeName_injective : Function.Injective eventTypeName := by
  intro s t h
  cases s <;> cases t <;> first | rfl | exact absurd h (by decide)

/-- A generated event stands for exactly one of the pallet's. -/
theorem representsEvent_iff {timestamp : UInt64} {type : Pallet.EventType} {payload : Dict}
    {p : Pallet.IoTEvent} :
    RepresentsEvent (device.signEvent scheme timestamp.toNat (eventTypeName type) payload) p ↔
      p = device.palletEvent scheme timestamp type payload := by
  constructor
  · rintro ⟨hid, htime, htype, hpayload, hsignature⟩
    have hnat : (p.timestamp.toNat : ℤ) = timestamp.toNat := htime
    have htime' : p.timestamp = timestamp := UInt64.toNat_inj.mp (Int.ofNat_inj.mp hnat)
    have htype' : p.eventType = type := eventTypeName_injective htype
    have hsignature' := hex_toList_injective hsignature
    cases p
    simp_all [IoTDevice.palletEvent, IoTDevice.signEvent]
  · rintro rfl
    constructor <;> simp only [IoTDevice.palletEvent, IoTDevice.signEvent]

end Represented

end Traceability.Generator
