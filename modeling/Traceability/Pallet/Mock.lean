import Traceability.Pallet.Runs

/-! The mock runtime of the pallet's tests, with a fixed clock, a settable freshness window
and one device key, made from the seed of thirty-two sevens. Ed25519 and BlakeTwo256 are
tables: the signatures of that key and the digests for the messages and events below. -/
namespace Traceability.Pallet.Mock

/-- A signature with the key and the message it was made for. -/
structure Signed where
  publicKey : Public
  message : Bytes
  signature : Signature
  deriving DecidableEq

def tableVerify (table : List Signed) (s : Signature) (m : Bytes) (k : Public) : Bool :=
  decide (⟨k, m, s⟩ ∈ table)

def tableHash (table : List (IoTEvent × H256)) (e : IoTEvent) : H256 :=
  ((table.find? fun p => p.1 = e).map Prod.snd).getD (Vector.replicate 32 0)

/-- A table that lists no key and signature twice verifies ideally. -/
theorem tableVerify_ideal {table : List Signed}
    (h : (table.map fun t => (t.publicKey, t.signature)).Nodup) (s : Signature) (k : Public)
    (m m' : Bytes) (hm : tableVerify table s m k = true) (hm' : tableVerify table s m' k = true) :
    m = m' := by
  have heq := List.inj_on_of_nodup_map h (of_decide_eq_true hm) (of_decide_eq_true hm') rfl
  exact congrArg Signed.message heq

/-- The big-endian reading of a hexadecimal literal. -/
def fixed (n x : ℕ) : Vector UInt8 n :=
  Vector.ofFn fun i => UInt8.ofNat (x / 256 ^ (n - 1 - i.val))

/-- An Ed25519 signature is the encoding of a point followed by that of a scalar. -/
def halves (r s : ℕ) : Signature := fixed 32 r ++ fixed 32 s

/-- `MockTime::now()` in seconds. -/
def now : UInt64 := 1000000

def caller : UInt64 := 1

def deviceKey : Public := fixed 32
  0xea4a6c63e29c520abef5507b132ec5f9954776aebebe7b92421eea691446d22c

/-- The credential of the connectivity measurement. -/
def credential : DeviceCredential where
  deviceId := ascii "dev-conn"
  publicKey := deviceKey
  producer := ascii "producer"
  metadata := []
  signature := halves
    0x4f3506407cb91a9ed416a7f2458028dc75968d91ba8cd2d1945c49b8406eff27
    0x4473cbe0fb7731bcd898476747e15f3c70cfd6b562b2e24f2dcd7f363ebce20d

/-- Its first reading, delivered without delay. -/
def reading : IoTEvent where
  deviceId := ascii "dev-conn"
  timestamp := now
  eventType := .temperature
  payload := [1, 0, 0, 0, 0]
  signature := halves
    0xd669895e96f1edb6f7023abb3690310bc7888416c74c78308b0eb293f0c9424e
    0xf792f32d0fddb9628c1fb8fe58d57e9170b49ca9957da55fc15790f7808ca502

/-- A reading whose payload carries the device's own key. -/
def keyReading : IoTEvent where
  deviceId := ascii "dev-conn"
  timestamp := now
  eventType := .temperature
  payload := deviceKey.toList ++ ascii "x"
  signature := halves
    0xd7dcb67075bc5edf730076a3f0d88353c2f395a5b78453cd18964b13a59ca3a5
    0x48ea86458ec210f87d022ea74defc2bcefc46f2260724b168d66d46c7a32c306

/-- A reading whose payload starts with another timestamp and event type. -/
def nestedReading : IoTEvent where
  deviceId := ascii "dev-conn"
  timestamp := now
  eventType := .temperature
  payload := encodeU64 now ++ encodeEventType .temperature
  signature := halves
    0xf2615b5f496fe031ea2944f5459dbe9a0dd1d9cce48c60ebb382025bedd8bee1
    0x242aaebf9de0c7f0224fd5f5bc0649f5d8845c394a71c9e71681ce5aeaaf8100

/-- The key reading, read as a credential for a longer device id. -/
def liftedCredential : DeviceCredential where
  deviceId := ascii "dev-conn" ++ encodeU64 now ++ encodeEventType .temperature
  publicKey := deviceKey
  producer := ascii "x"
  metadata := []
  signature := keyReading.signature

/-- The nested reading, read as an event of that longer device id. -/
def liftedReading : IoTEvent where
  deviceId := liftedCredential.deviceId
  timestamp := now
  eventType := .temperature
  payload := []
  signature := nestedReading.signature

def keyring : List Signed :=
  [⟨deviceKey, encodeCredentialMessage credential, credential.signature⟩,
    ⟨deviceKey, encodeEventMessage reading, reading.signature⟩,
    ⟨deviceKey, encodeEventMessage keyReading, keyReading.signature⟩,
    ⟨deviceKey, encodeEventMessage nestedReading, nestedReading.signature⟩]

def digests : List (IoTEvent × H256) :=
  [(reading, fixed 32 0x92f6043339f5f7a003dc5d9a7543cb4d181a23742af1f594c3358b62cb7d90f1),
    (keyReading, fixed 32 0x0b931b379962a67e83904cd0cb6635d49ef00517d445c0dcd8a75507b205dfb6),
    (nestedReading, fixed 32 0x760179e693066fe6395269d3516d7ecd3370fb5d2d810b6294b80be9f975cd7c),
    (liftedReading, fixed 32 0xcbdd0758c76588c32ca08891334b2c56ddabfb03be1bad632df5d214de9da50f)]

/-- The mock runtime with its default window. -/
def config : Config := ⟨2000000, tableVerify keyring, tableHash digests⟩

theorem config_ideal (keys : List Public) (messages : List Bytes) :
    config.IdealSignatures keys messages :=
  fun k _ m _ m' _ s => tableVerify_ideal (by decide +kernel) s k m m'

/-- A call by the mock's caller at its fixed clock, in the first block. -/
def call (c : Call) : Extrinsic UInt64 := ⟨⟨1, Nat.one_pos, now⟩, .signed caller, c⟩

end Traceability.Pallet.Mock
