import Traceability.Machine.Programs
import Traceability.Generator.Device
import Traceability.Generator.Reading
import Traceability.Generator.MerkleTree

/-! The complete scenario. Five devices emit readings at fixed intervals, first in cold storage
and then on the road; only the values measured are drawn. -/
namespace Traceability.Generator
open Bytes Machine

/-- The text of a JSON number. -/
abbrev LiteralText := {text : String // text.toList ≠ [] ∧ ∀ c ∈ text.toList, LiteralChar c}

/-- The numbers of the readings. `jittered` is a base and a uniform draw around it, rounded to
two digits, and `repr` is a float; both are given as the text `json.dumps` writes for them. -/
structure Floats (σ : Type) where
  jittered : ℚ → ℚ → StateM σ LiteralText
  repr : ℚ → LiteralText

namespace IoTDevice
variable {K σ : Type} (scheme : SigningScheme K) (floats : Floats σ) (device : IoTDevice K)

/-- Generate temperature measurement in Celsius. -/
def generateTemperatureEvent (timestamp : ℤ) (baseTemp : ℚ) : StateM σ IoTEvent := do
  let temperature ← floats.jittered baseTemp (1 / 2)
  let payload : Dict := [("temperature_celsius", .literal temperature.val),
    ("sensor_id", .string device.deviceId), ("location", .string device.location)]
  pure (device.signEvent scheme timestamp "Temperature" payload)

/-- Generate humidity measurement (%). -/
def generateHumidityEvent (timestamp : ℤ) (baseHumidity : ℚ) : StateM σ IoTEvent := do
  let humidity ← floats.jittered baseHumidity 2
  let payload : Dict := [("humidity_percent", .literal humidity.val),
    ("sensor_id", .string device.deviceId), ("location", .string device.location)]
  pure (device.signEvent scheme timestamp "Humidity" payload)

/-- Generate GPS location reading. -/
def generateGpsEvent (timestamp : ℤ) (lat lon : ℚ) : IoTEvent :=
  let payload : Dict := [("latitude", .literal (floats.repr lat).val),
    ("longitude", .literal (floats.repr lon).val),
    ("accuracy_meters", .literal (floats.repr 5).val), ("sensor_id", .string device.deviceId)]
  device.signEvent scheme timestamp "GPS" payload

end IoTDevice

def fiveMinutesSeconds : ℤ := 300

def fifteenMinutesSeconds : ℤ := 900

def farmIntervals : ℕ := 288

def transportTemperatureIntervals : ℕ := 216

def transportGpsIntervals : ℕ := 72

/-- What a device's key is derived from. -/
def keyMaterial (seed : ℤ) (deviceId : String) : Bytes :=
  encode (toString seed ++ ":" ++ deviceId)

/-- The generator: its seed and start time, and the signing key made from 32 bytes. -/
structure ScenarioGenerator (K σ : Type) where
  seed : ℤ
  startTime : ℤ
  blake2b : Bytes → Digest
  signingKey : Digest → K
  scheme : SigningScheme K
  floats : Floats σ

/-- A custody transfer record. -/
structure CustodyTransfer where
  batchId : String
  sender : String
  receiver : String
  timestamp : ℤ
  stateTransition : String

/-- The counts of the summary and of its breakdown. -/
structure Summary where
  totalEvents : ℕ
  farmTemperatureReadings : ℕ
  farmHumidityReadings : ℕ
  transportTemperatureReadings : ℕ
  transportGpsReadings : ℕ
  custodyTransfers : ℕ
  temperature : ℕ
  humidity : ℕ
  gps : ℕ
  total : ℕ

structure Scenario where
  totalDevices : ℕ
  startTime : ℤ
  seed : ℤ
  durationHours : ℕ
  credentials : List DeviceCredential
  farmPhase : List IoTEvent
  transportPhase : List IoTEvent
  custodyTransfers : List CustodyTransfer
  summary : Summary

namespace ScenarioGenerator
variable {K σ : Type} (gen : ScenarioGenerator K σ)

def deviceKeySeed (deviceId : String) : Digest := gen.blake2b (keyMaterial gen.seed deviceId)

def makeDevice (deviceId deviceType location owner : String) : IoTDevice K :=
  ⟨gen.signingKey (gen.deviceKeySeed deviceId), deviceId, deviceType, location, owner⟩

/-- Three farm sensors and two transport sensors. -/
def setupDevices : Vector (IoTDevice K) 5 :=
  #v[gen.makeDevice "farm-temp-001" "temperature_sensor" "Farm Cold Storage" "Producer",
    gen.makeDevice "farm-temp-002" "temperature_sensor" "Farm Packaging Area" "Producer",
    gen.makeDevice "farm-humid-001" "humidity_sensor" "Farm Cold Storage" "Producer",
    gen.makeDevice "truck-temp-001" "temperature_sensor" "Refrigerated Truck" "Logistics",
    gen.makeDevice "truck-gps-001" "gps_tracker" "Refrigerated Truck" "Logistics"]

def generateCredentials (devices : Vector (IoTDevice K) 5) : List DeviceCredential :=
  devices.toList.map fun device => device.getCredential gen.scheme

/-- The devices by their places. -/
def farmTempSensors (devices : Vector (IoTDevice K) 5) : List (IoTDevice K) :=
  [devices[0], devices[1]]

def farmHumidSensor (devices : Vector (IoTDevice K) 5) : IoTDevice K := devices[2]

def truckTempSensor (devices : Vector (IoTDevice K) 5) : IoTDevice K := devices[3]

def truckGpsSensor (devices : Vector (IoTDevice K) 5) : IoTDevice K := devices[4]

/-- One round of the farm phase. -/
def farmRound (devices : Vector (IoTDevice K) 5) (i : ℕ) : StateM σ (List IoTEvent) := do
  let timestamp := gen.startTime + i * fiveMinutesSeconds
  let temperatures ← (farmTempSensors devices).mapM fun sensor =>
    sensor.generateTemperatureEvent gen.scheme gen.floats timestamp (34 / 10)
  let humidity ← (farmHumidSensor devices).generateHumidityEvent gen.scheme gen.floats timestamp 82
  pure (temperatures ++ [humidity])

/-- Generate farm phase events (24 hours cold storage). -/
def generateFarmPhase (devices : Vector (IoTDevice K) 5) : StateM σ (List IoTEvent) :=
  List.flatten <$> (List.range farmIntervals).mapM (gen.farmRound devices)

def transportStart : ℤ := gen.startTime + 24 * 3600

/-- A temperature reading in the truck. -/
def truckReading (devices : Vector (IoTDevice K) 5) (i : ℕ) : StateM σ IoTEvent :=
  (truckTempSensor devices).generateTemperatureEvent gen.scheme gen.floats
    (gen.transportStart + i * fiveMinutesSeconds) (38 / 10)

/-- A GPS reading on the straight route from farm to retail. -/
def gpsReading (devices : Vector (IoTDevice K) 5) (i : ℕ) : IoTEvent :=
  let progress : ℚ := i / transportGpsIntervals
  let lat := 377749 / 10000 + (378044 / 10000 - 377749 / 10000) * progress
  let lon := -1224194 / 10000 + (-1222712 / 10000 - -1224194 / 10000) * progress
  (truckGpsSensor devices).generateGpsEvent gen.scheme gen.floats
    (gen.transportStart + i * fifteenMinutesSeconds) lat lon

/-- Generate transport phase events (18 hours). -/
def generateTransportPhase (devices : Vector (IoTDevice K) 5) : StateM σ (List IoTEvent) := do
  let temperatures ← (List.range transportTemperatureIntervals).mapM (gen.truckReading devices)
  pure (temperatures ++ (List.range transportGpsIntervals).map (gen.gpsReading devices))

/-- Generate custody transfer records. -/
def generateCustodyTransfers : List CustodyTransfer :=
  [⟨"batch-lettuce-001", "Producer", "Logistics", gen.startTime + 24 * 3600,
      "Packaged -> InTransit"⟩,
    ⟨"batch-lettuce-001", "Logistics", "Retailer", gen.startTime + 42 * 3600,
      "InTransit -> Delivered"⟩]

/-- Generate complete 1,152-event scenario. -/
def generateFullScenario : StateM σ Scenario := do
  let devices := gen.setupDevices
  let credentials := gen.generateCredentials devices
  let farmPhase ← gen.generateFarmPhase devices
  let transportPhase ← gen.generateTransportPhase devices
  let allEvents := farmPhase ++ transportPhase
  pure {
    totalDevices := devices.size
    startTime := gen.startTime
    seed := gen.seed
    durationHours := 42
    credentials := credentials
    farmPhase := farmPhase
    transportPhase := transportPhase
    custodyTransfers := gen.generateCustodyTransfers
    summary := ⟨allEvents.length, 576, 288, 216, 72, 2, 792, 288, 72, 792 + 288 + 72⟩ }

end ScenarioGenerator

def Scenario.allEvents (scenario : Scenario) : List IoTEvent :=
  scenario.farmPhase ++ scenario.transportPhase

/-- An event as a dictionary. -/
def IoTEvent.asdict (event : IoTEvent) : Dict :=
  [("device_id", .string event.deviceId), ("timestamp", .literal (toString event.timestamp)),
    ("event_type", .string event.eventType), ("payload", .object event.payload),
    ("signature", .string event.signature)]

/-- The record to be anchored. -/
structure Reconciliation where
  merkleRoot : String
  blockRange : ℕ × ℕ
  eventCount : ℕ
  timestamp : ℤ

/-- What `main` writes beside the scenario. -/
def Scenario.reconciliation (blake2b : Bytes → Digest) (scenario : Scenario) : Reconciliation where
  merkleRoot := buildMerkleTree (blake2bHashing blake2b) (scenario.allEvents.map IoTEvent.asdict)
  blockRange := (1000, 1500)
  eventCount := scenario.allEvents.length
  timestamp := scenario.startTime + 42 * 3600

end Traceability.Generator
