import Traceability.Generator.Scenario
import Traceability.Pallet.Types
import Mathlib.Algebra.BigOperators.Group.List.Basic
import Mathlib.Algebra.Group.Action.Defs

/-! The schedule of the scenario: which device reports what, and when. It does not depend on
the draws, so the counts of the summary and the order of the phases hold for every seed. -/
namespace Traceability.Generator
open Bytes Machine

variable {K σ : Type}

/-- A reading that is due. -/
structure Slot (K : Type) where
  device : IoTDevice K
  timestamp : ℤ
  type : Pallet.EventType

/-- The event is the due reading with some payload, signed by its device. -/
def Fills (scheme : SigningScheme K) (slot : Slot K) (event : IoTEvent) : Prop :=
  ∃ payload, (Json.object payload).Valid ∧
    event = slot.device.signEvent scheme slot.timestamp (eventTypeName slot.type) payload

theorem valid_literalText (text : LiteralText) : (Json.literal text.val).Valid :=
  .literal _ text.property.1 text.property.2

section Readings
variable (scheme : SigningScheme K) (floats : Floats σ) (device : IoTDevice K) (timestamp : ℤ)

theorem temperatureEvent_fills (baseTemp : ℚ) :
    Returns (Fills scheme ⟨device, timestamp, .temperature⟩)
      (device.generateTemperatureEvent scheme floats timestamp baseTemp) := by
  intro s
  refine ⟨_, .object _ ?_ (by simp), rfl⟩
  simp [valid_literalText, Json.Valid.string]

theorem humidityEvent_fills (baseHumidity : ℚ) :
    Returns (Fills scheme ⟨device, timestamp, .humidity⟩)
      (device.generateHumidityEvent scheme floats timestamp baseHumidity) := by
  intro s
  refine ⟨_, .object _ ?_ (by simp), rfl⟩
  simp [valid_literalText, Json.Valid.string]

theorem gpsEvent_fills (lat lon : ℚ) :
    Fills scheme ⟨device, timestamp, .gps⟩
      (device.generateGpsEvent scheme floats timestamp lat lon) := by
  refine ⟨_, .object _ ?_ (by simp), rfl⟩
  simp [valid_literalText, Json.Valid.string]

end Readings

namespace ScenarioGenerator
variable (gen : ScenarioGenerator K σ)

def farmSlots (i : ℕ) : List (Slot K) :=
  let timestamp := gen.startTime + i * fiveMinutesSeconds
  (farmTempSensors gen.setupDevices).map (fun sensor => ⟨sensor, timestamp, .temperature⟩) ++
    [⟨farmHumidSensor gen.setupDevices, timestamp, .humidity⟩]

def farmPlan : List (Slot K) := ((List.range farmIntervals).map gen.farmSlots).flatten

def truckSlot (i : ℕ) : Slot K :=
  ⟨truckTempSensor gen.setupDevices, gen.transportStart + i * fiveMinutesSeconds, .temperature⟩

def gpsSlot (i : ℕ) : Slot K :=
  ⟨truckGpsSensor gen.setupDevices, gen.transportStart + i * fifteenMinutesSeconds, .gps⟩

@[simp] theorem truckSlot_type (i : ℕ) : (gen.truckSlot i).type = .temperature := rfl

@[simp] theorem gpsSlot_type (i : ℕ) : (gen.gpsSlot i).type = .gps := rfl

def transportPlan : List (Slot K) :=
  (List.range transportTemperatureIntervals).map gen.truckSlot ++
    (List.range transportGpsIntervals).map gen.gpsSlot

def plan : List (Slot K) := gen.farmPlan ++ gen.transportPlan

theorem farmRound_fills (i : ℕ) :
    Returns (List.Forall₂ (Fills gen.scheme) (gen.farmSlots i))
      (gen.farmRound gen.setupDevices i) := by
  unfold farmRound
  have hsensors : ∀ sensor ∈ farmTempSensors gen.setupDevices,
      Returns (Fills gen.scheme ⟨sensor, gen.startTime + i * fiveMinutesSeconds, .temperature⟩)
        (sensor.generateTemperatureEvent gen.scheme gen.floats
          (gen.startTime + i * fiveMinutesSeconds) (34 / 10)) :=
    fun sensor _ => temperatureEvent_fills gen.scheme gen.floats sensor _ _
  refine (returns_mapM hsensors).bind fun temperatures htemperatures => ?_
  refine (humidityEvent_fills gen.scheme gen.floats (farmHumidSensor gen.setupDevices) _ 82).bind
    fun humidity hhumidity => returns_pure ?_
  obtain ⟨first, rest, hfirst, hrest, rfl⟩ := List.forall₂_cons_left_iff.mp htemperatures
  obtain ⟨second, rest, hsecond, hnil, rfl⟩ := List.forall₂_cons_left_iff.mp hrest
  obtain rfl := List.forall₂_nil_left_iff.mp hnil
  exact .cons hfirst (.cons hsecond (.cons hhumidity .nil))

theorem farmPhase_fills : Returns (List.Forall₂ (Fills gen.scheme) gen.farmPlan)
    (gen.generateFarmPhase gen.setupDevices) := by
  apply returns_map
  have hrounds : Returns (List.Forall₂ _ (List.range farmIntervals)) _ :=
    returns_mapM fun i _ => gen.farmRound_fills i
  intro s
  exact List.rel_flatten (List.forall₂_map_left_iff.mpr (hrounds s))

theorem truckReading_fills (i : ℕ) :
    Returns (Fills gen.scheme (gen.truckSlot i)) (gen.truckReading gen.setupDevices i) :=
  temperatureEvent_fills gen.scheme gen.floats (truckTempSensor gen.setupDevices) _ _

theorem gpsReading_fills (i : ℕ) :
    Fills gen.scheme (gen.gpsSlot i) (gen.gpsReading gen.setupDevices i) :=
  gpsEvent_fills gen.scheme gen.floats (truckGpsSensor gen.setupDevices) _ _ _

theorem transportPhase_fills : Returns (List.Forall₂ (Fills gen.scheme) gen.transportPlan)
    (gen.generateTransportPhase gen.setupDevices) := by
  have hgps : List.Forall₂ (Fills gen.scheme)
      ((List.range transportGpsIntervals).map gen.gpsSlot)
      ((List.range transportGpsIntervals).map (gen.gpsReading gen.setupDevices)) := by
    rw [List.forall₂_map_left_iff, List.forall₂_map_right_iff, List.forall₂_same]
    intro i hi
    exact gen.gpsReading_fills i
  have hloop : Returns (List.Forall₂ _ (List.range transportTemperatureIntervals)) _ :=
    returns_mapM fun i _ => gen.truckReading_fills i
  unfold generateTransportPhase
  refine hloop.bind fun temperatures htemperatures => ?_
  have htemps : List.Forall₂ (Fills gen.scheme)
      ((List.range transportTemperatureIntervals).map gen.truckSlot) temperatures :=
    List.forall₂_map_left_iff.mpr htemperatures
  refine returns_pure ?_
  have hphase := List.rel_append htemps hgps
  unfold transportPlan
  exact hphase

/-- All that is fixed about a scenario. -/
structure Follows (scenario : Scenario) : Prop where
  startTime : scenario.startTime = gen.startTime
  credentials : scenario.credentials =
    gen.setupDevices.toList.map fun device => device.getCredential gen.scheme
  farmPhase : List.Forall₂ (Fills gen.scheme) gen.farmPlan scenario.farmPhase
  transportPhase : List.Forall₂ (Fills gen.scheme) gen.transportPlan scenario.transportPhase
  custodyTransfers : scenario.custodyTransfers = gen.generateCustodyTransfers
  totalDevices : scenario.totalDevices = 5
  summary : scenario.summary =
    ⟨scenario.allEvents.length, 576, 288, 216, 72, 2, 792, 288, 72, 792 + 288 + 72⟩

theorem fullScenario_follows : Returns gen.Follows gen.generateFullScenario := by
  unfold generateFullScenario
  refine gen.farmPhase_fills.bind fun farmPhase hfarm => ?_
  refine gen.transportPhase_fills.bind fun transportPhase htransport => returns_pure ?_
  exact ⟨rfl, rfl, hfarm, htransport, rfl, rfl, rfl⟩

theorem Follows.allEvents {gen : ScenarioGenerator K σ} {scenario : Scenario}
    (h : gen.Follows scenario) : List.Forall₂ (Fills gen.scheme) gen.plan scenario.allEvents :=
  List.rel_append h.farmPhase h.transportPhase

end ScenarioGenerator

/-- What the payload has no part in can be read off the schedule. -/
theorem map_eq_of_fills {α : Type} {scheme : SigningScheme K} {f : IoTEvent → α} {g : Slot K → α}
    {slots : List (Slot K)} {events : List IoTEvent}
    (hfg : ∀ slot event, Fills scheme slot event → f event = g slot)
    (h : List.Forall₂ (Fills scheme) slots events) : events.map f = slots.map g := by
  induction h with
  | nil => rfl
  | cons hhead _ ih => rw [List.map_cons, List.map_cons, hfg _ _ hhead, ih]

section Counts

/-- How many of the events are of a type. -/
def countType (events : List IoTEvent) (type : Pallet.EventType) : ℕ :=
  (events.map IoTEvent.eventType).count (eventTypeName type)

theorem countType_append (xs ys : List IoTEvent) (type : Pallet.EventType) :
    countType (xs ++ ys) type = countType xs type + countType ys type := by
  unfold countType
  rw [List.map_append, List.count_append]

theorem map_eventType_of_fills {scheme : SigningScheme K} {slots : List (Slot K)}
    {events : List IoTEvent} (h : List.Forall₂ (Fills scheme) slots events) :
    events.map IoTEvent.eventType = slots.map fun slot => eventTypeName slot.type := by
  apply map_eq_of_fills _ h
  rintro slot event ⟨payload, -, rfl⟩
  rfl

theorem ScenarioGenerator.length_plan (gen : ScenarioGenerator K σ) :
    gen.plan.length = 1152 := by
  have hround : (List.length ∘ gen.farmSlots) = fun _ => 3 := rfl
  unfold plan farmPlan transportPlan
  rw [List.length_append, List.length_append, List.length_flatten, List.map_map, hround,
    List.map_const', List.sum_replicate, List.length_map, List.length_map, List.length_range,
    List.length_range, List.length_range]
  rfl

variable {gen : ScenarioGenerator K σ} {scenario : Scenario}

theorem countType_farmPhase (h : gen.Follows scenario) (type : Pallet.EventType) :
    countType scenario.farmPhase type =
      farmIntervals * ["Temperature", "Temperature", "Humidity"].count (eventTypeName type) := by
  have hround (i : ℕ) : (gen.farmSlots i).map (fun slot => eventTypeName slot.type) =
      ["Temperature", "Temperature", "Humidity"] := rfl
  unfold countType
  rw [map_eventType_of_fills h.farmPhase, ScenarioGenerator.farmPlan, List.map_flatten,
    List.map_map, List.count_flatten, List.map_map]
  simp only [Function.comp_def, hround, List.map_const', List.sum_replicate, List.length_range,
    smul_eq_mul]

theorem countType_transportPhase (h : gen.Follows scenario) (type : Pallet.EventType) :
    countType scenario.transportPhase type =
      (if type = .temperature then transportTemperatureIntervals else 0) +
        if type = .gps then transportGpsIntervals else 0 := by
  have hname (t t' : Pallet.EventType) :
      ((eventTypeName t == eventTypeName t') = true) ↔ t' = t := by
    rw [beq_iff_eq, eventTypeName_injective.eq_iff, eq_comm]
  unfold countType
  rw [map_eventType_of_fills h.transportPhase, ScenarioGenerator.transportPlan, List.map_append,
    List.map_map, List.map_map, List.count_append]
  simp only [Function.comp_def, ScenarioGenerator.truckSlot_type, ScenarioGenerator.gpsSlot_type,
    List.map_const', List.count_replicate, List.length_range, hname]

/-- The numbers of the summary, written down in advance, are those of the events, for every
seed and start time and whatever is drawn. -/
theorem summary_counts (gen : ScenarioGenerator K σ) (rng : σ) :
    let scenario := (gen.generateFullScenario.run rng).1
    countType scenario.farmPhase .temperature = scenario.summary.farmTemperatureReadings ∧
    countType scenario.farmPhase .humidity = scenario.summary.farmHumidityReadings ∧
    countType scenario.transportPhase .temperature =
      scenario.summary.transportTemperatureReadings ∧
    countType scenario.transportPhase .gps = scenario.summary.transportGpsReadings ∧
    countType scenario.allEvents .temperature = scenario.summary.temperature ∧
    countType scenario.allEvents .humidity = scenario.summary.humidity ∧
    countType scenario.allEvents .gps = scenario.summary.gps ∧
    scenario.summary.totalEvents = scenario.summary.total ∧
    scenario.custodyTransfers.length = scenario.summary.custodyTransfers ∧
    scenario.credentials.length = scenario.totalDevices := by
  intro scenario
  have h : gen.Follows scenario := gen.fullScenario_follows rng
  have hlength : scenario.allEvents.length = 1152 :=
    h.allEvents.length_eq.symm.trans gen.length_plan
  have hall (type : Pallet.EventType) : countType scenario.allEvents type =
      countType scenario.farmPhase type + countType scenario.transportPhase type :=
    countType_append _ _ type
  simp only [hall, countType_farmPhase h, countType_transportPhase h, h.summary, h.totalDevices,
    h.custodyTransfers, h.credentials, hlength]
  refine ⟨by decide, by decide, by decide, by decide, by decide, by decide, by decide, trivial,
    ?_, ?_⟩
  · rfl
  · rfl

end Counts

section Order

/-- The device and the time of a reading. -/
def Slot.stamp (slot : Slot K) : String × ℤ := (slot.device.deviceId, slot.timestamp)

namespace ScenarioGenerator
variable (gen : ScenarioGenerator K σ)

theorem map_stamp_farmPlan : gen.farmPlan.map Slot.stamp =
    (List.range farmIntervals).flatMap fun i : ℕ =>
      ["farm-temp-001", "farm-temp-002", "farm-humid-001"].map fun id =>
        (id, gen.startTime + i * fiveMinutesSeconds) := by
  have hround : List.map Slot.stamp ∘ gen.farmSlots = fun i : ℕ =>
      ["farm-temp-001", "farm-temp-002", "farm-humid-001"].map fun id =>
        (id, gen.startTime + i * fiveMinutesSeconds) := rfl
  unfold farmPlan
  rw [List.map_flatten, List.map_map, hround, List.flatMap_def]

theorem map_stamp_transportPlan : gen.transportPlan.map Slot.stamp =
    ((List.range transportTemperatureIntervals).map fun i : ℕ =>
      ("truck-temp-001", gen.transportStart + i * fiveMinutesSeconds)) ++
    (List.range transportGpsIntervals).map fun i : ℕ =>
      ("truck-gps-001", gen.transportStart + i * fifteenMinutesSeconds) := by
  unfold transportPlan
  rw [List.map_append, List.map_map, List.map_map]
  rfl

theorem farmPlan_nodup : (gen.farmPlan.map Slot.stamp).Nodup := by
  rw [map_stamp_farmPlan, List.nodup_flatMap]
  constructor
  · intro i hi
    exact List.Nodup.map (fun _ _ h => (Prod.mk.inj h).1) (by decide)
  · refine List.nodup_range.imp ?_
    intro i j hij stamp hi hj
    obtain ⟨id, -, rfl⟩ := List.mem_map.mp hi
    obtain ⟨id', -, heq⟩ := List.mem_map.mp hj
    have htime := (Prod.mk.inj heq).2
    unfold fiveMinutesSeconds at htime
    omega

theorem transportPlan_nodup : (gen.transportPlan.map Slot.stamp).Nodup := by
  rw [map_stamp_transportPlan, List.nodup_append]
  refine ⟨List.Nodup.map ?_ List.nodup_range, List.Nodup.map ?_ List.nodup_range, ?_⟩
  · intro i j h
    have htime := (Prod.mk.inj h).2
    unfold fiveMinutesSeconds at htime
    omega
  · intro i j h
    have htime := (Prod.mk.inj h).2
    unfold fifteenMinutesSeconds at htime
    omega
  · intro stamp hstamp stamp' hstamp'
    obtain ⟨i, -, rfl⟩ := List.mem_map.mp hstamp
    obtain ⟨j, -, rfl⟩ := List.mem_map.mp hstamp'
    simp

/-- The farm's stamps: its devices, before the handover. -/
theorem mem_farmPlan {stamp : String × ℤ} (h : stamp ∈ gen.farmPlan.map Slot.stamp) :
    stamp.1 ∈ ["farm-temp-001", "farm-temp-002", "farm-humid-001"] ∧
      gen.startTime ≤ stamp.2 ∧ stamp.2 < gen.transportStart := by
  rw [map_stamp_farmPlan] at h
  obtain ⟨i, hi, hstamp⟩ := List.mem_flatMap.mp h
  obtain ⟨id, hid, rfl⟩ := List.mem_map.mp hstamp
  have hlt := List.mem_range.mp hi
  unfold farmIntervals at hlt
  refine ⟨hid, ?_⟩
  unfold transportStart fiveMinutesSeconds
  constructor <;> dsimp only <;> omega

/-- The truck's stamps: its devices, from the handover to the delivery. -/
theorem mem_transportPlan {stamp : String × ℤ} (h : stamp ∈ gen.transportPlan.map Slot.stamp) :
    stamp.1 ∈ ["truck-temp-001", "truck-gps-001"] ∧
      gen.transportStart ≤ stamp.2 ∧ stamp.2 < gen.startTime + 42 * 3600 := by
  rw [map_stamp_transportPlan] at h
  rcases List.mem_append.mp h with h | h
  · obtain ⟨i, hi, rfl⟩ := List.mem_map.mp h
    have hlt := List.mem_range.mp hi
    unfold transportTemperatureIntervals at hlt
    refine ⟨by simp, ?_⟩
    unfold transportStart fiveMinutesSeconds
    constructor <;> dsimp only <;> omega
  · obtain ⟨i, hi, rfl⟩ := List.mem_map.mp h
    have hlt := List.mem_range.mp hi
    unfold transportGpsIntervals at hlt
    refine ⟨by simp, ?_⟩
    unfold transportStart fifteenMinutesSeconds
    constructor <;> dsimp only <;> omega

theorem plan_nodup : (gen.plan.map Slot.stamp).Nodup := by
  unfold plan
  rw [List.map_append]
  refine gen.farmPlan_nodup.append gen.transportPlan_nodup fun stamp hfarm htransport => ?_
  have hid := (gen.mem_farmPlan hfarm).1
  have hid' := (gen.mem_transportPlan htransport).1
  simp only [List.mem_cons, List.not_mem_nil, or_false] at hid hid'
  rcases hid' with hid' | hid' <;> simp [hid'] at hid

end ScenarioGenerator

def IoTEvent.stamp (event : IoTEvent) : String × ℤ := (event.deviceId, event.timestamp)

theorem map_stamp_of_fills {scheme : SigningScheme K} {slots : List (Slot K)}
    {events : List IoTEvent} (h : List.Forall₂ (Fills scheme) slots events) :
    events.map IoTEvent.stamp = slots.map Slot.stamp := by
  apply map_eq_of_fills _ h
  rintro slot event ⟨payload, -, rfl⟩
  rfl

/-- No device reports twice at one time, and the custody transfers divide the timeline: the
farm's readings come before the first, the truck's between the first and the second, whose time
is that of the reconciliation. -/
theorem scenario_timeline (gen : ScenarioGenerator K σ) (blake2b : Bytes → Digest) (rng : σ) :
    let scenario := (gen.generateFullScenario.run rng).1
    (scenario.allEvents.map IoTEvent.stamp).Nodup ∧
    ∃ handover delivery, scenario.custodyTransfers.map CustodyTransfer.timestamp =
        [handover, delivery] ∧
      (scenario.reconciliation blake2b).timestamp = delivery ∧
      (∀ event ∈ scenario.farmPhase,
        scenario.startTime ≤ event.timestamp ∧ event.timestamp < handover) ∧
      ∀ event ∈ scenario.transportPhase,
        handover ≤ event.timestamp ∧ event.timestamp < delivery := by
  intro scenario
  have h : gen.Follows scenario := gen.fullScenario_follows rng
  have htransfers : scenario.custodyTransfers.map CustodyTransfer.timestamp =
      [gen.transportStart, gen.startTime + 42 * 3600] := by
    rw [h.custodyTransfers]
    rfl
  refine ⟨?_, gen.transportStart, gen.startTime + 42 * 3600, htransfers, ?_, ?_, ?_⟩
  · rw [map_stamp_of_fills h.allEvents]
    exact gen.plan_nodup
  · show scenario.startTime + 42 * 3600 = _
    rw [h.startTime]
  · intro event hevent
    have hstamp := List.mem_map_of_mem (f := IoTEvent.stamp) hevent
    rw [map_stamp_of_fills h.farmPhase] at hstamp
    rw [h.startTime]
    exact (gen.mem_farmPlan hstamp).2
  · intro event hevent
    have hstamp := List.mem_map_of_mem (f := IoTEvent.stamp) hevent
    rw [map_stamp_of_fills h.transportPhase] at hstamp
    exact (gen.mem_transportPlan hstamp).2

end Order

end Traceability.Generator
