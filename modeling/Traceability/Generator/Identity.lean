import Traceability.Generator.Deployment
import Traceability.Generator.Canonical
import Std.Data.String.ToInt

/-! What identifies a scenario. All scenarios have as many events, so the Merkle root alone
stands for the readings; and no two pairs of a seed and a device name derive their key from
the same text. -/
namespace Traceability.Generator
open Bytes Machine Merkle

variable {K K' σ σ' : Type}

section Decimal

/-- The decimal text of an integer is made of digits and a sign. -/
theorem mem_toString_int {n : ℤ} {c : Char} (h : c ∈ (toString n).toList) :
    c.isDigit = true ∨ c = '-' := by
  have hdigits {m : ℕ} (hm : c ∈ (toString m).toList) : c.isDigit = true := by
    rw [Nat.toString_eq_repr, Nat.toList_repr] at hm
    exact Nat.isDigit_of_mem_toDigits (by decide) (by decide) hm
  cases n with
  | ofNat m => exact .inl (hdigits h)
  | negSucc m =>
    have hsign : (toString (Int.negSucc m)).toList = '-' :: (toString (m + 1)).toList := by
      show ("-" ++ Nat.repr (m + 1)).toList = _
      simp
    rw [hsign] at h
    rcases List.mem_cons.mp h with rfl | h
    · exact .inr rfl
    · exact .inl (hdigits h)

theorem literalChar_toString_int {n : ℤ} {c : Char} (h : c ∈ (toString n).toList) :
    LiteralChar c := by
  rcases mem_toString_int h with hdigit | rfl
  · left
    simp [Char.isAlphanum, hdigit]
  · decide

theorem toString_int_ne_nil (n : ℤ) : (toString n).toList ≠ [] := by
  cases n with
  | ofNat m =>
    show (Nat.repr m).toList ≠ []
    simp
  | negSucc m =>
    show ("-" ++ Nat.repr (m + 1)).toList ≠ []
    simp

theorem toString_int_injective {m n : ℤ} (h : toString m = toString n) : m = n :=
  Int.repr_injective h

end Decimal

section Keys

/-- A text that ends before a mark, and the rest after it. -/
theorem append_cons_inj {α : Type} {a : α} {xs xs' ys ys' : List α} (hx : a ∉ xs) (hx' : a ∉ xs')
    (h : xs ++ a :: ys = xs' ++ a :: ys') : xs = xs' ∧ ys = ys' := by
  induction xs generalizing xs' with
  | nil =>
    cases xs' with
    | nil => exact ⟨rfl, (List.cons.inj h).2⟩
    | cons x xs' => exact absurd (List.cons.inj h).1 fun heq => hx' (heq ▸ List.mem_cons_self)
  | cons x xs ih =>
    cases xs' with
    | nil => exact absurd (List.cons.inj h).1 fun heq => hx (heq ▸ List.mem_cons_self)
    | cons x' xs' =>
      obtain ⟨hhead, htail⟩ := List.cons.inj h
      obtain ⟨hxs, hys⟩ := ih (fun hmem => hx (List.mem_cons_of_mem _ hmem))
        (fun hmem => hx' (List.mem_cons_of_mem _ hmem)) htail
      exact ⟨by rw [hhead, hxs], hys⟩

theorem colon_notMem_toString (n : ℤ) : ':' ∉ (toString n).toList := by
  intro h
  rcases mem_toString_int h with hdigit | heq
  · exact absurd hdigit (by decide)
  · exact absurd heq (by decide)

/-- The text behind a device's key gives the seed and the device back, whatever the name. -/
theorem keyMaterial_inj {seed seed' : ℤ} {deviceId deviceId' : String} :
    keyMaterial seed deviceId = keyMaterial seed' deviceId' ↔
      seed = seed' ∧ deviceId = deviceId' := by
  constructor
  · intro h
    have htext := congrArg String.toList (encode_injective h)
    simp only [String.toList_append] at htext
    rw [List.append_assoc, List.append_assoc] at htext
    obtain ⟨hseed, hid⟩ := append_cons_inj (colon_notMem_toString seed)
      (colon_notMem_toString seed') htext
    exact ⟨toString_int_injective (String.toList_inj.mp hseed), String.toList_inj.mp hid⟩
  · rintro ⟨rfl, rfl⟩
    rfl

end Keys

section Roots

theorem SameData.string_eq {s t : String} (h : SameData (.string s) (.string t)) : s = t := by
  cases h
  rfl

theorem SameData.literal_eq {s t : String} (h : SameData (.literal s) (.literal t)) : s = t := by
  cases h
  rfl

/-- A field of one dictionary is in the other, with the same data under it. -/
theorem SameData.exists_field {fs gs : List (String × Json)}
    (h : SameData (.object fs) (.object gs)) {key : String} {v : Json} (hv : (key, v) ∈ fs) :
    ∃ w, (key, w) ∈ gs ∧ SameData v w := by
  induction fs generalizing gs with
  | nil => cases hv
  | cons f fs ih =>
    cases h with
    | @field key' v' w fs gs gs' head tail =>
      rcases List.mem_cons.mp hv with heq | hv
      · obtain ⟨rfl, rfl⟩ := Prod.mk.inj heq
        exact ⟨w, by simp, head⟩
      · obtain ⟨w, hw, hsame⟩ := ih tail hv
        refine ⟨w, ?_, hsame⟩
        rcases List.mem_append.mp hw with hw | hw
        · exact List.mem_append_left _ hw
        · exact List.mem_append_right _ (List.mem_cons_of_mem _ hw)

/-- Two events that differ in the order of payload fields only. -/
structure SameReading (event event' : IoTEvent) : Prop where
  deviceId : event.deviceId = event'.deviceId
  timestamp : event.timestamp = event'.timestamp
  eventType : event.eventType = event'.eventType
  payload : SameData (.object event.payload) (.object event'.payload)
  signature : event.signature = event'.signature

/-- Each key stands for one field of an event. -/
theorem mem_asdict {event : IoTEvent} {key : String} {v w : Json} (hv : (key, v) ∈ event.asdict)
    (hw : (key, w) ∈ event.asdict) : v = w := by
  have hkeys : (event.asdict.map Prod.fst).Nodup := by simp [IoTEvent.asdict]
  have heq := List.inj_on_of_nodup_map hkeys hv hw rfl
  exact congrArg Prod.snd heq

theorem sameData_asdict_iff {event event' : IoTEvent} :
    SameData (.object event.asdict) (.object event'.asdict) ↔ SameReading event event' := by
  constructor
  · intro h
    have hfield (key : String) {v w : Json} (hv : (key, v) ∈ event.asdict)
        (hw : (key, w) ∈ event'.asdict) : SameData v w := by
      obtain ⟨w', hw', hsame⟩ := h.exists_field hv
      rwa [mem_asdict hw hw']
    have hid : SameData (.string event.deviceId) (.string event'.deviceId) :=
      hfield "device_id" (by simp [IoTEvent.asdict]) (by simp [IoTEvent.asdict])
    have htime : SameData (.literal (toString event.timestamp))
        (.literal (toString event'.timestamp)) :=
      hfield "timestamp" (by simp [IoTEvent.asdict]) (by simp [IoTEvent.asdict])
    have htype : SameData (.string event.eventType) (.string event'.eventType) :=
      hfield "event_type" (by simp [IoTEvent.asdict]) (by simp [IoTEvent.asdict])
    have hpayload : SameData (.object event.payload) (.object event'.payload) :=
      hfield "payload" (by simp [IoTEvent.asdict]) (by simp [IoTEvent.asdict])
    have hsignature : SameData (.string event.signature) (.string event'.signature) :=
      hfield "signature" (by simp [IoTEvent.asdict]) (by simp [IoTEvent.asdict])
    exact ⟨hid.string_eq, toString_int_injective htime.literal_eq, htype.string_eq, hpayload,
      hsignature.string_eq⟩
  · rintro ⟨hid, htime, htype, hpayload, hsignature⟩
    unfold IoTEvent.asdict
    rw [hid, htime, htype, hsignature]
    exact .first (.string _) (.first (.literal _) (.first (.string _) (.first hpayload
      (.first (.string _) .emptyObject))))

theorem valid_asdict {event : IoTEvent} (h : (Json.object event.payload).Valid) :
    (Json.object event.asdict).Valid := by
  refine .object _ ?_ (by simp [IoTEvent.asdict])
  intro field hfield
  simp only [IoTEvent.asdict, List.mem_cons, List.not_mem_nil, or_false] at hfield
  rcases hfield with rfl | rfl | rfl | rfl | rfl
  · exact .string _
  · exact .literal _ (toString_int_ne_nil _) fun c => literalChar_toString_int
  · exact .string _
  · exact h
  · exact .string _

theorem ScenarioGenerator.Follows.valid {gen : ScenarioGenerator K σ} {scenario : Scenario}
    (h : gen.Follows scenario) :
    ∀ event ∈ scenario.allEvents.map IoTEvent.asdict, (Json.object event).Valid := by
  intro event hevent
  obtain ⟨reading, hreading, rfl⟩ := List.mem_map.mp hevent
  obtain ⟨slot, -, payload, hvalid, rfl⟩ := exists_of_mem_right h.allEvents hreading
  exact valid_asdict hvalid

theorem sameEvents_map_asdict_iff {events events' : List IoTEvent} :
    SameEvents (events.map IoTEvent.asdict) (events'.map IoTEvent.asdict) ↔
      List.Forall₂ SameReading events events' := by
  unfold SameEvents
  rw [List.forall₂_map_left_iff, List.forall₂_map_right_iff]
  simp only [sameData_asdict_iff]

/-- The texts hashed for the roots of two scenarios. -/
def rootTexts (blake2b : Bytes → Digest) (scenario scenario' : Scenario) : List Bytes :=
  hashedTexts blake2b (scenario.allEvents.map IoTEvent.asdict) ++
    hashedTexts blake2b (scenario'.allEvents.map IoTEvent.asdict)

theorem map_stamp_of_sameReadings {events events' : List IoTEvent}
    (h : List.Forall₂ SameReading events events') :
    events.map IoTEvent.stamp = events'.map IoTEvent.stamp := by
  induction h with
  | nil => rfl
  | cons hhead _ ih =>
    rw [List.map_cons, List.map_cons, ih]
    unfold IoTEvent.stamp
    rw [hhead.deviceId, hhead.timestamp]

section Start
variable {gen : ScenarioGenerator K σ} {gen' : ScenarioGenerator K' σ'}
  {scenario scenario' : Scenario}

theorem ScenarioGenerator.Follows.startTime_le (h : gen.Follows scenario) {stamp : String × ℤ}
    (hstamp : stamp ∈ scenario.allEvents.map IoTEvent.stamp) : scenario.startTime ≤ stamp.2 := by
  rw [map_stamp_of_fills h.allEvents, ScenarioGenerator.plan, List.map_append] at hstamp
  rw [h.startTime]
  rcases List.mem_append.mp hstamp with hstamp | hstamp
  · exact (gen.mem_farmPlan hstamp).2.1
  · have hstart := (gen.mem_transportPlan hstamp).2.1
    unfold ScenarioGenerator.transportStart at hstart
    omega

theorem ScenarioGenerator.Follows.exists_start (h : gen.Follows scenario) :
    ("farm-temp-001", scenario.startTime) ∈ scenario.allEvents.map IoTEvent.stamp := by
  rw [map_stamp_of_fills h.allEvents, ScenarioGenerator.plan, List.map_append,
    gen.map_stamp_farmPlan, h.startTime]
  apply List.mem_append_left
  exact List.mem_flatMap.mpr ⟨0, List.mem_range.mpr (by decide), by simp⟩

/-- The first reading of a scenario tells when it starts. -/
theorem startTime_eq_of_sameReadings (h : gen.Follows scenario) (h' : gen'.Follows scenario')
    (hsame : List.Forall₂ SameReading scenario.allEvents scenario'.allEvents) :
    scenario.startTime = scenario'.startTime := by
  have hstamps := map_stamp_of_sameReadings hsame
  have hstart := h.exists_start
  have hstart' := h'.exists_start
  rw [hstamps] at hstart
  rw [← hstamps] at hstart'
  exact le_antisymm (h.startTime_le hstart') (h'.startTime_le hstart)

theorem root_commits (h : gen.Follows scenario) (h' : gen'.Follows scenario')
    {blake2b : Bytes → Digest}
    (hroot : (scenario.reconciliation blake2b).merkleRoot =
      (scenario'.reconciliation blake2b).merkleRoot)
    (hfree : CollisionFree blake2b (rootTexts blake2b scenario scenario')) :
    List.Forall₂ SameReading scenario.allEvents scenario'.allEvents := by
  have hlen : (scenario.allEvents.map IoTEvent.asdict).length =
      (scenario'.allEvents.map IoTEvent.asdict).length := by
    rw [List.length_map, List.length_map, ← h.allEvents.length_eq, ← h'.allEvents.length_eq,
      gen.length_plan, gen'.length_plan]
  exact sameEvents_map_asdict_iff.mp (sameEvents_of_root_eq h.valid h'.valid hfree hroot hlen)

theorem root_eq_of_sameReadings (h : gen.Follows scenario) (blake2b : Bytes → Digest)
    (hsame : List.Forall₂ SameReading scenario.allEvents scenario'.allEvents) :
    (scenario.reconciliation blake2b).merkleRoot =
      (scenario'.reconciliation blake2b).merkleRoot :=
  root_eq_of_sameEvents h.valid (sameEvents_map_asdict_iff.mpr hsame)

end Start

/-- One root, one scenario: two scenarios, of whatever generators, have one Merkle root exactly
when they have the same readings, and then they start at the same time; or among the texts
hashed for the two roots there is a collision. -/
theorem scenario_root_commits (gen : ScenarioGenerator K σ) (gen' : ScenarioGenerator K' σ')
    (blake2b : Bytes → Digest) (rng : σ) (rng' : σ') :
    let scenario := (gen.generateFullScenario.run rng).1
    let scenario' := (gen'.generateFullScenario.run rng').1
    let texts := rootTexts blake2b scenario scenario'
    (List.Forall₂ SameReading scenario.allEvents scenario'.allEvents →
      (scenario.reconciliation blake2b).merkleRoot =
        (scenario'.reconciliation blake2b).merkleRoot) ∧
    ((scenario.reconciliation blake2b).merkleRoot =
        (scenario'.reconciliation blake2b).merkleRoot →
      List.Forall₂ SameReading scenario.allEvents scenario'.allEvents ∧
        scenario.startTime = scenario'.startTime ∨
      ∃ u ∈ texts, ∃ v ∈ texts, u ≠ v ∧ blake2b u = blake2b v) := by
  have h := gen.fullScenario_follows rng
  have h' := gen'.fullScenario_follows rng'
  intro scenario scenario' texts
  constructor
  · exact root_eq_of_sameReadings h blake2b
  · intro hroot
    by_cases hfree : CollisionFree blake2b texts
    · have hsame := root_commits h h' hroot hfree
      exact .inl ⟨hsame, startTime_eq_of_sameReadings h h' hsame⟩
    · right
      unfold CollisionFree at hfree
      push Not at hfree
      obtain ⟨u, hu, v, hv, hdigest, hne⟩ := hfree
      exact ⟨u, hu, v, hv, hne, hdigest⟩

end Roots

end Traceability.Generator
