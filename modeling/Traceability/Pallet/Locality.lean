import Traceability.Pallet.Block
import Traceability.Pallet.Reconciliation

/-! Locality. Every call is about one device or one batch, and it reads and writes the part of
the chain that is about the same subject. So the pallet is a collection of machines that run
side by side, one for each subject, and none of them can tell what the others were asked. -/
namespace Traceability.Pallet
open Machine Storage

variable {AccountId : Type}

/-- What a call or an event of the log is about. -/
inductive Subject where
  | device (deviceId : Bytes)
  | batch (batchId : Bytes)
  deriving DecidableEq

def Call.subject : Call → Subject
  | .onboardDevice credential => .device credential.deviceId
  | .processEvent event => .device event.deviceId
  | .evaluateGovernance batchId _ _ => .batch batchId

def Event.subject : Event → Subject
  | .deviceRegistered deviceId _ _ => .device deviceId
  | .eventProcessed deviceId _ _ _ => .device deviceId
  | .governanceEvaluated batchId _ _ => .batch batchId
  | .signatureVerificationFailed deviceId => .device deviceId
  | .timestampStale deviceId _ _ => .device deviceId

/-- The part of a chain that is about some subjects. -/
@[ext]
structure Part where
  devices : Bytes → Option DeviceRecord
  batches : Bytes → Option BatchState
  log : List Event

def Chain.part (S : Subject → Bool) (st : Chain) : Part where
  devices id := if S (.device id) then st.devices.lookup id else none
  batches b := if S (.batch b) then st.batches.lookup b else none
  log := st.log.filter fun ev => S ev.subject

/-- What an update does to a part. -/
def Update.applyPart (cfg : Config) (S : Subject → Bool) : Update → Part → Part
  | .idle, p => p
  | .device now c, p =>
    if S (.device c.deviceId) then
      { p with
        devices := Function.update p.devices c.deviceId (some (c.record now))
        log := p.log ++ [.deviceRegistered c.deviceId c.publicKey c.producer] }
    else p
  | .event e, p =>
    if S (.device e.deviceId) then
      { p with log := p.log ++ [.eventProcessed e.deviceId (cfg.hashOf e) e.eventType e.timestamp] }
    else p
  | .batch b next, p =>
    if S (.batch b) then
      { p with
        batches := Function.update p.batches b (some next)
        log := p.log ++ [.governanceEvaluated b .approved (some next)] }
    else p

section Updates
variable (cfg : Config) {S : Subject → Bool} {st st' : Chain}

/-- An insertion shows in a restricted map exactly when its key does. -/
theorem restrict_insert {V : Type} (keep : Bytes → Bool) (m : StorageMap Bytes V) (a : Bytes)
    (v : V) :
    (fun k => if keep k then (m.insert a v).lookup k else none) =
      if keep a then Function.update (fun k => if keep k then m.lookup k else none) a (some v)
      else fun k => if keep k then m.lookup k else none := by
  funext k
  rw [lookup_insert_eq]
  by_cases ha : keep a
  · rw [if_pos ha, Function.update_apply]
    by_cases hk : k = a
    · simp [hk, ha]
    · simp [hk]
  · rw [if_neg ha]
    by_cases hk : k = a
    · simp [hk, ha]
    · simp [hk]

/-- An update of the chain is an update of each of its parts. -/
theorem part_apply (u : Update) : (u.apply cfg st).part S = u.applyPart cfg S (st.part S) := by
  cases u with
  | idle => rfl
  | device now c =>
    have hdevices := restrict_insert (fun id => S (.device id)) st.devices c.deviceId (c.record now)
    by_cases hc : S (.device c.deviceId)
    · simp [Update.apply, Update.applyPart, Chain.part, Event.subject, hdevices, hc]
    · simp [Update.apply, Update.applyPart, Chain.part, Event.subject, hdevices, hc]
  | event e =>
    by_cases he : S (.device e.deviceId)
    · simp [Update.apply, Update.applyPart, Chain.part, Event.subject, he]
    · simp [Update.apply, Update.applyPart, Chain.part, Event.subject, he]
  | batch b next =>
    have hbatches := restrict_insert (fun b => S (.batch b)) st.batches b next
    by_cases hb : S (.batch b)
    · simp [Update.apply, Update.applyPart, Chain.part, Event.subject, hbatches, hb]
    · simp [Update.apply, Update.applyPart, Chain.part, Event.subject, hbatches, hb]

/-- A call about another subject leaves a part alone. -/
theorem applyPart_of_outside {u : Update} {call : Call} (hu : u.MadeBy call)
    (h : S call.subject = false) (p : Part) : u.applyPart cfg S p = p := by
  have hS : ¬ S call.subject = true := by simp [h]
  cases u with
  | idle => rfl
  | device now c =>
    obtain rfl := hu
    exact if_neg hS
  | event e =>
    obtain rfl := hu
    exact if_neg hS
  | batch b next =>
    obtain ⟨ty, role, rfl⟩ := hu
    exact if_neg hS

omit cfg in
/-- What a call about a subject reads is in that subject's part. -/
theorem sameReads_of_part {call : Call} (hS : S call.subject = true)
    (h : st.part S = st'.part S) : SameReads call st st' := by
  obtain ⟨hdevices, hbatches, -⟩ := Part.ext_iff.mp h
  have hread {V : Type} (l l' : Option V) (heq : (if S call.subject then l else none) =
      if S call.subject then l' else none) : l = l' := by
    rwa [if_pos hS, if_pos hS] at heq
  cases call with
  | onboardDevice c => exact hread _ _ (congrFun hdevices c.deviceId)
  | processEvent e => exact hread _ _ (congrFun hdevices e.deviceId)
  | evaluateGovernance b ty role => exact hread _ _ (congrFun hbatches b)

end Updates

section Calls
variable (cfg : Config) {S : Subject → Bool} {x : Extrinsic AccountId} {st st' : Chain}

theorem part_dispatch_of_outside (h : S x.call.subject = false) :
    (dispatch cfg x st).2.part S = st.part S := by
  obtain ⟨out, u, hu, hd, -⟩ := dispatch_of_sameReads cfg x (.refl x.call st)
  rw [hd, part_apply, applyPart_of_outside cfg hu h]

theorem dispatch_of_part (hS : S x.call.subject = true) (h : st.part S = st'.part S) :
    (dispatch cfg x st).1 = (dispatch cfg x st').1 ∧
      (dispatch cfg x st).2.part S = (dispatch cfg x st').2.part S := by
  obtain ⟨out, u, -, hd, hd'⟩ := dispatch_of_sameReads cfg x (sameReads_of_part hS h)
  rw [hd, hd']
  exact ⟨rfl, by rw [part_apply, part_apply, h]⟩

end Calls

/-- The event that an answered call admitted. -/
def admittedBy (p : Extrinsic AccountId × DispatchResult) : Option IoTEvent :=
  match p.1.call, p.2 with
  | .processEvent e, .ok () => some e
  | _, _ => none

theorem admittedEvents_eq_exchange (h : List (Executed AccountId)) :
    admittedEvents h = (h.map Entry.exchange).filterMap admittedBy := by
  rw [List.filterMap_map]
  rfl

/-- Admissions are about the device of the admitted event. -/
theorem admittedEvents_filter_subject (S : Subject → Bool) (h : List (Executed AccountId)) :
    admittedEvents (h.filter fun a => S a.input.call.subject) =
      (admittedEvents h).filter fun e => S (.device e.deviceId) := by
  unfold admittedEvents
  rw [List.filterMap_filter, List.filter_filterMap]
  congr 1
  funext a
  cases ha : admittedEvent a with
  | none => simp
  | some e =>
    obtain ⟨hcall, -⟩ := admittedEvent_eq_some.mp ha
    simp [hcall, Call.subject, Option.filter]

theorem events_lookup_iff {cfg : Config} {xs : List (Extrinsic AccountId)}
    (hfree : CollisionFree cfg (historyOf cfg xs)) {k : H256} {e : IoTEvent} :
    (chainAfter cfg xs).events.lookup k = some e ↔
      k = cfg.hashOf e ∧ e ∈ admittedEvents (historyOf cfg xs) := by
  have hindex := indexInvariant cfg xs
  constructor
  · exact hindex.sound k e
  · rintro ⟨rfl, he⟩
    exact hindex.complete hfree e he

/-- Subjects are independent. When the calls about all subjects outside a set are deleted from
a run, each remaining call gets the answer it had, and the records, batches, events and log
entries about the set are the ones they were. -/
theorem subjects_independent (cfg : Config) (S : Subject → Bool)
    (xs : List (Extrinsic AccountId)) :
    let ys := xs.filter fun x => S x.call.subject
    (chainAfter cfg xs).part S = (chainAfter cfg ys).part S ∧
      ((historyOf cfg xs).filter fun a => S a.input.call.subject).map Entry.exchange =
        (historyOf cfg ys).map Entry.exchange ∧
      (CollisionFree cfg (historyOf cfg xs) → ∀ k e, S (.device e.deviceId) = true →
        ((chainAfter cfg xs).events.lookup k = some e ↔
          (chainAfter cfg ys).events.lookup k = some e)) := by
  intro ys
  have hexchange : ((historyOf cfg xs).filter fun a => S a.input.call.subject).map
      Entry.exchange = (historyOf cfg ys).map Entry.exchange :=
    exchange_filter_view (dispatch cfg) (Chain.part S) (fun x => S x.call.subject)
      (fun st x h => part_dispatch_of_outside cfg h)
      (fun st st' x hS h => dispatch_of_part cfg hS h) xs rfl
  refine ⟨?_, hexchange, ?_⟩
  · exact run_filter_view (dispatch cfg) (Chain.part S) (fun x => S x.call.subject)
      (fun st x h => part_dispatch_of_outside cfg h)
      (fun st st' x hS h => (dispatch_of_part cfg hS h).2) xs rfl
  · intro hfree k e hS
    have hadmitted : admittedEvents (historyOf cfg ys) =
        (admittedEvents (historyOf cfg xs)).filter fun e => S (.device e.deviceId) := by
      rw [← admittedEvents_filter_subject, admittedEvents_eq_exchange, ← hexchange,
        ← admittedEvents_eq_exchange]
    have hfree' : CollisionFree cfg (historyOf cfg ys) := by
      unfold CollisionFree
      rw [hadmitted]
      intro e he e' he'
      exact hfree e (List.mem_of_mem_filter he) e' (List.mem_of_mem_filter he')
    rw [events_lookup_iff hfree, events_lookup_iff hfree', hadmitted, List.mem_filter]
    simp [hS]

/-- Without the evaluation between them, the mock device's two calls do what they did. -/
theorem subjects_independent_harvestRun :
    let ys := harvestRun.filter fun x => x.call.subject = .device Mock.reading.deviceId
    (chainAfter Mock.config ys).events.lookup (Mock.config.hashOf Mock.reading) =
      some Mock.reading := by
  intro ys
  have hadmitted : admittedEvents (historyOf Mock.config harvestRun) = [Mock.reading] := by
    decide +kernel
  have hfree : CollisionFree Mock.config (historyOf Mock.config harvestRun) := by
    intro e he e' he' _
    rw [hadmitted, List.mem_singleton] at he he'
    rw [he, he']
  obtain ⟨-, -, hevents⟩ := subjects_independent Mock.config
    (fun s => s = .device Mock.reading.deviceId) harvestRun
  apply (hevents hfree _ Mock.reading (by simp)).mp
  exact (events_lookup_iff hfree).mpr ⟨rfl, by rw [hadmitted]; exact List.mem_singleton_self _⟩

end Traceability.Pallet
