import Traceability.Pallet.Governance
import Traceability.Pallet.Provenance

/-! Reconciliation. The events deposited over a run determine its storage: each map holds
what the last entry for a key says, and each counter is the number of entries of its kind. -/
namespace Traceability.Pallet
open Machine Storage Journal

variable {AccountId : Type}

/-- A `DeviceRegistered` entry: the device id, with the key and the producer. -/
def registration : Event → Option (Bytes × Public × Bytes)
  | .deviceRegistered id k producer => some (id, k, producer)
  | _ => none

/-- An `EventProcessed` entry: the hash, with the device, the type and the timestamp. -/
def processing : Event → Option (H256 × Bytes × EventType × UInt64)
  | .eventProcessed id k ty t => some (k, id, ty, t)
  | _ => none

/-- What the log keeps of a record, of an event and of a batch. -/
def DeviceRecord.logged (r : DeviceRecord) : Public × Bytes := (r.publicKey, r.producer)

def IoTEvent.logged (e : IoTEvent) : Bytes × EventType × UInt64 :=
  (e.deviceId, e.eventType, e.timestamp)

def BatchState.logged (s : BatchState) : GovernanceOutcome × Option BatchState :=
  (.approved, some s)

/-- The three maps follow the log, the three counters count it, an id is registered at most
once, and every processed hash is that of an admitted event. -/
structure LogInvariant (cfg : Config) (h : List (Executed AccountId)) (st : Chain) : Prop where
  devices : Follows registration DeviceRecord.logged st.devices st.log
  events : Follows processing IoTEvent.logged st.events st.log
  batches : Follows governanceEntry BatchState.logged st.batches st.log
  deviceCount : Counts registration st.deviceCount st.log
  eventCount : Counts processing st.eventCount st.log
  governanceCheckpoints : Counts governanceEntry st.governanceCheckpoints st.log
  once : ∀ id, (entriesFor registration id st.log).length ≤ 1
  admitted : ∀ k p, p ∈ entriesFor processing k st.log →
    ∃ e ∈ admittedEvents h, cfg.hashOf e = k ∧ p = e.logged
  bounded : st.log.length ≤ h.length

section Steps
variable {cfg : Config} {h : List (Executed AccountId)} {st : Chain} {a : Executed AccountId}
  {ev : Event}

/-- An entry that registers no device leaves the registrations of every id. -/
theorem LogInvariant.once_concat (hi : LogInvariant cfg h st) (hev : registration ev = none)
    (id : Bytes) : (entriesFor registration id (st.log ++ [ev])).length ≤ 1 := by
  rw [entriesFor_concat_of_none hev]
  exact hi.once id

/-- A call that admits no event and deposits no processing leaves every processed hash. -/
theorem LogInvariant.admitted_concat (hi : LogInvariant cfg h st) (ha : admittedEvent a = none)
    (hev : processing ev = none) (k : H256) (p : Bytes × EventType × UInt64)
    (hp : p ∈ entriesFor processing k (st.log ++ [ev])) :
    ∃ e ∈ admittedEvents (h ++ [a]), cfg.hashOf e = k ∧ p = e.logged := by
  rw [entriesFor_concat_of_none hev] at hp
  rw [admittedEvents_concat_of_none ha]
  exact hi.admitted k p hp

/-- A call deposits no more than one entry. -/
theorem LogInvariant.bounded_concat (hi : LogInvariant cfg h st) :
    (st.log ++ [ev]).length ≤ (h ++ [a]).length := by
  have hle := hi.bounded
  simp only [List.length_append, List.length_singleton]
  omega

theorem logInvariant_genesis : LogInvariant cfg ([] : List (Executed AccountId)) genesis where
  devices := follows_empty
  events := follows_empty
  batches := follows_empty
  deviceCount := counts_zero
  eventCount := counts_zero
  governanceCheckpoints := counts_zero
  once _ := Nat.zero_le _
  admitted _ _ hp := absurd hp List.not_mem_nil
  bounded := le_rfl

theorem LogInvariant.refuse (hi : LogInvariant cfg h st) (ha : admittedEvent a = none) :
    LogInvariant cfg (h ++ [a]) st := by
  have hadm := admittedEvents_concat_of_none (h := h) ha
  have hbound : st.log.length ≤ (h ++ [a]).length := hi.bounded.trans (by simp)
  exact { hi with
    admitted := by rw [hadm]; exact hi.admitted
    bounded := hbound }

theorem LogInvariant.register (hi : LogInvariant cfg h st) (ha : admittedEvent a = none)
    (now : UInt64) {c : DeviceCredential} (accepts : AcceptsCredential cfg st c) :
    LogInvariant cfg (h ++ [a]) (st.register now c) := by
  have hfree : entriesFor registration c.deviceId st.log = [] := by
    by_contra hne
    exact accepts.unregistered (hi.devices.mem_iff.mpr hne)
  have hread : registration (.deviceRegistered c.deviceId c.publicKey c.producer) =
      some (c.deviceId, c.publicKey, c.producer) := rfl
  constructor
  · exact hi.devices.insert (v := c.record now) rfl
  · exact hi.events.skip rfl
  · exact hi.batches.skip rfl
  · exact hi.deviceCount.succ rfl
  · exact hi.eventCount.skip rfl
  · exact hi.governanceCheckpoints.skip rfl
  · intro id
    rw [Chain.register_log, entriesFor_concat_of_some hread]
    split_ifs with hid
    · simp [hid, hfree]
    · exact hi.once id
  · exact hi.admitted_concat ha rfl
  · exact hi.bounded_concat

theorem LogInvariant.store (hi : LogInvariant cfg h st) {e : IoTEvent}
    (ha : admittedEvent a = some e) : LogInvariant cfg (h ++ [a]) (st.store cfg e) := by
  have hread : processing (.eventProcessed e.deviceId (cfg.hashOf e) e.eventType e.timestamp) =
      some (cfg.hashOf e, e.logged) := rfl
  constructor
  · exact hi.devices.skip rfl
  · exact hi.events.insert rfl
  · exact hi.batches.skip rfl
  · exact hi.deviceCount.skip rfl
  · exact hi.eventCount.succ rfl
  · exact hi.governanceCheckpoints.skip rfl
  · exact hi.once_concat rfl
  · intro k p hp
    rw [admittedEvents_concat_of_some ha]
    have hearlier : p ∈ entriesFor processing k st.log →
        ∃ e' ∈ admittedEvents h ++ [e], cfg.hashOf e' = k ∧ p = e'.logged := by
      intro hmem
      obtain ⟨e', he', hk, rfl⟩ := hi.admitted k p hmem
      exact ⟨e', by simp [he'], hk, rfl⟩
    rw [Chain.store_log, entriesFor_concat_of_some hread] at hp
    split_ifs at hp with hk
    · rcases List.mem_append.mp hp with hp | hp
      · exact hearlier hp
      · exact ⟨e, by simp, hk.symm, List.mem_singleton.mp hp⟩
    · exact hearlier hp
  · exact hi.bounded_concat

theorem LogInvariant.advance (hi : LogInvariant cfg h st) (ha : admittedEvent a = none)
    (b : Bytes) (next : BatchState) : LogInvariant cfg (h ++ [a]) (st.advance b next) where
  devices := hi.devices.skip rfl
  events := hi.events.skip rfl
  batches := hi.batches.insert rfl
  deviceCount := hi.deviceCount.skip rfl
  eventCount := hi.eventCount.skip rfl
  governanceCheckpoints := hi.governanceCheckpoints.succ rfl
  once := hi.once_concat rfl
  admitted := hi.admitted_concat ha rfl
  bounded := hi.bounded_concat

end Steps

theorem logInvariant (cfg : Config) (xs : List (Extrinsic AccountId)) :
    LogInvariant cfg (historyOf cfg xs) (chainAfter cfg xs) := by
  refine chain_induction logInvariant_genesis ?_ ?_ ?_ ?_ xs
  · intro h st x err _ hi
    exact hi.refuse (admittedEvent_error _ _ _ _)
  · intro h st ctx who c _ accepts hi
    exact hi.register (admittedEvent_onboardDevice _ _ _ _ _) ctx.now accepts
  · intro h st ctx who e r _ _ hi
    exact hi.store (admittedEvent_processEvent _ _ _ _ _)
  · intro h st ctx who b ty role next _ _ hi
    exact hi.advance (admittedEvent_evaluateGovernance _ _ _ _ _ _ _) b next

/-- A registered id has one entry, which shows its record's key and producer. -/
theorem LogInvariant.registration_eq {cfg : Config} {h : List (Executed AccountId)} {st : Chain}
    (hi : LogInvariant cfg h st) {id : Bytes} {r : DeviceRecord}
    (hr : st.devices.lookup id = some r) :
    entriesFor registration id st.log = [(r.publicKey, r.producer)] := by
  have hlast := hi.devices.getLast? hr
  have honce := hi.once id
  match hl : entriesFor registration id st.log with
  | [] => simp [hl] at hlast
  | [p] =>
    rw [hl, List.getLast?_singleton, Option.some_inj] at hlast
    rw [hlast]
    rfl
  | _ :: _ :: _ => simp [hl] at honce

/-- The deposited events determine the storage. -/
theorem log_determines_storage (cfg : Config) (xs : List (Extrinsic AccountId))
    (hlen : xs.length < 2 ^ 64) (hfree : CollisionFree cfg (historyOf cfg xs)) :
    let st := chainAfter cfg xs
    (∀ id, id ∈ st.devices ↔ entriesFor registration id st.log ≠ []) ∧
      (∀ id r, st.devices.lookup id = some r →
        entriesFor registration id st.log = [(r.publicKey, r.producer)]) ∧
      (∀ k, k ∈ st.events ↔ entriesFor processing k st.log ≠ []) ∧
      (∀ k e, st.events.lookup k = some e → ∀ p ∈ entriesFor processing k st.log,
        p = (e.deviceId, e.eventType, e.timestamp)) ∧
      (∀ b, (st.batches.lookup b).map some = (governanceEntries b st.log).getLast?.map Prod.snd) ∧
      st.deviceCount.toNat = entryCount registration st.log ∧
      st.eventCount.toNat = entryCount processing st.log ∧
      st.governanceCheckpoints.toNat = entryCount governanceEntry st.log := by
  intro st
  have hi : LogInvariant cfg (historyOf cfg xs) st := logInvariant cfg xs
  have hlog : st.log.length < 2 ^ 64 := by
    have hle := hi.bounded
    rw [length_history] at hle
    exact hle.trans_lt hlen
  refine ⟨fun _ => hi.devices.mem_iff, fun _ _ => hi.registration_eq, fun _ => hi.events.mem_iff,
    ?_, ?_, hi.deviceCount.toNat_eq hlog, hi.eventCount.toNat_eq hlog,
    hi.governanceCheckpoints.toNat_eq hlog⟩
  · intro k e he p hp
    obtain ⟨e', hadm', hk', rfl⟩ := hi.admitted k p hp
    obtain ⟨hk, hadm⟩ := (indexInvariant cfg xs).sound k e he
    rw [hfree e' hadm' e hadm (hk'.trans hk)]
    rfl
  · intro b
    unfold governanceEntries
    rw [← hi.batches b, Option.map_map]
    rfl

/-- A device, a reading and the first leg of a batch. -/
def harvestRun : List (Extrinsic UInt64) :=
  [Mock.call (.onboardDevice Mock.credential), Mock.call (.processEvent Mock.reading),
    Mock.call (.evaluateGovernance (ascii "batch-1") .custodyTransfer (ascii "Producer"))]

theorem log_determines_storage_harvestRun :
    entriesFor registration Mock.credential.deviceId (chainAfter Mock.config harvestRun).log =
        [(Mock.deviceKey, ascii "producer")] ∧
      (governanceEntries (ascii "batch-1") (chainAfter Mock.config harvestRun).log).getLast?.map
        Prod.snd = some (some .packaged) := by
  have hadm : admittedEvents (historyOf Mock.config harvestRun) = [Mock.reading] := by
    decide +kernel
  have hfree : CollisionFree Mock.config (historyOf Mock.config harvestRun) := by
    intro e he e' he' _
    rw [hadm, List.mem_singleton] at he he'
    rw [he, he']
  obtain ⟨-, hdevices, -, -, hbatches, -⟩ :=
    log_determines_storage Mock.config harvestRun (by decide) hfree
  refine ⟨hdevices _ (Mock.credential.record Mock.now) (by decide +kernel), ?_⟩
  rw [← hbatches]
  decide +kernel

end Traceability.Pallet
