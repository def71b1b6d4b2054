import Traceability.Pallet.Provenance

/-! Replay of readings. `processEvent` never looks its event up in the index, so a reading
that is still fresh can be admitted again. A run admits every reading at most once exactly
when none of its calls resubmits a stored reading that is fresh and validly signed. -/
namespace Traceability.Pallet
open Machine Storage

variable {AccountId : Type}

/-- How many calls of a history admitted the reading `ρ`. -/
def admissions (ρ : Reading) (h : List (Executed AccountId)) : ℕ :=
  (admittedEvents h).countP fun e => e.reading = ρ

@[simp] theorem admissions_append (ρ : Reading) (h h' : List (Executed AccountId)) :
    admissions ρ (h ++ h') = admissions ρ h + admissions ρ h' := by
  simp [admissions]

theorem admissions_pos {h : List (Executed AccountId)} {e : IoTEvent}
    (he : e ∈ admittedEvents h) : 0 < admissions e.reading h :=
  List.countP_pos_iff.mpr ⟨e, he, by simp⟩

/-- Each reading is admitted at most once, and the counter is the size of the index in every
state the run passes through. -/
def ReplayPrevented (cfg : Config) (xs : List (Extrinsic AccountId)) : Prop :=
  (∀ ρ, admissions ρ (historyOf cfg xs) ≤ 1) ∧
    ∀ pre, pre <+: xs →
      (chainAfter cfg pre).eventCount.toNat = (chainAfter cfg pre).events.keys.card

/-- A signed `processEvent` call for a reading that the index already holds, while the
reading is fresh and its signature verifies under the key registered for its device. -/
structure Resubmits (cfg : Config) (a : Executed AccountId) (e : IoTEvent) : Prop where
  origin : ∃ who, a.input.origin = .signed who
  call : a.input.call = .processEvent e
  fresh : Fresh cfg a.input.ctx.now e
  stored : ∃ k e', a.before.events.lookup k = some e' ∧ e'.reading = e.reading
  verified : ∃ r, a.before.devices.lookup e.deviceId = some r ∧
    cfg.ed25519Verify e.signature (encodeEventMessage e) r.publicKey = true

/-- A resubmission is admitted. -/
theorem Resubmits.admitted {cfg : Config} {xs : List (Extrinsic AccountId)}
    {a : Executed AccountId} {e : IoTEvent} (ha : a ∈ historyOf cfg xs)
    (h : Resubmits cfg a e) : admittedEvent a = some e := by
  obtain ⟨pre, -, -, hex⟩ := mem_history _ ha
  have hbefore : a.before = chainAfter cfg pre := by rw [hex]; rfl
  obtain ⟨k, e', hk, hread⟩ := h.stored
  obtain ⟨r, hr, hv⟩ := h.verified
  have hschema : validateEventSchema e = true :=
    validateEventSchema_congr hread ▸ stored_schema (hbefore ▸ hk)
  have hactive : r.status = .active := (wellFormedRecord (hbefore ▸ hr)).active
  exact (admittedEvent_iff ha).mpr ⟨h.call, h.origin, r, hschema, h.fresh, hr, hactive, hv⟩

theorem two_le_admissions {cfg : Config} {xs : List (Extrinsic AccountId)}
    {a : Executed AccountId} {e : IoTEvent} (ha : a ∈ historyOf cfg xs)
    (h : Resubmits cfg a e) : 2 ≤ admissions e.reading (historyOf cfg xs) := by
  obtain ⟨h₁, h₂, hsplit⟩ := List.append_of_mem ha
  obtain ⟨pre, -, hh₁, hbefore, -, -⟩ := admission_record hsplit (h.admitted ha)
  obtain ⟨k, e', hk, hread⟩ := h.stored
  rw [hbefore] at hk
  have hearlier : 0 < admissions e.reading h₁ := by
    rw [hh₁, ← hread]
    exact admissions_pos ((indexInvariant cfg pre).sound k e' hk).2
  have hnow : 0 < admissions e.reading [a] :=
    admissions_pos (by simp [admittedEvents, h.admitted ha])
  rw [hsplit, show h₁ ++ a :: h₂ = h₁ ++ ([a] ++ h₂) by simp, admissions_append,
    admissions_append]
  omega

/-- Without resubmissions every admission adds a new entry to the index. -/
def AdmitsOnce (cfg : Config) (h : List (Executed AccountId)) (st : Chain) : Prop :=
  CollisionFree cfg h → (∀ a ∈ h, ∀ e, ¬ Resubmits cfg a e) →
    (∀ ρ, admissions ρ h ≤ 1) ∧ st.events.keys.card = (admittedEvents h).length

theorem AdmitsOnce.append_of_none {cfg : Config} {h : List (Executed AccountId)} {st st' : Chain}
    {a : Executed AccountId} (hi : AdmitsOnce cfg h st) (ha : admittedEvent a = none)
    (he : st'.events = st.events) : AdmitsOnce cfg (h ++ [a]) st' := by
  intro hfree hno
  unfold admissions
  rw [admittedEvents_concat_of_none ha, he]
  exact hi hfree.of_append fun a ha => hno a (List.mem_append_left _ ha)

theorem admitsOnce (cfg : Config) (xs : List (Extrinsic AccountId)) :
    AdmitsOnce cfg (historyOf cfg xs) (chainAfter cfg xs) := by
  refine chain_induction (fun _ _ => ⟨fun ρ => Nat.zero_le _, rfl⟩) ?_ ?_ ?_ ?_ xs
  · intro h st x err _ hi
    exact hi.append_of_none (admittedEvent_error _ _ _ _) rfl
  · intro h st ctx who c _ _ hi
    exact hi.append_of_none (admittedEvent_onboardDevice _ _ _ _ _) rfl
  · intro h st ctx who e r hreached admits hi hfree hno
    obtain ⟨hle, hcard⟩ := hi hfree.of_append fun a ha => hno a (List.mem_append_left _ ha)
    obtain ⟨pre, rfl, rfl⟩ := hreached
    have hindex := indexInvariant cfg pre
    have hadm := admittedEvents_concat_of_some (h := historyOf cfg pre)
      (admittedEvent_processEvent (chainAfter cfg pre) ((chainAfter cfg pre).store cfg e) ctx
        (.signed who) e)
    have hnew : ∀ k e', (chainAfter cfg pre).events.lookup k = some e' →
        e'.reading ≠ e.reading := by
      intro k e' hk hread
      exact hno _ (List.mem_append_right _ (List.mem_singleton_self _)) e
        ⟨⟨who, rfl⟩, rfl, admits.fresh, ⟨k, e', hk, hread⟩, ⟨r, admits.registered, admits.verified⟩⟩
    have hzero : admissions e.reading (historyOf cfg pre) = 0 := by
      apply List.countP_eq_zero.mpr
      intro e' he'
      simpa using hnew _ e' (hindex.complete hfree.of_append e' he')
    have hfresh : cfg.hashOf e ∉ (chainAfter cfg pre).events := by
      intro hmem
      obtain ⟨e', he'⟩ := Finmap.mem_iff.mp hmem
      obtain ⟨hkey, he'adm⟩ := hindex.sound _ e' he'
      have heq := hfree e' (by simp [he'adm]) e (by simp [hadm]) hkey.symm
      exact hnew _ e' he' (congrArg IoTEvent.reading heq)
    constructor
    · intro ρ
      unfold admissions at hzero hle ⊢
      rw [hadm, List.countP_append]
      by_cases hρ : e.reading = ρ
      · subst hρ
        simp [hzero]
      · simpa [hρ] using hle ρ
    · rw [Chain.store_events, card_keys_insert_of_notMem hfresh, hcard, hadm, List.length_append,
        List.length_singleton]
  · intro h st ctx who b ty role next _ _ hi
    exact hi.append_of_none (admittedEvent_evaluateGovernance _ _ _ _ _ _ _) rfl

theorem length_admittedEvents_le (h : List (Executed AccountId)) :
    (admittedEvents h).length ≤ h.length := List.length_filterMap_le _ _

/-- Replay is prevented exactly in the runs that never resubmit a stored reading. -/
theorem replayPrevented_iff (cfg : Config) (xs : List (Extrinsic AccountId))
    (hlen : xs.length < 2 ^ 64) (hfree : CollisionFree cfg (historyOf cfg xs)) :
    ReplayPrevented cfg xs ↔ ∀ a ∈ historyOf cfg xs, ∀ e, ¬ Resubmits cfg a e := by
  constructor
  · rintro ⟨honce, -⟩ a ha e h
    have htwo := two_le_admissions ha h
    have hone := honce e.reading
    omega
  · intro hno
    refine ⟨(admitsOnce cfg xs hfree hno).1, ?_⟩
    rintro pre ⟨post, rfl⟩
    rw [historyOf_append] at hfree hno
    have hpre := admitsOnce cfg pre hfree.of_append
      fun a ha => hno a (by simp [ha])
    have hbound : (admittedEvents (historyOf cfg pre)).length < 2 ^ 64 := by
      have hle := length_admittedEvents_le (historyOf cfg pre)
      rw [length_history] at hle
      rw [List.length_append] at hlen
      omega
    rw [hpre.2]
    exact counter_toNat (indexInvariant cfg pre).counted hbound

/-- The mock device's reading, submitted twice. -/
def replayRun : List (Extrinsic UInt64) :=
  [Mock.call (.onboardDevice Mock.credential), Mock.call (.processEvent Mock.reading),
    Mock.call (.processEvent Mock.reading)]

theorem admittedEvents_replayRun :
    admittedEvents (historyOf Mock.config replayRun) = [Mock.reading, Mock.reading] := by
  decide +kernel

theorem replayRun_collisionFree : CollisionFree Mock.config (historyOf Mock.config replayRun) := by
  intro e he e' he' _
  simp only [admittedEvents_replayRun, List.mem_cons, List.not_mem_nil, or_false, or_self] at he he'
  rw [he, he']

theorem admissions_replayRun :
    admissions Mock.reading.reading (historyOf Mock.config replayRun) = 2 := by
  unfold admissions
  rw [admittedEvents_replayRun]
  decide

/-- Both submissions are admitted: the counter shows two events, the index holds one. -/
theorem replayRun_not_prevented : replayRun.length < 2 ^ 64 ∧
    CollisionFree Mock.config (historyOf Mock.config replayRun) ∧
    (chainAfter Mock.config replayRun).eventCount = 2 ∧
    (chainAfter Mock.config replayRun).events.keys.card = 1 ∧
    ¬ ReplayPrevented Mock.config replayRun := by
  refine ⟨by decide, replayRun_collisionFree, by decide +kernel, by decide +kernel, ?_⟩
  rintro ⟨honce, -⟩
  have hone := honce Mock.reading.reading
  rw [admissions_replayRun] at hone
  omega

theorem replayPrevented_iff_replayRun :
    ∃ a ∈ historyOf Mock.config replayRun, ∃ e, Resubmits Mock.config a e := by
  by_contra hno
  push Not at hno
  have hone := ((replayPrevented_iff Mock.config replayRun (by decide)
    replayRun_collisionFree).mpr hno).1 Mock.reading.reading
  rw [admissions_replayRun] at hone
  omega

end Traceability.Pallet
