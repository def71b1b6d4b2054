import Traceability.Pallet.Registry

/-! The admission law. What `processEvent` looks up in storage is a function of the history,
so a call is accepted by the schema, the clock and the earlier onboardings alone. -/
namespace Traceability.Pallet
open Machine

variable {AccountId : Type}

/-- The conditions on an event, a clock reading and the calls before it. -/
structure Admissible (cfg : Config) (h : List (Executed AccountId)) (now : UInt64)
    (e : IoTEvent) : Prop where
  schema : validateEventSchema e = true
  notEarly : e.timestamp.toNat ≤ now.toNat
  notLate : now.toNat ≤ e.timestamp.toNat + cfg.timestampFreshnessWindow.toNat
  onboarded : ∃ c t, firstAccepted e.deviceId h = some (c, t) ∧
    cfg.ed25519Verify e.signature (encodeEventMessage e) c.publicKey = true

/-- The checks against storage are the conditions on the history. -/
theorem exists_admitsEvent_iff {cfg : Config} {xs : List (Extrinsic AccountId)} {now : UInt64}
    {e : IoTEvent} :
    (∃ r, AdmitsEvent cfg now (chainAfter cfg xs) e r) ↔
      Admissible cfg (historyOf cfg xs) now e := by
  constructor
  · rintro ⟨r, hadmits⟩
    obtain ⟨c, t, hfirst, rfl, -⟩ := record_provenance hadmits.registered
    obtain ⟨hearly, hlate⟩ := fresh_iff.mp hadmits.fresh
    exact ⟨hadmits.schema, hearly, hlate, c, t, hfirst, hadmits.verified⟩
  · rintro ⟨hschema, hearly, hlate, c, t, hfirst, hverified⟩
    have hlookup : (chainAfter cfg xs).devices.lookup e.deviceId = some (c.record t) := by
      rw [(registryInvariant cfg xs).lookup_eq, hfirst, Option.map_some]
    exact ⟨c.record t, hschema, fresh_iff.mpr ⟨hearly, hlate⟩, hlookup, rfl, hverified⟩

/-- A call for an event that has left the window is refused in every state. -/
theorem dispatch_late {cfg : Config} {st : Chain} {x : Extrinsic AccountId} {e : IoTEvent}
    (hx : x.call = .processEvent e)
    (hlate : e.timestamp.toNat + cfg.timestampFreshnessWindow.toNat < x.ctx.now.toNat) :
    ∃ err, dispatch cfg x st = (.error err, st) := by
  apply dispatch_of_not_enabled
  intro henabled
  obtain ⟨r, hadmits⟩ := (enabled_processEvent hx).mp henabled
  have hwindow := (fresh_iff.mp hadmits.fresh).2
  omega

/-- The clock never goes back along the run. -/
def ClockMonotone (xs : List (Extrinsic AccountId)) : Prop :=
  xs.Pairwise fun x y => x.ctx.now ≤ y.ctx.now

theorem ClockMonotone.entries {xs : List (Extrinsic AccountId)} (h : ClockMonotone xs)
    (cfg : Config) :
    (historyOf cfg xs).Pairwise fun a b => a.input.ctx.now ≤ b.input.ctx.now := by
  rwa [ClockMonotone, ← map_input_history (dispatch cfg) genesis xs, List.pairwise_map] at h

/-- The exact admission law, and that lateness is final: a call is accepted exactly under
the conditions on its history, and an event seen too late is refused ever after. -/
theorem admission_law (cfg : Config) (xs : List (Extrinsic AccountId)) (e : IoTEvent) :
    (∀ ctx (who : AccountId),
      (dispatch cfg ⟨ctx, .signed who, .processEvent e⟩ (chainAfter cfg xs)).1 = .ok () ↔
        Admissible cfg (historyOf cfg xs) ctx.now e) ∧
    (ClockMonotone xs → ∀ h₁ a h₂ b h₃, historyOf cfg xs = h₁ ++ a :: (h₂ ++ b :: h₃) →
      a.input.call = .processEvent e →
      e.timestamp.toNat + cfg.timestampFreshnessWindow.toNat < a.input.ctx.now.toNat →
      b.input.call = .processEvent e →
        ∃ err, b.output = .error err ∧ b.after = b.before) := by
  constructor
  · intro ctx who
    rw [dispatch_ok_iff, enabled_processEvent rfl, exists_admitsEvent_iff]
    exact and_iff_right ⟨who, rfl⟩
  · intro hclock h₁ a h₂ b h₃ hsplit _ hlate hb
    have hb' : b ∈ historyOf cfg xs := by simp [hsplit]
    have hle : a.input.ctx.now ≤ b.input.ctx.now := by
      have hentries := hclock.entries cfg
      rw [hsplit] at hentries
      exact List.rel_of_pairwise_cons (List.pairwise_append.mp hentries).2.1 (by simp)
    rw [UInt64.le_iff_toNat_le] at hle
    obtain ⟨err, herr⟩ : ∃ err, dispatch cfg b.input b.before = (.error err, b.before) :=
      dispatch_late hb (hlate.trans_le hle)
    rw [step_of_mem_history _ hb'] at herr
    exact ⟨err, congrArg Prod.fst herr, congrArg Prod.snd herr⟩

/-- The mock device is onboarded in time, and its reading arrives twice, a second too late. -/
def lateRun : List (Extrinsic UInt64) :=
  let late : Extrinsic UInt64 :=
    ⟨⟨2, by decide, 3000001⟩, .signed Mock.caller, .processEvent Mock.reading⟩
  [Mock.call (.onboardDevice Mock.credential), late, late]

theorem admission_law_lateRun :
    (dispatch Mock.config (Mock.call (.processEvent Mock.reading))
      (chainAfter Mock.config lateRun)).1 = .ok () ∧
    ∃ b ∈ historyOf Mock.config lateRun, ∃ err, b.output = .error err := by
  obtain ⟨hlaw, hlate⟩ := admission_law Mock.config lateRun Mock.reading
  have hfirst : firstAccepted Mock.reading.deviceId (historyOf Mock.config lateRun) =
      some (Mock.credential, Mock.now) := by decide +kernel
  refine ⟨(hlaw _ _).mpr ⟨by decide, by decide, by decide, _, _, hfirst, by decide +kernel⟩, ?_⟩
  obtain ⟨err, herr, -⟩ := hlate (by unfold ClockMonotone; decide) [_] _ [] _ [] rfl rfl
    (by decide) rfl
  exact ⟨_, List.mem_of_getElem? (i := 2) rfl, err, herr⟩

end Traceability.Pallet
