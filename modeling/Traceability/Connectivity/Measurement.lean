import Traceability.Connectivity.Draws
import Traceability.Pallet.Mock
import Mathlib.Algebra.Order.Floor.Semiring

/-! The connectivity measurement. Signed readings are emitted at a fixed interval, delivered
late when the link is down, and submitted to the pallet; what is reported is the fraction that
the pallet admits. -/
namespace Traceability.Connectivity
open Machine Pallet Finset

/-- An Ed25519 key pair. -/
structure Pair where
  publicKey : Public
  sign : Bytes → Signature

def onboardCredential (pair : Pair) (deviceId : Bytes) : DeviceCredential :=
  let cred : DeviceCredential :=
    ⟨deviceId, pair.publicKey, ascii "producer", [], Vector.replicate 64 0⟩
  { cred with signature := pair.sign (encodeCredentialMessage cred) }

/-- `onboard`, which expects the call to succeed. -/
def onboard (cfg : Config) (pair : Pair) (deviceId : Bytes) (st : Chain) : Option Chain :=
  match dispatch cfg (Mock.call (.onboardDevice (onboardCredential pair deviceId))) st with
  | (.ok _, st) => some st
  | (.error _, _) => none

/-- The event for reading `i`, whose index is cast to `u32`. -/
def signedReading (pair : Pair) (deviceId : Bytes) (tag : UInt8) (i : ℕ) (ts : UInt64) :
    IoTEvent :=
  let payload := tag :: Bytes.littleEndian 4 i
  let event : IoTEvent := ⟨deviceId, ts, .temperature, payload, Vector.replicate 64 0⟩
  { event with signature := pair.sign (encodeEventMessage event) }

def saturatingSub (a b : UInt64) : UInt64 := if b ≤ a then a - b else 0

section Exact
variable {K : Type} [Field K] [LinearOrder K] [FloorSemiring K]

/-- `delay.round() as u64`: half a second counts as a whole one, and the cast saturates. -/
def wholeSeconds (delay : K) : UInt64 := UInt64.ofNat (min ⌊delay + 1 / 2⌋₊ (2 ^ 64 - 1))

structure Sweep (K : Type) where
  link : Link K
  emitT : K
  admitted : ℕ
  chain : Chain

variable (cfg : Config) (pair : Pair) (deviceId : Bytes) (ln : K → K) (fuel : ℕ)

/-- One round of the loop over the readings. -/
def emit (meanOff : K) (tag : UInt8) (s : Sweep K) (i : ℕ) : Option (Sweep K) := do
  let link ← Link.catchUp ln meanOff s.emitT fuel s.link
  let ts := saturatingSub Mock.now (wholeSeconds (link.delay s.emitT))
  let event := signedReading pair deviceId tag i ts
  let out := dispatch cfg (Mock.call (.processEvent event)) s.chain
  let admitted := if out.1.isOk then s.admitted + 1 else s.admitted
  some ⟨link, s.emitT + emitInterval, admitted, out.2⟩

/-- The fraction of `n` readings that is admitted; `READINGS` is 1500. -/
def admittedFraction (n : ℕ) (meanOff : K) (window : UInt64) (tag : UInt8) (rng : UInt64)
    (st : Chain) : Option (K × Chain) := do
  let cfg := { cfg with timestampFreshnessWindow := window }
  let start : Sweep K := ⟨Link.start ln rng, 0, 0, st⟩
  let s ← (List.range n).foldlM (emit cfg pair deviceId ln fuel meanOff tag) start
  some (s.admitted / n, s.chain)

/-- A sweep point: the index of the window, the window, and the step of the outage. -/
structure Point where
  wi : ℕ
  window : UInt64
  step : UInt64

/-- The mean outage: four minutes a step. -/
def Point.off (p : Point) : K := p.step.toNat * 4 * 60

def Point.seed (p : Point) : UInt64 :=
  0x9E3779B97F4A7C15 ^^^ (p.window * 0x10000001) ^^^ (p.step * 0x01000193)

def Point.tag (p : Point) : UInt8 := (UInt8.ofNat p.wi <<< 5) ||| p.step.toUInt8

/-- The points of the test: three windows, and fifteen steps for each. -/
def points : List Point :=
  [(300 : UInt64), 900, 3600].zipIdx.flatMap fun w =>
    (List.range' 1 15).map fun step => ⟨w.2, w.1, UInt64.ofNat step⟩

/-- The draws permute the words, each seed comes back, and no point of the sweep is seeded
with the zero that the generator could not leave, nor does its generator get there. -/
theorem draws_cycle : Function.Bijective Rng.nextU64 ∧
    (∀ seed, ∃ n > 0, Rng.nextU64^[n] seed = seed) ∧
    Rng.nextU64 0 = 0 ∧ ∀ p ∈ points, ∀ n, Rng.nextU64^[n] p.seed ≠ 0 := by
  have hinj := Rng.nextU64_injective
  have hzero : Rng.nextU64 0 = 0 := rfl
  refine ⟨⟨hinj, Finite.surjective_of_injective hinj⟩, Bytes.exists_iterate_eq hinj, hzero, ?_⟩
  have hseeds : ∀ p ∈ points, p.seed ≠ 0 := by decide +kernel
  intro p hp n hn
  apply hseeds p hp
  apply hinj.iterate n
  rw [hn, Function.iterate_fixed hzero]

/-- The sweep over the points, one after the other on the same chain. -/
def sweep (n : ℕ) : List Point → Chain → Option (List K × Chain)
  | [], st => some ([], st)
  | p :: ps, st => do
    let (frac, st) ← admittedFraction cfg pair deviceId ln fuel n p.off p.window p.tag p.seed st
    let (fracs, st) ← sweep n ps st
    some (frac :: fracs, st)

def connectivityMeasurement (n : ℕ) (ps : List Point) : Option (List K × Chain) := do
  let st ← onboard cfg pair deviceId genesis
  sweep cfg pair deviceId ln fuel n ps st

end Exact

section Admission

/-- A delay that the freshness window and the schema let through, in rounded seconds. The
schema has no room for a timestamp of zero, the delay of `NOW` seconds and more. -/
def InTime (window : UInt64) (delay : ℝ) : Prop :=
  ⌊delay + 1 / 2⌋₊ < Mock.now.toNat ∧ ⌊delay + 1 / 2⌋₊ ≤ window.toNat

noncomputable instance (window : UInt64) (delay : ℝ) : Decidable (InTime window delay) :=
  inferInstanceAs (Decidable (_ ∧ _))

theorem toNat_wholeSeconds (delay : ℝ) :
    (wholeSeconds delay).toNat = min ⌊delay + 1 / 2⌋₊ (2 ^ 64 - 1) := by
  apply UInt64.toNat_ofNat_of_lt'
  have h := Nat.min_le_right ⌊delay + 1 / 2⌋₊ (2 ^ 64 - 1)
  show _ < 2 ^ 64
  omega

theorem toNat_saturatingSub (a b : UInt64) :
    (saturatingSub a b).toNat = a.toNat - b.toNat := by
  unfold saturatingSub
  split_ifs with h
  · exact UInt64.toNat_sub_of_le _ _ h
  · rw [UInt64.le_iff_toNat_le] at h
    show 0 = _
    omega

/-- The timestamp passes the schema and the pallet's freshness test exactly in time. -/
theorem timestamp_fresh_iff {cfg : Config} {e : IoTEvent} {delay : ℝ}
    (he : e.timestamp = saturatingSub Mock.now (wholeSeconds delay)) :
    0 < e.timestamp ∧ Fresh cfg Mock.now e ↔ InTime cfg.timestampFreshnessWindow delay := by
  have hts : e.timestamp.toNat = Mock.now.toNat - min ⌊delay + 1 / 2⌋₊ (2 ^ 64 - 1) := by
    rw [he, toNat_saturatingSub, toNat_wholeSeconds]
  have hwindow := cfg.timestampFreshnessWindow.toNat_lt
  have hnow : Mock.now.toNat = 1000000 := rfl
  have hzero : (0 : UInt64).toNat = 0 := rfl
  rw [fresh_iff, UInt64.lt_iff_toNat_lt, hts, hzero]
  unfold InTime
  omega

variable {cfg : Config} {pair : Pair} {deviceId : Bytes}

/-- A reading of an onboarded device is admitted exactly when it is in time. -/
theorem dispatch_signedReading (hid : deviceId ≠ [])
    (hsign : ∀ m, cfg.ed25519Verify (pair.sign m) m pair.publicKey = true) {st : Chain}
    {r : DeviceRecord} (hr : st.devices.lookup deviceId = some r) (hactive : r.status = .active)
    (hkey : r.publicKey = pair.publicKey) (tag : UInt8) (i : ℕ) (delay : ℝ) :
    let e := signedReading pair deviceId tag i (saturatingSub Mock.now (wholeSeconds delay))
    if InTime cfg.timestampFreshnessWindow delay then
      dispatch cfg (Mock.call (.processEvent e)) st = (.ok (), st.store cfg e)
    else ∃ err, dispatch cfg (Mock.call (.processEvent e)) st = (.error err, st) := by
  intro e
  have hfresh : 0 < e.timestamp ∧ Fresh cfg Mock.now e ↔
      InTime cfg.timestampFreshnessWindow delay := timestamp_fresh_iff rfl
  have hschema : validateEventSchema e = true ↔ 0 < e.timestamp := by
    rw [validateEventSchema_iff]
    simp [e, signedReading, hid]
  split_ifs with htime
  · obtain ⟨hpos, hnew⟩ := hfresh.mpr htime
    have hverify : cfg.ed25519Verify e.signature (encodeEventMessage e) r.publicKey = true := by
      rw [hkey]
      exact hsign _
    have hlookup : st.devices.lookup e.deviceId = some r := hr
    simp [Mock.call, dispatch_processEvent, hschema.mpr hpos, hnew, hlookup, hactive, hverify]
  · apply dispatch_of_not_enabled
    rw [enabled_processEvent rfl]
    rintro ⟨r, hadmits⟩
    exact htime (hfresh.mp ⟨hschema.mp hadmits.schema, hadmits.fresh⟩)

end Admission

end Traceability.Connectivity
