import Traceability.Connectivity.Measurement

/-! What the connectivity measurement reports. Every point of the sweep ends, and its fraction
is that of the readings whose wait for the link is in time. -/
namespace Traceability.Connectivity
open Machine Pallet Finset

/-- How many of the first `n` readings of a trace are in time. -/
noncomputable def inTimeCount (meanOff : ℝ) (window : UInt64) (seed : UInt64) (n : ℕ) : ℕ :=
  ((range n).filter fun i =>
    InTime window (delayAt Real.log meanOff seed ((i * emitInterval : ℕ) : ℝ))).card

theorem inTimeCount_succ (meanOff : ℝ) (window seed : UInt64) (n : ℕ) :
    inTimeCount meanOff window seed (n + 1) = inTimeCount meanOff window seed n +
      if InTime window (delayAt Real.log meanOff seed ((n * emitInterval : ℕ) : ℝ)) then 1
      else 0 := by
  unfold inTimeCount
  rw [range_add_one, filter_insert]
  split_ifs with h
  · exact card_insert_of_notMem (by simp)
  · rfl

section Chain

/-- What the measurement needs of the chain: the device is active under the pair's key. -/
structure Onboarded (pair : Pair) (deviceId : Bytes) (st : Chain) : Prop where
  named : deviceId ≠ []
  registered : ∃ r, st.devices.lookup deviceId = some r ∧ r.status = .active ∧
    r.publicKey = pair.publicKey

theorem Onboarded.store {pair : Pair} {deviceId : Bytes} {st : Chain}
    (h : Onboarded pair deviceId st) (cfg : Config) (e : IoTEvent) :
    Onboarded pair deviceId (st.store cfg e) := ⟨h.named, h.registered⟩

/-- `onboard` succeeds on an empty chain. -/
theorem onboard_genesis {cfg : Config} {pair : Pair} {deviceId : Bytes} (hid : deviceId ≠ [])
    (hsign : ∀ m, cfg.ed25519Verify (pair.sign m) m pair.publicKey = true) :
    ∃ st, onboard cfg pair deviceId genesis = some st ∧ Onboarded pair deviceId st ∧
      st.eventCount = 0 ∧ st.deviceCount = 1 := by
  let cred := onboardCredential pair deviceId
  have hverify : cfg.ed25519Verify cred.signature (encodeCredentialMessage cred)
      cred.publicKey = true := hsign _
  have hschema : validateCredentialSchema cred = true := by
    rw [validateCredentialSchema_iff]
    exact ⟨hid, by simp [cred, onboardCredential, ascii], Nat.zero_le _⟩
  have hnew : cred.deviceId ∉ genesis.devices := Finmap.notMem_empty
  have hcall : dispatch cfg (Mock.call (.onboardDevice cred)) genesis =
      (.ok (), genesis.register Mock.now cred) := by
    simp [Mock.call, dispatch_onboardDevice, hverify, hschema, hnew]
  refine ⟨genesis.register Mock.now cred, ?_, ⟨hid, cred.record Mock.now, ?_, rfl, rfl⟩, rfl, rfl⟩
  · show onboard cfg pair deviceId genesis = _
    unfold onboard
    rw [hcall]
  · exact Finmap.lookup_insert _

end Chain

section Run
variable {cfg : Config} {pair : Pair} {deviceId : Bytes} {meanOff : ℝ} {fuel : ℕ}

/-- Where the loop stands before reading `i`: the link is at a period the trace has reached,
and the readings that were in time are counted and stored. -/
structure Progress (pair : Pair) (deviceId : Bytes) (meanOff : ℝ) (window seed : UInt64)
    (start : Chain) (i : ℕ) (s : Sweep ℝ) : Prop where
  link : ∃ n ≤ segment Real.log meanOff seed ((i * emitInterval : ℕ) : ℝ),
    s.link = Link.at Real.log meanOff seed n
  emitT : s.emitT = ((i * emitInterval : ℕ) : ℝ)
  admitted : s.admitted = inTimeCount meanOff window seed i
  onboarded : Onboarded pair deviceId s.chain
  counted : s.chain.eventCount = start.eventCount + UInt64.ofNat (inTimeCount meanOff window seed i)
  devices : s.chain.deviceCount = start.deviceCount

theorem emission_le {i j : ℕ} (h : i ≤ j) :
    ((i * emitInterval : ℕ) : ℝ) ≤ ((j * emitInterval : ℕ) : ℝ) :=
  Nat.cast_le.mpr (Nat.mul_le_mul_right _ h)

/-- One reading. -/
theorem emit_progress (hoff : 0 < meanOff)
    (hsign : ∀ m, cfg.ed25519Verify (pair.sign m) m pair.publicKey = true) {seed : UInt64}
    (tag : UInt8) {start : Chain} {i : ℕ} {s : Sweep ℝ}
    (hfuel : segment Real.log meanOff seed ((i * emitInterval : ℕ) : ℝ) < fuel)
    (hs : Progress pair deviceId meanOff cfg.timestampFreshnessWindow seed start i s) :
    ∃ s', emit cfg pair deviceId Real.log fuel meanOff tag s i = some s' ∧
      Progress pair deviceId meanOff cfg.timestampFreshnessWindow seed start (i + 1) s' := by
  obtain ⟨n, hn, hlink⟩ := hs.link
  obtain ⟨r, hr, hactive, hkey⟩ := hs.onboarded.registered
  have hcatch := Link.catchUp_at (unbounded hoff seed) hn hfuel
  have hdelay : (Link.at Real.log meanOff seed
      (segment Real.log meanOff seed ((i * emitInterval : ℕ) : ℝ))).delay _ =
        delayAt Real.log meanOff seed ((i * emitInterval : ℕ) : ℝ) := Link.delay_at _
  have hcall := dispatch_signedReading hs.onboarded.named hsign hr hactive hkey tag i
    (delayAt Real.log meanOff seed ((i * emitInterval : ℕ) : ℝ))
  have hnext : ((i * emitInterval : ℕ) : ℝ) + emitInterval =
      (((i + 1) * emitInterval : ℕ) : ℝ) := by
    push_cast
    ring
  have hreached : ∃ n ≤ segment Real.log meanOff seed (((i + 1) * emitInterval : ℕ) : ℝ),
      Link.at Real.log meanOff seed (segment Real.log meanOff seed ((i * emitInterval : ℕ) : ℝ)) =
        Link.at Real.log meanOff seed n :=
    ⟨_, segment_mono (unbounded hoff seed) (emission_le (Nat.le_succ i)), rfl⟩
  have hcount := inTimeCount_succ meanOff cfg.timestampFreshnessWindow seed i
  unfold emit
  rw [hlink, hs.emitT, hcatch]
  simp only [Option.bind_eq_bind, Option.bind_some, hdelay]
  split_ifs at hcall hcount with htime
  · rw [hcall]
    refine ⟨_, rfl, hreached, hnext, ?_, hs.onboarded.store cfg _, ?_, hs.devices⟩
    · rw [hcount, ← hs.admitted]
      rfl
    · rw [hcount, Chain.store_eventCount, hs.counted, UInt64.ofNat_add, UInt64.add_assoc]
      rfl
  · obtain ⟨err, hcall⟩ := hcall
    rw [hcall]
    refine ⟨_, rfl, hreached, hnext, ?_, hs.onboarded, ?_, hs.devices⟩
    · rw [hcount, ← hs.admitted]
      rfl
    · rw [hcount, hs.counted]
      rfl

/-- The trace of a point is passed by the fuel of the loop. -/
theorem admittedFraction_eq (hoff : 0 < meanOff)
    (hsign : ∀ m, cfg.ed25519Verify (pair.sign m) m pair.publicKey = true) {n : ℕ}
    (window : UInt64) {seed : UInt64} (tag : UInt8) {st : Chain} (hst : Onboarded pair deviceId st)
    (hfuel : segment Real.log meanOff seed ((n * emitInterval : ℕ) : ℝ) < fuel) :
    ∃ st', admittedFraction cfg pair deviceId Real.log fuel n meanOff window tag seed st =
        some ((inTimeCount meanOff window seed n : ℝ) / n, st') ∧
      Onboarded pair deviceId st' ∧ st'.deviceCount = st.deviceCount ∧
      st'.eventCount = st.eventCount + UInt64.ofNat (inTimeCount meanOff window seed n) := by
  let pointCfg : Config := { cfg with timestampFreshnessWindow := window }
  have hstart : Progress pair deviceId meanOff window seed st 0
      ⟨Link.start Real.log seed, 0, 0, st⟩ := by
    refine ⟨⟨0, Nat.zero_le _, rfl⟩, by simp, rfl, hst, ?_, rfl⟩
    exact (UInt64.add_zero _).symm
  obtain ⟨s, hrun, hs⟩ := foldlM_range_eq_some hstart fun i hi s hs => by
    have hi' : segment Real.log meanOff seed ((i * emitInterval : ℕ) : ℝ) < fuel :=
      (segment_mono (unbounded hoff seed) (emission_le hi.le)).trans_lt hfuel
    have hsignPoint : ∀ m, pointCfg.ed25519Verify (pair.sign m) m pair.publicKey = true := hsign
    exact emit_progress hoff hsignPoint tag hi' hs
  refine ⟨s.chain, ?_, hs.onboarded, hs.devices, hs.counted⟩
  unfold admittedFraction
  simp only [Option.bind_eq_bind]
  rw [hrun, ← hs.admitted]
  rfl

/-- The fraction of a point. -/
noncomputable def Point.inTimeFraction (n : ℕ) (p : Point) : ℝ :=
  (inTimeCount p.off p.window p.seed n : ℝ) / n

/-- How many readings the points of a sweep admit together. -/
noncomputable def sweepCount (n : ℕ) (ps : List Point) : ℕ :=
  (ps.map fun p => inTimeCount p.off p.window p.seed n).sum

theorem Point.off_pos {p : Point} (hp : 0 < p.step) : (0 : ℝ) < p.off := by
  have hstep : 0 < p.step.toNat := UInt64.lt_iff_toNat_lt.mp hp
  unfold Point.off
  positivity

theorem sweep_eq (hsign : ∀ m, cfg.ed25519Verify (pair.sign m) m pair.publicKey = true) {n : ℕ}
    {ps : List Point} (hps : ∀ p ∈ ps, 0 < p.step)
    (hfuel : ∀ p ∈ ps, segment Real.log p.off p.seed ((n * emitInterval : ℕ) : ℝ) < fuel)
    {st : Chain} (hst : Onboarded pair deviceId st) :
    ∃ st', sweep cfg pair deviceId Real.log fuel n ps st =
        some (ps.map (Point.inTimeFraction n), st') ∧
      st'.deviceCount = st.deviceCount ∧
      st'.eventCount = st.eventCount + UInt64.ofNat (sweepCount n ps) := by
  induction ps generalizing st with
  | nil => exact ⟨st, rfl, rfl, (UInt64.add_zero _).symm⟩
  | cons p ps ih =>
    obtain ⟨st₁, hpoint, hst₁, hdevices₁, hcount₁⟩ := admittedFraction_eq
      (Point.off_pos (hps p (by simp))) hsign p.window p.tag hst (hfuel p (by simp))
    obtain ⟨st₂, hrest, hdevices₂, hcount₂⟩ := ih (fun q hq => hps q (by simp [hq]))
      (fun q hq => hfuel q (by simp [hq])) hst₁
    refine ⟨st₂, ?_, hdevices₂.trans hdevices₁, ?_⟩
    · simp [sweep, hpoint, hrest, Point.inTimeFraction]
    · rw [hcount₂, hcount₁, UInt64.add_assoc, ← UInt64.ofNat_add]
      rfl

end Run

/-- The measurement always ends, whatever the draws, and it measures what it is meant to: the
fraction of each point is that of the emissions that fall in a connected period, or in an
outage with at most the window left of it. The chain has counted exactly these readings. -/
theorem connectivityMeasurement_exact {cfg : Config} {pair : Pair} {deviceId : Bytes}
    (hid : deviceId ≠ [])
    (hsign : ∀ m, cfg.ed25519Verify (pair.sign m) m pair.publicKey = true) (n : ℕ)
    {ps : List Point} (hps : ∀ p ∈ ps, 0 < p.step) :
    ∃ rounds, ∀ fuel ≥ rounds, ∃ st,
      connectivityMeasurement cfg pair deviceId Real.log fuel n ps =
        some (ps.map (Point.inTimeFraction n), st) ∧
      st.deviceCount = 1 ∧ st.eventCount = UInt64.ofNat (sweepCount n ps) := by
  let last (p : Point) : ℕ := segment Real.log p.off p.seed ((n * emitInterval : ℕ) : ℝ)
  refine ⟨(ps.map last).sum + 1, fun fuel hfuel => ?_⟩
  have hpoints : ∀ p ∈ ps, last p < fuel := by
    intro p hp
    have hle := List.le_sum_of_mem (List.mem_map_of_mem (f := last) hp)
    omega
  obtain ⟨st₁, honboard, hst₁, hevents, hdevices⟩ := onboard_genesis hid hsign
  obtain ⟨st₂, hsweep, hdevices₂, hcount₂⟩ := sweep_eq hsign hps hpoints hst₁
  refine ⟨st₂, ?_, hdevices₂.trans hdevices, ?_⟩
  · simp [connectivityMeasurement, honboard, hsweep]
  · rw [hcount₂, hevents, UInt64.zero_add]

example : ∀ p ∈ points, 0 < p.step := by decide

/-- The mock's key pair, as far as its credential and its first reading go. -/
def mockPair : Pair where
  publicKey := Mock.deviceKey
  sign m := if m = encodeEventMessage Mock.reading then Mock.reading.signature
    else Mock.credential.signature

/-- Ed25519 for that pair. -/
def mockConfig : Config :=
  { Mock.config with
    ed25519Verify := fun s m k => decide (k = Mock.deviceKey ∧ s = mockPair.sign m) }

section Outage
variable {meanOff x : ℝ} {seed : UInt64}

/-- Before the first switch nothing waits. -/
theorem delayAt_connected (hx : x < switchTime Real.log meanOff seed 0) :
    delayAt Real.log meanOff seed x = 0 := by
  have hsegment : segment Real.log meanOff seed x = 0 :=
    segment_eq hx fun m hm => absurd hm (Nat.not_lt_zero m)
  unfold delayAt
  rw [hsegment, if_pos (by decide)]

/-- Between the first two switches the wait ends with the second one. -/
theorem delayAt_outage (hlo : switchTime Real.log meanOff seed 0 ≤ x)
    (hhi : x < switchTime Real.log meanOff seed 1) :
    delayAt Real.log meanOff seed x = switchTime Real.log meanOff seed 1 - x := by
  have hsegment : segment Real.log meanOff seed x = 1 := by
    apply segment_eq hhi
    intro m hm
    obtain rfl : m = 0 := by omega
    exact hlo
  unfold delayAt
  rw [hsegment, if_neg (by decide)]

/-- A word whose number is known to three digits. -/
theorem unit_mem_Icc {w : UInt64} {a b : ℕ} (ha : a * 2 ^ 53 ≤ 1000 * ((w >>> 11).toNat + 1))
    (hb : 1000 * ((w >>> 11).toNat + 1) ≤ b * 2 ^ 53) :
    (Rng.unit w : ℝ) ∈ Set.Icc ((a : ℝ) / 1000) ((b : ℝ) / 1000) := by
  have hlo : (a : ℝ) * 2 ^ 53 ≤ 1000 * (((w >>> 11).toNat + 1 : ℕ) : ℝ) := by exact_mod_cast ha
  have hhi : 1000 * (((w >>> 11).toNat + 1 : ℕ) : ℝ) ≤ (b : ℝ) * 2 ^ 53 := by exact_mod_cast hb
  unfold Rng.unit
  push_cast at hlo hhi ⊢
  constructor
  · rw [div_le_div_iff₀ (by norm_num) (by norm_num)]
    linarith
  · rw [div_le_div_iff₀ (by norm_num) (by norm_num)]
    linarith

theorem switchTime_zero_mem (meanOff : ℝ) {a b : ℝ} (ha : 0 < a)
    (hu : Rng.unit (Rng.nextU64 seed) ∈ Set.Icc a b) :
    switchTime Real.log meanOff seed 0 ∈ Set.Icc (900 * (1 - b)) (900 * (a⁻¹ - 1)) := by
  have hperiod : switchTime Real.log meanOff seed 0 = (Rng.exp Real.log seed 900).1 := by
    simp [switchTime, period, meanOn]
  rw [hperiod]
  exact exp_mem_Icc (by norm_num) ha hu

theorem switchTime_one_mem (meanOff : ℝ) (hoff : 0 ≤ meanOff) {a b : ℝ} (ha : 0 < a)
    (hu : Rng.unit (Rng.nextU64 (Rng.nextU64 seed)) ∈ Set.Icc a b) :
    switchTime Real.log meanOff seed 1 - switchTime Real.log meanOff seed 0 ∈
      Set.Icc (meanOff * (1 - b)) (meanOff * (a⁻¹ - 1)) := by
  have hperiod : switchTime Real.log meanOff seed 1 - switchTime Real.log meanOff seed 0 =
      (Rng.exp Real.log (Rng.nextU64 seed) meanOff).1 := by
    rw [switchTime_succ]
    simp [period]
  rw [hperiod]
  exact exp_mem_Icc hoff ha hu

end Outage

/-- A point of the sweep whose second and third reading wait longer than its window. -/
def latePoint : Point := ⟨1, 900, 12⟩

/-- One whose second and third reading wait, but not as long. -/
def patientPoint : Point := ⟨2, 3600, 12⟩

/-- Both have the mean outage of twelve steps. -/
theorem off_twelve {p : Point} (hp : p.step = 12) : (p.off : ℝ) = 2880 := by
  have htwelve : (12 : UInt64).toNat = 12 := rfl
  unfold Point.off
  rw [hp, htwelve]
  norm_num

theorem switchTime_latePoint :
    switchTime Real.log latePoint.off latePoint.seed 0 ∈ Set.Icc (150 : ℝ) 200 ∧
      1600 < switchTime Real.log latePoint.off latePoint.seed 1 := by
  have hfirst : Rng.unit (Rng.nextU64 latePoint.seed) ∈
      Set.Icc (((825 : ℕ) : ℝ) / 1000) (((826 : ℕ) : ℝ) / 1000) :=
    unit_mem_Icc (by decide +kernel) (by decide +kernel)
  have hsecond : Rng.unit (Rng.nextU64 (Rng.nextU64 latePoint.seed)) ∈
      Set.Icc (((476 : ℕ) : ℝ) / 1000) (((478 : ℕ) : ℝ) / 1000) :=
    unit_mem_Icc (by decide +kernel) (by decide +kernel)
  have hoff : (latePoint.off : ℝ) = 2880 := off_twelve rfl
  obtain ⟨hlo, hhi⟩ := switchTime_zero_mem latePoint.off (by norm_num) hfirst
  obtain ⟨hrest, -⟩ := switchTime_one_mem latePoint.off (by rw [hoff]; norm_num)
    (by norm_num) hsecond
  norm_num [hoff] at hlo hhi hrest ⊢
  refine ⟨⟨?_, ?_⟩, ?_⟩ <;> linarith

theorem switchTime_patientPoint :
    switchTime Real.log patientPoint.off patientPoint.seed 0 ∈ Set.Icc (60 : ℝ) 70 ∧
      switchTime Real.log patientPoint.off patientPoint.seed 1 ∈ Set.Icc (1400 : ℝ) 3000 := by
  have hfirst : Rng.unit (Rng.nextU64 patientPoint.seed) ∈
      Set.Icc (((930 : ℕ) : ℝ) / 1000) (((931 : ℕ) : ℝ) / 1000) :=
    unit_mem_Icc (by decide +kernel) (by decide +kernel)
  have hsecond : Rng.unit (Rng.nextU64 (Rng.nextU64 patientPoint.seed)) ∈
      Set.Icc (((499 : ℕ) : ℝ) / 1000) (((500 : ℕ) : ℝ) / 1000) :=
    unit_mem_Icc (by decide +kernel) (by decide +kernel)
  have hoff : (patientPoint.off : ℝ) = 2880 := off_twelve rfl
  obtain ⟨hlo, hhi⟩ := switchTime_zero_mem patientPoint.off (by norm_num) hfirst
  obtain ⟨hrest, hrest'⟩ := switchTime_one_mem patientPoint.off
    (by rw [hoff]; norm_num) (by norm_num) hsecond
  norm_num [hoff] at hlo hhi hrest hrest' ⊢
  refine ⟨⟨?_, ?_⟩, ?_, ?_⟩ <;> linarith

theorem inTime_zero (window : UInt64) : InTime window 0 := by
  have hfloor : ⌊(0 : ℝ) + 1 / 2⌋₊ = 0 := Nat.floor_eq_zero.mpr (by norm_num)
  unfold InTime
  rw [hfloor]
  exact ⟨by decide, Nat.zero_le _⟩

/-- The first three readings of a trace, emitted every five minutes. -/
theorem inTimeCount_three (meanOff : ℝ) (window seed : UInt64) :
    inTimeCount meanOff window seed 3 =
      (if InTime window (delayAt Real.log meanOff seed 0) then 1 else 0) +
        (if InTime window (delayAt Real.log meanOff seed 300) then 1 else 0) +
        (if InTime window (delayAt Real.log meanOff seed 600) then 1 else 0) := by
  have hnone : inTimeCount meanOff window seed 0 = 0 := by simp [inTimeCount]
  rw [inTimeCount_succ, inTimeCount_succ, inTimeCount_succ, hnone]
  norm_num [emitInterval]

/-- One of three readings of the late point is in time. -/
theorem inTimeCount_latePoint :
    inTimeCount latePoint.off latePoint.window latePoint.seed 3 = 1 := by
  obtain ⟨⟨hlo, hhi⟩, hend⟩ := switchTime_latePoint
  have hlate (x : ℝ) (hx : 200 ≤ x) (hx' : x ≤ 600) :
      ¬ InTime latePoint.window (delayAt Real.log latePoint.off latePoint.seed x) := by
    rw [delayAt_outage (by linarith) (by linarith)]
    rintro ⟨-, hwindow⟩
    have hfloor : 901 ≤
        ⌊switchTime Real.log latePoint.off latePoint.seed 1 - x + 1 / 2⌋₊ := by
      apply Nat.le_floor
      push_cast
      linarith
    have hseconds : latePoint.window.toNat = 900 := rfl
    omega
  rw [inTimeCount_three, delayAt_connected (by linarith), if_pos (inTime_zero _),
    if_neg (hlate 300 (by norm_num) (by norm_num)), if_neg (hlate 600 (by norm_num) (by norm_num))]

/-- All three readings of the patient point are. -/
theorem inTimeCount_patientPoint :
    inTimeCount patientPoint.off patientPoint.window patientPoint.seed 3 = 3 := by
  obtain ⟨⟨hlo, hhi⟩, hend, hend'⟩ := switchTime_patientPoint
  have htime (x : ℝ) (hx : 200 ≤ x) (hx' : x ≤ 600) :
      InTime patientPoint.window (delayAt Real.log patientPoint.off patientPoint.seed x) := by
    rw [delayAt_outage (by linarith) (by linarith)]
    have hfloor : ⌊switchTime Real.log patientPoint.off patientPoint.seed 1 - x + 1 / 2⌋₊ ≤
        3600 := by
      apply Nat.floor_le_of_le
      push_cast
      linarith
    have hseconds : patientPoint.window.toNat = 3600 := rfl
    have hnow : Mock.now.toNat = 1000000 := rfl
    unfold InTime
    omega
  rw [inTimeCount_three, delayAt_connected (by linarith), if_pos (inTime_zero _),
    if_pos (htime 300 (by norm_num) (by norm_num)), if_pos (htime 600 (by norm_num) (by norm_num))]

/-- Two points of the sweep with three readings each, of which the second and the third fall in
an outage. -/
theorem connectivityMeasurement_exact_outage : ∃ rounds, ∃ st,
    connectivityMeasurement mockConfig mockPair (ascii "dev-conn") Real.log rounds 3
      [latePoint, patientPoint] = some ([1 / 3, 1], st) ∧ st.deviceCount = 1 ∧
        st.eventCount = 4 := by
  have hid : ascii "dev-conn" ≠ [] := by decide
  have hsign : ∀ m, mockConfig.ed25519Verify (mockPair.sign m) m mockPair.publicKey = true :=
    fun m => decide_eq_true ⟨rfl, rfl⟩
  have hps : ∀ p ∈ [latePoint, patientPoint], 0 < p.step := by decide
  have hlate : Point.inTimeFraction 3 latePoint = 1 / 3 := by
    unfold Point.inTimeFraction
    rw [inTimeCount_latePoint]
    norm_num
  have hpatient : Point.inTimeFraction 3 patientPoint = 1 := by
    unfold Point.inTimeFraction
    rw [inTimeCount_patientPoint]
    norm_num
  have htotal : sweepCount 3 [latePoint, patientPoint] = 4 := by
    simp [sweepCount, inTimeCount_latePoint, inTimeCount_patientPoint]
  obtain ⟨rounds, hall⟩ := connectivityMeasurement_exact hid hsign 3 hps
  obtain ⟨st, hrun, hdevices, hevents⟩ := hall rounds le_rfl
  rw [List.map_cons, List.map_cons, List.map_nil, hlate, hpatient] at hrun
  rw [htotal] at hevents
  exact ⟨rounds, st, hrun, hdevices, hevents⟩

end Traceability.Connectivity
