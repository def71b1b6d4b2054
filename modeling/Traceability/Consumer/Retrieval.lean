import Traceability.Consumer.Verification
import Traceability.Generator.Identity

/-! The consumer's path as the retrieval measurement runs it: payloads are added to a
content-addressed repository, one is fetched by its identifier and checked against the root over
the digests, and so is a payload with one bit flipped. -/
namespace Traceability.Consumer
open Bytes Merkle

/-- `ipfs add` and `ipfs cat` on the states of a repository; `cat` prints nothing for an
identifier that it cannot fetch. -/
structure Ipfs (Repo : Type) where
  add : Bytes → Repo → String × Repo
  cat : String → Repo → Bytes

namespace Ipfs
variable {Repo : Type}

/-- What is relied on of the contents that are added, and of no others. The identifier of a
content is made from the content alone, and fetches it once it was added, unless it fetched
something else before; and adding another content under another identifier changes nothing, but
may bring a part of the one added within reach. -/
structure Addresses (ipfs : Ipfs Repo) (cid : Bytes → String) (contents : List Bytes) : Prop where
  add_cid : ∀ b ∈ contents, ∀ repo, (ipfs.add b repo).1 = cid b
  cat_add : ∀ b ∈ contents, ∀ repo, ipfs.cat (cid b) repo = [] ∨ ipfs.cat (cid b) repo = b →
    ipfs.cat (cid b) (ipfs.add b repo).2 = b
  cat_other : ∀ b ∈ contents, ∀ b' ∈ contents, cid b' ≠ cid b → ∀ repo,
    ipfs.cat (cid b') (ipfs.add b repo).2 = ipfs.cat (cid b') repo ∨
      ipfs.cat (cid b') (ipfs.add b repo).2 = b'

/-- The contents that were added are fetched, and under the identifiers of the others is
nothing else. -/
structure Serves (ipfs : Ipfs Repo) (cid : Bytes → String) (contents added : List Bytes)
    (repo : Repo) : Prop where
  intact : ∀ b ∈ contents, ipfs.cat (cid b) repo = [] ∨ ipfs.cat (cid b) repo = b
  fetches : ∀ b ∈ added, ipfs.cat (cid b) repo = b

variable {ipfs : Ipfs Repo} {cid : Bytes → String} {contents added : List Bytes} {repo : Repo}

theorem Serves.mono (h : ipfs.Serves cid contents added repo) {added' : List Bytes}
    (hsub : added' ⊆ added) : ipfs.Serves cid contents added' repo where
  intact := h.intact
  fetches b hb := h.fetches b (hsub hb)

/-- Adding a content serves it as well. -/
theorem Serves.add (h : ipfs.Serves cid contents added repo) (hipfs : ipfs.Addresses cid contents)
    (hfree : CollisionFree cid contents) (hadded : added ⊆ contents) {b : Bytes}
    (hb : b ∈ contents) : ipfs.Serves cid contents (b :: added) (ipfs.add b repo).2 := by
  have hself := hipfs.cat_add b hb repo (h.intact b hb)
  have hother {b' : Bytes} (hb' : b' ∈ contents) :
      ipfs.cat (cid b') (ipfs.add b repo).2 = ipfs.cat (cid b') repo ∨
        ipfs.cat (cid b') (ipfs.add b repo).2 = b' := by
    by_cases hcid : cid b' = cid b
    · obtain rfl := hfree b' hb' b hb hcid
      exact .inr hself
    · exact hipfs.cat_other b hb b' hb' hcid repo
  constructor
  · intro b' hb'
    rcases hother hb' with hsame | hcontent
    · rw [hsame]
      exact h.intact b' hb'
    · exact .inr hcontent
  · intro b' hb'
    rcases List.mem_cons.mp hb' with rfl | hb'
    · exact hself
    · rcases hother (hadded hb') with hsame | hcontent
      · rw [hsame, h.fetches b' hb']
      · exact hcontent

end Ipfs

section Measurement
variable {Repo : Type} (ipfs : Ipfs Repo)

/-- `[add(p) for p in payloads]`. -/
def addAll : List Bytes → Repo → List String × Repo
  | [], repo => ([], repo)
  | p :: payloads, repo =>
    let (cid, repo) := ipfs.add p repo
    let (cids, repo) := addAll payloads repo
    (cid :: cids, repo)

/-- `tampered[i] ^= 0x01`, an error when there is no such byte. -/
def flipBit (b : Bytes) (i : ℕ) : Option Bytes :=
  if i < b.length then some (b.modify i (· ^^^ 1)) else none

/-- The results that are printed. -/
structure Results where
  deterministic : Bool
  distinct : Bool
  roundtrip : ℕ
  tamperChangesCid : Bool
  inclusionOk : Bool
  tamperedRejected : Bool

/-- `main`, on given payloads; an index out of range makes the result `none`. -/
def measure (h : Bytes → Bytes) (payloads : List Bytes) (idx : ℕ) (repo : Repo) :
    Option Results := do
  let (cids, repo) := addAll ipfs payloads repo
  let first ← payloads[0]?
  let firstCid ← cids[0]?
  let (again, repo) := ipfs.add first repo
  let roundtrip := (cids.zip payloads).countP fun p => ipfs.cat p.1 repo = p.2
  let tampered ← flipBit first 12
  let (tamperCid, repo) := ipfs.add tampered repo
  let levels ← build (hashConcat h) (payloads.map h)
  let root ← rootOf levels
  let cid ← cids[idx]?
  let fetched := ipfs.cat cid repo
  let pr ← proof levels idx
  some {
    deterministic := decide (again = firstCid)
    distinct := decide (cids.dedup.length = payloads.length)
    roundtrip := roundtrip
    tamperChangesCid := decide (tamperCid ≠ firstCid)
    inclusionOk := verify (hashConcat h) (h fetched) idx pr root
    tamperedRejected := !verify (hashConcat h) (h tampered) idx pr root }

section Store
variable {cid : Bytes → String} {contents : List Bytes} {ipfs}

theorem addAll_fst (hipfs : ipfs.Addresses cid contents) {payloads : List Bytes}
    (hsub : payloads ⊆ contents) (repo : Repo) :
    (addAll ipfs payloads repo).1 = payloads.map cid := by
  induction payloads generalizing repo with
  | nil => rfl
  | cons p payloads ih =>
    obtain ⟨hp, hrest⟩ := List.cons_subset.mp hsub
    show (ipfs.add p repo).1 :: (addAll ipfs payloads (ipfs.add p repo).2).1 = _
    rw [hipfs.add_cid p hp, ih hrest, List.map_cons]

/-- After the loop every payload is served. -/
theorem addAll_serves (hipfs : ipfs.Addresses cid contents) (hfree : CollisionFree cid contents)
    {payloads added : List Bytes} (hsub : payloads ⊆ contents) (hadded : added ⊆ contents)
    {repo : Repo} (h : ipfs.Serves cid contents added repo) :
    ipfs.Serves cid contents (payloads ++ added) (addAll ipfs payloads repo).2 := by
  induction payloads generalizing added repo with
  | nil => exact h
  | cons p payloads ih =>
    obtain ⟨hp, hrest⟩ := List.cons_subset.mp hsub
    have hnext := ih hrest (List.cons_subset.mpr ⟨hp, hadded⟩) (h.add hipfs hfree hadded hp)
    exact hnext.mono List.perm_middle.symm.subset

/-- There are as many identifiers as payloads when no payload comes twice. -/
theorem length_dedup_cids_iff {payloads : List Bytes} (hfree : CollisionFree cid payloads) :
    (payloads.map cid).dedup.length = payloads.length ↔ payloads.Nodup := by
  have hlength : payloads.length = (payloads.map cid).length := (List.length_map _).symm
  rw [hlength]
  constructor
  · intro h
    have heq := (List.dedup_sublist (payloads.map cid)).eq_of_length h
    rw [List.dedup_eq_self] at heq
    exact heq.of_map
  · intro h
    rw [List.Nodup.dedup]
    exact h.map_on hfree

theorem countP_roundtrip {payloads : List Bytes} {repo : Repo}
    (hfetch : ∀ b ∈ payloads, ipfs.cat (cid b) repo = b) :
    ((payloads.map cid).zip payloads).countP (fun p => ipfs.cat p.1 repo = p.2) =
      payloads.length := by
  induction payloads with
  | nil => rfl
  | cons p payloads ih =>
    have hrest := ih fun b hb => hfetch b (List.mem_cons_of_mem p hb)
    have hfirst := hfetch p List.mem_cons_self
    simp only [List.map_cons, List.zip_cons_cons, List.countP_cons, hrest, hfirst,
      List.length_cons, decide_true, if_true]

end Store

theorem xor_one_ne (c : UInt8) : c ^^^ 1 ≠ c := by
  intro h
  have hzero : (1 : UInt8) = 0 := by simpa [← UInt8.xor_assoc] using congrArg (c ^^^ ·) h
  exact absurd hzero (by decide)

theorem flipBit_ne {b b' : Bytes} {i : ℕ} (h : flipBit b i = some b') : b' ≠ b := by
  unfold flipBit at h
  split_ifs at h with hi
  obtain rfl := Option.some_inj.mp h
  intro heq
  have hbyte := congrArg (fun bs : Bytes => bs[i]?) heq
  simp only [List.getElem?_modify, if_true, List.getElem?_eq_getElem hi, Option.map_eq_map,
    Option.map_some, Option.some_inj] at hbyte
  exact xor_one_ne _ hbyte

/-- The texts hashed while the flipped payload is checked at index `idx`, and on the path of
that index. -/
def checkTexts (h : Bytes → Bytes) (payloads : List Bytes) {idx : ℕ} (hidx : idx < payloads.length)
    (tampered : Bytes) : List Bytes :=
  let leaves := payloads.map h
  have hleaf : idx < leaves.length := by simpa [leaves] using hidx
  tampered :: payloads[idx] :: (pathTexts h leaves hleaf ++
    verifyTexts h (h tampered) idx (siblings (hashConcat h) leaves idx hleaf))

section Run
variable {payloads : List Bytes} {first tampered : Bytes} {cid : Bytes → String} {ipfs}

/-- The run without its repository: nothing is out of range, and every fetch brings back what
was added. -/
theorem measure_eq (hipfs : ipfs.Addresses cid (tampered :: payloads))
    (hfree : CollisionFree cid (tampered :: payloads)) {repo : Repo}
    (hstart : ipfs.Serves cid (tampered :: payloads) [] repo) (h : Bytes → Bytes) {idx : ℕ}
    (hidx : idx < payloads.length) (hfirst : payloads[0]? = some first)
    (hflip : flipBit first 12 = some tampered) :
    measure ipfs h payloads idx repo = some {
      deterministic := true
      distinct := decide ((payloads.map cid).dedup.length = payloads.length)
      roundtrip := payloads.length
      tamperChangesCid := decide (cid tampered ≠ cid first)
      inclusionOk := verify (hashConcat h) (h payloads[idx]) idx
        (siblings (hashConcat h) (payloads.map h) idx (by simpa using hidx))
        (merkleRoot (hashConcat h) (payloads.map h) (by
          simpa using List.ne_nil_of_length_pos (Nat.zero_lt_of_lt hidx)))
      tamperedRejected := !verify (hashConcat h) (h tampered) idx
        (siblings (hashConcat h) (payloads.map h) idx (by simpa using hidx))
        (merkleRoot (hashConcat h) (payloads.map h) (by
          simpa using List.ne_nil_of_length_pos (Nat.zero_lt_of_lt hidx))) } := by
  have hleaf : idx < (payloads.map h).length := by simpa using hidx
  have hne : payloads.map h ≠ [] := by
    simpa using List.ne_nil_of_length_pos (Nat.zero_lt_of_lt hidx)
  have hmem : first ∈ payloads := List.mem_of_getElem? hfirst
  have hpayloads : payloads ⊆ tampered :: payloads := List.subset_cons_self _ _
  have hcid : (payloads.map cid)[idx]? = some (cid payloads[idx]) := by
    rw [List.getElem?_map, List.getElem?_eq_getElem hidx, Option.map_some]
  have hfirstCid : (payloads.map cid)[0]? = some (cid first) := by
    rw [List.getElem?_map, hfirst, Option.map_some]
  -- The repository after the loop, after the second addition of the first payload, and after
  -- the addition of the flipped one.
  have hloop : ipfs.Serves cid (tampered :: payloads) payloads (addAll ipfs payloads repo).2 := by
    simpa using addAll_serves hipfs hfree hpayloads (List.nil_subset _) hstart
  have hagain := hloop.add hipfs hfree hpayloads (hpayloads hmem)
  have hlast := hagain.add hipfs hfree (List.cons_subset.mpr ⟨hpayloads hmem, hpayloads⟩)
    List.mem_cons_self
  have hcount := countP_roundtrip (hagain.mono (List.subset_cons_self _ _)).fetches
  have hfetch := hlast.fetches payloads[idx] (by simp)
  have hadd := hipfs.add_cid first (hpayloads hmem) (addAll ipfs payloads repo).2
  have htamper := hipfs.add_cid tampered List.mem_cons_self
    (ipfs.add first (addAll ipfs payloads repo).2).2
  unfold measure
  simp only [Option.bind_eq_bind, Option.bind_some, addAll_fst hipfs hpayloads, hfirst, hfirstCid,
    hflip, build_eq, rootOf_levels _ hne, hcid, proof_levels _ hleaf, hcount, hfetch, hadd, htamper,
    decide_true]

end Run

section Checks
variable (blake2b : Bytes → Vector UInt8 32) {payloads : List Bytes} {idx : ℕ}

/-- A flipped bit gives content with an identifier of its own. -/
theorem tamper_changes_cid {cid : Bytes → String} {first tampered : Bytes} {i : ℕ}
    (hcids : CollisionFree cid (tampered :: payloads)) (hfirst : first ∈ payloads)
    (hflip : flipBit first i = some tampered) : cid tampered ≠ cid first := by
  intro heq
  exact flipBit_ne hflip
    (hcids _ List.mem_cons_self _ (List.mem_cons_of_mem _ hfirst) heq)

/-- What is fetched verifies. -/
theorem verify_payload (h : Bytes → Bytes) (hidx : idx < payloads.length)
    (hleaf : idx < (payloads.map h).length) (hne : payloads.map h ≠ []) :
    verify (hashConcat h) (h payloads[idx]) idx (siblings (hashConcat h) (payloads.map h) idx hleaf)
      (merkleRoot (hashConcat h) (payloads.map h) hne) = true := by
  have hget : (payloads.map h)[idx] = h payloads[idx] := List.getElem_map _
  unfold verify
  rw [decide_eq_true_iff, verifyLoop_eq, ← hget]
  exact climbAt_siblings (hashConcat h) hleaf hne

/-- Other content does not, or there is a collision among the texts hashed. -/
theorem not_verify_tampered (hidx : idx < payloads.length) {tampered : Bytes}
    (hfree : CollisionFree (fun b => (blake2b b).toList)
      (checkTexts (fun b => (blake2b b).toList) payloads hidx tampered))
    (hother : tampered ≠ payloads[idx])
    (hleaf : idx < (payloads.map fun b => (blake2b b).toList).length)
    (hne : (payloads.map fun b => (blake2b b).toList) ≠ []) :
    verify (hashConcat fun b => (blake2b b).toList) (blake2b tampered).toList idx
      (siblings (hashConcat fun b => (blake2b b).toList)
        (payloads.map fun b => (blake2b b).toList) idx hleaf)
      (merkleRoot (hashConcat fun b => (blake2b b).toList)
        (payloads.map fun b => (blake2b b).toList) hne) = false := by
  let h : Bytes → Bytes := fun b => (blake2b b).toList
  have hdigest (b : Bytes) : (h b).length = 32 := Vector.length_toList
  have hleaves : ∀ l ∈ payloads.map h, l.length = 32 := by
    intro l hl
    obtain ⟨b, -, rfl⟩ := List.mem_map.mp hl
    exact hdigest b
  have hget : (payloads.map h)[idx] = h payloads[idx] := List.getElem_map _
  rw [← Bool.not_eq_true]
  intro hverify
  unfold verify at hverify
  rw [decide_eq_true_iff, verifyLoop_eq] at hverify
  have hdigests : h tampered = (payloads.map h)[idx] :=
    eq_of_climbAt_eq_merkleRoot showsHalves_append hdigest hleaves hleaf hne (hdigest _) rfl
      (hfree.mono fun text htext => List.mem_cons_of_mem _ (List.mem_cons_of_mem _ htext)) hverify
  rw [hget] at hdigests
  exact hother (hfree _ List.mem_cons_self _ (List.mem_cons_of_mem _ List.mem_cons_self) hdigests)

end Checks

/-- The measurement reports what it is meant to show, on any payloads and any repository that
addresses them and the flipped payload without a collision. Identifiers are deterministic, and
distinct when the payloads are; every payload comes back; a flipped bit changes the identifier;
what is fetched verifies; and the flipped payload is refused at an index unless it is the payload
there, or the digest has a collision on the texts hashed. -/
theorem retrieval_measurement (cid : Bytes → String) (blake2b : Bytes → Vector UInt8 32)
    (payloads : List Bytes) {idx : ℕ} (hidx : idx < payloads.length) {first tampered : Bytes}
    (hfirst : payloads[0]? = some first) (hflip : flipBit first 12 = some tampered)
    (hipfs : ipfs.Addresses cid (tampered :: payloads))
    (hcids : CollisionFree cid (tampered :: payloads)) {repo : Repo}
    (hstart : ipfs.Serves cid (tampered :: payloads) [] repo) :
    ∃ results, measure ipfs (fun b => (blake2b b).toList) payloads idx repo = some results ∧
      results.deterministic = true ∧ (results.distinct = true ↔ payloads.Nodup) ∧
      results.roundtrip = payloads.length ∧ results.tamperChangesCid = true ∧
      results.inclusionOk = true ∧
      (results.tamperedRejected = true → tampered ≠ payloads[idx]) ∧
      (CollisionFree (fun b => (blake2b b).toList)
          (checkTexts (fun b => (blake2b b).toList) payloads hidx tampered) →
        tampered ≠ payloads[idx] → results.tamperedRejected = true) := by
  let h : Bytes → Bytes := fun b => (blake2b b).toList
  have hleaf : idx < (payloads.map h).length := by simpa using hidx
  have hne : payloads.map h ≠ [] := by
    simpa using List.ne_nil_of_length_pos (Nat.zero_lt_of_lt hidx)
  have hok := verify_payload h hidx hleaf hne
  refine ⟨_, measure_eq hipfs hcids hstart h hidx hfirst hflip, rfl, ?_, rfl, ?_, hok, ?_, ?_⟩
  · rw [decide_eq_true_iff]
    exact length_dedup_cids_iff (hcids.mono (List.subset_cons_self _ _))
  · rw [decide_eq_true_iff]
    exact tamper_changes_cid hcids (List.mem_of_getElem? hfirst) hflip
  · intro hrejected heq
    rw [Bool.not_eq_true', heq, hok] at hrejected
    cases hrejected
  · intro hfree hother
    rw [Bool.not_eq_true']
    exact not_verify_tampered blake2b hidx hfree hother hleaf hne

end Measurement

section Events
open Generator

/-- Event `i` of the measurement, as a dictionary; its reading is a literal of its own. -/
def eventDict (celsius : ℕ → LiteralText) (i : ℕ) : Dict :=
  [("device", .string "did:example:temp-farm-01"),
    ("ts", .literal (toString (1700000000 + i * 300 : ℤ))), ("type", .string "temperature"),
    ("celsius", .literal (celsius i).val)]

/-- `event(i)`. -/
def event (celsius : ℕ → LiteralText) (i : ℕ) : Bytes :=
  encode (canonicalText (eventDict celsius i))

theorem valid_eventDict (celsius : ℕ → LiteralText) (i : ℕ) :
    (Json.object (eventDict celsius i)).Valid := by
  refine .object _ ?_ (by simp [eventDict])
  intro field hfield
  simp only [eventDict, List.mem_cons, List.not_mem_nil, or_false] at hfield
  rcases hfield with rfl | rfl | rfl | rfl
  · exact .string _
  · exact .literal _ (toString_int_ne_nil _) fun c => literalChar_toString_int
  · exact .string _
  · exact valid_literalText _

/-- A field of an event is a field of every event with the same text. -/
theorem exists_field_of_event_eq {celsius celsius' : ℕ → LiteralText} {i j : ℕ}
    (h : event celsius i = event celsius' j) {field : String × Json}
    (hfield : field ∈ eventDict celsius i) :
    ∃ w, (field.1, w) ∈ eventDict celsius' j ∧ SameData field.2 w := by
  have hsame : SameData (.object (eventDict celsius i)) (.object (eventDict celsius' j)) :=
    sameData_of_sortKeys_eq (valid_eventDict celsius i) (sortKeys_eq_of_canonicalText_eq
      (valid_eventDict celsius i) (valid_eventDict celsius' j) (encode_injective h))
  exact hsame.exists_field hfield

/-- Events are told apart by their time, whatever they measure. -/
theorem index_eq_of_event_eq {celsius celsius' : ℕ → LiteralText} {i j : ℕ}
    (h : event celsius i = event celsius' j) : i = j := by
  obtain ⟨w, hw, htime⟩ := exists_field_of_event_eq h
    (show ("ts", .literal (toString (1700000000 + i * 300 : ℤ))) ∈ eventDict celsius i by
      simp [eventDict])
  have hval : w = .literal (toString (1700000000 + j * 300 : ℤ)) := by
    simpa [eventDict] using hw
  rw [hval] at htime
  have hint := toString_int_injective htime.literal_eq
  omega

/-- They show what was measured. -/
theorem celsius_eq_of_event_eq {celsius celsius' : ℕ → LiteralText} {i j : ℕ}
    (h : event celsius i = event celsius' j) : celsius i = celsius' j := by
  obtain ⟨w, hw, hnumber⟩ := exists_field_of_event_eq h
    (show ("celsius", .literal (celsius i).val) ∈ eventDict celsius i by simp [eventDict])
  have hval : w = .literal (celsius' j).val := by simpa [eventDict] using hw
  rw [hval] at hnumber
  exact Subtype.ext hnumber.literal_eq

/-- The payloads of the measurement are distinct, however many there are. -/
theorem events_nodup (celsius : ℕ → LiteralText) (n : ℕ) :
    ((List.range n).map (event celsius)).Nodup :=
  List.nodup_range.map fun _ _ => index_eq_of_event_eq

end Events

section ThreeEvents

/-- A repository that lists its contents under their identifiers. -/
def listedIpfs (cid : Bytes → String) : Ipfs (List (String × Bytes)) where
  add b repo := (cid b, (cid b, b) :: repo)
  cat c repo := tableHash repo [] c

theorem listedIpfs_addresses (cid : Bytes → String) (contents : List Bytes) :
    (listedIpfs cid).Addresses cid contents where
  add_cid _ _ _ := rfl
  cat_add b _ repo _ := by simp [listedIpfs, tableHash]
  cat_other b _ b' _ hne repo := by
    left
    have hkey : cid b ≠ cid b' := hne.symm
    simp [listedIpfs, tableHash, hkey]

theorem listedIpfs_serves_nil (cid : Bytes → String) (contents : List Bytes) :
    (listedIpfs cid).Serves cid contents [] [] where
  intact _ _ := .inl rfl
  fetches _ hb := absurd hb List.not_mem_nil

/-- The first three temperatures of the measurement. -/
def firstNumber : Generator.LiteralText :=
  ⟨"3.0", by decide, Generator.literalChars_of_all (by decide)⟩

def secondNumber : Generator.LiteralText :=
  ⟨"3.01", by decide, Generator.literalChars_of_all (by decide)⟩

def thirdNumber : Generator.LiteralText :=
  ⟨"3.02", by decide, Generator.literalChars_of_all (by decide)⟩

def threeCelsius : ℕ → Generator.LiteralText
  | 0 => firstNumber
  | 1 => secondNumber
  | _ + 2 => thirdNumber

def threePayloads : List Bytes := (List.range 3).map (event threeCelsius)

/-- The first payload with its flipped bit. -/
def flippedPayload : Bytes := (event threeCelsius 0).modify 12 (· ^^^ 1)

/-- The identifiers that kubo gives these. -/
def threeCid : Bytes → String :=
  tableHash [(event threeCelsius 0, "QmVneNxBrTChyXodXqHm9sUYDRzf1Qy7XyhJMTutavuSVB"),
    (event threeCelsius 1, "QmWLza6Z3J3jkLHhQJkUNH5KYepZTyjrAYXxQVZXMjZymD"),
    (event threeCelsius 2, "Qmbsb8ZdBkCHpzdbiDgHuvzDpLUag3XCXwvYQ6BAGCnQdx"),
    (flippedPayload, "QmX59i9kKkAxhn1x6D5rAaojMc5fhrbNP8e4QTVN69KP4k")] ""

def tamperedDigest : Bytes :=
  bigEndian 32 0xd83dda6aa4b4ee7d66a1817cfe5a19da4d946cdb5ca00598994d56303055f594

def tamperedLeftDigest : Bytes :=
  bigEndian 32 0x30e1e28cf3e378ce788ef892e00182010778827d154c8f610e5b0f44f5d36c5d

/-- BLAKE2b-256 on the texts that are hashed for three payloads and the check of the second. -/
def threeBlake2b : Bytes → Vector UInt8 32 :=
  tableHash [(event threeCelsius 0, Pallet.Mock.fixed 32
      0xe6dd1412db32fdc2e5403c08b31519847d860284c8244c67b5bf0b454cf87e63),
    (event threeCelsius 1, Pallet.Mock.fixed 32
      0xc6844a54722597639200e9aab1e78d3a54c22e650fbba230d745a5cc08b1e8f0),
    (event threeCelsius 2, Pallet.Mock.fixed 32
      0x240c074e810a2a2a8dd3e9b1b0930f1cda731ca5ca998e35fc80372255553522),
    (flippedPayload, Pallet.Mock.fixed 32
      0xd83dda6aa4b4ee7d66a1817cfe5a19da4d946cdb5ca00598994d56303055f594),
    (firstDigest ++ secondDigest, Pallet.Mock.fixed 32
      0x2afd7d4908c27874c526d59ed6861ead5be1f0ec7d3aeb82a40592c8fbb72c81),
    (thirdDigest ++ thirdDigest, Pallet.Mock.fixed 32
      0xe039c117d10fdcf58a1301a61b99f2cb96821cf440a744db61cfb170ff045b94),
    (leftDigest ++ rightDigest, Pallet.Mock.fixed 32
      0x48d703d5f6e655d9866a2c160cbdd9292c95f214e577d40f41829bdd45392b45),
    (firstDigest ++ tamperedDigest, Pallet.Mock.fixed 32
      0x30e1e28cf3e378ce788ef892e00182010778827d154c8f610e5b0f44f5d36c5d),
    (tamperedLeftDigest ++ rightDigest, Pallet.Mock.fixed 32
      0xe0eb058a146d3d8c459e3dda6942e28831dc943760d7c02f32e5ff1832f34b17)]
    (Vector.replicate 32 0)

theorem one_lt_length_threePayloads : 1 < threePayloads.length := by simp [threePayloads]

theorem flipBit_threePayloads : flipBit (event threeCelsius 0) 12 = some flippedPayload := by
  decide +kernel

theorem flippedPayload_ne : flippedPayload ≠ event threeCelsius 1 := by decide +kernel

theorem threeCid_collisionFree : CollisionFree threeCid (flippedPayload :: threePayloads) :=
  tableHash_collisionFree _ (by simp) (by simp [threePayloads, List.range_succ])

theorem threeBlake2b_collisionFree : CollisionFree (fun b => (threeBlake2b b).toList)
    (checkTexts (fun b => (threeBlake2b b).toList) threePayloads one_lt_length_threePayloads
      flippedPayload) := by
  decide +kernel

theorem retrieval_measurement_threeEvents :
    ∃ results, measure (listedIpfs threeCid) (fun b => (threeBlake2b b).toList) threePayloads 1 [] =
      some results ∧ results.deterministic = true ∧ results.distinct = true ∧
      results.roundtrip = 3 ∧ results.tamperChangesCid = true ∧ results.inclusionOk = true ∧
      results.tamperedRejected = true := by
  obtain ⟨results, hresults, hdeterministic, hdistinct, hroundtrip, hcid, hok, -, hrejected⟩ :=
    retrieval_measurement (listedIpfs threeCid) threeCid threeBlake2b threePayloads
      one_lt_length_threePayloads rfl flipBit_threePayloads (listedIpfs_addresses _ _)
      threeCid_collisionFree (listedIpfs_serves_nil _ _)
  exact ⟨results, hresults, hdeterministic, hdistinct.mpr (events_nodup threeCelsius 3),
    hroundtrip, hcid, hok, hrejected threeBlake2b_collisionFree flippedPayload_ne⟩

end ThreeEvents

end Traceability.Consumer
