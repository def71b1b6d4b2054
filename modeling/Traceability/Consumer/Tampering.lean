import Traceability.Consumer.Retrieval

/-! The tampering of the retrieval measurement. The byte it changes is the first digit of the
temperature, so the payload becomes another reading of the same device at the same time, which
no format gives away. The digest does. -/
namespace Traceability.Consumer
open Bytes Codes Merkle Generator

theorem modify_length {α : Type} (f : α → α) (pre : List α) (a : α) (post : List α) :
    (pre ++ a :: post).modify pre.length f = pre ++ f a :: post := by
  induction pre with
  | nil => rfl
  | cons b pre ih => simpa [List.modify_cons] using ih

section Text
variable (celsius : ℕ → LiteralText) (i : ℕ)

theorem sortKeys_eventDict : sortKeys (.object (eventDict celsius i)) = .object
    [("celsius", .literal (celsius i).val), ("device", .string "did:example:temp-farm-01"),
      ("ts", .literal (toString (1700000000 + i * 300 : ℤ))), ("type", .string "temperature")] := by
  have hdevice : ¬ ("device" : String) ≤ "celsius" := by decide
  have hts : ¬ ("ts" : String) ≤ "celsius" := by decide
  have htype : ¬ ("type" : String) ≤ "celsius" := by decide
  have hdeviceTs : ("device" : String) ≤ "ts" := by decide
  have htsType : ("ts" : String) ≤ "type" := by decide
  simp [eventDict, sortKeys, sortKeysFields, hdevice, hts, htype, hdeviceTs, htsType]

/-- What stands in front of the temperature. -/
def opening : List Char := openBrace :: ((quote "celsius").toList ++ [':', ' '])

/-- What follows it. -/
def closing : List Char :=
  terminated (fun field => [',', ' '] ++ fieldText field) [closeBrace]
    [("device", .string "did:example:temp-farm-01"),
      ("ts", .literal (toString (1700000000 + i * 300 : ℤ))), ("type", .string "temperature")]

theorem toList_canonicalText : (canonicalText (eventDict celsius i)).toList =
    opening ++ ((celsius i).val.toList ++ closing i) := by
  show text (sortKeys (.object (eventDict celsius i))) = _
  rw [sortKeys_eventDict, text_object]
  show openBrace :: (fieldText ("celsius", .literal (celsius i).val) ++ closing i) = _
  rw [fieldText, text_literal]
  simp [opening]

theorem length_opening : (opening.flatMap String.utf8EncodeChar).length = 12 := by
  decide +kernel

theorem event_eq : event celsius i = opening.flatMap String.utf8EncodeChar ++
    ((celsius i).val.toList.flatMap String.utf8EncodeChar ++
      (closing i).flatMap String.utf8EncodeChar) := by
  unfold event encode
  rw [toList_canonicalText, List.flatMap_append, List.flatMap_append]

end Text

section Digits
variable {d : ℕ} (hd : d < 10)
include hd

theorem xor_one_lt : d ^^^ 1 < 10 := by
  have hall : ∀ d : Fin 10, d.val ^^^ 1 < 10 := by decide
  exact hall ⟨d, hd⟩

theorem hexByte_xor_one : hexByte d ^^^ 1 = hexByte (d ^^^ 1) := by
  have hall : ∀ d : Fin 10, hexByte d ^^^ 1 = hexByte (d.val ^^^ 1) := by decide
  exact hall ⟨d, hd⟩

theorem literalChar_digitChar : LiteralChar (Nat.digitChar d) := by
  have hall : ∀ d : Fin 10, LiteralChar (Nat.digitChar d) := by decide
  exact hall ⟨d, hd⟩

/-- The number with its first digit changed. -/
theorem exists_changed {number : LiteralText} {rest : List Char}
    (hnumber : number.val.toList = Nat.digitChar d :: rest) :
    ∃ changed : LiteralText, changed.val.toList = Nat.digitChar (d ^^^ 1) :: rest := by
  have hchars : ∀ c ∈ Nat.digitChar (d ^^^ 1) :: rest, LiteralChar c := by
    intro c hc
    rcases List.mem_cons.mp hc with rfl | hc
    · exact literalChar_digitChar (xor_one_lt hd)
    · apply number.property.2
      rw [hnumber]
      exact List.mem_cons_of_mem _ hc
  refine ⟨⟨String.ofList (Nat.digitChar (d ^^^ 1) :: rest), ?_⟩, String.toList_ofList⟩
  rw [String.toList_ofList]
  exact ⟨List.cons_ne_nil _ _, hchars⟩

/-- The flipped event is the event of another temperature. -/
theorem exists_flipBit_event {celsius : ℕ → LiteralText} {i : ℕ}
    (hfirst : (celsius i).val.toList.head? = some (Nat.digitChar d)) :
    ∃ changed : LiteralText, changed ≠ celsius i ∧
      flipBit (event celsius i) 12 = some (event (Function.update celsius i changed) i) := by
  obtain ⟨rest, hnumber⟩ : ∃ rest, (celsius i).val.toList = Nat.digitChar d :: rest :=
    List.head?_eq_some_iff.mp hfirst
  obtain ⟨changed, hchanged⟩ := exists_changed hd hnumber
  have hflip : flipBit (event celsius i) 12 =
      some (event (Function.update celsius i changed) i) := by
    have hbytes : event celsius i = opening.flatMap String.utf8EncodeChar ++ hexByte d ::
        (rest.flatMap String.utf8EncodeChar ++ (closing i).flatMap String.utf8EncodeChar) := by
      rw [event_eq, hnumber, List.flatMap_cons, utf8EncodeChar_digitChar (by omega)]
      rfl
    have hbytes' : event (Function.update celsius i changed) i =
        opening.flatMap String.utf8EncodeChar ++ hexByte (d ^^^ 1) ::
          (rest.flatMap String.utf8EncodeChar ++ (closing i).flatMap String.utf8EncodeChar) := by
      have hlt := xor_one_lt hd
      rw [event_eq, Function.update_self, hchanged, List.flatMap_cons,
        utf8EncodeChar_digitChar (by omega)]
      rfl
    have hmodify := modify_length (· ^^^ (1 : UInt8)) (opening.flatMap String.utf8EncodeChar)
      (hexByte d) (rest.flatMap String.utf8EncodeChar ++
        (closing i).flatMap String.utf8EncodeChar)
    rw [length_opening, hexByte_xor_one hd] at hmodify
    rw [hbytes, hbytes', flipBit, if_pos, hmodify]
    rw [List.length_append, length_opening, List.length_cons]
    omega
  refine ⟨changed, ?_, hflip⟩
  intro heq
  rw [heq, Function.update_eq_self] at hflip
  exact flipBit_ne hflip rfl

end Digits

/-- No event of the measurement, whatever it measures, is the text of another temperature at the
time of the first. -/
theorem event_update_notMem {celsius : ℕ → LiteralText} {changed : LiteralText} (n : ℕ)
    (hchanged : changed ≠ celsius 0) :
    event (Function.update celsius 0 changed) 0 ∉ (List.range n).map (event celsius) := by
  intro hmem
  obtain ⟨i, -, heq⟩ := List.mem_map.mp hmem
  obtain rfl : i = 0 := index_eq_of_event_eq heq
  have hnumber := celsius_eq_of_event_eq heq
  rw [Function.update_self] at hnumber
  exact hchanged hnumber.symm

/-- The measurement as it runs, on `n` events. The flipped payload is the event of another
temperature at the same time, and no payload of the run. All checks come out as they should, on a
repository that addresses payloads and flipped payload without a collision, unless the digest has
one on the texts hashed. -/
theorem tampering_detected {Repo : Type} (ipfs : Ipfs Repo) (cid : Bytes → String)
    (blake2b : Bytes → Vector UInt8 32) (celsius : ℕ → LiteralText) {d n idx : ℕ} (hd : d < 10)
    (hdigit : (celsius 0).val.toList.head? = some (Nat.digitChar d))
    (hidx : idx < ((List.range n).map (event celsius)).length) (repo : Repo) :
    let h : Bytes → Bytes := fun b => (blake2b b).toList
    let payloads := (List.range n).map (event celsius)
    ∃ changed : LiteralText, changed ≠ celsius 0 ∧
      let tampered := event (Function.update celsius 0 changed) 0
      flipBit (event celsius 0) 12 = some tampered ∧ tampered ∉ payloads ∧
      (ipfs.Addresses cid (tampered :: payloads) → CollisionFree cid (tampered :: payloads) →
        ipfs.Serves cid (tampered :: payloads) [] repo →
        CollisionFree h (checkTexts h payloads hidx tampered) →
        measure ipfs h payloads idx repo = some
          { deterministic := true, distinct := true, roundtrip := n, tamperChangesCid := true,
            inclusionOk := true, tamperedRejected := true }) := by
  intro h payloads
  obtain ⟨changed, hchanged, hflip⟩ := exists_flipBit_event hd hdigit
  have hnew := event_update_notMem n hchanged
  refine ⟨changed, hchanged, hflip, hnew, fun hipfs hcids hstart hfree => ?_⟩
  have hlength : payloads.length = n := by simp [payloads]
  have hlt : idx < n := by rwa [← hlength]
  have hfirst : payloads[0]? = some (event celsius 0) := by
    have hzero : 0 < n := by omega
    simp [payloads, hzero]
  have hleaf : idx < (payloads.map h).length := by rwa [List.length_map, hlength]
  have hne : payloads.map h ≠ [] := by
    apply List.ne_nil_of_length_pos
    omega
  have hdistinct := (length_dedup_cids_iff (hcids.mono (List.subset_cons_self _ _))).mpr
    (events_nodup celsius n)
  have hcid := tamper_changes_cid hcids (List.mem_of_getElem? hfirst) hflip
  have hok := verify_payload h hidx hleaf hne
  have hother : event (Function.update celsius 0 changed) 0 ≠ payloads[idx] :=
    fun heq => hnew (heq ▸ List.getElem_mem hidx)
  have hrejected := not_verify_tampered blake2b hidx hfree hother hleaf hne
  rw [measure_eq hipfs hcids hstart h hidx hfirst hflip, hok, hrejected, decide_eq_true hdistinct,
    decide_eq_true hcid, hlength]
  rfl

theorem tampering_detected_threeEvents :
    flippedPayload ∉ threePayloads ∧
      measure (listedIpfs threeCid) (fun b => (threeBlake2b b).toList) threePayloads 1 [] = some
        { deterministic := true, distinct := true, roundtrip := 3, tamperChangesCid := true,
          inclusionOk := true, tamperedRejected := true } := by
  obtain ⟨changed, -, hflip, hnew, hmeasure⟩ := tampering_detected (listedIpfs threeCid) threeCid
    threeBlake2b threeCelsius (show 3 < 10 by omega) rfl
    one_lt_length_threePayloads []
  rw [← Option.some_inj.mp (flipBit_threePayloads.symm.trans hflip)] at hnew hmeasure
  exact ⟨hnew, hmeasure (listedIpfs_addresses _ _) threeCid_collisionFree
    (listedIpfs_serves_nil _ _) threeBlake2b_collisionFree⟩

end Traceability.Consumer
