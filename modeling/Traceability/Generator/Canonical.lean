import Traceability.Generator.Reading
import Traceability.Generator.Commitment
import Mathlib.Data.List.Sort

/-! Canonical text. `sort_keys` forgets the order in which the fields of a dictionary were
inserted, at every depth, and nothing else: two values have one canonical text exactly when
they hold the same data. -/
namespace Traceability.Generator
open Bytes

/-- Two values that differ in the order of fields only, at any depth. -/
inductive SameData : Json → Json → Prop
  | literal (text : String) : SameData (.literal text) (.literal text)
  | string (value : String) : SameData (.string value) (.string value)
  | emptyArray : SameData (.array []) (.array [])
  | item {v w : Json} {vs ws : List Json} (head : SameData v w)
      (tail : SameData (.array vs) (.array ws)) : SameData (.array (v :: vs)) (.array (w :: ws))
  | emptyObject : SameData (.object []) (.object [])
  | field {key : String} {v w : Json} {fs gs gs' : List (String × Json)} (head : SameData v w)
      (tail : SameData (.object fs) (.object (gs ++ gs'))) :
      SameData (.object ((key, v) :: fs)) (.object (gs ++ (key, w) :: gs'))

/-- Fields in the same order. -/
theorem SameData.first {key : String} {v w : Json} {fs gs : List (String × Json)}
    (head : SameData v w) (tail : SameData (.object fs) (.object gs)) :
    SameData (.object ((key, v) :: fs)) (.object ((key, w) :: gs)) := by
  show SameData (.object ((key, v) :: fs)) (.object ([] ++ (key, w) :: gs))
  exact .field head tail

theorem sortKeysItems_eq_map (items : List Json) : sortKeysItems items = items.map sortKeys := by
  induction items with
  | nil => rfl
  | cons item items ih => rw [sortKeysItems, ih, List.map_cons]

/-- A field with its value sorted. -/
def sortField (field : String × Json) : String × Json := (field.1, sortKeys field.2)

theorem sortKeysFields_eq_map (fields : List (String × Json)) :
    sortKeysFields fields = fields.map sortField := by
  induction fields with
  | nil => rfl
  | cons field fields ih => rw [sortKeysFields, ih, List.map_cons]; rfl

theorem map_fst_sortField (fields : List (String × Json)) :
    (fields.map sortField).map Prod.fst = fields.map Prod.fst := by
  rw [List.map_map]
  rfl

/-- The order of `sort_keys`. -/
abbrev keyLE (p q : String × Json) : Prop := p.1 ≤ q.1

instance : Std.Total keyLE := ⟨fun p q => le_total p.1 q.1⟩

instance : IsTrans (String × Json) keyLE := ⟨fun _ _ _ => le_trans⟩

/-- Fields with distinct keys have one sorted order. -/
theorem insertionSort_eq_iff {fs gs : List (String × Json)} (hf : (fs.map Prod.fst).Nodup) :
    fs.insertionSort keyLE = gs.insertionSort keyLE ↔ fs.Perm gs := by
  have hsort := List.perm_insertionSort keyLE
  constructor
  · intro h
    have hperm := (hsort fs).symm
    rw [h] at hperm
    exact hperm.trans (hsort gs)
  · intro h
    have hperm := ((hsort fs).trans h).trans (hsort gs).symm
    refine hperm.eq_of_pairwise ?_ (List.pairwise_insertionSort keyLE fs)
      (List.pairwise_insertionSort keyLE gs)
    intro p q hp hq hpq hqp
    have hp' : p ∈ fs := (hsort fs).subset hp
    have hq' : q ∈ fs := h.symm.subset ((hsort gs).subset hq)
    exact List.inj_on_of_nodup_map hf hp' hq' (le_antisymm hpq hqp)

theorem sortKeys_array (items : List Json) :
    sortKeys (.array items) = .array (items.map sortKeys) := by
  rw [sortKeys, sortKeysItems_eq_map]

theorem sortKeys_object (fields : List (String × Json)) :
    sortKeys (.object fields) = .object ((fields.map sortField).insertionSort keyLE) := by
  rw [sortKeys, sortKeysFields_eq_map]

/-- Sorting a dictionary keeps which keys it has, with which values. -/
theorem sortKeys_object_eq_iff {fs gs : List (String × Json)} (hf : (fs.map Prod.fst).Nodup) :
    sortKeys (.object fs) = sortKeys (.object gs) ↔
      (fs.map sortField).Perm (gs.map sortField) := by
  rw [sortKeys_object, sortKeys_object, Json.object.injEq,
    insertionSort_eq_iff (by rwa [map_fst_sortField])]

theorem valid_sortKeys {v : Json} (hv : v.Valid) : (sortKeys v).Valid := by
  induction hv with
  | literal text hnonempty hletters =>
    rw [sortKeys]
    exact .literal text hnonempty hletters
  | string value =>
    rw [sortKeys]
    exact .string value
  | array items _ ih =>
    rw [sortKeys_array]
    apply Json.Valid.array
    intro item hitem
    obtain ⟨v, hv, rfl⟩ := List.mem_map.mp hitem
    exact ih v hv
  | object fields _ hkeys ih =>
    have hsort := List.perm_insertionSort keyLE (fields.map sortField)
    rw [sortKeys_object]
    apply Json.Valid.object
    · intro field hfield
      obtain ⟨f, hf, rfl⟩ := List.mem_map.mp (hsort.subset hfield)
      exact ih f hf
    · rw [(hsort.map Prod.fst).nodup_iff, map_fst_sortField]
      exact hkeys

/-- Sorted alike, a list of items is the same item by item. -/
theorem sameData_array {vs ws : List Json}
    (h : ∀ v ∈ vs, ∀ w, sortKeys v = sortKeys w → SameData v w)
    (heq : vs.map sortKeys = ws.map sortKeys) : SameData (.array vs) (.array ws) := by
  induction vs generalizing ws with
  | nil =>
    obtain rfl : ws = [] := List.map_eq_nil_iff.mp heq.symm
    exact .emptyArray
  | cons v vs ih =>
    cases ws with
    | nil => cases heq
    | cons w ws =>
      obtain ⟨hhead, htail⟩ := List.cons.inj heq
      exact .item (h v List.mem_cons_self w hhead)
        (ih (fun v hv => h v (List.mem_cons_of_mem _ hv)) htail)

/-- Sorted alike, a field of one dictionary is somewhere in the other. -/
theorem sameData_object {fs gs : List (String × Json)}
    (h : ∀ f ∈ fs, ∀ w, sortKeys f.2 = sortKeys w → SameData f.2 w)
    (hperm : (fs.map sortField).Perm (gs.map sortField)) :
    SameData (.object fs) (.object gs) := by
  induction fs generalizing gs with
  | nil =>
    obtain rfl : gs = [] := List.map_eq_nil_iff.mp hperm.symm.eq_nil
    exact .emptyObject
  | cons f fs ih =>
    obtain ⟨key, v⟩ := f
    obtain ⟨⟨key', w⟩, hw, heq⟩ := List.mem_map.mp (hperm.subset List.mem_cons_self)
    obtain ⟨rfl, hvalue⟩ := Prod.mk.inj heq
    obtain ⟨front, back, rfl⟩ := List.append_of_mem hw
    refine .field (h _ List.mem_cons_self w hvalue.symm)
      (ih (fun f hf => h f (List.mem_cons_of_mem _ hf)) ?_)
    rw [List.map_cons, List.map_append, List.map_cons, heq] at hperm
    rw [List.map_append]
    exact (hperm.trans List.perm_middle).cons_inv

theorem sameData_of_sortKeys_eq {v w : Json} (hv : v.Valid) (h : sortKeys v = sortKeys w) :
    SameData v w := by
  induction hv generalizing w with
  | literal text _ _ =>
    cases w with
    | literal text' =>
      rw [sortKeys, sortKeys] at h
      rw [h]
      exact .literal text'
    | string value => simp [sortKeys] at h
    | array items => simp [sortKeys] at h
    | object fields => simp [sortKeys] at h
  | string value =>
    cases w with
    | literal text => simp [sortKeys] at h
    | string value' =>
      rw [sortKeys, sortKeys] at h
      rw [h]
      exact .string value'
    | array items => simp [sortKeys] at h
    | object fields => simp [sortKeys] at h
  | array items _ ih =>
    cases w with
    | literal text => simp [sortKeys] at h
    | string value => simp [sortKeys] at h
    | array items' =>
      rw [sortKeys_array, sortKeys_array, Json.array.injEq] at h
      exact sameData_array (fun v hv w heq => ih v hv heq) h
    | object fields => simp [sortKeys] at h
  | object fields _ hkeys ih =>
    cases w with
    | literal text => simp [sortKeys] at h
    | string value => simp [sortKeys] at h
    | array items => simp [sortKeys] at h
    | object fields' =>
      exact sameData_object (fun f hf w heq => ih f hf heq) ((sortKeys_object_eq_iff hkeys).mp h)

theorem sortKeys_eq_of_sameData {v w : Json} (h : SameData v w) (hv : v.Valid) :
    sortKeys v = sortKeys w := by
  induction h with
  | literal text => rfl
  | string value => rfl
  | emptyArray => rfl
  | item _ _ ihhead ihtail =>
    cases hv with
    | array _ hitems =>
      have htail := ihtail (.array _ fun v hv => hitems v (List.mem_cons_of_mem _ hv))
      rw [sortKeys_array, sortKeys_array, Json.array.injEq] at htail ⊢
      rw [List.map_cons, List.map_cons, ihhead (hitems _ List.mem_cons_self), htail]
  | emptyObject => rfl
  | @field key v w fs gs gs' _ _ ihhead ihtail =>
    cases hv with
    | object _ hfields hkeys =>
      have hkeys' : (fs.map Prod.fst).Nodup := (List.nodup_cons.mp hkeys).2
      have htail := (sortKeys_object_eq_iff hkeys').mp
        (ihtail (.object _ (fun f hf => hfields f (List.mem_cons_of_mem _ hf)) hkeys'))
      have hhead : sortField (key, v) = sortField (key, w) :=
        congrArg (Prod.mk key) (ihhead (hfields (key, v) List.mem_cons_self))
      rw [sortKeys_object_eq_iff hkeys, List.map_cons, List.map_append, List.map_cons, hhead]
      rw [List.map_append] at htail
      exact (htail.cons _).trans List.perm_middle.symm

theorem sortKeys_eq_of_canonicalText_eq {e e' : Dict} (he : (Json.object e).Valid)
    (he' : (Json.object e').Valid) (h : canonicalText e = canonicalText e') :
    sortKeys (.object e) = sortKeys (.object e') :=
  (readsOff_text (valid_sortKeys he)).eq_of_code_eq endsLiteral_nil (valid_sortKeys he')
    (congrArg String.toList h)

/-- Canonical text is complete for data. Two dictionaries, nested ones included, have the same
canonical text exactly when they differ in the order of their fields only. -/
theorem canonicalText_eq_iff {e e' : Dict} (he : (Json.object e).Valid)
    (he' : (Json.object e').Valid) :
    canonicalText e = canonicalText e' ↔ SameData (.object e) (.object e') := by
  constructor
  · intro h
    exact sameData_of_sortKeys_eq he (sortKeys_eq_of_canonicalText_eq he he' h)
  · intro h
    unfold canonicalText
    rw [sortKeys_eq_of_sameData h he]

theorem valid_sampleEvent (deviceId : String) : (Json.object (sampleEvent deviceId)).Valid := by
  refine .object _ ?_ (by simp [sampleEvent])
  intro field hfield
  rcases List.mem_pair.mp hfield with rfl | rfl
  · exact .literal _ (by decide) (literalChars_of_all (by decide))
  · exact .string _

theorem valid_sampleEvent_reverse (deviceId : String) :
    (Json.object (sampleEvent deviceId).reverse).Valid := by
  refine .object _ ?_ (by simp [sampleEvent])
  intro field hfield
  rcases List.mem_pair.mp hfield with rfl | rfl
  · exact .string _
  · exact .literal _ (by decide) (literalChars_of_all (by decide))

/-- A device that records its own name first. -/
theorem sameData_sampleEvent_reverse (deviceId : String) :
    SameData (.object (sampleEvent deviceId)) (.object (sampleEvent deviceId).reverse) := by
  have hid : SameData (.object [("device_id", .string deviceId)])
      (.object ([] ++ ("device_id", .string deviceId) :: [])) := .field (.string _) .emptyObject
  have hboth : SameData (.object (sampleEvent deviceId))
      (.object ([("device_id", .string deviceId)] ++
        ("timestamp", .literal "1700000000") :: [])) := .field (.literal _) hid
  exact hboth

theorem canonicalText_eq_iff_sampleEvent :
    canonicalText (sampleEvent "farm-temp-001") =
      canonicalText (sampleEvent "farm-temp-001").reverse :=
  (canonicalText_eq_iff (valid_sampleEvent _) (valid_sampleEvent_reverse _)).mpr
    (sameData_sampleEvent_reverse _)

section Roots
variable {blake2b : Bytes → Digest} {xs ys : List Dict}

/-- The same data event by event. -/
abbrev SameEvents : List Dict → List Dict → Prop :=
  List.Forall₂ fun e e' => SameData (.object e) (.object e')

theorem map_canonicalText_eq_of_sameEvents (hxs : ∀ e ∈ xs, (Json.object e).Valid)
    (h : SameEvents xs ys) : xs.map canonicalText = ys.map canonicalText := by
  induction h with
  | nil => rfl
  | cons hhead _ ih =>
    have hsorted := sortKeys_eq_of_sameData hhead (hxs _ List.mem_cons_self)
    rw [List.map_cons, List.map_cons, ih fun e he => hxs e (List.mem_cons_of_mem _ he)]
    unfold canonicalText
    rw [hsorted]

theorem sameEvents_of_map_canonicalText_eq (hxs : ∀ e ∈ xs, (Json.object e).Valid)
    (hys : ∀ e ∈ ys, (Json.object e).Valid) (h : xs.map canonicalText = ys.map canonicalText) :
    SameEvents xs ys := by
  induction xs generalizing ys with
  | nil =>
    obtain rfl : ys = [] := List.map_eq_nil_iff.mp h.symm
    exact .nil
  | cons x xs ih =>
    cases ys with
    | nil => cases h
    | cons y ys =>
      obtain ⟨hhead, htail⟩ := List.cons.inj h
      have hx := hxs x List.mem_cons_self
      have hsorted := sortKeys_eq_of_canonicalText_eq hx (hys y List.mem_cons_self) hhead
      exact .cons (sameData_of_sortKeys_eq hx hsorted)
        (ih (fun e he => hxs e (List.mem_cons_of_mem _ he))
          (fun e he => hys e (List.mem_cons_of_mem _ he)) htail)

/-- Canonical texts are all that is hashed of the events. -/
theorem buildMerkleTree_congr (h : xs.map canonicalText = ys.map canonicalText) :
    buildMerkleTree (blake2bHashing blake2b) xs = buildMerkleTree (blake2bHashing blake2b) ys := by
  have hhashes : xs.map (hashEvent blake2b) = ys.map (hashEvent blake2b) := by
    have hmap (es : List Dict) : es.map (hashEvent blake2b) =
        (es.map canonicalText).map fun text => hexdigest (blake2b (encode text)) := by
      rw [List.map_map]
      rfl
    rw [hmap, hmap, h]
  unfold buildMerkleTree
  by_cases hx : xs = []
  · obtain rfl : ys = [] := by simpa [hx] using h
    rw [hx]
  · have hy : ys ≠ [] := by
      rintro rfl
      exact hx (by simpa using h)
    rw [dif_neg hx, dif_neg hy]
    congr 1

section Valid
variable (hxs : ∀ e ∈ xs, (Json.object e).Valid)
include hxs

theorem root_eq_of_sameEvents (h : SameEvents xs ys) :
    buildMerkleTree (blake2bHashing blake2b) xs = buildMerkleTree (blake2bHashing blake2b) ys :=
  buildMerkleTree_congr (map_canonicalText_eq_of_sameEvents hxs h)

theorem sameEvents_of_root_eq (hys : ∀ e ∈ ys, (Json.object e).Valid)
    (hfree : Merkle.CollisionFree blake2b (hashedTexts blake2b xs ++ hashedTexts blake2b ys))
    (hroot : buildMerkleTree (blake2bHashing blake2b) xs =
      buildMerkleTree (blake2bHashing blake2b) ys)
    (hlen : xs.length = ys.length) : SameEvents xs ys := by
  by_cases hx : xs = []
  · subst hx
    obtain rfl : ys = [] := List.length_eq_zero_iff.mp hlen.symm
    exact .nil
  · have hy : ys ≠ [] := by
      rintro rfl
      exact hx (List.length_eq_zero_iff.mp hlen)
    have hpadded := (root_eq_iff_padded_eq hx hy hfree).mp hroot
    have hstart := prefix_map_padded hx
    rw [hpadded] at hstart
    exact sameEvents_of_map_canonicalText_eq hxs hys (eq_of_prefix_padded hy hstart hlen)

end Valid

/-- The root and the number of events determine the data of every event. Two lists of one
length have one root exactly when their events differ in the order of fields only. -/
theorem root_and_count_determine_data (hxs : ∀ e ∈ xs, (Json.object e).Valid)
    (hys : ∀ e ∈ ys, (Json.object e).Valid)
    (hfree : Merkle.CollisionFree blake2b (hashedTexts blake2b xs ++ hashedTexts blake2b ys)) :
    buildMerkleTree (blake2bHashing blake2b) xs = buildMerkleTree (blake2bHashing blake2b) ys ∧
        xs.length = ys.length ↔ SameEvents xs ys :=
  ⟨fun h => sameEvents_of_root_eq hxs hys hfree h.1 h.2,
    fun h => ⟨root_eq_of_sameEvents hxs h, h.length_eq⟩⟩

end Roots

/-- Three events whose fields come in the other order. -/
def reversedEvents : List Dict := threeEvents.map List.reverse

theorem sameEvents_reversedEvents : SameEvents threeEvents reversedEvents := by
  unfold reversedEvents threeEvents
  exact .cons (sameData_sampleEvent_reverse _) (.cons (sameData_sampleEvent_reverse _)
    (.cons (sameData_sampleEvent_reverse _) .nil))

theorem valid_threeEvents : ∀ e ∈ threeEvents, (Json.object e).Valid := by
  intro e he
  simp only [threeEvents, List.mem_cons, List.not_mem_nil, or_false] at he
  rcases he with rfl | rfl | rfl
  all_goals exact valid_sampleEvent _

theorem valid_reversedEvents : ∀ e ∈ reversedEvents, (Json.object e).Valid := by
  intro e he
  simp only [reversedEvents, threeEvents, List.map_cons, List.map_nil, List.mem_cons,
    List.not_mem_nil, or_false] at he
  rcases he with rfl | rfl | rfl
  all_goals exact valid_sampleEvent_reverse _

theorem hashedTexts_reversedEvents :
    hashedTexts sampleBlake2b reversedEvents = hashedTexts sampleBlake2b threeEvents := by
  have htexts := map_canonicalText_eq_of_sameEvents valid_threeEvents sameEvents_reversedEvents
  have hencoded := map_canonicalText_eq_iff.mpr htexts
  have hne : reversedEvents ≠ [] := by simp [reversedEvents, threeEvents]
  unfold hashedTexts textTree
  rw [dif_neg hne, dif_neg threeEvents_ne_nil]
  simp only [hencoded]

theorem root_and_count_determine_data_reversedEvents :
    buildMerkleTree (blake2bHashing sampleBlake2b) threeEvents =
      buildMerkleTree (blake2bHashing sampleBlake2b) reversedEvents := by
  have hfree : Merkle.CollisionFree sampleBlake2b
      (hashedTexts sampleBlake2b threeEvents ++ hashedTexts sampleBlake2b reversedEvents) := by
    rw [hashedTexts_reversedEvents, hashedTexts_threeEvents]
    exact sampleBlake2b_collisionFree.mono fun u hu => by simpa using Or.inr hu
  exact ((root_and_count_determine_data valid_threeEvents valid_reversedEvents hfree).mpr
    sameEvents_reversedEvents).1

end Traceability.Generator
