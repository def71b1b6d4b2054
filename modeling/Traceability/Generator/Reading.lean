import Traceability.Codes.Readable
import Traceability.Generator.Json

/-! Reading JSON text back. What `json.dumps` writes for a value is read off the front of a
text: quotes, brackets and commas delimit everything but a literal, and a literal ends
where no letter of a literal follows. -/
namespace Traceability.Generator
open Codes

def mark : Char := Char.ofNat 0x22
def openBrace : Char := Char.ofNat 0x7b
def closeBrace : Char := Char.ofNat 0x7d

/-- The value of a hexadecimal digit. -/
def digitValue (c : Char) : ℕ := if c.toNat < 0x61 then c.toNat - 0x30 else c.toNat - 0x57

/-- Reads the digits of a `u` escape. -/
def readDigits : List Char → Option (ℕ × List Char)
  | a :: b :: c :: d :: s =>
    some (digitValue a * 4096 + digitValue b * 256 + digitValue c * 16 + digitValue d, s)
  | _ => none

/-- Reads what stands behind a `u`. Sixteen bits that open a surrogate pair are only half of a
character. -/
def readUnicode (s : List Char) : Option (Char × List Char) := do
  let (high, s) ← readDigits s
  if 0xd800 ≤ high ∧ high < 0xdc00 then
    let (low, s) ← readDigits (s.drop 2)
    some (Char.ofNat (0x10000 + (high - 0xd800) * 0x400 + (low - 0xdc00)), s)
  else some (Char.ofNat high, s)

/-- Reads what stands behind a backslash. -/
def readEscape : List Char → Option (Char × List Char)
  | 'u' :: s => readUnicode s
  | 'b' :: s => some (Char.ofNat 0x08, s)
  | 't' :: s => some (Char.ofNat 0x09, s)
  | 'n' :: s => some (Char.ofNat 0x0a, s)
  | 'f' :: s => some (Char.ofNat 0x0c, s)
  | 'r' :: s => some (Char.ofNat 0x0d, s)
  | c :: s => some (c, s)
  | [] => none

/-- Reads one character of a string literal, the inverse of `escapeChar`. -/
def readChar : List Char → Option (Char × List Char)
  | c :: s => if c = backslash then readEscape s else some (c, s)
  | [] => none

theorem digitValue_digitChar {n : ℕ} (h : n < 16) : digitValue (Nat.digitChar n) = n := by
  have hall : ∀ n : Fin 16, digitValue (Nat.digitChar n) = n := by decide
  exact hall ⟨n, h⟩

theorem readDigits_digits {n : ℕ} (h : n < 0x10000) (s : List Char) :
    readDigits (([n / 4096, n / 256, n / 16, n].map fun d => Nat.digitChar (d % 16)) ++ s) =
      some (n, s) := by
  simp only [List.map_cons, List.map_nil, List.cons_append, List.nil_append, readDigits]
  rw [digitValue_digitChar (by omega), digitValue_digitChar (by omega),
    digitValue_digitChar (by omega), digitValue_digitChar (by omega)]
  congr 2
  omega

theorem readChar_bmp {n : ℕ} (h : n < 0x10000) (hhigh : ¬ (0xd800 ≤ n ∧ n < 0xdc00))
    (s : List Char) : readChar (unicodeEscape n ++ s) = some (Char.ofNat n, s) := by
  show readUnicode (([n / 4096, n / 256, n / 16, n].map fun d => Nat.digitChar (d % 16)) ++ s) = _
  simp only [readUnicode, readDigits_digits h, Option.bind_eq_bind, Option.bind_some]
  exact if_neg hhigh

theorem readChar_pair {high low : ℕ} (hhigh : 0xd800 ≤ high ∧ high < 0xdc00)
    (hlow : low < 0x10000) (s : List Char) :
    readChar (unicodeEscape high ++ unicodeEscape low ++ s) =
      some (Char.ofNat (0x10000 + (high - 0xd800) * 0x400 + (low - 0xdc00)), s) := by
  rw [List.append_assoc]
  show readUnicode (([high / 4096, high / 256, high / 16, high].map
    fun d => Nat.digitChar (d % 16)) ++ (unicodeEscape low ++ s)) = _
  have hdrop : (unicodeEscape low ++ s).drop 2 =
      ([low / 4096, low / 256, low / 16, low].map fun d => Nat.digitChar (d % 16)) ++ s := rfl
  simp only [readUnicode, readDigits_digits (show high < 0x10000 by omega), hdrop,
    readDigits_digits hlow, Option.bind_eq_bind, Option.bind_some]
  exact if_pos hhigh

theorem readChar_escapeChar (c : Char) (s : List Char) :
    readChar (escapeChar c ++ s) = some (c, s) := by
  have hc : Char.ofNat c.toNat = c := Char.ofNat_toNat c
  have hvalid : c.toNat < 0xd800 ∨ 0xdfff < c.toNat ∧ c.toNat < 0x110000 := c.valid
  have hshort (d : Char) (hd : d ≠ backslash) : readChar (d :: s) = some (d, s) := if_neg hd
  unfold escapeChar
  split
  case h_8 _ _ hslash _ _ _ _ _ =>
    split_ifs with hprintable hbmp
    · apply hshort
      intro h
      exact hslash (by rw [h]; rfl)
    · rw [readChar_bmp hbmp (by omega), hc]
    · rw [readChar_pair (by omega) (by omega)]
      have hnat : 0x10000 + (0xd800 + (c.toNat - 0x10000) / 0x400 - 0xd800) * 0x400 +
          (0xdc00 + (c.toNat - 0x10000) % 0x400 - 0xdc00) = c.toNat := by omega
      rw [hnat, hc]
  all_goals
    rename_i h
    rw [← hc, h]
    rfl

/-- No character's escape looks like the end of the string. -/
theorem escapeChar_ne_mark (c : Char) (s t : List Char) : escapeChar c ++ s ≠ [mark] ++ t := by
  intro h
  have hread := readChar_escapeChar c s
  rw [h] at hread
  obtain ⟨rfl, rfl⟩ : mark = c ∧ t = s := by simpa [readChar, mark, backslash] using hread
  exact absurd h (by simp [escapeChar, mark, backslash])

theorem toList_quote (s : String) :
    (quote s).toList = mark :: terminated escapeChar [mark] s.toList := by
  simp [quote, terminated, mark]

/-- The characters of numbers, `true`, `false`, `null` and the special floats. -/
def LiteralChar (c : Char) : Prop := c.isAlphanum ∨ c = '+' ∨ c = '-' ∨ c = '.'

instance : DecidablePred LiteralChar := fun _ => inferInstanceAs (Decidable (_ ∨ _ ∨ _ ∨ _))

theorem literalChars_of_all {l : List Char} (h : l.all (fun c => decide (LiteralChar c)) = true) :
    ∀ c ∈ l, LiteralChar c :=
  fun c hc => of_decide_eq_true (List.all_eq_true.mp h c hc)

/-- What Python can hand to `json.dumps`: a literal is written in the characters of a literal,
and a dictionary has each key once. -/
inductive Json.Valid : Json → Prop
  | literal (text : String) (nonempty : text.toList ≠ [])
      (letters : ∀ c ∈ text.toList, LiteralChar c) : Valid (.literal text)
  | string (value : String) : Valid (.string value)
  | array (items : List Json) (valid : ∀ item ∈ items, Valid item) : Valid (.array items)
  | object (fields : List (String × Json)) (valid : ∀ field ∈ fields, Valid field.2)
      (keys : (fields.map Prod.fst).Nodup) : Valid (.object fields)

/-- The characters that `dumps` writes. -/
def text (v : Json) : List Char := (dumps v).toList

def fieldText (field : String × Json) : List Char :=
  (quote field.1).toList ++ (':' :: ' ' :: text field.2)

/-- Joined texts and a closing one are a separated list. -/
theorem intercalate_append {α : Type} (separator close : List Char) (code : α → List Char)
    (as : List α) :
    separator.intercalate (as.map code) ++ close = separated separator code close as := by
  cases as with
  | nil => simp [separated]
  | cons a as =>
    induction as generalizing a with
    | nil => simp [separated, terminated]
    | cons b as ih =>
      have hrest := ih b
      simp only [List.map_cons, separated, terminated_cons] at hrest ⊢
      rw [List.intercalate_cons_cons, List.append_assoc, hrest, List.append_assoc,
        List.append_assoc]

theorem map_toList_dumpsItems (items : List Json) :
    (dumpsItems items).map String.toList = items.map text := by
  induction items with
  | nil => rfl
  | cons item items ih => rw [dumpsItems, List.map_cons, ih, List.map_cons, text]

theorem map_toList_dumpsFields (fields : List (String × Json)) :
    (dumpsFields fields).map String.toList = fields.map fieldText := by
  induction fields with
  | nil => rfl
  | cons field fields ih =>
    rw [dumpsFields, List.map_cons, ih, List.map_cons]
    simp [fieldText, text]

theorem text_literal (l : String) : text (.literal l) = l.toList := by
  rw [text, dumps]

theorem text_string (value : String) :
    text (.string value) = mark :: terminated escapeChar [mark] value.toList := by
  rw [text, dumps, toList_quote]

theorem text_array (items : List Json) :
    text (.array items) = '[' :: separated [',', ' '] text [']'] items := by
  rw [text, dumps, ← intercalate_append, ← map_toList_dumpsItems]
  simp

theorem text_object (fields : List (String × Json)) :
    text (.object fields) = openBrace :: separated [',', ' '] fieldText [closeBrace] fields := by
  rw [text, dumps, ← intercalate_append, ← map_toList_dumpsFields]
  simp only [String.toList_append, String.toList_intercalate]
  rfl

inductive Kind where
  | literal
  | string
  | array
  | object
  deriving DecidableEq

def Json.kind : Json → Kind
  | .literal _ => .literal
  | .string _ => .string
  | .array _ => .array
  | .object _ => .object

/-- What kind of value a first character announces. -/
def kindOf (c : Char) : Option Kind :=
  if LiteralChar c then some .literal
  else if c = mark then some .string
  else if c = '[' then some .array
  else if c = openBrace then some .object
  else none

theorem exists_text_cons {v : Json} (hv : v.Valid) :
    ∃ c rest, text v = c :: rest ∧ kindOf c = some v.kind := by
  cases hv with
  | literal l hnonempty hchars =>
    obtain ⟨c, rest, hl⟩ := List.exists_cons_of_ne_nil hnonempty
    exact ⟨c, rest, (text_literal l).trans hl, if_pos (hchars c (by simp [hl]))⟩
  | string value => exact ⟨_, _, text_string value, show kindOf mark = some .string by decide⟩
  | array items _ => exact ⟨_, _, text_array items, show kindOf '[' = some .array by decide⟩
  | object fields _ _ =>
    exact ⟨_, _, text_object fields, show kindOf openBrace = some .object by decide⟩

/-- Texts that go on alike are texts of one kind of value. -/
theorem kind_eq {v w : Json} (hv : v.Valid) (hw : w.Valid) {s t : List Char}
    (h : text v ++ s = text w ++ t) : v.kind = w.kind := by
  obtain ⟨c, rest, hvc, hc⟩ := exists_text_cons hv
  obtain ⟨d, rest', hwd, hd⟩ := exists_text_cons hw
  rw [hvc, hwd] at h
  obtain rfl : c = d := (List.cons.inj h).1
  exact Option.some_inj.mp (hc.symm.trans hd)

/-- No value starts like the end of a list or of a dictionary. -/
theorem text_ne_close {v : Json} (hv : v.Valid) {c : Char} (hc : kindOf c = none)
    (s t : List Char) : text v ++ s ≠ [c] ++ t := by
  obtain ⟨d, rest, hvd, hd⟩ := exists_text_cons hv
  rw [hvd]
  intro h
  obtain rfl : d = c := (List.cons.inj h).1
  rw [hc] at hd
  cases hd

/-- A literal goes on as long as characters of literals do. -/
def EndsLiteral (s : List Char) : Prop := ∀ c, s.head? = some c → ¬ LiteralChar c

theorem endsLiteral_cons {c : Char} (hc : ¬ LiteralChar c) (s : List Char) :
    EndsLiteral (c :: s) := by
  intro d hd
  rwa [← Option.some_inj.mp hd]

theorem endsLiteral_terminated {α : Type} {code : α → List Char} {c : Char}
    (hc : ¬ LiteralChar c) (as : List α) (s : List Char) :
    EndsLiteral (terminated (fun a => [',', ' '] ++ code a) [c] as ++ s) := by
  cases as with
  | nil => exact endsLiteral_cons hc s
  | cons a as =>
    rw [terminated_cons]
    exact endsLiteral_cons (by decide) _

/-- A quoted string is read off, whatever follows. -/
theorem readsOff_quoted (valid : List Char → Prop) (l : List Char) :
    ReadsOff (terminated escapeChar [mark]) valid anything l := by
  intro l' s t _ _ _ heq
  have hread : ReadsOff (terminated escapeChar [mark]) (fun l => ∀ c ∈ l, True) anything l :=
    .terminated (fun _ _ => trivial) (fun c s t _ => escapeChar_ne_mark c s t)
      (fun _ _ => trivial) (fun c _ => readsOff_of_read readChar readChar_escapeChar c)
  exact hread l' s t (fun _ _ => trivial) trivial trivial heq

theorem readsOff_quote (value : String) :
    ReadsOff (fun v => (quote v).toList) (fun _ => True) anything value := by
  intro value' s t _ _ _ heq
  simp only [toList_quote] at heq
  obtain ⟨hvalue, rfl⟩ := readsOff_quoted (fun _ => True) value.toList value'.toList s t
    trivial trivial trivial (List.cons.inj heq).2
  exact ⟨String.toList_inj.mp hvalue, rfl⟩

/-- Every value is read off its text: by its first character it is a literal, which a foreign
character ends, or it is delimited. -/
theorem readsOff_text {v : Json} (hv : v.Valid) : ReadsOff text Json.Valid EndsLiteral v := by
  induction hv with
  | literal l hnonempty hchars =>
    intro w s t hw hs ht heq
    have hkind := kind_eq (.literal l hnonempty hchars) hw heq
    cases hw with
    | literal l' hnonempty' hchars' =>
      rw [text_literal, text_literal] at heq
      obtain ⟨hl, rfl⟩ := readsOff_run hchars l'.toList s t hchars' hs ht heq
      exact ⟨congrArg Json.literal (String.toList_inj.mp hl), rfl⟩
    | string value => cases hkind
    | array items _ => cases hkind
    | object fields _ _ => cases hkind
  | string value =>
    intro w s t hw hs ht heq
    have hkind := kind_eq (.string value) hw heq
    cases hw with
    | literal l' hnonempty' hchars' => cases hkind
    | string value' =>
      rw [text_string, text_string] at heq
      obtain ⟨hvalue, rfl⟩ := readsOff_quoted (fun _ => True) value.toList value'.toList
        s t trivial trivial trivial (List.cons.inj heq).2
      exact ⟨congrArg Json.string (String.toList_inj.mp hvalue), rfl⟩
    | array items _ => cases hkind
    | object fields _ _ => cases hkind
  | array items hitems ih =>
    intro w s t hw hs ht heq
    have hkind := kind_eq (.array items hitems) hw heq
    cases hw with
    | literal l' hnonempty' hchars' => cases hkind
    | string value' => cases hkind
    | array items' hitems' =>
      rw [text_array, text_array] at heq
      have hread : ReadsOff (separated [',', ' '] text [']']) (fun as => ∀ a ∈ as, a.Valid)
          anything items :=
        .separated (endsLiteral_terminated (by decide))
          (fun v s t hv => text_ne_close hv (by decide) s t)
          (fun s t h => absurd (List.cons.inj h).1 (by decide)) hitems ih
      obtain ⟨rfl, rfl⟩ := hread items' s t hitems' trivial trivial (List.cons.inj heq).2
      exact ⟨rfl, rfl⟩
    | object fields _ _ => cases hkind
  | object fields hfields hkeys ih =>
    intro w s t hw hs ht heq
    have hkind := kind_eq (.object fields hfields hkeys) hw heq
    cases hw with
    | literal l' hnonempty' hchars' => cases hkind
    | string value' => cases hkind
    | array items' hitems' => cases hkind
    | object fields' hfields' hkeys' =>
      rw [text_object, text_object] at heq
      have hfield : ∀ f ∈ fields, ReadsOff fieldText (fun f => f.2.Valid) EndsLiteral f := by
        intro f hf g s t hg hs ht heq
        have hpair := (readsOff_quote f.1).prod ((ih f hf).append_left [':', ' '])
          fun _ _ => trivial
        exact hpair g s t ⟨trivial, hg⟩ hs ht heq
      have hread : ReadsOff (separated [',', ' '] fieldText [closeBrace])
          (fun as => ∀ f ∈ as, f.2.Valid) anything fields :=
        .separated (endsLiteral_terminated (by decide))
          (fun f s t _ h => by
            rw [fieldText, toList_quote] at h
            exact absurd (List.cons.inj h).1 (by decide))
          (fun s t h => absurd (List.cons.inj h).1 (by decide)) hfields hfield
      obtain ⟨rfl, rfl⟩ := hread fields' s t hfields' trivial trivial (List.cons.inj heq).2
      exact ⟨rfl, rfl⟩

theorem endsLiteral_nil : EndsLiteral [] := fun _ h => by cases h

/-- JSON text is unambiguous. Two values whose texts go on alike, with a character after each
literal that is not one of a literal, are one value, and what follows them is the same. -/
theorem dumps_unambiguous {v w : Json} (hv : v.Valid) (hw : w.Valid) {s t : List Char}
    (hs : EndsLiteral s) (ht : EndsLiteral t)
    (h : (dumps v).toList ++ s = (dumps w).toList ++ t) : v = w ∧ s = t :=
  readsOff_text hv w s t hw hs ht h

/-- A reading in a list of readings, with a unit whose text is escaped. -/
def nestedReading : Json :=
  .object [("unit", .string "°C\n"),
    ("values", .array [.literal "3.5", .object [("valid", .literal "true")]])]

theorem valid_nestedReading : nestedReading.Valid := by
  have hnumber : (Json.literal "3.5").Valid :=
    .literal _ (by decide) (literalChars_of_all (by decide))
  have htrue : (Json.literal "true").Valid :=
    .literal _ (by decide) (literalChars_of_all (by decide))
  have hflag : (Json.object [("valid", .literal "true")]).Valid :=
    .object _ (by simpa using htrue) (by simp)
  have hvalues : (Json.array [.literal "3.5", .object [("valid", .literal "true")]]).Valid :=
    .array _ (by simpa using ⟨hnumber, hflag⟩)
  exact .object _ (by simpa using ⟨.string _, hvalues⟩) (by simp)

/-- The text of the reading in front of a comma, read with the escape of the degree sign. -/
theorem dumps_unambiguous_nestedReading :
    nestedReading = .object [("unit", .string (String.ofList [Char.ofNat 0xb0, 'C', Char.ofNat 10])),
      ("values", .array [.literal "3.5", .object [("valid", .literal "true")]])] ∧
    [','] = [','] := by
  have hends : EndsLiteral [','] := endsLiteral_cons (by decide) []
  exact dumps_unambiguous valid_nestedReading valid_nestedReading hends hends rfl

end Traceability.Generator
