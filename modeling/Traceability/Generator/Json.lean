import Traceability.Bytes.Text
import Mathlib.Data.List.Sort
import Mathlib.Data.String.Basic

/-! JSON values and the text that `json.dumps` writes for them. -/
namespace Traceability.Generator
open Bytes

/-- A JSON value. A number, `true`, `false` or `null` is kept as the literal Python writes. A
string is Unicode scalar text: the lone surrogates that a Python string may hold are not modelled,
as two of them in a row are escaped like the character they encode. -/
inductive Json where
  | literal (text : String)
  | string (value : String)
  | array (items : List Json)
  | object (fields : List (String × Json))

/-- A Python `dict` with string keys, in insertion order. -/
abbrev Dict := List (String × Json)

def backslash : Char := Char.ofNat 0x5c

/-- A `u` escape of sixteen bits. -/
def unicodeEscape (n : ℕ) : List Char :=
  backslash :: 'u' :: [n / 4096, n / 256, n / 16, n].map fun d => Nat.digitChar (d % 16)

/-- One character of a string literal under `ensure_ascii`. -/
def escapeChar (c : Char) : List Char :=
  match c.toNat with
  | 0x22 => [backslash, c]
  | 0x5c => [backslash, c]
  | 0x08 => [backslash, 'b']
  | 0x09 => [backslash, 't']
  | 0x0a => [backslash, 'n']
  | 0x0c => [backslash, 'f']
  | 0x0d => [backslash, 'r']
  | n =>
    if 0x20 ≤ n ∧ n ≤ 0x7e then [c]
    else if n < 0x10000 then unicodeEscape n
    else unicodeEscape (0xd800 + (n - 0x10000) / 0x400) ++
      unicodeEscape (0xdc00 + (n - 0x10000) % 0x400)

def quote (s : String) : String :=
  let mark := Char.ofNat 0x22
  String.ofList (mark :: s.toList.flatMap escapeChar ++ [mark])

mutual
/-- `json.dumps` with its default separators. -/
def dumps : Json → String
  | .literal text => text
  | .string value => quote value
  | .array items => "[" ++ ", ".intercalate (dumpsItems items) ++ "]"
  | .object fields => "\x7b" ++ (", ".intercalate (dumpsFields fields) ++ "\x7d")

def dumpsItems : List Json → List String
  | [] => []
  | item :: items => dumps item :: dumpsItems items

def dumpsFields : List (String × Json) → List String
  | [] => []
  | (key, value) :: fields => (quote key ++ ": " ++ dumps value) :: dumpsFields fields
end

mutual
/-- The effect of `sort_keys`: every dictionary in the order of its keys. -/
def sortKeys : Json → Json
  | .literal text => .literal text
  | .string value => .string value
  | .array items => .array (sortKeysItems items)
  | .object fields =>
    .object ((sortKeysFields fields).insertionSort fun p q => p.1 ≤ q.1)

def sortKeysItems : List Json → List Json
  | [] => []
  | item :: items => sortKeys item :: sortKeysItems items

def sortKeysFields : List (String × Json) → List (String × Json)
  | [] => []
  | (key, value) :: fields => (key, sortKeys value) :: sortKeysFields fields
end

/-- The canonical text of an event, `json.dumps(event, sort_keys=True)`. -/
def canonicalText (event : Dict) : String := dumps (sortKeys (.object event))

/-- Canonical texts start with an opening brace. -/
theorem exists_encode_canonicalText (event : Dict) :
    ∃ rest, encode (canonicalText event) = 0x7b :: rest := by
  unfold canonicalText
  rw [sortKeys, dumps, encode_append]
  exact ⟨_, rfl⟩

end Traceability.Generator
