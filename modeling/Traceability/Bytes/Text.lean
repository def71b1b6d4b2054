import Traceability.Bytes.LittleEndian

/-! Text as bytes: the UTF-8 encoding of a string and hexadecimal digits. -/
namespace Traceability.Bytes

/-- UTF-8. -/
def encode (s : String) : Bytes := s.toList.flatMap String.utf8EncodeChar

@[simp] theorem encode_append (s t : String) : encode (s ++ t) = encode s ++ encode t := by
  simp [encode]

theorem encode_injective : Function.Injective encode := by
  intro s t h
  have hbytes : s.toList.utf8Encode = t.toList.utf8Encode := congrArg List.toByteArray h
  rw [String.utf8Encode_toList, String.utf8Encode_toList] at hbytes
  exact String.toByteArray_inj.mp hbytes

/-- The two lower-case digits of a byte. -/
def hexPair (b : UInt8) : List Char := [Nat.digitChar (b.toNat / 16), Nat.digitChar (b.toNat % 16)]

def hex (bs : Bytes) : String := String.ofList (bs.flatMap hexPair)

/-- The ASCII code of a hexadecimal digit. -/
def hexByte (n : ℕ) : UInt8 := UInt8.ofNat (Nat.digitChar n).toNat

theorem utf8EncodeChar_digitChar {n : ℕ} (h : n < 16) :
    String.utf8EncodeChar (Nat.digitChar n) = [hexByte n] := by
  have hall : ∀ n : Fin 16, String.utf8EncodeChar (Nat.digitChar n) = [hexByte n] := by decide
  exact hall ⟨n, h⟩

theorem hexByte_injective {m n : ℕ} (hm : m < 16) (hn : n < 16) (h : hexByte m = hexByte n) :
    m = n := by
  have hall : ∀ m n : Fin 16, hexByte m = hexByte n → m = n := by decide
  exact congrArg Fin.val (hall ⟨m, hm⟩ ⟨n, hn⟩ h)

theorem encode_hex (bs : Bytes) :
    encode (hex bs) = bs.flatMap fun b => [hexByte (b.toNat / 16), hexByte (b.toNat % 16)] := by
  have hpair : ∀ b, (hexPair b).flatMap String.utf8EncodeChar =
      [hexByte (b.toNat / 16), hexByte (b.toNat % 16)] := by
    intro b
    have hb := b.toNat_lt
    unfold hexPair
    rw [List.flatMap_cons, List.flatMap_singleton,
      utf8EncodeChar_digitChar (by omega), utf8EncodeChar_digitChar (by omega)]
    rfl
  unfold encode
  rw [hex, String.toList_ofList, List.flatMap_assoc]
  simp only [hpair]

@[simp] theorem length_encode_hex (bs : Bytes) : (encode (hex bs)).length = 2 * bs.length := by
  rw [encode_hex]
  induction bs with
  | nil => rfl
  | cons b bs ih =>
    rw [List.flatMap_cons, List.length_append, ih, List.length_cons]
    simp only [List.length_cons, List.length_nil]
    omega

theorem encode_hex_injective {as bs : Bytes} (h : encode (hex as) = encode (hex bs)) : as = bs := by
  rw [encode_hex, encode_hex] at h
  induction as generalizing bs with
  | nil =>
    cases bs with
    | nil => rfl
    | cons b bs => simp at h
  | cons a as ih =>
    cases bs with
    | nil => simp at h
    | cons b bs =>
      simp only [List.flatMap_cons, List.cons_append, List.nil_append, List.cons.injEq] at h
      obtain ⟨hhigh, hlow, hrest⟩ := h
      have ha := a.toNat_lt
      have hb := b.toNat_lt
      have hdiv := hexByte_injective (by omega) (by omega) hhigh
      have hmod := hexByte_injective (by omega) (by omega) hlow
      have hab : a = b := UInt8.toNat_inj.mp (by omega)
      rw [hab, ih hrest]

theorem hex_toList_injective {n : ℕ} {a b : Vector UInt8 n} (h : hex a.toList = hex b.toList) :
    a = b :=
  Vector.toList_inj.mp (encode_hex_injective (congrArg encode h))

/-- Hexadecimal text starts with a digit or a letter from `a` to `f`. -/
theorem head?_encode_hex {bs : Bytes} {c : UInt8} (h : (encode (hex bs)).head? = some c) :
    ∃ n < 16, c = hexByte n := by
  cases bs with
  | nil => simp [encode_hex] at h
  | cons b bs =>
    have hb := b.toNat_lt
    rw [encode_hex] at h
    exact ⟨b.toNat / 16, by omega, (Option.some_inj.mp h).symm⟩

end Traceability.Bytes
