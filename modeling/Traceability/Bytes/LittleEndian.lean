import Mathlib.Tactic.Ring
import Mathlib.Data.Nat.ModEq

/-! Fixed-width integers, little-endian and big-endian. Every word of the right length encodes
exactly one integer below the bound, so the format wastes nothing and is injective. -/
namespace Traceability

abbrev Bytes := List UInt8

namespace Bytes

def littleEndian : ℕ → ℕ → Bytes
  | 0, _ => []
  | w + 1, n => UInt8.ofNat n :: littleEndian w (n / 256)

def ofLittleEndian : Bytes → ℕ
  | [] => 0
  | b :: bs => b.toNat + 256 * ofLittleEndian bs

@[simp] theorem length_littleEndian (w n : ℕ) : (littleEndian w n).length = w := by
  induction w generalizing n with
  | zero => rfl
  | succ w ih => simp [littleEndian, ih]

theorem ofLittleEndian_lt (bs : Bytes) : ofLittleEndian bs < 256 ^ bs.length := by
  induction bs with
  | nil => simp [ofLittleEndian]
  | cons b bs ih =>
    have hb := b.toNat_lt
    simp only [ofLittleEndian, List.length_cons, pow_succ]
    omega

theorem ofLittleEndian_littleEndian (w n : ℕ) :
    ofLittleEndian (littleEndian w n) = n % 256 ^ w := by
  induction w generalizing n with
  | zero => simp [littleEndian, ofLittleEndian, Nat.mod_one]
  | succ w ih =>
    have hb : (UInt8.ofNat n).toNat = n % 256 := UInt8.toNat_ofNat'
    rw [littleEndian, ofLittleEndian, ih, hb, pow_succ', Nat.mod_mul]

theorem littleEndian_ofLittleEndian (bs : Bytes) :
    littleEndian bs.length (ofLittleEndian bs) = bs := by
  induction bs with
  | nil => rfl
  | cons b bs ih =>
    have hb := b.toNat_lt
    have hdiv : (b.toNat + 256 * ofLittleEndian bs) / 256 = ofLittleEndian bs := by omega
    simp only [ofLittleEndian, List.length_cons, littleEndian, hdiv, ih, List.cons.injEq, and_true]
    apply UInt8.toNat_inj.mp
    simp

theorem littleEndian_injective {w m n : ℕ} (hm : m < 256 ^ w) (hn : n < 256 ^ w)
    (h : littleEndian w m = littleEndian w n) : m = n := by
  have hv := congrArg ofLittleEndian h
  rwa [ofLittleEndian_littleEndian, ofLittleEndian_littleEndian, Nat.mod_eq_of_lt hm,
    Nat.mod_eq_of_lt hn] at hv

/-- The same bytes, the most significant first. -/
def bigEndian (w n : ℕ) : Bytes := (littleEndian w n).reverse

@[simp] theorem length_bigEndian (w n : ℕ) : (bigEndian w n).length = w := by
  unfold bigEndian
  rw [List.length_reverse, length_littleEndian]

theorem bigEndian_injective {w m n : ℕ} (hm : m < 256 ^ w) (hn : n < 256 ^ w)
    (h : bigEndian w m = bigEndian w n) : m = n :=
  littleEndian_injective hm hn (List.reverse_inj.mp h)

end Bytes
end Traceability
