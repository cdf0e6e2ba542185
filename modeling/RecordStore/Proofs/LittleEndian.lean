import Mathlib.Algebra.Group.Nat.Defs
import RecordStore.Bytes.LittleEndian

/-!
# Words and their bytes

The two directions undo each other: `decode_encode` for a number that fits the width, `encode_decode` for every byte
string.
-/

namespace RecordStore.LittleEndian

theorem decode_encode_mod (width n : Nat) : decode (encode width n) = n % 256 ^ width := by
  induction width generalizing n with
  | zero => simp [encode, decode, Nat.mod_one]
  | succ width ih =>
    have hlow : (UInt8.ofNat n).toNat = n % 256 := by simp
    rw [encode, decode, ih, hlow, Nat.pow_succ', Nat.mod_mul]

theorem decode_encode {width n : Nat} (h : n < 256 ^ width) : decode (encode width n) = n := by
  rw [decode_encode_mod, Nat.mod_eq_of_lt h]

theorem encode_inj {width m n : Nat} (hm : m < 256 ^ width) (hn : n < 256 ^ width)
    (h : encode width m = encode width n) : m = n := by
  rw [← decode_encode hm, ← decode_encode hn, h]

/-- Only the lowest `width` bytes of the number are written. -/
theorem encode_mod (width n : Nat) : encode width (n % 256 ^ width) = encode width n := by
  induction width generalizing n with
  | zero => rfl
  | succ width ih =>
    have hlow : UInt8.ofNat (n % (256 * 256 ^ width)) = UInt8.ofNat n := by
      apply UInt8.toNat_inj.1
      simp only [UInt8.toNat_ofNat']
      exact Nat.mod_mul_right_mod ..
    rw [encode, encode, Nat.pow_succ', hlow, Nat.mod_mul_right_div_self, ih]

theorem encode_decode (bytes : List UInt8) : encode bytes.length (decode bytes) = bytes := by
  induction bytes with
  | nil => rfl
  | cons b bytes ih =>
    have hb := b.toNat_lt
    have hlow : UInt8.ofNat (b.toNat + 256 * decode bytes) = b := by
      apply UInt8.toNat_inj.1
      simp only [UInt8.toNat_ofNat']
      omega
    have hhigh : (b.toNat + 256 * decode bytes) / 256 = decode bytes := by omega
    simp [encode, decode, hlow, hhigh, ih]

theorem decode_lt (bytes : List UInt8) : decode bytes < 256 ^ bytes.length := by
  induction bytes with
  | nil => simp [decode]
  | cons b bytes ih =>
    have hb := b.toNat_lt
    simp only [decode, List.length_cons, Nat.pow_succ]
    omega

theorem decode_inj {xs ys : List UInt8} (hlen : xs.length = ys.length) (h : decode xs = decode ys) : xs = ys := by
  rw [← encode_decode xs, ← encode_decode ys, hlen, h]

end RecordStore.LittleEndian
