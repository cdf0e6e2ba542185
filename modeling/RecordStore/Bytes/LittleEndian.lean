/-!
# Little-endian words

A word of `width` bytes is written lowest byte first.
-/

namespace RecordStore.LittleEndian

/-- The lowest `width` bytes of `n`, lowest first. -/
def encode : Nat → Nat → List UInt8
  | 0, _ => []
  | width + 1, n => UInt8.ofNat n :: encode width (n / 256)

def decode : List UInt8 → Nat
  | [] => 0
  | b :: bytes => b.toNat + 256 * decode bytes

@[simp] theorem length_encode (width n : Nat) : (encode width n).length = width := by
  induction width generalizing n with
  | zero => rfl
  | succ width ih => simp [encode, ih]

end RecordStore.LittleEndian
