/-! Words as bytes, lowest byte first.

`encode` writes the lowest `width` bytes of a number and `decode` reads bytes back, which gives
the number again if it fits (`decode_encode`). -/
namespace Lifeline.LittleEndian

/-- The lowest `width` bytes of `n`. -/
def encode : (width : Nat) → (n : Nat) → List UInt8
  | 0, _ => []
  | width + 1, n => UInt8.ofNat (n % 256) :: encode width (n / 256)

/-- The number that the bytes stand for. -/
def decode : List UInt8 → Nat
  | [] => 0
  | b :: rest => b.toNat + 256 * decode rest

@[simp] theorem length_encode (width n : Nat) : (encode width n).length = width := by
  induction width generalizing n with
  | zero => rfl
  | succ width ih => simp [encode, ih]

/-- How many numbers `width` bytes can hold. -/
def limit : (width : Nat) → Nat
  | 0 => 1
  | width + 1 => 256 * limit width

/-- Reading back gives the number modulo the room it was written in. -/
theorem decode_encode_mod (width n : Nat) : decode (encode width n) = n % limit width := by
  induction width generalizing n with
  | zero => simp [encode, decode, limit, Nat.mod_one]
  | succ width ih =>
    have byte : (UInt8.ofNat (n % 256)).toNat = n % 256 := by simp
    rw [encode, decode, ih, byte, limit, Nat.mod_mul]

theorem decode_encode {width n : Nat} (h : n < limit width) : decode (encode width n) = n := by
  rw [decode_encode_mod, Nat.mod_eq_of_lt h]

end Lifeline.LittleEndian
