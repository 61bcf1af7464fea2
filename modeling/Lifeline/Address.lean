/-! Addresses and times of the running kernel, and their written forms.

An address is a 64-bit word and its arithmetic wraps. A report writes it as `0x` and
sixteen digits (`Address.format`), so that text order is number order; a message
writes it without leading zeros (`Address.brief`). -/
namespace Lifeline

/-- An address in kernel memory. -/
abbrev Address := UInt64

/-- A time or an age in nanoseconds of the monotonic clock. -/
abbrev Nanos := UInt64

namespace Hex

/-- The lower-case digit of a number below sixteen. -/
def digit (n : Nat) : Char :=
  if n < 10 then Char.ofNat (48 + n) else Char.ofNat (87 + n)

/-- The lowest `width` digits of `n`, highest first. -/
def fixed : (width : Nat) → (n : Nat) → List Char
  | 0, _ => []
  | width + 1, n => fixed width (n / 16) ++ [digit (n % 16)]

theorem length_fixed (width n : Nat) : (fixed width n).length = width := by
  induction width generalizing n with
  | zero => rfl
  | succ width ih => simp [fixed, ih]

/-- The digits of `n` without leading zeros; zero has one digit. -/
def brief (n : Nat) : List Char :=
  Nat.toDigits 16 n

end Hex

/-- `0x` and sixteen digits. -/
def Address.format (a : Address) : String :=
  String.ofList ('0' :: 'x' :: Hex.fixed 16 a.toNat)

/-- `0x` and as few digits as needed. -/
def Address.brief (a : Address) : String :=
  String.ofList ('0' :: 'x' :: Hex.brief a.toNat)

end Lifeline
