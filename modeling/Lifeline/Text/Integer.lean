/-! Whole numbers in text, as bounded machine words are written.

A sign may come first; `-` counts as a digit where the word has no negative values.
Digits are read from the left and the first fault decides: at one character a bad
digit comes before an overflow. -/
namespace Lifeline.Text

/-- Why a text is not a number of the wanted range. -/
inductive IntegerError where
  | empty
  | invalidDigit
  | tooLarge
  | tooSmall
  deriving DecidableEq, Repr

def IntegerError.message : IntegerError → String
  | .empty => "cannot parse integer from empty string"
  | .invalidDigit => "invalid digit found in string"
  | .tooLarge => "number too large to fit in target type"
  | .tooSmall => "number too small to fit in target type"

/-- The value of a digit, letters of either case counting from ten. -/
def digitValue? (radix : Nat) (c : Char) : Option Nat :=
  let value :=
    if '0' ≤ c ∧ c ≤ '9' then c.toNat - 48
    else if 'a' ≤ c ∧ c ≤ 'z' then c.toNat - 87
    else if 'A' ≤ c ∧ c ≤ 'Z' then c.toNat - 55
    else radix
  if value < radix then some value else none

/-- Reads digits behind a number already read, which may not pass `limit`. -/
def readDigits (radix limit : Nat) (overflow : IntegerError) :
    Nat → List Char → Except IntegerError Nat
  | value, [] => .ok value
  | value, c :: rest =>
    match digitValue? radix c with
    | none => .error .invalidDigit
    | some d =>
      if value * radix + d ≤ limit then readDigits radix limit overflow (value * radix + d) rest
      else .error overflow

/-- Reads a number from zero to `limit`. -/
def readNatural (radix limit : Nat) : List Char → Except IntegerError Nat
  | [] => .error .empty
  | ['+'] => .error .invalidDigit
  | '+' :: digits => readDigits radix limit .tooLarge 0 digits
  | digits => readDigits radix limit .tooLarge 0 digits

/-- Reads a number from `-(limit + 1)` to `limit`. -/
def readInteger (radix limit : Nat) : List Char → Except IntegerError Int
  | [] => .error .empty
  | ['+'] => .error .invalidDigit
  | ['-'] => .error .invalidDigit
  | '+' :: digits => (readDigits radix limit .tooLarge 0 digits).map Int.ofNat
  | '-' :: digits => (readDigits radix (limit + 1) .tooSmall 0 digits).map fun n => -(n : Int)
  | digits => (readDigits radix limit .tooLarge 0 digits).map Int.ofNat

end Lifeline.Text
