import Lifeline.Decimal

/-! Numbers as JSON spells them, and what they are worth.

A numeral is its sign and its digits, taken from the start of a text by the JSON grammar
(`Numeral.take?`). It is worth a whole number when it is spelled as one and fits a machine
word, and else a floating point number (`Numeral.quantity?`); `-0` is of the second kind.
The floating point value is found from the first digits that fit a word, scaled once by
a power of ten, which is near but not always nearest to the spelled number. -/
namespace Lifeline.Json

/-- The part of a numeral behind its `e`. -/
structure Exponent where
  negative : Bool
  digits : List Char
  deriving DecidableEq, Repr

/-- A number as it is spelled. -/
structure Numeral where
  negative : Bool
  /-- The digits before the point; there is at least one. -/
  whole : List Char
  /-- The digits behind the point, none if there is no point. -/
  fraction : List Char
  exponent : Option Exponent
  deriving DecidableEq, Repr

namespace Numeral

/-- A sign, if one of `signs` comes first. -/
def takeSign (signs : List Char) : List Char → Option Char × List Char
  | [] => (none, [])
  | c :: rest => if c ∈ signs then (some c, rest) else (none, c :: rest)

/-- Digits behind a point, if there is a point. -/
def takeFraction? : List Char → Option (List Char × List Char)
  | '.' :: rest =>
    match rest.span Char.isDigit with
    | ([], _) => none
    | (digits, rest) => some (digits, rest)
  | text => some ([], text)

/-- The exponent, if there is one. -/
def takeExponent? : List Char → Option (Option Exponent × List Char)
  | [] => some (none, [])
  | c :: rest =>
    if c = 'e' ∨ c = 'E' then
      let (sign, rest) := takeSign ['+', '-'] rest
      match rest.span Char.isDigit with
      | ([], _) => none
      | (digits, rest) => some (some ⟨sign == some '-', digits⟩, rest)
    else some (none, c :: rest)

/-- Takes a numeral from the start of a text, as long as can be. No whole part starts with
a zero but zero itself. -/
def take? (text : List Char) : Option (Numeral × List Char) :=
  let (sign, text) := takeSign ['-'] text
  let (whole, text) := text.span Char.isDigit
  if whole = [] ∨ (whole.head? = some '0' ∧ whole ≠ ['0']) then none
  else
    match takeFraction? text with
    | none => none
    | some (fraction, text) =>
      match takeExponent? text with
      | none => none
      | some (exponent, text) => some (⟨sign.isSome, whole, fraction, exponent⟩, text)

end Numeral

/-- What a numeral is worth. -/
inductive Quantity where
  | integer (value : Int)
  | real (value : Float)

namespace Numeral

def digitValue (c : Char) : Nat :=
  c.toNat - 48

/-- Puts digits behind a number as long as it stays a machine word; the rest is left. -/
def gather : Nat → List Char → Nat × List Char
  | n, [] => (n, [])
  | n, c :: rest =>
    if n * 10 + digitValue c < UInt64.size then gather (n * 10 + digitValue c) rest
    else (n, c :: rest)

def digitsValue (digits : List Char) : Nat :=
  digits.foldl (fun n c => n * 10 + digitValue c) 0

/-- A power of ten, as near as can be. -/
def powerOfTen (k : Nat) : Float :=
  Float.ofScientific 1 false k

/-- Divides by a power of ten, by steps of at most 308. -/
def scaleDown (x : Float) (k : Nat) : Float :=
  if k ≤ 308 then x / powerOfTen k
  else if x == 0 then x
  else scaleDown (x / powerOfTen 308) (k - 308)
  termination_by k
  decreasing_by omega

/-- Scales by a power of ten, unless the result is too large. -/
def scale? (x : Float) (k : Int) : Option Float :=
  if k < 0 then some (scaleDown x k.natAbs)
  else if k ≤ 308 then
    if (x * powerOfTen k.natAbs).isInf then none else some (x * powerOfTen k.natAbs)
  else if x == 0 then some x
  else none

/-- Largest exponent that is still scaled by; beyond it only zero and infinity are left. -/
def maxExponent : Nat := UInt32.size / 2 - 1

/-- The size of the number, unless it is too large. -/
def magnitude? (n : Numeral) : Option Float :=
  let (start, spilled) := gather 0 n.whole
  let (significand, lost) := gather start n.fraction
  let shift := Int.ofNat spilled.length - Int.ofNat (n.fraction.length - lost.length)
  let x := (UInt64.ofNat significand).toFloat
  match n.exponent with
  | none => scale? x shift
  | some e =>
    if maxExponent < digitsValue e.digits then
      if significand ≠ 0 ∧ e.negative = false then none else some 0
    else if e.negative then scale? x (shift - Int.ofNat (digitsValue e.digits))
    else scale? x (shift + Int.ofNat (digitsValue e.digits))

/-- The whole number that is spelled, if it is spelled as one and fits a signed or an
unsigned machine word. -/
def integer? (n : Numeral) : Option Int :=
  if n.fraction ≠ [] ∨ n.exponent ≠ none then none
  else
    match gather 0 n.whole with
    | (value, []) =>
      if n.negative = false then some value
      else if value ≠ 0 ∧ value ≤ UInt64.size / 2 then some (-value)
      else none
    | _ => none

/-- What a numeral is worth; nothing if that is too large for a floating point number. -/
def quantity? (n : Numeral) : Option Quantity :=
  match n.integer? with
  | some value => some (.integer value)
  | none => n.magnitude?.map fun x => .real (if n.negative then -x else x)

end Numeral

end Lifeline.Json
