/-! Decimal text of binary floating point numbers.

A finite number is written with the fewest digits that read back as itself
(`Decimal.shortest`): of all grids of multiples of a power of ten, the coarsest one
that meets the interval of reals nearest to the number is taken, and on it the nearest
point. Numbers of moderate size are written out, others with an exponent
(`Decimal.format`). -/
namespace Lifeline.Decimal

/-- `mantissa * 2 ^ exponent`, as a finite number above zero is stored. -/
structure Binary where
  mantissa : Nat
  exponent : Int
  deriving DecidableEq, Repr

/-- `mantissa * 10 ^ exponent`. -/
structure Scaled where
  mantissa : Nat
  exponent : Int
  deriving DecidableEq, Repr

/-- The stored form of a double of these bits, its sign left out; the largest stored
exponent stands for infinities and is not asked for. -/
def Binary.ofBits (bits : UInt64) : Binary :=
  let fraction : Nat := bits.toNat % (1 <<< 52)
  let stored : Nat := (bits.toNat >>> 52) % (1 <<< 11)
  if stored = 0 then ⟨fraction, -1074⟩ else ⟨(1 <<< 52) + fraction, Int.ofNat stored - 1075⟩

/-- Distance to the lower end of the interval that reads back, in quarters of the last
place: numbers lie closer below a power of two. -/
def Binary.below (b : Binary) : Nat :=
  if b.mantissa = (1 <<< 52) ∧ b.exponent ≠ -1074 then 1 else 2

/-- `10 ^ k`, one for negative exponents. -/
def powerOfTen (k : Int) : Nat :=
  Nat.pow 10 k.toNat

/-- Whether `point * 10 ^ k` reads back as the number: it lies in the interval of reals
nearest to it, whose ends belong to numbers of even mantissa. -/
def Binary.readsBack (b : Binary) (k : Int) (point : Nat) : Bool :=
  let scaled := (point * powerOfTen k) <<< (2 - b.exponent).toNat
  let unit := powerOfTen (-k) <<< (b.exponent - 2).toNat
  let low := (4 * b.mantissa - b.below) * unit
  let high := (4 * b.mantissa + 2) * unit
  if b.mantissa % 2 = 0 then decide (low ≤ scaled ∧ scaled ≤ high)
  else decide (low < scaled ∧ scaled < high)

/-- The multiple of `10 ^ k` that reads back, if there is one: a neighbour of the number,
the nearer of two, the even one of two as near. -/
def Binary.onGrid? (b : Binary) (k : Int) : Option Nat :=
  let numerator := (b.mantissa * powerOfTen (-k)) <<< b.exponent.toNat
  let denominator := powerOfTen k <<< (-b.exponent).toNat
  let floor := numerator / denominator
  let twice := 2 * (numerator % denominator)
  let lower := floor ≠ 0 ∧ b.readsBack k floor
  if b.readsBack k (floor + 1) then
    if lower ∧ (twice < denominator ∨ (twice = denominator ∧ floor % 2 = 0)) then some floor
    else some (floor + 1)
  else if lower then some floor
  else none

/-- The grids to try for a double, coarsest first. -/
def grids : List Int :=
  (List.range 640).map fun i => 309 - Int.ofNat i

/-- The shortest decimal that reads back as the number. -/
def Binary.shortest (b : Binary) : Scaled :=
  match grids.findSome? fun k => (b.onGrid? k).map fun n => (⟨n, k⟩ : Scaled) with
  | some s => s
  | none => ⟨0, 0⟩

/-- Digits written out with a point and at least one digit on either side of it; `point`
counts the digits before it. -/
def positional (digits : List Char) (point : Int) : List Char :=
  if point ≤ 0 then '0' :: '.' :: List.replicate (-point).toNat '0' ++ digits
  else if digits.length ≤ point.toNat then
    digits ++ List.replicate (point.toNat - digits.length) '0' ++ ['.', '0']
  else digits.take point.toNat ++ '.' :: digits.drop point.toNat

/-- One digit, the others behind a point, and a signed exponent. -/
def scientific (digits : List Char) (exponent : Int) : List Char :=
  let mantissa :=
    match digits with
    | [] => []
    | [d] => [d]
    | d :: rest => d :: '.' :: rest
  mantissa ++ 'e' :: (if exponent < 0 then '-' else '+') :: Nat.toDigits 10 exponent.natAbs

/-- A decimal above zero: written out when its first digit stands between the fifth place
behind the point and the sixteenth before it. -/
def Scaled.format (s : Scaled) : List Char :=
  let digits := Nat.toDigits 10 s.mantissa
  let leading := s.exponent + digits.length - 1
  if -5 ≤ leading ∧ leading ≤ 15 then positional digits (leading + 1)
  else scientific digits leading

/-- A finite number; zero keeps its sign. -/
def format (x : Float) : String :=
  let bits := x.toBits
  let magnitude := bits &&& 0x7FFFFFFFFFFFFFFF
  let text := if magnitude = 0 then ['0', '.', '0'] else (Binary.ofBits magnitude).shortest.format
  String.ofList (if bits = magnitude then text else '-' :: text)

end Lifeline.Decimal
