import Lifeline.Json.Escape

/-! Writing JSON.

A value is written with no white space at all (`Value.compact`), or with every item and
member on a line of its own, two blanks further in than its container (`Value.pretty`);
an empty container has no lines. Members keep their order. -/
namespace Lifeline.Json

/-- A value to write. -/
inductive Value where
  | bool (value : Bool)
  | number (value : Nat)
  | text (value : String)
  | array (items : List Value)
  | object (members : List (String × Value))

/-- A text between quotes. -/
def writeText (s : String) : List Char :=
  '"' :: (escape s.toList ++ ['"'])

def writeBool (b : Bool) : List Char :=
  if b then "true".toList else "false".toList

def writeNumber (n : Nat) : List Char :=
  Nat.toDigits 10 n

namespace Value

mutual

/-- The text of a value without white space. -/
def compact : Value → List Char
  | bool value => writeBool value
  | number value => writeNumber value
  | text value => writeText value
  | array items => '[' :: (compactItems items ++ [']'])
  | object members => '{' :: (compactMembers members ++ ['}'])

def compactItems : List Value → List Char
  | [] => []
  | [item] => compact item
  | item :: rest => compact item ++ ',' :: compactItems rest

def compactMembers : List (String × Value) → List Char
  | [] => []
  | [(key, value)] => writeText key ++ ':' :: compact value
  | (key, value) :: rest => writeText key ++ ':' :: (compact value ++ ',' :: compactMembers rest)

end

/-- A new line, this many levels in. -/
def newLine (depth : Nat) : List Char :=
  '\n' :: List.replicate (2 * depth) ' '

mutual

/-- The text of a value, its inner lines being `depth` levels in. -/
def prettyAt (depth : Nat) : Value → List Char
  | bool value => writeBool value
  | number value => writeNumber value
  | text value => writeText value
  | array [] => ['[', ']']
  | array items => '[' :: (prettyItems (depth + 1) items ++ newLine depth ++ [']'])
  | object [] => ['{', '}']
  | object members => '{' :: (prettyMembers (depth + 1) members ++ newLine depth ++ ['}'])

def prettyItems (depth : Nat) : List Value → List Char
  | [] => []
  | [item] => newLine depth ++ prettyAt depth item
  | item :: rest => newLine depth ++ prettyAt depth item ++ ',' :: prettyItems depth rest

def prettyMembers (depth : Nat) : List (String × Value) → List Char
  | [] => []
  | [(key, value)] => newLine depth ++ writeText key ++ ':' :: ' ' :: prettyAt depth value
  | (key, value) :: rest =>
    newLine depth ++ writeText key ++
      ':' :: ' ' :: (prettyAt depth value ++ ',' :: prettyMembers depth rest)

end

/-- The text of a value, one item or member on a line. -/
def pretty (v : Value) : List Char :=
  prettyAt 0 v

end Value

end Lifeline.Json
